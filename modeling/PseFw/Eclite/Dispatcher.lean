/-
**The events of ECLite and their dispatcher.**

Interrupts, callbacks and timers do not do any work: they put an event into a queue of twenty, and
the dispatcher takes them out one by one.  The interrupt of a pin switches its own callback off and
counts on the dispatcher to switch it on again; the HECI client keeps its receive buffer locked
until the dispatcher has seen the message.  So an event that gets lost is a pin, or a host, that is
not heard again.

Nobody waits for room in the queue and nobody looks whether there was any, and at the end of a
connection all of the queue is thrown away.  And the loop over the devices, which switches a pin on
again, follows a pointer that not every device has.

Main definitions:

* `EcliteSys`, `ecliteStep` — interrupts, callbacks, ticks and the dispatcher in any order;
* `NoLostEvent` — what is wanted of the queue;
* `QueueDiscipline` — there is room for the two kinds of events, none of them is thrown away, and
  the loop comes to no device without a configuration.

Main results:

* `queueInv_step` — every disciplined step keeps the invariant;
* `noLostEvent_of_disciplined` — **no event is lost in a disciplined run.**
-/

import PseFw.Eclite.HostComm
import PseFw.Lib.Transition

set_option relaxedAutoImplicit false
set_option autoImplicit false

namespace PseFw.Eclite

/-! ### The queue -/

/-- `ECLITE_QUEUE_DEPTH`. -/
def ecliteQueueDepth : ℕ := 20

/-- `eclite_post_dispatcher_event`: without room the event is dropped. -/
def eclitePostDispatcherEvent (event : DispatcherQueueData) (queue : List DispatcherQueueData) :
    List DispatcherQueueData :=
  if queue.length < ecliteQueueDepth then queue ++ [event] else queue

theorem mem_post_of_mem {e e' : DispatcherQueueData} {q : List DispatcherQueueData} (h : e ∈ q) :
    e ∈ eclitePostDispatcherEvent e' q := by
  unfold eclitePostDispatcherEvent
  split
  · exact List.mem_append_left _ h
  · exact h

theorem mem_post_self {e : DispatcherQueueData} {q : List DispatcherQueueData}
    (h : q.length < ecliteQueueDepth) : e ∈ eclitePostDispatcherEvent e q := by
  unfold eclitePostDispatcherEvent
  rw [if_pos h]
  exact List.mem_append_right _ (List.mem_singleton_self e)

/-- `HECI_EVENT_NEW_MSG`. -/
def heciEventNewMsg : ℕ := 1

/-- `HECI_EVENT_DISCONN`. -/
def heciEventDisconn : ℕ := 2

/-- The event of a message. -/
def newMsgEvent : DispatcherQueueData := ⟨.heci, heciEventNewMsg⟩

/-- The event of a pin. -/
def gpioEvent (pin : ℕ) : DispatcherQueueData := ⟨.gpio, pin⟩

/-! ### The devices and their pins -/

/-- `enum device_type`. -/
inductive DeviceType
  | chg
  | fg
  | fan
  | tacho
  | thermal
  | thermalCpu
  | ucsi
  deriving DecidableEq, Repr

/-- What the dispatcher reads of a device: its type, the port its pin belongs to, if there is one,
and the number of the pin, if the pointer to its configuration is set. -/
structure EcliteDevice where
  deviceTyp : DeviceType
  gpioDev : Option ℕ
  gpioNo : Option ℕ
  deriving DecidableEq, Repr

/-- The loop of `find_bit_position`, with the bits that are left. -/
def shiftLoop : ℕ → ℕ → ℤ → ℤ
  | 0, _, position => position
  | bits + 1, mask, position =>
      if mask = 0 then position else shiftLoop bits (mask / 2) (position + 1)

/-- `find_bit_position`: the number of the highest bit of a mask, as a `uint8_t`. -/
def findBitPosition (mask : ℕ) : ℕ := (shiftLoop 32 mask (-1) % 256).toNat

/-- A callback is registered for one pin, and finds its number. -/
theorem findBitPosition_pin (pin : Fin 32) : findBitPosition (2 ^ pin.val) = pin.val := by
  revert pin
  decide

/-- The event a device is handled with; a device of another type takes what stands in the
variable. -/
def DeviceType.event (stack : EcliteEvents) : DeviceType → EcliteEvents
  | .chg => .chg
  | .fg => .fg
  | .thermal | .fan => .thermal
  | .ucsi => .ucsi
  | .tacho | .thermalCpu => stack

/-! ### The system -/

/-- The type of what stands in the receive buffer. -/
inductive RxType
  | request
  | connect
  deriving DecidableEq, Repr

/-- `eclite_rx_msg`, and how far what stands in it has come: it is still being received, or it is
complete and has not been processed. -/
structure RxMsg where
  type : RxType
  connectionId : ℕ
  msgLock : Bool
  receiving : Bool
  unprocessed : Bool
  deriving DecidableEq, Repr

/-- Where the dispatcher stands. -/
inductive Phase
  /-- It waits for an event. -/
  | waiting
  /-- `gpio_event_processing`: the pin, the variable for the event, the devices that are left. -/
  | gpio (pin : ℕ) (event : EcliteEvents) (devices : List EcliteDevice)
  /-- The event of a device has been posted, its pin is about to be switched on. -/
  | gpioPosted (pin : ℕ) (event : EcliteEvents) (device : EcliteDevice)
      (devices : List EcliteDevice)
  /-- `eclite_heci_event_process`. -/
  | heci (event : ℕ)
  /-- A message has been processed, flow control comes next. -/
  | flowControl
  /-- `heci_complete_disconnect` has succeeded, the purge comes next. -/
  | purge
  /-- Any other event. -/
  | other (event : DispatcherQueueData)
  /-- It has followed a null pointer, and does nothing any more. -/
  | fault
  deriving DecidableEq, Repr

/-- The event that is being processed. -/
def Phase.event : Phase → Option DispatcherQueueData
  | .waiting | .fault => none
  | .gpio pin _ _ | .gpioPosted pin _ _ _ => some (gpioEvent pin)
  | .heci event => some ⟨.heci, event⟩
  | .flowControl => some newMsgEvent
  | .purge => some ⟨.heci, heciEventDisconn⟩
  | .other event => some event

/-- ECLite: the queue, the callbacks of the pins by port and number, the dispatcher, the receive
buffer and the communication with the host. -/
structure EcliteSys where
  queue : List DispatcherQueueData
  enabled : ℕ → ℕ → Bool
  phase : Phase
  rxMsg : RxMsg
  comm : HostComm
  dispatcherTimer : Bool

/-- Put an event into the queue. -/
def EcliteSys.post (event : DispatcherQueueData) (x : EcliteSys) : EcliteSys :=
  { x with queue := eclitePostDispatcherEvent event x.queue }

/-- `eclite_gpio_pin_enable_callback`, `eclite_gpio_pin_disable_callback`. -/
def EcliteSys.setCallback (port pin : ℕ) (b : Bool) (x : EcliteSys) : EcliteSys :=
  { x with enabled := fun p n => if p = port ∧ n = pin then b else x.enabled p n }

/-- `eclite_service_isr`, for the mask of one pin. -/
def ecliteServiceIsr (port mask : ℕ) (x : EcliteSys) : EcliteSys :=
  (x.setCallback port (findBitPosition mask) false).post (gpioEvent (findBitPosition mask))

/-- `eclite_event_callback`; a request is looked at before the event is posted. -/
def ecliteEventCallback (event : ℕ) (x : EcliteSys) : EcliteSys :=
  let x := if event = heciEventNewMsg ∧ x.rxMsg.type = .request then
      { x with comm := checkEventsConfigRequest x.comm }
    else x
  x.post ⟨.heci, event⟩

/-- Interrupts, callbacks and ticks, and the steps of the dispatcher. -/
inductive EcliteAct
  /-- The interrupt of a pin. -/
  | gpioIsr (port : ℕ) (pin : Fin 32)
  /-- The host connects. -/
  | heciConnect (id : ℕ)
  /-- The first fragment of a request; a fragment that does not fit; the last one. -/
  | heciFirst
  | heciBad
  | heciRequest (m : Message)
  /-- The host disconnects. -/
  | heciDisconnect
  | timerTick (data : ℕ)
  /-- The dispatcher takes an event, with what stands in its variable. -/
  | get (stack : EcliteEvents)
  | gpioNext
  /-- A message is processed, with the result of `heci_send`. -/
  | newMsg (heciSend : Bool)
  /-- Flow control, with its result. -/
  | flowControl (ok : Bool)
  /-- `heci_complete_disconnect`: its result, and whether it unlocks the buffer. -/
  | disconn (ok unlocks : Bool)
  | purge
  | finish

variable (devices : List EcliteDevice) (cpuThermalEnable : Bool)

/-- Where the dispatcher goes with an event. -/
def startEvent (stack : EcliteEvents) (e : DispatcherQueueData) : Phase :=
  match e.eventType with
  | .gpio => .gpio e.data stack devices
  | .heci => .heci e.data
  | _ => .other e

/-- `k_msgq_get` in the loop of `eclite_dispatcher`. -/
def dispatcherGet (stack : EcliteEvents) (x : EcliteSys) : Option EcliteSys :=
  match x.phase, x.queue with
  | .waiting, e :: queue => some { x with queue := queue, phase := startEvent devices stack e }
  | _, _ => none

/-- The loop of `gpio_event_processing`, half a round at a time.  The configuration of a device is
read before it is known whether the pin is its own. -/
def gpioEventProcessing (x : EcliteSys) : Option EcliteSys :=
  match x.phase with
  | .gpio _ _ [] => some { x with phase := .waiting }
  | .gpio pin stack (d :: ds) =>
      match d.gpioNo with
      | none => some { x with phase := .fault }
      | some gpioNo =>
          if pin = gpioNo then
            let event := d.deviceTyp.event stack
            some { x.post ⟨event, 0⟩ with phase := .gpioPosted pin event d ds }
          else some { x with phase := .gpio pin stack ds }
  | .gpioPosted pin event d ds =>
      match d.gpioDev with
      | some port => some { x.setCallback port pin true with phase := .gpio pin event ds }
      | none => some { x with phase := .gpio pin event ds }
  | _ => none

/-- The other events: a tick posts one for the sensors (`timer_event_process`), the rest leave the
queue alone, and so does an unknown event of HECI. -/
def finishEvent (x : EcliteSys) : Option EcliteSys :=
  match x.phase with
  | .heci event =>
      if event = heciEventNewMsg ∨ event = heciEventDisconn then none
      else some { x with phase := .waiting }
  | .other e =>
      if e.eventType = .timer then some { x.post ⟨.thermal, 0⟩ with phase := .waiting }
      else some { x with phase := .waiting }
  | _ => none

/-- The processing of a message, when the buffer is locked. -/
def processNewMsg (heciSend : Bool) (x : EcliteSys) : EcliteSys :=
  match x.rxMsg.type with
  | .connect =>
      { x with
        comm := { x.comm with heciConnectionId := some x.rxMsg.connectionId }
        dispatcherTimer := x.dispatcherTimer || cpuThermalEnable
        rxMsg := { x.rxMsg with unprocessed := false }
        phase := .flowControl }
  | .request =>
      let r := ecliteProcessMsg heciSend { x.comm with dataMsgHeciSendStat := .success }
      { x with
        comm := r.1
        queue := match r.2 with
          | some e => eclitePostDispatcherEvent e x.queue
          | none => x.queue
        rxMsg := { x.rxMsg with unprocessed := false }
        -- without flow control when the answer was not sent
        phase := if r.1.dataMsgHeciSendStat = .error then .waiting else .flowControl }

/-- **One step of ECLite**, or of what surrounds it. -/
def ecliteStep : EcliteAct → EcliteSys → Option EcliteSys
  | .gpioIsr port pin, x =>
      if x.enabled port pin.val = true then some (ecliteServiceIsr port (2 ^ pin.val) x) else none
  | .heciConnect id, x =>
      if x.rxMsg.msgLock = true then none
      else some (ecliteEventCallback heciEventNewMsg
        { x with rxMsg := ⟨.connect, id % 2 ^ 7, true, false, true⟩ })
  | .heciFirst, x =>
      if x.rxMsg.msgLock = true then none
      else some { x with rxMsg := ⟨.request, x.rxMsg.connectionId, true, true, false⟩ }
  | .heciBad, x =>
      if x.rxMsg.receiving = true then
        some { x with rxMsg := { x.rxMsg with msgLock := false, receiving := false } }
      else none
  | .heciRequest m, x =>
      if x.rxMsg.receiving = true then
        some (ecliteEventCallback heciEventNewMsg { x with
          rxMsg := { x.rxMsg with receiving := false, unprocessed := true }
          comm := x.comm.fill m })
      else none
  | .heciDisconnect, x => some (ecliteEventCallback heciEventDisconn x)
  | .timerTick data, x =>
      if x.dispatcherTimer = true then some (x.post ⟨.timer, data⟩) else none
  | .get stack, x => dispatcherGet devices stack x
  | .gpioNext, x => gpioEventProcessing x
  | .newMsg heciSend, x =>
      if x.phase = .heci heciEventNewMsg then
        if x.rxMsg.msgLock = false then some { x with phase := .waiting }
        else some (processNewMsg cpuThermalEnable heciSend x)
      else none
  | .flowControl ok, x =>
      if x.phase = .flowControl then
        if x.comm.heciConnectionId ≠ none ∧ ok = true then
          some { x with
            rxMsg := { x.rxMsg with msgLock := false, receiving := false, type := .request }
            phase := .waiting }
        else some { x with phase := .waiting }
      else none
  | .disconn ok unlocks, x =>
      if x.phase = .heci heciEventDisconn then
        if ok = true then
          some { x with
            rxMsg := if unlocks = true then
                ⟨.request, 0, false, false, x.rxMsg.unprocessed⟩
              else x.rxMsg
            comm := { x.comm with heciConnectionId := none }
            phase := if cpuThermalEnable = true then .purge else .waiting }
        else some { x with phase := .waiting }
      else none
  | .purge, x =>
      if x.phase = .purge then
        some { x with dispatcherTimer := false, queue := [], phase := .waiting }
      else none
  | .finish, x => finishEvent x

/-- The start: nothing queued, all callbacks on, the buffer free. -/
structure EcliteInit (x : EcliteSys) : Prop where
  queue : x.queue = []
  enabled : ∀ port pin, x.enabled port pin = true
  phase : x.phase = .waiting
  msgLock : x.rxMsg.msgLock = false

/-- An event is in the queue or being processed. -/
def EcliteSys.Has (x : EcliteSys) (e : DispatcherQueueData) : Prop :=
  e ∈ x.queue ∨ x.phase.event = some e

/-- **No event is lost**: a pin that is switched off has its event, and so has a message that waits
in the buffer. -/
structure NoLostEvent (x : EcliteSys) : Prop where
  gpio : ∀ d ∈ devices, ∀ port pin, d.gpioDev = some port → d.gpioNo = some pin →
    x.enabled port pin = false → x.Has (gpioEvent pin)
  heci : x.rxMsg.msgLock = true → x.rxMsg.unprocessed = true → x.Has newMsgEvent

/-- The device the loop comes to next has a configuration, if there is one left. -/
def Phase.Configured : Phase → Prop
  | .gpio _ _ (d :: _) => d.gpioNo ≠ none
  | _ => True

/-- **The discipline**: there is room for the event of a pin and for that of a message, no such
event is in the queue when it is purged, and the loop over the devices comes to none without a
configuration. -/
def QueueDiscipline (x : EcliteSys) : EcliteAct → Prop
  | .gpioIsr _ _ | .heciConnect _ | .heciRequest _ => x.queue.length < ecliteQueueDepth
  | .gpioNext => x.phase.Configured
  | .purge => newMsgEvent ∉ x.queue ∧ ∀ pin, gpioEvent pin ∉ x.queue
  | _ => True

/-! ### The invariant -/

/-- The dispatcher is about to switch a pin on. -/
def Phase.WillEnable (port pin : ℕ) : Phase → Prop
  | .gpio p _ ds => p = pin ∧ ∃ d ∈ ds, d.gpioDev = some port ∧ d.gpioNo = some pin
  | .gpioPosted p _ d ds =>
      p = pin ∧ (d.gpioDev = some port ∨ ∃ d ∈ ds, d.gpioDev = some port ∧ d.gpioNo = some pin)
  | _ => False

/-- A pin that is switched off has its event in the queue, or is about to be switched on; a message
that waits has its event in the queue, or is about to be processed. -/
structure QueueInv (x : EcliteSys) : Prop where
  gpio : ∀ d ∈ devices, ∀ port pin, d.gpioDev = some port → d.gpioNo = some pin →
    x.enabled port pin = false → gpioEvent pin ∈ x.queue ∨ x.phase.WillEnable port pin
  heci : x.rxMsg.msgLock = true → x.rxMsg.unprocessed = true →
    newMsgEvent ∈ x.queue ∨ x.phase = .heci heciEventNewMsg

variable {devices} {cpuThermalEnable}

theorem Phase.WillEnable.event {port pin : ℕ} {ph : Phase} (h : ph.WillEnable port pin) :
    ph.event = some (gpioEvent pin) := by
  cases ph with
  | gpio p _ ds =>
      obtain ⟨rfl, -⟩ := h
      rfl
  | gpioPosted p _ d ds =>
      obtain ⟨rfl, -⟩ := h
      rfl
  | _ => exact h.elim

theorem noLostEvent_of_inv {x : EcliteSys} (h : QueueInv devices x) : NoLostEvent devices x := by
  refine ⟨fun d hd port pin hport hno hoff => ?_, fun hl hu => ?_⟩
  · rcases h.gpio d hd port pin hport hno hoff with hq | hw
    · exact Or.inl hq
    · exact Or.inr hw.event
  · rcases h.heci hl hu with hq | hph
    · exact Or.inl hq
    · exact Or.inr (by rw [hph]; rfl)

theorem queueInv_init {x : EcliteSys} (h : EcliteInit x) : QueueInv devices x := by
  refine ⟨fun d _ port pin _ _ hoff => ?_, fun hl => ?_⟩
  · rw [h.enabled] at hoff
    cases hoff
  · rw [h.msgLock] at hl
    cases hl

/-- A step keeps the invariant when it switches a pin off only with its event, and lets go of an
event or of the pin it is about to switch on only for the next stage. -/
theorem QueueInv.step {x x' : EcliteSys} (h : QueueInv devices x)
    (hoff : ∀ port pin, x'.enabled port pin = false →
      x.enabled port pin = false ∨ gpioEvent pin ∈ x'.queue)
    (hgpio : ∀ d ∈ devices, ∀ port pin, d.gpioDev = some port → d.gpioNo = some pin →
      gpioEvent pin ∈ x.queue → gpioEvent pin ∈ x'.queue ∨ x'.phase.WillEnable port pin)
    (hwill : ∀ port pin, x.phase.WillEnable port pin → x'.enabled port pin = false →
      x'.phase.WillEnable port pin)
    (hrx : x'.rxMsg.msgLock = true → x'.rxMsg.unprocessed = true →
      (x.rxMsg.msgLock = true ∧ x.rxMsg.unprocessed = true) ∨ newMsgEvent ∈ x'.queue)
    (hheci : newMsgEvent ∈ x.queue →
      newMsgEvent ∈ x'.queue ∨ x'.phase = .heci heciEventNewMsg)
    (hphase : x.phase = .heci heciEventNewMsg → x'.rxMsg.msgLock = true →
      x'.rxMsg.unprocessed = true → x'.phase = .heci heciEventNewMsg) : QueueInv devices x' := by
  refine ⟨fun d hd port pin hport hno h0 => ?_, fun hl hu => ?_⟩
  · rcases hoff port pin h0 with h1 | h1
    · rcases h.gpio d hd port pin hport hno h1 with h2 | h2
      · exact hgpio d hd port pin hport hno h2
      · exact Or.inr (hwill port pin h2 h0)
    · exact Or.inl h1
  · rcases hrx hl hu with h1 | h1
    · rcases h.heci h1.1 h1.2 with h2 | h2
      · exact hheci h2
      · exact Or.inr (hphase h2 hl hu)
    · exact Or.inl h1

/-- A step outside the dispatcher: the queue grows, and a message comes with its event. -/
theorem QueueInv.outside {x x' : EcliteSys} (h : QueueInv devices x)
    (hen : ∀ port pin, x'.enabled port pin = false →
      x.enabled port pin = false ∨ gpioEvent pin ∈ x'.queue)
    (hq : ∀ e ∈ x.queue, e ∈ x'.queue) (hph : x'.phase = x.phase)
    (hrx : x'.rxMsg.msgLock = true → x'.rxMsg.unprocessed = true →
      (x.rxMsg.msgLock = true ∧ x.rxMsg.unprocessed = true) ∨ newMsgEvent ∈ x'.queue) :
    QueueInv devices x' :=
  h.step hen (fun _ _ _ _ _ _ hm => Or.inl (hq _ hm)) (fun _ _ hw _ => by rwa [hph]) hrx
    (fun hm => Or.inl (hq _ hm)) fun hn _ _ => hph.trans hn

/-- A step of the dispatcher that ends a stage without a pin: the queue grows. -/
theorem QueueInv.dispatched {x x' : EcliteSys} (h : QueueInv devices x)
    (hen : x'.enabled = x.enabled) (hq : ∀ e ∈ x.queue, e ∈ x'.queue)
    (hwill : ∀ port pin, ¬ x.phase.WillEnable port pin)
    (hrx : x'.rxMsg.msgLock = true → x'.rxMsg.unprocessed = true →
      x.phase ≠ .heci heciEventNewMsg ∧ x.rxMsg.msgLock = true ∧ x.rxMsg.unprocessed = true) :
    QueueInv devices x' :=
  h.step (fun _ _ h0 => Or.inl (by rwa [← hen])) (fun _ _ _ _ _ _ hm => Or.inl (hq _ hm))
    (fun port pin hw _ => absurd hw (hwill port pin)) (fun hl hu => Or.inl (hrx hl hu).2)
    (fun hm => Or.inl (hq _ hm)) fun hn hl hu => absurd hn (hrx hl hu).1

/-! ### The steps -/

/-- The interrupt of a pin leaves its event. -/
theorem queueInv_gpioIsr {x : EcliteSys} (h : QueueInv devices x) (port : ℕ) (pin : Fin 32)
    (hroom : x.queue.length < ecliteQueueDepth) :
    QueueInv devices (ecliteServiceIsr port (2 ^ pin.val) x) := by
  unfold ecliteServiceIsr
  rw [findBitPosition_pin]
  refine h.outside (fun p n hoff => ?_) (fun _ he => mem_post_of_mem he) rfl
    fun hl hu => Or.inl ⟨hl, hu⟩
  by_cases heq : p = port ∧ n = pin.val
  · obtain ⟨rfl, rfl⟩ := heq
    exact Or.inr (mem_post_self hroom)
  · refine Or.inl ?_
    unfold EcliteSys.setCallback EcliteSys.post at hoff
    simp only [if_neg heq] at hoff
    exact hoff

/-- What the callback of the HECI client leaves alone, and the event it posts. -/
theorem eventCallback_frame (event : ℕ) (x : EcliteSys) :
    (ecliteEventCallback event x).queue = eclitePostDispatcherEvent ⟨.heci, event⟩ x.queue ∧
      (ecliteEventCallback event x).enabled = x.enabled ∧
      (ecliteEventCallback event x).phase = x.phase ∧
      (ecliteEventCallback event x).rxMsg = x.rxMsg := by
  unfold ecliteEventCallback
  simp only
  split <;> exact ⟨rfl, rfl, rfl, rfl⟩

/-- A connection or a request comes with its event. -/
theorem queueInv_message {x x₁ : EcliteSys} (h : QueueInv devices x) (hq : x₁.queue = x.queue)
    (hen : x₁.enabled = x.enabled) (hph : x₁.phase = x.phase)
    (hroom : x.queue.length < ecliteQueueDepth) :
    QueueInv devices (ecliteEventCallback heciEventNewMsg x₁) := by
  obtain ⟨h1, h2, h3, -⟩ := eventCallback_frame heciEventNewMsg x₁
  rw [← hq] at hroom
  refine h.outside (fun p n hoff => Or.inl ?_) (fun e he => ?_) (h3.trans hph) fun _ _ => ?_
  · rwa [h2, hen] at hoff
  · rw [h1]
    exact mem_post_of_mem (hq ▸ he)
  · rw [h1]
    exact Or.inr (mem_post_self hroom)

/-- The dispatcher takes an event: that of a pin has all the devices ahead. -/
theorem queueInv_get {x x' : EcliteSys} (h : QueueInv devices x) {stack : EcliteEvents}
    (hstep : dispatcherGet devices stack x = some x') : QueueInv devices x' := by
  unfold dispatcherGet at hstep
  split at hstep
  · rename_i e queue hph hq
    cases hstep
    have hmem : ∀ e', e' ∈ x.queue → e' ∈ queue ∨ e' = e := fun e' he' => by
      rw [hq] at he'
      exact (List.mem_cons.1 he').symm
    refine h.step (fun _ _ hoff => Or.inl hoff) (fun d hd port pin hport hno he => ?_)
      (fun port pin hw _ => ?_) (fun hl hu => Or.inl ⟨hl, hu⟩) (fun he => ?_) fun hn => ?_
    · rcases hmem _ he with h1 | rfl
      · exact Or.inl h1
      · exact Or.inr ⟨rfl, d, hd, hport, hno⟩
    · rw [hph] at hw
      exact hw.elim
    · rcases hmem _ he with h1 | rfl
      · exact Or.inl h1
      · exact Or.inr rfl
    · rw [hph] at hn
      cases hn
  · cases hstep

/-- A step that drops no event, switches nothing off and keeps the pins ahead keeps the invariant,
outside of a message. -/
theorem QueueInv.keep {x x' : EcliteSys} (h : QueueInv devices x)
    (hph : x.phase ≠ .heci heciEventNewMsg) (hq : ∀ e ∈ x.queue, e ∈ x'.queue)
    (hrx : x'.rxMsg = x.rxMsg)
    (hen : ∀ port pin, x'.enabled port pin = false → x.enabled port pin = false)
    (hwill : ∀ port pin, x.phase.WillEnable port pin → x'.enabled port pin = false →
      x'.phase.WillEnable port pin) : QueueInv devices x' := by
  refine h.step (fun p n hoff => Or.inl (hen p n hoff)) (fun _ _ _ _ _ _ he => Or.inl (hq _ he))
    hwill (fun hl hu => Or.inl ?_) (fun he => Or.inl (hq _ he)) fun hn => absurd hn hph
  rw [hrx] at hl hu
  exact ⟨hl, hu⟩

/-- A device of another pin is passed over. -/
theorem Phase.WillEnable.skip {port n pin : ℕ} {e : EcliteEvents} {d : EcliteDevice}
    {ds : List EcliteDevice} (h : (Phase.gpio pin e (d :: ds)).WillEnable port n)
    (hpin : d.gpioNo ≠ some pin) : (Phase.gpio pin e ds).WillEnable port n := by
  obtain ⟨hp, d', hd', hport, hno⟩ := h
  rcases List.mem_cons.1 hd' with rfl | hd'
  · exact absurd (hno.trans (congrArg some hp.symm)) hpin
  · exact ⟨hp, d', hd', hport, hno⟩

/-- The event of a device of the pin is posted. -/
theorem Phase.WillEnable.posted {port n pin : ℕ} {e e' : EcliteEvents} {d : EcliteDevice}
    {ds : List EcliteDevice} (h : (Phase.gpio pin e (d :: ds)).WillEnable port n) :
    (Phase.gpioPosted pin e' d ds).WillEnable port n := by
  obtain ⟨hp, d', hd', hport, hno⟩ := h
  rcases List.mem_cons.1 hd' with rfl | hd'
  · exact ⟨hp, Or.inl hport⟩
  · exact ⟨hp, Or.inr ⟨d', hd', hport, hno⟩⟩

/-- A pin that the device does not have is still ahead. -/
theorem Phase.WillEnable.rest {port n pin : ℕ} {e e' : EcliteEvents} {d : EcliteDevice}
    {ds : List EcliteDevice} (h : (Phase.gpioPosted pin e d ds).WillEnable port n)
    (hport : d.gpioDev ≠ some port) : (Phase.gpio pin e' ds).WillEnable port n :=
  ⟨h.1, h.2.resolve_left hport⟩

/-- A pin that is switched on is another one than those that stay off. -/
theorem setCallback_off {x : EcliteSys} {port pin p n : ℕ}
    (h : (x.setCallback port pin true).enabled p n = false) :
    ¬ (p = port ∧ n = pin) ∧ x.enabled p n = false := by
  unfold EcliteSys.setCallback at h
  by_cases heq : p = port ∧ n = pin
  · simp only [if_pos heq] at h
    cases h
  · simp only [if_neg heq] at h
    exact ⟨heq, h⟩

/-- The loop over the devices: the pins ahead stay ahead until they are switched on. -/
theorem queueInv_gpioNext {x x' : EcliteSys} (h : QueueInv devices x) (hd : x.phase.Configured)
    (hstep : gpioEventProcessing x = some x') : QueueInv devices x' := by
  unfold gpioEventProcessing at hstep
  split at hstep
  · rename_i pin stack hph
    cases hstep
    refine h.keep (by rw [hph]; nofun) (fun _ he => he) rfl (fun _ _ hoff => hoff)
      fun port n hw _ => ?_
    rw [hph] at hw
    obtain ⟨-, d, hd, -⟩ := hw
    cases hd
  · rename_i pin stack d ds hph
    rw [hph] at hd
    obtain ⟨gpioNo, hno⟩ := Option.ne_none_iff_exists'.1 hd
    simp only [hno] at hstep
    split at hstep
    · rename_i hpin
      cases hstep
      refine h.keep (by rw [hph]; nofun) (fun _ he => mem_post_of_mem he) rfl
        (fun _ _ hoff => hoff) fun port n hw _ => ?_
      rw [hph] at hw
      exact hw.posted
    · rename_i hpin
      cases hstep
      refine h.keep (by rw [hph]; nofun) (fun _ he => he) rfl (fun _ _ hoff => hoff)
        fun port n hw _ => ?_
      rw [hph] at hw
      refine hw.skip fun heq => hpin ?_
      exact Option.some.inj (heq.symm.trans hno)
  · rename_i pin event d ds hph
    split at hstep
    · rename_i p hp
      cases hstep
      refine h.keep (by rw [hph]; nofun) (fun _ he => he) rfl
        (fun port n hoff => (setCallback_off hoff).2) fun port n hw hoff => ?_
      rw [hph] at hw
      refine hw.rest fun hport => (setCallback_off hoff).1 ⟨?_, hw.1.symm⟩
      exact Option.some.inj (hport.symm.trans hp)
    · rename_i hp
      cases hstep
      refine h.keep (by rw [hph]; nofun) (fun _ he => he) rfl (fun _ _ hoff => hoff)
        fun port n hw _ => ?_
      rw [hph] at hw
      refine hw.rest fun hport => ?_
      rw [hp] at hport
      cases hport
  · cases hstep

/-- A message is processed. -/
theorem queueInv_newMsg {x : EcliteSys} (h : QueueInv devices x) (heciSend : Bool)
    (hph : x.phase = .heci heciEventNewMsg) :
    QueueInv devices (processNewMsg cpuThermalEnable heciSend x) := by
  have hwill : ∀ port pin, ¬ x.phase.WillEnable port pin := fun port pin hw => by
    rw [hph] at hw
    exact hw
  unfold processNewMsg
  split
  · exact h.dispatched rfl (fun _ he => he) hwill fun _ hu => (nomatch hu)
  · refine h.dispatched rfl (fun e he => ?_) hwill fun _ hu => (nomatch hu)
    simp only
    split
    · exact mem_post_of_mem he
    · exact he

/-- A stage ends that is neither that of a pin nor that of a message. -/
theorem queueInv_stage {x x' : EcliteSys} (h : QueueInv devices x) (hen : x'.enabled = x.enabled)
    (hq : ∀ e ∈ x.queue, e ∈ x'.queue) (hwill : ∀ port pin, ¬ x.phase.WillEnable port pin)
    (hph : x.phase ≠ .heci heciEventNewMsg)
    (hrx : x'.rxMsg.msgLock = true → x'.rxMsg = x.rxMsg) : QueueInv devices x' := by
  refine h.dispatched hen hq hwill fun hl hu => ⟨hph, ?_⟩
  have heq := hrx hl
  rw [heq] at hl hu
  exact ⟨hl, hu⟩

theorem queueInv_finish {x x' : EcliteSys} (h : QueueInv devices x)
    (hstep : finishEvent x = some x') : QueueInv devices x' := by
  unfold finishEvent at hstep
  split at hstep
  · rename_i event hph
    split at hstep
    · cases hstep
    · rename_i hne
      cases hstep
      refine queueInv_stage h rfl (fun _ he => he) (fun port pin hw => ?_) (fun hn => ?_)
        fun _ => rfl
      · rw [hph] at hw
        exact hw
      · rw [hph, Phase.heci.injEq] at hn
        exact hne (Or.inl hn)
  · rename_i e hph
    have hwill : ∀ port pin, ¬ x.phase.WillEnable port pin := fun port pin hw => by
      rw [hph] at hw
      exact hw
    split at hstep
    · cases hstep
      exact queueInv_stage h rfl (fun _ he => mem_post_of_mem he) hwill (by rw [hph]; nofun)
        fun _ => rfl
    · cases hstep
      exact queueInv_stage h rfl (fun _ he => he) hwill (by rw [hph]; nofun) fun _ => rfl
  · cases hstep

/-- The host disconnects. -/
theorem queueInv_disconnect {x : EcliteSys} (h : QueueInv devices x) :
    QueueInv devices (ecliteEventCallback heciEventDisconn x) := by
  obtain ⟨h1, h2, h3, h4⟩ := eventCallback_frame heciEventDisconn x
  refine h.outside (fun p n hoff => Or.inl (h2 ▸ hoff)) (fun e he => ?_) h3 fun hl hu => ?_
  · rw [h1]
    exact mem_post_of_mem he
  · rw [h4] at hl hu
    exact Or.inl ⟨hl, hu⟩

/-- Flow control for the next message. -/
theorem queueInv_flowControl {x x' : EcliteSys} {ok : Bool} (h : QueueInv devices x)
    (hstep : ecliteStep devices cpuThermalEnable (.flowControl ok) x = some x') :
    QueueInv devices x' := by
  obtain ⟨hph, hstep⟩ := Option.ite_none_right_eq_some.1 hstep
  have hwill : ∀ port pin, ¬ x.phase.WillEnable port pin := fun port pin hw => by
    rw [hph] at hw
    exact hw
  split at hstep
  · cases hstep
    exact queueInv_stage h rfl (fun _ he => he) hwill (by rw [hph]; nofun)
      fun hl => (nomatch hl)
  · cases hstep
    exact queueInv_stage h rfl (fun _ he => he) hwill (by rw [hph]; nofun) fun _ => rfl

/-- The first half of a disconnection. -/
theorem queueInv_disconn {x x' : EcliteSys} {ok unlocks : Bool} (h : QueueInv devices x)
    (hstep : ecliteStep devices cpuThermalEnable (.disconn ok unlocks) x = some x') :
    QueueInv devices x' := by
  obtain ⟨hph, hstep⟩ := Option.ite_none_right_eq_some.1 hstep
  have hwill : ∀ port pin, ¬ x.phase.WillEnable port pin := fun port pin hw => by
    rw [hph] at hw
    exact hw
  have hne : x.phase ≠ .heci heciEventNewMsg := by
    rw [hph]
    decide
  split at hstep
  · cases hstep
    cases unlocks with
    | true => exact queueInv_stage h rfl (fun _ he => he) hwill hne fun hl => (nomatch hl)
    | false => exact queueInv_stage h rfl (fun _ he => he) hwill hne fun _ => rfl
  · cases hstep
    exact queueInv_stage h rfl (fun _ he => he) hwill hne fun _ => rfl

/-- The queue is emptied. -/
theorem queueInv_purge {x x' : EcliteSys} (h : QueueInv devices x) (hd : QueueDiscipline x .purge)
    (hstep : ecliteStep devices cpuThermalEnable .purge x = some x') : QueueInv devices x' := by
  obtain ⟨hph, hstep⟩ := Option.ite_none_right_eq_some.1 hstep
  cases hstep
  -- what is thrown away is neither the event of a pin nor that of a message
  refine h.step (fun _ _ hoff => Or.inl hoff) (fun _ _ _ pin _ _ he => absurd he (hd.2 pin))
    (fun port pin hw _ => ?_) (fun hl hu => Or.inl ⟨hl, hu⟩) (fun he => absurd he hd.1)
    fun hn => ?_
  · rw [hph] at hw
    exact hw.elim
  · rw [hph] at hn
    cases hn

/-- **Every disciplined step keeps the invariant.** -/
theorem queueInv_step (x : EcliteSys) (l : EcliteAct) (x' : EcliteSys) (h : QueueInv devices x)
    (hd : QueueDiscipline x l) (hstep : ecliteStep devices cpuThermalEnable l x = some x') :
    QueueInv devices x' := by
  cases l with
  | gpioIsr port pin =>
      obtain ⟨-, hstep⟩ := Option.ite_none_right_eq_some.1 hstep
      cases hstep
      exact queueInv_gpioIsr h port pin hd
  | heciConnect id =>
      obtain ⟨-, hstep⟩ := Option.ite_none_left_eq_some.1 hstep
      cases hstep
      exact queueInv_message h rfl rfl rfl hd
  | heciFirst =>
      obtain ⟨-, hstep⟩ := Option.ite_none_left_eq_some.1 hstep
      cases hstep
      exact h.outside (fun _ _ hoff => Or.inl hoff) (fun _ he => he) rfl fun _ hu => (nomatch hu)
  | heciBad =>
      obtain ⟨-, hstep⟩ := Option.ite_none_right_eq_some.1 hstep
      cases hstep
      exact h.outside (fun _ _ hoff => Or.inl hoff) (fun _ he => he) rfl fun hl => (nomatch hl)
  | heciRequest m =>
      obtain ⟨-, hstep⟩ := Option.ite_none_right_eq_some.1 hstep
      cases hstep
      exact queueInv_message h rfl rfl rfl hd
  | heciDisconnect =>
      cases hstep
      exact queueInv_disconnect h
  | timerTick data =>
      obtain ⟨-, hstep⟩ := Option.ite_none_right_eq_some.1 hstep
      cases hstep
      exact h.outside (fun _ _ hoff => Or.inl hoff) (fun _ he => mem_post_of_mem he) rfl
        fun hl hu => Or.inl ⟨hl, hu⟩
  | get stack => exact queueInv_get h hstep
  | gpioNext => exact queueInv_gpioNext h hd hstep
  | newMsg heciSend =>
      obtain ⟨hph, hstep⟩ := Option.ite_none_right_eq_some.1 hstep
      split at hstep
      · rename_i hl
        cases hstep
        refine h.dispatched rfl (fun _ he => he) (fun port pin hw => ?_) fun hl' => ?_
        · rw [hph] at hw
          exact hw
        · exact absurd (hl.symm.trans hl') (by decide)
      · cases hstep
        exact queueInv_newMsg h heciSend hph
  | flowControl ok => exact queueInv_flowControl h hstep
  | disconn ok unlocks => exact queueInv_disconn h hstep
  | purge => exact queueInv_purge h hd hstep
  | finish => exact queueInv_finish h hstep

/-- **No event is lost in a disciplined run.** -/
theorem noLostEvent_of_disciplined (devices : List EcliteDevice) (cpuThermalEnable : Bool)
    {x : EcliteSys}
    (h : Lts.Reach EcliteInit (ecliteStep devices cpuThermalEnable) QueueDiscipline x) :
    NoLostEvent devices x :=
  noLostEvent_of_inv (Lts.Reach.invariant (fun _ => queueInv_init) queueInv_step h)

/-! ### A pin that is not heard again -/

/-- A sensor at pin 5 of port 0. -/
def sensor : EcliteDevice := ⟨.thermal, some 0, some 5⟩

/-- ECLite after its initialisation. -/
def idleSys : EcliteSys where
  queue := []
  enabled _ _ := true
  phase := .waiting
  rxMsg := ⟨.request, 0, false, false, false⟩
  comm := { eventsOn with heciConnectionId := none }
  dispatcherTimer := false

theorem ecliteInit_idleSys : EcliteInit idleSys := ⟨rfl, fun _ _ => rfl, rfl, rfl⟩

/-- The sensor interrupts. -/
def interruptedSys : EcliteSys := ecliteServiceIsr 0 (2 ^ 5) idleSys

/-- The pin is off, and its event is in the queue. -/
theorem noLostEvent_interruptedSys :
    interruptedSys.enabled 0 5 = false ∧
      Lts.Reach EcliteInit (ecliteStep [sensor] true) QueueDiscipline interruptedSys ∧
      NoLostEvent [sensor] interruptedSys := by
  have h : Lts.Reach EcliteInit (ecliteStep [sensor] true) QueueDiscipline interruptedSys :=
    Lts.Reach.step (Lts.Reach.init ecliteInit_idleSys) (l := .gpioIsr 0 5)
      (show idleSys.queue.length < ecliteQueueDepth by decide) rfl
  exact ⟨rfl, h, noLostEvent_of_disciplined [sensor] true h⟩

/-- The host connects and disconnects, and the sensor interrupts before the dispatcher has come to
the end of the connection: its event is thrown away. -/
theorem not_noLostEvent_purged : ¬ ∀ (devices : List EcliteDevice) (cpuThermalEnable : Bool) x,
    Lts.Reach EcliteInit (ecliteStep devices cpuThermalEnable) Lts.Free x →
      NoLostEvent devices x := by
  intro h
  obtain ⟨x, hx, hoff, hqueue, hphase⟩ : ∃ x,
      Lts.Reach EcliteInit (ecliteStep [sensor] true) Lts.Free x ∧
        x.enabled 0 5 = false ∧ x.queue = [] ∧ x.phase = .waiting :=
    Lts.exists_reach ecliteInit_idleSys
      [.heciConnect 0, .get .heci, .newMsg true, .flowControl true, .heciDisconnect, .gpioIsr 0 5,
        .get .heci, .disconn true true, .purge] _ (by decide)
  have hsensor : sensor ∈ [sensor] := List.mem_singleton_self _
  rcases (h [sensor] true x hx).gpio sensor hsensor 0 5 rfl rfl hoff with hq | hq
  · rw [hqueue] at hq
    cases hq
  · rw [hphase] at hq
    cases hq

end PseFw.Eclite
