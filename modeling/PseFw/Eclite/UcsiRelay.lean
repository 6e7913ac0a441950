/-
**Commands and answers of the USB-C controller.**

Between a request of the host and its command other messages may have changed the region, the queue
may be full or be purged, and the controller may be busy.  So a request may get lost; but a command
is sent at most once for a request, never before it, and it is one the region has held.

An answer is one of the controller as long as no transfer fails.  The service routine leaves half an
answer when the second of its two transfers fails, and the host is told all the same.

Main definitions:

* `CommandsOk`, `NoticesOk` — what is wanted of the two directions;
* `WholeTransfers` — no transfer of an answer fails, and the host leaves the answer alone.

Main results:

* `commandsOk_of_reachable` — **the commands of every run**;
* `noticesOk_of_whole` — **the answers of every run without a failure**;
* `exists_torn` — half an answer.
-/

import PseFw.Eclite.Ucsi

set_option relaxedAutoImplicit false
set_option autoImplicit false

namespace PseFw.Eclite

open Mem

/-! ### What is wanted -/

/-- **The commands**: every request has been processed, waits or is lost, and is processed once and
not before it was made; a command is one the region has held, and no older one than those before
it. -/
structure CommandsOk (x : UcsiSys) : Prop where
  counted : x.calls.length + x.sys.waiting commandEvent + x.lost = x.asks.length
  fresh : ∀ (k : ℕ) (c : UcsiCall), x.calls[k]? = some c →
    ∃ a, x.asks[k]? = some a ∧ a ≤ c.message
  commands : ∀ c ∈ x.calls, x.commands[c.message]? = some c.command
  ordered : (x.calls.map UcsiCall.message).Pairwise (· ≤ ·)
  transfers : ∀ c ∈ x.calls, CommandTransfers c.command c.transfers

/-- **The answers**: the host is told of answers of the controller, one behind the other, and finds
the last one in the region. -/
structure NoticesOk (x : UcsiSys) : Prop where
  answers : ∀ n ∈ x.notices, ∃ p, x.answers[n.transfer]? = some p ∧ n.bytes = answerBytes p
  ordered : (x.notices.map UcsiNotice.transfer).Pairwise (· ≤ ·)
  region : ∀ n, x.notices.getLast? = some n → regionAnswer x.sys.comm.opregion = n.bytes

variable (devices : List EcliteDevice) (cpuThermalEnable i2cDev : Bool)

/-- A transfer of an answer fails, or a message of the host reaches the answer in the region. -/
def disturbsAnswer (x : UcsiSys) : UcsiAct → Bool
  | .isr a => ucsiHandlerRuns (pdDevice devices i2cDev) a && !answerComes a
  | .eclite (.newMsg _) _ =>
      let header := x.sys.comm.rxHeader
      decide (OpField.msgInInfo.offset < header.offset.toNat + header.length.toNat) &&
        decide (header.offset.toNat < OpField.ucsiVersion.offset)
  | _ => false

/-- **Nothing fails**: when the service routine reads an answer, it gets both parts; and the host
does not write to the answer in the region. -/
def WholeTransfers (x : UcsiSys) (l : UcsiAct) : Prop := disturbsAnswer devices i2cDev x l = false

instance : ∀ (x : UcsiSys) (l : UcsiAct), Decidable (WholeTransfers devices i2cDev x l) :=
  fun _ _ => inferInstanceAs (Decidable (_ = _))

variable {devices cpuThermalEnable i2cDev}
variable {x x' : UcsiSys} {d : CcgDevice}

/-! ### The commands of a run -/

/-- **The invariant**: the record is as it should be, the last entry is the region, and there are no
other events of UCSI than those of a request and of an interrupt. -/
structure CommandInv (x : UcsiSys) : Prop extends CommandsOk x where
  queue : ∀ e ∈ x.sys.queue, KnownEvent e
  phase : ∀ e, x.sys.phase = .other e → KnownEvent e
  current : x.commands.getLast? = some (commandBytes x.sys.comm.opregion)
  asksLt : ∀ a ∈ x.asks, a < x.commands.length

theorem commandInv_init (h : UcsiInit x) : CommandInv x := by
  refine ⟨⟨?_, ?_, ?_, ?_, ?_⟩, ?_, ?_, ?_, ?_⟩
  · rw [h.calls, h.lost, h.asks, EcliteSys.waiting, h.sys.queue, h.sys.phase]
    rfl
  · rw [h.calls]
    intro k c hc
    cases hc
  · rw [h.calls]
    nofun
  · rw [h.calls]
    exact List.Pairwise.nil
  · rw [h.calls]
    nofun
  · rw [h.sys.queue]
    nofun
  · rw [h.sys.phase]
    nofun
  · rw [h.commands]
    rfl
  · rw [h.asks]
    nofun

/-- The fields of the record that belong to the commands. -/
structure SameRecord (x x' : UcsiSys) : Prop where
  commands : x'.commands = x.commands
  asks : x'.asks = x.asks
  lost : x'.lost = x.lost
  calls : x'.calls = x.calls

/-- A step in which no request begins or ends. -/
theorem CommandInv.same (h : CommandInv x) (hr : SameRecord x x')
    (hw : x'.sys.waiting commandEvent = x.sys.waiting commandEvent)
    (hq : ∀ e ∈ x'.sys.queue, KnownEvent e) (hp : ∀ e, x'.sys.phase = .other e → KnownEvent e)
    (hb : commandBytes x'.sys.comm.opregion = commandBytes x.sys.comm.opregion) :
    CommandInv x' := by
  refine ⟨⟨?_, ?_, ?_, ?_, ?_⟩, hq, hp, ?_, ?_⟩
  · rw [hr.calls, hw, hr.lost, hr.asks]
    exact h.counted
  · rw [hr.calls, hr.asks]
    exact h.fresh
  · rw [hr.calls, hr.commands]
    exact h.commands
  · rw [hr.calls]
    exact h.ordered
  · rw [hr.calls]
    exact h.transfers
  · rw [hr.commands, hb]
    exact h.current
  · rw [hr.asks, hr.commands]
    exact h.asksLt

/-- Posting an event that is known. -/
theorem known_post {e : DispatcherQueueData} {q : List DispatcherQueueData} (he : KnownEvent e)
    (hq : ∀ e ∈ q, KnownEvent e) : ∀ e' ∈ eclitePostDispatcherEvent e q, KnownEvent e' := by
  unfold eclitePostDispatcherEvent
  split
  · intro e' he'
    rcases List.mem_append.1 he' with he' | he'
    · exact hq e' he'
    · rw [List.mem_singleton.1 he']
      exact he
  · exact hq

theorem Quiet.known {s s' : EcliteSys} (h : Quiet s s') (hq : ∀ e ∈ s.queue, KnownEvent e) :
    ∀ e ∈ s'.queue, KnownEvent e := by
  rcases h.queue with heq | ⟨e, -, he, heq⟩
  · rwa [heq]
  · rw [heq]
    exact known_post he hq

theorem CommandInv.quiet {s' : EcliteSys} (h : CommandInv x) (hs : Quiet x.sys s')
    (hr : SameRecord x x') (hq : x'.sys.queue = s'.queue) (hp : x'.sys.phase = s'.phase)
    (hb : commandBytes x'.sys.comm.opregion = commandBytes s'.comm.opregion) :
    CommandInv x' := by
  refine h.same hr ?_ ?_ ?_ (hb.trans hs.commandBytes)
  · unfold EcliteSys.waiting
    rw [hq, hp]
    exact hs.waiting
  · rw [hq]
    exact hs.known h.queue
  · intro e he
    rw [hp] at he
    rcases hs.phase with hph | ⟨-, hno⟩
    · exact h.phase e (hph.symm.trans he)
    · exact absurd he (hno e)

/-- The dispatcher takes an event. -/
theorem CommandInv.get {stack : EcliteEvents} {s' : EcliteSys} (h : CommandInv x)
    (hst : dispatcherGet devices stack x.sys = some s') : CommandInv { x with sys := s' } := by
  unfold dispatcherGet at hst
  split at hst
  · rename_i e queue hph hq
    obtain rfl := Option.some.inj hst
    have hstart : ∀ e', startEvent devices stack e = .other e' → e' = e := by
      intro e' he'
      unfold startEvent at he'
      split at he'
      · cases he'
      · cases he'
      · exact (Phase.other.inj he').symm
    refine h.same ⟨rfl, rfl, rfl, rfl⟩ ?_ ?_ ?_ rfl
    · unfold EcliteSys.waiting
      dsimp only
      rw [hq, hph, List.count_cons]
      by_cases he : e = commandEvent
      · subst he
        rfl
      · rw [if_neg fun hp => he (hstart _ hp).symm, if_neg (by simpa using he)]
        rfl
    · exact fun e' he' => h.queue e' (hq ▸ List.mem_cons_of_mem _ he')
    · intro e' he'
      rw [hstart e' he']
      exact h.queue e (hq ▸ List.mem_cons_self)
  · cases hst

/-- What stands in the record stays there. -/
theorem getElem?_record {α : Type} {l : List α} {k : ℕ} {c : α} (h : l[k]? = some c)
    (l' : List α) : (l ++ l')[k]? = some c :=
  (List.getElem?_append_left (List.getElem?_eq_some_iff.1 h).1).trans h

/-- A message is processed. -/
theorem CommandInv.newMsg {heciSend : Bool} {s' : EcliteSys} (h : CommandInv x)
    (hst : ecliteStep devices cpuThermalEnable (.newMsg heciSend) x.sys = some s') :
    CommandInv (x.message s') := by
  obtain ⟨hph, hother, hask, hno⟩ := newMsg_cases hst
  have hcounted := h.counted
  unfold EcliteSys.waiting at hcounted
  rw [if_neg fun hp => Phase.noConfusion (hph.symm.trans hp), Nat.add_zero] at hcounted
  have hwaiting : (x.message s').sys.waiting commandEvent = s'.queue.count commandEvent := by
    show s'.queue.count commandEvent + (if s'.phase = .other commandEvent then 1 else 0) = _
    rw [if_neg (hother commandEvent), Nat.add_zero]
  have hlen : (x.message s').commands.length = x.commands.length + 1 := List.length_append
  have hold : ∀ a ∈ x.asks, a < (x.message s').commands.length := fun a ha => by
    rw [hlen]
    exact Nat.lt_succ_of_lt (h.asksLt a ha)
  have hcommands : ∀ c ∈ x.calls, (x.message s').commands[c.message]? = some c.command :=
    fun c hc => getElem?_record (h.commands c hc) _
  cases hasks : asksCommand x.sys with
  | true =>
      have heq : (x.message s').asks = x.asks ++ [x.commands.length] := if_pos hasks
      refine ⟨⟨?_, ?_, hcommands, h.ordered, h.transfers⟩, ?_,
        fun e he => absurd he (hother e), List.getLast?_concat, ?_⟩
      · rw [heq, List.length_append, List.length_singleton, hwaiting, hask hasks,
          eclitePostDispatcherEvent]
        show x.calls.length + _ + (if _ then _ else _) = _
        by_cases hroom : x.sys.queue.length < ecliteQueueDepth
        · rw [if_pos hroom, if_neg fun hl => absurd hl.2 (Nat.not_le.2 hroom), List.count_append,
            List.count_singleton_self]
          omega
        · rw [if_neg hroom, if_pos ⟨hasks, Nat.le_of_not_lt hroom⟩]
          omega
      · intro k c hc
        obtain ⟨a, ha, hle⟩ := h.fresh k c hc
        rw [heq]
        exact ⟨a, getElem?_record ha _, hle⟩
      · show ∀ e ∈ s'.queue, KnownEvent e
        rw [hask hasks]
        exact known_post (fun _ => Or.inl rfl) h.queue
      · rw [heq]
        intro a ha
        rcases List.mem_append.1 ha with ha | ha
        · exact hold a ha
        · rw [List.mem_singleton.1 ha, hlen]
          exact Nat.lt_succ_self _
  | false =>
      have hfalse : ¬ asksCommand x.sys = true := by
        rw [hasks]
        decide
      have heq : (x.message s').asks = x.asks := if_neg hfalse
      have hlost : (x.message s').lost = x.lost := if_neg fun hl => hfalse hl.1
      refine ⟨⟨?_, ?_, hcommands, h.ordered, h.transfers⟩, ?_,
        fun e he => absurd he (hother e), List.getLast?_concat, ?_⟩
      · rw [heq, hlost, hwaiting]
        rcases hno hasks with hq | ⟨e, he, hq⟩
        · rw [hq]
          exact hcounted
        · rw [hq, count_post_of_ne fun h => he (by rw [h]; rfl)]
          exact hcounted
      · rw [heq]
        exact h.fresh
      · show ∀ e ∈ s'.queue, KnownEvent e
        rcases hno hasks with hq | ⟨e, he, hq⟩
        · rw [hq]
          exact h.queue
        · rw [hq]
          exact known_post (fun hu => absurd hu he) h.queue
      · rw [heq]
        exact hold

/-- The queue is purged. -/
theorem CommandInv.purge {s' : EcliteSys} (h : CommandInv x)
    (hst : ecliteStep devices cpuThermalEnable .purge x.sys = some s') :
    CommandInv { x with sys := s', lost := x.lost + x.sys.queue.count commandEvent } := by
  obtain ⟨hph, hst⟩ := Option.ite_none_right_eq_some.1 hst
  obtain rfl := Option.some.inj hst
  have hcounted := h.counted
  unfold EcliteSys.waiting at hcounted
  rw [if_neg fun hp => Phase.noConfusion (hph.symm.trans hp)] at hcounted
  refine ⟨⟨?_, h.fresh, h.commands, h.ordered, h.transfers⟩, nofun,
    fun e he => Phase.noConfusion he, h.current, h.asksLt⟩
  show x.calls.length + (0 + 0) + (x.lost + x.sys.queue.count commandEvent) = x.asks.length
  omega

/-- What the other events write leaves the command as it is. -/
theorem commandBytes_keepUcsi (old new : ℕ → UInt8) :
    commandBytes (keepUcsi old new) = commandBytes old := by
  refine read_congr fun i hi hlt => if_pos ⟨hi, lt_of_lt_of_le hlt ?_⟩
  decide

/-- **A step without UCSI** keeps the invariant. -/
theorem CommandInv.besides {a : EcliteAct} {opregion : ℕ → UInt8} {s' : EcliteSys}
    (h : CommandInv x) (hturn : ucsiTurn x.sys.phase a = false)
    (hst : ecliteStep devices cpuThermalEnable a x.sys = some s') :
    CommandInv (x.besides a opregion s') := by
  cases a with
  | get stack => exact h.get hst
  | newMsg heciSend => exact h.newMsg hst
  | purge => exact h.purge hst
  | finish =>
      exact h.quiet (quiet_step hturn nofun nofun nofun hst) ⟨rfl, rfl, rfl, rfl⟩ rfl rfl
        (commandBytes_keepUcsi _ _)
  | _ =>
      exact h.quiet (quiet_step hturn nofun nofun nofun hst) ⟨rfl, rfl, rfl, rfl⟩ rfl rfl rfl

/-- The region behind an answer. -/
theorem opregion_sendUcsiEvent (heciSend : Bool) (buf : List UInt8) (s : HostComm) :
    (ecliteSendUcsiEvent heciSend buf s).opregion =
      write s.opregion OpField.msgInInfo.offset buf := by
  unfold ecliteSendUcsiEvent HostComm.ecliteSendEvent
  dsimp only
  split
  · rfl
  · split
    · rfl
    · split <;> rfl

/-- The command stands in front of the answer. -/
theorem commandBytes_write (opregion : ℕ → UInt8) (buf : List UInt8) :
    commandBytes (write opregion OpField.msgInInfo.offset buf) = commandBytes opregion := by
  refine read_congr fun i _ hlt => write_of_lt _ _ (lt_of_lt_of_le hlt ?_)
  decide

/-- What the processing of an event of UCSI does to ECLite. -/
theorem finish_ucsi {s s' : EcliteSys} {event : ℕ} (hu : s.phase.ucsi = some event)
    (hst : finishEvent s = some s') :
    s.phase = .other ⟨.ucsi, event⟩ ∧ s' = { s with phase := .waiting } := by
  unfold Phase.ucsi at hu
  split at hu
  · rename_i e hph
    obtain ⟨htype, hdata⟩ := Option.ite_none_right_eq_some.1 hu
    obtain rfl := Option.some.inj hdata
    have heq : e = ⟨.ucsi, e.data⟩ := by rw [← htype]
    rw [finishEvent, hph] at hst
    dsimp only at hst
    rw [if_neg (by rw [htype]; decide)] at hst
    exact ⟨hph.trans (congrArg Phase.other heq), (Option.some.inj hst).symm⟩
  · cases hu

/-- **A request is processed.** -/
theorem CommandInv.event {a : CommandAnswers} {stack : List UInt8} {heciSend : Bool} {event : ℕ}
    {s' : EcliteSys} (h : CommandInv x) (hu : x.sys.phase.ucsi = some event)
    (hst : finishEvent x.sys = some s') :
    CommandInv (x.event devices i2cDev a stack heciSend event s') := by
  obtain ⟨hph, rfl⟩ := finish_ucsi hu hst
  unfold UcsiSys.event
  by_cases hevent : event = 0
  · subst hevent
    rw [if_neg (not_not_intro rfl)]
    refine h.same ⟨rfl, rfl, rfl, rfl⟩ ?_ h.queue (fun e he => Phase.noConfusion he) ?_
    · unfold EcliteSys.waiting
      rw [hph]
      rfl
    · show commandBytes (ecliteSendUcsiEvent _ _ _).opregion = _
      rw [opregion_sendUcsiEvent]
      exact commandBytes_write _ _
  · rw [if_pos hevent]
    obtain rfl : event = ecliteOsEventUcsiUpdate :=
      (h.phase _ hph rfl).resolve_right hevent
    have hcommand : x.sys.phase = .other commandEvent := hph
    have hcounted := h.counted
    unfold EcliteSys.waiting at hcounted
    rw [if_pos hcommand] at hcounted
    have hcurrent : x.commands[x.commands.length - 1]? =
        some (commandBytes x.sys.comm.opregion) := by
      rw [← List.getLast?_eq_getElem?]
      exact h.current
    have hlast : ∀ c ∈ x.calls, c.message ≤ x.commands.length - 1 := fun c hc =>
      Nat.le_sub_one_of_lt (List.getElem?_eq_some_iff.1 (h.commands c hc)).1
    refine ⟨⟨?_, ?_, ?_, ?_, ?_⟩, h.queue, fun e he => Phase.noConfusion he, h.current, h.asksLt⟩
    · show (x.calls ++ [_]).length + (x.sys.queue.count commandEvent + 0) + x.lost = x.asks.length
      rw [List.length_append, List.length_singleton]
      omega
    · intro k c hc
      rcases Nat.lt_or_ge k x.calls.length with hk | hk
      · refine h.fresh k c ?_
        rwa [List.getElem?_append_left hk] at hc
      · -- the request was made, and the messages are counted on
        have hk' : k < x.asks.length := by
          have hlt := (List.getElem?_eq_some_iff.1 hc).1
          rw [List.length_append, List.length_singleton] at hlt
          omega
        refine ⟨x.asks[k], List.getElem?_eq_getElem hk', ?_⟩
        rw [List.getElem?_append_right hk, List.getElem?_singleton] at hc
        obtain ⟨-, hc⟩ := Option.ite_none_right_eq_some.1 hc
        obtain rfl := Option.some.inj hc
        exact Nat.le_sub_one_of_lt (h.asksLt _ (List.getElem_mem hk'))
    · intro c hc
      rcases List.mem_append.1 hc with hc | hc
      · exact h.commands c hc
      · rw [List.mem_singleton.1 hc]
        exact hcurrent
    · rw [List.map_append, List.pairwise_append]
      refine ⟨h.ordered, List.pairwise_singleton _ _, fun a ha b hb => ?_⟩
      obtain ⟨c, hc, rfl⟩ := List.mem_map.1 ha
      rw [List.map_singleton, List.mem_singleton] at hb
      rw [hb]
      exact hlast c hc
    · intro c hc
      rcases List.mem_append.1 hc with hc | hc
      · exact h.transfers c hc
      · rw [List.mem_singleton.1 hc]
        exact commandTransfers_process _ _ _ _

theorem CommandInv.step {l : UcsiAct} (h : CommandInv x)
    (hst : ucsiStep devices cpuThermalEnable i2cDev l x = some x') : CommandInv x' := by
  cases l with
  | eclite a opregion =>
      obtain ⟨hturn, hst⟩ := Option.ite_none_left_eq_some.1 hst
      obtain ⟨s', hs', rfl⟩ := Option.map_eq_some_iff.1 hst
      exact h.besides (Bool.eq_false_of_not_eq_true hturn) hs'
  | isr a =>
      obtain ⟨-, hst⟩ := Option.ite_none_right_eq_some.1 hst
      obtain ⟨s', hs', rfl⟩ := Option.map_eq_some_iff.1 hst
      exact h.quiet (quiet_gpioNext hs') ⟨rfl, rfl, rfl, rfl⟩ rfl rfl rfl
  | ucsi a stack heciSend =>
      obtain ⟨event, hu, hst⟩ := Option.bind_eq_some_iff.1 hst
      obtain ⟨s', hs', rfl⟩ := Option.map_eq_some_iff.1 hst
      exact h.event hu hs'

/-- **The commands of every run.** -/
theorem commandsOk_of_reachable (h : UcsiReachable devices cpuThermalEnable i2cDev x) :
    CommandsOk x := by
  unfold UcsiReachable at h
  exact (h.invariant (fun _ => commandInv_init) fun _ _ _ hi _ hst => hi.step hst).toCommandsOk

/-! ### The service routine -/

/-- The handler of a port leaves the answer alone. -/
theorem portIntHandler_answer (a : CcgAnswers) (port : ℕ) (s : CcgState) :
    (portIntHandler d.i2cDev a port s).2.msgIn = s.msgIn ∧
      (portIntHandler d.i2cDev a port s).2.cci = s.cci := by
  unfold portIntHandler processPortEvnts
  dsimp only
  split
  · exact ⟨rfl, rfl⟩
  · split
    · split
      · split
        · exact ⟨rfl, rfl⟩
        · split <;> exact ⟨rfl, rfl⟩
      · split <;> exact ⟨rfl, rfl⟩
    · exact ⟨rfl, rfl⟩

/-- The handlers: an answer is transferred if the bit of UCSI is set. -/
theorem ccgHandlers_answer (hbus : d.i2cDev = true) (a : CcgAnswers) (buf ret : BitVec 8)
    (s : CcgState) :
    (buf.getLsbD ccgUcsireadInterruptFlag = true → answerComes a = true →
      (ccgHandlers d.i2cDev a buf ret s).2.msgIn = a.msgIn.value ∧
        (ccgHandlers d.i2cDev a buf ret s).2.cci = a.cci.value) ∧
    (buf.getLsbD ccgUcsireadInterruptFlag = false →
      (ccgHandlers d.i2cDev a buf ret s).2.msgIn = s.msgIn ∧
        (ccgHandlers d.i2cDev a buf ret s).2.cci = s.cci) := by
  unfold ccgHandlers
  dsimp only
  refine ⟨fun hbit hcomes => ?_, fun hbit => ?_⟩
  · rw [answerComes, Bool.and_eq_true, decide_eq_true_eq, decide_eq_true_eq] at hcomes
    rw [if_pos hbit, ucsiIntHandler, hbus, ccgRd_true]
    dsimp only
    rw [if_neg (not_not_intro hcomes.1), ccgRd_true]
    dsimp only
    rw [if_neg (not_not_intro hcomes.2)]
    exact ⟨rfl, rfl⟩
  · rw [if_neg (by rw [hbit]; decide)]
    split
    · exact portIntHandler_answer a 0 s
    · exact ⟨rfl, rfl⟩

/-- **The service routine** takes an answer, or leaves the last one. -/
theorem ccgIsr_answer (d : CcgDevice) (a : CcgAnswers) (s : CcgState) :
    (ucsiHandlerRuns d a = true → answerComes a = true →
      (ccgIsr d a s).state.msgIn = a.msgIn.value ∧ (ccgIsr d a s).state.cci = a.cci.value) ∧
    (ucsiHandlerRuns d a = false →
      (ccgIsr d a s).state.msgIn = s.msgIn ∧ (ccgIsr d a s).state.cci = s.cci) := by
  unfold ucsiHandlerRuns ccgIsr
  by_cases hdev : d.dev = false
  · rw [if_pos hdev, hdev]
    exact ⟨nofun, fun _ => ⟨rfl, rfl⟩⟩
  by_cases hint : d.devInterface = false
  · rw [if_neg hdev, if_pos hint, hint, Bool.and_false]
    exact ⟨nofun, fun _ => ⟨rfl, rfl⟩⟩
  rw [if_neg hdev, if_neg hint, Bool.eq_true_of_not_eq_false hdev,
    Bool.eq_true_of_not_eq_false hint]
  cases hbus : d.i2cDev with
  | false => exact ⟨nofun, fun _ => ⟨rfl, rfl⟩⟩
  | true =>
      rw [ccgRd_true]
      dsimp only
      by_cases hret : resultByte a.interrupt.ret = 0
      · have hspec := ccgHandlers_answer hbus a a.interrupt.value (resultByte a.interrupt.ret) s
        rw [hbus] at hspec
        rw [if_neg (not_not_intro hret), decide_eq_true hret]
        split <;> exact hspec
      · rw [if_pos hret, decide_eq_false hret]
        exact ⟨nofun, fun _ => ⟨rfl, rfl⟩⟩

/-! ### The answers of a run -/

/-- **The invariant**: what the driver holds is the last answer. -/
structure NoticeInv (x : UcsiSys) : Prop extends NoticesOk x where
  current : x.answers.getLast? = some (x.data.ccg.msgIn, x.data.ccg.cci)

theorem noticeInv_init (h : UcsiInit x) : NoticeInv x := by
  refine ⟨⟨?_, ?_, ?_⟩, ?_⟩
  · rw [h.notices]
    nofun
  · rw [h.notices]
    exact List.Pairwise.nil
  · rw [h.notices]
    nofun
  · rw [h.answers]
    rfl

/-- A step in which the host is told nothing. -/
theorem NoticeInv.same (h : NoticeInv x) (hn : x'.notices = x.notices)
    (ha : ∃ l, x'.answers = x.answers ++ l)
    (hc : x'.answers.getLast? = some (x'.data.ccg.msgIn, x'.data.ccg.cci))
    (hr : regionAnswer x'.sys.comm.opregion = regionAnswer x.sys.comm.opregion) :
    NoticeInv x' := by
  obtain ⟨l, hl⟩ := ha
  refine ⟨⟨?_, ?_, ?_⟩, hc⟩
  · rw [hn, hl]
    intro n hmem
    obtain ⟨p, hp, hbytes⟩ := h.answers n hmem
    exact ⟨p, getElem?_record hp l, hbytes⟩
  · rw [hn]
    exact h.ordered
  · rw [hn, hr]
    exact h.region

/-- A message that stays off the answer leaves it alone. -/
theorem regionAnswer_newMsg {heciSend : Bool} {s s' : EcliteSys}
    (hoff : s.comm.rxHeader.offset.toNat + s.comm.rxHeader.length.toNat ≤
        OpField.msgInInfo.offset ∨ OpField.ucsiVersion.offset ≤ s.comm.rxHeader.offset.toNat)
    (hst : ecliteStep devices cpuThermalEnable (.newMsg heciSend) s = some s') :
    regionAnswer s'.comm.opregion = regionAnswer s.comm.opregion := by
  have hdata : ∀ c : HostComm, c.rxHeader = s.comm.rxHeader →
      regionAnswer (ecliteProcessDataMessage heciSend c).2.opregion = regionAnswer c.opregion := by
    intro c hc
    by_cases hw : c.rxHeader.readWrite = ecliteHeaderOprWrite
    · obtain ⟨-, hfits, hnot⟩ := @processDataMessage_write heciSend c hw
      by_cases hf : Fits c.rxHeader.offset.toNat c.rxHeader.length.toNat
      · rw [hfits hf]
        refine read_write_disjoint _ ?_
        rw [length_read, hc]
        have hend : OpField.ucsiVersion.offset =
            OpField.msgInInfo.offset + (OpField.msgInInfo.size + OpField.cciInfo.size) := by
          decide
        omega
      · rw [hnot hf]
    · rw [processDataMessage_other hw]
  obtain ⟨-, hst⟩ := Option.ite_none_right_eq_some.1 hst
  split at hst
  · obtain rfl := Option.some.inj hst
    rfl
  · obtain rfl := Option.some.inj hst
    unfold processNewMsg
    split
    · rfl
    · dsimp only [ecliteProcessMsg]
      split
      · exact hdata _ rfl
      · rfl

theorem regionAnswer_keepUcsi (old new : ℕ → UInt8) :
    regionAnswer (keepUcsi old new) = regionAnswer old := by
  refine read_congr fun i hi hlt => if_pos ⟨le_trans ?_ hi, lt_of_lt_of_le hlt ?_⟩
  · decide
  · decide

/-- The answer in the region behind the steps without UCSI. -/
theorem regionAnswer_besides {a : EcliteAct} {opregion : ℕ → UInt8} {s' : EcliteSys}
    (hwhole : WholeTransfers devices i2cDev x (.eclite a opregion))
    (hturn : ucsiTurn x.sys.phase a = false)
    (hst : ecliteStep devices cpuThermalEnable a x.sys = some s') :
    regionAnswer (x.besides a opregion s').sys.comm.opregion =
      regionAnswer x.sys.comm.opregion := by
  cases a with
  | get stack =>
      show regionAnswer s'.comm.opregion = _
      unfold ecliteStep dispatcherGet at hst
      dsimp only at hst
      split at hst
      · obtain rfl := Option.some.inj hst
        rfl
      · cases hst
  | newMsg heciSend =>
      refine regionAnswer_newMsg ?_ hst
      rw [WholeTransfers, disturbsAnswer, Bool.and_eq_false_iff, decide_eq_false_iff_not,
        decide_eq_false_iff_not, not_lt, not_lt] at hwhole
      exact hwhole
  | purge =>
      obtain ⟨-, hst⟩ := Option.ite_none_right_eq_some.1 hst
      obtain rfl := Option.some.inj hst
      rfl
  | finish =>
      exact (regionAnswer_keepUcsi _ _).trans
        (quiet_step hturn nofun nofun nofun hst).regionAnswer
  | _ => exact (quiet_step hturn nofun nofun nofun hst).regionAnswer

theorem besides_driver (a : EcliteAct) (opregion : ℕ → UInt8) (x : UcsiSys) (s' : EcliteSys) :
    (x.besides a opregion s').notices = x.notices ∧
      (x.besides a opregion s').answers = x.answers ∧ (x.besides a opregion s').data = x.data := by
  cases a <;> exact ⟨rfl, rfl, rfl⟩

/-- The turn of the controller. -/
theorem NoticeInv.isr {a : CcgAnswers} {s' : EcliteSys} (h : NoticeInv x)
    (hwhole : WholeTransfers devices i2cDev x (.isr a))
    (hst : gpioEventProcessing x.sys = some s')
    (hx : x' = { x with
      sys := s'
      data := { x.data with ccg := (ccgIsr (pdDevice devices i2cDev) a x.data.ccg).state }
      answers := if (ucsiHandlerRuns (pdDevice devices i2cDev) a && answerComes a) = true then
          x.answers ++ [(a.msgIn.value, a.cci.value)]
        else x.answers }) : NoticeInv x' := by
  obtain ⟨hcomes, hno⟩ := ccgIsr_answer (pdDevice devices i2cDev) a x.data.ccg
  have hregion := (quiet_gpioNext hst).regionAnswer
  subst hx
  cases hruns : ucsiHandlerRuns (pdDevice devices i2cDev) a with
  | true =>
      have hanswer : answerComes a = true := by
        rw [WholeTransfers, disturbsAnswer, hruns, Bool.true_and, Bool.not_eq_false'] at hwhole
        exact hwhole
      obtain ⟨hmsg, hcci⟩ := hcomes hruns hanswer
      rw [hanswer]
      refine h.same rfl ⟨_, rfl⟩ ?_ hregion
      dsimp only
      rw [hmsg, hcci]
      exact List.getLast?_concat
  | false =>
      obtain ⟨hmsg, hcci⟩ := hno hruns
      refine h.same rfl ⟨[], (List.append_nil _).symm⟩ ?_ hregion
      dsimp only
      rw [hmsg, hcci]
      exact h.current

/-- The answer in the region is what was written there. -/
theorem regionAnswer_write (opregion : ℕ → UInt8) (p : BitVec 128 × BitVec 32) :
    regionAnswer (write opregion OpField.msgInInfo.offset (answerBytes p)) = answerBytes p := by
  have hlen : (answerBytes p).length = OpField.msgInInfo.size + OpField.cciInfo.size := by
    unfold answerBytes
    rw [List.length_append, length_leBytes, length_leBytes]
    rfl
  unfold regionAnswer
  rw [← hlen]
  exact read_write_self _ _ _

/-- An event of UCSI is processed. -/
theorem NoticeInv.event {a : CommandAnswers} {stack : List UInt8} {heciSend : Bool} {event : ℕ}
    {s' : EcliteSys} (h : NoticeInv x) (hdev : ∃ d ∈ devices, d.deviceTyp = .ucsi)
    (hu : x.sys.phase.ucsi = some event) (hst : finishEvent x.sys = some s') :
    NoticeInv (x.event devices i2cDev a stack heciSend event s') := by
  obtain ⟨-, rfl⟩ := finish_ucsi hu hst
  unfold UcsiSys.event
  by_cases hevent : event ≠ 0
  · rw [if_pos hevent]
    refine h.same rfl ⟨[], (List.append_nil _).symm⟩ ?_ rfl
    have hccg : ∀ opregion : ℕ → UInt8, (processUcsiCommand (pdDevice devices i2cDev) a event
        opregion x.data).1.ccg = x.data.ccg := by
      intro opregion
      unfold processUcsiCommand ucsiCommandMsgOut
      dsimp only
      split
      · split <;> rfl
      · rfl
    dsimp only
    rw [hccg]
    exact h.current
  · rw [if_neg hevent]
    have hfind : (pdDevice devices i2cDev).dev = true := by
      obtain ⟨d, hd, htyp⟩ := hdev
      exact List.any_eq_true.2 ⟨d, hd, decide_eq_true htyp⟩
    have hbuf : ucsiCommandMsgIn (pdDevice devices i2cDev) stack x.data =
        answerBytes (x.data.ccg.msgIn, x.data.ccg.cci) := if_pos hfind
    have hcurrent : x.answers[x.answers.length - 1]? = some (x.data.ccg.msgIn, x.data.ccg.cci) := by
      rw [← List.getLast?_eq_getElem?]
      exact h.current
    dsimp only
    rw [hbuf]
    refine ⟨⟨?_, ?_, ?_⟩, h.current⟩
    · intro n hn
      rcases List.mem_append.1 hn with hn | hn
      · exact h.answers n hn
      · rw [List.mem_singleton.1 hn]
        exact ⟨_, hcurrent, rfl⟩
    · rw [List.map_append, List.pairwise_append]
      refine ⟨h.ordered, List.pairwise_singleton _ _, fun k hk b hb => ?_⟩
      obtain ⟨n, hn, rfl⟩ := List.mem_map.1 hk
      rw [List.map_singleton, List.mem_singleton] at hb
      obtain ⟨p, hp, -⟩ := h.answers n hn
      rw [hb]
      exact Nat.le_sub_one_of_lt (List.getElem?_eq_some_iff.1 hp).1
    · intro n hn
      rw [List.getLast?_concat] at hn
      obtain rfl := Option.some.inj hn
      show regionAnswer (ecliteSendUcsiEvent _ _ _).opregion = _
      rw [opregion_sendUcsiEvent]
      exact regionAnswer_write _ _

theorem NoticeInv.step {l : UcsiAct} (h : NoticeInv x)
    (hdev : ∃ d ∈ devices, d.deviceTyp = .ucsi) (hwhole : WholeTransfers devices i2cDev x l)
    (hst : ucsiStep devices cpuThermalEnable i2cDev l x = some x') : NoticeInv x' := by
  cases l with
  | eclite a opregion =>
      obtain ⟨hturn, hst⟩ := Option.ite_none_left_eq_some.1 hst
      obtain ⟨s', hs', rfl⟩ := Option.map_eq_some_iff.1 hst
      obtain ⟨hnotices, hanswers, hdata⟩ := besides_driver a opregion x s'
      refine h.same hnotices ⟨[], by rw [hanswers, List.append_nil]⟩ ?_
        (regionAnswer_besides hwhole (Bool.eq_false_of_not_eq_true hturn) hs')
      rw [hanswers, hdata]
      exact h.current
  | isr a =>
      obtain ⟨-, hst⟩ := Option.ite_none_right_eq_some.1 hst
      obtain ⟨s', hs', rfl⟩ := Option.map_eq_some_iff.1 hst
      exact h.isr hwhole hs' rfl
  | ucsi a stack heciSend =>
      obtain ⟨event, hu, hst⟩ := Option.bind_eq_some_iff.1 hst
      obtain ⟨s', hs', rfl⟩ := Option.map_eq_some_iff.1 hst
      exact h.event hdev hu hs'

/-- **The answers of every run without a failure.** -/
theorem noticesOk_of_whole (hdev : ∃ d ∈ devices, d.deviceTyp = .ucsi)
    (h : Lts.Reach UcsiInit (ucsiStep devices cpuThermalEnable i2cDev)
      (WholeTransfers devices i2cDev) x) : NoticesOk x :=
  (h.invariant (fun _ => noticeInv_init)
    fun _ _ _ hi hwhole hst => hi.step hdev hwhole hst).toNoticesOk

/-! ### Runs -/

/-- The controller, at pin 5. -/
def onlyController : List EcliteDevice := [⟨.ucsi, some 0, some 5⟩]

/-- ECLite before the first event. -/
def ucsiStart : UcsiSys :=
  let region : ℕ → UInt8 := fun _ => 0
  let header : MessageHeaderType := ⟨0, 0, 0, 0, 0, 0⟩
  let comm : HostComm := ⟨region, header, region, header, [], .success, none⟩
  { sys := ⟨[], fun _ _ => true, .waiting, ⟨.request, 0, false, false, false⟩, comm, false⟩
    data := ⟨⟨fun _ => ⟨0, 0, 0, 0⟩, 0, 0⟩, [], []⟩
    commands := [commandBytes region]
    asks := []
    lost := 0
    calls := []
    answers := [(0, 0)]
    notices := [] }

theorem ucsiInit_start : UcsiInit ucsiStart :=
  ⟨⟨rfl, fun _ _ => rfl, rfl, rfl⟩, rfl, rfl, rfl, rfl, rfl, rfl⟩

/-- A message with a command, and the event. -/
def commandMessage : Message :=
  ⟨⟨0, ecliteHeaderTypeData, ecliteHeaderOprWrite, 260, 24, 0x0A⟩, List.replicate 24 7, by decide⟩

/-- Steps without UCSI. -/
def besidesUcsi (a : EcliteAct) : UcsiAct := .eclite a fun _ => 0

/-- A request of the host, up to its command. -/
def requestRun : List UcsiAct :=
  [besidesUcsi .heciFirst, besidesUcsi (.heciRequest commandMessage), besidesUcsi (.get .heci),
    besidesUcsi (.newMsg true), besidesUcsi (.flowControl true), besidesUcsi (.get .heci),
    .ucsi ⟨⟨0, 1⟩, 0, 0⟩ [] true]

/-- An interrupt of the controller, up to what the host is told. -/
def interruptRun (a : CcgAnswers) : List UcsiAct :=
  [besidesUcsi (.gpioIsr 0 5), besidesUcsi (.get .heci), .isr a, besidesUcsi .gpioNext,
    besidesUcsi .gpioNext, besidesUcsi (.get .heci), .ucsi ⟨⟨0, 0⟩, 0, 0⟩ [] true]

/-- An interrupt with an answer; the argument is the result of the second transfer. -/
def answerOfController (msgIn : BitVec 128) (cci : BitVec 32) (ret : Int32) : CcgAnswers :=
  ⟨⟨0, 0x80⟩, ⟨0, 0⟩, ⟨0, 0⟩, ⟨0, cci⟩, ⟨ret, msgIn⟩, 0⟩

/-- A request is made, and its command is written to the controller. -/
theorem commandsOk_request : ∃ x, UcsiReachable onlyController false true x ∧
    x.calls.map (fun c => (c.message, c.transfers.length)) = [(1, 3)] ∧ CommandsOk x := by
  obtain ⟨x, hx, hp⟩ : ∃ x, UcsiReachable onlyController false true x ∧
      x.calls.map (fun c => (c.message, c.transfers.length)) = [(1, 3)] :=
    Lts.exists_reach ucsiInit_start requestRun _ (by decide +kernel)
  exact ⟨x, hx, hp, commandsOk_of_reachable hx⟩

/-- The controller answers, and the host is told. -/
theorem noticesOk_answer : ∃ x, x.notices.map UcsiNotice.transfer = [1] ∧ NoticesOk x := by
  obtain ⟨x, hx, hp⟩ : ∃ x, Lts.Reach UcsiInit (ucsiStep onlyController false true)
      (WholeTransfers onlyController true) x ∧ x.notices.map UcsiNotice.transfer = [1] :=
    Lts.exists_reach_guarded ucsiInit_start (interruptRun (answerOfController 5 6 0)) _
      (by decide +kernel)
  exact ⟨x, hp, noticesOk_of_whole (by decide) hx⟩

/-- **Half an answer**: when the second transfer fails, the host is told of a new `cci` with an old
message, which the controller has never given. -/
theorem exists_torn : ∃ x, UcsiReachable onlyController false true x ∧
    ∃ n ∈ x.notices, ∀ p ∈ x.answers, n.bytes ≠ answerBytes p := by
  obtain ⟨x, hx, hp⟩ : ∃ x, UcsiReachable onlyController false true x ∧
      x.notices.any (fun n => x.answers.all fun p => decide (n.bytes ≠ answerBytes p)) = true :=
    Lts.exists_reach ucsiInit_start
      (interruptRun (answerOfController 5 6 0) ++ interruptRun (answerOfController 5 8 (-5))) _
      (by decide +kernel)
  obtain ⟨n, hn, hne⟩ := List.any_eq_true.1 hp
  exact ⟨x, hx, n, hn, fun p hm => of_decide_eq_true (List.all_eq_true.1 hne p hm)⟩

end PseFw.Eclite
