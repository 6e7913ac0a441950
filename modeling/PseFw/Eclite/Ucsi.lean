/-
**UCSI in ECLite.**

The host writes a command of UCSI into the operation region and sends an event; the dispatcher
posts an event of its own, and when this one is processed the command is taken out of the region and
written to the controller: the message first, and then `control`, with which the controller starts.
In the other direction the controller raises its interrupt; the service routine reads the answer,
and a second event puts it into the region and tells the host.

Main definitions:

* `ucsiCmdFromOs` — the transfers of a command;
* `processUcsiCommand`, `ecliteSendUcsiEvent` — the two events;
* `UcsiSys`, `ucsiStep` — ECLite with the data of the driver, and its steps in any order;
* `CommandTransfers`, `Quiet` — the transfers there can be, and the steps without UCSI.

Main results:

* `commandTransfers_process` — the transfers of a request;
* `quiet_step`, `newMsg_cases` — what the other steps do to the queue and to the region.
-/

import PseFw.Eclite.Ccg
import PseFw.Eclite.Dispatcher
import PseFw.Eclite.Residue

set_option relaxedAutoImplicit false
set_option autoImplicit false

namespace PseFw.Eclite

open Mem

/-! ### The driver -/

/-- `ECLITE_OS_EVENT_UCSI_UPDATE`. -/
def ecliteOsEventUcsiUpdate : ℕ := 0x0A

/-- `ECLITE_EVENT_UCSI_UPDATE`. -/
def ecliteEventUcsiUpdate : BitVec 8 := 0x0C

/-- `UCSI_STATUS_REG_FLAG_CONNAND_IP`. -/
def ucsiStatusRegFlagConnandIp : ℕ := 1

/-- `struct ucsi_data_t`; what the service routine writes to is in `ccg`. -/
structure UcsiData where
  ccg : CcgState
  msgOut : List UInt8
  control : List UInt8

/-- The transfers of a command. -/
inductive CcgTransfer
  | status (answer : CcgRead 8)
  | msgOut (bytes : List UInt8) (ret : Int32)
  | control (bytes : List UInt8) (ret : Int32)

/-- The answers on the bus. -/
structure CommandAnswers where
  status : CcgRead 8
  msgOut : Int32
  control : Int32

/-- `ucsi_command` with `USBC_MSG_OUT`. -/
def ucsiCommandMsgOut (d : CcgDevice) (msgOut control : List UInt8) (data : UcsiData) : UcsiData :=
  if d.dev = true then { data with msgOut := msgOut, control := control } else data

/-- An answer as bytes: `msg_in`, and `cci` behind it. -/
def answerBytes (answer : BitVec 128 × BitVec 32) : List UInt8 :=
  leBytes 16 answer.1.toNat ++ leBytes 4 answer.2.toNat

/-- `ucsi_command` with `USBC_MSG_IN`: what stands in the buffer then. -/
def ucsiCommandMsgIn (d : CcgDevice) (stack : List UInt8) (data : UcsiData) : List UInt8 :=
  if d.dev = true then answerBytes (data.ccg.msgIn, data.ccg.cci) else stack

/-- `ucsi_cmd_from_os`, with its transfers. -/
def ucsiCmdFromOs (d : CcgDevice) (a : CommandAnswers) (data : UcsiData) :
    Int32 × List CcgTransfer :=
  if d.dev = false then (errorCode, [])
  else if d.devInterface = false then (errorCode, [])
  else
    let (ret, buf) := ccgRd d.i2cDev a.status 0
    let done := if d.i2cDev = true then [CcgTransfer.status a.status] else []
    if resultByte ret ≠ 0 then (byteResult (resultByte ret), done)
    else if buf.getLsbD ucsiStatusRegFlagConnandIp = true then (errorCode, done)
    else
      let ret := ccgWr d.i2cDev a.msgOut
      let done := done ++ [.msgOut data.msgOut ret]
      if resultByte ret ≠ 0 then (byteResult (resultByte ret), done)
      else
        let ret := ccgWr d.i2cDev a.control
        (if resultByte ret ≠ 0 then byteResult (resultByte ret) else 0,
          done ++ [.control data.control ret])

/-- `process_ucsi_command`; an event that is not known sends the last command again. -/
def processUcsiCommand (d : CcgDevice) (a : CommandAnswers) (event : ℕ) (opregion : ℕ → UInt8)
    (data : UcsiData) : UcsiData × List CcgTransfer :=
  let data :=
    if event = ecliteOsEventUcsiUpdate then
      ucsiCommandMsgOut d (read opregion OpField.msgOutInfo.offset OpField.msgOutInfo.size)
        (read opregion OpField.controlInfo.offset OpField.controlInfo.size) data
    else data
  (data, (ucsiCmdFromOs d a data).2)

/-- `eclite_send_event`. -/
def HostComm.ecliteSendEvent (heciSend : Bool) (event : BitVec 8) (s : HostComm) : HostComm :=
  let header := { s.txHeader with
    revision := 0
    event := event
    dataType := HostBytes.ecliteHeaderTypeEvent }
  let s := { s with txHeader := header }
  if s.heciConnectionId = none then s
  else if s.opregion OpField.eventNotifyConfig.offset = 0 then s
  else if heciSend = true then { s with sent := s.sent ++ [(header, [])] }
  else s

/-- `eclite_send_ucsi_event`; the buffer is written to the region as it is. -/
def ecliteSendUcsiEvent (heciSend : Bool) (buf : List UInt8) (s : HostComm) : HostComm :=
  HostComm.ecliteSendEvent heciSend ecliteEventUcsiUpdate
    { s with opregion := write s.opregion OpField.msgInInfo.offset buf }

/-! ### The system -/

/-- The command in the region: `msg_out_info` and `control_info`. -/
def commandBytes (opregion : ℕ → UInt8) : List UInt8 :=
  read opregion OpField.msgOutInfo.offset (OpField.msgOutInfo.size + OpField.controlInfo.size)

/-- The answer in the region: `msg_in_info` and `cci_info`. -/
def regionAnswer (opregion : ℕ → UInt8) : List UInt8 :=
  read opregion OpField.msgInInfo.offset (OpField.msgInInfo.size + OpField.cciInfo.size)

/-- The event of a request of the host. -/
def commandEvent : DispatcherQueueData := ⟨.ucsi, ecliteOsEventUcsiUpdate⟩

/-- A request that was processed: the number of the message behind which this was, the command in
the region, and the transfers. -/
structure UcsiCall where
  message : ℕ
  command : List UInt8
  transfers : List CcgTransfer

/-- An answer the host was told of: the number of the transfer behind which this was, and the bytes
in the region. -/
structure UcsiNotice where
  transfer : ℕ
  bytes : List UInt8

/-- ECLite and the data of the driver.  The other fields are a record of the run: the command in the
region at the start and behind every message, the numbers of the messages with a request, the
requests that got lost and those that were processed; the answers that were transferred, and those
the host was told of. -/
structure UcsiSys where
  sys : EcliteSys
  data : UcsiData
  commands : List (List UInt8)
  asks : List ℕ
  lost : ℕ
  calls : List UcsiCall
  answers : List (BitVec 128 × BitVec 32)
  notices : List UcsiNotice

/-- The steps. -/
inductive UcsiAct
  /-- A step without UCSI, and the region behind it; the part of UCSI does not count. -/
  | eclite (a : EcliteAct) (opregion : ℕ → UInt8)
  /-- The turn of the controller in `gpio_event_processing`. -/
  | isr (a : CcgAnswers)
  /-- An event of UCSI is processed; the stack holds what a buffer that is not filled holds. -/
  | ucsi (a : CommandAnswers) (stack : List UInt8) (heciSend : Bool)

/-- The controller is next in `gpio_event_processing`. -/
def Phase.ccgNext : Phase → Bool
  | .gpio pin _ (d :: _) => decide (d.gpioNo = some pin) && decide (d.deviceTyp = .ucsi)
  | _ => false

/-- An event of UCSI is being processed. -/
def Phase.ucsi : Phase → Option ℕ
  | .other e => if e.eventType = .ucsi then some e.data else none
  | _ => none

/-- A step that is one of UCSI. -/
def ucsiTurn (ph : Phase) : EcliteAct → Bool
  | .gpioNext => ph.ccgNext
  | .finish => ph.ucsi.isSome
  | _ => false

/-- A message is about to be processed, with a request for the controller. -/
def asksCommand (x : EcliteSys) : Bool :=
  x.rxMsg.msgLock && decide (x.rxMsg.type = .request) &&
    decide (x.comm.rxHeader.event.toNat = ecliteOsEventUcsiUpdate)

/-- What the other events write to the region leaves the part of UCSI as it is. -/
def keepUcsi (old new : ℕ → UInt8) : ℕ → UInt8 := fun i =>
  if OpField.msgOutInfo.offset ≤ i ∧ i < OpField.ucsiVersion.offset + OpField.ucsiVersion.size then
    old i
  else new i

/-- The service routine comes to the handler of UCSI. -/
def ucsiHandlerRuns (d : CcgDevice) (a : CcgAnswers) : Bool :=
  d.dev && d.devInterface && d.i2cDev && decide (resultByte a.interrupt.ret = 0) &&
    a.interrupt.value.getLsbD ccgUcsireadInterruptFlag

/-- Both transfers of the answer succeed. -/
def answerComes (a : CcgAnswers) : Bool := decide (a.cci.ret = 0) && decide (a.msgIn.ret = 0)

variable (devices : List EcliteDevice) (cpuThermalEnable i2cDev : Bool)

/-- The controller as the driver finds it, `ccg_pd_device`, if it is one of the devices of the
platform. -/
def pdDevice : CcgDevice := ⟨devices.any fun d => decide (d.deviceTyp = .ucsi), true, i2cDev⟩

/-- A message is processed: a request is posted, if there is room for it. -/
def UcsiSys.message (x : UcsiSys) (s : EcliteSys) : UcsiSys :=
  { x with
    sys := s
    commands := x.commands ++ [commandBytes s.comm.opregion]
    asks := if asksCommand x.sys = true then x.asks ++ [x.commands.length] else x.asks
    lost := if asksCommand x.sys = true ∧ ecliteQueueDepth ≤ x.sys.queue.length then x.lost + 1
      else x.lost }

/-- A step without UCSI. -/
def UcsiSys.besides (a : EcliteAct) (opregion : ℕ → UInt8) (x : UcsiSys) (s : EcliteSys) :
    UcsiSys :=
  match a with
  | .newMsg _ => x.message s
  | .purge => { x with sys := s, lost := x.lost + x.sys.queue.count commandEvent }
  | .finish =>
      { x with
        sys := { s with comm := { s.comm with opregion := keepUcsi s.comm.opregion opregion } } }
  | _ => { x with sys := s }

/-- An event of UCSI: a command, or an answer. -/
def UcsiSys.event (a : CommandAnswers) (stack : List UInt8) (heciSend : Bool) (event : ℕ)
    (x : UcsiSys) (s : EcliteSys) : UcsiSys :=
  let d := pdDevice devices i2cDev
  if event ≠ 0 then
    let r := processUcsiCommand d a event s.comm.opregion x.data
    { x with
      sys := s
      data := r.1
      calls := x.calls ++ [⟨x.commands.length - 1, commandBytes s.comm.opregion, r.2⟩] }
  else
    let buf := ucsiCommandMsgIn d stack x.data
    { x with
      sys := { s with comm := ecliteSendUcsiEvent heciSend buf s.comm }
      notices := x.notices ++ [⟨x.answers.length - 1, buf⟩] }

/-- **One step.** -/
def ucsiStep : UcsiAct → UcsiSys → Option UcsiSys
  | .eclite a opregion, x =>
      if ucsiTurn x.sys.phase a = true then none
      else (ecliteStep devices cpuThermalEnable a x.sys).map (x.besides a opregion)
  | .isr a, x =>
      if x.sys.phase.ccgNext = true then
        (gpioEventProcessing x.sys).map fun s =>
          let d := pdDevice devices i2cDev
          { x with
            sys := s
            data := { x.data with ccg := (ccgIsr d a x.data.ccg).state }
            answers := if (ucsiHandlerRuns d a && answerComes a) = true then
                x.answers ++ [(a.msgIn.value, a.cci.value)]
              else x.answers }
      else none
  | .ucsi a stack heciSend, x =>
      x.sys.phase.ucsi.bind fun event =>
        (finishEvent x.sys).map (x.event devices i2cDev a stack heciSend event)

/-- The start. -/
structure UcsiInit (x : UcsiSys) : Prop where
  sys : EcliteInit x.sys
  commands : x.commands = [commandBytes x.sys.comm.opregion]
  asks : x.asks = []
  lost : x.lost = 0
  calls : x.calls = []
  answers : x.answers = [(x.data.ccg.msgIn, x.data.ccg.cci)]
  notices : x.notices = []

/-- The states of all runs. -/
def UcsiReachable (x : UcsiSys) : Prop :=
  Lts.Reach UcsiInit (ucsiStep devices cpuThermalEnable i2cDev) Lts.Free x

/-! ### The transfers of a command -/

/-- The controller could be asked, and it was not busy. -/
def CommandAnswers.Idle (status : CcgRead 8) : Prop :=
  resultByte status.ret = 0 ∧ status.value.getLsbD ucsiStatusRegFlagConnandIp = false

/-- **The transfers of a command**: the status, then the message, and `control`, with which the
controller starts, only behind a message that was written. -/
inductive CommandTransfers (command : List UInt8) : List CcgTransfer → Prop
  | none : CommandTransfers command []
  | asked (status : CcgRead 8) : CommandTransfers command [.status status]
  | half {status : CcgRead 8} {ret : Int32} (hidle : CommandAnswers.Idle status)
      (hret : resultByte ret ≠ 0) :
      CommandTransfers command [.status status, .msgOut (command.take OpField.msgOutInfo.size) ret]
  | full {status : CcgRead 8} {ret : Int32} (hidle : CommandAnswers.Idle status)
      (hret : resultByte ret = 0) (ret' : Int32) :
      CommandTransfers command [.status status, .msgOut (command.take OpField.msgOutInfo.size) ret,
        .control (command.drop OpField.msgOutInfo.size) ret']

/-- An event in the queue, or being processed. -/
def EcliteSys.waiting (x : EcliteSys) (e : DispatcherQueueData) : ℕ :=
  x.queue.count e + if x.phase = .other e then 1 else 0

variable {devices cpuThermalEnable i2cDev}

theorem commandBytes_eq (opregion : ℕ → UInt8) : commandBytes opregion =
    read opregion OpField.msgOutInfo.offset OpField.msgOutInfo.size ++
      read opregion OpField.controlInfo.offset OpField.controlInfo.size := by
  have hnext : OpField.controlInfo.offset =
      OpField.msgOutInfo.offset + OpField.msgOutInfo.size := by
    decide
  rw [hnext]
  exact read_add _ _ _ _

/-- **The transfers of a request.** -/
theorem commandTransfers_process (d : CcgDevice) (a : CommandAnswers) (opregion : ℕ → UInt8)
    (data : UcsiData) : CommandTransfers (commandBytes opregion)
      (processUcsiCommand d a ecliteOsEventUcsiUpdate opregion data).2 := by
  have hlen : (read opregion OpField.msgOutInfo.offset OpField.msgOutInfo.size).length =
      OpField.msgOutInfo.size := length_read _ _ _
  have htake : (read opregion OpField.msgOutInfo.offset OpField.msgOutInfo.size ++
      read opregion OpField.controlInfo.offset OpField.controlInfo.size).take
      OpField.msgOutInfo.size = _ := List.take_left' hlen
  have hdrop : (read opregion OpField.msgOutInfo.offset OpField.msgOutInfo.size ++
      read opregion OpField.controlInfo.offset OpField.controlInfo.size).drop
      OpField.msgOutInfo.size = _ := List.drop_left' hlen
  rw [← commandBytes_eq] at htake hdrop
  unfold processUcsiCommand ucsiCmdFromOs ucsiCommandMsgOut
  rw [if_pos rfl]
  dsimp only
  by_cases hdev : d.dev = false
  · rw [if_pos hdev]
    exact .none
  rw [if_neg hdev, if_pos (Bool.eq_true_of_not_eq_false hdev)]
  by_cases hint : d.devInterface = false
  · rw [if_pos hint]
    exact .none
  rw [if_neg hint]
  cases hbus : d.i2cDev with
  | false =>
      rw [if_pos (by exact resultByte_errorCode)]
      exact .none
  | true =>
      rw [ccgRd_true]
      dsimp only
      by_cases hstatus : resultByte a.status.ret = 0
      · rw [if_neg (not_not_intro hstatus)]
        by_cases hbusy : a.status.value.getLsbD ucsiStatusRegFlagConnandIp = true
        · rw [if_pos hbusy]
          exact .asked _
        · have hidle : CommandAnswers.Idle a.status :=
            ⟨hstatus, Bool.eq_false_of_not_eq_true hbusy⟩
          rw [if_neg hbusy, ← htake, ← hdrop]
          by_cases hout : resultByte (ccgWr true a.msgOut) = 0
          · rw [if_neg (not_not_intro hout)]
            exact .full hidle hout _
          · rw [if_pos hout]
            exact .half hidle hout
      · rw [if_pos hstatus]
        exact .asked _

/-! ### Steps without UCSI -/

/-- The events of UCSI that there are: a request, and an interrupt. -/
def KnownEvent (e : DispatcherQueueData) : Prop :=
  e.eventType = .ucsi → e.data = ecliteOsEventUcsiUpdate ∨ e.data = 0

/-- **A step without UCSI**: at most one event is posted, which is no request; no event of UCSI
begins or ends; and the region stays as it is up to the switch for the events. -/
structure Quiet (s s' : EcliteSys) : Prop where
  queue : s'.queue = s.queue ∨ ∃ e, e ≠ commandEvent ∧ KnownEvent e ∧
    s'.queue = eclitePostDispatcherEvent e s.queue
  phase : s'.phase = s.phase ∨
    (∀ e, s.phase = .other e → e.eventType ≠ .ucsi) ∧ ∀ e, s'.phase ≠ .other e
  region : ∀ i ≠ eventNotifyConfig, s'.comm.opregion i = s.comm.opregion i

section Steps

variable {s s' : EcliteSys}

theorem Quiet.commandBytes (h : Quiet s s') :
    commandBytes s'.comm.opregion = commandBytes s.comm.opregion := by
  refine read_congr fun i _ hi => h.region i ?_
  have hend : OpField.msgOutInfo.offset + (OpField.msgOutInfo.size + OpField.controlInfo.size) ≤
      eventNotifyConfig := by decide
  exact (lt_of_lt_of_le hi hend).ne

theorem Quiet.regionAnswer (h : Quiet s s') :
    regionAnswer s'.comm.opregion = regionAnswer s.comm.opregion := by
  refine read_congr fun i _ hi => h.region i ?_
  have hend : OpField.msgInInfo.offset + (OpField.msgInInfo.size + OpField.cciInfo.size) ≤
      eventNotifyConfig := by decide
  exact (lt_of_lt_of_le hi hend).ne

/-- Another event in the queue. -/
theorem count_post_of_ne {e e' : DispatcherQueueData} (hne : e' ≠ e)
    (q : List DispatcherQueueData) : (eclitePostDispatcherEvent e' q).count e = q.count e := by
  unfold eclitePostDispatcherEvent
  split
  · rw [List.count_append, List.count_singleton, if_neg (by simpa using hne), Nat.add_zero]
  · rfl

theorem Quiet.waiting (h : Quiet s s') : s'.waiting commandEvent = s.waiting commandEvent := by
  have hqueue : s'.queue.count commandEvent = s.queue.count commandEvent := by
    rcases h.queue with hq | ⟨e, hne, -, hq⟩
    · rw [hq]
    · rw [hq, count_post_of_ne hne]
  unfold EcliteSys.waiting
  rw [hqueue]
  rcases h.phase with hp | ⟨hp, hp'⟩
  · rw [hp]
  · rw [if_neg fun hs => hp _ hs rfl, if_neg (hp' _)]

/-- A stage of the dispatcher ends, and nothing is posted. -/
theorem quiet_stage {ph : Phase} (hph : s.phase = ph) (hother : ∀ e, ph ≠ .other e)
    (hq : s'.queue = s.queue) (hp : ∀ e, s'.phase ≠ .other e)
    (hr : s'.comm.opregion = s.comm.opregion) : Quiet s s' :=
  ⟨Or.inl hq, Or.inr ⟨fun e he => absurd (hph.symm.trans he) (hother e), hp⟩,
    fun i _ => congrFun hr i⟩

/-- The callback of the HECI client. -/
theorem quiet_eventCallback (event : ℕ) {s₁ : EcliteSys} (hq : s₁.queue = s.queue)
    (hp : s₁.phase = s.phase) (hr : s₁.comm.opregion = s.comm.opregion) :
    Quiet s (ecliteEventCallback event s₁) := by
  obtain ⟨h1, -, h3, -⟩ := eventCallback_frame event s₁
  refine ⟨Or.inr ⟨⟨.heci, event⟩, by simp [commandEvent], nofun, by rw [h1, hq]⟩,
    Or.inl (h3.trans hp), ?_⟩
  intro i hi
  rw [← hr]
  have hcheck : (checkEventsConfigRequest s₁.comm).opregion i = s₁.comm.opregion i := by
    unfold checkEventsConfigRequest
    split
    · rfl
    · split
      · rfl
      · split
        · rfl
        · rw [offset_eventNotifyConfig]
          rcases lt_or_gt_of_ne hi with hlt | hgt
          · exact write_of_lt _ _ hlt
          · exact write_of_ge _ _ hgt
  unfold ecliteEventCallback
  dsimp only
  split
  · exact hcheck
  · rfl

/-- A device's turn in the loop over the devices. -/
theorem quiet_gpioNext (hst : gpioEventProcessing s = some s') : Quiet s s' := by
  unfold gpioEventProcessing at hst
  split at hst
  · rename_i pin stack hph
    obtain rfl := Option.some.inj hst
    exact quiet_stage hph (fun e => Phase.noConfusion) rfl (fun e => Phase.noConfusion) rfl
  · rename_i pin stack dev ds hph
    split at hst
    · obtain rfl := Option.some.inj hst
      exact quiet_stage hph (fun e => Phase.noConfusion) rfl (fun e => Phase.noConfusion) rfl
    split at hst
    · obtain rfl := Option.some.inj hst
      refine ⟨Or.inr ⟨⟨dev.deviceTyp.event stack, 0⟩, ?_, fun _ => Or.inr rfl, rfl⟩,
        Or.inr ⟨fun e he => Phase.noConfusion (hph.symm.trans he), fun e => Phase.noConfusion⟩,
        fun _ _ => rfl⟩
      simp [commandEvent, ecliteOsEventUcsiUpdate]
    · obtain rfl := Option.some.inj hst
      exact quiet_stage hph (fun e => Phase.noConfusion) rfl (fun e => Phase.noConfusion) rfl
  · rename_i pin event dev ds hph
    split at hst
    · obtain rfl := Option.some.inj hst
      exact quiet_stage hph (fun e => Phase.noConfusion) rfl (fun e => Phase.noConfusion) rfl
    · obtain rfl := Option.some.inj hst
      exact quiet_stage hph (fun e => Phase.noConfusion) rfl (fun e => Phase.noConfusion) rfl
  · cases hst

/-- An event is posted from outside. -/
theorem quiet_post {e : DispatcherQueueData} (he : e.eventType ≠ .ucsi)
    (hq : s'.queue = eclitePostDispatcherEvent e s.queue) (hp : s'.phase = s.phase)
    (hr : s'.comm.opregion = s.comm.opregion) : Quiet s s' :=
  ⟨Or.inr ⟨e, fun h => he (by rw [h]; rfl), fun h => absurd h he, hq⟩, Or.inl hp,
    fun i _ => congrFun hr i⟩

/-- Another event than one of UCSI is finished. -/
theorem quiet_finish (hturn : s.phase.ucsi = none) (hst : finishEvent s = some s') :
    Quiet s s' := by
  unfold finishEvent at hst
  split at hst
  · rename_i event hph
    split at hst
    · cases hst
    · obtain rfl := Option.some.inj hst
      exact quiet_stage hph (fun e => Phase.noConfusion) rfl (fun e => Phase.noConfusion) rfl
  · rename_i e hph
    have hne : ∀ e', s.phase = .other e' → e'.eventType ≠ .ucsi := by
      intro e' he' hu
      rw [he', Phase.ucsi, if_pos hu] at hturn
      cases hturn
    split at hst
    · obtain rfl := Option.some.inj hst
      exact ⟨Or.inr ⟨⟨.thermal, 0⟩, by simp [commandEvent], nofun, rfl⟩,
        Or.inr ⟨hne, fun e => Phase.noConfusion⟩, fun _ _ => rfl⟩
    · obtain rfl := Option.some.inj hst
      exact ⟨Or.inl rfl, Or.inr ⟨hne, fun e => Phase.noConfusion⟩, fun _ _ => rfl⟩
  · cases hst

/-- **Most steps have nothing to do with UCSI.** -/
theorem quiet_step {a : EcliteAct} (hturn : ucsiTurn s.phase a = false)
    (hget : ∀ stack, a ≠ .get stack) (hmsg : ∀ b, a ≠ .newMsg b) (hpurge : a ≠ .purge)
    (hst : ecliteStep devices cpuThermalEnable a s = some s') : Quiet s s' := by
  cases a with
  | gpioIsr port pin =>
      obtain ⟨-, hst⟩ := Option.ite_none_right_eq_some.1 hst
      obtain rfl := Option.some.inj hst
      exact quiet_post (e := gpioEvent _) nofun rfl rfl rfl
  | heciConnect id =>
      obtain ⟨-, hst⟩ := Option.ite_none_left_eq_some.1 hst
      obtain rfl := Option.some.inj hst
      exact quiet_eventCallback _ rfl rfl rfl
  | heciFirst =>
      obtain ⟨-, hst⟩ := Option.ite_none_left_eq_some.1 hst
      obtain rfl := Option.some.inj hst
      exact ⟨Or.inl rfl, Or.inl rfl, fun _ _ => rfl⟩
  | heciBad =>
      obtain ⟨-, hst⟩ := Option.ite_none_right_eq_some.1 hst
      obtain rfl := Option.some.inj hst
      exact ⟨Or.inl rfl, Or.inl rfl, fun _ _ => rfl⟩
  | heciRequest m =>
      obtain ⟨-, hst⟩ := Option.ite_none_right_eq_some.1 hst
      obtain rfl := Option.some.inj hst
      exact quiet_eventCallback _ rfl rfl rfl
  | heciDisconnect =>
      obtain rfl := Option.some.inj hst
      exact quiet_eventCallback _ rfl rfl rfl
  | timerTick data =>
      obtain ⟨-, hst⟩ := Option.ite_none_right_eq_some.1 hst
      obtain rfl := Option.some.inj hst
      exact quiet_post (e := ⟨.timer, data⟩) nofun rfl rfl rfl
  | get stack => exact absurd rfl (hget stack)
  | gpioNext => exact quiet_gpioNext hst
  | newMsg heciSend => exact absurd rfl (hmsg heciSend)
  | flowControl ok =>
      obtain ⟨hph, hst⟩ := Option.ite_none_right_eq_some.1 hst
      split at hst
      · obtain rfl := Option.some.inj hst
        exact quiet_stage hph (fun e => Phase.noConfusion) rfl (fun e => Phase.noConfusion) rfl
      · obtain rfl := Option.some.inj hst
        exact quiet_stage hph (fun e => Phase.noConfusion) rfl (fun e => Phase.noConfusion) rfl
  | disconn ok unlocks =>
      obtain ⟨hph, hst⟩ := Option.ite_none_right_eq_some.1 hst
      split at hst
      · obtain rfl := Option.some.inj hst
        refine quiet_stage hph (fun e => Phase.noConfusion) rfl (fun e => ?_) rfl
        dsimp only
        split
        · exact Phase.noConfusion
        · exact Phase.noConfusion
      · obtain rfl := Option.some.inj hst
        exact quiet_stage hph (fun e => Phase.noConfusion) rfl (fun e => Phase.noConfusion) rfl
  | purge => exact absurd rfl hpurge
  | finish =>
      exact quiet_finish (Option.isNone_iff_eq_none.1 (Option.isSome_eq_false_iff.1 hturn)) hst

/-- The event of a message. -/
theorem eventMessage_command (event : BitVec 8) :
    (event.toNat = ecliteOsEventUcsiUpdate →
      event ≠ 0 ∧ ecliteProcessEventMessage event = some commandEvent) ∧
    (event.toNat ≠ ecliteOsEventUcsiUpdate → ∀ e, ecliteProcessEventMessage event = some e →
      e.eventType ≠ .ucsi) := by
  refine ⟨fun h => ?_, fun hne e he => ?_⟩
  · obtain rfl : event = 0x0A := BitVec.eq_of_toNat_eq h
    exact ⟨by decide, rfl⟩
  · unfold ecliteProcessEventMessage at he
    split at he <;> first | exact absurd ‹event.toNat = 10› hne | skip
    all_goals first | cases he; nofun | cases he

/-- **A message**: a request is posted, or another event, or none. -/
theorem newMsg_cases {heciSend : Bool}
    (hst : ecliteStep devices cpuThermalEnable (.newMsg heciSend) s = some s') :
    s.phase = .heci heciEventNewMsg ∧ (∀ e, s'.phase ≠ .other e) ∧
      (asksCommand s = true → s'.queue = eclitePostDispatcherEvent commandEvent s.queue) ∧
      (asksCommand s = false → s'.queue = s.queue ∨ ∃ e, e.eventType ≠ .ucsi ∧
        s'.queue = eclitePostDispatcherEvent e s.queue) := by
  obtain ⟨hph, hst⟩ := Option.ite_none_right_eq_some.1 hst
  refine ⟨hph, ?_⟩
  unfold asksCommand
  split at hst
  · rename_i hlock
    obtain rfl := Option.some.inj hst
    rw [hlock]
    exact ⟨fun e => Phase.noConfusion, nofun, fun _ => Or.inl rfl⟩
  · rename_i hlock
    obtain rfl := Option.some.inj hst
    rw [Bool.eq_true_of_not_eq_false hlock, Bool.true_and]
    unfold processNewMsg
    split
    · rename_i htype
      rw [htype]
      exact ⟨fun e => Phase.noConfusion, nofun, fun _ => Or.inl rfl⟩
    · rename_i htype
      rw [htype]
      obtain ⟨hask, hother⟩ := eventMessage_command s.comm.rxHeader.event
      refine ⟨fun e => ?_, fun h => ?_, fun h => ?_⟩
      · dsimp only
        split
        · exact Phase.noConfusion
        · exact Phase.noConfusion
      · obtain ⟨hne, hev⟩ := hask (by simpa using h)
        dsimp only [ecliteProcessMsg]
        rw [if_neg hne, hev]
      · have hev := hother (by simpa using h)
        dsimp only [ecliteProcessMsg]
        split
        · rename_i e he
          rw [Option.ite_none_left_eq_some] at he
          exact Or.inr ⟨e, hev e he.2, rfl⟩
        · exact Or.inl rfl

end Steps

end PseFw.Eclite
