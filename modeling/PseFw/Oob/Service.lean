/-
**The out-of-band service.**

One thread waits at the manageability fifo and does what the messages in it say: it acknowledges
commands from the cloud and passes them on to the PMC, it reports transitions of the host, it looks
after the connection.  The messages are put there by callbacks: the handler of MQTT events, the
notification of Sx transitions, the handler of network events and the timers.

There are two ways into the fifo.  `k_fifo_alloc_put` allocates a node that refers to the message,
and may fail; `k_fifo_put` links the message itself.  In both cases the messages are static: one for
all commands, with one buffer for the text and one for the topic, and one for each other producer.

What the thread does with a message is a list of operations.  A callback may come before each of
them.

Main definitions:

* `OobState` — the variables of the service, the fifo, and what the thread still has to do;
* `mqttProcessReceive`, `oobSxHandler`, `oobL2EventHandler`, `oobPowerTransExpiry`,
  `oobTlsSessionExpiry`, `timerExpiryPingreq` — the callbacks;
* `waitForEvents` — the operations for a message;
* `runOp` — what an operation does;
* `OobSys`, `oobStep` — runs, with their history.
-/

import PseFw.Lib.LinkedQueue
import PseFw.Lib.Transition
import PseFw.Oob.Adapter

set_option relaxedAutoImplicit false
set_option autoImplicit false

namespace PseFw.Oob

/-! ### The variables -/

/-- `enum pm_status`. -/
inductive PmStatus
  | activePower
  | lowPower
  deriving DecidableEq, Repr

/-- `enum pmc_messages`. -/
inductive PmcMessage
  | rebootHost
  | rebootPlatform
  | poweron
  | poweroff
  deriving DecidableEq, Repr

/-- `enum oob_conn_state`. -/
inductive OobConnState
  | nwMgmtEventInit
  | nwMgmtEventReceived
  | nwMgmtEventStop
  | tlsSessionInit
  | tlsSessionReconnect
  deriving DecidableEq, Repr

/-- The events of `sedi_pm_sx_event_t`; `other` is one that `oob_sx_handler` calls invalid. -/
inductive SxEvent
  | entry
  | exit
  | other
  deriving DecidableEq, Repr

/-- The events of the network interface; `outside` is one that is not in `L2_EVENT_MASK`. -/
inductive NetEvent
  | ifUp
  | ifDown
  | outside
  deriving DecidableEq, Repr

/-- The static messages. -/
inductive OobItem
  | fmessage
  | mqttStateQ
  | sxTimerQ
  | sxStateQ
  | tlsStateQ
  | nwMgmtQ
  deriving DecidableEq, Repr

/-- The nodes of the fifo: the two messages that are linked themselves, and allocated nodes. -/
inductive OobNode
  | sxStateQ
  | nwMgmtQ
  | alloc (id : ℕ)
  deriving DecidableEq, Repr

/-- An operation of `wait_for_events`.  Where a result decides, both ways to go on are given. -/
inductive OobOp
  /-- `post_message(text, EVENT)`. -/
  | event (text : String)
  /-- `if (pm_sx_st == st)`. -/
  | ifSx (st : PmStatus) (yes no : List OobOp)
  /-- `pmc_action`, up to the request to the PMC. -/
  | pmcAction (action : PmcMessage) (ok failed : List OobOp)
  /-- The result of `pmc_action`. -/
  | pmcWait (ok failed : List OobOp)
  /-- `k_timer_start(&oob_power_trans_timer)`. -/
  | timerStart
  /-- `pmc_reboot = true`. -/
  | setPmcReboot
  /-- `oob_set_provision_state(SEC_DECOM)`. -/
  | setProvisionState (ok failed : List OobOp)
  /-- `is_thread_termi_set = true`, after which the loop is left. -/
  | terminate
  /-- Set `oob_conn_st` and give `oob_conn_sem`. -/
  | connState (st : OobConnState)
  /-- `mqtt_live` and `mqtt_input`. -/
  | mqttLive

/-- The variables of the service. -/
structure OobState where
  managabilityFifo : LinkedQueue OobNode
  /-- The messages the allocated nodes refer to, and the number of the next one. -/
  data : ℕ → OobItem
  fresh : ℕ
  /-- `fmessage.current_msg_type`; its `next_msg` always points to the buffer below. -/
  fmessage : OobMessage
  nextMsg : List UInt8
  topicBuf : List UInt8
  pmSxSt : PmStatus
  pmcReboot : Bool
  /-- `oob_power_trans_timer` is running. -/
  powerTransTimer : Bool
  oobConnSt : OobConnState
  nwMgmtEvent : Option NetEvent
  isThreadTermiSet : Bool
  /-- The kind of message the thread works on, whether it still has to acknowledge it, and what it
  has to do after that. -/
  current : OobMessage
  ackDue : Bool
  todo : List OobOp
  /-- The texts posted as events. -/
  posted : List String

/-! ### The callbacks -/

/-- `k_fifo_put`: the message is linked itself. -/
def kFifoPut (n : OobNode) (s : OobState) : OobState :=
  { s with managabilityFifo := s.managabilityFifo.append n }

/-- `k_fifo_alloc_put`; the first argument says whether there is memory for the node. -/
def kFifoAllocPut (alloc : Bool) (item : OobItem) (s : OobState) : OobState :=
  if alloc = true then
    { s with
      managabilityFifo := s.managabilityFifo.append (.alloc s.fresh)
      data := Function.update s.data s.fresh item
      fresh := s.fresh + 1 }
  else s

/-- `mqtt_process_receive`, for what the adapter made of the message. -/
def mqttProcessReceive (p : Processed) (alloc : Bool) (s : OobState) : OobState :=
  let s := { s with
    nextMsg := p.nextMsg.getD s.nextMsg
    topicBuf := p.topicBuf.getD s.topicBuf }
  if p.msg ≠ .ignore then kFifoAllocPut alloc .fmessage { s with fmessage := p.msg }
  else s

/-- `oob_tls_session_expiry`. -/
def oobTlsSessionExpiry (alloc : Bool) : OobState → OobState := kFifoAllocPut alloc .tlsStateQ

/-- `timer_expiry_pingreq`. -/
def timerExpiryPingreq (alloc : Bool) : OobState → OobState := kFifoAllocPut alloc .mqttStateQ

/-- `oob_power_trans_expiry`, of a timer that runs once. -/
def oobPowerTransExpiry (alloc : Bool) (s : OobState) : OobState :=
  { kFifoAllocPut alloc .sxTimerQ s with
    powerTransTimer := false
    pmcReboot := false }

/-- `oob_post_sx_state`. -/
def oobPostSxState : OobState → OobState := kFifoPut .sxStateQ

/-- `oob_sx_handler`. -/
def oobSxHandler (event : SxEvent) (s : OobState) : OobState :=
  let s := match event with
    | .entry => { s with pmSxSt := .lowPower }
    | .exit => { s with pmSxSt := .activePower, pmcReboot := false }
    | .other => s
  let s := oobPostSxState s
  if s.pmcReboot = false then { s with powerTransTimer := false } else s

/-- `pm_sx_st` after an event. -/
def SxEvent.status (st : PmStatus) : SxEvent → PmStatus
  | .entry => .lowPower
  | .exit => .activePower
  | .other => st

/-- The notification links its message; an exit ends a reboot, and the timer goes on only while a
reboot is under way. -/
theorem oobSxHandler_eq (event : SxEvent) (s : OobState) :
    oobSxHandler event s = { s with
      managabilityFifo := s.managabilityFifo.append .sxStateQ
      pmSxSt := event.status s.pmSxSt
      pmcReboot := decide (event ≠ .exit) && s.pmcReboot
      powerTransTimer := s.powerTransTimer && (decide (event ≠ .exit) && s.pmcReboot) } := by
  unfold oobSxHandler oobPostSxState kFifoPut
  cases hr : s.pmcReboot with
  | true => cases event <;> simp [hr, SxEvent.status]
  | false => cases event <;> simp [hr, SxEvent.status]

/-- `oob_l2_event_handler`. -/
def oobL2EventHandler (mgmtEvent : NetEvent) (s : OobState) : OobState :=
  match mgmtEvent with
  | .outside => s
  | .ifUp => { s with nwMgmtEvent := some .ifUp, oobConnSt := .nwMgmtEventInit }
  | .ifDown => kFifoPut .nwMgmtQ { s with nwMgmtEvent := some .ifDown }

/-! ### The thread -/

/-- What a power command does after it has been acknowledged. -/
def powerCommand (trigger : String) (st : PmStatus) (action : PmcMessage) (started : List OobOp)
    (success failed refused : String) : List OobOp :=
  [.event trigger,
    .ifSx st
      [.pmcAction action (.timerStart :: (started ++ [.event success])) [.event failed]]
      [.event refused]]

/-- `wait_for_events`: what is done for a message, after its acknowledgement. -/
def waitForEvents : OobMessage → List OobOp
  | .relay => []
  | .reboot => powerCommand "Reboot command Triggered" .activePower .rebootHost [.setPmcReboot]
      "Platform Reboot Initiated" "Platform Reboot Failed"
      ("Platform in Low Power state - " ++
        "Ignoring REBOOT command. Please Retry with POWER-ON.")
  | .poweron => powerCommand "Poweron command Triggered" .lowPower .poweron []
      "Platform Power On Initiated" "Platform Power On Failed"
      "Platform already in Active power state"
  | .poweroff => powerCommand "Poweroff command Triggered" .activePower .poweroff []
      "Platform Power Off Initiated" "Platform Power Off Failed"
      "Platform already in Low power state"
  | .decommission =>
      [.ifSx .activePower
        [.event "Decomission command Triggered",
          .setProvisionState
            [.event "Platform Decommission Initiated",
              .pmcAction .rebootHost
                [.terminate, .event "Platform Decommission Successful"]
                [.event "Platform Decommission Failed"]]
            [.event "Platform Decommission Initiate Failed"]]
        [.event ("Platform in Low Power state - " ++
          "Decommission not supported in Low Power state." ++
          "Ignoring Decommission. Please Retry with POWER-ON.")]]
  | .pltStateChangeEvent =>
      [.ifSx .lowPower [.event "Platform in Low Power state"]
        [.event "Platform in Active Power state"]]
  | .pltStateTimerEvent =>
      [.event ("Platform power state transition " ++ "taking longer than expected. Please retry")]
  | .tlsSessionStateEvent => [.connState .tlsSessionReconnect]
  | .mqttStateChangeEvent => [.mqttLive]
  | .pltNwMgmtEvent => [.connState .nwMgmtEventReceived]
  | .ignore => []

/-- The messages whose `next_msg` is posted first. -/
def OobMessage.isCommand : OobMessage → Bool
  | .reboot | .decommission | .poweron | .poweroff | .relay => true
  | _ => false

/-- `current_msg_type` of a message. -/
def OobState.typeOf (s : OobState) : OobItem → OobMessage
  | .fmessage => s.fmessage
  | .mqttStateQ => .mqttStateChangeEvent
  | .sxTimerQ => .pltStateTimerEvent
  | .sxStateQ => .pltStateChangeEvent
  | .tlsStateQ => .tlsSessionStateEvent
  | .nwMgmtQ => .pltNwMgmtEvent

/-- The message at a node. -/
def OobState.itemAt (s : OobState) : OobNode → OobItem
  | .sxStateQ => .sxStateQ
  | .nwMgmtQ => .nwMgmtQ
  | .alloc id => s.data id

/-- The thread goes to work on the message at a node. -/
def OobState.take (s : OobState) (n : OobNode) (fifo : LinkedQueue OobNode) : OobState :=
  let msg := s.typeOf (s.itemAt n)
  { s with
    managabilityFifo := fifo
    current := msg
    ackDue := msg.isCommand
    todo := waitForEvents msg }

/-- What an operation does; `result` says whether what it asks for succeeds. -/
def runOp (result : Bool) (s : OobState) : OobOp → OobState
  | .event text => { s with posted := s.posted ++ [text] }
  | .ifSx st yes no => { s with todo := (if s.pmSxSt = st then yes else no) ++ s.todo }
  | .pmcAction _ ok failed => { s with todo := .pmcWait ok failed :: s.todo }
  | .pmcWait ok failed => { s with todo := (if result = true then ok else failed) ++ s.todo }
  | .timerStart => { s with powerTransTimer := true }
  | .setPmcReboot => { s with pmcReboot := true }
  | .setProvisionState ok failed =>
      { s with todo := (if result = true then ok else failed) ++ s.todo }
  | .terminate => { s with isThreadTermiSet := true }
  | .connState st => { s with oobConnSt := st }
  | .mqttLive => s

/-! ### Runs -/

/-- What a command should be acted on with: its kind, its text, and the topic it came on. -/
structure Wanted where
  msg : OobMessage
  text : List UInt8
  topicBuf : List UInt8
  deriving DecidableEq, Repr

/-- What a command was acted on with: the kind that decided what to do, the text and the topic of
the acknowledgement, and the bytes behind the buffer with the topic at that moment. -/
structure Acted where
  msg : OobMessage
  text : List UInt8
  topic : List UInt8
  after : List UInt8
  deriving DecidableEq, Repr

/-- The service, and the history of a run. -/
structure OobSys where
  s : OobState
  /-- The nodes that were put into the fifo, and those that were taken out. -/
  puts : List OobNode
  taken : List OobNode
  /-- The commands the adapter has recognised, and those the thread has acted on. -/
  published : List Wanted
  acted : List Acted
  /-- The last power command for which a request went to the PMC, with the Sx events since. -/
  asked : Option (OobMessage × List SxEvent)
  /-- `asked`, at each moment at which `PLT_STATE_TIMER_EVENT` was posted. -/
  reports : List (Option (OobMessage × List SxEvent))

/-- What happens in a run. -/
inductive OobLabel
  | publish (m : Incoming) (stack : List UInt8) (alloc : Bool)
  | sx (event : SxEvent)
  | l2 (mgmtEvent : NetEvent)
  | powerTransExpiry (alloc : Bool)
  | tlsSessionExpiry (alloc : Bool)
  | pingreqExpiry (alloc : Bool)
  /-- The thread takes a message. -/
  | get
  /-- The thread posts the acknowledgement. -/
  | ack (after : List UInt8)
  /-- The thread executes an operation. -/
  | work (result : Bool)

/-- The commands that start `oob_power_trans_timer`. -/
def OobMessage.isPower : OobMessage → Bool
  | .reboot | .poweron | .poweroff => true
  | _ => false

/-- The history after a request to the PMC. -/
def OobSys.ask (x : OobSys) : OobOp → Option (OobMessage × List SxEvent)
  | .pmcAction _ _ _ => if x.s.current.isPower = true then some (x.s.current, []) else x.asked
  | _ => x.asked

/-- A node that `k_fifo_alloc_put` puts into the fifo. -/
def OobSys.allocated (x : OobSys) (alloc : Bool) : List OobNode :=
  if alloc = true then [.alloc x.s.fresh] else []

/-- One step of a run. -/
def oobStep (c : Credentials) : OobLabel → OobSys → Option OobSys
  | .publish m stack alloc, x => (processMessage c stack m).map fun p =>
      { x with
        s := mqttProcessReceive p alloc x.s
        puts := x.puts ++ (if p.msg ≠ .ignore then x.allocated alloc else [])
        published := x.published ++
          (if p.msg ≠ .ignore then [⟨p.msg, p.nextMsg.getD [], p.topicBuf.getD []⟩] else []) }
  | .sx event, x => some { x with
      s := oobSxHandler event x.s
      puts := x.puts ++ [.sxStateQ]
      asked := x.asked.map fun a => (a.1, a.2 ++ [event]) }
  | .l2 mgmtEvent, x => some { x with
      s := oobL2EventHandler mgmtEvent x.s
      puts := x.puts ++ (if mgmtEvent = .ifDown then [.nwMgmtQ] else []) }
  | .powerTransExpiry alloc, x =>
      if x.s.powerTransTimer = true then
        some { x with
          s := oobPowerTransExpiry alloc x.s
          puts := x.puts ++ x.allocated alloc
          reports := x.reports ++ (if alloc = true then [x.asked] else []) }
      else none
  | .tlsSessionExpiry alloc, x => some { x with
      s := oobTlsSessionExpiry alloc x.s
      puts := x.puts ++ x.allocated alloc }
  | .pingreqExpiry alloc, x => some { x with
      s := timerExpiryPingreq alloc x.s
      puts := x.puts ++ x.allocated alloc }
  | .get, x =>
      if x.s.ackDue = false ∧ x.s.todo.isEmpty = true ∧ x.s.isThreadTermiSet = false then
        x.s.managabilityFifo.get.map fun a =>
          { x with s := x.s.take a.1 a.2, taken := x.taken ++ [a.1] }
      else none
  | .ack after, x =>
      if x.s.ackDue = true then
        some { x with
          s := { x.s with ackDue := false }
          acted := x.acted ++ [⟨x.s.current, x.s.nextMsg,
            getMqttPubTopic c.cloudAdapter x.s.topicBuf after, after⟩] }
      else none
  | .work result, x =>
      if x.s.ackDue = false then
        x.s.todo.head?.map fun op =>
          { x with
            s := runOp result { x.s with todo := x.s.todo.tail } op
            asked := x.ask op }
      else none

/-- The start: nothing in the fifo, no timer running, nothing to do. -/
structure OobInit (x : OobSys) : Prop where
  managabilityFifo : x.s.managabilityFifo = LinkedQueue.empty
  powerTransTimer : x.s.powerTransTimer = false
  ackDue : x.s.ackDue = false
  todo : x.s.todo = []
  puts : x.puts = []
  taken : x.taken = []
  published : x.published = []
  acted : x.acted = []
  asked : x.asked = none
  reports : x.reports = []

/-- Credentials for an Azure cloud. -/
def azureCredentials : Credentials := ⟨.azure, CStr.bytes "device", by decide⟩

/-- The service before the first event, with the host running. -/
def oobIdle : OobSys where
  s :=
    { managabilityFifo := LinkedQueue.empty
      data := fun _ => .fmessage
      fresh := 0
      fmessage := .reboot
      nextMsg := []
      topicBuf := []
      pmSxSt := .activePower
      pmcReboot := false
      powerTransTimer := false
      oobConnSt := .nwMgmtEventInit
      nwMgmtEvent := none
      isThreadTermiSet := false
      current := .ignore
      ackDue := false
      todo := []
      posted := [] }
  puts := []
  taken := []
  published := []
  acted := []
  asked := none
  reports := []

theorem oobInit_idle : OobInit oobIdle := ⟨rfl, rfl, rfl, rfl, rfl, rfl, rfl, rfl, rfl, rfl⟩

end PseFw.Oob
