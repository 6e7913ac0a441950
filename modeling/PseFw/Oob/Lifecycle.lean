/-
**The life of the cloud connection.**

Two threads share the connection of the out-of-band service.  The service thread connects, posts the
platform information, and works on the messages of the manageability fifo as long as it is
connected; when it is not, it starts over.  The configuration thread sets everything up and then
waits at a semaphore: when the interface went down it tears the connection down, and when the TLS
session expires it tears it down and sets it up anew.  The two are held together by three variables
and two semaphores, and a teardown takes the service thread out of its wait at the fifo by
cancelling it.  All the while the callbacks come: the events of the MQTT library, from inside its
calls, the events of the interface, the Sx transitions and the timers.

The service ends in one way only: a cloud command to decommission the device.

Main definitions:

* `PseFw.Oob.mqttEvtHandler` — the events of the MQTT library;
* `PseFw.Oob.deviceCloudAbort`, `PseFw.Oob.deviceCloudConnect`, `PseFw.Oob.deviceCloudInit` — the
  connection, step by step;
* `PseFw.Oob.serviceStep` — `ehl_oob_bootstrap`, with `wait_for_events` and
  `oob_service_decommission`;
* `PseFw.Oob.cfgStep` — `oob_cfg_task`;
* `PseFw.Oob.lifeStep` — runs;
* `PseFw.Oob.checkAll` — a check of the operations for a message.

Main results:

* `PseFw.Oob.checkAll_waitForEvents` — **the service is only ended by a decommissioning** that the
  security engine and the PMC have accepted.
-/

import PseFw.Oob.Service

set_option relaxedAutoImplicit false
set_option autoImplicit false

namespace PseFw.Oob

/-! ### The events of the MQTT library -/

/-- The events that `mqtt_evt_handler` does something about; `connack` with the result. -/
inductive MqttEvt
  | connack (success : Bool)
  | disconnect
  | publish (m : Incoming) (stack : List UInt8) (alloc : Bool)

def MqttEvt.isDisconnect : MqttEvt → Bool
  | .disconnect => true
  | _ => false

/-- `mqtt_evt_handler`, on the variables of the service and `connected`. -/
def mqttEvtHandler (c : Credentials) (evt : MqttEvt) (r : OobState × Bool) :
    Option (OobState × Bool) :=
  match evt with
  | .connack success => some (r.1, if success = true then true else r.2)
  | .disconnect => some (r.1, false)
  | .publish m stack alloc =>
      (processMessage c stack m).map fun p => (mqttProcessReceive p alloc r.1, r.2)

/-- The events of one call, one after the other. -/
def mqttEvents (c : Credentials) : List MqttEvt → OobState × Bool → Option (OobState × Bool)
  | [], r => some r
  | evt :: evts, r => (mqttEvtHandler c evt r).bind (mqttEvents c evts)

/-! ### The threads -/

/-- `device_cloud_abort`: before `k_timer_stop`, `connected = false`, `mqtt_abort` and
`k_fifo_cancel_wait`. -/
inductive AbortPc
  | stopPing
  | disconnect
  | mqttAbort
  | cancel
  deriving DecidableEq, Repr

/-- `device_cloud_connect` with `try_to_connect`. -/
inductive ConnectPc
  /-- Before `get_mqtt_broker_addrinfo`. -/
  | resolve
  /-- Before `while (!connected)`. -/
  | test
  /-- Before `client_init` and `mqtt_connect`. -/
  | connect
  /-- Before `wait`, and `mqtt_abort` if it fails. -/
  | wait
  /-- Before `mqtt_input`. -/
  | input
  /-- Before `if (!connected)`. -/
  | check
  | subscribe
  /-- Before the last `mqtt_input`. -/
  | lastInput
  /-- Before `k_timer_start(&ping_req_timer)`. -/
  | startPing
  deriving DecidableEq, Repr

/-- `device_cloud_init`. -/
inductive InitPc
  | tlsInit
  | setState
  | fifoInit
  | timerInit
  deriving DecidableEq, Repr

/-- The service thread. -/
inductive ServicePc
  /-- Before `k_sem_take(&oob_cfg_sem)`. -/
  | cfgSem
  /-- Before `k_timer_start(&oob_tls_session_timer)`. -/
  | timerStart
  /-- Before `if (oob_conn_st == NW_MGMT_EVENT_STOP)`. -/
  | top
  /-- In `device_cloud_connect`; the flag says that `wait_for_events` called it. -/
  | connect (again : Bool) (pc : ConnectPc)
  /-- `device_cloud_connect` failed: before `k_timer_stop` and the return. -/
  | failed
  /-- In `send_platform_info`, with this number of messages still to post. -/
  | info (n : ℕ)
  /-- Before `while (connected)`. -/
  | loop
  /-- Before `k_fifo_get`. -/
  | get
  /-- Pending at the fifo. -/
  | waits
  /-- Pending at a fifo that was initialised in the meantime. -/
  | lost
  /-- At work on a message. -/
  | work
  /-- Before `mqtt_live`, `mqtt_input` and `if (connected)`, for `MQTT_STATE_CHANGE_EVENT`. -/
  | live
  | liveInput
  | liveTest
  /-- In `device_cloud_abort`; the flag says that `oob_service_decommission` called it. -/
  | abort (last : Bool) (pc : AbortPc)
  /-- Before `if (is_thread_termi_set)`. -/
  | left
  /-- Before `oob_release_credentials` and `k_sem_give(&sec_hc_oob_sem)`. -/
  | release
  /-- Before `k_timer_stop(&oob_tls_session_timer)`. -/
  | timerStop
  /-- Before `k_sem_give(&oob_conn_sem)`. -/
  | connSem
  | done
  deriving DecidableEq, Repr

/-- The configuration thread. -/
inductive CfgPc
  /-- Before `sedi_get_config`. -/
  | enabled
  /-- Before `get_oob_credential`. -/
  | credential
  /-- Before `wait_for_nw_iface_ip`. -/
  | iface
  /-- Before `oob_register_nw_mgmt_events`. -/
  | register
  /-- In `device_cloud_init`; the flag says that `device_conn_recover` called it. -/
  | init (recover : Bool) (pc : InitPc)
  /-- Before `k_sem_give(&oob_cfg_sem)`. -/
  | cfgSem
  /-- Before `k_sem_take(&oob_conn_sem)`. -/
  | take
  /-- Before the tests of `oob_conn_st` and `connected`, and of `nw_mgmt_event`. -/
  | testReceived
  | testDown
  /-- Before `oob_conn_st = NW_MGMT_EVENT_STOP`. -/
  | setStop
  /-- In `device_conn_teardown`; the flag says that the TLS session has expired. -/
  | abort (tls : Bool) (pc : AbortPc)
  /-- Before `if (oob_conn_st == TLS_SESSION_RECONNECT)`. -/
  | testTls
  /-- Before `if (is_thread_termi_set == true)`. -/
  | testTermi
  | done
  deriving DecidableEq, Repr

/-- What the service thread does with the connection: the calls of the MQTT library other than
`mqtt_abort`, and the end of the credentials they use. -/
inductive CloudOp
  | connect
  | subscribe
  | publish
  | live
  | input
  | release
  deriving DecidableEq, Repr

/-- **The service, its two threads, and the history of a run.** -/
structure Life where
  s : OobState
  connected : Bool
  dnsStatus : Bool
  pingReqTimer : Bool
  oobTlsSessionTimer : Bool
  oobCfgSem : Bool
  oobConnSem : Bool
  service : ServicePc
  cfg : CfgPc
  /-- The operations on the connection, in their order. -/
  ops : List CloudOp
  /-- For the message in work: the security engine has taken the state `SEC_DECOM`, and the PMC has
  taken the action. -/
  provisioned : Bool
  accepted : Bool
  /-- The last `NET_EVENT_IF_UP` came between the test of `nw_mgmt_event` and
  `oob_conn_st = NW_MGMT_EVENT_STOP`. -/
  upLost : Bool

/-- A call of the MQTT library, with the events it reports. -/
def Life.mqtt (c : Credentials) (evts : List MqttEvt) (x : Life) : Option Life :=
  (mqttEvents c evts (x.s, x.connected)).map fun r => { x with s := r.1, connected := r.2 }

def Life.log (op : CloudOp) (x : Life) : Life := { x with ops := x.ops ++ [op] }

/-- `k_fifo_get` has returned a node. -/
def Life.take (n : OobNode) (q : LinkedQueue OobNode) (x : Life) : Life :=
  { x with
    s := x.s.take n q
    service := .work
    provisioned := false
    accepted := false }

/-- `k_fifo_cancel_wait`: a thread that pends at the fifo gets no message. -/
def Life.cancelWait (x : Life) : Life :=
  if x.service = .waits ∧ x.s.managabilityFifo.get = none then { x with service := .loop } else x

/-- `k_fifo_init`: the messages are gone, and nobody pends at the fifo any more.  A thread that was
woken already has its message. -/
def Life.fifoInit (x : Life) : Life :=
  let x := if x.service = .waits then
      match x.s.managabilityFifo.get with
      | none => { x with service := .lost }
      | some (n, q) => x.take n q
    else x
  { x with s := { x.s with managabilityFifo := LinkedQueue.empty } }

/-- `device_cloud_abort`; without a place to go on, it has returned. -/
def deviceCloudAbort (c : Credentials) (ok : Bool) (evts : List MqttEvt) (x : Life) :
    AbortPc → Option (Option AbortPc × Life)
  | .stopPing => some (some .disconnect, { x with pingReqTimer := false })
  | .disconnect => some (some .mqttAbort, { x with connected := false })
  | .mqttAbort =>
      if evts.all MqttEvt.isDisconnect = true then
        (x.mqtt c evts).map fun x => (if ok = true then some .cancel else none, x)
      else none
  | .cancel => some (none, x.cancelWait)

/-- `device_cloud_connect`; without a place to go on, it has returned with this result. -/
def deviceCloudConnect (c : Credentials) (ok : Bool) (evts : List MqttEvt) (x : Life) :
    ConnectPc → Option ((Bool ⊕ ConnectPc) × Life)
  | .resolve =>
      if x.dnsStatus = true then some (.inr .test, x)
      else if ok = true then some (.inr .test, { x with dnsStatus := true })
      else some (.inl false, x)
  | .test => some (.inr (if x.connected = true then .subscribe else .connect), x)
  | .connect => ((x.log .connect).mqtt c evts).map fun x =>
      (.inr (if ok = true then .wait else .test), x)
  | .wait =>
      if ok = true then some (.inr .input, x)
      else if evts.all MqttEvt.isDisconnect = true then
        (x.mqtt c evts).map fun x => (.inr .input, x)
      else none
  | .input => ((x.log .input).mqtt c evts).map fun x => (.inr .check, x)
  | .check =>
      if x.connected = true then some (.inr .test, x)
      else if evts.all MqttEvt.isDisconnect = true then (x.mqtt c evts).map fun x => (.inr .test, x)
      else none
  | .subscribe => ((x.log .subscribe).mqtt c evts).map fun x =>
      (if ok = true then .inr .lastInput else .inl false, x)
  | .lastInput => ((x.log .input).mqtt c evts).map fun x => (.inr .startPing, x)
  | .startPing => some (.inl true, { x with pingReqTimer := true })

/-- `device_cloud_init`; without a place to go on, it has returned with this result. -/
def deviceCloudInit (ok : Bool) (x : Life) : InitPc → (Bool ⊕ InitPc) × Life
  | .tlsInit => (if ok = true then .inr .setState else .inl false, x)
  | .setState => (.inr .fifoInit, { x with s := { x.s with oobConnSt := .tlsSessionInit } })
  | .fifoInit => (.inr .timerInit, x.fifoInit)
  | .timerInit => (.inl true, { x with pingReqTimer := false })

/-! ### The service thread -/

/-- Where the service thread goes after `device_cloud_connect`. -/
def afterConnect (again : Bool) : Bool ⊕ ConnectPc → ServicePc
  | .inr pc => .connect again pc
  | .inl ok => if again = true then .loop else if ok = true then .info 6 else .failed

/-- Where the service thread goes after `device_cloud_abort`. -/
def afterAbort (last : Bool) : Option AbortPc → ServicePc
  | some pc => .abort last pc
  | none => if last = true then .release else .connect true .resolve

/-- An operation for the message in work; it is off the list already. -/
def opStep (c : Credentials) (ok : Bool) (evts : List MqttEvt) (x : Life) : OobOp → Option Life
  | .event text =>
      ((x.log .publish).mqtt c evts).map fun x => { x with s := runOp ok x.s (.event text) }
  | .setProvisionState yes no => some { x with
      s := runOp ok x.s (.setProvisionState yes no)
      provisioned := x.provisioned || ok }
  | .pmcWait yes no => some { x with
      s := runOp ok x.s (.pmcWait yes no)
      accepted := x.accepted || ok }
  | .connState st => some { x with
      s := runOp ok x.s (.connState st)
      oobConnSem := true }
  | .mqttLive => some { x with service := .live }
  | op => some { x with s := runOp ok x.s op }

/-- The work on a message: the acknowledgement, the operations, and the end of the loop's body. -/
def workStep (c : Credentials) (ok : Bool) (evts : List MqttEvt) (x : Life) : Option Life :=
  if x.s.ackDue = true then
    ((x.log .publish).mqtt c evts).map fun x => { x with s := { x.s with ackDue := false } }
  else
    match x.s.todo with
    | [] => some { x with service := if x.s.isThreadTermiSet = true then .left else .loop }
    | op :: todo => opStep c ok evts { x with s := { x.s with todo := todo } } op

/-- `ehl_oob_bootstrap`. -/
def serviceStep (c : Credentials) (ok : Bool) (evts : List MqttEvt) (x : Life) : Option Life :=
  match x.service with
  | .cfgSem =>
      if x.oobCfgSem = true then some { x with oobCfgSem := false, service := .timerStart }
      else none
  | .timerStart => some { x with oobTlsSessionTimer := true, service := .top }
  | .top =>
      if x.s.oobConnSt = .nwMgmtEventStop then some x
      else some { x with service := .connect false .resolve }
  | .connect again pc => (deviceCloudConnect c ok evts x pc).map fun r =>
      { r.2 with service := afterConnect again r.1 }
  | .failed => some { x with oobTlsSessionTimer := false, service := .done }
  | .info 0 => some { x with service := .loop }
  | .info (n + 1) => ((x.log .publish).mqtt c evts).map fun x => { x with service := .info n }
  | .loop => some { x with service := if x.connected = true then .get else .left }
  | .get =>
      match x.s.managabilityFifo.get with
      | none => some { x with service := .waits }
      | some (n, q) => some (x.take n q)
  | .waits => x.s.managabilityFifo.get.map fun a => x.take a.1 a.2
  | .lost => none
  | .work => workStep c ok evts x
  | .live => ((x.log .live).mqtt c evts).map fun x => { x with service := .liveInput }
  | .liveInput => ((x.log .input).mqtt c evts).map fun x => { x with service := .liveTest }
  | .liveTest =>
      some { x with service := if x.connected = true then .loop else .abort false .stopPing }
  | .abort last pc => (deviceCloudAbort c ok evts x pc).map fun r =>
      { r.2 with service := afterAbort last r.1 }
  | .left =>
      some { x with
        service := if x.s.isThreadTermiSet = true then .abort true .stopPing else .top }
  | .release => some { x.log .release with service := .timerStop }
  | .timerStop => some { x with oobTlsSessionTimer := false, service := .connSem }
  | .connSem => some { x with oobConnSem := true, service := .done }
  | .done => none

/-! ### The configuration thread -/

/-- Where the configuration thread goes after `device_cloud_init`. -/
def afterInit (recover : Bool) : Bool ⊕ InitPc → CfgPc
  | .inr pc => .init recover pc
  | .inl ok => if recover = true then .testTermi else if ok = true then .cfgSem else .done

/-- Where the configuration thread goes after `device_conn_teardown`. -/
def afterTeardown (tls : Bool) : Option AbortPc → CfgPc
  | some pc => .abort tls pc
  | none => if tls = true then .init true .tlsInit else .testTls

/-- `oob_cfg_task`. -/
def cfgStep (c : Credentials) (ok : Bool) (evts : List MqttEvt) (x : Life) : Option Life :=
  match x.cfg with
  | .enabled => some { x with cfg := if ok = true then .credential else .done }
  | .credential => some { x with cfg := if ok = true then .iface else .done }
  | .iface => some { x with cfg := if ok = true then .register else .done }
  | .register =>
      some { x with s := { x.s with oobConnSt := .nwMgmtEventInit }, cfg := .init false .tlsInit }
  | .init recover pc =>
      some { (deviceCloudInit ok x pc).2 with
        cfg := afterInit recover (deviceCloudInit ok x pc).1 }
  | .cfgSem => some { x with oobCfgSem := true, cfg := .take }
  | .take =>
      if x.oobConnSem = true then some { x with oobConnSem := false, cfg := .testReceived }
      else none
  | .testReceived =>
      some { x with
        cfg := if x.connected = true ∧ x.s.oobConnSt = .nwMgmtEventReceived then .testDown
          else .testTls }
  | .testDown =>
      some { x with cfg := if x.s.nwMgmtEvent = some .ifDown then .setStop else .testTls }
  | .setStop =>
      some { x with
        s := { x.s with oobConnSt := .nwMgmtEventStop }
        cfg := .abort false .stopPing }
  | .abort tls pc => (deviceCloudAbort c ok evts x pc).map fun r =>
      { r.2 with cfg := afterTeardown tls r.1 }
  | .testTls =>
      some { x with
        cfg := if x.s.oobConnSt = .tlsSessionReconnect then .abort true .stopPing
          else .testTermi }
  | .testTermi => some { x with cfg := if x.s.isThreadTermiSet = true then .done else .take }
  | .done => none

/-! ### Runs -/

/-- What happens in a run.  The threads come with the result of what they call, and with the events
that a call of the MQTT library reports. -/
inductive LifeLabel
  | service (ok : Bool) (evts : List MqttEvt)
  | cfg (ok : Bool) (evts : List MqttEvt)
  | sx (event : SxEvent)
  | l2 (mgmtEvent : NetEvent)
  | powerTransExpiry (alloc : Bool)
  | tlsSessionExpiry (alloc : Bool)
  | pingreqExpiry (alloc : Bool)

/-- One step of a run.  The callbacks may come at any time. -/
def lifeStep (c : Credentials) : LifeLabel → Life → Option Life
  | .service ok evts, x => serviceStep c ok evts x
  | .cfg ok evts, x => cfgStep c ok evts x
  | .sx event, x => some { x with s := oobSxHandler event x.s }
  | .l2 mgmtEvent, x => some { x with
      s := oobL2EventHandler mgmtEvent x.s
      upLost := if mgmtEvent = .ifUp then decide (x.cfg = .setStop) else x.upLost }
  | .powerTransExpiry alloc, x =>
      if x.s.powerTransTimer = true then some { x with s := oobPowerTransExpiry alloc x.s }
      else none
  | .tlsSessionExpiry alloc, x =>
      if x.oobTlsSessionTimer = true then some { x with s := oobTlsSessionExpiry alloc x.s }
      else none
  | .pingreqExpiry alloc, x =>
      if x.pingReqTimer = true then some { x with s := timerExpiryPingreq alloc x.s } else none

/-- The start of both threads, with the variables of the source zero.  The three the model adds to
watch a run (`provisioned`, `accepted`, `upLost`) may have any value. -/
structure LifeInit (x : Life) : Prop where
  managabilityFifo : x.s.managabilityFifo = LinkedQueue.empty
  ackDue : x.s.ackDue = false
  todo : x.s.todo = []
  isThreadTermiSet : x.s.isThreadTermiSet = false
  oobConnSt : x.s.oobConnSt = .nwMgmtEventInit
  nwMgmtEvent : x.s.nwMgmtEvent = none
  connected : x.connected = false
  pingReqTimer : x.pingReqTimer = false
  oobTlsSessionTimer : x.oobTlsSessionTimer = false
  oobCfgSem : x.oobCfgSem = false
  oobConnSem : x.oobConnSem = false
  service : x.service = .cfgSem
  cfg : x.cfg = .enabled
  ops : x.ops = []

/-- **The states that can be reached.** -/
def LifeReachable (c : Credentials) : Life → Prop :=
  Lts.Reach LifeInit (lifeStep c) Lts.Free

/-! ### The operations for a message -/

-- The continuation is the check of what stands behind the operation; its arguments are whether the
-- security engine and the PMC have accepted, and whether the loop is about to be left.
mutual

/-- **The loop is left only when the security engine and the PMC have accepted**, and then the
service only reports; the interface is never declared down. -/
def OobOp.check (k : Bool → Bool → Bool → Bool) : OobOp → Bool → Bool → Bool → Bool
  | .event _, p, a, t => k p a t
  | .ifSx _ yes no, p, a, t => !t && checkAll k yes p a t && checkAll k no p a t
  | .pmcAction _ yes no, p, a, t => !t && checkAll k yes p true t && checkAll k no p a t
  | .pmcWait yes no, p, a, t => !t && checkAll k yes p true t && checkAll k no p a t
  | .timerStart, p, a, t => !t && k p a t
  | .setPmcReboot, p, a, t => !t && k p a t
  | .setProvisionState yes no, p, a, t => !t && checkAll k yes true a t && checkAll k no p a t
  | .terminate, p, a, t => p && a && !t && k p a true
  | .connState st, p, a, t => !t && decide (st ≠ .nwMgmtEventStop) && k p a t
  | .mqttLive, p, a, t => !t && k p a t

/-- The check of a list of operations. -/
def checkAll (k : Bool → Bool → Bool → Bool) : List OobOp → Bool → Bool → Bool → Bool
  | [], p, a, t => k p a t
  | op :: ops, p, a, t => op.check (checkAll k ops) p a t

end

/-- Nothing stands behind the operations for a message. -/
def passes (_ _ _ : Bool) : Bool := true

/-- **The operations for every message pass the check.** -/
theorem checkAll_waitForEvents (msg : OobMessage) :
    checkAll passes (waitForEvents msg) false false false = true := by
  cases msg <;> rfl

theorem checkAll_append (k : Bool → Bool → Bool → Bool) (ops ops' : List OobOp) :
    checkAll k (ops ++ ops') = checkAll (checkAll k ops') ops := by
  induction ops with
  | nil => rfl
  | cons op ops ih =>
      funext p a t
      rw [List.cons_append, checkAll, checkAll, ih]

end PseFw.Oob
