/-
**The host may send again.**

A message keeps the receive buffer locked and has used up the credit of the host.  When ECLite has
processed it, `heci_send_flow_control` unlocks the buffer and gives the host a new credit.  This is
the last step of `eclite_heci_event_process`; a read whose answer could not be sent ends before it.

Nobody makes up for it.  The buffer stays locked and the host stays without credit, until the
connection is closed.

Main definitions:

* `ecliteHeciEventProcess` — the function, on the state of ECLite and on that of the HECI layer;
* `RequestDelivered`, `KeepsOpen` — a request on an open connection that stays open;
* `FlowControlled` — the buffer is free and one credit has been given;
* `AnswerFails` — the answer to a read could not be sent.

Main results:

* `keepsOpen_heciSend` — sending alone leaves the connection as it is;
* `flowControlled_iff` — a request is followed by flow control exactly when no answer fails and the
  flow-control message is written;
* `served_iff` — **in a run the host is served all along exactly when this holds of every request.**
-/

import PseFw.Eclite.Dispatcher
import PseFw.Eclite.Residue
import PseFw.Heci.HostView

set_option relaxedAutoImplicit false
set_option autoImplicit false

namespace PseFw.Eclite

open Heci (HeciDev HeciConn HeciBusMsg Event ConnId RxPtr connStateOpen)

/-! ### The processing of an event of HECI -/

/-- ECLite and the HECI layer, the timer and the queue of the dispatcher. -/
structure EcliteHeci where
  comm : HostComm
  dev : HeciDev
  dispatcherTimer : Bool
  queue : List DispatcherQueueData

/-- The request in the receive buffer is one to read that is answered. -/
def AsksForAnswer (s : HostComm) : Prop :=
  s.rxHeader.IsRead ∧ s.rxHeader.offset.toNat + s.rxHeader.length.toNat ≤ maxOprLength

instance (s : HostComm) : Decidable (AsksForAnswer s) := inferInstanceAs (Decidable (_ ∧ _))

/-- What `eclite_process_msg` returns. -/
def ecliteProcessMsgRet (sent : Bool) (s : HostComm) : Ret :=
  if s.rxHeader.event ≠ 0 then .success
  else if s.rxHeader.dataType = ecliteHeaderTypeData then (ecliteProcessDataMessage sent s).1
  else .error

/-- The call of `eclite_process_msg`.  The answer to a read is sent through the HECI layer. -/
def processRequest (heciSend : HeciDev → Bool × HeciDev) (x : EcliteHeci) : Ret × EcliteHeci :=
  let sent := (heciSend x.dev).1
  let r := ecliteProcessMsg sent x.comm
  (ecliteProcessMsgRet sent x.comm,
    { x with
      comm := r.1
      dev := if AsksForAnswer x.comm then (heciSend x.dev).2 else x.dev
      queue := match r.2 with
        | some e => eclitePostDispatcherEvent e x.queue
        | none => x.queue })

/-- The end of `HECI_EVENT_NEW_MSG`; the argument is what is returned without a connection. -/
def sendFlowControl (P : Heci.Platform) (ret : Ret) (x : EcliteHeci) : Ret × EcliteHeci :=
  match x.comm.heciConnectionId with
  | none => (ret, x)
  | some id =>
      let r := Heci.heciSendFlowControl P id x.dev
      (if r.1 = true then .success else .error, { x with dev := r.2 })

/-- `HECI_EVENT_NEW_MSG`. -/
def processNewMsgEvent (P : Heci.Platform) (heciSend : HeciDev → Bool × HeciDev) (rxMsg : RxPtr)
    (cpuThermalEnable : Bool) (x : EcliteHeci) : Ret × EcliteHeci :=
  let msg := x.dev.rxMsgs rxMsg
  if msg.msgLock = false then (.error, x)
  else
    match msg.type with
    | .connect => sendFlowControl P .error { x with
        comm := { x.comm with heciConnectionId := some msg.connectionId.toNat }
        dispatcherTimer := x.dispatcherTimer || cpuThermalEnable }
    | .request =>
        let r := processRequest heciSend x
        if r.2.comm.dataMsgHeciSendStat = .error then r
        else sendFlowControl P r.1 r.2

/-- `HECI_EVENT_DISCONN`; an invalid connection has the highest number. -/
def processDisconnEvent (P : Heci.Platform) (cpuThermalEnable : Bool) (x : EcliteHeci) :
    Option (Ret × EcliteHeci) :=
  match Heci.heciCompleteDisconnect P (x.comm.heciConnectionId.getD (2 ^ 32 - 1)) x.dev with
  | none => none
  | some (ret, dev) =>
      if ret = 0 then
        some (.success, { x with
          comm := { x.comm with heciConnectionId := none }
          dev := dev
          dispatcherTimer := x.dispatcherTimer && !cpuThermalEnable
          queue := if cpuThermalEnable = true then [] else x.queue })
      else some (.error, { x with dev := dev })

/-- `eclite_heci_event_process`.  There is no result when `heci_complete_disconnect` follows a null
pointer. -/
def ecliteHeciEventProcess (P : Heci.Platform) (heciSend : HeciDev → Bool × HeciDev) (rxMsg : RxPtr)
    (cpuThermalEnable : Bool) (event : ℕ) (x : EcliteHeci) : Option (Ret × EcliteHeci) :=
  let x := { x with comm := { x.comm with dataMsgHeciSendStat := .success } }
  if event = heciEventNewMsg then
    some (processNewMsgEvent P heciSend rxMsg cpuThermalEnable x)
  else if event = heciEventDisconn then processDisconnEvent P cpuThermalEnable x
  else some (.error, x)

/-! ### Flow control -/

/-- The flow-control message of a connection. -/
def flowCtrlFrame (conn : HeciConn) : HeciBusMsg :=
  Heci.busFrame (Heci.flowCtrlBytes conn.fwAddr conn.hostAddr 1)

/-- A frame has been written to the mailbox. -/
def wrote (f : HeciBusMsg) : Event → Bool
  | .ipcWrite _ msg _ ret => decide (msg = f) && decide (ret = 0)
  | _ => false

/-- The number of credits the host has been given on a connection. -/
def flowControls (c : ConnId) (d : HeciDev) : ℕ :=
  d.events.countP (wrote (flowCtrlFrame (d.connections c)))

/-- A request stands in the receive buffer, and its connection is open. -/
structure RequestDelivered (rxMsg : RxPtr) (c : ConnId) (x : EcliteHeci) : Prop where
  connectionId : x.comm.heciConnectionId = some c.val
  isOpen : (x.dev.connections c).has connStateOpen = true
  rxBuffer : (x.dev.connections c).rxBuffer = some rxMsg
  msgLock : (x.dev.rxMsgs rxMsg).msgLock = true
  type : (x.dev.rxMsgs rxMsg).type = .request

/-- The connection stays open, the buffer stays with it, and no credit is given. -/
structure KeepsOpen (c : ConnId) (d d' : HeciDev) : Prop where
  isOpen : (d'.connections c).has connStateOpen = true
  rxBuffer : (d'.connections c).rxBuffer = (d.connections c).rxBuffer
  fwAddr : (d'.connections c).fwAddr = (d.connections c).fwAddr
  hostAddr : (d'.connections c).hostAddr = (d.connections c).hostAddr
  flowControls : flowControls c d' = flowControls c d

/-- **The duty**: the buffer is free, and one credit has been given. -/
structure FlowControlled (rxMsg : RxPtr) (c : ConnId) (x x' : EcliteHeci) : Prop where
  rxBuffer : (x'.dev.connections c).rxBuffer = none
  msgLock : (x'.dev.rxMsgs rxMsg).msgLock = false
  flowControls : flowControls c x'.dev = flowControls c x.dev + 1

/-- The answer to a read could not be sent. -/
def AnswerFails (heciSend : HeciDev → Bool × HeciDev) (x : EcliteHeci) : Prop :=
  AsksForAnswer x.comm ∧ (heciSend x.dev).1 = false

/-- The HECI layer when the answer, if there is one, has been sent. -/
def devBehind (heciSend : HeciDev → Bool × HeciDev) (x : EcliteHeci) : HeciDev :=
  if AsksForAnswer x.comm then (heciSend x.dev).2 else x.dev

/-- The state behind the event of a message. -/
def afterNewMsg (P : Heci.Platform) (heciSend : HeciDev → Bool × HeciDev) (rxMsg : RxPtr)
    (cpuThermalEnable : Bool) (x : EcliteHeci) : EcliteHeci :=
  (processNewMsgEvent P heciSend rxMsg cpuThermalEnable
    { x with comm := { x.comm with dataMsgHeciSendStat := .success } }).2

/-- The services below let the flow-control message through. -/
def GrantPasses (P : Heci.Platform) (heciSend : HeciDev → Bool × HeciDev) (x : EcliteHeci) : Prop :=
  Heci.protoWritten P (devBehind heciSend x).events.length = true

section

variable {P : Heci.Platform} {heciSend : HeciDev → Bool × HeciDev} {rxMsg : RxPtr} {c : ConnId}
variable {cpuThermalEnable : Bool} {x : EcliteHeci}

/-! ### Counting the credits -/

theorem flowControls_emit {d : HeciDev} (evs : List Event) :
    flowControls c (d.emit evs) =
      flowControls c d + evs.countP (wrote (flowCtrlFrame (d.connections c))) :=
  List.countP_append

/-- Writing a frame counts when it succeeds. -/
theorem countP_protoEvents (f : HeciBusMsg) (n : ℕ) :
    (Heci.protoEvents P f n).countP (wrote f) = if Heci.protoWritten P n = true then 1 else 0 := by
  have hwrite : ∀ ret, wrote f (Heci.writeEvent f ret) = decide (ret = 0) := by
    intro ret
    show (decide (f = f) && decide (ret = 0)) = decide (ret = 0)
    rw [decide_eq_true rfl, Bool.true_and]
  have hreq : ∀ ret, wrote f (.hostAccessReq ret) = false := fun _ => rfl
  have hdereq : ∀ ret, wrote f (.hostAccessDereq ret) = false := fun _ => rfl
  unfold Heci.protoEvents Heci.protoWritten
  by_cases hm : P.sysMng
  · by_cases hr : P.hostAccessReq n < 0
    · simp [hm, hr, hreq]
    · by_cases hw : P.ipcWriteMsg (n + 1) = 0
      · simp [hm, hr, not_lt.1 hr, hw, hreq, hdereq, hwrite]
      · simp [hm, hr, hw, hreq, hdereq, hwrite]
  · by_cases hw : P.ipcWriteMsg n = 0
    · simp [hm, hw, hwrite]
    · simp [hm, hw, hwrite]

/-- A step that writes no flow-control message of a connection gives no credit on it. -/
theorem flowControls_ioStep {W : HeciBusMsg → Prop} {d d' : HeciDev} (h : Heci.IoStep W d d')
    (hW : ∀ f, W f → f ≠ flowCtrlFrame (d.connections c)) :
    flowControls c d' = flowControls c d := by
  obtain ⟨evs, hevs, hio⟩ := h.events
  have hzero : evs.countP (wrote (flowCtrlFrame (d.connections c))) = 0 := by
    rw [List.countP_eq_zero]
    intro e he
    cases hio e he with
    | hostAccessReq r => exact Bool.false_ne_true
    | hostAccessDereq r => exact Bool.false_ne_true
    | write r hf =>
        intro hw
        have hw' : (decide (_ = flowCtrlFrame (d.connections c)) && decide (r = 0)) = true := hw
        rw [Bool.and_eq_true] at hw'
        exact hW _ hf (of_decide_eq_true hw'.1)
  unfold flowControls
  rw [h.connections, hevs, List.countP_append, hzero, Nat.add_zero]

/-! ### What sending leaves as it is -/

theorem KeepsOpen.trans {d d' d'' : HeciDev} (h : KeepsOpen c d d') (h' : KeepsOpen c d' d'') :
    KeepsOpen c d d'' :=
  ⟨h'.isOpen, h'.rxBuffer.trans h.rxBuffer, h'.fwAddr.trans h.fwAddr,
    h'.hostAddr.trans h.hostAddr, h'.flowControls.trans h.flowControls⟩

theorem KeepsOpen.refl {d : HeciDev} (h : (d.connections c).has connStateOpen = true) :
    KeepsOpen c d d :=
  ⟨h, rfl, rfl, rfl, rfl⟩

theorem keepsOpen_ioStep {W : HeciBusMsg → Prop} {d d' : HeciDev}
    (hopen : (d.connections c).has connStateOpen = true) (h : Heci.IoStep W d d')
    (hW : ∀ f, W f → f ≠ flowCtrlFrame (d.connections c)) : KeepsOpen c d d' := by
  have hsame := flowControls_ioStep (c := c) h hW
  refine ⟨?_, ?_, ?_, ?_, hsame⟩
  · rwa [h.connections]
  · rw [h.connections]
  · rw [h.connections]
  · rw [h.connections]

/-- An event that is no write, and a change of the connection that does not concern flow control. -/
theorem keepsOpen_setConn {d : HeciDev} (conn : HeciConn)
    (hopen : conn.has connStateOpen = true) (hrx : conn.rxBuffer = (d.connections c).rxBuffer)
    (hf : conn.fwAddr = (d.connections c).fwAddr)
    (hh : conn.hostAddr = (d.connections c).hostAddr) : KeepsOpen c d (d.setConn c conn) := by
  have hconn : (d.setConn c conn).connections c = conn := Function.update_self _ _ _
  refine ⟨?_, ?_, ?_, ?_, ?_⟩
  · rwa [hconn]
  · rw [hconn, hrx]
  · rw [hconn, hf]
  · rw [hconn, hh]
  · unfold flowControls flowCtrlFrame
    rw [hconn, hf, hh]
    rfl

theorem keepsOpen_log {d : HeciDev} {e : Event}
    (hopen : (d.connections c).has connStateOpen = true) (he : ∀ f, wrote f e = false) :
    KeepsOpen c d (d.log e) := by
  refine ⟨hopen, rfl, rfl, rfl, ?_⟩
  have hcount := flowControls_emit (c := c) (d := d) [e]
  rwa [List.countP_cons, List.countP_nil, he, if_neg Bool.false_ne_true, Nat.add_zero] at hcount

/-- A client has an address of its own, so its frames are not those of the bus. -/
theorem clientFrame_ne_flowCtrl {conn : HeciConn} (hfw : conn.fwAddr ≠ 0) {f h : UInt8}
    (hf : f = conn.fwAddr) {frame : HeciBusMsg} (hframe : Heci.IsClientFrame f h frame) :
    frame ≠ flowCtrlFrame conn := by
  rintro rfl
  exact hfw (hf.symm.trans hframe.1.symm)

theorem dmaXferReq_ne_flowCtrl (conn : HeciConn) {f h : UInt8} {frame : HeciBusMsg}
    (hframe : Heci.IsDmaXferReq f h frame) : frame ≠ flowCtrlFrame conn := by
  obtain ⟨addr, len, rfl⟩ := hframe
  intro heq
  have hhead := congrArg (fun m => m.payload.head?) heq
  exact absurd (Option.some.inj hhead) (by decide : Heci.busMsgDmaXferReq ≠ Heci.busMsgFlowControl)

theorem keepsOpen_finishSend {d : HeciDev} (sent : Bool)
    (hopen : (d.connections c).has connStateOpen = true) :
    KeepsOpen c d (Heci.finishSend c sent d) := by
  unfold Heci.finishSend
  split
  · have hlog := keepsOpen_log (e := .creditTaken c (d.connections c).hostBuffers) hopen
      fun _ => rfl
    exact hlog.trans (keepsOpen_setConn _ hopen rfl rfl rfl)
  · exact KeepsOpen.refl hopen

theorem keepsOpen_sendByIpc {d : HeciDev} (P : Heci.Platform) (msg : List Heci.Mrd)
    (hopen : (d.connections c).has connStateOpen = true) (hfw : (d.connections c).fwAddr ≠ 0) :
    KeepsOpen c d (Heci.sendByIpc P c msg d).2 := by
  have hsend := keepsOpen_ioStep hopen
    (Heci.ioStep_sendClientMsgIpc P (d.connections c) msg d) fun f hf =>
      clientFrame_ne_flowCtrl hfw rfl hf
  exact hsend.trans (keepsOpen_finishSend _ hsend.isOpen)

/-- The client of a long message is looked at, which leaves a trace. -/
theorem keepsOpen_wantsDma {d d' : HeciDev} {totalLen : ℤ} {dma : Bool}
    (h : Heci.wantsDma P c totalLen d = some (dma, d'))
    (hopen : (d.connections c).has connStateOpen = true) : KeepsOpen c d d' := by
  unfold Heci.wantsDma at h
  split at h
  · simp only at h
    split at h
    · cases h
    · obtain ⟨-, rfl⟩ := Prod.mk.inj (Option.some.inj h)
      exact keepsOpen_log hopen fun _ => rfl
  · obtain ⟨-, rfl⟩ := Prod.mk.inj (Option.some.inj h)
    exact KeepsOpen.refl hopen

/-- **Sending alone leaves the connection open and the buffer with it, and gives no credit**,
whatever comes of it. -/
theorem keepsOpen_heciSend {d d' : HeciDev} {msg : List Heci.Mrd} {sent : Bool}
    (h : Heci.heciSend P c msg d = some (sent, d'))
    (hopen : (d.connections c).has connStateOpen = true) (hfw : (d.connections c).fwAddr ≠ 0) :
    KeepsOpen c d d' := by
  unfold Heci.heciSend at h
  split at h
  · cases h
  · split at h
    · obtain ⟨-, rfl⟩ := Prod.mk.inj (Option.some.inj h)
      exact KeepsOpen.refl hopen
    · simp only at h
      split at h
      · -- no credit
        split at h
        · cases h
        · obtain ⟨-, rfl⟩ := Prod.mk.inj (Option.some.inj h)
          have hwait := keepsOpen_setConn (d := d) { d.connections c with
            waitThreadCount := (d.connections c).waitThreadCount + 1 } hopen rfl rfl rfl
          exact ⟨hwait.isOpen, hwait.rxBuffer, hwait.fwAddr, hwait.hostAddr, hwait.flowControls⟩
      · unfold Heci.heciTransmit at h
        split at h
        · cases h
        · next d₁ hdma =>
            have h₁ := keepsOpen_wantsDma hdma hopen
            obtain ⟨-, rfl⟩ := Prod.mk.inj (Option.some.inj h)
            exact h₁.trans (keepsOpen_sendByIpc P msg h₁.isOpen (by rwa [h₁.fwAddr]))
        · next d₁ hdma =>
            have h₁ := keepsOpen_wantsDma hdma hopen
            have hio := Heci.ioStep_sendClientMsgDma P (d₁.connections c).fwAddr
              (d₁.connections c).hostAddr msg d₁
            have h₂ := keepsOpen_ioStep h₁.isOpen hio fun f hf => dmaXferReq_ne_flowCtrl _ hf
            split at h
            · next d₂ hd =>
                obtain ⟨-, rfl⟩ := Prod.mk.inj (Option.some.inj h)
                rw [hd] at h₂
                exact (h₁.trans h₂).trans (keepsOpen_finishSend true h₂.isOpen)
            · next d₂ hd =>
                obtain ⟨-, rfl⟩ := Prod.mk.inj (Option.some.inj h)
                rw [hd] at h₂
                have h₃ := h₁.trans h₂
                exact h₃.trans (keepsOpen_sendByIpc P msg h₃.isOpen (by rwa [h₃.fwAddr]))

/-! ### One request -/

/-- The connection stays, and the status tells whether the answer could not be sent. -/
theorem processMsg_comm (sent : Bool) {s : HostComm} (hs : s.dataMsgHeciSendStat = .success) :
    (ecliteProcessMsg sent s).1.heciConnectionId = s.heciConnectionId ∧
      ((ecliteProcessMsg sent s).1.dataMsgHeciSendStat = .error ↔
        AsksForAnswer s ∧ sent = false) := by
  have hne : ¬ s.dataMsgHeciSendStat = .error := by
    rw [hs]
    decide
  unfold ecliteProcessMsg
  by_cases hd : s.rxHeader.dataType = ecliteHeaderTypeData
  · rw [if_pos hd]
    unfold ecliteProcessDataMessage
    simp only
    by_cases hmax : s.rxHeader.offset.toNat + s.rxHeader.length.toNat > maxOprLength
    · rw [if_pos hmax]
      exact ⟨rfl, iff_of_false hne fun ha => Nat.not_le.2 hmax ha.1.2⟩
    · rw [if_neg hmax]
      by_cases hr : s.rxHeader.readWrite = ecliteHeaderOprRead
      · rw [if_pos hr]
        cases sent with
        | true =>
            rw [if_pos rfl]
            exact ⟨rfl, iff_of_false hne fun ha => Bool.noConfusion ha.2⟩
        | false =>
            rw [if_neg Bool.false_ne_true]
            exact ⟨rfl, iff_of_true rfl ⟨⟨⟨hd, hr⟩, Nat.not_lt.1 hmax⟩, rfl⟩⟩
      · have hna : ¬ (AsksForAnswer s ∧ sent = false) := fun ha => hr ha.1.1.2
        rw [if_neg hr]
        split
        · split
          · exact ⟨rfl, iff_of_false hne hna⟩
          · exact ⟨rfl, iff_of_false hne hna⟩
        · exact ⟨rfl, iff_of_false hne hna⟩
  · rw [if_neg hd]
    exact ⟨rfl, iff_of_false hne fun ha => hd ha.1.1.1⟩

/-- **What flow control does on an open connection that holds the buffer.** -/
theorem sendFlowControl_open (ret : Ret) (hid : x.comm.heciConnectionId = some c.val)
    (hopen : (x.dev.connections c).has connStateOpen = true)
    (hrx : (x.dev.connections c).rxBuffer = some rxMsg) :
    ((sendFlowControl P ret x).2.dev.connections c).rxBuffer = none ∧
      ((sendFlowControl P ret x).2.dev.rxMsgs rxMsg).msgLock = false ∧
      flowControls c (sendFlowControl P ret x).2.dev = flowControls c x.dev +
        if Heci.protoWritten P x.dev.events.length = true then 1 else 0 := by
  -- the device when the buffer has been given back
  let d : HeciDev := (x.dev.setRx rxMsg { x.dev.rxMsgs rxMsg with
    length := 0, type := .request, msgLock := false }).setConn c
      { x.dev.connections c with rxBuffer := none }
  have hdev : (sendFlowControl P ret x).2.dev = d.emit
      (Heci.protoEvents P (flowCtrlFrame (d.connections c)) d.events.length) := by
    have hconn : d.connections c = { x.dev.connections c with rxBuffer := none } :=
      Function.update_self _ _ _
    unfold sendFlowControl
    rw [hid]
    simp only
    unfold Heci.heciSendFlowControl
    rw [dif_pos c.isLt]
    simp only
    rw [if_neg (by rw [hopen]; decide), hrx]
    simp only
    rw [Heci.heciSendProtoMsg_snd, hconn]
    rfl
  have hconn : (d.connections c).rxBuffer = none := by
    have hself : d.connections c = { x.dev.connections c with rxBuffer := none } :=
      Function.update_self _ _ _
    rw [hself]
  have hlock : (d.rxMsgs rxMsg).msgLock = false := by
    have hself : d.rxMsgs rxMsg = { x.dev.rxMsgs rxMsg with
        length := 0, type := .request, msgLock := false } := Function.update_self _ _ _
    rw [hself]
  have hcount : flowControls c d = flowControls c x.dev := by
    have hself : d.connections c = { x.dev.connections c with rxBuffer := none } :=
      Function.update_self _ _ _
    unfold flowControls
    rw [hself]
    rfl
  rw [hdev]
  refine ⟨hconn, hlock, ?_⟩
  rw [flowControls_emit, countP_protoEvents, hcount]
  rfl

/-- The status is cleared before an event is processed. -/
def EcliteHeci.cleared (x : EcliteHeci) : EcliteHeci :=
  { x with comm := { x.comm with dataMsgHeciSendStat := .success } }

/-- The processing of a request tells whether the answer could not be sent, and keeps the
connection. -/
theorem processRequest_cleared (heciSend : HeciDev → Bool × HeciDev) (x : EcliteHeci) :
    ((processRequest heciSend x.cleared).2.comm.dataMsgHeciSendStat = .error ↔
        AnswerFails heciSend x) ∧
      (processRequest heciSend x.cleared).2.comm.heciConnectionId = x.comm.heciConnectionId ∧
      (processRequest heciSend x.cleared).2.dev = devBehind heciSend x := by
  obtain ⟨hid, hstat⟩ := @processMsg_comm (heciSend x.dev).1 x.cleared.comm rfl
  exact ⟨hstat, hid, rfl⟩

/-- A request on an open connection: it ends without flow control, or with it. -/
theorem afterNewMsg_request (hx : RequestDelivered rxMsg c x) :
    afterNewMsg P heciSend rxMsg cpuThermalEnable x =
      if (processRequest heciSend x.cleared).2.comm.dataMsgHeciSendStat = .error then
        (processRequest heciSend x.cleared).2
      else (sendFlowControl P (processRequest heciSend x.cleared).1
        (processRequest heciSend x.cleared).2).2 := by
  have hlock : ¬ (x.dev.rxMsgs rxMsg).msgLock = false := by
    rw [hx.msgLock]
    decide
  unfold afterNewMsg processNewMsgEvent
  simp only
  rw [if_neg hlock, hx.type]
  exact apply_ite Prod.snd _ _ _

/-- **A request is followed by flow control exactly when no answer fails and the message gets
through.** -/
theorem flowControlled_iff (hx : RequestDelivered rxMsg c x)
    (hsend : AsksForAnswer x.comm → KeepsOpen c x.dev (heciSend x.dev).2) :
    FlowControlled rxMsg c x (afterNewMsg P heciSend rxMsg cpuThermalEnable x) ↔
      ¬ AnswerFails heciSend x ∧ GrantPasses P heciSend x := by
  have hkeeps : KeepsOpen c x.dev (devBehind heciSend x) := by
    unfold devBehind
    split
    · next ha => exact hsend ha
    · exact KeepsOpen.refl hx.isOpen
  obtain ⟨hstat, hid, hdev⟩ := processRequest_cleared heciSend x
  rw [afterNewMsg_request hx]
  by_cases hf : AnswerFails heciSend x
  · -- the buffer is still with the connection
    rw [if_pos (hstat.2 hf)]
    refine iff_of_false (fun h => ?_) fun h => h.1 hf
    have hrx := h.rxBuffer
    rw [hdev, hkeeps.rxBuffer, hx.rxBuffer] at hrx
    cases hrx
  · rw [if_neg fun h => hf (hstat.1 h)]
    obtain ⟨h1, h2, h3⟩ := sendFlowControl_open (P := P)
      (processRequest heciSend x.cleared).1 (hid.trans hx.connectionId)
      (by rw [hdev]; exact hkeeps.isOpen) (by rw [hdev, hkeeps.rxBuffer]; exact hx.rxBuffer)
    rw [hdev, hkeeps.flowControls] at h3
    unfold GrantPasses
    constructor
    · intro h
      refine ⟨hf, ?_⟩
      have hone := h3.symm.trans h.flowControls
      by_contra hn
      rw [if_neg hn] at hone
      omega
    · rintro ⟨-, hg⟩
      rw [if_pos hg] at h3
      exact ⟨h1, h2, h3⟩

/-! ### Runs -/

/-- What happens until the next request has been delivered, and what comes of its answer. -/
structure Round where
  arrival : EcliteHeci → EcliteHeci
  heciSend : HeciDev → Bool × HeciDev

variable (P rxMsg c cpuThermalEnable)

/-- The requests of a run are delivered on the connection, which stays open. -/
def StaysOpen : List Round → EcliteHeci → Prop
  | [], _ => True
  | r :: rs, x => RequestDelivered rxMsg c (r.arrival x) ∧
      (AsksForAnswer (r.arrival x).comm →
        KeepsOpen c (r.arrival x).dev (r.heciSend (r.arrival x).dev).2) ∧
      StaysOpen rs (afterNewMsg P r.heciSend rxMsg cpuThermalEnable (r.arrival x))

/-- **The host is served**: behind every request the event is processed and the host may send
again. -/
def Served : List Round → EcliteHeci → Prop
  | [], _ => True
  | r :: rs, x => ∃ ret x', ecliteHeciEventProcess P r.heciSend rxMsg cpuThermalEnable
        heciEventNewMsg (r.arrival x) = some (ret, x') ∧
      FlowControlled rxMsg c (r.arrival x) x' ∧ Served rs x'

/-- No answer of a run fails, and every flow-control message gets through. -/
def AnsweredRun : List Round → EcliteHeci → Prop
  | [], _ => True
  | r :: rs, x => (¬ AnswerFails r.heciSend (r.arrival x) ∧
      GrantPasses P r.heciSend (r.arrival x)) ∧
      AnsweredRun rs (afterNewMsg P r.heciSend rxMsg cpuThermalEnable (r.arrival x))

variable {P rxMsg c cpuThermalEnable}

theorem eventProcess_newMsg (heciSend : HeciDev → Bool × HeciDev) (x : EcliteHeci) :
    ∃ ret, ecliteHeciEventProcess P heciSend rxMsg cpuThermalEnable heciEventNewMsg x =
      some (ret, afterNewMsg P heciSend rxMsg cpuThermalEnable x) := by
  refine ⟨(processNewMsgEvent P heciSend rxMsg cpuThermalEnable x.cleared).1, ?_⟩
  unfold ecliteHeciEventProcess
  rw [if_pos rfl]
  rfl

/-- **In a run on a connection that stays open the host is served all along exactly when no answer
fails and every flow-control message gets through.** -/
theorem served_iff (rounds : List Round) (x : EcliteHeci)
    (h : StaysOpen P rxMsg c cpuThermalEnable rounds x) :
    Served P rxMsg c cpuThermalEnable rounds x ↔
      AnsweredRun P rxMsg cpuThermalEnable rounds x := by
  induction rounds generalizing x with
  | nil => exact Iff.rfl
  | cons r rs ih =>
      obtain ⟨hx, hsend, hrest⟩ := h
      obtain ⟨ret, hprocess⟩ :=
        @eventProcess_newMsg P rxMsg cpuThermalEnable r.heciSend (r.arrival x)
      unfold Served AnsweredRun
      rw [hprocess, ← ih _ hrest, ← flowControlled_iff hx hsend]
      constructor
      · rintro ⟨ret', x', heq, hflow, hserved⟩
        obtain ⟨-, rfl⟩ := Prod.mk.inj (Option.some.inj heq)
        exact ⟨hflow, hserved⟩
      · rintro ⟨hflow, hserved⟩
        exact ⟨_, _, rfl, hflow, hserved⟩

end

/-- A platform without power management, on which every write succeeds. -/
def plainPlatform : Heci.Platform where
  useDma := false
  sysMng := false
  hostAccessReq _ := 0
  ipcWriteMsg _ := 0
  dmaCopy _ := 0
  stack _ := 0

/-- An open connection of ECLite that holds the receive buffer, with a credit of the host or
without. -/
def openConn (i : Heci.ClientId) (c : ConnId) (hostBuffers : UInt32) : HeciConn :=
  { Heci.HeciConn.zero with
    client := some i
    state := connStateOpen
    fwAddr := 32
    hostAddr := 1
    rxBuffer := some 0
    hostBuffers := hostBuffers
    flowCtrlSem := some c }

/-- The HECI layer with this connection, and a request in the buffer. -/
def openDev (i : Heci.ClientId) (c : ConnId) (hostBuffers : UInt32) : HeciDev where
  clients _ := ⟨32, 1, true, { Heci.HeciClient.zero with maxMsgSize := 388, rxMsg := some 0 }⟩
  connections _ := openConn i c hostBuffers
  notifyNewClients := false
  registeredClients := 1
  hostRxDma := Heci.HostRxDmaInfo.zero
  flowCtrlSems _ := 0
  rxMsgs _ := ⟨.request, 0, true, 4, none⟩
  events := []

/-- ECLite with a request to read the first byte of the region. -/
def readDelivered (i : Heci.ClientId) (c : ConnId) (hostBuffers : UInt32) : EcliteHeci where
  comm := { eventsOn with rxHeader := ⟨0, 1, 1, 0, 1, 0⟩, heciConnectionId := some c }
  dev := openDev i c hostBuffers
  dispatcherTimer := false
  queue := []

/-- The five bytes of an answer go through `heci_send`. -/
def sendAnswer (c : ConnId) (d : HeciDev) : Bool × HeciDev :=
  (Heci.heciSend plainPlatform c [⟨5, some [0x14, 0x80, 0, 0, 0], by decide⟩] d).getD (false, d)

/-- The request has already been delivered. -/
def readRound (c : ConnId) : Round := ⟨id, sendAnswer c⟩

theorem delivered_readDelivered (i : Heci.ClientId) (c : ConnId) (hostBuffers : UInt32) :
    RequestDelivered 0 c (readDelivered i c hostBuffers) :=
  ⟨rfl, (by decide : connStateOpen &&& connStateOpen != 0), rfl, rfl, rfl⟩

theorem keepsOpen_sendAnswer {c : ConnId} {d : HeciDev}
    (hopen : (d.connections c).has connStateOpen = true) (hfw : (d.connections c).fwAddr ≠ 0) :
    KeepsOpen c d (sendAnswer c d).2 := by
  unfold sendAnswer
  cases h : Heci.heciSend plainPlatform c [⟨5, some [0x14, 0x80, 0, 0, 0], by decide⟩] d with
  | none => exact KeepsOpen.refl hopen
  | some r => exact keepsOpen_heciSend h hopen hfw

theorem staysOpen_readRound (i : Heci.ClientId) (c : ConnId) (hostBuffers : UInt32) :
    StaysOpen plainPlatform 0 c false [readRound c] (readDelivered i c hostBuffers) :=
  have hfw : ((readDelivered i c hostBuffers).dev.connections c).fwAddr ≠ 0 := by
    show (32 : UInt8) ≠ 0
    decide
  ⟨delivered_readDelivered i c hostBuffers, fun _ =>
    keepsOpen_sendAnswer (delivered_readDelivered i c hostBuffers).isOpen hfw, trivial⟩

/-- A read that is answered: the host may send again. -/
theorem served_readRound :
    Served plainPlatform 0 0 false [readRound 0] (readDelivered 0 0 1) := by
  refine (served_iff [readRound 0] (readDelivered 0 0 1) (staysOpen_readRound 0 0 1)).2
    ⟨⟨fun h => ?_, ?_⟩, trivial⟩
  · exact absurd h.2 (by decide)
  · rfl

/-- A read whose answer finds the host without a buffer: the host may never send again. -/
theorem not_served_readRound :
    ¬ ∀ (P : Heci.Platform) (rxMsg : RxPtr) (c : ConnId) (cpuThermalEnable : Bool)
      (rounds : List Round) (x : EcliteHeci), StaysOpen P rxMsg c cpuThermalEnable rounds x →
        Served P rxMsg c cpuThermalEnable rounds x := by
  intro h
  obtain ⟨ret, x', hprocess, hflow, -⟩ := h _ _ _ _ _ _ (staysOpen_readRound 0 0 0)
  have hx' : x' = afterNewMsg plainPlatform (sendAnswer 0) 0 false (readDelivered 0 0 0) := by
    obtain ⟨ret', hnew⟩ :=
      @eventProcess_newMsg plainPlatform 0 false (sendAnswer 0) (readDelivered 0 0 0)
    exact (Prod.mk.inj (Option.some.inj (hprocess.symm.trans hnew))).2
  have hlock := hflow.msgLock
  rw [hx'] at hlock
  exact absurd hlock (by decide)

end PseFw.Eclite
