/-
**The operations of the layer as a transition system.**

Five actors act on the layer: the host, whose frames arrive one at a time; the clients, which
register, give buffers back, complete disconnections and send; and the power management, which
resets it.  Every operation runs under the device lock, so a run of the layer is a sequence of
operations, each applied to the state the previous one left.

`PseFw.Heci.Keeps` is the rule all invariants of such runs are proved by: it lists the pieces the
operations are made of, and an invariant that every piece keeps is kept by every operation.

Main definitions:

* `PseFw.Heci.Op`, `PseFw.Heci.opStep` — the operations that do not block;
* `PseFw.Heci.Call`, `PseFw.Heci.step` — the same together with an uninterrupted `heci_send`;
* `PseFw.Heci.Reachable` — the states runs reach;
* `PseFw.Heci.Keeps` — what an invariant has to be kept by.

Main results:

* `PseFw.Heci.heciProcessBusMessage_cases` — what a bus message can do;
* `PseFw.Heci.Keeps.opStep`, `PseFw.Heci.Keeps.step` — **an invariant of the pieces is an invariant
  of the operations**.
-/

import PseFw.Lib.Transition
import PseFw.Heci.Send

set_option relaxedAutoImplicit false
set_option autoImplicit false

namespace PseFw.Heci

/-! ### Operations -/

/-- The operations that run in one critical section of the device lock. -/
inductive Op
  /-- A client calls `heci_register`. -/
  | register (client : Option HeciClient)
  /-- The mailbox handler passes a frame to `heci_process_message`. -/
  | recv (msg : HeciBusMsg)
  /-- A client calls `heci_send_flow_control`. -/
  | sendFlowControl (connId : ℕ)
  /-- A client calls `heci_complete_disconnect`. -/
  | completeDisconnect (connId : ℕ)
  /-- The host notified a reset, or the system enters a sleep state: `heci_reset`. -/
  | reset

/-- What an operation does. -/
def opStep (P : Platform) : Op → HeciDev → Option HeciDev
  | .register client, s => some (heciRegister P client s).2
  | .recv msg, s => heciProcessMessage P msg s
  | .sendFlowControl connId, s => some (heciSendFlowControl P connId s).2
  | .completeDisconnect connId, s => (heciCompleteDisconnect P connId s).map Prod.snd
  | .reset, s => some (heciReset s)

/-- The operations of a sequential run: those above, and whole calls of `heci_send`. -/
inductive Call
  | op (o : Op)
  | send (c : ConnId) (msg : List Mrd)

/-- What a call does. -/
def step (P : Platform) : Call → HeciDev → Option HeciDev
  | .op o, s => opStep P o s
  | .send c msg, s => (heciSend P c msg s).map Prod.snd

/-- **The states a run of the layer reaches.** -/
def Reachable (P : Platform) : HeciDev → Prop :=
  Lts.Reach HeciDev.Initial (step P) Lts.Free

/-! ### A nominal platform

The concrete runs of this development start here: nothing fails, the tables are empty, and there is
memory behind every receive buffer. -/

/-- A platform without DMA and power management on which everything succeeds. -/
def Platform.nominal : Platform where
  useDma := false
  sysMng := false
  hostAccessReq := fun _ => 0
  ipcWriteMsg := fun _ => 0
  dmaCopy := fun _ => 0
  stack := fun _ => 0

theorem Platform.nominal_succeeds : Platform.nominal.Succeeds :=
  ⟨fun _ => le_refl 0, fun _ => rfl⟩

/-- The state the firmware starts in. -/
def coldStart : HeciDev where
  clients := fun _ => HeciClientCtrl.zero
  connections := fun _ => HeciConn.zero
  notifyNewClients := false
  registeredClients := 0
  hostRxDma := HostRxDmaInfo.zero
  flowCtrlSems := fun _ => 0
  rxMsgs := fun _ => ⟨.request, 0, false, 0, some fun _ => 0⟩
  events := []

theorem coldStart_initial : HeciDev.Initial coldStart where
  clients _ := rfl
  connections _ := rfl
  notifyNewClients := rfl
  registeredClients := rfl
  hostRxDma := rfl
  flowCtrlSems _ := rfl
  rxMsgs _ := ⟨_, rfl⟩
  events := rfl

theorem exists_reachable (P : Platform) (ls : List Call) (p : HeciDev → Prop) [DecidablePred p]
    (h : (Lts.run (step P) coldStart ls).any (fun s => decide (p s)) = true) :
    ∃ s, Reachable P s ∧ p s :=
  Lts.exists_reach coldStart_initial ls p h

theorem exists_disciplined (P : Platform) (C : HeciDev → Call → Prop) [∀ s l, Decidable (C s l)]
    (ls : List Call) (p : HeciDev → Prop) [DecidablePred p]
    (h : (Lts.run (Lts.guarded C (step P)) coldStart ls).any (fun s => decide (p s)) = true) :
    ∃ s, Lts.Reach HeciDev.Initial (step P) C s ∧ p s :=
  Lts.exists_reach_guarded coldStart_initial ls p h

/-- A client with the given protocol, receive buffer, buffer length and number of connections. -/
def plainClient (protocolId : BitVec 128) (rxMsg : RxPtr) (rxBufferLen : ℕ)
    (maxNOfConnections : UInt8) : HeciClient where
  protocolId := protocolId
  maxMsgSize := heciMaxMsgSize
  protocolVer := 1
  maxNOfConnections := maxNOfConnections
  dmaHeaderLength := 0
  dmaEnabled := false
  rxBufferLen := rxBufferLen
  rxMsg := some rxMsg
  eventCb := some 1
  param := 0

/-- The host sends a bus message. -/
def busCall (data : List UInt8) : Call := .op (.recv (busFrame data))

/-- One client registers, the host enumerates the clients and connects to it. -/
def connectCalls (client : HeciClient) (hostAddr : UInt8) : List Call :=
  [.op (.register (some client)), busCall [busMsgHostEnumReq, 0, 0, 0],
    busCall [busMsgClientConnectReq, 32, hostAddr, 0]]

/-! ### The pieces of the operations -/

/-- The end of `heci_process_client_message`: the client is told about its message. -/
def finishFragment (c : ConnId) (s : HeciDev) : HeciDev :=
  heciNotifyClient c .newMsg (s.setConn c { s.connections c with
    state := (s.connections c).state &&& ~~~ connStateProcessingMsg })

/-- `heci_process_client_message` in three phases. -/
theorem heciProcessClientMessage_eq (P : Platform) (msg : HeciBusMsg) (s : HeciDev) :
    heciProcessClientMessage P msg s =
      (heciFindActiveConn msg s).bind fun r =>
        match r.1 with
        | none => some r.2
        | some c => (heciCopyToClientBuf P c msg.payload r.2).map fun s =>
            if msg.hdr.lastFrag then finishFragment c s else s := by
  unfold heciProcessClientMessage
  cases heciFindActiveConn msg s with
  | none => rfl
  | some r =>
      obtain ⟨oc, s₁⟩ := r
      cases oc with
      | none => rfl
      | some c =>
          simp only [Option.bind_some]
          cases heciCopyToClientBuf P c msg.payload s₁ with
          | none => rfl
          | some s₂ =>
              simp only [Option.map_some]
              split <;> rfl

/-- A `CLIENT_DISCONNECT_RESP` as the host sees it. -/
def IsDisconnResp (f : HeciBusMsg) : Prop :=
  f.hdr.fwAddr = heciDriverAddress ∧ f.hdr.hostAddr = heciDriverAddress ∧
    f.byte 0 = genResp busMsgClientDisconnectReq

/-- **What a bus message does.**  The commands that are told apart here are those that touch the
tables; all others only talk to the platform, and none of them answers a disconnect request. -/
inductive BusCase (P : Platform) (msg : HeciBusMsg) (s : HeciDev) : Option HeciDev → Prop
  | io {s' : HeciDev} : msg.byte 0 ∉ [busMsgHostStopReq, busMsgHostEnumReq, busMsgClientConnectReq,
      busMsgClientDisconnectReq, busMsgFlowControl, busMsgResetReq, genResp busMsgAddClientReq] →
      IoStep (fun f => ¬ IsDisconnResp f) s s' → BusCase P msg s (some s')
  | stop : msg.byte 0 = busMsgHostStopReq → BusCase P msg s (some (heciStopResp P s))
  | enum : msg.byte 0 = busMsgHostEnumReq → BusCase P msg s (some (heciEnumResp P msg s))
  | connect {r : Option HeciDev} : msg.byte 0 = busMsgClientConnectReq →
      r = heciConnectHost P msg s → BusCase P msg s r
  | disconnect : msg.byte 0 = busMsgClientDisconnectReq →
      BusCase P msg s (some (heciDisconnect P msg s))
  | flowControl {r : Option HeciDev} : msg.byte 0 = busMsgFlowControl →
      r = heciFlowControlRecv msg s → BusCase P msg s r
  | resetResp : msg.byte 0 = busMsgResetReq → BusCase P msg s (some (heciResetResp P msg s))
  | addClient : msg.byte 0 = genResp busMsgAddClientReq →
      BusCase P msg s (some (heciAddClientResp msg s))

/-- A bus message that starts with another command byte is not a disconnect response. -/
theorem not_isDisconnResp_busFrame {b : UInt8} {data : List UInt8}
    (hb : b ≠ genResp busMsgClientDisconnectReq) : ¬ IsDisconnResp (busFrame (b :: data)) := by
  rintro ⟨-, -, h⟩
  exact hb (by simpa [busFrame, HeciBusMsg.mk', HeciBusMsg.byte] using h)

/-- **The cases of a bus message.** -/
theorem heciProcessBusMessage_cases (P : Platform) (msg : HeciBusMsg) (s : HeciDev) :
    BusCase P msg s (heciProcessBusMessage P msg s) := by
  unfold heciProcessBusMessage
  dsimp only
  by_cases h₁ : msg.byte 0 = busMsgVersionReq
  · rw [if_pos h₁]
    refine BusCase.io (by rw [h₁]; decide) ?_
    unfold heciVersionResp
    split
    · exact IoStep.refl _ s
    · exact IoStep.sendProtoMsg P (not_isDisconnResp_busFrame (by decide)) s
  rw [if_neg h₁]
  by_cases h₂ : msg.byte 0 = busMsgHostStopReq
  · rw [if_pos h₂]
    exact BusCase.stop h₂
  rw [if_neg h₂]
  by_cases h₃ : msg.byte 0 = busMsgHostEnumReq
  · rw [if_pos h₃]
    exact BusCase.enum h₃
  rw [if_neg h₃]
  by_cases h₄ : msg.byte 0 = busMsgHostClientPropReq
  · rw [if_pos h₄]
    refine BusCase.io (by rw [h₄]; decide) ?_
    unfold heciClientProp
    split
    · exact IoStep.refl _ s
    · split <;> exact IoStep.sendProtoMsg P (not_isDisconnResp_busFrame (by decide)) s
  rw [if_neg h₄]
  by_cases h₅ : msg.byte 0 = busMsgClientConnectReq
  · rw [if_pos h₅]
    exact BusCase.connect h₅ rfl
  rw [if_neg h₅]
  by_cases h₆ : msg.byte 0 = busMsgClientDisconnectReq
  · rw [if_pos h₆]
    exact BusCase.disconnect h₆
  rw [if_neg h₆]
  by_cases h₇ : msg.byte 0 = busMsgFlowControl
  · rw [if_pos h₇]
    exact BusCase.flowControl h₇ rfl
  rw [if_neg h₇]
  by_cases h₈ : msg.byte 0 = busMsgResetReq
  · rw [if_pos h₈]
    exact BusCase.resetResp h₈
  rw [if_neg h₈]
  by_cases h₉ : msg.byte 0 = genResp busMsgAddClientReq
  · rw [if_pos h₉]
    exact BusCase.addClient h₉
  rw [if_neg h₉]
  have hnone : msg.byte 0 ∉ [busMsgHostStopReq, busMsgHostEnumReq, busMsgClientConnectReq,
      busMsgClientDisconnectReq, busMsgFlowControl, busMsgResetReq,
      genResp busMsgAddClientReq] := by
    simp only [List.mem_cons, List.not_mem_nil, or_false, not_or]
    exact ⟨h₂, h₃, h₅, h₆, h₇, h₈, h₉⟩
  by_cases h₁₀ : P.useDma = true ∧ msg.byte 0 = busMsgDmaAllocNotifyReq
  · rw [if_pos h₁₀]
    refine BusCase.io hnone ((ioStep_heciDmaAllocNotification P msg s).mono ?_)
    rintro f ⟨st, rfl⟩
    exact not_isDisconnResp_busFrame (by decide)
  rw [if_neg h₁₀]
  by_cases h₁₁ : P.useDma = true ∧ msg.byte 0 = genResp busMsgDmaXferReq
  · rw [if_pos h₁₁]
    exact BusCase.io hnone (ioStep_heciDmaXferAck _ P msg s)
  · rw [if_neg h₁₁]
    exact BusCase.io hnone (IoStep.refl _ s)

/-- **What an invariant has to be kept by** to be kept by every operation. -/
structure Keeps (P : Platform) (I : HeciDev → Prop) : Prop where
  io : ∀ {s s'}, IoStep (fun _ => True) s s' → I s → I s'
  recv : ∀ {s} msg, I s → I (s.log (.recv msg))
  fwst : ∀ {s} b, I s → I (s.log (.fwstIlupHost b))
  clientRead : ∀ {s} c, I s → I (s.log (.clientRead c))
  register : ∀ {s} client, I s → I (heciRegister P client s).2
  reset : ∀ {s}, I s → I (heciReset s)
  enum : ∀ {s} msg, I s → I (heciEnumResp P msg s)
  addClient : ∀ {s} msg, I s → I (heciAddClientResp msg s)
  connect : ∀ {s s'} msg, I s → heciConnectHost P msg s = some s' → I s'
  disconnect : ∀ {s} msg, I s → I (heciDisconnect P msg s)
  flowControl : ∀ {s s'} msg, I s → heciFlowControlRecv msg s = some s' → I s'
  resetResp : ∀ {s} msg, I s → I (heciResetResp P msg s)
  findActive : ∀ {s r} msg, I s → heciFindActiveConn msg s = some r → I r.2
  copy : ∀ {s s'} c data, I s → heciCopyToClientBuf P c data s = some s' → I s'
  finish : ∀ {s} c, I s → I (finishFragment c s)
  sendFlowControl : ∀ {s} n, I s → I (heciSendFlowControl P n s).2
  complete : ∀ {s r} n, I s → heciCompleteDisconnect P n s = some r → I r.2
  waiter : ∀ {s} c n q, I s → (s.connections c).has connStateOpen = true →
    I ((s.setConn c { s.connections c with waitThreadCount := n }).setSem q 0)
  credit : ∀ {s} c, I s → (s.connections c).has connStateOpen = true →
    (s.connections c).hostBuffers ≠ 0 → I (finishSend c true s)

namespace Keeps

variable {P : Platform} {I : HeciDev → Prop}

theorem busReply (hI : Keeps P I) {s : HeciDev} (data : List UInt8) (h : I s) :
    I (busReply P data s) :=
  hI.io (IoStep.sendProtoMsg P trivial s) h

/-- Every bus message keeps the invariant. -/
theorem busMessage (hI : Keeps P I) {s s' : HeciDev} {msg : HeciBusMsg} (h : I s)
    (hs : heciProcessBusMessage P msg s = some s') : I s' := by
  have hc := heciProcessBusMessage_cases P msg s
  rw [hs] at hc
  cases hc with
  | io _ hio => exact hI.io (hio.mono fun _ _ => trivial) h
  | stop _ => exact hI.busReply _ (hI.reset (hI.fwst false h))
  | enum _ => exact hI.enum msg h
  | connect _ hr => exact hI.connect msg h hr.symm
  | disconnect _ => exact hI.disconnect msg h
  | flowControl _ hr => exact hI.flowControl msg h hr.symm
  | resetResp _ => exact hI.resetResp msg h
  | addClient _ => exact hI.addClient msg h

/-- Every client frame keeps the invariant. -/
theorem clientMessage (hI : Keeps P I) {s s' : HeciDev} {msg : HeciBusMsg} (h : I s)
    (hs : heciProcessClientMessage P msg s = some s') : I s' := by
  rw [heciProcessClientMessage_eq] at hs
  obtain ⟨⟨oc, s₁⟩, hr, hs⟩ := Option.bind_eq_some_iff.1 hs
  have h₁ : I s₁ := hI.findActive msg h hr
  cases oc with
  | none =>
      cases hs
      exact h₁
  | some c =>
      obtain ⟨s₂, hs₂, rfl⟩ := Option.map_eq_some_iff.1 hs
      have h₂ : I s₂ := hI.copy c _ h₁ hs₂
      split
      · exact hI.finish c h₂
      · exact h₂

/-- **Every operation keeps the invariant.** -/
theorem opStep (hI : Keeps P I) {s s' : HeciDev} {o : Op} (h : I s)
    (hs : opStep P o s = some s') : I s' := by
  cases o with
  | register client =>
      cases hs
      exact hI.register client h
  | recv msg =>
      have h₀ : I (s.log (.recv msg)) := hI.recv msg h
      simp only [Heci.opStep, heciProcessMessage] at hs
      split at hs
      · exact hI.busMessage h₀ hs
      split at hs
      · cases hs
        exact h₀
      split at hs
      · cases hs
        exact h₀
      · exact hI.clientMessage h₀ hs
  | sendFlowControl n =>
      cases hs
      exact hI.sendFlowControl n h
  | completeDisconnect n =>
      obtain ⟨r, hr, rfl⟩ := Option.map_eq_some_iff.1 hs
      exact hI.complete n h hr
  | reset =>
      cases hs
      exact hI.reset h

/-- A message that goes out by IPC keeps the invariant. -/
theorem sendByIpc (hI : Keeps P I) {s : HeciDev} (c : ConnId) (msg : List Mrd) (h : I s)
    (hopen : (s.connections c).has connStateOpen = true) (hhb : (s.connections c).hostBuffers ≠ 0) :
    I (sendByIpc P c msg s).2 := by
  have hio := ioStep_sendClientMsgIpc P (s.connections c) msg s
  have h₁ : I (sendClientMsgIpc P (s.connections c) msg s).2 :=
    hI.io (hio.mono fun _ _ => trivial) h
  unfold Heci.sendByIpc
  dsimp only
  cases (sendClientMsgIpc P (s.connections c) msg s).1 with
  | false => exact h₁
  | true =>
      refine hI.credit c h₁ ?_ ?_
      · rw [hio.connections]; exact hopen
      · rw [hio.connections]; exact hhb

/-- A message that is sent keeps the invariant. -/
theorem transmit (hI : Keeps P I) {s : HeciDev} {c : ConnId} {n : ℤ} {msg : List Mrd}
    {r : Bool × HeciDev} (h : I s) (hopen : (s.connections c).has connStateOpen = true)
    (hhb : (s.connections c).hostBuffers ≠ 0) (hr : heciTransmit P c n msg s = some r) : I r.2 := by
  unfold heciTransmit at hr
  cases hw : wantsDma P c n s with
  | none => simp [hw] at hr
  | some w =>
      obtain ⟨h₁, hs₁⟩ : I w.2 ∧ w.2.connections = s.connections := by
        unfold wantsDma at hw
        split at hw
        · dsimp only at hw
          split at hw
          · cases hw
          · cases hw
            exact ⟨hI.clientRead c h, rfl⟩
        · cases hw
          exact ⟨h, rfl⟩
      obtain ⟨b, s₁⟩ := w
      rw [hw] at hr
      cases b with
      | false =>
          cases hr
          refine hI.sendByIpc c msg h₁ ?_ ?_
          · rw [hs₁]; exact hopen
          · rw [hs₁]; exact hhb
      | true =>
          -- whichever path is taken, only the trace differs when the credit is taken
          have hio := ioStep_sendClientMsgDma P (s₁.connections c).fwAddr
            (s₁.connections c).hostAddr msg s₁
          dsimp only at hr
          rcases hd : sendClientMsgDma P (s₁.connections c).fwAddr (s₁.connections c).hostAddr msg
            s₁ with ⟨_ | _, s₂⟩
          · rw [hd] at hr hio
            cases hr
            refine hI.sendByIpc c msg (hI.io (hio.mono fun _ _ => trivial) h₁) ?_ ?_
            · rw [hio.connections, hs₁]; exact hopen
            · rw [hio.connections, hs₁]; exact hhb
          · rw [hd] at hr hio
            cases hr
            refine hI.credit c (hI.io (hio.mono fun _ _ => trivial) h₁) ?_ ?_
            · rw [hio.connections, hs₁]; exact hopen
            · rw [hio.connections, hs₁]; exact hhb

/-- **Every call keeps the invariant.** -/
theorem step (hI : Keeps P I) {s s' : HeciDev} {l : Call} (h : I s) (hs : step P l s = some s') :
    I s' := by
  cases l with
  | op o => exact hI.opStep h hs
  | send c msg =>
      obtain ⟨r, hr, rfl⟩ := Option.map_eq_some_iff.1 hs
      unfold heciSend at hr
      cases hl : calSendMsgLen c msg s with
      | none => simp [hl] at hr
      | some n =>
          rw [hl] at hr
          dsimp only at hr
          split at hr
          · cases hr
            exact h
          · next hn =>
              -- a closed connection is refused with a negative length
              have hopen : (s.connections c).has connStateOpen = true := by
                by_contra hc
                have hc' : (s.connections c).has connStateOpen = false := by simpa using hc
                simp only [calSendMsgLen, hc', ↓reduceIte, Option.some.injEq] at hl
                omega
              split at hr
              · split at hr
                · cases hr
                · cases hr
                  exact hI.waiter c _ _ h hopen
              · next hhb => exact hI.transmit h hopen hhb hr

/-- **An invariant of the pieces holds in every state a run reaches.** -/
theorem reachable (hI : Keeps P I) (h₀ : ∀ s, HeciDev.Initial s → I s) {s : HeciDev}
    (hs : Reachable P s) : I s :=
  hs.invariant h₀ fun _ _ _ h _ hst => hI.step h hst

end Keeps

end PseFw.Heci
