/-
**Writing to the host mailbox.**

Everything the layer tells the host goes through `ipc_write_msg`: a doorbell word that announces the
length and the protocol, and a packet of at most 128 bytes.  Before it writes, the layer asks the
power management service to keep the host awake, and afterwards it releases that request.

This module defines the doorbell word, the bracket of host accesses, `heci_send_proto_msg`, and the
bus messages the layer sends with it, byte for byte.

Main definitions:

* `PseFw.Heci.ipcBuildDrbl`, `PseFw.Heci.ipcHeaderGetLength` — the doorbell word;
* `PseFw.Heci.withHostAccess` — a host access request, an action, and the release;
* `PseFw.Heci.heciSendProtoMsg` — send a bus message.

Main results:

* `PseFw.Heci.ipcHeaderGetLength_ipcBuildDrbl` — the length is read back from the doorbell;
* `PseFw.Heci.heciSendProtoMsg_snd` — **sending a bus message only extends the trace**, by
  `PseFw.Heci.protoEvents`.
-/

import PseFw.Heci.Types
import Mathlib.Tactic.Common

set_option relaxedAutoImplicit false
set_option autoImplicit false

namespace PseFw.Heci

/-! ### The doorbell -/

/-- `IPC_PROTOCOL_HECI`. -/
abbrev ipcProtocolHeci : UInt32 := 1

/-- `IPC_BUILD_DRBL`. -/
def ipcBuildDrbl (length protocol : UInt32) : UInt32 :=
  ((1 : UInt32) <<< 31) ||| (protocol <<< 10) ||| (length <<< 0)

/-- `IPC_HEADER_GET_LENGTH`. -/
def ipcHeaderGetLength (drbl : UInt32) : UInt32 := (drbl >>> 0) &&& 0x03FF

/-- The length of a packet is read back from its doorbell. -/
theorem ipcHeaderGetLength_ipcBuildDrbl {n : ℕ} (hn : n ≤ heciIpcPacketSize) :
    ipcHeaderGetLength (ipcBuildDrbl (UInt32.ofNat n) ipcProtocolHeci) = UInt32.ofNat n := by
  have h : ∀ k : Fin 129,
      ipcHeaderGetLength (ipcBuildDrbl (UInt32.ofNat k) ipcProtocolHeci) = UInt32.ofNat k := by
    decide
  exact h ⟨n, by simp only [heciIpcPacketSize] at hn; omega⟩

/-! ### Host access -/

/-- Ask for host access, act, and release it: the bracket around the IPC writes.  Without
`CONFIG_SYS_MNG` there is nothing to ask. -/
def withHostAccess {α : Type} (P : Platform) (failed : α) (body : HeciDev → α × HeciDev)
    (s : HeciDev) : α × HeciDev :=
  if P.sysMng then
    let hostReqHandler := P.hostAccessReq s.events.length
    let s := s.log (.hostAccessReq hostReqHandler)
    if hostReqHandler < 0 then (failed, s)
    else
      let r := body s
      (r.1, r.2.log (.hostAccessDereq hostReqHandler))
  else body s

/-- `ipc_write_msg` on the host device, with the doorbell and the number of bytes the caller passes.
-/
def ipcWriteMsg (P : Platform) (drbl : UInt32) (msg : HeciBusMsg) (len : ℕ) (s : HeciDev) :
    ℤ × HeciDev :=
  let ret := P.ipcWriteMsg s.events.length
  (ret, s.log (.ipcWrite drbl msg len ret))

/-- `heci_send_proto_msg`: send a bus message, and say whether it was written.  The header is given
the length of the data, doorbell and write that of header and data. -/
def heciSendProtoMsg (P : Platform) (hostAddr fwAddr : UInt8) (lastFrag : Bool)
    (data : List UInt8) (s : HeciDev) : Bool × HeciDev :=
  withHostAccess P false
    (fun s =>
      let msg := HeciBusMsg.mk' hostAddr fwAddr lastFrag data
      let len := data.length + heciHdrSize
      let outboundDrbl := ipcBuildDrbl (UInt32.ofNat len) ipcProtocolHeci
      let r := ipcWriteMsg P outboundDrbl msg len s
      (r.1 == 0, r.2)) s

/-- The frame that carries a bus message from the driver to the driver. -/
def busFrame (data : List UInt8) : HeciBusMsg :=
  HeciBusMsg.mk' heciDriverAddress heciDriverAddress true data

/-- A bus message whose fate the caller ignores. -/
def busReply (P : Platform) (data : List UInt8) (s : HeciDev) : HeciDev :=
  (heciSendProtoMsg P heciDriverAddress heciDriverAddress true data s).2

/-- The doorbell of a frame, for the length its header announces. -/
def frameDrbl (msg : HeciBusMsg) : UInt32 :=
  ipcBuildDrbl (UInt32.ofNat (msg.hdr.len + heciHdrSize)) ipcProtocolHeci

/-- The event a frame leaves when it is written with the doorbell and the length of its header. -/
def writeEvent (msg : HeciBusMsg) (ret : ℤ) : Event :=
  .ipcWrite (frameDrbl msg) msg (msg.hdr.len + heciHdrSize) ret

/-- What sending a bus message appends to a trace of length `n`. -/
def protoEvents (P : Platform) (msg : HeciBusMsg) (n : ℕ) : List Event :=
  if P.sysMng then
    if P.hostAccessReq n < 0 then [.hostAccessReq (P.hostAccessReq n)]
    else [.hostAccessReq (P.hostAccessReq n), writeEvent msg (P.ipcWriteMsg (n + 1)),
      .hostAccessDereq (P.hostAccessReq n)]
  else [writeEvent msg (P.ipcWriteMsg n)]

/-- **Sending a bus message only extends the trace.** -/
theorem heciSendProtoMsg_snd (P : Platform) (h f : UInt8) (l : Bool) (data : List UInt8)
    (s : HeciDev) : (heciSendProtoMsg P h f l data s).2 =
      s.emit (protoEvents P (HeciBusMsg.mk' h f l data) s.events.length) := by
  unfold heciSendProtoMsg withHostAccess protoEvents ipcWriteMsg
  by_cases hm : P.sysMng
  · by_cases hr : P.hostAccessReq s.events.length < 0
    · simp [hm, hr, HeciDev.log, HeciDev.emit]
    · simp [hm, hr, HeciDev.log, HeciDev.emit, writeEvent, frameDrbl, HeciBusMsg.mk']
  · simp [hm, HeciDev.log, HeciDev.emit, writeEvent, frameDrbl, HeciBusMsg.mk']

@[simp] theorem busReply_eq (P : Platform) (data : List UInt8) (s : HeciDev) :
    busReply P data s = s.emit (protoEvents P (busFrame data) s.events.length) :=
  heciSendProtoMsg_snd ..

/-- The platforms on which `heci_send_proto_msg` succeeds: host access is granted and the mailbox
takes every packet. -/
structure Platform.Succeeds (P : Platform) : Prop where
  hostAccessReq : ∀ n, 0 ≤ P.hostAccessReq n
  ipcWriteMsg : ∀ n, P.ipcWriteMsg n = 0

/-- The events of sending a bus message are host accesses and writes of that message. -/
theorem mem_protoEvents {P : Platform} {msg : HeciBusMsg} {n : ℕ} {e : Event}
    (he : e ∈ protoEvents P msg n) :
    (∃ r, e = .hostAccessReq r) ∨ (∃ r, e = .hostAccessDereq r) ∨ ∃ r, e = writeEvent msg r := by
  unfold protoEvents at he
  split at he
  · split at he
    · left; exact ⟨_, by simpa using he⟩
    · simp only [List.mem_cons, List.not_mem_nil, or_false] at he
      rcases he with rfl | rfl | rfl
      · exact Or.inl ⟨_, rfl⟩
      · exact Or.inr (Or.inr ⟨_, rfl⟩)
      · exact Or.inr (Or.inl ⟨_, rfl⟩)
  · right; right; exact ⟨_, by simpa using he⟩

/-- On a platform where sending succeeds, a reading that ignores host accesses sees exactly one
successful write. -/
theorem filterMap_protoEvents_of_succeeds {β : Type} {f : Event → Option β}
    (hreq : ∀ r, f (.hostAccessReq r) = none) (hdereq : ∀ r, f (.hostAccessDereq r) = none)
    {P : Platform} (hP : P.Succeeds) (msg : HeciBusMsg) (n : ℕ) :
    (protoEvents P msg n).filterMap f = (f (writeEvent msg 0)).toList := by
  have hr : ¬ P.hostAccessReq n < 0 := not_lt.2 (hP.hostAccessReq n)
  unfold protoEvents
  cases hf : f (writeEvent msg 0) with
  | none => split <;> simp [hreq, hdereq, hP.ipcWriteMsg, hf]
  | some b => split <;> simp [hreq, hdereq, hP.ipcWriteMsg, hf]

/-! ### Steps that only talk to the platform -/

/-- A host access, or the write of a frame that satisfies `W`. -/
inductive IoEvent (W : HeciBusMsg → Prop) : Event → Prop
  | hostAccessReq (r : ℤ) : IoEvent W (.hostAccessReq r)
  | hostAccessDereq (r : ℤ) : IoEvent W (.hostAccessDereq r)
  | write {msg : HeciBusMsg} (r : ℤ) : W msg → IoEvent W (writeEvent msg r)

/-- **A step that only talks to the platform**: the tables, the receive buffers and the semaphores
are as before, and the trace grows by host accesses and by writes of frames that satisfy `W`.  The
pages of the host buffer may change. -/
structure IoStep (W : HeciBusMsg → Prop) (s s' : HeciDev) : Prop where
  clients : s'.clients = s.clients
  connections : s'.connections = s.connections
  notifyNewClients : s'.notifyNewClients = s.notifyNewClients
  registeredClients : s'.registeredClients = s.registeredClients
  flowCtrlSems : s'.flowCtrlSems = s.flowCtrlSems
  rxMsgs : s'.rxMsgs = s.rxMsgs
  events : ∃ evs, s'.events = s.events ++ evs ∧ ∀ e ∈ evs, IoEvent W e

namespace IoStep

variable {W : HeciBusMsg → Prop} {s s' s'' : HeciDev}

theorem refl (W : HeciBusMsg → Prop) (s : HeciDev) : IoStep W s s :=
  ⟨rfl, rfl, rfl, rfl, rfl, rfl, [], by simp, by simp⟩

theorem trans (h : IoStep W s s') (h' : IoStep W s' s'') : IoStep W s s'' := by
  obtain ⟨evs, he, hev⟩ := h.events
  obtain ⟨evs', he', hev'⟩ := h'.events
  refine ⟨h'.clients.trans h.clients, h'.connections.trans h.connections,
    h'.notifyNewClients.trans h.notifyNewClients, h'.registeredClients.trans h.registeredClients,
    h'.flowCtrlSems.trans h.flowCtrlSems, h'.rxMsgs.trans h.rxMsgs, evs ++ evs', ?_, ?_⟩
  · rw [he', he, List.append_assoc]
  · intro e hmem
    rcases List.mem_append.1 hmem with hmem | hmem
    · exact hev e hmem
    · exact hev' e hmem

theorem mono {W' : HeciBusMsg → Prop} (h : IoStep W s s') (hW : ∀ f, W f → W' f) :
    IoStep W' s s' := by
  obtain ⟨evs, he, hev⟩ := h.events
  refine ⟨h.clients, h.connections, h.notifyNewClients, h.registeredClients, h.flowCtrlSems,
    h.rxMsgs, evs, he, fun e hmem => ?_⟩
  cases hev e hmem with
  | hostAccessReq r => exact IoEvent.hostAccessReq r
  | hostAccessDereq r => exact IoEvent.hostAccessDereq r
  | write r hf => exact IoEvent.write r (hW _ hf)

/-- One host access. -/
theorem log_access {e : Event} (he : IoEvent W e) (s : HeciDev) : IoStep W s (s.log e) :=
  ⟨rfl, rfl, rfl, rfl, rfl, rfl, [e], rfl, by simpa using he⟩

/-- The pages of the host buffer are not part of what such a step has to keep. -/
theorem dma (info : HostRxDmaInfo) (s : HeciDev) : IoStep W s { s with hostRxDma := info } :=
  ⟨rfl, rfl, rfl, rfl, rfl, rfl, [], by simp, by simp⟩

/-- The events of sending a bus message. -/
theorem emit (P : Platform) {msg : HeciBusMsg} (hW : W msg) (n : ℕ) {s : HeciDev} :
    IoStep W s (s.emit (protoEvents P msg n)) := by
  refine ⟨rfl, rfl, rfl, rfl, rfl, rfl, _, rfl, ?_⟩
  intro e he
  rcases mem_protoEvents he with ⟨r, rfl⟩ | ⟨r, rfl⟩ | ⟨r, rfl⟩
  · exact IoEvent.hostAccessReq r
  · exact IoEvent.hostAccessDereq r
  · exact IoEvent.write r hW

/-- Sending a bus message. -/
theorem sendProtoMsg (P : Platform) {h f : UInt8} {l : Bool} {data : List UInt8}
    (hW : W (HeciBusMsg.mk' h f l data)) (s : HeciDev) :
    IoStep W s (heciSendProtoMsg P h f l data s).2 := by
  rw [heciSendProtoMsg_snd]
  exact IoStep.emit P hW _

/-- A reading of the trace that ignores host accesses and the frames in `W` does not see the
step. -/
theorem filterMap_events {β : Type} {f : Event → Option β} (h : IoStep W s s')
    (hf : ∀ e, IoEvent W e → f e = none) : s'.events.filterMap f = s.events.filterMap f := by
  obtain ⟨evs, he, hev⟩ := h.events
  have hnil : evs.filterMap f = [] := by
    rw [List.filterMap_eq_nil_iff]
    exact fun e hmem => hf e (hev e hmem)
  rw [he, List.filterMap_append, hnil, List.append_nil]

end IoStep

/-! ### The bytes of the bus messages -/

/-- A 32-bit word, least significant byte first. -/
def le32 (x : ℕ) : List UInt8 := (List.range 4).map fun i => UInt8.ofNat (x / 256 ^ i)

/-- A 64-bit word, least significant byte first. -/
def le64 (x : ℕ) : List UInt8 := (List.range 8).map fun i => UInt8.ofNat (x / 256 ^ i)

/-- The sixteen bytes of a protocol identifier. -/
def guidBytes (g : BitVec 128) : List UInt8 :=
  (List.range 16).map fun i => UInt8.ofNat (g.toNat / 256 ^ i)

/-- The byte that packs `dma_header_length : 7` and `dma_enabled : 1`. -/
def dmaByte (c : HeciClient) : UInt8 :=
  (c.dmaHeaderLength &&& 0x7F) ||| (if c.dmaEnabled then 0x80 else 0)

/-- `HECI_BUS_MSG_VERSION_REQ`. -/
abbrev busMsgVersionReq : UInt8 := 0x01
/-- `HECI_BUS_MSG_HOST_STOP_REQ`. -/
abbrev busMsgHostStopReq : UInt8 := 0x02
/-- `HECI_BUS_MSG_HOST_ENUM_REQ`. -/
abbrev busMsgHostEnumReq : UInt8 := 0x04
/-- `HECI_BUS_MSG_HOST_CLIENT_PROP_REQ`. -/
abbrev busMsgHostClientPropReq : UInt8 := 0x05
/-- `HECI_BUS_MSG_CLIENT_CONNECT_REQ`. -/
abbrev busMsgClientConnectReq : UInt8 := 0x06
/-- `HECI_BUS_MSG_CLIENT_DISCONNECT_REQ`. -/
abbrev busMsgClientDisconnectReq : UInt8 := 0x07
/-- `HECI_BUS_MSG_FLOW_CONTROL`. -/
abbrev busMsgFlowControl : UInt8 := 0x08
/-- `HECI_BUS_MSG_RESET_REQ`. -/
abbrev busMsgResetReq : UInt8 := 0x09
/-- `HECI_BUS_MSG_ADD_CLIENT_REQ`. -/
abbrev busMsgAddClientReq : UInt8 := 0x0a
/-- `HECI_BUS_MSG_DMA_ALLOC_NOTIFY_REQ`. -/
abbrev busMsgDmaAllocNotifyReq : UInt8 := 0x11
/-- `HECI_BUS_MSG_DMA_XFER_REQ`. -/
abbrev busMsgDmaXferReq : UInt8 := 0x12

/-- `GEN_RESP`: the command byte of the response to a request. -/
abbrev genResp (req : UInt8) : UInt8 := 0x80 ||| req

/-- `heci_version_resp_t`, also used for the response to a stop request. -/
def versionRespBytes (command supported minorVer majorVer : UInt8) : List UInt8 :=
  [command, supported, minorVer, majorVer]

/-- `heci_host_enum_resp_t`. -/
def hostEnumRespBytes (validAddresses : List UInt32) : List UInt8 :=
  [genResp busMsgHostEnumReq, 0, 0, 0] ++ validAddresses.flatMap fun w => le32 w.toNat

/-- `heci_client_prop_resp_t` for a client that was found. -/
def clientPropRespBytes (address : UInt8) (client : HeciClient) : List UInt8 :=
  [genResp busMsgHostClientPropReq, address, BusMsgStatus.success.code, 0] ++
    guidBytes client.protocolId ++ [client.protocolVer, client.maxNOfConnections, 0, 0] ++
    le32 client.maxMsgSize ++ [dmaByte client, 0, 0, 0]

/-- `heci_client_prop_resp_t` for a client that was not found. -/
def clientPropMissingBytes (address : UInt8) : List UInt8 :=
  [genResp busMsgHostClientPropReq, address, BusMsgStatus.clientNotFound.code, 0] ++
    List.replicate 28 0

/-- `heci_conn_resp_t`. -/
def connRespBytes (fwAddr hostAddr : UInt8) (status : BusMsgStatus) : List UInt8 :=
  [genResp busMsgClientConnectReq, fwAddr, hostAddr, status.code]

/-- `heci_disconn_req_t`. -/
def disconnReqBytes (fwAddr hostAddr : UInt8) : List UInt8 :=
  [busMsgClientDisconnectReq, fwAddr, hostAddr, 0]

/-- `heci_disconn_resp_t`. -/
def disconnRespBytes (fwAddr hostAddr : UInt8) (status : BusMsgStatus) : List UInt8 :=
  [genResp busMsgClientDisconnectReq, fwAddr, hostAddr, status.code]

/-- `heci_flow_ctrl_t`. -/
def flowCtrlBytes (fwAddr hostAddr numberOfPackets : UInt8) : List UInt8 :=
  [busMsgFlowControl, fwAddr, hostAddr, numberOfPackets, 0, 0, 0, 0]

/-- `heci_reset_resp_t`. -/
def resetRespBytes (fwAddr hostAddr : UInt8) (status : BusMsgStatus) : List UInt8 :=
  [genResp busMsgResetReq, fwAddr, hostAddr, status.code]

/-- `heci_add_client_req_t`. -/
def addClientReqBytes (clientAddr : UInt8) (client : HeciClient) : List UInt8 :=
  [busMsgAddClientReq, clientAddr, 0, 0] ++ guidBytes client.protocolId ++
    [client.protocolVer, client.maxNOfConnections, clientAddr, 0] ++ le32 client.maxMsgSize ++
    [dmaByte client, 0, 0, 0]

/-- `heci_bus_dma_alloc_resp_t`. -/
def dmaAllocRespBytes (status : UInt8) : List UInt8 :=
  [genResp busMsgDmaAllocNotifyReq, status, 0, 0]

/-- `heci_bus_dma_xfer_req_t`. -/
def dmaXferReqBytes (fwAddr hostAddr : UInt8) (msgAddrInHost : UInt64) (msgLength : ℕ) :
    List UInt8 :=
  [busMsgDmaXferReq, fwAddr, hostAddr, 0] ++ le64 msgAddrInHost.toNat ++ le32 msgLength ++
    [0, 0, 0, 0]

end PseFw.Heci
