/-
**Bus messages, registration, and the life of a connection.**

A frame to the driver address is a bus message: the first byte of its payload selects a handler.
Bus messages enumerate the clients, open and close connections, grant flow-control credit and reset
it.  On the firmware side a client registers once and completes each disconnection; a reset closes
every open connection.

The definitions follow the handlers branch by branch, in the order in which they read and write the
tables.  A handler returns `none` where the firmware would follow a null pointer.

Main definitions:

* `PseFw.Heci.heciFindConn`, `PseFw.Heci.findClient`, `PseFw.Heci.findIdleConn` — the searches;
* `PseFw.Heci.heciConnectHost`, `PseFw.Heci.heciDisconnect`, `PseFw.Heci.heciFlowControlRecv`,
  `PseFw.Heci.heciResetResp`, … — the handlers;
* `PseFw.Heci.heciReset`, `PseFw.Heci.heciCompleteDisconnect`, `PseFw.Heci.heciRegister` — the calls
  made on the firmware side;
* `PseFw.Heci.heciProcessBusMessage` — the dispatch.

Main results:

* `PseFw.Heci.heciFindConn_some`, `PseFw.Heci.findClient_some`, `PseFw.Heci.findIdleConn_some` —
  what the searches find.  -/

import PseFw.Heci.Dma
import Mathlib.Data.List.FinRange

set_option relaxedAutoImplicit false
set_option autoImplicit false

namespace PseFw.Heci

/-! ### Searches -/

/-- `heci_find_conn`: the first connection in one of the given states between the two addresses. -/
def heciFindConn (fwAddr hostAddr state : UInt8) (s : HeciDev) : Option ConnId :=
  (List.finRange heciMaxNumOfConnections).find? fun c =>
    (s.connections c).has state && (s.connections c).fwAddr == fwAddr &&
      (s.connections c).hostAddr == hostAddr

/-- The first entry of the client table with the given address.  Three handlers search this way;
entries nobody registered have the address zero. -/
def findClient (addr : UInt8) (s : HeciDev) : Option ClientId :=
  (List.finRange heciMaxNumOfClients).find? fun i => (s.clients i).clientAddr == addr

/-- The first unused entry of the connection table. -/
def findIdleConn (s : HeciDev) : Option ConnId :=
  (List.finRange heciMaxNumOfConnections).find? fun c =>
    (s.connections c).state == connStateUnused

theorem heciFindConn_some {f h st : UInt8} {s : HeciDev} {c : ConnId}
    (hc : heciFindConn f h st s = some c) :
    (s.connections c).has st = true ∧ (s.connections c).fwAddr = f ∧
      (s.connections c).hostAddr = h := by
  have := List.find?_some hc
  simpa [and_assoc] using this

theorem heciFindConn_none {f h st : UInt8} {s : HeciDev} (hn : heciFindConn f h st s = none)
    (c : ConnId) (hst : (s.connections c).has st = true) (hf : (s.connections c).fwAddr = f) :
    (s.connections c).hostAddr ≠ h := by
  intro hh
  have := (List.find?_eq_none.1 hn) c (List.mem_finRange c)
  simp [hst, hf, hh] at this

theorem findClient_some {a : UInt8} {s : HeciDev} {i : ClientId} (h : findClient a s = some i) :
    (s.clients i).clientAddr = a := by
  simpa using List.find?_some h

theorem findClient_none {a : UInt8} {s : HeciDev} (h : findClient a s = none) (i : ClientId) :
    (s.clients i).clientAddr ≠ a := by
  have := (List.find?_eq_none.1 h) i (List.mem_finRange i)
  simpa using this

theorem findIdleConn_some {s : HeciDev} {c : ConnId} (h : findIdleConn s = some c) :
    (s.connections c).state = connStateUnused := by
  simpa using List.find?_some h

/-! ### Closing connections -/

/-- `heci_notify_client`. -/
def heciNotifyClient (c : ConnId) (event : HeciEvent) (s : HeciDev) : HeciDev :=
  s.log (.notify c (s.connections c).eventCb (s.connections c).param event)

/-- `heci_connection_reset`. -/
def heciConnectionReset (c : ConnId) (s : HeciDev) : HeciDev :=
  match (s.connections c).client with
  | none => s
  | some _ =>
      heciNotifyClient c .disconn
        (s.setConn c { s.connections c with state := connStateDisconnecting })

/-- The body of the loop of `heci_reset`. -/
def resetConn (s : HeciDev) (c : ConnId) : HeciDev :=
  if (s.connections c).has connStateOpen then heciConnectionReset c s
  else if (s.connections c).has connStateDisconnecting then
    -- the client was already signalled, only the response owed to the host is forgotten
    s.setConn c { s.connections c with state := connStateDisconnecting }
  else s

/-- `heci_reset`. -/
def heciReset (s : HeciDev) : HeciDev :=
  (List.finRange heciMaxNumOfConnections).foldl resetConn (s.log .reset)

/-! ### Version, stop, enumeration and properties -/

/-- `heci_version_resp`. -/
def heciVersionResp (P : Platform) (msg : HeciBusMsg) (s : HeciDev) : HeciDev :=
  if msg.hdr.len ≠ 4 then s
  else
    let supported : UInt8 := if msg.byte 3 = 1 ∧ msg.byte 2 = 0 then 1 else 0
    busReply P (versionRespBytes (genResp busMsgVersionReq) supported 0 1) s

/-- `heci_stop_resp`. -/
def heciStopResp (P : Platform) (s : HeciDev) : HeciDev :=
  busReply P (versionRespBytes (genResp busMsgHostStopReq) 0 0 0)
    (heciReset (s.log (.fwstIlupHost false)))

/-- The address bitmap of `heci_enum_resp`. -/
def validAddresses (s : HeciDev) : List UInt32 :=
  (List.range 8).map fun w =>
    (List.finRange heciMaxNumOfClients).foldl
      (fun acc i =>
        let addr := (s.clients i).clientAddr.toNat
        if i.val < s.registeredClients ∧ addr / bitsPerDw = w then
          acc ||| ((1 : UInt32) <<< UInt32.ofNat (addr % bitsPerDw))
        else acc) 0

/-- `heci_enum_resp`: the registered clients are listed, and become active. -/
def heciEnumResp (P : Platform) (msg : HeciBusMsg) (s : HeciDev) : HeciDev :=
  if msg.hdr.len ≠ 4 then s
  else
    let s' := { s with clients := fun i =>
      if i.val < s.registeredClients then { s.clients i with active := true } else s.clients i }
    let s' := busReply P (hostEnumRespBytes (validAddresses s)) s'
    if msg.byte 1 ≠ 0 then { s' with notifyNewClients := true } else s'

/-- `heci_client_prop`. -/
def heciClientProp (P : Platform) (msg : HeciBusMsg) (s : HeciDev) : HeciDev :=
  if msg.hdr.len ≠ 4 then s
  else
    match findClient (msg.byte 1) s with
    | none => busReply P (clientPropMissingBytes (msg.byte 1)) s
    | some i => busReply P (clientPropRespBytes (msg.byte 1) (s.clients i).properties) s

/-- `heci_add_client_resp`. -/
def heciAddClientResp (msg : HeciBusMsg) (s : HeciDev) : HeciDev :=
  if msg.hdr.len ≠ 3 then s
  else if msg.byte 2 ≠ 0 then s
  else
    match findClient (msg.byte 1) s with
    | none => s
    | some i => s.setClient i { s.clients i with active := true }

/-! ### Connecting and disconnecting -/

/-- Lock a receive buffer. -/
def lockRx (p : RxPtr) (s : HeciDev) : HeciDev := s.setRx p { s.rxMsgs p with msgLock := true }

/-- `heci_get_buffer_from_pool`: lock the receive buffer of the client.  The inner option is the
pointer that is returned. -/
def heciGetBufferFromPool (client : Option ClientId) (s : HeciDev) :
    Option (Option RxPtr × HeciDev) :=
  match client with
  | none => some (none, s)
  | some i =>
      match (s.clients i).properties.rxMsg with
      | none => none
      | some p =>
          if (s.rxMsgs p).msgLock then some (none, s) else some (some p, lockRx p s)

/-- The connection `heci_connect_host` fills in. -/
def connectedConn (conn : HeciConn) (c : ConnId) (i : ClientId) (client : HeciClient)
    (fwAddr hostAddr : UInt8) (p : RxPtr) : HeciConn :=
  { conn with
    connectionId := UInt8.ofNat c
    rxBuffer := some p
    client := some i
    waitThreadCount := 0
    hostAddr := hostAddr
    fwAddr := fwAddr
    state := connStateOpen
    flowCtrlSem := some c
    eventCb := client.eventCb
    param := client.param }

/-- The part of `heci_connect_host` that fills in the idle connection and tells the client. -/
def openConn (c : ConnId) (i : ClientId) (p : RxPtr) (fwAddr hostAddr : UInt8) (s : HeciDev) :
    HeciDev :=
  let client := s.clients i
  let conn := connectedConn (s.connections c) c i client.properties fwAddr hostAddr p
  let s := s.setClient i { client with nOfConns := client.nOfConns + 1 }
  let s := ((s.setConn c conn).log (.opened c i)).setSem c 0
  let s := s.setRx p { s.rxMsgs p with
    type := .connect
    connectionId := UInt8.ofNat c
    length := 0 }
  heciNotifyClient c .newMsg s

/-- `heci_connect_host`. -/
def heciConnectHost (P : Platform) (msg : HeciBusMsg) (s : HeciDev) : Option HeciDev :=
  if msg.hdr.len ≠ 4 then some s
  else
    let fwAddr := msg.byte 1
    let hostAddr := msg.byte 2
    let respond (status : BusMsgStatus) (s : HeciDev) : HeciDev :=
      busReply P (connRespBytes fwAddr hostAddr status) s
    match findClient fwAddr s with
    | none => some (respond .clientNotFound s)
    | some i =>
        if hostAddr = 0 then some (respond .rejected s)
        else if (s.clients i).active = false then some (respond .inactiveClient s)
        else if (s.clients i).nOfConns = (s.clients i).properties.maxNOfConnections then
          some (respond .rejected s)
        else
          match findIdleConn s with
          | none => some (respond .rejected s)
          | some c =>
              match heciGetBufferFromPool (some i) s with
              | none => none
              | some (none, s) =>
                  some (respond .rejected (s.setConn c { s.connections c with
                    connectionId := UInt8.ofNat c
                    rxBuffer := none }))
              | some (some p, s) => some (respond .success (openConn c i p fwAddr hostAddr s))

/-- `heci_disconnect`. -/
def heciDisconnect (P : Platform) (msg : HeciBusMsg) (s : HeciDev) : HeciDev :=
  if msg.hdr.len ≠ 4 then s
  else
    let fwAddr := msg.byte 1
    let hostAddr := msg.byte 2
    match heciFindConn fwAddr hostAddr (connStateOpen ||| connStateConnectionRequest) s with
    | some c =>
        let conn := s.connections c
        let s' := s.setConn c { conn with
          state := connStateDisconnecting ||| connStateSendDisconnectResp }
        -- a connection that is already disconnecting is not signalled again
        if conn.has connStateDisconnecting then s' else heciNotifyClient c .disconn s'
    | none => busReply P (disconnRespBytes fwAddr hostAddr .clientNotFound) s

/-! ### Flow control -/

/-- `heci_wakeup_sender`: give the semaphore of the connection `n` times. -/
def heciWakeupSender (c : ConnId) (n : ℕ) (s : HeciDev) : Option HeciDev :=
  match (s.connections c).flowCtrlSem with
  | none => if n = 0 then some s else none
  | some q => some (s.setSem q (min (s.flowCtrlSems q + n) (2 ^ 32 - 1)))

theorem heciWakeupSender_of_sem {c q : ConnId} {n : ℕ} {s : HeciDev}
    (h : (s.connections c).flowCtrlSem = some q) :
    heciWakeupSender c n s = some (s.setSem q (min (s.flowCtrlSems q + n) (2 ^ 32 - 1))) := by
  rw [heciWakeupSender, h]

/-- The number of messages a flow-control message grants: a count of zero stands for one. -/
def grantedPackets (numberOfPackets : UInt8) : UInt8 :=
  if numberOfPackets = 0 then 1 else numberOfPackets

/-- `heci_flow_control_recv`. -/
def heciFlowControlRecv (msg : HeciBusMsg) (s : HeciDev) : Option HeciDev :=
  if msg.hdr.len ≠ 8 then some s
  else
    match heciFindConn (msg.byte 1) (msg.byte 2) connStateOpen s with
    | none => some s
    | some c =>
        let n := grantedPackets (msg.byte 3)
        let conn := s.connections c
        let s := s.setConn c { conn with hostBuffers := conn.hostBuffers + n.toUInt32 }
        heciWakeupSender c (min n.toNat conn.waitThreadCount.toNat)
          (s.log (.creditGranted c n.toNat))

/-- `heci_reset_resp`. -/
def heciResetResp (P : Platform) (msg : HeciBusMsg) (s : HeciDev) : HeciDev :=
  if msg.hdr.len ≠ 4 then s
  else
    match heciFindConn (msg.byte 1) (msg.byte 2) connStateOpen s with
    | none => s
    | some c =>
        let s := (s.setConn c { s.connections c with hostBuffers := 0 }).log (.creditReset c)
        busReply P (resetRespBytes (msg.byte 1) (msg.byte 2) .success) s

/-! ### What the handlers do -/

/-- A buffer that is handed out was free, and is locked now. -/
theorem heciGetBufferFromPool_some {cl : Option ClientId} {s s' : HeciDev} {p : RxPtr}
    (h : heciGetBufferFromPool cl s = some (some p, s')) :
    ∃ i, cl = some i ∧ (s.clients i).properties.rxMsg = some p ∧ (s.rxMsgs p).msgLock = false ∧
      s' = lockRx p s := by
  unfold heciGetBufferFromPool at h
  split at h
  · cases h
  · next i =>
      split at h
      · cases h
      · next q hq =>
          split at h
          · cases h
          · next hl =>
              cases h
              exact ⟨i, rfl, hq, by simpa using hl, rfl⟩

/-- When no buffer is handed out, nothing changes; and a client has its buffer locked. -/
theorem heciGetBufferFromPool_none {cl : Option ClientId} {s s' : HeciDev}
    (h : heciGetBufferFromPool cl s = some (none, s')) :
    s' = s ∧ ∀ i p, cl = some i → (s.clients i).properties.rxMsg = some p →
      (s.rxMsgs p).msgLock = true := by
  unfold heciGetBufferFromPool at h
  split at h
  · cases h
    exact ⟨rfl, by simp⟩
  · next i =>
      split at h
      · cases h
      · next q hq =>
          split at h
          · next hl =>
              cases h
              refine ⟨rfl, ?_⟩
              intro j p hj hp
              cases hj
              rw [hq] at hp
              cases hp
              exact hl
          · cases h

/-- **What a connect request does**: it is refused with a response, or an idle connection is
opened. -/
inductive ConnectCase (P : Platform) (msg : HeciBusMsg) (s : HeciDev) : HeciDev → Prop
  | ignored : msg.hdr.len ≠ 4 → ConnectCase P msg s s
  | refused (st : BusMsgStatus) : st ≠ .success →
      ConnectCase P msg s (busReply P (connRespBytes (msg.byte 1) (msg.byte 2) st) s)
  | noBuffer (c : ConnId) : findIdleConn s = some c →
      ConnectCase P msg s (busReply P (connRespBytes (msg.byte 1) (msg.byte 2) .rejected)
        (s.setConn c { s.connections c with
          connectionId := UInt8.ofNat c
          rxBuffer := none }))
  | opened (i : ClientId) (c : ConnId) (p : RxPtr) : msg.hdr.len = 4 →
      findClient (msg.byte 1) s = some i → msg.byte 2 ≠ 0 → (s.clients i).active = true →
      (s.clients i).nOfConns ≠ (s.clients i).properties.maxNOfConnections →
      findIdleConn s = some c → (s.clients i).properties.rxMsg = some p →
      (s.rxMsgs p).msgLock = false →
      ConnectCase P msg s (busReply P (connRespBytes (msg.byte 1) (msg.byte 2) .success)
        (openConn c i p (msg.byte 1) (msg.byte 2) (lockRx p s)))

/-- **The cases of a connect request.** -/
theorem heciConnectHost_cases {P : Platform} {msg : HeciBusMsg} {s s' : HeciDev}
    (h : heciConnectHost P msg s = some s') : ConnectCase P msg s s' := by
  unfold heciConnectHost at h
  dsimp only at h
  split at h
  · next hlen =>
      cases h
      exact ConnectCase.ignored hlen
  next hlen =>
  split at h
  · cases h
    exact ConnectCase.refused _ (by decide)
  next i hi =>
  split at h
  · cases h
    exact ConnectCase.refused _ (by decide)
  next hhost =>
  split at h
  · cases h
    exact ConnectCase.refused _ (by decide)
  next hact =>
  split at h
  · cases h
    exact ConnectCase.refused _ (by decide)
  next hroom =>
  split at h
  · cases h
    exact ConnectCase.refused _ (by decide)
  next c hc =>
  split at h
  · cases h
  · next s₁ hb =>
      cases h
      obtain ⟨rfl, -⟩ := heciGetBufferFromPool_none hb
      exact ConnectCase.noBuffer c hc
  · next p s₁ hb =>
      cases h
      obtain ⟨j, hj, hp, hl, rfl⟩ := heciGetBufferFromPool_some hb
      cases hj
      exact ConnectCase.opened i c p (not_not.1 hlen) hi hhost (by simpa using hact) hroom hc hp hl

/-! ### The dispatch -/

/-- `heci_process_bus_message`. -/
def heciProcessBusMessage (P : Platform) (msg : HeciBusMsg) (s : HeciDev) : Option HeciDev :=
  let cmd := msg.byte 0
  if cmd = busMsgVersionReq then some (heciVersionResp P msg s)
  else if cmd = busMsgHostStopReq then some (heciStopResp P s)
  else if cmd = busMsgHostEnumReq then some (heciEnumResp P msg s)
  else if cmd = busMsgHostClientPropReq then some (heciClientProp P msg s)
  else if cmd = busMsgClientConnectReq then heciConnectHost P msg s
  else if cmd = busMsgClientDisconnectReq then some (heciDisconnect P msg s)
  else if cmd = busMsgFlowControl then heciFlowControlRecv msg s
  else if cmd = busMsgResetReq then some (heciResetResp P msg s)
  else if cmd = genResp busMsgAddClientReq then some (heciAddClientResp msg s)
  else if P.useDma = true ∧ cmd = busMsgDmaAllocNotifyReq then
    some (heciDmaAllocNotification P msg s)
  else if P.useDma = true ∧ cmd = genResp busMsgDmaXferReq then some (heciDmaXferAck P msg s)
  else some s

/-! ### Calls on the firmware side -/

/-- `-EINVAL`. -/
abbrev einval : ℤ := -22

/-- `-EBUSY`. -/
abbrev ebusy : ℤ := -16

/-- The part of `heci_complete_disconnect` that cleans the receive buffer. -/
def releaseRx (c : ConnId) (s : HeciDev) : HeciDev :=
  match (s.connections c).rxBuffer with
  | none => s
  | some p => s.setRx p { s.rxMsgs p with
      type := .request
      length := 0
      connectionId := 0
      msgLock := false }

/-- The part of `heci_complete_disconnect` that sends the response, if the host waits for one. -/
def respondDisconnect (P : Platform) (c : ConnId) (s : HeciDev) : HeciDev :=
  if (s.connections c).has connStateSendDisconnectResp then
    busReply P (disconnRespBytes (s.connections c).fwAddr (s.connections c).hostAddr .success) s
  else s

/-- The part of `heci_complete_disconnect` that frees the connection of the client. -/
def freeConn (c : ConnId) (i : ClientId) (s : HeciDev) : HeciDev :=
  ((s.setClient i { s.clients i with nOfConns := (s.clients i).nOfConns - 1 }).setConn c
    HeciConn.zero).emit [.freed c, .creditReset c]

/-- `heci_complete_disconnect`.  The status of a connection that is not disconnecting is computed
but not returned. -/
def heciCompleteDisconnect (P : Platform) (connId : ℕ) (s : HeciDev) : Option (ℤ × HeciDev) :=
  if h : connId < heciMaxNumOfConnections then
    let c : ConnId := ⟨connId, h⟩
    if (s.connections c).has connStateDisconnecting = false then some (0, s)
    else
      match (s.connections c).client with
      | none => none
      | some i => some (0, freeConn c i (respondDisconnect P c (releaseRx c s)))
  else some (einval, s)

section completion

variable (P : Platform) (c : ConnId) (s : HeciDev)

@[simp] theorem releaseRx_connections : (releaseRx c s).connections = s.connections := by
  unfold releaseRx
  split <;> rfl

@[simp] theorem releaseRx_clients : (releaseRx c s).clients = s.clients := by
  unfold releaseRx
  split <;> rfl

@[simp] theorem releaseRx_registeredClients :
    (releaseRx c s).registeredClients = s.registeredClients := by
  unfold releaseRx
  split <;> rfl

theorem ioStep_respondDisconnect : IoStep (fun f => f = busFrame (disconnRespBytes
    (s.connections c).fwAddr (s.connections c).hostAddr .success)) s (respondDisconnect P c s) := by
  unfold respondDisconnect
  split
  · exact IoStep.sendProtoMsg (W := fun f => f = busFrame _) P rfl s
  · exact IoStep.refl _ s

end completion

/-- `heci_client_find`. -/
def heciClientFind (client : HeciClient) (s : HeciDev) : Bool :=
  (List.finRange heciMaxNumOfClients).any fun i =>
    client.protocolId == (s.clients i).properties.protocolId

/-- `heci_send_new_client_msg`. -/
def heciSendNewClientMsg (P : Platform) (client : HeciClientCtrl) (s : HeciDev) : HeciDev :=
  if s.notifyNewClients then busReply P (addClientReqBytes client.clientAddr client.properties) s
  else s

/-- The parameter checks of `heci_register` that need no lock. -/
def registerParamsOk (client : Option HeciClient) (s : HeciDev) : Option HeciClient :=
  match client with
  | none => none
  | some client =>
      match client.rxMsg with
      | none => none
      | some p =>
          if (s.rxMsgs p).buffer.isNone then none
          else if client.maxMsgSize > heciMaxMsgSize then none
          else some client

/-- What the checks ensure. -/
theorem registerParamsOk_some {oc : Option HeciClient} {s : HeciDev} {client : HeciClient}
    (h : registerParamsOk oc s = some client) :
    oc = some client ∧ ∃ p, client.rxMsg = some p ∧ (s.rxMsgs p).buffer.isSome ∧
      client.maxMsgSize ≤ heciMaxMsgSize := by
  unfold registerParamsOk at h
  split at h
  · cases h
  · split at h
    · cases h
    · next p hp =>
        split at h
        · cases h
        · next hbuf =>
            split at h
            · cases h
            · next hsize =>
                cases h
                exact ⟨rfl, p, hp, by simpa [Option.isSome_iff_ne_none] using hbuf, by omega⟩

/-- The entry `heci_register` fills in. -/
def registeredClient (i : ClientId) (client : HeciClient) : HeciClientCtrl where
  clientAddr := UInt8.ofNat (i + heciFixedClientNum)
  nOfConns := 0
  active := false
  properties := client

/-- `heci_register`. -/
def heciRegister (P : Platform) (client : Option HeciClient) (s : HeciDev) : ℤ × HeciDev :=
  match registerParamsOk client s with
  | none => (einval, s)
  | some client =>
      if heciClientFind client s then (ebusy, s)
      else
        match findClient 0 s with
        | none => (-1, s)
        | some i =>
            let s := { s with registeredClients := s.registeredClients + 1 }
            let s := s.setClient i (registeredClient i client)
            (0, heciSendNewClientMsg P (registeredClient i client) s)

end PseFw.Heci
