/-
**Client frames: reassembly into the receive buffer.**

A frame to any other address than the bus is a fragment of a message to a client.  The first
fragment of a message locks the receive buffer of the client and puts the connection into the
processing state; every fragment is appended to the buffer; the last one tells the client that there
is a message.  The client gives the buffer back by sending a flow-control message to the host.

Main definitions:

* `PseFw.Heci.heciFindActiveConn`, `PseFw.Heci.heciCopyToClientBuf`,
  `PseFw.Heci.heciProcessClientMessage` — taking a fragment;
* `PseFw.Heci.heciSendFlowControl` — giving the buffer back;
* `PseFw.Heci.heciProcessMessage` — the entry for every frame;
* `PseFw.Heci.ipcHeciHandler` — the handler of the mailbox, which makes frames of packets.

Main results:

* `PseFw.Heci.HeciRxMsg.bytes_append` — appending to the buffer appends to the bytes the client
  reads.  -/

import PseFw.Heci.Bus

set_option relaxedAutoImplicit false
set_option autoImplicit false

namespace PseFw.Heci

/-! ### Memory -/

/-- `memcpy` of `data` to offset `off` of a buffer. -/
def memcpyTo (b : ℕ → UInt8) (off : ℕ) (data : List UInt8) : ℕ → UInt8 :=
  fun k => if off ≤ k ∧ k < off + data.length then data.getD (k - off) 0 else b k

/-- What is in the buffer up to the end of the copied bytes. -/
theorem map_range_memcpyTo (b : ℕ → UInt8) (off : ℕ) (data : List UInt8) :
    (List.range (off + data.length)).map (memcpyTo b off data) =
      (List.range off).map b ++ data := by
  refine List.ext_getElem (by simp) ?_
  intro k hk _
  simp only [List.length_map, List.length_range] at hk
  rw [List.getElem_map, List.getElem_range, memcpyTo]
  by_cases hko : k < off
  · rw [if_neg (by omega), List.getElem_append_left (by simpa using hko)]
    simp
  · have hko' : k - off < data.length := by omega
    rw [if_pos (by omega), List.getElem_append_right (by simpa using Nat.le_of_not_lt hko)]
    simp [List.getElem?_eq_getElem hko']

@[simp] theorem HeciRxMsg.length_bytes (m : HeciRxMsg) : m.bytes.length = m.length := by
  simp [HeciRxMsg.bytes]

/-- **Appending to the buffer appends to what the client reads**, as long as the length is a 16-bit
number. -/
theorem HeciRxMsg.bytes_append {m m' : HeciRxMsg} {b : ℕ → UInt8} {data : List UInt8}
    (hb : m.buffer = some b) (hlt : m.length + data.length < 2 ^ 16)
    (hbuf : m'.buffer = some (memcpyTo b m.length data))
    (hlen : m'.length = (m.length + data.length) % 2 ^ 16) : m'.bytes = m.bytes ++ data := by
  rw [HeciRxMsg.bytes, HeciRxMsg.bytes, hlen, Nat.mod_eq_of_lt hlt, hbuf, hb]
  exact map_range_memcpyTo b m.length data

/-! ### Taking a fragment -/

/-- `heci_connection_error`: ask the host to disconnect. -/
def heciConnectionError (P : Platform) (c : ConnId) (s : HeciDev) : HeciDev :=
  busReply P (disconnReqBytes (s.connections c).fwAddr (s.connections c).hostAddr) s

/-- `heci_find_active_conn`: the connection of a fragment, which holds a locked receive buffer from
its first fragment on.  The inner option is the pointer that is returned. -/
def heciFindActiveConn (msg : HeciBusMsg) (s : HeciDev) : Option (Option ConnId × HeciDev) :=
  match heciFindConn msg.hdr.fwAddr msg.hdr.hostAddr
      (connStateOpen ||| connStateProcessingMsg) s with
  | none => some (none, s)
  | some c =>
      let s := s.log (.fragment c msg.payload msg.hdr.lastFrag)
      let conn := s.connections c
      if conn.has connStateProcessingMsg then some (some c, s)
      else
        match heciGetBufferFromPool conn.client s with
        | none => none
        | some (none, s) => some (none, s.setConn c { conn with rxBuffer := none })
        | some (some p, s) =>
            let s := s.setConn c { conn with
              rxBuffer := some p
              state := conn.state ||| connStateProcessingMsg }
            some (some c, s.setRx p { s.rxMsgs p with
              type := .request
              connectionId := conn.connectionId
              length := 0 })

/-- `heci_copy_to_client_buf` for a fragment that came through the mailbox. -/
def heciCopyToClientBuf (P : Platform) (c : ConnId) (data : List UInt8) (s : HeciDev) :
    Option HeciDev :=
  let conn := s.connections c
  match conn.rxBuffer, conn.client with
  | some p, some i =>
      let rxmsg := s.rxMsgs p
      let properties := (s.clients i).properties
      if rxmsg.length + data.length > properties.rxBufferLen ∨
          rxmsg.length + data.length > properties.maxMsgSize then
        let s := heciConnectionError P c s
        let s := s.setRx p { s.rxMsgs p with msgLock := false }
        some (s.setConn c { conn with state := conn.state &&& ~~~ connStateProcessingMsg })
      else
        match rxmsg.buffer with
        | none => none
        | some b =>
            some (s.setRx p { rxmsg with
              buffer := some (memcpyTo b rxmsg.length data)
              length := (rxmsg.length + data.length) % 2 ^ 16
              type := .request
              connectionId := conn.connectionId })
  | _, _ => none

/-- `heci_process_client_message`. -/
def heciProcessClientMessage (P : Platform) (msg : HeciBusMsg) (s : HeciDev) : Option HeciDev :=
  match heciFindActiveConn msg s with
  | none => none
  | some (none, s) => some s
  | some (some c, s) =>
      match heciCopyToClientBuf P c msg.payload s with
      | none => none
      | some s =>
          if msg.hdr.lastFrag then
            let conn := s.connections c
            some (heciNotifyClient c .newMsg
              (s.setConn c { conn with state := conn.state &&& ~~~ connStateProcessingMsg }))
          else some s

/-! ### Giving the buffer back -/

/-- `heci_send_flow_control`. -/
def heciSendFlowControl (P : Platform) (connId : ℕ) (s : HeciDev) : Bool × HeciDev :=
  if h : connId < heciMaxNumOfConnections then
    let c : ConnId := ⟨connId, h⟩
    let conn := s.connections c
    if conn.has connStateOpen = false then (false, s)
    else
      let s := match conn.rxBuffer with
        | none => s
        | some p =>
            (s.setRx p { s.rxMsgs p with length := 0, type := .request, msgLock := false }).setConn
              c
              { conn with rxBuffer := none }
      heciSendProtoMsg P heciDriverAddress heciDriverAddress true
        (flowCtrlBytes conn.fwAddr conn.hostAddr 1) s
  else (false, s)

/-! ### The entry for every frame -/

/-- `heci_process_message`. -/
def heciProcessMessage (P : Platform) (msg : HeciBusMsg) (s : HeciDev) : Option HeciDev :=
  let s := s.log (.recv msg)
  if msg.hdr.fwAddr = heciDriverAddress then heciProcessBusMessage P msg s
  else if msg.hdr.fwAddr = heciSystemStateClientAddr then some s
  else if msg.hdr.fwAddr = heciFwStateClientAddr then some s
  else heciProcessClientMessage P msg s

/-! ### The mailbox -/

/-- `IPC_DATA_LEN_MAX`. -/
abbrev ipcDataLenMax : ℕ := 128

/-- The header of a packet: two addresses, nine bits of length, and the mark of the last fragment in
the highest bit. -/
def packetHdr (buf : ℕ → UInt8) : HeciHdr where
  fwAddr := buf 0
  hostAddr := buf 1
  len := (buf 2).toNat + 256 * ((buf 3).toNat % 2)
  lastFrag := decide (128 ≤ (buf 3).toNat)

/-- The frame a packet holds. -/
def packetFrame (buf : ℕ → UInt8) : HeciBusMsg where
  hdr := packetHdr buf
  payload := (List.range (packetHdr buf).len).map fun k => buf (k + heciHdrSize)
  len_eq := by simp

/-- `ipc_heci_handler`, for a doorbell and what is in the mailbox; `ret` is what `ipc_read_msg`
returns.  The acknowledgements to the host are left out. -/
def ipcHeciHandler (P : Platform) (ret : ℤ) (inbox : ℕ → UInt8) (drbl : UInt32) (s : HeciDev) :
    ℤ × Option HeciDev :=
  let msgLen := (ipcHeaderGetLength drbl).toNat
  if msgLen > ipcDataLenMax then (-1, some s)
  else if ret ≠ 0 then (-1, some s)
  else
    -- the packet is read into a zeroed buffer
    let heciMsg := packetFrame fun k => if k < msgLen then inbox k else 0
    if heciMsg.hdr.len + heciHdrSize = msgLen then (0, heciProcessMessage P heciMsg s)
    else (-1, some s)

end PseFw.Heci
