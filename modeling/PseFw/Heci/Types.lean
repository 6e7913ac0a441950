/-
**The data model of the HECI layer.**

HECI is the message protocol between the host and the clients that run on the firmware side.  The
firmware keeps one device record: a table of registered clients and a table of connections, each
with eight entries, together with the receive buffers the clients lend to the layer and one
semaphore per connection.  This module fixes those records, the frames that travel over the IPC
mailbox, and the trace in which a run leaves what it did.

Pointers are modelled by names.  A connection names its client by its index in the client table;
receive buffers are named by `RxPtr` and live in a store, so that two clients that were registered
with the same buffer do share it; a null pointer is `none`.  A dereference of a null pointer has no
outcome in the model: the operation that does it returns `none`.

The trace `HeciDev.events` is what an observer of the firmware sees: the frames taken from the
mailbox and written to it, the requests made of the power management service, the callbacks of the
clients.  It also records when a connection is opened and freed, which fragments were addressed to a
connection, and every change of the flow-control credit, so that statements about whole runs can be
read off the state a run ends in.

Main definitions:

* `PseFw.Heci.HeciClient`, `PseFw.Heci.HeciClientCtrl`, `PseFw.Heci.HeciConn`,
  `PseFw.Heci.HeciRxMsg`, `PseFw.Heci.HostRxDmaInfo` — the records of the device;
* `PseFw.Heci.HeciBusMsg` — a frame, whose payload has the length its header announces;
* `PseFw.Heci.Event` — what a run can leave in the trace;
* `PseFw.Heci.HeciDev` — the state of the layer, and its elementary updates;
* `PseFw.Heci.Platform` — the build configuration and the answers of the services below.
-/

import Mathlib.Algebra.Order.Ring.Nat
import Mathlib.Data.Fintype.Basic
import Mathlib.Tactic.Simps.Basic

set_option relaxedAutoImplicit false
set_option autoImplicit false

namespace PseFw.Heci

/-! ### Constants -/

/-- `HECI_IPC_PACKET_SIZE`. -/
abbrev heciIpcPacketSize : ℕ := 128

/-- `sizeof(heci_hdr_t)`. -/
abbrev heciHdrSize : ℕ := 4

/-- `HECI_MAX_PAYLOAD_SIZE`. -/
abbrev heciMaxPayloadSize : ℕ := heciIpcPacketSize - heciHdrSize

/-- `HECI_MAX_MSG_SIZE`. -/
abbrev heciMaxMsgSize : ℕ := 4096

/-- `HECI_FIXED_CLIENT_NUM`: the address of the first client. -/
abbrev heciFixedClientNum : ℕ := 32

/-- `HECI_MAX_NUM_OF_CLIENTS`. -/
abbrev heciMaxNumOfClients : ℕ := 8

/-- `HECI_MAX_NUM_OF_CONNECTIONS`. -/
abbrev heciMaxNumOfConnections : ℕ := heciMaxNumOfClients

/-- `HECI_DRIVER_ADDRESS`, both of the bus itself and of the host's driver. -/
abbrev heciDriverAddress : UInt8 := 0

/-- `HECI_SYSTEM_STATE_CLIENT_ADDR`. -/
abbrev heciSystemStateClientAddr : UInt8 := 13

/-- `HECI_FW_STATE_CLIENT_ADDR`. -/
abbrev heciFwStateClientAddr : UInt8 := 14

/-- `CONFIG_HECI_PAGE_SIZE`. -/
abbrev configHeciPageSize : ℕ := 4096

/-- `CONFIG_HECI_DMA_THRESHOLD`. -/
abbrev configHeciDmaThreshold : ℕ := 372

/-- `BITS_PER_DW`. -/
abbrev bitsPerDw : ℕ := 32

/-- `PAGE_BITMAP_NUM`. -/
abbrev pageBitmapNum : ℕ := 10

/-- `MAX_HOST_SIZE`. -/
abbrev maxHostSize : ℕ := pageBitmapNum * bitsPerDw * configHeciPageSize

/-- An index into the client table. -/
abbrev ClientId := Fin heciMaxNumOfClients

/-- An index into the connection table. -/
abbrev ConnId := Fin heciMaxNumOfConnections

/-- The name of a receive buffer. -/
abbrev RxPtr := ℕ

/-- The name of a client callback. -/
abbrev EventCb := ℕ

/-! ### The states of a connection

The state is a byte of flags, tested and updated bit by bit. -/

/-- `HECI_CONN_STATE_UNUSED`. -/
abbrev connStateUnused : UInt8 := 0

/-- `HECI_CONN_STATE_OPEN`. -/
abbrev connStateOpen : UInt8 := 1

/-- `HECI_CONN_STATE_PROCESSING_MSG`. -/
abbrev connStateProcessingMsg : UInt8 := 2

/-- `HECI_CONN_STATE_DISCONNECTING`. -/
abbrev connStateDisconnecting : UInt8 := 4

/-- `HECI_CONN_STATE_CONNECTION_REQUEST`. -/
abbrev connStateConnectionRequest : UInt8 := 8

/-- `HECI_CONN_STATE_SEND_DISCONNECT_RESP`. -/
abbrev connStateSendDisconnectResp : UInt8 := 16

/-- `HECI_BUS_MSG_STATUS`: the status byte of a response. -/
inductive BusMsgStatus
  | success
  | clientNotFound
  | alreadyExists
  | rejected
  | invalidParameter
  | inactiveClient
  deriving DecidableEq, Repr

/-- The value of a status on the wire. -/
def BusMsgStatus.code : BusMsgStatus → UInt8
  | success => 0
  | clientNotFound => 1
  | alreadyExists => 2
  | rejected => 3
  | invalidParameter => 4
  | inactiveClient => 5

/-- `MSG_TYPE`, as far as the layer uses it: what a receive buffer holds.  A buffer that was
released has its type cleared to zero, which is the value of `HECI_REQUEST`. -/
inductive RxMsgType
  | request
  | connect
  deriving DecidableEq, Repr

/-- The events a client is told about: `HECI_EVENT_NEW_MSG` and `HECI_EVENT_DISCONN`. -/
inductive HeciEvent
  | newMsg
  | disconn
  deriving DecidableEq, Repr

/-! ### Records -/

/-- `heci_rx_msg_t`: a receive buffer, with the memory it points to.  A null `buffer` is `none`. -/
structure HeciRxMsg where
  type : RxMsgType
  connectionId : UInt8
  msgLock : Bool
  length : ℕ
  buffer : Option (ℕ → UInt8)

/-- The first `length` bytes of a receive buffer: what its client is to read. -/
def HeciRxMsg.bytes (m : HeciRxMsg) : List UInt8 :=
  (List.range m.length).map (m.buffer.getD fun _ => 0)

/-- `heci_client_t`: what a client hands over when it registers.  The list of threads that are
granted access to the kernel objects is left out: it has no effect on the protocol. -/
structure HeciClient where
  protocolId : BitVec 128
  maxMsgSize : ℕ
  protocolVer : UInt8
  maxNOfConnections : UInt8
  dmaHeaderLength : UInt8
  dmaEnabled : Bool
  rxBufferLen : ℕ
  rxMsg : Option RxPtr
  eventCb : Option EventCb
  param : ℕ
  deriving DecidableEq, Repr

/-- The properties of an entry of the client table nobody registered. -/
def HeciClient.zero : HeciClient where
  protocolId := 0
  maxMsgSize := 0
  protocolVer := 0
  maxNOfConnections := 0
  dmaHeaderLength := 0
  dmaEnabled := false
  rxBufferLen := 0
  rxMsg := none
  eventCb := none
  param := 0

/-- `heci_client_ctrl_t`: an entry of the client table.  An entry is free exactly while its address
is zero. -/
structure HeciClientCtrl where
  clientAddr : UInt8
  nOfConns : UInt8
  active : Bool
  properties : HeciClient
  deriving DecidableEq, Repr

/-- A free entry of the client table. -/
def HeciClientCtrl.zero : HeciClientCtrl where
  clientAddr := 0
  nOfConns := 0
  active := false
  properties := HeciClient.zero

/-- `heci_conn_t`: an entry of the connection table.  The fields `host_dram_addr`, `dma_buff_size`
and `dma_ts`, which nothing reads, are left out. -/
structure HeciConn where
  client : Option ClientId
  state : UInt8
  fwAddr : UInt8
  hostAddr : UInt8
  waitThreadCount : UInt8
  rxBuffer : Option RxPtr
  eventCb : Option EventCb
  param : ℕ
  hostBuffers : UInt32
  flowCtrlSem : Option ConnId
  connectionId : UInt8
  deriving DecidableEq, Repr

/-- The entry `memset` leaves. -/
def HeciConn.zero : HeciConn where
  client := none
  state := connStateUnused
  fwAddr := 0
  hostAddr := 0
  waitThreadCount := 0
  rxBuffer := none
  eventCb := none
  param := 0
  hostBuffers := 0
  flowCtrlSem := none
  connectionId := 0

/-- `conn->state & bits`, read as a truth value. -/
def HeciConn.has (c : HeciConn) (bits : UInt8) : Bool := c.state &&& bits != 0

/-- `struct host_rx_dma_info`: the buffer in host memory and the pages of it that are in use.
`pageBitmap k` is bit `k % 32` of word `k / 32`, counted from the start of the bitmap also beyond
its end; `dmaSem` is the count of the semaphore and `dmaLock` the lock count of the mutex. -/
structure HostRxDmaInfo where
  dmaAddr : UInt64
  size : UInt32
  numPages : UInt32
  pageBitmap : ℕ → Bool
  dmaSem : ℕ
  dmaLock : ℕ

/-- The record `memset` leaves. -/
def HostRxDmaInfo.zero : HostRxDmaInfo where
  dmaAddr := 0
  size := 0
  numPages := 0
  pageBitmap := fun _ => false
  dmaSem := 0
  dmaLock := 0

/-! ### Frames -/

/-- `heci_hdr_t`, without the bits nothing reads. -/
structure HeciHdr where
  fwAddr : UInt8
  hostAddr : UInt8
  len : ℕ
  lastFrag : Bool
  deriving DecidableEq, Repr

/-- **A frame**: `heci_bus_msg_t`, with as many bytes as its header announces.  The handler of the
mailbox checks that for every frame it accepts. -/
@[ext] structure HeciBusMsg where
  hdr : HeciHdr
  payload : List UInt8
  len_eq : payload.length = hdr.len
  deriving DecidableEq, Repr

/-- A frame for the given pair of addresses. -/
def HeciBusMsg.mk' (hostAddr fwAddr : UInt8) (lastFrag : Bool) (data : List UInt8) :
    HeciBusMsg where
  hdr := ⟨fwAddr, hostAddr, data.length, lastFrag⟩
  payload := data
  len_eq := rfl

/-- Byte `i` of the payload.  Frames are read into a zeroed packet, so the rest of it is zero. -/
def HeciBusMsg.byte (m : HeciBusMsg) (i : ℕ) : UInt8 := m.payload.getD i 0


/-! ### The trace -/

/-- What a run leaves in the trace. -/
inductive Event
  /-- `heci_process_message` is entered with a frame. -/
  | recv (msg : HeciBusMsg)
  /-- `heci_reset` is entered. -/
  | reset
  /-- `host_access_req` returned. -/
  | hostAccessReq (ret : ℤ)
  /-- `host_access_dereq` is called. -/
  | hostAccessDereq (handler : ℤ)
  /-- `ipc_write_msg` returned; it was given a doorbell, a packet and a number of bytes. -/
  | ipcWrite (drbl : UInt32) (msg : HeciBusMsg) (len : ℕ) (ret : ℤ)
  /-- `sedi_fwst_set(ILUP_HOST, val)`. -/
  | fwstIlupHost (val : Bool)
  /-- `heci_notify_client`: `cb` is the callback that runs, if the client has one. -/
  | notify (conn : ConnId) (cb : Option EventCb) (param : ℕ) (event : HeciEvent)
  /-- The connection becomes open, for the client. -/
  | opened (conn : ConnId) (client : ClientId)
  /-- The connection is freed. -/
  | freed (conn : ConnId)
  /-- A client frame is addressed to the connection. -/
  | fragment (conn : ConnId) (payload : List UInt8) (lastFrag : Bool)
  /-- The host grants `n` messages on the connection. -/
  | creditGranted (conn : ConnId) (n : ℕ)
  /-- The credit of the connection is set to zero. -/
  | creditReset (conn : ConnId)
  /-- `conn->host_buffers--`, and the value it had. -/
  | creditTaken (conn : ConnId) (before : UInt32)
  /-- `heci_send` reads `conn->client`. -/
  | clientRead (conn : ConnId)
  /-- `heci_send` returns true to a thread. -/
  | sent (conn : ConnId)
  deriving DecidableEq, Repr

/-! ### The state of the layer -/

/-- **The state of the layer**: the device record, the semaphores, the receive buffers and the
trace. -/
structure HeciDev where
  clients : ClientId → HeciClientCtrl
  connections : ConnId → HeciConn
  notifyNewClients : Bool
  registeredClients : ℕ
  hostRxDma : HostRxDmaInfo
  flowCtrlSems : ConnId → ℕ
  rxMsgs : RxPtr → HeciRxMsg
  events : List Event

namespace HeciDev

/-- Append events to the trace. -/
@[simps -fullyApplied] def emit (s : HeciDev) (evs : List Event) : HeciDev :=
  { s with events := s.events ++ evs }

/-- Append one event to the trace. -/
@[simps -fullyApplied] def log (s : HeciDev) (e : Event) : HeciDev :=
  { s with events := s.events ++ [e] }

/-- Replace an entry of the connection table. -/
@[simps -fullyApplied] def setConn (s : HeciDev) (c : ConnId) (x : HeciConn) : HeciDev :=
  { s with connections := Function.update s.connections c x }

/-- Replace an entry of the client table. -/
@[simps -fullyApplied] def setClient (s : HeciDev) (i : ClientId) (x : HeciClientCtrl) : HeciDev :=
  { s with clients := Function.update s.clients i x }

/-- Replace a receive buffer. -/
@[simps -fullyApplied] def setRx (s : HeciDev) (p : RxPtr) (x : HeciRxMsg) : HeciDev :=
  { s with rxMsgs := Function.update s.rxMsgs p x }

/-- Set the count of a semaphore. -/
@[simps -fullyApplied] def setSem (s : HeciDev) (c : ConnId) (n : ℕ) : HeciDev :=
  { s with flowCtrlSems := Function.update s.flowCtrlSems c n }

@[simp] theorem emit_nil (s : HeciDev) : s.emit [] = s := by simp [emit]

@[simp] theorem emit_emit (s : HeciDev) (e₁ e₂ : List Event) :
    (s.emit e₁).emit e₂ = s.emit (e₁ ++ e₂) := by simp [emit]

/-- **The state after power-up**: both tables are zero, and so are the static receive buffers,
except that the clients have already attached their memory to them. -/
structure Initial (s : HeciDev) : Prop where
  clients : ∀ i, s.clients i = HeciClientCtrl.zero
  connections : ∀ c, s.connections c = HeciConn.zero
  notifyNewClients : s.notifyNewClients = false
  registeredClients : s.registeredClients = 0
  hostRxDma : s.hostRxDma = HostRxDmaInfo.zero
  flowCtrlSems : ∀ c, s.flowCtrlSems c = 0
  rxMsgs : ∀ p, ∃ b, s.rxMsgs p = ⟨.request, 0, false, 0, b⟩
  events : s.events = []

end HeciDev

/-! ### The platform -/

/-- **The build configuration and the services below**: `useDma` and `sysMng` are
`CONFIG_HECI_USE_DMA` and `CONFIG_SYS_MNG`; the next three fields give the answer of a service to
the call that is made when the trace has the given length.  Every call leaves an event, so
quantifying over platforms covers every pattern of successes and failures.  `stack` is the memory
behind the packet a frame was read into, counted from the first byte of the payload. -/
structure Platform where
  useDma : Bool
  sysMng : Bool
  hostAccessReq : ℕ → ℤ
  ipcWriteMsg : ℕ → ℤ
  dmaCopy : ℕ → ℤ
  stack : ℕ → UInt8

end PseFw.Heci
