/-
**The PMC service.**

Applications send messages to the power management controller with `pmc_sync_send_msg`.  A call
takes a mutex, puts a pointer to its own copy of the message into a fifo and waits for
`pmc_msg_alert`; the thread of the service takes the message from the fifo, writes it to the PMC
and, when the caller wants a reply, waits for `ipc_alert`, which the interrupt handler gives for
every message of the PMC.  The messages of the PMC stand in one set of registers, which a new
message overwrites.

The drivers are not part of the repository: their results, and what they leave in a buffer when they
fail, come with the steps.

Main definitions:

* `PmcMsg`, `IpcMsg` — the messages of the callers and those of the PMC;
* `sendPmcIpcMsg`, `rcvPmcIpcMsg`, `pmcArgsOk` — what the functions compute;
* `PmcSys`, `PmcLabel`, `pmcStep` — the callers, the thread, the interrupt handler and the PMC.
-/

import PseFw.Lib.Transition
import Mathlib.Logic.Function.Basic
import Mathlib.Data.List.Basic
import Mathlib.Algebra.Order.Ring.Nat

set_option relaxedAutoImplicit false
set_option autoImplicit false

namespace PseFw.Pmc

/-- The values of `format`; there are two that no function knows. -/
inductive Format
  | short
  | long
  | sbRawWrite
  | sbRawRead
  | hwsbPmeReq
  | wireGlobalReset
  | other
  deriving DecidableEq, Repr

/-- `struct pmc_msg_t`; `u` are the bytes of the union. -/
structure PmcMsg where
  clientId : ℕ
  format : Format
  waitForAck : Bool
  msgSize : ℕ
  u : List UInt8
  deriving DecidableEq, Repr

/-- `struct pmc_msg_intrnl_t`. -/
structure PmcMsgIntrnl where
  status : Int
  usrMsg : PmcMsg
  deriving DecidableEq, Repr

/-- A message of the PMC: the doorbell and the payload in the registers. -/
structure IpcMsg where
  drbl : BitVec 32
  payload : List UInt8
  deriving DecidableEq, Repr

/-- `MAX_PECI_MSG_SIZE`. -/
abbrev maxPeciMsgSize : ℕ := 20

abbrev eInval : Int := -22
abbrev eNoMem : Int := -12
abbrev eAgain : Int := -11

/-- What goes out for a message. -/
inductive Outgoing
  | ipc (drbl : BitVec 32) (msg : List UInt8)
  | sidebandWriteRaw (rawMsg : List UInt8)
  | sidebandReadRaw (rawMsg : List UInt8)
  | triggerPme
  | globalReset
  deriving DecidableEq, Repr

/-- The doorbell of a long message: its size, and the busy bit. -/
def longDoorbell (m : PmcMsg) : BitVec 32 :=
  BitVec.ofNat 32 (m.msgSize % 2 ^ 10) ||| 1#32 <<< 31

/-- The doorbell of a short message: payload and command, version 1, short format, busy. -/
def shortDoorbell (m : PmcMsg) : BitVec 32 :=
  BitVec.ofNat 32 (m.u.getD 1 0).toNat ||| BitVec.ofNat 32 (m.u.getD 0 0).toNat <<< 14 |||
    1#32 <<< 22 ||| 1#32 <<< 27 ||| 1#32 <<< 31

/-- `send_pmc_ipc_msg`: what is written, and `none` for a format that is not known. -/
def sendPmcIpcMsg (m : PmcMsg) : Option Outgoing :=
  match m.format with
  | .long => some (.ipc (longDoorbell m) (m.u.take m.msgSize))
  | .short => some (.ipc (shortDoorbell m) [])
  | .sbRawWrite => some (.sidebandWriteRaw m.u)
  | .sbRawRead => some (.sidebandReadRaw m.u)
  | .hwsbPmeReq => some .triggerPme
  | .wireGlobalReset => some .globalReset
  | .other => none

/-- The four bytes of a doorbell in memory. -/
def doorbellBytes (d : BitVec 32) : List UInt8 :=
  [d.toNat.toUInt8, (d >>> 8).toNat.toUInt8, (d >>> 16).toNat.toUInt8, (d >>> 24).toNat.toUInt8]

/-- `ipc_read_msg` into a message: the payload of a long one, the doorbell of a short one, which is
the third member of `short_msg`. -/
def PmcMsg.readInto (m : PmcMsg) (i : IpcMsg) : PmcMsg :=
  match m.format with
  | .long => { m with u := i.payload.take m.msgSize ++ m.u.drop m.msgSize }
  | .short => { m with u := m.u.take 4 ++ doorbellBytes i.drbl ++ m.u.drop 8 }
  | _ => m

/-- Formats for which there is something to read. -/
def Format.readable : Format → Bool
  | .long => true
  | .short => true
  | _ => false

/-- `rcv_pmc_ipc_msg` behind the semaphore, on the message in the registers: the status and the
message.  `ret` is the result of the driver, `left` what it leaves when it fails. -/
def rcvPmcIpcMsg (ret : Int) (left : List UInt8) (i : IpcMsg) (m : PmcMsg) : PmcMsgIntrnl :=
  if m.format.readable then ⟨ret, if ret = 0 then m.readInto i else { m with u := left }⟩
  else ⟨eInval, m⟩

/-- The arguments `pmc_sync_send_msg` accepts. -/
def pmcArgsOk (maxClient : ℕ) (m : PmcMsg) : Bool :=
  m.clientId < maxClient && m.msgSize < maxPeciMsgSize

/-! ### The system -/

/-- How far a call of `pmc_sync_send_msg` is, with the message it was given; at the end its result
and the message it leaves. -/
inductive Call
  | idle
  | locking (usrMsg : PmcMsg)
  | locked (usrMsg : PmcMsg)
  | waiting (usrMsg : PmcMsg)
  | returned (usrMsg : PmcMsg) (ret : Int) (after : PmcMsg)
  deriving DecidableEq, Repr

/-- The request the thread is at: the call it belongs to, the message it found, what it wrote, how
many messages of the PMC there had been by then, and which one it read. -/
structure Serving where
  call : ℕ
  request : PmcMsg
  out : Option Outgoing
  writtenAt : ℕ
  readFrom : Option ℕ
  deriving DecidableEq, Repr

/-- Which message was read; for the other formats none is. -/
def Serving.afterRead (v : Serving) (k : ℕ) : Serving :=
  if v.request.format.readable then { v with readFrom := some k } else v

/-- How far `pmc_msg_thread` is. -/
inductive PmcThread
  | fifoGet
  | send (call : ℕ)
  | semTake (v : Serving)
  | read (v : Serving)
  | semGive (v : Serving)
  | rebooted
  deriving DecidableEq, Repr

/-- A request that was served, with what its caller is to get. -/
structure Served where
  serving : Serving
  result : PmcMsgIntrnl
  deriving DecidableEq, Repr

/-- The state: the calls, the copies of their messages, the kernel objects and the thread; and what
has come from the PMC and what was served. -/
structure PmcSys where
  calls : ℕ → Call
  pmcMsg : ℕ → PmcMsgIntrnl
  pmcMsgMutex : Option ℕ
  pmcServFifo : List ℕ
  pmcMsgAlert : Bool
  ipcAlert : Bool
  thread : PmcThread
  arrived : List IpcMsg
  served : List Served

/-- The steps: those of a call, those of the thread, and a message of the PMC. -/
inductive PmcLabel
  | call (id : ℕ) (usrMsg : PmcMsg)
  | lock (id : ℕ)
  | put (id : ℕ) (alloc : Bool)
  | take (id : ℕ)
  | get
  | send (ret : Int) (raw : List UInt8)
  | semTake
  | timeout
  | read (ret : Int) (left : List UInt8)
  | give
  | arrive (i : IpcMsg)
  deriving DecidableEq, Repr

/-- The message after it was sent: `sideband_read_raw` writes into it. -/
def PmcMsg.afterSend (m : PmcMsg) (raw : List UInt8) : PmcMsg :=
  if m.format = .sbRawRead then { m with u := raw } else m

/-- The request the thread is about to write. -/
def PmcSys.serving (s : PmcSys) (id : ℕ) : Serving :=
  ⟨id, (s.pmcMsg id).usrMsg, sendPmcIpcMsg (s.pmcMsg id).usrMsg, s.arrived.length, none⟩

/-- `send_pmc_ipc_msg` and what the thread does with its result. -/
def threadSend (id : ℕ) (ret : Int) (raw : List UInt8) (s : PmcSys) : PmcSys :=
  match sendPmcIpcMsg (s.pmcMsg id).usrMsg with
  | none =>
      { s with
        pmcMsg := Function.update s.pmcMsg id ⟨eInval, (s.pmcMsg id).usrMsg⟩
        thread := .semGive (s.serving id) }
  | some .globalReset => { s with thread := .rebooted }
  | some _ =>
      { s with
        pmcMsg := Function.update s.pmcMsg id ⟨ret, (s.pmcMsg id).usrMsg.afterSend raw⟩
        thread :=
          if ret = 0 ∧ (s.pmcMsg id).usrMsg.waitForAck = true then .semTake (s.serving id)
          else .semGive (s.serving id) }

/-- The step function. -/
def pmcStep (maxClient : ℕ) : PmcLabel → PmcSys → Option PmcSys
  | .call id m, s =>
      if s.calls id = .idle then
        some { s with
          calls := Function.update s.calls id
            (if pmcArgsOk maxClient m then .locking m else .returned m eInval m) }
      else none
  | .lock id, s =>
      match s.calls id, s.pmcMsgMutex with
      | .locking m, none =>
          some { s with
            calls := Function.update s.calls id (.locked m)
            pmcMsg := Function.update s.pmcMsg id ⟨0, m⟩
            pmcMsgMutex := some id }
      | _, _ => none
  | .put id alloc, s =>
      match s.calls id with
      | .locked m =>
          if alloc then
            some { s with
              calls := Function.update s.calls id (.waiting m)
              pmcServFifo := s.pmcServFifo ++ [id] }
          else
            some { s with
              calls := Function.update s.calls id (.returned m eNoMem m)
              pmcMsgMutex := none }
      | _ => none
  | .take id, s =>
      match s.calls id, s.pmcMsgAlert with
      | .waiting m, true =>
          some { s with
            calls := Function.update s.calls id
              (.returned m (s.pmcMsg id).status (s.pmcMsg id).usrMsg)
            pmcMsgAlert := false
            pmcMsgMutex := none }
      | _, _ => none
  | .get, s =>
      match s.thread, s.pmcServFifo with
      | .fifoGet, id :: rest => some { s with thread := .send id, pmcServFifo := rest }
      | _, _ => none
  | .send ret raw, s =>
      match s.thread with
      | .send id => some (threadSend id ret raw s)
      | _ => none
  | .semTake, s =>
      match s.thread, s.ipcAlert with
      | .semTake v, true => some { s with thread := .read v, ipcAlert := false }
      | _, _ => none
  | .timeout, s =>
      match s.thread, s.ipcAlert with
      | .semTake v, false =>
          some { s with
            pmcMsg := Function.update s.pmcMsg v.call ⟨eAgain, (s.pmcMsg v.call).usrMsg⟩
            thread := .semGive v }
      | _, _ => none
  | .read ret left, s =>
      match s.thread, s.arrived.getLast? with
      | .read v, some i =>
          some { s with
            pmcMsg := Function.update s.pmcMsg v.call
              (rcvPmcIpcMsg ret left i (s.pmcMsg v.call).usrMsg)
            thread := .semGive (v.afterRead (s.arrived.length - 1)) }
      | _, _ => none
  | .give, s =>
      match s.thread with
      | .semGive v =>
          some { s with
            pmcMsgAlert := true
            thread := .fifoGet
            served := s.served ++ [⟨v, s.pmcMsg v.call⟩] }
      | _ => none
  | .arrive i, s => some { s with arrived := s.arrived ++ [i], ipcAlert := true }

/-- Before the first call. -/
structure PmcInit (s : PmcSys) : Prop where
  calls : ∀ id, s.calls id = .idle
  pmcMsgMutex : s.pmcMsgMutex = none
  pmcServFifo : s.pmcServFifo = []
  pmcMsgAlert : s.pmcMsgAlert = false
  ipcAlert : s.ipcAlert = false
  thread : s.thread = .fifoGet
  arrived : s.arrived = []
  served : s.served = []

/-- A state before the first call. -/
def pmcIdle : PmcSys where
  calls := fun _ => .idle
  pmcMsg := fun _ => ⟨0, ⟨0, .short, false, 0, []⟩⟩
  pmcMsgMutex := none
  pmcServFifo := []
  pmcMsgAlert := false
  ipcAlert := false
  thread := .fifoGet
  arrived := []
  served := []

theorem pmcInit_idle : PmcInit pmcIdle := ⟨fun _ => rfl, rfl, rfl, rfl, rfl, rfl, rfl, rfl⟩

end PseFw.Pmc
