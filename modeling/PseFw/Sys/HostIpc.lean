/-
**The dispatch of the host's messages.**

The host writes a message into the mailbox and rings the doorbell.  The interrupt only wakes the
task of the host service; the task reads the doorbell once more and calls the handler of its
protocol, and somewhere in the handler the message is acknowledged.  From then on the host may write
the next message and ring again, while the handler is still at work.  The semaphore between the
interrupt and the task is binary, the doorbell is a single register, and the mailbox is not copied
before the handler asks for it.

What a handler does behind its acknowledgement (the HECI messages it sends, the system service it
asks, the boot it starts) is one finish step here, and the handler is taken to return from it.

This module puts the host, the interrupt and the task together and lets them take their steps in any
order.  The host keeps one rule: it does not touch the mailbox or the doorbell before the last
message is acknowledged.

Main definitions:

* `PseFw.HostIpc.protocolCb` — the handlers that are registered;
* `PseFw.HostIpc.program` — what the task does with a doorbell;
* `PseFw.HostIpc.ipcStep` — the host, the interrupt and the task;
* `PseFw.HostIpc.DispatchOk` — every message is handled once, in order and as it was written.

Main results:

* `PseFw.HostIpc.dispatchOk_of_reachable` — **safety, for every interleaving**;
* `PseFw.HostIpc.ipc_settles` — **every message is handled and acknowledged** by the firmware alone.
-/

import PseFw.Heci.ClientMsg
import PseFw.Mng.Handler
import PseFw.Lib.Transition

set_option relaxedAutoImplicit false
set_option autoImplicit false

namespace PseFw.HostIpc

open SysMng (ipcProtocolMng ipcHeaderGetProtocol ipcHeaderGetMngCmd mngD0Notify)
open Heci (ipcProtocolHeci ipcHeaderGetLength ipcDataLenMax)

/-! ### The handlers -/

/-- `IPC_PROTOCOL_BOOT`. -/
abbrev ipcProtocolBoot : UInt32 := 0

/-- `MAX_SERVICE_CLIENTS`. -/
abbrev maxServiceClients : UInt32 := 16

/-- `BIT(IPC_DRBL_BUSY_OFFS)`. -/
abbrev busyBit : UInt32 := (1 : UInt32) <<< 31

/-- The handlers of the firmware. -/
inductive IpcHandler
  /-- `ipc_heci_handler`. -/
  | heci
  /-- `sys_mng_handler`. -/
  | sysMng
  /-- `sys_boot_handler`. -/
  | sysBoot
  deriving DecidableEq, Repr

/-- `protocol_cb`. -/
abbrev ProtocolCb := UInt32 → Option IpcHandler

/-- `host_protocol_register`. -/
def hostProtocolRegister (protocolId : UInt32) (handler : IpcHandler) (cb : ProtocolCb) :
    ℤ × ProtocolCb :=
  if protocolId ≥ maxServiceClients then (-1, cb)
  else if cb protocolId ≠ none then (-1, cb)
  else (0, Function.update cb protocolId (some handler))

/-- The parts that are built in. -/
structure IpcConfig where
  /-- `CONFIG_HECI`. -/
  heci : Bool
  /-- `CONFIG_SYS_MNG`. -/
  sysMng : Bool

/-- `heci_init`, as far as it registers its handler. -/
def heciInit (cb : ProtocolCb) : ProtocolCb := (hostProtocolRegister ipcProtocolHeci .heci cb).2

/-- `mng_and_boot_init`, as far as it registers its handlers. -/
def mngAndBootInit (cb : ProtocolCb) : ProtocolCb :=
  let r := hostProtocolRegister ipcProtocolMng .sysMng cb
  if r.1 ≠ 0 then r.2 else (hostProtocolRegister ipcProtocolBoot .sysBoot r.2).2

/-- The table when `ipc_rx_task` enters its loop. -/
def protocolCb (c : IpcConfig) : ProtocolCb :=
  let cb : ProtocolCb := fun _ => none
  let cb := if c.heci then heciInit cb else cb
  if c.sysMng then mngAndBootInit cb else cb

/-- What a handler does with the mailbox and the doorbell. -/
inductive IpcAct
  /-- `ipc_read_msg`, for a number of bytes. -/
  | read (n : ℕ)
  /-- `ipc_send_ack`. -/
  | ack (drbl : UInt32)
  /-- The rest of the handler. -/
  | finish
  deriving DecidableEq, Repr

/-- `drbl & (~BIT(IPC_DRBL_BUSY_OFFS))`. -/
def drblAck (drbl : UInt32) : UInt32 := drbl &&& ~~~busyBit

/-- **What the task does with a doorbell**, by its handler. -/
def program (drbl : UInt32) : Option IpcHandler → List IpcAct
  | none => [.ack (drblAck drbl)]
  | some .heci =>
      let msgLen := (ipcHeaderGetLength drbl).toNat
      if msgLen > ipcDataLenMax then [.ack (drblAck drbl), .finish]
      else [.read msgLen, .ack (drblAck drbl), .finish]
  | some .sysMng => [.read 128, .ack (drblAck drbl), .finish]
  | some .sysBoot => [.ack 0, .finish]

/-! ### The system -/

/-- A message of the host: the doorbell, and what is in the mailbox. -/
structure HostMsg where
  drbl : UInt32
  inbox : List UInt8
  deriving DecidableEq, Repr

/-- **A message that was handled**: by whom, and what was read from the mailbox. -/
structure Dispatch where
  drbl : UInt32
  handler : Option IpcHandler
  data : List UInt8
  deriving DecidableEq, Repr

/-- Where `ipc_rx_task` is. -/
inductive TaskPc
  /-- Before the handlers are registered. -/
  | init
  /-- In `k_sem_take`. -/
  | take
  /-- Before the doorbell is read. -/
  | read
  /-- In a handler, with what is left to do and the bytes that were read. -/
  | run (drbl : UInt32) (handler : Option IpcHandler) (acts : List IpcAct) (data : List UInt8)
  deriving DecidableEq, Repr

/-- **The host service**, and what was done so far. -/
structure IpcSys where
  /-- The doorbell register. -/
  drbl : UInt32
  mailbox : List UInt8
  /-- The interrupt of the doorbell is pending. -/
  irq : Bool
  /-- `sem_ipc_read` is available. -/
  semIpcRead : Bool
  task : TaskPc
  /-- The number of times the interrupt gave `sem_rtd3`. -/
  rtd3Gives : ℕ
  /-- The messages of the host, in their order. -/
  rung : List HostMsg
  handled : List Dispatch
  /-- The acknowledgements, in their order. -/
  acks : List UInt32
  deriving DecidableEq

/-- The service starts. -/
def IpcSys.start : IpcSys where
  drbl := 0
  mailbox := []
  irq := false
  semIpcRead := false
  task := .init
  rtd3Gives := 0
  rung := []
  handled := []
  acks := []

/-- The last message is not acknowledged. -/
def IpcSys.busy (s : IpcSys) : Bool := s.drbl &&& busyBit != 0

/-- The message tells that the host is back in D0. -/
def isD0Notify (drbl : UInt32) : Bool :=
  ipcHeaderGetProtocol drbl == ipcProtocolMng && ipcHeaderGetMngCmd drbl == mngD0Notify

/-- `ipc_rx_handler`. -/
def ipcRxHandler (s : IpcSys) : IpcSys :=
  { s with
    irq := false
    semIpcRead := true
    rtd3Gives := s.rtd3Gives + (isD0Notify s.drbl).toNat }

/-- The next step of `ipc_rx_task`. -/
def taskNext (c : IpcConfig) (s : IpcSys) : Option IpcSys :=
  match s.task with
  | .init => some { s with task := .take }
  | .take => if s.semIpcRead then some { s with semIpcRead := false, task := .read } else none
  | .read =>
      let handler := protocolCb c (ipcHeaderGetProtocol s.drbl)
      some { s with task := .run s.drbl handler (program s.drbl handler) [] }
  | .run drbl handler [] data => some { s with
      task := .take
      handled := s.handled ++ [⟨drbl, handler, data⟩] }
  | .run drbl handler (.read n :: acts) data =>
      some { s with task := .run drbl handler acts (data ++ s.mailbox.take n) }
  | .run drbl handler (.ack a :: acts) data => some { s with
      drbl := s.drbl &&& ~~~busyBit
      acks := s.acks ++ [a]
      task := .run drbl handler acts data }
  | .run drbl handler (.finish :: acts) data => some { s with task := .run drbl handler acts data }

/-- What can happen. -/
inductive IpcLabel
  /-- The host writes into the mailbox. -/
  | hostWrite (data : List UInt8)
  /-- The host rings. -/
  | ring (drbl : UInt32)
  /-- The interrupt. -/
  | isr
  | task
  deriving DecidableEq, Repr

/-- **One step of the service**; the host waits for its acknowledgement. -/
def ipcStep (c : IpcConfig) : IpcLabel → IpcSys → Option IpcSys
  | .hostWrite data, s => if s.busy then none else some { s with mailbox := data }
  | .ring drbl, s =>
      if s.busy = true ∨ drbl &&& busyBit = 0 then none
      else some { s with drbl := drbl, irq := true, rung := s.rung ++ [⟨drbl, s.mailbox⟩] }
  | .isr, s => if s.irq then some (ipcRxHandler s) else none
  | .task, s => taskNext c s

/-- The service starts. -/
def IpcInit (s : IpcSys) : Prop := s = .start

/-- **The states of the service, in any order of the steps.** -/
def Reachable (c : IpcConfig) (s : IpcSys) : Prop := Lts.Reach IpcInit (ipcStep c) Lts.Free s

/-! ### What a message asks for -/

/-- The handler of a message. -/
def handlerOf (c : IpcConfig) (m : HostMsg) : Option IpcHandler :=
  protocolCb c (ipcHeaderGetProtocol m.drbl)

/-- The bytes the handler has to see. -/
def dataOf (c : IpcConfig) (m : HostMsg) : List UInt8 :=
  match handlerOf c m with
  | some .heci =>
      if (ipcHeaderGetLength m.drbl).toNat > ipcDataLenMax then []
      else m.inbox.take (ipcHeaderGetLength m.drbl).toNat
  | some .sysMng => m.inbox.take 128
  | _ => []

/-- The acknowledgement of a message. -/
def ackOf (c : IpcConfig) (m : HostMsg) : UInt32 :=
  if handlerOf c m = some .sysBoot then 0 else drblAck m.drbl

/-- **What has to be done with a message.** -/
def dispatchOf (c : IpcConfig) (m : HostMsg) : Dispatch := ⟨m.drbl, handlerOf c m, dataOf c m⟩

/-- **What the service promises**: the messages are handled in the order of the host, each once, by
the handler of its protocol and with the bytes the host wrote; at most the last two are not handled
yet.  They are acknowledged in this order, each once, and the host may write exactly when every one
of them is.  The host access is woken once for each D0 notification, before its handler runs. -/
structure DispatchOk (c : IpcConfig) (s : IpcSys) : Prop where
  handled : ∃ waiting, s.rung.map (dispatchOf c) = s.handled ++ waiting ∧ waiting.length ≤ 2
  acks : ∃ waiting, s.rung.map (ackOf c) = s.acks ++ waiting ∧ waiting.length = s.busy.toNat
  rtd3 : s.rtd3Gives =
    (s.rung.take (s.rung.length - s.irq.toNat)).countP fun m => isD0Notify m.drbl
  early : s.handled.countP (fun d => isD0Notify d.drbl) ≤ s.rtd3Gives

/-! ### The program of a handler -/

variable {c : IpcConfig} {s s' : IpcSys} {m : HostMsg} {done cur new : List HostMsg}

/-- The number of bytes a handler reads before it acknowledges. -/
def readLen (drbl : UInt32) : Option IpcHandler → Option ℕ
  | some .heci =>
      let msgLen := (ipcHeaderGetLength drbl).toNat
      if msgLen > ipcDataLenMax then none else some msgLen
  | some .sysMng => some 128
  | _ => none

/-- What a handler does after it has acknowledged. -/
def afterAck : Option IpcHandler → List IpcAct
  | none => []
  | some _ => [.finish]

/-- **A handler reads, acknowledges and goes on.** -/
theorem program_eq (c : IpcConfig) (m : HostMsg) : program m.drbl (handlerOf c m) =
    (readLen m.drbl (handlerOf c m)).toList.map .read ++
      .ack (ackOf c m) :: afterAck (handlerOf c m) := by
  unfold ackOf
  cases handlerOf c m with
  | none => rfl
  | some h =>
      cases h with
      | heci =>
          simp only [program, readLen]
          split <;> rfl
      | sysMng => rfl
      | sysBoot => rfl

/-- The bytes a message asks for are those its handler reads. -/
theorem dataOf_eq (c : IpcConfig) (m : HostMsg) :
    dataOf c m = (readLen m.drbl (handlerOf c m)).elim [] m.inbox.take := by
  unfold dataOf
  cases handlerOf c m with
  | none => rfl
  | some h =>
      cases h with
      | heci =>
          simp only [readLen]
          split <;> rfl
      | sysMng => rfl
      | sysBoot => rfl

/-- An acknowledged doorbell is free. -/
theorem drblAck_and_busyBit (d : UInt32) : (d &&& ~~~busyBit) &&& busyBit = 0 := by
  have h : ~~~busyBit &&& busyBit = 0 := by decide
  rw [UInt32.and_assoc, h, UInt32.and_zero]

/-! ### What holds between any two steps -/

/-- The message in the registers. -/
def IpcSys.bell (s : IpcSys) : HostMsg := ⟨s.drbl, s.mailbox⟩

/-- The firmware has not begun with `new`: the interrupt is pending, or the semaphore was given. -/
inductive Pending (s : IpcSys) : List HostMsg → Prop
  | nothing : s.busy = false → s.irq = false → s.semIpcRead = false → Pending s []
  | irq : s.busy = true → s.irq = true → s.semIpcRead = false → Pending s [s.bell]
  | sem : s.busy = true → s.irq = false → s.semIpcRead = true → Pending s [s.bell]

/-- The message in the registers is being dealt with. -/
structure Taken (s : IpcSys) : Prop where
  busy : s.busy = true
  irq : s.irq = false
  sem : s.semIpcRead = false

/-- **Where the task is**, with the message `cur` in its hands, and `new` not begun. -/
inductive Phase (c : IpcConfig) (s : IpcSys) :
    (cur new acked : List HostMsg) → Prop
  | init {new : List HostMsg} : s.task = .init → Pending s new → Phase c s [] new []
  | take {new : List HostMsg} : s.task = .take → Pending s new → Phase c s [] new []
  | read : s.task = .read → Taken s → Phase c s [] [s.bell] []
  | before : s.task = .run s.drbl (handlerOf c s.bell) (program s.drbl (handlerOf c s.bell)) [] →
      Taken s → Phase c s [s.bell] [] []
  | ack : s.task = .run s.drbl (handlerOf c s.bell)
        (.ack (ackOf c s.bell) :: afterAck (handlerOf c s.bell)) (dataOf c s.bell) →
      Taken s → Phase c s [s.bell] [] []
  | after (m : HostMsg) (acts : List IpcAct) {new : List HostMsg} :
      s.task = .run m.drbl (handlerOf c m) acts (dataOf c m) →
      acts = [] ∨ acts = [.finish] → Pending s new → Phase c s [m] new [m]

/-- **The invariant.** -/
structure IpcInv (c : IpcConfig) (s : IpcSys) (done cur new acked : List HostMsg) : Prop where
  rung : s.rung = done ++ cur ++ new
  handled : s.handled = done.map (dispatchOf c)
  acks : s.acks = (done ++ acked).map (ackOf c)
  phase : Phase c s cur new acked
  rtd3 : s.rtd3Gives =
    (s.rung.take (s.rung.length - s.irq.toNat)).countP fun m => isD0Notify m.drbl

theorem ipcInv_start (c : IpcConfig) : IpcInv c .start [] [] [] [] where
  rung := rfl
  handled := rfl
  acks := rfl
  phase := .init rfl (.nothing rfl rfl rfl)
  rtd3 := rfl

/-- A pending message stays pending while the task goes on. -/
theorem Pending.congr (h : Pending s new) (hd : s'.drbl = s.drbl) (hm : s'.mailbox = s.mailbox)
    (hi : s'.irq = s.irq) (hs : s'.semIpcRead = s.semIpcRead) : Pending s' new := by
  have hbusy : s'.busy = s.busy := by rw [IpcSys.busy, IpcSys.busy, hd]
  have hbell : s'.bell = s.bell := by rw [IpcSys.bell, IpcSys.bell, hd, hm]
  cases h with
  | nothing h₁ h₂ h₃ => exact .nothing (hbusy.trans h₁) (hi.trans h₂) (hs.trans h₃)
  | irq h₁ h₂ h₃ => exact hbell ▸ .irq (hbusy.trans h₁) (hi.trans h₂) (hs.trans h₃)
  | sem h₁ h₂ h₃ => exact hbell ▸ .sem (hbusy.trans h₁) (hi.trans h₂) (hs.trans h₃)

/-- The acknowledgement: the host may go on. -/
theorem IpcInv.ack {acked : List HostMsg} (h : IpcInv c s done [s.bell] [] acked)
    (hacked : acked = [])
    (hpc : s.task = .run s.drbl (handlerOf c s.bell)
      (.ack (ackOf c s.bell) :: afterAck (handlerOf c s.bell)) (dataOf c s.bell))
    (ht : Taken s) (hst : taskNext c s = some s') :
    IpcInv c s' done [s.bell] [] [s.bell] := by
  simp only [taskNext, hpc, Option.some.injEq] at hst
  subst hst
  refine ⟨h.rung, h.handled, ?_, .after s.bell _ rfl ?_ (.nothing ?_ ht.irq ht.sem), h.rtd3⟩
  · change s.acks ++ [ackOf c s.bell] = _
    rw [h.acks, hacked, List.append_nil, List.map_append]
    rfl
  · cases handlerOf c s.bell with
    | none => exact Or.inl rfl
    | some _ => exact Or.inr rfl
  · change (s.drbl &&& ~~~busyBit &&& busyBit != 0) = false
    rw [drblAck_and_busyBit]
    rfl

/-- **The task keeps the invariant.** -/
theorem IpcInv.taskNext {acked : List HostMsg} (h : IpcInv c s done cur new acked)
    (hst : taskNext c s = some s') : ∃ done cur new acked, IpcInv c s' done cur new acked := by
  have hinv := h
  obtain ⟨hrung, hhandled, hacks, hphase, hrtd3⟩ := h
  cases hphase with
  | init hpc hp =>
      simp only [HostIpc.taskNext, hpc, Option.some.injEq] at hst
      subst hst
      exact ⟨done, [], new, [], hrung, hhandled, hacks,
        .take rfl (hp.congr rfl rfl rfl rfl), hrtd3⟩
  | take hpc hp =>
      simp only [HostIpc.taskNext, hpc] at hst
      obtain ⟨hsem, hst⟩ := Option.ite_none_right_eq_some.1 hst
      obtain rfl := Option.some.inj hst
      cases hp with
      | nothing _ _ h₃ => rw [h₃] at hsem; cases hsem
      | irq _ _ h₃ => rw [h₃] at hsem; cases hsem
      | sem h₁ h₂ _ =>
          exact ⟨done, [], [s.bell], [], hrung, hhandled, hacks,
            .read rfl ⟨h₁, h₂, rfl⟩, hrtd3⟩
  | read hpc ht =>
      simp only [HostIpc.taskNext, hpc, Option.some.injEq] at hst
      subst hst
      refine ⟨done, [s.bell], [], [], ?_, hhandled, hacks, .before rfl ⟨ht.1, ht.2, ht.3⟩, hrtd3⟩
      rw [List.append_nil, ← List.append_nil done]
      exact hrung
  | before hpc ht =>
      have hprog := program_eq c s.bell
      have hdata := dataOf_eq c s.bell
      rw [show s.bell.drbl = s.drbl from rfl] at hprog hdata
      rw [hprog] at hpc
      cases hr : readLen s.drbl (handlerOf c s.bell) with
      | none =>
          -- nothing is read: this is the acknowledgement
          rw [hr] at hpc hdata
          exact ⟨done, [s.bell], [], [s.bell], hinv.ack rfl (by rw [hdata]; exact hpc) ht hst⟩
      | some n =>
          rw [hr] at hpc hdata
          simp only [HostIpc.taskNext, hpc, Option.toList_some, List.map_cons, List.map_nil,
            List.cons_append, List.nil_append, Option.some.injEq] at hst
          subst hst
          refine ⟨done, [s.bell], [], [], hrung, hhandled, hacks, .ack ?_ ⟨ht.1, ht.2, ht.3⟩, hrtd3⟩
          change _ = TaskPc.run s.drbl (handlerOf c s.bell) _ (dataOf c s.bell)
          rw [hdata]
          rfl
  | ack hpc ht => exact ⟨done, [s.bell], [], [s.bell], hinv.ack rfl hpc ht hst⟩
  | after m acts hpc hacts hp =>
      rcases hacts with rfl | rfl
      · -- the handler returns
        simp only [HostIpc.taskNext, hpc, Option.some.injEq] at hst
        subst hst
        refine ⟨done ++ [m], [], new, [], ?_, ?_, ?_, .take rfl (hp.congr rfl rfl rfl rfl), hrtd3⟩
        · rw [List.append_nil]
          exact hrung
        · change s.handled ++ [dispatchOf c m] = _
          rw [hhandled, List.map_append]
          rfl
        · rw [List.append_nil]
          exact hacks
      · simp only [HostIpc.taskNext, hpc, Option.some.injEq] at hst
        subst hst
        exact ⟨done, [m], new, [m], hrung, hhandled, hacks,
          .after m [] rfl (Or.inl rfl) (hp.congr rfl rfl rfl rfl), hrtd3⟩

/-- The host writes or rings only when nothing is begun. -/
theorem Phase.free {acked : List HostMsg} (h : Phase c s cur new acked) (hbusy : s.busy = false) :
    new = [] ∧ s.irq = false ∧ s.semIpcRead = false ∧ acked = cur := by
  have hp : ∀ {new}, Pending s new → new = [] ∧ s.irq = false ∧ s.semIpcRead = false := by
    intro new hp
    cases hp with
    | nothing _ h₂ h₃ => exact ⟨rfl, h₂, h₃⟩
    | irq h₁ _ _ => rw [hbusy] at h₁; cases h₁
    | sem h₁ _ _ => rw [hbusy] at h₁; cases h₁
  have ht : ¬ Taken s := fun ht => by
    have := ht.busy
    rw [hbusy] at this
    cases this
  cases h with
  | init _ h => exact ⟨(hp h).1, (hp h).2.1, (hp h).2.2, rfl⟩
  | take _ h => exact ⟨(hp h).1, (hp h).2.1, (hp h).2.2, rfl⟩
  | read _ h => exact absurd h ht
  | before _ h => exact absurd h ht
  | ack _ h => exact absurd h ht
  | after m acts _ _ h => exact ⟨(hp h).1, (hp h).2.1, (hp h).2.2, rfl⟩

/-- An interrupt that is pending belongs to a message nobody has begun. -/
theorem Phase.interrupt {acked : List HostMsg} (h : Phase c s cur new acked)
    (hirq : s.irq = true) : new = [s.bell] ∧ s.busy = true ∧ ¬ Taken s := by
  have hnot : ¬ Taken s := fun ht => Bool.false_ne_true (ht.irq.symm.trans hirq)
  have hp : ∀ {new}, Pending s new → new = [s.bell] ∧ s.busy = true := by
    intro new hp
    cases hp with
    | nothing _ h₂ _ => rw [hirq] at h₂; cases h₂
    | irq h₁ _ _ => exact ⟨rfl, h₁⟩
    | sem _ h₂ _ => rw [hirq] at h₂; cases h₂
  cases h with
  | init _ h => exact ⟨(hp h).1, (hp h).2, hnot⟩
  | take _ h => exact ⟨(hp h).1, (hp h).2, hnot⟩
  | read _ h => exact absurd h hnot
  | before _ h => exact absurd h hnot
  | ack _ h => exact absurd h hnot
  | after m acts _ _ h => exact ⟨(hp h).1, (hp h).2, hnot⟩

/-- What is pending changes, and the task does not notice. -/
theorem Phase.pend {acked new' : List HostMsg} (h : Phase c s cur new acked)
    (hnot : ¬ Taken s) (htask : s'.task = s.task) (hp : Pending s' new') :
    Phase c s' cur new' acked := by
  cases h with
  | init hpc _ => exact .init (htask.trans hpc) hp
  | take hpc _ => exact .take (htask.trans hpc) hp
  | read _ ht => exact absurd ht hnot
  | before _ ht => exact absurd ht hnot
  | ack _ ht => exact absurd ht hnot
  | after m acts hpc hacts _ => exact .after m acts (htask.trans hpc) hacts hp

/-- **Every step keeps the invariant.** -/
theorem IpcInv.step {acked : List HostMsg} {l : IpcLabel} (h : IpcInv c s done cur new acked)
    (hst : ipcStep c l s = some s') : ∃ done cur new acked, IpcInv c s' done cur new acked := by
  cases l with
  | hostWrite data =>
      obtain ⟨hbusy, hst⟩ := Option.ite_none_left_eq_some.1 hst
      rw [Bool.not_eq_true] at hbusy
      obtain rfl := Option.some.inj hst
      obtain ⟨rfl, hirq, hsem, -⟩ := h.phase.free hbusy
      have hnot : ¬ Taken s := fun ht => Bool.false_ne_true (hbusy.symm.trans ht.busy)
      exact ⟨done, cur, [], acked, h.rung, h.handled, h.acks,
        h.phase.pend hnot rfl (.nothing hbusy hirq hsem), h.rtd3⟩
  | ring drbl =>
      obtain ⟨hbusy, hst⟩ := Option.ite_none_left_eq_some.1 hst
      rw [not_or, Bool.not_eq_true] at hbusy
      obtain rfl := Option.some.inj hst
      obtain ⟨rfl, hirq, hsem, -⟩ := h.phase.free hbusy.1
      have hnot : ¬ Taken s := fun ht => Bool.false_ne_true (hbusy.1.symm.trans ht.busy)
      have hrtd3 := h.rtd3
      rw [hirq, Bool.toNat_false, Nat.sub_zero, List.take_length] at hrtd3
      refine ⟨done, cur, [⟨drbl, s.mailbox⟩], acked, ?_, h.handled, h.acks,
        h.phase.pend hnot rfl (.irq ?_ rfl hsem), ?_⟩
      · change s.rung ++ _ = _
        rw [h.rung, List.append_nil]
      · exact bne_iff_ne.2 hbusy.2
      · change s.rtd3Gives = _
        simp only [List.length_append, List.length_singleton, Bool.toNat_true,
          Nat.add_sub_cancel, List.take_left]
        exact hrtd3
  | isr =>
      obtain ⟨hirq, hst⟩ := Option.ite_none_right_eq_some.1 hst
      obtain rfl := Option.some.inj hst
      obtain ⟨rfl, hbusy, hnot⟩ := h.phase.interrupt hirq
      refine ⟨done, cur, [s.bell], acked, h.rung, h.handled, h.acks,
        h.phase.pend hnot rfl (.sem hbusy rfl rfl), ?_⟩
      have hrtd3 := h.rtd3
      rw [hirq, h.rung, Bool.toNat_true, List.length_append, List.length_singleton,
        Nat.add_sub_cancel, List.take_left] at hrtd3
      change s.rtd3Gives + (isD0Notify s.drbl).toNat = List.countP _ (s.rung.take s.rung.length)
      rw [List.take_length, h.rung, List.countP_append, ← hrtd3, List.countP_singleton]
      change _ = s.rtd3Gives + if isD0Notify s.drbl = true then 1 else 0
      cases isD0Notify s.drbl <;> rfl
  | task => exact h.taskNext hst

/-- **The invariant holds in every state.** -/
theorem ipcInv_of_reachable (h : Reachable c s) :
    ∃ done cur new acked, IpcInv c s done cur new acked := by
  refine h.invariant (I := fun s => ∃ done cur new acked, IpcInv c s done cur new acked) ?_ ?_
  · rintro s hs
    rw [hs]
    exact ⟨[], [], [], [], ipcInv_start c⟩
  · rintro s l s' ⟨done, cur, new, acked, hs⟩ - hst
    exact hs.step hst

/-! ### Safety -/

/-- One message in the hands of the task, and one that is not begun. -/
theorem Phase.lengths {acked : List HostMsg} (h : Phase c s cur new acked) :
    (cur ++ new).length ≤ 2 ∧
      ∃ rest, cur ++ new = acked ++ rest ∧ rest.length = s.busy.toNat := by
  have hp : ∀ {new}, Pending s new → new.length = s.busy.toNat := by
    intro new hp
    cases hp with
    | nothing h₁ _ _ => rw [h₁]; rfl
    | irq h₁ _ _ => rw [h₁]; rfl
    | sem h₁ _ _ => rw [h₁]; rfl
  have hle : s.busy.toNat ≤ 1 := Bool.toNat_le _
  cases h with
  | init _ h =>
      have := hp h
      exact ⟨by simp only [List.nil_append]; omega, new, rfl, this⟩
  | take _ h =>
      have := hp h
      exact ⟨by simp only [List.nil_append]; omega, new, rfl, this⟩
  | read _ h => exact ⟨by simp, [s.bell], rfl, by rw [h.busy]; rfl⟩
  | before _ h => exact ⟨by simp, [s.bell], rfl, by rw [h.busy]; rfl⟩
  | ack _ h => exact ⟨by simp, [s.bell], rfl, by rw [h.busy]; rfl⟩
  | after m acts _ _ h =>
      have := hp h
      exact ⟨by simp only [List.cons_append, List.nil_append, List.length_cons]; omega, new, rfl,
        this⟩

/-- **Safety, for every interleaving.** -/
theorem dispatchOk_of_reachable (h : Reachable c s) : DispatchOk c s := by
  obtain ⟨done, cur, new, acked, hs⟩ := ipcInv_of_reachable h
  obtain ⟨hlen, rest, hrest, hbusy⟩ := hs.phase.lengths
  have hrung : s.rung = done ++ (cur ++ new) := by rw [hs.rung, List.append_assoc]
  refine ⟨⟨(cur ++ new).map (dispatchOf c), ?_, ?_⟩, ⟨rest.map (ackOf c), ?_, ?_⟩, hs.rtd3, ?_⟩
  · rw [hrung, List.map_append, hs.handled]
  · rwa [List.length_map]
  · rw [hrung, hrest, hs.acks, ← List.map_append, List.append_assoc]
  · rwa [List.length_map]
  · have hd0 : s.handled.countP (fun d => isD0Notify d.drbl) =
        done.countP fun m => isD0Notify m.drbl := by
      rw [hs.handled, List.countP_map]
      rfl
    have hle : done.length ≤ s.rung.length - s.irq.toNat := by
      cases hirq : s.irq with
      | false =>
          rw [hrung, List.length_append]
          exact Nat.le_add_right _ _
      | true =>
          obtain ⟨rfl, -, -⟩ := hs.phase.interrupt hirq
          rw [hs.rung, List.length_append, List.length_append]
          simp only [List.length_singleton, Bool.toNat_true]
          omega
    rw [hd0, hs.rtd3]
    refine List.Sublist.countP_le ?_
    have hpre : done = s.rung.take done.length := by rw [hrung, List.take_left]
    rw [hpre]
    exact List.take_sublist_take_left hle

/-! ### Progress -/

/-- **Every message is handled and acknowledged**, and the task waits for the next one. -/
structure Settled (c : IpcConfig) (s : IpcSys) : Prop where
  free : s.busy = false
  waits : s.task = .take ∧ s.irq = false ∧ s.semIpcRead = false
  handled : s.handled = s.rung.map (dispatchOf c)
  acks : s.acks = s.rung.map (ackOf c)

/-- The firmware moves alone: the interrupt, then the task. -/
def firmwareAlone (c : IpcConfig) (s : IpcSys) : IpcSys :=
  (ipcStep c (if s.irq then .isr else .task) s).getD s

/-- The steps that are left in a place of the task. -/
def TaskPc.steps : TaskPc → ℕ
  | .init => 1
  | .take => 0
  | .read => 6
  | .run _ _ acts _ => acts.length + 1

/-- The steps that are left. -/
def IpcSys.rank (s : IpcSys) : ℕ := 10 * s.irq.toNat + 8 * s.semIpcRead.toNat + s.task.steps

theorem length_program_le (drbl : UInt32) (h : Option IpcHandler) :
    (program drbl h).length ≤ 3 := by
  cases h with
  | none => exact Nat.le_of_ble_eq_true rfl
  | some h =>
      cases h with
      | heci =>
          simp only [program]
          split <;> simp
      | sysMng => exact Nat.le_refl 3
      | sysBoot => exact Nat.le_succ 2

/-- What the task does brings its end nearer. -/
theorem rank_taskNext (hirq : s.irq = false) (hst : taskNext c s = some s') :
    s'.rank < s.rank := by
  unfold IpcSys.rank
  cases hpc : s.task with
  | init =>
      simp only [taskNext, hpc, Option.some.injEq] at hst
      subst hst
      exact Nat.lt_succ_self _
  | take =>
      simp only [taskNext, hpc] at hst
      obtain ⟨hsem, hst⟩ := Option.ite_none_right_eq_some.1 hst
      obtain rfl := Option.some.inj hst
      simp only [hirq, hsem, TaskPc.steps, Bool.toNat_true, Bool.toNat_false]
      omega
  | read =>
      simp only [taskNext, hpc, Option.some.injEq] at hst
      subst hst
      have hlen := length_program_le s.drbl (protocolCb c (ipcHeaderGetProtocol s.drbl))
      simp only [TaskPc.steps]
      omega
  | run drbl handler acts data =>
      cases acts with
      | nil =>
          simp only [taskNext, hpc, Option.some.injEq] at hst
          subst hst
          exact Nat.lt_succ_self _
      | cons a acts =>
          cases a <;>
            · simp only [taskNext, hpc, Option.some.injEq] at hst
              subst hst
              exact Nat.lt_succ_self _

/-- A firmware that cannot go on has nothing left to do. -/
theorem IpcInv.settled {acked : List HostMsg} (h : IpcInv c s done cur new acked)
    (hirq : s.irq = false) (hst : HostIpc.taskNext c s = none) : Settled c s := by
  obtain ⟨hrung, hhandled, hacks, hphase, -⟩ := h
  have hpc : s.task = .take ∧ s.semIpcRead = false := by
    cases hpc : s.task with
    | init => simp only [HostIpc.taskNext, hpc] at hst; cases hst
    | take =>
        simp only [HostIpc.taskNext, hpc] at hst
        refine ⟨rfl, ?_⟩
        rw [← Bool.not_eq_true]
        intro hsem
        rw [if_pos hsem] at hst
        cases hst
    | read => simp only [HostIpc.taskNext, hpc] at hst; cases hst
    | run drbl handler acts data =>
        cases acts with
        | nil => simp only [HostIpc.taskNext, hpc] at hst; cases hst
        | cons a acts => cases a <;> simp only [HostIpc.taskNext, hpc] at hst <;> cases hst
  have hnot : ∀ {pc : TaskPc}, s.task = pc → pc ≠ .take → False := fun h₁ h₂ =>
    h₂ (h₁.symm.trans hpc.1)
  cases hphase with
  | init h _ => exact (hnot h nofun).elim
  | read h _ => exact (hnot h nofun).elim
  | before h _ => exact (hnot h nofun).elim
  | ack h _ => exact (hnot h nofun).elim
  | after m acts h _ _ => exact (hnot h nofun).elim
  | take _ hp =>
      cases hp with
      | irq _ h₂ _ => rw [hirq] at h₂; cases h₂
      | sem _ _ h₃ => rw [hpc.2] at h₃; cases h₃
      | nothing h₁ _ _ =>
          rw [List.append_nil, List.append_nil] at hrung
          rw [List.append_nil] at hacks
          exact ⟨h₁, ⟨hpc.1, hirq, hpc.2⟩, by rw [hrung, hhandled], by rw [hrung, hacks]⟩

/-- **The firmware alone handles and acknowledges every message.** -/
theorem ipc_settles (h : Reachable c s) :
    ∃ N, ∀ k, N ≤ k → Settled c ((firmwareAlone c)^[k] s) := by
  have hmove : ∀ s, (∃ done cur new acked, IpcInv c s done cur new acked) →
      ∃ done cur new acked, IpcInv c (firmwareAlone c s) done cur new acked := by
    rintro s ⟨done, cur, new, acked, hs⟩
    unfold firmwareAlone
    cases hst : ipcStep c (if s.irq then .isr else .task) s with
    | none => exact ⟨done, cur, new, acked, hs⟩
    | some s' => exact hs.step hst
  have hstuck : ∀ s, Settled c s → firmwareAlone c s = s := by
    intro s hs
    simp only [firmwareAlone, hs.waits.2.1, ipcStep, taskNext, hs.waits.1, hs.waits.2.2,
      Bool.false_eq_true, if_false, Option.getD_none]
  have hrank : ∀ s, (∃ done cur new acked, IpcInv c s done cur new acked) → ¬ Settled c s →
      (firmwareAlone c s).rank < s.rank := by
    rintro s ⟨done, cur, new, acked, hs⟩ hnot
    unfold firmwareAlone
    cases hirq : s.irq with
    | true =>
        simp only [if_true, ipcStep, hirq, Option.getD_some, IpcSys.rank, ipcRxHandler,
          Bool.toNat_true, Bool.toNat_false]
        omega
    | false =>
        simp only [Bool.false_eq_true, if_false, ipcStep]
        cases hst : taskNext c s with
        | none => exact absurd (hs.settled hirq hst) hnot
        | some s' => exact rank_taskNext hirq hst
  obtain ⟨N, hN⟩ := Lts.settles IpcSys.rank hmove (fun s _ hs => (hstuck s hs).symm ▸ hs) hrank
    (ipcInv_of_reachable h)
  exact ⟨N, fun k hk => (hN k hk).2⟩

/-! ### Two messages -/

/-- The host tells that it is in D0, and rings again while the handler is at work. -/
def ringTwice : List IpcLabel :=
  [.hostWrite [1, 2], .ring (SysMng.ipcBuildMngDrbl mngD0Notify 2), .isr, .task, .task, .task,
    .task, .task, .hostWrite [3], .ring (Heci.ipcBuildDrbl 1 ipcProtocolHeci), .task]

/-- What a run establishes holds in some reachable state. -/
theorem exists_reachable (c : IpcConfig) (ls : List IpcLabel) (p : IpcSys → Prop)
    [DecidablePred p] (h : (Lts.run (ipcStep c) .start ls).any (fun s => decide (p s)) = true) :
    ∃ s, Reachable c s ∧ p s := by
  have hinit : IpcInit .start := rfl
  exact Lts.exists_reach hinit ls p h

/-- **The second message comes while the first is at work.** -/
theorem dispatchOk_ringTwice : ∃ s, Reachable ⟨true, true⟩ s ∧
    (s.rung.length = 2 ∧ s.handled = [] ∧ s.acks.length = 1) ∧ DispatchOk ⟨true, true⟩ s := by
  obtain ⟨s, hs, hp⟩ := exists_reachable ⟨true, true⟩ ringTwice
    (fun s => s.rung.length = 2 ∧ s.handled = [] ∧ s.acks.length = 1) (by decide)
  exact ⟨s, hs, hp, dispatchOk_of_reachable hs⟩

/-- Both are handled in the end. -/
theorem ipc_settles_ringTwice : ∃ s, Reachable ⟨true, true⟩ s ∧ s.rung.length = 2 ∧
    ∃ N, ∀ k, N ≤ k → Settled ⟨true, true⟩ ((firmwareAlone ⟨true, true⟩)^[k] s) := by
  obtain ⟨s, hs, hp⟩ := exists_reachable ⟨true, true⟩ ringTwice
    (fun s => s.rung.length = 2) (by decide)
  exact ⟨s, hs, hp, ipc_settles hs⟩

end PseFw.HostIpc
