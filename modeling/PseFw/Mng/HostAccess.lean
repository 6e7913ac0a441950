/-
**Access to the host.**

The host may go to sleep, and the firmware must not touch it then.  `sys_mng.c` keeps the two apart:
a thread that wants to write to the host calls `host_access_req` and gets a handle, which it gives
back to `host_access_dereq`; the handles in use are the bits of `rtd3_req_map`.  The first holder
takes the semaphore `sem_rtd3` and the last one gives it.  When the host announces that it goes to
sleep, the firmware takes the same semaphore, and says that it is ready if it got it.

The semaphore changes hands in other places, too: the interrupt handler gives it when the host says
that it is awake, and the handler of the entry to a deeper sleep gives it as well.  Meanwhile a
function pointer says what a request for access has to do.  This module defines the threads that
call the two functions, the task that handles the messages, the interrupt and the two power
handlers, each of them a statement a step wherever another one can get in between.

The handle of a new holder is computed from the lowest bit that is set.  That is a free one as long
as the handle above the lowest one in use is free.

Main definitions:

* `PseFw.Mng.MngDev`, `PseFw.Mng.mngStep` — the state, and the steps of all parties;
* `PseFw.Mng.findLsbSet`, `PseFw.Mng.hostAccessDereq` — the handles;
* `PseFw.Mng.AccessSafe` — what the callers of the two functions rely on.

Main results:

* `PseFw.Mng.mngStep_cases` — what a step does;
* `PseFw.Mng.accessSafe_of_disciplined` — **handles are fresh, the bitmap is the set of handles in
  use, and the last one gives the semaphore**, in every run that keeps to `AccessDiscipline`;
* `PseFw.Mng.not_accessSafe_alloc` — a request against the discipline is answered wrongly.
-/

import PseFw.Lib.Transition
import Mathlib.Tactic.Common
import Mathlib.Data.List.Nodup

set_option relaxedAutoImplicit false
set_option autoImplicit false

namespace PseFw.Mng

/-! ### Parties -/

/-- The function `mng_host_access_req` points to. -/
inductive HostReq
  /-- `mng_host_req_d0`. -/
  | d0
  /-- `mng_host_req_rtd3`. -/
  | rtd3
  /-- `mng_host_req_rtd3_notified`. -/
  | rtd3Notified
  /-- `mng_host_req_sx`. -/
  | sx
  deriving DecidableEq, Repr

/-- Where the thread that holds `rtd3_map_lock` is in `host_access_req`. -/
inductive Pc
  /-- It looks at the map. -/
  | check
  /-- It calls through `mng_host_access_req`. -/
  | call
  /-- It is about to take `sem_rtd3`. -/
  | takeRtd3
  /-- It waits for `sem_rtd3`. -/
  | pendRtd3
  /-- It is about to take `sem_d3`. -/
  | takeD3
  /-- It waits for `sem_d3`. -/
  | pendD3
  /-- It is back from waiting for `sem_d3`, and looks at the pointer again. -/
  | recheck
  /-- It has access, and takes a handle. -/
  | alloc
  deriving DecidableEq, Repr

/-- Where the task that handles the messages of the host is, in the answer to `MNG_RTD3_NOTIFY`. -/
inductive IpcPc
  | idle
  /-- It took the semaphore, and is about to set the pointer. -/
  | ready
  /-- It is about to write `MNG_RTD3_NOTIFY_ACK`. -/
  | answer (rtd3Ready : Bool)
  deriving DecidableEq, Repr

/-- Where `mng_d3_proc` is, in `PM_EVENT_HOST_RTD3_ENTRY`. -/
inductive D3Pc
  | idle
  | check
  | give
  deriving DecidableEq, Repr

/-- Where `mng_sx_entry` is. -/
inductive SxPc
  | idle
  | setSx
  | setD0
  | giveD3
  | giveRtd3
  deriving DecidableEq, Repr

/-- The messages of the host that concern its sleep. -/
inductive MngCmd
  /-- `MNG_RTD3_NOTIFY`. -/
  | rtd3Notify
  /-- `MNG_D0_NOTIFY`. -/
  | d0Notify
  deriving DecidableEq, Repr

/-- What is observed.  Lists of handles are those in use at that moment. -/
inductive MngEvent
  /-- `host_access_req` returned the handle, while others were in use. -/
  | granted (thread handle : ℕ) (inUse : List ℕ)
  /-- `host_access_req` returned a negative number. -/
  | refused (thread : ℕ) (ret : ℤ)
  /-- `host_access_dereq` took the handle back; others are left. -/
  | released (thread handle : ℕ) (left : List ℕ)
  /-- `host_access_dereq` returned an error. -/
  | rejected (thread : ℕ) (handler : ℤ)
  /-- `power_trigger_pme`. -/
  | triggerPme
  /-- The pointer was set to `mng_host_req_rtd3_notified`. -/
  | notified (inUse : List ℕ)
  /-- `MNG_RTD3_NOTIFY_ACK`. -/
  | rtd3NotifyAck (rtd3Ready : Bool) (inUse : List ℕ)
  /-- `MNG_D0_NOTIFY_ACK`. -/
  | d0NotifyAck
  deriving DecidableEq, Repr

/-- **The state**: the variables of `sys_mng.c`, the mailbox, where each party is, and, for the
record, who holds which handle and what was observed.  A thread inside `host_access_req` is the one
that holds `rtd3_map_lock`. -/
structure MngDev where
  semRtd3 : Bool
  semD3 : Bool
  isWaitingD3 : UInt32
  rtd3ReqMap : BitVec 32
  mngHostAccessReq : HostReq
  inside : Option (ℕ × Pc)
  ipc : IpcPc
  d3 : D3Pc
  sx : SxPc
  drbl : Option MngCmd
  held : List (ℕ × ℕ)
  log : List MngEvent
  deriving DecidableEq

/-- The state the firmware starts in. -/
def MngDev.start : MngDev where
  semRtd3 := true
  semD3 := false
  isWaitingD3 := 0
  rtd3ReqMap := 0
  mngHostAccessReq := .d0
  inside := none
  ipc := .idle
  d3 := .idle
  sx := .idle
  drbl := none
  held := []
  log := []

namespace MngDev

/-- The handles in use. -/
def handles (x : MngDev) : List ℕ := x.held.map Prod.snd

/-- The thread goes on in `host_access_req`. -/
def goto (x : MngDev) (t : ℕ) (pc : Pc) : MngDev := { x with inside := some (t, pc) }

/-- The thread leaves `host_access_req` without a handle. -/
def refuse (x : MngDev) (t : ℕ) (ret : ℤ) : MngDev :=
  { x with inside := none, log := x.log ++ [.refused t ret] }

/-- `k_sem_give(&sem_rtd3)`: a thread that waits gets it. -/
def semGiveRtd3 (x : MngDev) : MngDev :=
  match x.inside with
  | some (t, .pendRtd3) => x.goto t .alloc
  | _ => { x with semRtd3 := true }

/-- `k_sem_give(&sem_d3)`. -/
def semGiveD3 (x : MngDev) : MngDev :=
  match x.inside with
  | some (t, .pendD3) => x.goto t .recheck
  | _ => { x with semD3 := true }

end MngDev

/-! ### Handles -/

/-- `find_lsb_set`: one more than the lowest bit that is set, zero if there is none. -/
def findLsbSet (op : BitVec 32) : ℕ :=
  match (List.range 32).find? fun k => op.getLsbD k with
  | none => 0
  | some k => k + 1

/-- `BIT`.  What shifting a 32-bit number by 32 or more gives depends on the machine. -/
def bit (overshift : BitVec 32) (n : ℕ) : BitVec 32 :=
  if n < 32 then BitVec.twoPow 32 n else overshift

section step

variable (overshift : BitVec 32)

/-- The end of `host_access_req`: the handle. -/
def allocHandle (t : ℕ) (x : MngDev) : MngDev :=
  let ret := findLsbSet x.rtd3ReqMap
  { x with
    rtd3ReqMap := x.rtd3ReqMap ||| bit overshift ret
    inside := none
    held := (t, ret) :: x.held
    log := x.log ++ [.granted t ret x.handles] }

/-- The next statement of the thread inside `host_access_req`. -/
def reqStep (x : MngDev) : Option MngDev :=
  match x.inside with
  | none => none
  | some (t, .check) =>
      if x.rtd3ReqMap = BitVec.allOnes 32 then some (x.refuse t (-1))
      else if x.rtd3ReqMap = 0 then some (x.goto t .call)
      else some (x.goto t .alloc)
  | some (t, .call) =>
      match x.mngHostAccessReq with
      | .d0 => some (x.goto t .takeRtd3)
      | .rtd3 => some ({ x with log := x.log ++ [MngEvent.triggerPme] }.goto t .takeRtd3)
      | .rtd3Notified => some ({ x with isWaitingD3 := x.isWaitingD3 + 1 }.goto t .takeD3)
      -- `RTD3_SWITCH_TO_SX`
      | .sx => some ({ x with mngHostAccessReq := .d0 }.refuse t (-2))
  | some (t, .takeRtd3) =>
      if x.semRtd3 then some ({ x with semRtd3 := false }.goto t .alloc)
      else some (x.goto t .pendRtd3)
  | some (t, .takeD3) =>
      if x.semD3 then some ({ x with semD3 := false }.goto t .recheck)
      else some (x.goto t .pendD3)
  | some (_, .pendRtd3) => none
  | some (_, .pendD3) => none
  | some (t, .recheck) =>
      -- `RTD3_NOTIFIED_STUCK`
      if x.mngHostAccessReq = .rtd3Notified then some ({ x with isWaitingD3 := 0 }.refuse t (-1))
      else some (x.goto t .call)
  | some (t, .alloc) => some (allocHandle overshift t x)

/-- The time of a thread that waits is up. -/
def reqTimeout (x : MngDev) : Option MngDev :=
  match x.inside with
  -- `-EAGAIN`
  | some (t, .pendRtd3) => some (x.refuse t (-11))
  | some (t, .pendD3) => some (x.goto t .recheck)
  | _ => none

/-- `host_access_dereq`, by a thread that gets `rtd3_map_lock`. -/
def hostAccessDereq (t : ℕ) (handler : ℤ) (x : MngDev) : MngDev :=
  if 0 ≤ handler ∧ handler ≤ 31 ∧ x.rtd3ReqMap.getLsbD handler.toNat = true then
    let map := x.rtd3ReqMap &&& ~~~ bit overshift handler.toNat
    let x := { x with rtd3ReqMap := map, held := x.held.erase (t, handler.toNat) }
    let x := if map = 0 then x.semGiveRtd3 else x
    { x with log := x.log ++ [.released t handler.toNat x.handles] }
  else { x with log := x.log ++ [.rejected t handler] }

/-! ### Messages and power events -/

/-- `ipc_rx_handler`, the interrupt: a message can come when the last one was acknowledged. -/
def ipcRxHandler (cmd : MngCmd) (x : MngDev) : Option MngDev :=
  if x.drbl.isSome then none
  else
    let x := { x with drbl := some cmd }
    some (if cmd = .d0Notify then x.semGiveRtd3 else x)

/-- `sys_mng_handler`, up to the end or to the answer to `MNG_RTD3_NOTIFY`. -/
def sysMngHandler (x : MngDev) : Option MngDev :=
  match x.ipc, x.drbl with
  | .idle, some .d0Notify =>
      some { x with drbl := none, mngHostAccessReq := .d0, log := x.log ++ [.d0NotifyAck] }
  | .idle, some .rtd3Notify =>
      if x.semRtd3 then some { x with drbl := none, semRtd3 := false, ipc := .ready }
      else some { x with drbl := none, ipc := .answer false }
  | _, _ => none

/-- The next statement of the answer to `MNG_RTD3_NOTIFY`. -/
def answerStep (x : MngDev) : Option MngDev :=
  match x.ipc with
  | .idle => none
  | .ready =>
      some { x with
        mngHostAccessReq := .rtd3Notified
        ipc := .answer true
        log := x.log ++ [.notified x.handles] }
  | .answer rtd3Ready =>
      some { x with ipc := .idle, log := x.log ++ [.rtd3NotifyAck rtd3Ready x.handles] }

/-- `mng_d3_proc` begins with `PM_EVENT_HOST_RTD3_ENTRY`. -/
def rtd3Entry (x : MngDev) : Option MngDev :=
  if x.d3 = .idle then some { x with mngHostAccessReq := .rtd3, d3 := .check } else none

/-- `mng_d3_proc` with `PM_EVENT_HOST_RTD3_EXIT`. -/
def rtd3Exit (x : MngDev) : Option MngDev :=
  if x.d3 = .idle then some { x with mngHostAccessReq := .d0 } else none

/-- The next statement of `mng_d3_proc`. -/
def d3Step (x : MngDev) : Option MngDev :=
  match x.d3 with
  | .idle => none
  | .check =>
      if x.isWaitingD3 ≠ 0 then some { x with isWaitingD3 := 0, d3 := .give }
      else some { x with d3 := .idle }
  | .give => some { x.semGiveD3 with d3 := .idle }

/-- `mng_sx_entry` begins. -/
def sxEntry (x : MngDev) : Option MngDev :=
  if x.sx = .idle then
    if x.isWaitingD3 ≠ 0 then some { x with isWaitingD3 := 0, sx := .setSx }
    else some { x with sx := .setD0 }
  else none

/-- The next statement of `mng_sx_entry`. -/
def sxStep (x : MngDev) : Option MngDev :=
  match x.sx with
  | .idle => none
  | .setSx => some { x with mngHostAccessReq := .sx, sx := .giveD3 }
  | .setD0 => some { x with mngHostAccessReq := .d0, sx := .giveRtd3 }
  | .giveD3 => some { x.semGiveD3 with sx := .giveRtd3 }
  | .giveRtd3 => some { x.semGiveRtd3 with sx := .idle }

/-! ### Steps -/

/-- What can happen next. -/
inductive MngLabel
  /-- A thread calls `host_access_req` and gets the lock. -/
  | lock (thread : ℕ)
  /-- A thread calls `host_access_req` and does not get the lock in time. -/
  | lockTimeout (thread : ℕ)
  | reqStep
  | reqTimeout
  | dereq (thread : ℕ) (handler : ℤ)
  | rxInterrupt (cmd : MngCmd)
  | rxTask
  | answerStep
  | rtd3Entry
  | rtd3Exit
  | d3Step
  | sxEntry
  | sxStep
  deriving DecidableEq, Repr

/-- **The steps of all parties.** -/
def mngStep : MngLabel → MngDev → Option MngDev
  | .lock t, x => if x.inside.isNone then some (x.goto t .check) else none
  | .lockTimeout t, x => some { x with log := x.log ++ [.refused t (-11)] }
  | .reqStep, x => reqStep overshift x
  | .reqTimeout, x => reqTimeout x
  | .dereq t handler, x =>
      if x.inside.isNone then some (hostAccessDereq overshift t handler x) else none
  | .rxInterrupt cmd, x => ipcRxHandler cmd x
  | .rxTask, x => sysMngHandler x
  | .answerStep, x => answerStep x
  | .rtd3Entry, x => rtd3Entry x
  | .rtd3Exit, x => rtd3Exit x
  | .d3Step, x => d3Step x
  | .sxEntry, x => sxEntry x
  | .sxStep, x => sxStep x

end step

/-! ### What a step does -/

/-- The thread inside has access and is about to take a handle. -/
def MngDev.AtAlloc (x : MngDev) : Prop := x.inside.map Prod.snd = some .alloc

/-- The thread inside waits for `sem_rtd3`. -/
def MngDev.Pending (x : MngDev) : Prop := x.inside.map Prod.snd = some .pendRtd3

/-- The firmware is about to tell the host that it may go to sleep. -/
def MngDev.Answering (x : MngDev) : Prop := x.ipc = .ready ∨ x.ipc = .answer true

instance (x : MngDev) : Decidable x.AtAlloc := inferInstanceAs (Decidable (_ = _))
instance (x : MngDev) : Decidable x.Pending := inferInstanceAs (Decidable (_ = _))
instance (x : MngDev) : Decidable x.Answering := inferInstanceAs (Decidable (_ ∨ _))

/-- The step gives `sem_rtd3` without having had it. -/
def GivesRtd3 (x : MngDev) : MngLabel → Prop
  | .rxInterrupt .d0Notify => True
  | .sxStep => x.sx = .giveRtd3
  | _ => False

/-- What can be observed in a step that leaves the handles alone. -/
inductive Observed (x : MngDev) : MngEvent → Prop
  | refused (t : ℕ) (ret : ℤ) : Observed x (.refused t ret)
  | rejected (t : ℕ) (handler : ℤ) : Observed x (.rejected t handler)
  | triggerPme : Observed x .triggerPme
  | d0NotifyAck : Observed x .d0NotifyAck
  | notified : x.ipc = .ready → Observed x (.notified x.handles)
  | rtd3NotifyAck (r : Bool) : x.ipc = .answer r → Observed x (.rtd3NotifyAck r x.handles)

/-- The step leaves the handles and the semaphore alone. -/
structure Untouched (x x' : MngDev) : Prop where
  map : x'.rtd3ReqMap = x.rtd3ReqMap
  held : x'.held = x.held
  semRtd3 : x'.semRtd3 = x.semRtd3
  atAlloc : x'.AtAlloc → x.AtAlloc
  pending : x'.Pending → x.Pending ∨ x.semRtd3 = false
  answering : x'.Answering → x.Answering
  log : ∃ evs, x'.log = x.log ++ evs ∧ ∀ e ∈ evs, Observed x e

/-- The semaphore was given, to the thread that waits for it if there is one. -/
def Given (x x' : MngDev) : Prop :=
  (x.Pending ∧ x'.AtAlloc ∧ ¬ x'.Pending ∧ x'.semRtd3 = x.semRtd3) ∨
    (¬ x.Pending ∧ x'.inside = x.inside ∧ x'.semRtd3 = true)

/-- **The cases of a step.** -/
inductive MngCase (overshift : BitVec 32) (x : MngDev) : MngLabel → MngDev → Prop
  | untouched {l : MngLabel} {x' : MngDev} : Untouched x x' → MngCase overshift x l x'
  /-- Others have access, so the thread has it, too. -/
  | join (t : ℕ) : x.inside = some (t, .check) → x.rtd3ReqMap ≠ 0 →
      MngCase overshift x .reqStep (x.goto t .alloc)
  /-- The thread takes the semaphore. -/
  | take (t : ℕ) : x.inside = some (t, .takeRtd3) → x.semRtd3 = true →
      MngCase overshift x .reqStep ({ x with semRtd3 := false }.goto t .alloc)
  /-- A handle is granted. -/
  | alloc (t : ℕ) : x.inside = some (t, .alloc) →
      MngCase overshift x .reqStep (allocHandle overshift t x)
  /-- A handle is given back. -/
  | release {x' : MngDev} (t h : ℕ) : x.inside = none → h ≤ 31 →
      x.rtd3ReqMap.getLsbD h = true → x'.rtd3ReqMap = x.rtd3ReqMap &&& ~~~ bit overshift h →
      x'.held = x.held.erase (t, h) → x'.inside = none → x'.ipc = x.ipc →
      x'.semRtd3 = (decide (x'.rtd3ReqMap = 0) || x.semRtd3) →
      x'.log = x.log ++ [.released t h x'.handles] →
      MngCase overshift x (.dereq t h) x'
  /-- The task takes the semaphore. -/
  | ready : x.ipc = .idle → x.semRtd3 = true → MngCase overshift x .rxTask
      { x with drbl := none, semRtd3 := false, ipc := .ready }
  /-- The semaphore is given. -/
  | give {l : MngLabel} {x' : MngDev} : GivesRtd3 x l → x'.rtd3ReqMap = x.rtd3ReqMap →
      x'.held = x.held → x'.ipc = x.ipc → x'.log = x.log → Given x x' → MngCase overshift x l x'

section cases

variable {overshift : BitVec 32} {x x' : MngDev} {l : MngLabel}

/-- The thread inside stays where it is. -/
theorem Untouched.same (evs : List MngEvent) (hm : x'.rtd3ReqMap = x.rtd3ReqMap)
    (hh : x'.held = x.held) (hs : x'.semRtd3 = x.semRtd3) (hi : x'.inside = x.inside)
    (ha : x'.Answering → x.Answering) (hl : x'.log = x.log ++ evs)
    (he : ∀ e ∈ evs, Observed x e) : Untouched x x' where
  map := hm
  held := hh
  semRtd3 := hs
  atAlloc h := by rwa [MngDev.AtAlloc, hi] at h
  pending h := Or.inl (by rwa [MngDev.Pending, hi] at h)
  answering := ha
  log := ⟨evs, hl, he⟩

/-- The thread inside goes on, without having access. -/
theorem Untouched.goto (evs : List MngEvent) {t : ℕ} {pc : Pc} (hm : x'.rtd3ReqMap = x.rtd3ReqMap)
    (hh : x'.held = x.held) (hs : x'.semRtd3 = x.semRtd3) (hi : x'.inside = some (t, pc))
    (hpc : pc ≠ .alloc) (hpend : pc = .pendRtd3 → x.semRtd3 = false) (ha : x'.ipc = x.ipc)
    (hl : x'.log = x.log ++ evs) (he : ∀ e ∈ evs, Observed x e) : Untouched x x' where
  map := hm
  held := hh
  semRtd3 := hs
  atAlloc h := by
    rw [MngDev.AtAlloc, hi] at h
    exact absurd (Option.some.inj h) hpc
  pending h := by
    rw [MngDev.Pending, hi] at h
    exact Or.inr (hpend (Option.some.inj h))
  answering h := by rwa [MngDev.Answering, ha] at h
  log := ⟨evs, hl, he⟩

/-- The thread inside leaves. -/
theorem Untouched.leave (evs : List MngEvent) (hm : x'.rtd3ReqMap = x.rtd3ReqMap)
    (hh : x'.held = x.held) (hs : x'.semRtd3 = x.semRtd3) (hi : x'.inside = none)
    (ha : x'.ipc = x.ipc) (hl : x'.log = x.log ++ evs) (he : ∀ e ∈ evs, Observed x e) :
    Untouched x x' where
  map := hm
  held := hh
  semRtd3 := hs
  atAlloc h := by
    rw [MngDev.AtAlloc, hi] at h
    cases h
  pending h := by
    rw [MngDev.Pending, hi] at h
    cases h
  answering h := by rwa [MngDev.Answering, ha] at h
  log := ⟨evs, hl, he⟩

/-- Nothing is observed. -/
theorem observed_nil : ∀ e ∈ ([] : List MngEvent), Observed x e := by simp

theorem observed_singleton {e : MngEvent} (h : Observed x e) : ∀ e' ∈ [e], Observed x e' := by
  simpa using h

/-- `k_sem_give(&sem_rtd3)` changes nothing but the semaphore and the thread that waits for it. -/
theorem semGiveRtd3_spec (x : MngDev) : x.semGiveRtd3.rtd3ReqMap = x.rtd3ReqMap ∧
    x.semGiveRtd3.held = x.held ∧ x.semGiveRtd3.ipc = x.ipc ∧ x.semGiveRtd3.log = x.log ∧
    Given x x.semGiveRtd3 := by
  unfold MngDev.semGiveRtd3
  split
  · next t hin =>
      refine ⟨rfl, rfl, rfl, rfl, Or.inl ⟨?_, rfl, nofun, rfl⟩⟩
      rw [MngDev.Pending, hin]
      rfl
  · next hnot =>
      refine ⟨rfl, rfl, rfl, rfl, Or.inr ⟨fun hpend => ?_, rfl, rfl⟩⟩
      obtain ⟨⟨t, pc⟩, hin, hpc⟩ := Option.map_eq_some_iff.1 hpend
      obtain rfl : pc = .pendRtd3 := hpc
      exact hnot t hin

/-- `k_sem_give(&sem_d3)` gives nobody access. -/
theorem untouched_semGiveD3 (x : MngDev) : Untouched x x.semGiveD3 := by
  unfold MngDev.semGiveD3
  split
  · exact .goto [] rfl rfl rfl rfl (by simp) (by simp) rfl (by simp [MngDev.goto])
      observed_nil
  · exact .same [] rfl rfl rfl rfl id (by simp) observed_nil

/-- The thread inside `host_access_req`. -/
theorem mngCase_reqStep (h : reqStep overshift x = some x') : MngCase overshift x .reqStep x' := by
  have hgoto : ∀ {y : MngDev} {t : ℕ} {pc : Pc}, y.rtd3ReqMap = x.rtd3ReqMap → y.held = x.held →
      y.semRtd3 = x.semRtd3 → y.ipc = x.ipc → y.log = x.log → pc ≠ .alloc →
      (pc = .pendRtd3 → x.semRtd3 = false) → MngCase overshift x .reqStep (y.goto t pc) :=
    fun hm hh hs ha hl hpc hpend => .untouched (.goto [] hm hh hs rfl hpc hpend ha
      (hl.trans (List.append_nil _).symm) observed_nil)
  have hrefuse : ∀ {y : MngDev} {t : ℕ} {ret : ℤ}, y.rtd3ReqMap = x.rtd3ReqMap →
      y.held = x.held → y.semRtd3 = x.semRtd3 → y.ipc = x.ipc → y.log = x.log →
      MngCase overshift x .reqStep (y.refuse t ret) :=
    fun hm hh hs ha hl => .untouched (.leave _ hm hh hs rfl ha (by rw [MngDev.refuse, hl])
      (observed_singleton (.refused _ _)))
  unfold reqStep at h
  split at h
  · cases h
  · next t hin =>
      split at h
      · cases h
        exact hrefuse rfl rfl rfl rfl rfl
      · split at h
        · cases h
          exact hgoto rfl rfl rfl rfl rfl (by simp) (by simp)
        · next hz =>
            cases h
            exact .join t hin hz
  · next t hin =>
      split at h
      · cases h
        exact hgoto rfl rfl rfl rfl rfl (by simp) (by simp)
      · cases h
        exact .untouched (.goto _ rfl rfl rfl rfl (by simp) (by simp) rfl rfl
          (observed_singleton .triggerPme))
      · cases h
        exact hgoto rfl rfl rfl rfl rfl (by simp) (by simp)
      · cases h
        exact hrefuse rfl rfl rfl rfl rfl
  · next t hin =>
      split at h
      · next hsem =>
          cases h
          exact .take t hin hsem
      · next hsem =>
          cases h
          exact hgoto rfl rfl rfl rfl rfl (by simp) fun _ => by simpa using hsem
  · split at h
    · cases h
      exact hgoto rfl rfl rfl rfl rfl (by simp) (by simp)
    · cases h
      exact hgoto rfl rfl rfl rfl rfl (by simp) (by simp)
  · cases h
  · cases h
  · split at h
    · cases h
      exact hrefuse rfl rfl rfl rfl rfl
    · cases h
      exact hgoto rfl rfl rfl rfl rfl (by simp) (by simp)
  · next t hin =>
      cases h
      exact .alloc t hin

/-- `host_access_dereq`. -/
theorem mngCase_dereq (t : ℕ) (handler : ℤ) (hin : x.inside = none) :
    MngCase overshift x (.dereq t handler) (hostAccessDereq overshift t handler x) := by
  unfold hostAccessDereq
  split
  · next hvalid =>
      obtain ⟨hlow, hhigh, hbit⟩ := hvalid
      obtain ⟨h, rfl⟩ := Int.eq_ofNat_of_zero_le hlow
      rw [Int.toNat_natCast] at hbit ⊢
      have hgive : ∀ y : MngDev, y.inside = none → y.semGiveRtd3 = { y with semRtd3 := true } := by
        intro y hy
        rw [MngDev.semGiveRtd3, hy]
      dsimp only
      by_cases hz : x.rtd3ReqMap &&& ~~~ bit overshift h = 0
      · rw [if_pos hz, hgive { x with
          rtd3ReqMap := x.rtd3ReqMap &&& ~~~ bit overshift h
          held := x.held.erase (t, h) } hin]
        exact .release t h hin (by omega) hbit rfl rfl hin rfl (by simp [hz]) rfl
      · rw [if_neg hz]
        exact .release t h hin (by omega) hbit rfl rfl hin rfl
          (by rw [decide_eq_false hz, Bool.false_or]) rfl
  · exact .untouched (.same _ rfl rfl rfl rfl id rfl (observed_singleton (.rejected t handler)))

/-- The messages of the host. -/
theorem mngCase_message (h : mngStep overshift l x = some x')
    (hl : l = .rxTask ∨ l = .answerStep ∨ ∃ cmd, l = .rxInterrupt cmd) :
    MngCase overshift x l x' := by
  rcases hl with rfl | rfl | ⟨cmd, rfl⟩
  · simp only [mngStep, sysMngHandler] at h
    split at h
    · cases h
      exact .untouched (.same _ rfl rfl rfl rfl id rfl (observed_singleton .d0NotifyAck))
    · next hipc hdrbl =>
        split at h
        · next hsem =>
            cases h
            exact .ready hipc hsem
        · cases h
          refine .untouched (.same [] rfl rfl rfl rfl ?_ (by simp) observed_nil)
          intro h
          simp [MngDev.Answering] at h
    · cases h
  · simp only [mngStep, answerStep] at h
    split at h
    · cases h
    · next hipc =>
        cases h
        exact .untouched (.same _ rfl rfl rfl rfl (fun _ => Or.inl hipc) rfl
          (observed_singleton (.notified hipc)))
    · next r hipc =>
        cases h
        refine .untouched (.same _ rfl rfl rfl rfl ?_ rfl (observed_singleton
          (.rtd3NotifyAck r hipc)))
        intro h
        simp [MngDev.Answering] at h
  · simp only [mngStep, ipcRxHandler] at h
    split at h
    · cases h
    · cases h
      cases cmd with
      | rtd3Notify => exact .untouched (.same [] rfl rfl rfl rfl id (by simp) observed_nil)
      | d0Notify =>
          simp only [↓reduceIte]
          obtain ⟨hm, hh, ha, hl, hg⟩ := semGiveRtd3_spec { x with drbl := some .d0Notify }
          exact .give trivial hm hh ha hl hg

/-- The power events. -/
theorem mngCase_power (h : mngStep overshift l x = some x')
    (hl : l = .rtd3Entry ∨ l = .rtd3Exit ∨ l = .d3Step ∨ l = .sxEntry ∨ l = .sxStep) :
    MngCase overshift x l x' := by
  have hsame : ∀ {l : MngLabel} {y : MngDev}, y.rtd3ReqMap = x.rtd3ReqMap → y.held = x.held →
      y.semRtd3 = x.semRtd3 → y.inside = x.inside → y.ipc = x.ipc → y.log = x.log →
      MngCase overshift x l y :=
    fun hm hh hs hi ha hl => .untouched (.same [] hm hh hs hi
      (fun h => by rwa [MngDev.Answering, ha] at h) (by simpa using hl) observed_nil)
  rcases hl with rfl | rfl | rfl | rfl | rfl
  · simp only [mngStep, rtd3Entry] at h
    split at h
    · cases h
      exact hsame rfl rfl rfl rfl rfl rfl
    · cases h
  · simp only [mngStep, rtd3Exit] at h
    split at h
    · cases h
      exact hsame rfl rfl rfl rfl rfl rfl
    · cases h
  · simp only [mngStep, d3Step] at h
    split at h
    · cases h
    · split at h
      · cases h
        exact hsame rfl rfl rfl rfl rfl rfl
      · cases h
        exact hsame rfl rfl rfl rfl rfl rfl
    · cases h
      have hu := untouched_semGiveD3 x
      exact .untouched ⟨hu.map, hu.held, hu.semRtd3, hu.atAlloc, hu.pending, hu.answering, hu.log⟩
  · simp only [mngStep, sxEntry] at h
    split at h
    · split at h
      · cases h
        exact hsame rfl rfl rfl rfl rfl rfl
      · cases h
        exact hsame rfl rfl rfl rfl rfl rfl
    · cases h
  · simp only [mngStep, sxStep] at h
    split at h
    · cases h
    · cases h
      exact hsame rfl rfl rfl rfl rfl rfl
    · cases h
      exact hsame rfl rfl rfl rfl rfl rfl
    · cases h
      have hu := untouched_semGiveD3 x
      exact .untouched ⟨hu.map, hu.held, hu.semRtd3, hu.atAlloc, hu.pending, hu.answering, hu.log⟩
    · next hsx =>
        cases h
        obtain ⟨hm, hh, ha, hl, hg⟩ := semGiveRtd3_spec x
        exact .give hsx hm hh ha hl hg

/-- **The cases are exhaustive.** -/
theorem mngStep_cases (h : mngStep overshift l x = some x') : MngCase overshift x l x' := by
  cases l with
  | lock t =>
      simp only [mngStep] at h
      split at h
      · cases h
        exact .untouched (.goto [] rfl rfl rfl rfl (by simp) (by simp) rfl (by
          simp [MngDev.goto]) observed_nil)
      · cases h
  | lockTimeout t =>
      cases h
      exact .untouched (.same _ rfl rfl rfl rfl id rfl (observed_singleton (.refused t _)))
  | reqStep => exact mngCase_reqStep h
  | reqTimeout =>
      simp only [mngStep, reqTimeout] at h
      split at h
      · next t _ =>
          cases h
          exact .untouched (.leave _ rfl rfl rfl rfl rfl rfl (observed_singleton (.refused t _)))
      · cases h
        exact .untouched (.goto [] rfl rfl rfl rfl (by simp) (by simp) rfl (by
          simp [MngDev.goto]) observed_nil)
      · cases h
  | dereq t handler =>
      simp only [mngStep] at h
      split at h
      · next hin =>
          cases h
          exact mngCase_dereq t handler (Option.isNone_iff_eq_none.1 hin)
      · cases h
  | rxInterrupt cmd => exact mngCase_message h (Or.inr (Or.inr ⟨cmd, rfl⟩))
  | rxTask => exact mngCase_message h (Or.inl rfl)
  | answerStep => exact mngCase_message h (Or.inr (Or.inl rfl))
  | rtd3Entry => exact mngCase_power h (by simp)
  | rtd3Exit => exact mngCase_power h (by simp)
  | d3Step => exact mngCase_power h (by simp)
  | sxEntry => exact mngCase_power h (by simp)
  | sxStep => exact mngCase_power h (by simp)

end cases

/-! ### Bits -/

/-- The lowest bit that is set, if there is one. -/
theorem findLsbSet_cases (op : BitVec 32) :
    (op = 0 ∧ findLsbSet op = 0) ∨ ∃ k < 32, op.getLsbD k = true ∧
      (∀ j < k, op.getLsbD j = false) ∧ findLsbSet op = k + 1 := by
  unfold findLsbSet
  cases hf : (List.range 32).find? fun k => op.getLsbD k with
  | none =>
      refine Or.inl ⟨BitVec.eq_of_getLsbD_eq fun k hk => ?_, rfl⟩
      simpa using List.find?_eq_none.1 hf k (List.mem_range.2 hk)
  | some k =>
      have hmem := List.mem_range.1 (List.mem_of_find?_eq_some hf)
      refine Or.inr ⟨k, hmem, by simpa using List.find?_some hf, fun j hj => ?_, rfl⟩
      have hrange := List.find?_range_eq_some.1 hf
      simpa using hrange.2.2 j hj

theorem getLsbD_or_bit (o m : BitVec 32) {n : ℕ} (hn : n ≤ 31) (k : ℕ) :
    (m ||| bit o n).getLsbD k = (m.getLsbD k || decide (k = n)) := by
  rw [bit, if_pos (by omega), BitVec.getLsbD_or, BitVec.getLsbD_twoPow]
  have hlt : n < 32 := by omega
  simp only [hlt, decide_true, Bool.true_and, eq_comm]

theorem getLsbD_and_not_bit (o m : BitVec 32) {n : ℕ} (hn : n ≤ 31) (k : ℕ) :
    (m &&& ~~~ bit o n).getLsbD k = (m.getLsbD k && decide (k ≠ n)) := by
  rw [bit, if_pos (by omega), BitVec.getLsbD_and, BitVec.getLsbD_not, BitVec.getLsbD_twoPow]
  have hlt : n < 32 := by omega
  by_cases hk : k < 32
  · by_cases hkn : k = n
    · simp [hkn]
    · simp [hk, hkn, Ne.symm hkn]
  · rw [BitVec.getLsbD_of_ge m k (by omega)]
    simp

/-- **The handle above the lowest one in use is free**, and there is one. -/
def FreeAbove (map : BitVec 32) : Prop :=
  ∀ k < 32, map.getLsbD k = true → (∀ j < k, map.getLsbD j = false) →
    k < 31 ∧ map.getLsbD (k + 1) = false

instance : DecidablePred FreeAbove := fun map =>
  inferInstanceAs (Decidable (∀ k < 32, map.getLsbD k = true → (∀ j < k, map.getLsbD j = false) →
    k < 31 ∧ map.getLsbD (k + 1) = false))

theorem freeAbove_iff (map : BitVec 32) :
    FreeAbove map ↔ findLsbSet map ≤ 31 ∧ map.getLsbD (findLsbSet map) = false := by
  rcases findLsbSet_cases map with ⟨hz, hf⟩ | ⟨k, hk, hbit, hlow, hf⟩
  · rw [hf, hz]
    exact iff_of_true (fun k _ hbit => by simp at hbit) (by simp)
  · rw [hf]
    refine ⟨fun h => ?_, fun h j hj hbit' hlow' => ?_⟩
    · obtain ⟨hlt, hfree⟩ := h k hk hbit hlow
      exact ⟨by omega, hfree⟩
    · -- both are the lowest bit
      obtain rfl : j = k := by
        rcases Nat.lt_trichotomy j k with hlt | heq | hgt
        · rw [hlow j hlt] at hbit'
          cases hbit'
        · exact heq
        · rw [hlow' k hgt] at hbit
          cases hbit
      exact ⟨by omega, h.2⟩

/-! ### Handles along a run -/

/-- What the callers rely on, in an event: a handle that is granted is a small number and not in
use. -/
def MngEvent.AccessOk : MngEvent → Prop
  | .granted _ h inUse => h ≤ 31 ∧ h ∉ inUse
  | _ => True

theorem Observed.accessOk {x : MngDev} {e : MngEvent} (h : Observed x e) : e.AccessOk := by
  cases h <;> trivial

/-- **The discipline of the callers**: a handle is taken while the one above the lowest in use is
free, and a call of `host_access_dereq` names a handle of its caller, or none that is in use. -/
def AccessDiscipline (x : MngDev) : MngLabel → Prop
  | .reqStep => x.AtAlloc → FreeAbove x.rtd3ReqMap
  | .dereq t handler => 0 ≤ handler → x.rtd3ReqMap.getLsbD handler.toNat = true →
      (t, handler.toNat) ∈ x.held
  | _ => True

instance : ∀ (x : MngDev) (l : MngLabel), Decidable (AccessDiscipline x l)
  | x, .reqStep => inferInstanceAs (Decidable (x.AtAlloc → FreeAbove x.rtd3ReqMap))
  | x, .dereq t handler => inferInstanceAs (Decidable (0 ≤ handler →
      x.rtd3ReqMap.getLsbD handler.toNat = true → (t, handler.toNat) ∈ x.held))
  | _, .lock _ => .isTrue trivial
  | _, .lockTimeout _ => .isTrue trivial
  | _, .reqTimeout => .isTrue trivial
  | _, .rxInterrupt _ => .isTrue trivial
  | _, .rxTask => .isTrue trivial
  | _, .answerStep => .isTrue trivial
  | _, .rtd3Entry => .isTrue trivial
  | _, .rtd3Exit => .isTrue trivial
  | _, .d3Step => .isTrue trivial
  | _, .sxEntry => .isTrue trivial
  | _, .sxStep => .isTrue trivial

/-- **A call of `host_access_dereq` gives `sem_rtd3`**, to the thread that waits for it if there is
one, if it takes the last handle back; else it leaves the semaphore and who waits for it alone. -/
def GivesLast (x x' : MngDev) : Prop :=
  (x.handles ≠ [] ∧ x'.handles = [] → Given x x') ∧
    (¬ (x.handles ≠ [] ∧ x'.handles = []) → x'.semRtd3 = x.semRtd3 ∧ x'.inside = x.inside)

/-- **What the callers rely on**: the handles that were granted, the bitmap, and what the next call
of `host_access_dereq`, whoever makes it, does with the semaphore. -/
structure AccessSafe (overshift : BitVec 32) (x : MngDev) : Prop where
  events : ∀ e ∈ x.log, e.AccessOk
  map : ∀ k, x.rtd3ReqMap.getLsbD k = true ↔ k ∈ x.handles
  dereq : ∀ t handler x', AccessDiscipline x (.dereq t handler) →
    mngStep overshift (.dereq t handler) x = some x' → GivesLast x x'

/-- The invariant: nobody shares a handle. -/
structure AccessInv (x : MngDev) : Prop where
  events : ∀ e ∈ x.log, e.AccessOk
  map : ∀ k, x.rtd3ReqMap.getLsbD k = true ↔ k ∈ x.handles
  nodup : x.handles.Nodup

theorem AccessInv.map_eq_zero_iff {x : MngDev} (h : AccessInv x) :
    x.rtd3ReqMap = 0 ↔ x.handles = [] := by
  refine ⟨fun hz => List.eq_nil_iff_forall_not_mem.2 fun k hk => ?_, fun hnil => ?_⟩
  · have hbit := (h.map k).2 hk
    rw [hz] at hbit
    simp at hbit
  · refine BitVec.eq_of_getLsbD_eq fun k _ => ?_
    have hk : ¬ x.rtd3ReqMap.getLsbD k = true := by
      rw [h.map k, hnil]
      simp
    simpa using hk

/-- **A handle is granted.** -/
theorem AccessInv.alloc {overshift : BitVec 32} {x : MngDev} (hx : AccessInv x) (t : ℕ)
    (hfree : FreeAbove x.rtd3ReqMap) : AccessInv (allocHandle overshift t x) := by
  obtain ⟨hle, hbit⟩ := (freeAbove_iff _).1 hfree
  have hnew : findLsbSet x.rtd3ReqMap ∉ x.handles := by
    rw [← hx.map, hbit]
    simp
  have hhandles : (allocHandle overshift t x).handles = findLsbSet x.rtd3ReqMap :: x.handles := rfl
  refine ⟨fun e he => ?_, fun k => ?_, ?_⟩
  · rcases List.mem_append.1 he with he | he
    · exact hx.events e he
    · obtain rfl := List.mem_singleton.1 he
      exact ⟨hle, hnew⟩
  · rw [hhandles, List.mem_cons, ← hx.map k, allocHandle, getLsbD_or_bit _ _ hle]
    simp [or_comm]
  · rw [hhandles]
    exact List.nodup_cons.2 ⟨hnew, hx.nodup⟩

/-- **A handle is given back by its holder.** -/
theorem AccessInv.release {overshift : BitVec 32} {x x' : MngDev} (hx : AccessInv x) {t h : ℕ}
    (hle : h ≤ 31) (hheld : (t, h) ∈ x.held)
    (hmap : x'.rtd3ReqMap = x.rtd3ReqMap &&& ~~~ bit overshift h)
    (hheld' : x'.held = x.held.erase (t, h))
    (hlog : x'.log = x.log ++ [.released t h x'.handles]) : AccessInv x' := by
  have hperm : x.handles.Perm (h :: x'.handles) := by
    rw [MngDev.handles, MngDev.handles, hheld']
    exact (List.perm_cons_erase hheld).map Prod.snd
  have hnodup := hperm.nodup_iff.1 hx.nodup
  have hbits : ∀ k, x'.rtd3ReqMap.getLsbD k = true ↔ k ∈ x'.handles := by
    intro k
    rw [hmap, getLsbD_and_not_bit _ _ hle, Bool.and_eq_true, hx.map k, hperm.mem_iff,
      List.mem_cons, decide_eq_true_eq]
    constructor
    · rintro ⟨rfl | hk, hne⟩
      · exact absurd rfl hne
      · exact hk
    · exact fun hk => ⟨Or.inr hk, fun heq => (List.nodup_cons.1 hnodup).1 (heq ▸ hk)⟩
  refine ⟨fun e he => ?_, hbits, (List.nodup_cons.1 hnodup).2⟩
  rw [hlog] at he
  rcases List.mem_append.1 he with he | he
  · exact hx.events e he
  · obtain rfl := List.mem_singleton.1 he
    trivial

/-- **Every disciplined step keeps the handles apart.** -/
theorem accessInv_step {overshift : BitVec 32} {x x' : MngDev} {l : MngLabel} (hx : AccessInv x)
    (hd : AccessDiscipline x l) (h : mngStep overshift l x = some x') : AccessInv x' := by
  have hsame : ∀ evs : List MngEvent, x'.rtd3ReqMap = x.rtd3ReqMap → x'.held = x.held →
      x'.log = x.log ++ evs → (∀ e ∈ evs, e.AccessOk) → AccessInv x' := by
    intro evs hmap hheld hlog hevs
    have hhandles : x'.handles = x.handles := congrArg (List.map Prod.snd) hheld
    refine ⟨fun e he => ?_, fun k => by rw [hmap, hhandles, hx.map k], hhandles ▸ hx.nodup⟩
    rw [hlog] at he
    rcases List.mem_append.1 he with he | he
    · exact hx.events e he
    · exact hevs e he
  cases mngStep_cases h with
  | untouched hsm =>
      obtain ⟨evs, hlog, hevs⟩ := hsm.log
      exact hsame evs hsm.map hsm.held hlog fun e he => (hevs e he).accessOk
  | join t _ _ => exact hsame [] rfl rfl (by simp [MngDev.goto]) (by simp)
  | take t _ _ => exact hsame [] rfl rfl (by simp [MngDev.goto]) (by simp)
  | alloc t hin => exact hx.alloc t (hd (by rw [MngDev.AtAlloc, hin]; rfl))
  | release t n _ hle hbit hmap hheld _ _ _ hlog =>
      have hmem := hd (Int.natCast_nonneg n) (by simpa using hbit)
      rw [Int.toNat_natCast] at hmem
      exact hx.release hle hmem hmap hheld hlog
  | ready _ _ => exact hsame [] rfl rfl (by simp) (by simp)
  | give _ hmap hheld _ hlog _ => exact hsame [] hmap hheld (by simpa using hlog) (by simp)

/-- What `host_access_dereq` does with the semaphore, while nobody is inside `host_access_req`. -/
theorem semRtd3_hostAccessDereq {overshift : BitVec 32} {t : ℕ} {handler : ℤ} {x x' : MngDev}
    (hin : x.inside = none) (h : hostAccessDereq overshift t handler x = x') : x'.inside = none ∧
      (x'.held = x.held ∧ x'.semRtd3 = x.semRtd3 ∨
        x.rtd3ReqMap ≠ 0 ∧ (x'.rtd3ReqMap = 0 → x'.semRtd3 = true) ∧
          (x'.rtd3ReqMap ≠ 0 → x'.semRtd3 = x.semRtd3)) := by
  unfold hostAccessDereq at h
  split at h
  · next hvalid =>
      have hne : x.rtd3ReqMap ≠ 0 := fun hz => by
        rw [hz] at hvalid
        simp at hvalid
      have hgive : ∀ y : MngDev, y.inside = none → y.semGiveRtd3 = { y with semRtd3 := true } := by
        intro y hy
        rw [MngDev.semGiveRtd3, hy]
      dsimp only at h
      by_cases hz : x.rtd3ReqMap &&& ~~~ bit overshift handler.toNat = 0
      · rw [if_pos hz, hgive { x with
          rtd3ReqMap := x.rtd3ReqMap &&& ~~~ bit overshift handler.toNat
          held := x.held.erase (t, handler.toNat) } hin] at h
        subst h
        exact ⟨hin, Or.inr ⟨hne, fun _ => rfl, fun hnz => absurd hz hnz⟩⟩
      · rw [if_neg hz] at h
        subst h
        exact ⟨hin, Or.inr ⟨hne, fun hz' => absurd hz' hz, fun _ => rfl⟩⟩
  · subst h
    exact ⟨hin, Or.inl ⟨rfl, rfl⟩⟩

/-- **The last handle that is given back gives the semaphore**, and no other. -/
theorem AccessInv.givesLast {overshift : BitVec 32} {x x' : MngDev} (hx : AccessInv x) {t : ℕ}
    {handler : ℤ} (hd : AccessDiscipline x (.dereq t handler))
    (h : mngStep overshift (.dereq t handler) x = some x') : GivesLast x x' := by
  have hx' := accessInv_step hx hd h
  simp only [mngStep, Option.ite_none_right_eq_some] at h
  obtain ⟨hnone, h⟩ := h
  have hin := Option.isNone_iff_eq_none.1 hnone
  obtain ⟨hin', hsem⟩ := semRtd3_hostAccessDereq hin (Option.some.inj h)
  have hinside : x'.inside = x.inside := hin'.trans hin.symm
  have hpending : ¬ x.Pending := by
    rw [MngDev.Pending, hin]
    intro hp
    cases hp
  rcases hsem with ⟨hheld, hsem⟩ | ⟨hne, hgive, hleave⟩
  · have hhandles : x'.handles = x.handles := congrArg (List.map Prod.snd) hheld
    exact ⟨fun hlast => absurd (hhandles ▸ hlast.2) hlast.1, fun _ => ⟨hsem, hinside⟩⟩
  · refine ⟨fun hlast => Or.inr ⟨hpending, hinside, hgive (hx'.map_eq_zero_iff.2 hlast.2)⟩,
      fun hlast => ⟨hleave fun hz => hlast ⟨?_, hx'.map_eq_zero_iff.1 hz⟩, hinside⟩⟩
    exact fun hempty => hne (hx.map_eq_zero_iff.2 hempty)

/-- The start of the firmware. -/
def MngDev.Initial (x : MngDev) : Prop := x = MngDev.start

theorem accessInv_start : AccessInv MngDev.start :=
  ⟨by simp [MngDev.start], fun k => by simp [MngDev.start, MngDev.handles], List.nodup_nil⟩

/-- **Handles are fresh, the bitmap is the set of handles in use, and the last one that is given
back gives the semaphore**, in every state of a run of all parties in which the callers keep to the
discipline. -/
theorem accessSafe_of_disciplined {overshift : BitVec 32} {x : MngDev}
    (h : Lts.Reach MngDev.Initial (mngStep overshift) AccessDiscipline x) :
    AccessSafe overshift x := by
  have hinv : AccessInv x := by
    refine h.invariant (fun x hx => ?_) fun x l x' hx hd hst => accessInv_step hx hd hst
    rw [hx]
    exact accessInv_start
  exact ⟨hinv.events, hinv.map, fun _ _ _ hd hst => hinv.givesLast hd hst⟩

/-- A thread asks for access when nobody has it. -/
def firstReq (t : ℕ) : List MngLabel := [.lock t, .reqStep, .reqStep, .reqStep, .reqStep]

/-- A thread asks for access when somebody has it. -/
def nextReq (t : ℕ) : List MngLabel := [.lock t, .reqStep, .reqStep]

theorem exists_mngDisciplined (C : MngDev → MngLabel → Prop) [∀ x l, Decidable (C x l)]
    (ls : List MngLabel) (p : MngDev → Prop) [DecidablePred p]
    (h : (Lts.run (Lts.guarded C (mngStep 0)) MngDev.start ls).any (fun x => decide (p x)) = true) :
    ∃ x, Lts.Reach MngDev.Initial (mngStep 0) C x ∧ p x :=
  Lts.exists_reach_guarded (show MngDev.Initial MngDev.start from rfl) ls p h

/-- Two holders get different handles; the semaphore is still taken when the first one has given its
handle back, and the second one gives it. -/
theorem accessSafe_two_holders :
    ∃ x x', AccessSafe 0 x ∧ x.log = [.granted 0 0 [], .granted 1 1 [0], .released 0 0 [1]] ∧
      x.semRtd3 = false ∧ mngStep 0 (.dereq 1 1) x = some x' ∧ x'.semRtd3 = true := by
  obtain ⟨x, hreach, hlog, hsem, hheld, hst⟩ := exists_mngDisciplined AccessDiscipline
    (firstReq 0 ++ nextReq 1 ++ ([.dereq 0 0] : List MngLabel))
    (fun x => x.log = [.granted 0 0 [], .granted 1 1 [0], .released 0 0 [1]] ∧
      x.semRtd3 = false ∧ x.held = [(1, 1)] ∧
        ((mngStep 0 (.dereq 1 1) x).any fun x' => decide (x'.held = [])) = true)
    (by decide +kernel)
  have hsafe := accessSafe_of_disciplined hreach
  obtain ⟨x', hx', hnil⟩ := (Option.any_eq_true _ _).1 hst
  have hgives := hsafe.dereq 1 1 x' (fun _ _ => by rw [hheld]; exact List.mem_singleton_self _) hx'
  have hlast : x.handles ≠ [] ∧ x'.handles = [] := by
    rw [MngDev.handles, MngDev.handles, hheld, of_decide_eq_true hnil]
    exact ⟨List.cons_ne_nil _ _, rfl⟩
  have hin : x.inside = none := by
    simp only [mngStep, Option.ite_none_right_eq_some] at hx'
    exact Option.isNone_iff_eq_none.1 hx'.1
  refine ⟨x, x', hsafe, hlog, hsem, hx', ?_⟩
  rcases hgives.1 hlast with ⟨hpend, -⟩ | ⟨-, -, hgiven⟩
  · rw [MngDev.Pending, hin] at hpend
    cases hpend
  · exact hgiven

/-- Of three holders two have the same handle. -/
theorem not_accessSafe_three_holders :
    ∃ x, Lts.Reach MngDev.Initial (mngStep 0) Lts.Free x ∧
      x.log = [.granted 0 0 [], .granted 1 1 [0], .granted 2 1 [1, 0]] ∧ ¬ AccessSafe 0 x := by
  obtain ⟨x, hreach, hlog⟩ := exists_mngDisciplined Lts.Free
    (firstReq 0 ++ nextReq 1 ++ nextReq 2)
    (fun x => x.log = [.granted 0 0 [], .granted 1 1 [0], .granted 2 1 [1, 0]]) (by decide +kernel)
  refine ⟨x, hreach, hlog, fun hsafe => ?_⟩
  have hev := hsafe.events (.granted 2 1 [1, 0]) (by rw [hlog]; simp)
  exact hev.2 (by simp)

/-- **A handle that is taken against the discipline** is one that is in use, or none at all. -/
theorem not_accessSafe_alloc {overshift : BitVec 32} {x x' : MngDev} (hx : AccessSafe overshift x)
    (halloc : x.AtAlloc) (hd : ¬ AccessDiscipline x .reqStep)
    (h : mngStep overshift .reqStep x = some x') : ¬ AccessSafe overshift x' := by
  have hfree : ¬ FreeAbove x.rtd3ReqMap := fun hfree => hd fun _ => hfree
  obtain ⟨⟨t, pc⟩, hin, hpc⟩ := Option.map_eq_some_iff.1 halloc
  obtain rfl : pc = .alloc := hpc
  have hx' : x' = allocHandle overshift t x := by
    simp only [mngStep, reqStep, hin, Option.some.injEq] at h
    exact h.symm
  intro hsafe
  refine hfree ((freeAbove_iff _).2 ?_)
  have hev := hsafe.events (.granted t (findLsbSet x.rtd3ReqMap) x.handles) (by
    rw [hx', allocHandle]
    simp)
  refine ⟨hev.1, ?_⟩
  have hnot : ¬ x.rtd3ReqMap.getLsbD (findLsbSet x.rtd3ReqMap) = true := by
    rw [hx.map]
    exact hev.2
  simpa using hnot

end PseFw.Mng
