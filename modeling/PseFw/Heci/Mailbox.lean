/-
**The event mailbox of a client task.**

The clients of the firmware are built in one way: the callback stores the event in a variable and
gives a binary semaphore, and a task takes the semaphore and acts on the variable.  A new event
overwrites one the task has not looked at yet.  The task learns the id of its connection from the
message that announces it; if the event of that message is overwritten, the task goes on with the id
it had before.

Here any number of such tasks run against the layer, interleaved with the frames of the host and
with resets in every possible way.  A disconnection goes wrong when it overtakes the task: when the
task has not yet dispatched the announcement of the connection, or has taken the semaphore but not
yet read the variable.  In all other runs a task only ever completes its own connection, and every
connection that is closed is completed after at most six steps of its task.

The callback runs under the device lock, and between its two statements nothing reads the variable
that a step of the task before or after the callback would not read as well; so it is one step here.

Main definitions:

* `PseFw.Heci.Task`, `PseFw.Heci.taskStep` — `smhi_task` and `sec_hc_task`;
* `PseFw.Heci.MailSys`, `PseFw.Heci.mailStep` — the tasks together with the layer;
* `PseFw.Heci.Caught`, `PseFw.Heci.MailDiscipline` — no disconnection overtakes a task;
* `PseFw.Heci.TaskOk`, `PseFw.Heci.MailInv` — the invariant;
* `PseFw.Heci.MailSafe` — what the mailbox is for.

Main results:

* `PseFw.Heci.mailInv_step` — every disciplined step keeps the invariant;
* `PseFw.Heci.closing_step`, `PseFw.Heci.freed_of_run` — **a closed connection is completed**;
* `PseFw.Heci.mailSafe_of_disciplined` — the mailbox is safe as long as no disconnection overtakes a
  task.
-/

import PseFw.Heci.ClientView
import PseFw.Heci.Slots

set_option relaxedAutoImplicit false
set_option autoImplicit false

namespace PseFw.Heci

/-! ### A task -/

/-- Where a task is in its loop. -/
inductive TaskPc
  /-- At `k_sem_take`. -/
  | wait
  /-- The semaphore is taken, the event not yet read. -/
  | woken
  /-- In the branch for `HECI_EVENT_NEW_MSG`. -/
  | newMsg
  /-- In `smhi_process_msg` or `sec_hc_process_cmd`. -/
  | process
  /-- At `heci_send_flow_control`. -/
  | flow
  /-- At `heci_complete_disconnect`. -/
  | disconn
  deriving DecidableEq, Repr

/-- A task: `smhi_event`, the count of `smhi_event_sem`, `smhi_conn_id` and the place in the
loop. -/
structure Task where
  event : Option HeciEvent
  sem : Bool
  connId : ℕ
  pc : TaskPc
  deriving DecidableEq, Repr

/-- The static variables are zero, which is no event. -/
def Task.start : Task where
  event := none
  sem := false
  connId := 0
  pc := .wait

/-- `smhi_event_callback`. -/
def Task.eventCallback (t : Task) (event : HeciEvent) : Task :=
  { t with
    event := some event
    sem := true }

/-- The callbacks of one call of the layer. -/
def Task.hear (t : Task) (events : List HeciEvent) : Task := events.foldl Task.eventCallback t

@[simp] theorem Task.hear_nil (t : Task) : t.hear [] = t := rfl

@[simp] theorem Task.hear_singleton (t : Task) (e : HeciEvent) : t.hear [e] = t.eventCallback e :=
  rfl

/-! ### The tasks and the layer -/

/-- **The layer and its client tasks**, each named by its callback. -/
structure MailSys where
  dev : HeciDev
  tasks : EventCb → Task

namespace MailSys

/-- The layer has run, and the callbacks it made have reached the tasks. -/
def after (x : MailSys) (dev : HeciDev) : MailSys where
  dev := dev
  tasks := fun k => (x.tasks k).hear (heard k (newEvents x.dev dev))

/-- Replace a task. -/
def setTask (x : MailSys) (k : EventCb) (t : Task) : MailSys :=
  { x with tasks := Function.update x.tasks k t }

/-- After power-up. -/
structure Initial (x : MailSys) : Prop where
  dev : HeciDev.Initial x.dev
  tasks : ∀ k, x.tasks k = Task.start

end MailSys

/-- A call of the layer. -/
def callLayer (P : Platform) (l : Call) (x : MailSys) : Option MailSys :=
  (step P l x.dev).map x.after

/-- **A step of the loop of a task.** -/
def taskStep (P : Platform) (k : EventCb) (x : MailSys) : Option MailSys :=
  let t := x.tasks k
  match t.pc with
  | .wait =>
      if t.sem then some (x.setTask k { t with sem := false, pc := .woken }) else none
  | .woken =>
      match t.event with
      | some .newMsg => some (x.setTask k { t with pc := .newMsg })
      | some .disconn => some (x.setTask k { t with pc := .disconn })
      | none => some (x.setTask k { t with pc := .wait })
  | .newMsg =>
      let rx := x.dev.rxMsgs k
      if rx.msgLock = false then some (x.setTask k { t with pc := .wait })
      else if rx.type = .connect then
        some (x.setTask k { t with connId := rx.connectionId.toNat, pc := .flow })
      else some (x.setTask k { t with pc := .process })
  | .process => some (x.setTask k { t with pc := .flow })
  | .flow =>
      callLayer P (.op (.sendFlowControl t.connId)) (x.setTask k { t with pc := .wait })
  | .disconn =>
      callLayer P (.op (.completeDisconnect t.connId)) (x.setTask k { t with pc := .wait })

/-- While a task processes a message it may answer it: `heci_send`. -/
def taskSend (P : Platform) (k : EventCb) (msg : List Mrd) (x : MailSys) : Option MailSys :=
  if (x.tasks k).pc = .process then
    if h : (x.tasks k).connId < heciMaxNumOfConnections then
      callLayer P (.send ⟨(x.tasks k).connId, h⟩ msg) x
    else some x
  else none

/-- The steps of the system. -/
inductive MailLabel
  | recv (msg : HeciBusMsg)
  | reset
  | register (client : HeciClient)
  | task (k : EventCb)
  | taskSend (k : EventCb) (msg : List Mrd)

/-- A step of the loop of the given task. -/
def MailLabel.isTask (k : EventCb) : MailLabel → Bool
  | .task k' => k' == k
  | _ => false

/-- **What a step does.**  A client registers with a callback and a buffer of its own, for one
connection, as `smhi_init` and `sec_hc_init` do. -/
def mailStep (P : Platform) : MailLabel → MailSys → Option MailSys
  | .recv msg, x => callLayer P (.op (.recv msg)) x
  | .reset, x => callLayer P (.op .reset) x
  | .register client, x =>
      if FreshClient x.dev client then callLayer P (.op (.register (some client))) x else none
  | .task k, x => taskStep P k x
  | .taskSend k msg, x => taskSend P k msg x

/-! ### The discipline -/

/-- The task can be told that its connection is closed: it acts on the announcement of the
connection right now, or it has the id of the connection and is not about to read its event. -/
def Caught (t : Task) (c : ConnId) : Prop :=
  t.pc = .newMsg ∨ t.pc ≠ .woken ∧ t.connId = c

instance (t : Task) (c : ConnId) : Decidable (Caught t c) :=
  inferInstanceAs (Decidable (_ ∨ _ ∧ _))

/-- The connections the operation closes have tasks that can be told. -/
def ClosesCaught (x : MailSys) (o : Op) : Prop :=
  ∀ c, Closes x.dev c o → ∀ k ∈ (x.dev.connections c).eventCb, Caught (x.tasks k) c

instance (x : MailSys) (o : Op) : Decidable (ClosesCaught x o) :=
  inferInstanceAs (Decidable (∀ c, Closes x.dev c o → ∀ k ∈ (x.dev.connections c).eventCb, _))

/-- **No disconnection overtakes a task.** -/
def MailDiscipline (x : MailSys) : MailLabel → Prop
  | .recv msg => ClosesCaught x (.recv msg)
  | .reset => ClosesCaught x .reset
  | _ => True

instance (x : MailSys) (l : MailLabel) : Decidable (MailDiscipline x l) :=
  match l with
  | .recv _ | .reset => inferInstanceAs (Decidable (ClosesCaught _ _))
  | .register _ | .task _ | .taskSend _ _ => isTrue trivial

/-! ### The invariant -/

/-- A task whose connection is open: it has the id of the connection, or the announcement waits for
it. -/
structure OpenOk (s : HeciDev) (k : EventCb) (c : ConnId) (t : Task) : Prop where
  rx : RxOk s k c
  event : t.pc = .woken ∨ t.sem = true → t.event = some .newMsg
  pc : t.pc ≠ .disconn
  learns : t.connId = c ∨ Announced s k c
  knows : t.pc = .process ∨ t.pc = .flow ∨ t.pc = .wait ∧ t.sem = false → t.connId = c

/-- A task whose connection is closing: the event is on its way, and it is the only one. -/
structure CloseOk (s : HeciDev) (k : EventCb) (c : ConnId) (t : Task) : Prop where
  rx : RxOk s k c
  learns : t.connId = c ∨ t.pc = .newMsg ∧ Announced s k c
  event : t.pc ≠ .disconn → t.event = some .disconn
  sem : t.sem = true ↔ t.pc ≠ .woken ∧ t.pc ≠ .disconn

/-- **What a task knows about its connection.** -/
inductive TaskOk (s : HeciDev) (k : EventCb) (t : Task) : Prop
  | idle : (∀ c, ¬ Owns s k c) → t.pc = .wait → t.sem = false → TaskOk s k t
  | active (c : ConnId) : Owns s k c → IsOpen (s.connections c) → OpenOk s k c t → TaskOk s k t
  | closing (c : ConnId) : Owns s k c → Closing (s.connections c) → CloseOk s k c t → TaskOk s k t

/-- **The invariant of the system.** -/
structure MailInv (x : MailSys) : Prop where
  table : TableInv x.dev
  ptr : PtrInv x.dev
  own : OwnBuffers x.dev
  tasks : ∀ k, TaskOk x.dev k (x.tasks k)

theorem mailInv_initial {x : MailSys} (h : x.Initial) : MailInv x := by
  have hunused : ∀ c, ¬ Used (x.dev.connections c) := by
    intro c hu
    rw [h.dev.connections c] at hu
    exact hu rfl
  have hfree : ∀ i, ¬ Registered x.dev i := by
    intro i hi
    unfold Registered at hi
    rw [h.dev.clients i] at hi
    exact hi rfl
  refine ⟨tableInv_initial h.dev, ptrInv_initial h.dev, ⟨fun i hi => absurd hi (hfree i),
    fun i _ hi => absurd hi (hfree i)⟩, fun k => ?_⟩
  rw [h.tasks k]
  exact TaskOk.idle (fun c hc => hunused c hc.1) rfl rfl

/-! ### A call of the layer -/

section call

variable {P : Platform} {l : Call} {k : EventCb} {s s' : HeciDev} {t : Task}

/-- Only the operations that close a connection close it. -/
theorem closes_of_step (hT : TableInv s) (h : step P l s = some s') {c : ConnId}
    (hopen : IsOpen (s.connections c)) (hn : ¬ IsOpen (s'.connections c)) :
    ∃ o, l = .op o ∧ Closes s c o := by
  cases l with
  | send d msg =>
      obtain ⟨r, hr, rfl⟩ := Option.map_eq_some_iff.1 h
      have htame := tame_send (heciSend_cases hT hr)
      exact absurd ((htame.connections c).isOpen_iff.2 hopen) hn
  | op o =>
      refine ⟨o, rfl, ?_⟩
      cases opStep_slot hT h c with
      | same hs _ => exact absurd (hs.isOpen.2 hopen) hn
      | opened f h' _ hu _ _ _ _ => exact absurd hu hopen.ne_unused
      | closed hc _ _ _ _ => exact hc
      | granted n _ _ ho _ _ _ => exact absurd ho hn
      | takenBack _ _ ho _ _ _ => exact absurd ho hn
      | freed _ ho _ _ _ => exact absurd hopen ho

/-- A message for the task, or the announcement of its connection. -/
theorem OpenOk.newMsg {c : ConnId} (h : OpenOk s k c t) (hrx : RxOk s' k c)
    (ha : Announced s k c → Announced s' k c) : OpenOk s' k c (t.eventCallback .newMsg) where
  rx := hrx
  event := fun _ => rfl
  pc := h.pc
  learns := h.learns.imp_right ha
  knows := by
    rintro (hpc | hpc | ⟨-, hsem⟩)
    · exact h.knows (Or.inl hpc)
    · exact h.knows (Or.inr (Or.inl hpc))
    · cases hsem

/-- The announcement of its connection wakes an idle task. -/
theorem OpenOk.opened {c : ConnId} (hpc : t.pc = .wait) (ha : Announced s' k c) :
    OpenOk s' k c (t.eventCallback .newMsg) where
  rx := fun _ => ha.connectionId
  event := fun _ => rfl
  pc := by
    show t.pc ≠ _
    rw [hpc]
    decide
  learns := Or.inr ha
  knows := by
    have hpc' : (t.eventCallback .newMsg).pc = .wait := hpc
    rw [hpc']
    rintro (h | h | ⟨-, h⟩) <;> cases h

/-- A task that can be told is told. -/
theorem OpenOk.disconn {c : ConnId} (h : OpenOk s k c t) (hc : Caught t c)
    (hrx : s'.rxMsgs k = s.rxMsgs k) (hst : (s'.connections c).state ≠ 3) :
    CloseOk s' k c (t.eventCallback .disconn) where
  rx := by
    unfold RxOk
    rw [hrx]
    exact h.rx
  learns := by
    rcases hc with hpc | ⟨-, hid⟩
    · refine h.learns.imp_right fun ha => ⟨hpc, hst, ?_, ?_, ?_⟩
      · rw [hrx]
        exact ha.msgLock
      · rw [hrx]
        exact ha.type
      · rw [hrx]
        exact ha.connectionId
    · exact Or.inl hid
  event := fun _ => rfl
  sem := by
    refine iff_of_true rfl ⟨?_, h.pc⟩
    rcases hc with hpc | ⟨hpc, -⟩
    · show t.pc ≠ _
      rw [hpc]
      decide
    · exact hpc

/-- **A call keeps a task in step with its connection**, as long as it does not overtake it, gives
no buffer back the task has not read, and completes no connection of it. -/
theorem taskOk_call (hT : TableInv s) (hB : OwnBuffers s) (hT' : TableInv s')
    (hstep : step P l s = some s') (hs : ClientStep k l s s')
    (hcaught : ∀ c o, l = .op o → Closes s c o → (s.connections c).eventCb = some k → Caught t c)
    (hrel : ∀ c : ConnId, l = .op (.sendFlowControl c) → Owns s k c → t.connId = c)
    (hfree : ∀ c : ConnId, l = .op (.completeDisconnect c) → ¬ Owns s k c)
    (h : TaskOk s k t) : TaskOk s' k (t.hear (heard k (newEvents s s'))) := by
  cases hs with
  | unseen hu =>
      rw [hu.hears.newEvents, Task.hear_nil]
      cases h with
      | idle hno hpc hsem => exact TaskOk.idle (fun c hc => hno c ((hu.owns c).1 hc)) hpc hsem
      | active c hc hopen ht =>
          exact TaskOk.active c ((hu.owns c).2 hc) ((hu.isOpen c hc).2 hopen)
            ⟨hu.rxOk c hc ht.rx, ht.event, ht.pc, ht.learns.imp_right (hu.announced c hc), ht.knows⟩
      | closing c hc hcl ht =>
          have hc' := (hu.owns c).2 hc
          refine TaskOk.closing c hc' ?_ ⟨hu.rxOk c hc ht.rx,
            ht.learns.imp_right (And.imp_right (hu.announced c hc)), ht.event, ht.sem⟩
          rcases hT'.open_or_closing hc'.1 with ho | hcl'
          · exact absurd ((hu.isOpen c hc).1 ho) hcl.not_isOpen
          · exact hcl'
  | opened c hno hc hopen ha hh =>
      rw [hh.newEvents, Task.hear_singleton]
      cases h with
      | idle _ hpc _ => exact TaskOk.active c hc hopen (OpenOk.opened hpc ha)
      | active d hd _ _ => exact absurd hd (hno d)
      | closing d hd _ _ => exact absurd hd (hno d)
  | message c hc hopen hst hh =>
      rw [hh.newEvents, Task.hear_singleton]
      cases h with
      | idle hno _ _ => exact absurd hc (hno c)
      | active d hd ho ht =>
          obtain rfl := hB.unique hT hc hd
          exact TaskOk.active c ((hst.owns c).2 hc) ((hst.isOpen c hc).2 hopen)
            (ht.newMsg (hst.rxOk c hc ht.rx) (hst.announced c hc))
      | closing d hd hcl _ =>
          obtain rfl := hB.unique hT hc hd
          exact absurd hopen hcl.not_isOpen
  | closed c hc hopen how hcl hrx hh =>
      rw [hh.newEvents, Task.hear_singleton]
      cases h with
      | idle hno _ _ => exact absurd hc (hno c)
      | active d hd _ ht =>
          obtain rfl := hB.unique hT hc hd
          obtain ⟨o, hl, hclose⟩ := closes_of_step hT hstep hopen hcl.not_isOpen
          refine TaskOk.closing c ((how c).2 hc) hcl
            (ht.disconn (hcaught c o hl hclose hc.2) hrx fun h3 => ?_)
          exact hcl.not_isOpen (Or.inr h3)
      | closing d hd hcl' _ =>
          obtain rfl := hB.unique hT hc hd
          exact absurd hopen hcl'.not_isOpen
  | released c hl hc hopen how hopen' hr hh =>
      rw [hh.newEvents, Task.hear_nil]
      cases h with
      | idle hno _ _ => exact absurd hc (hno c)
      | active d hd _ ht =>
          obtain rfl := hB.unique hT hc hd
          have hid := hrel c hl hc
          exact TaskOk.active c ((how c).2 hc) hopen'
            ⟨hr, ht.event, ht.pc, Or.inl hid, fun _ => hid⟩
      | closing d hd hcl _ =>
          obtain rfl := hB.unique hT hc hd
          exact absurd hopen hcl.not_isOpen
  | freed c hl hc _ _ _ => exact absurd hc (hfree c hl)

/-- A call that completes no connection of a task leaves its closing connection alone, and does not
call it. -/
theorem closing_call (hT : TableInv s) (hB : OwnBuffers s) (hT' : TableInv s')
    (hs : ClientStep k l s s') {c : ConnId} (hc : Owns s k c) (hcl : Closing (s.connections c))
    (hfree : ∀ d : ConnId, l = .op (.completeDisconnect d) → ¬ Owns s k d) :
    Owns s' k c ∧ Closing (s'.connections c) ∧ heard k (newEvents s s') = [] := by
  have hnot : ∀ d, Owns s k d → ¬ IsOpen (s.connections d) := by
    intro d hd
    rw [hB.unique hT hd hc]
    exact hcl.not_isOpen
  cases hs with
  | unseen hu =>
      have hc' := (hu.owns c).2 hc
      refine ⟨hc', ?_, hu.hears.newEvents⟩
      rcases hT'.open_or_closing hc'.1 with ho | hcl'
      · exact absurd ((hu.isOpen c hc).1 ho) hcl.not_isOpen
      · exact hcl'
  | opened d hno _ _ _ _ => exact absurd hc (hno c)
  | message d hd ho _ _ => exact absurd ho (hnot d hd)
  | closed d hd ho _ _ _ _ => exact absurd ho (hnot d hd)
  | released d _ hd ho _ _ _ _ => exact absurd ho (hnot d hd)
  | freed d hl hd _ _ _ => exact absurd hd (hfree d hl)

/-- The trace only grows. -/
theorem ClientStep.events (hs : ClientStep k l s s') : ∃ evs, s'.events = s.events ++ evs := by
  have hears : ∀ {hs}, Hears k s s' hs → ∃ evs, s'.events = s.events ++ evs := by
    rintro hs ⟨evs, he, -⟩
    exact ⟨evs, he⟩
  cases hs with
  | unseen hu => exact hears hu.hears
  | opened _ _ _ _ _ hh => exact hears hh
  | message _ _ _ _ hh => exact hears hh
  | closed _ _ _ _ _ _ hh => exact hears hh
  | released _ _ _ _ _ _ _ hh => exact hears hh
  | freed _ _ _ _ _ hh => exact hears hh

end call

/-! ### The cases of a step -/

/-- How far a task is from completing its connection. -/
def Task.rank (t : Task) : ℕ :=
  match t.pc with
  | .newMsg => 6
  | .process => 5
  | .flow => 4
  | .wait => 3
  | .woken => 2
  | .disconn => 1

/-- A task has moved, without the layer. -/
structure Moved (l : MailLabel) (x y : MailSys) : Prop where
  inv : MailInv y
  dev : y.dev = x.dev
  rank : ∀ k c, Owns x.dev k c → Closing (x.dev.connections c) →
    (y.tasks k).rank + (l.isTask k).toNat ≤ (x.tasks k).rank

/-- **The call does no harm to any task.** -/
structure Polite (x : MailSys) (call : Call) : Prop where
  caught : ∀ k c o, call = .op o → Closes x.dev c o → (x.dev.connections c).eventCb = some k →
    Caught (x.tasks k) c
  release : ∀ (k : EventCb) (c : ConnId), call = .op (.sendFlowControl c) → Owns x.dev k c →
    (x.tasks k).connId = c
  free : ∀ (k : EventCb) (c : ConnId), call = .op (.completeDisconnect c) → ¬ Owns x.dev k c
  fresh : ∀ client, call = .op (.register (some client)) → FreshClient x.dev client

/-- **The cases of a step**: a task moves, it may call the layer then, or it completes its own
connection. -/
inductive MailCase (P : Platform) (l : MailLabel) (x : MailSys) : MailSys → Prop
  | moved {y : MailSys} : Moved l x y → MailCase P l x y
  | called {y : MailSys} {dev : HeciDev} (call : Call) : Moved l x y →
      step P call y.dev = some dev → Polite y call → MailCase P l x (y.after dev)
  | completed (k : EventCb) (c : ConnId) (i : ClientId) : l = .task k → Owns x.dev k c →
      Closing (x.dev.connections c) → (x.tasks k).sem = false →
      step P (.op (.completeDisconnect c)) x.dev =
        some (freeConn c i (respondDisconnect P c (releaseRx c x.dev))) →
      MailCase P l x ((x.setTask k { x.tasks k with pc := .wait }).after
        (freeConn c i (respondDisconnect P c (releaseRx c x.dev))))

section cases

variable {P : Platform} {x y : MailSys} {l : MailLabel} {k : EventCb}

theorem Moved.refl (h : MailInv x) (hl : ∀ k, l.isTask k = false) : Moved l x x := by
  refine ⟨h, rfl, fun k _ _ _ => ?_⟩
  rw [hl k]
  exact le_refl _

theorem MailInv.setTask (h : MailInv x) {t : Task} (ht : TaskOk x.dev k t) :
    MailInv (x.setTask k t) := by
  refine ⟨h.table, h.ptr, h.own, fun j => ?_⟩
  show TaskOk x.dev j (Function.update x.tasks k t j)
  by_cases hj : j = k
  · subst hj
    rw [Function.update_self]
    exact ht
  · rw [Function.update_of_ne hj]
    exact h.tasks j

/-- A task moves on its own. -/
theorem Moved.setTask (h : MailInv x) {t : Task} (ht : TaskOk x.dev k t)
    (hrank : ∀ c, Owns x.dev k c → Closing (x.dev.connections c) →
      t.rank + 1 ≤ (x.tasks k).rank) : Moved (.task k) x (x.setTask k t) := by
  refine ⟨h.setTask ht, rfl, fun j c hc hcl => ?_⟩
  show (Function.update x.tasks k t j).rank + (k == j).toNat ≤ _
  by_cases hj : j = k
  · subst hj
    rw [Function.update_self, beq_self_eq_true, Bool.toNat_true]
    exact hrank c hc hcl
  · rw [Function.update_of_ne hj, beq_eq_false_iff_ne.2 (Ne.symm hj), Bool.toNat_false]
    exact le_refl _

/-- The environment closes connections, and no call of its gives a buffer back. -/
theorem polite_of_caught {o : Op} (hrel : ∀ n, o ≠ .sendFlowControl n)
    (hfree : ∀ n, o ≠ .completeDisconnect n) (hfresh : ∀ client, o = .register (some client) →
      FreshClient x.dev client) (h : ClosesCaught x o) : Polite x (.op o) := by
  refine ⟨fun k c o' ho hcl hk => ?_, fun k c ho => ?_, fun k c ho => ?_, fun client ho => ?_⟩
  · cases ho
    exact h c hcl k hk
  · cases ho
    exact absurd rfl (hrel c)
  · cases ho
    exact absurd rfl (hfree c)
  · cases ho
    exact hfresh client rfl

/-! ### The loop of a task -/

theorem toNat_ofNat_connId (c : ConnId) : (UInt8.ofNat c).toNat = c := by
  have hlt : c.val < 8 := c.isLt
  rw [UInt8.toNat_ofNat']
  omega

/-- The task takes the semaphore. -/
theorem TaskOk.take {s : HeciDev} {t : Task} (h : TaskOk s k t) (hpc : t.pc = .wait)
    (hsem : t.sem = true) : TaskOk s k { t with sem := false, pc := .woken } := by
  cases h with
  | idle _ _ hno =>
      rw [hsem] at hno
      cases hno
  | active c hc ho ht =>
      refine TaskOk.active c hc ho ⟨ht.rx, fun _ => ht.event (Or.inr hsem), nofun, ht.learns, ?_⟩
      rintro (h | h | ⟨h, -⟩) <;> cases h
  | closing c hc hcl ht =>
      have hid : t.connId = c := by
        refine ht.learns.resolve_right fun hl => ?_
        rw [hpc] at hl
        cases hl.1
      refine TaskOk.closing c hc hcl ⟨ht.rx, Or.inl hid, fun _ => ht.event ?_, ?_⟩
      · rw [hpc]
        decide
      · simp

/-- The task finds a message. -/
theorem TaskOk.dispatchNewMsg {s : HeciDev} {t : Task} (h : TaskOk s k t) (hpc : t.pc = .woken)
    (hev : t.event = some .newMsg) : TaskOk s k { t with pc := .newMsg } := by
  cases h with
  | idle _ hno _ =>
      rw [hpc] at hno
      cases hno
  | active c hc ho ht =>
      refine TaskOk.active c hc ho ⟨ht.rx, fun _ => hev, nofun, ht.learns, ?_⟩
      rintro (h | h | ⟨h, -⟩) <;> cases h
  | closing c hc hcl ht =>
      have hdis := ht.event (by rw [hpc]; decide)
      rw [hev] at hdis
      cases hdis

/-- The task finds that its connection is closed. -/
theorem TaskOk.dispatchDisconn {s : HeciDev} {t : Task} (h : TaskOk s k t) (hpc : t.pc = .woken)
    (hev : t.event = some .disconn) : TaskOk s k { t with pc := .disconn } := by
  cases h with
  | idle _ hno _ =>
      rw [hpc] at hno
      cases hno
  | active c hc ho ht =>
      have hnew := ht.event (Or.inl hpc)
      rw [hev] at hnew
      cases hnew
  | closing c hc hcl ht =>
      have hid : t.connId = c := by
        refine ht.learns.resolve_right fun hl => ?_
        rw [hpc] at hl
        cases hl.1
      have hsem : t.sem = false := by
        by_contra hs
        exact (ht.sem.1 (by simpa using hs)).1 hpc
      refine TaskOk.closing c hc hcl ⟨ht.rx, Or.inl hid, fun hne => absurd rfl hne, ?_⟩
      simp [hsem]

/-- There is always an event when the task is woken. -/
theorem TaskOk.event_isSome {s : HeciDev} {t : Task} (h : TaskOk s k t) (hpc : t.pc = .woken) :
    t.event.isSome := by
  cases h with
  | idle _ hno _ =>
      rw [hpc] at hno
      cases hno
  | active c _ _ ht => rw [ht.event (Or.inl hpc), Option.isSome_some]
  | closing c _ _ ht => rw [ht.event (by rw [hpc]; decide), Option.isSome_some]

/-- **The task knows its connection and goes on**, within the branch for messages or out of it. -/
theorem TaskOk.goOn {s : HeciDev} {t : Task} (h : TaskOk s k t) {n : ℕ} {pc : TaskPc}
    (hpc : t.pc = .newMsg ∨ t.pc = .process ∨ t.pc = .flow)
    (hpc' : pc = .wait ∨ pc = .process ∨ pc = .flow) (hn : ∀ c : ConnId, Owns s k c → n = c) :
    TaskOk s k { t with connId := n, pc := pc } := by
  have hne : t.pc ≠ .woken ∧ t.pc ≠ .disconn ∧ t.pc ≠ .wait := by
    rcases hpc with h | h | h <;> rw [h] <;> decide
  have hne' : pc ≠ .woken ∧ pc ≠ .disconn := by
    rcases hpc' with h | h | h <;> rw [h] <;> decide
  cases h with
  | idle _ hno _ => exact absurd hno hne.2.2
  | active c hc ho ht =>
      have hid := hn c hc
      refine TaskOk.active c hc ho ⟨ht.rx, fun hor => ?_, hne'.2, Or.inl hid, fun _ => hid⟩
      rcases hor with h | h
      · exact absurd h hne'.1
      · exact ht.event (Or.inr h)
  | closing c hc hcl ht =>
      exact TaskOk.closing c hc hcl ⟨ht.rx, Or.inl (hn c hc), fun _ => ht.event hne.2.1,
        iff_of_true (ht.sem.2 ⟨hne.1, hne.2.1⟩) hne'⟩

/-- The task has the id of its connection, or can still read it. -/
theorem TaskOk.learns {s : HeciDev} (hT : TableInv s) (hB : OwnBuffers s) {t : Task}
    (h : TaskOk s k t) {c : ConnId} (hc : Owns s k c) :
    RxOk s k c ∧ (t.connId = c ∨ Announced s k c) := by
  cases h with
  | idle hno _ _ => exact absurd hc (hno c)
  | active d hd _ ht =>
      obtain rfl := hB.unique hT hc hd
      exact ⟨ht.rx, ht.learns⟩
  | closing d hd _ ht =>
      obtain rfl := hB.unique hT hc hd
      exact ⟨ht.rx, ht.learns.imp_right And.right⟩

theorem TaskOk.connId_of_busy {s : HeciDev} (hT : TableInv s) (hB : OwnBuffers s) {t : Task}
    (h : TaskOk s k t) (hpc : t.pc = .process ∨ t.pc = .flow) {c : ConnId} (hc : Owns s k c) :
    t.connId = c := by
  cases h with
  | idle hno _ _ => exact absurd hc (hno c)
  | active d hd _ ht =>
      obtain rfl := hB.unique hT hc hd
      exact ht.knows (hpc.imp_right Or.inl)
  | closing d hd _ ht =>
      obtain rfl := hB.unique hT hc hd
      refine ht.learns.resolve_right fun hl => ?_
      rcases hpc with h | h <;> rw [h] at hl <;> cases hl.1

/-- The task of a closing connection is told. -/
theorem TaskOk.closeOk {s : HeciDev} (hT : TableInv s) (hB : OwnBuffers s) {t : Task}
    (h : TaskOk s k t) {c : ConnId} (hc : Owns s k c) (hcl : Closing (s.connections c)) :
    CloseOk s k c t := by
  cases h with
  | idle hno _ _ => exact absurd hc (hno c)
  | active d hd ho _ =>
      obtain rfl := hB.unique hT hc hd
      exact absurd ho hcl.not_isOpen
  | closing d hd _ ht =>
      obtain rfl := hB.unique hT hc hd
      exact ht

/-- A busy task has a connection. -/
theorem TaskOk.exists_owns {s : HeciDev} {t : Task} (h : TaskOk s k t) (hpc : t.pc ≠ .wait) :
    ∃ c, Owns s k c := by
  cases h with
  | idle _ hno _ => exact absurd hno hpc
  | active c hc _ _ => exact ⟨c, hc⟩
  | closing c hc _ _ => exact ⟨c, hc⟩

/-- The task at `heci_complete_disconnect` completes its own connection. -/
theorem TaskOk.of_disconn {s : HeciDev} {t : Task} (h : TaskOk s k t) (hpc : t.pc = .disconn) :
    ∃ c : ConnId, t.connId = c ∧ Owns s k c ∧ Closing (s.connections c) ∧ t.sem = false := by
  cases h with
  | idle _ hno _ =>
      rw [hpc] at hno
      cases hno
  | active c _ _ ht => exact absurd hpc ht.pc
  | closing c hc hcl ht =>
      refine ⟨c, ht.learns.resolve_right fun hl => ?_, hc, hcl, ?_⟩
      · rw [hpc] at hl
        cases hl.1
      · by_contra hs
        exact (ht.sem.1 (by simpa using hs)).2 hpc

/-- A closing connection can be completed. -/
theorem step_complete {s : HeciDev} (hT : TableInv s) {c : ConnId}
    (hcl : Closing (s.connections c)) : ∃ i, step P (.op (.completeDisconnect c)) s =
      some (freeConn c i (respondDisconnect P c (releaseRx c s))) := by
  obtain ⟨i, hi, -⟩ := hT.owner (state_disjoint hcl).2
  refine ⟨i, ?_⟩
  have hdis := (hT.conns c).disconnecting_iff.2 hcl
  simp [step, opStep, heciCompleteDisconnect, hdis, hi]

/-- The task gives its buffer back. -/
theorem polite_flow (h : MailInv x) (hpc : (x.tasks k).pc = .flow) :
    Polite (x.setTask k { x.tasks k with pc := .wait })
      (.op (.sendFlowControl (x.tasks k).connId)) := by
  obtain ⟨d, hd⟩ := (h.tasks k).exists_owns (by rw [hpc]; decide)
  have hid := (h.tasks k).connId_of_busy h.table h.own (Or.inr hpc) hd
  refine ⟨fun j c o ho hcl _ => ?_, fun j c ho hc => ?_, fun j c ho => ?_, fun client ho => ?_⟩
  · cases ho
    exact hcl.elim
  · have hcd : c = d := by
      have hval : (x.tasks k).connId = c := Op.sendFlowControl.inj (Call.op.inj ho)
      exact Fin.ext (hval.symm.trans hid)
    -- the buffer that is given back is the task's own
    have hjk : j = k := by
      rw [hcd] at hc
      exact Option.some.inj (hc.2.symm.trans hd.2)
    show (Function.update x.tasks k { x.tasks k with pc := .wait } j).connId = c
    rw [hjk, Function.update_self, hcd]
    exact hid
  · cases ho
  · cases ho

/-- **The cases of a step of a task.** -/
theorem taskStep_cases (h : MailInv x) (hs : taskStep P k x = some y) :
    MailCase P (.task k) x y := by
  have ht := h.tasks k
  unfold taskStep at hs
  dsimp only at hs
  cases hpc : (x.tasks k).pc with
  | wait =>
      rw [hpc] at hs
      dsimp only at hs
      split at hs
      · next hsem =>
          cases hs
          refine MailCase.moved (Moved.setTask h (ht.take hpc hsem) fun _ _ _ => ?_)
          simp [Task.rank, hpc]
      · cases hs
  | woken =>
      rw [hpc] at hs
      dsimp only at hs
      split at hs
      · next hev =>
          cases hs
          refine MailCase.moved (Moved.setTask h (ht.dispatchNewMsg hpc hev) fun c hc hcl => ?_)
          have hdis := (ht.closeOk h.table h.own hc hcl).event (by rw [hpc]; decide)
          rw [hev] at hdis
          cases hdis
      · next hev =>
          cases hs
          refine MailCase.moved (Moved.setTask h (ht.dispatchDisconn hpc hev) fun _ _ _ => ?_)
          simp [Task.rank, hpc]
      · next hev =>
          have hsome := ht.event_isSome hpc
          rw [hev] at hsome
          cases hsome
  | newMsg =>
      rw [hpc] at hs
      dsimp only at hs
      have hlearns := fun c hc => ht.learns h.table h.own (c := c) hc
      split at hs
      · next hl =>
          cases hs
          refine MailCase.moved (Moved.setTask h (t := { x.tasks k with pc := .wait }) ?_ ?_)
          · refine ht.goOn (Or.inl hpc) (Or.inl rfl) fun c hc => ?_
            refine (hlearns c hc).2.resolve_right fun ha => ?_
            rw [ha.msgLock] at hl
            cases hl
          · intro _ _ _
            simp [Task.rank, hpc]
      · split at hs
        · next htype =>
            cases hs
            refine MailCase.moved (Moved.setTask h ?_ ?_)
            · refine ht.goOn (Or.inl hpc) (Or.inr (Or.inr rfl)) fun c hc => ?_
              rw [(hlearns c hc).1 htype]
              exact toNat_ofNat_connId c
            · intro _ _ _
              simp [Task.rank, hpc]
        · next htype =>
            cases hs
            refine MailCase.moved (Moved.setTask h (t := { x.tasks k with pc := .process }) ?_ ?_)
            · refine ht.goOn (Or.inl hpc) (Or.inr (Or.inl rfl)) fun c hc => ?_
              exact (hlearns c hc).2.resolve_right fun ha => htype ha.type
            · intro _ _ _
              simp [Task.rank, hpc]
  | process =>
      rw [hpc] at hs
      cases hs
      refine MailCase.moved (Moved.setTask h (t := { x.tasks k with pc := .flow }) ?_ ?_)
      · exact ht.goOn (Or.inr (Or.inl hpc)) (Or.inr (Or.inr rfl))
          fun c hc => ht.connId_of_busy h.table h.own (Or.inl hpc) hc
      · intro _ _ _
        simp [Task.rank, hpc]
  | flow =>
      rw [hpc] at hs
      obtain ⟨dev, hdev, rfl⟩ := Option.map_eq_some_iff.1 hs
      refine MailCase.called _ (Moved.setTask h ?_ ?_) hdev (polite_flow h hpc)
      · exact ht.goOn (Or.inr (Or.inr hpc)) (Or.inl rfl)
          fun c hc => ht.connId_of_busy h.table h.own (Or.inr hpc) hc
      · intro _ _ _
        simp [Task.rank, hpc]
  | disconn =>
      rw [hpc] at hs
      obtain ⟨c, hid, hc, hcl, hsem⟩ := ht.of_disconn hpc
      obtain ⟨i, hi⟩ := step_complete (P := P) h.table hcl
      obtain ⟨dev, hdev, rfl⟩ := Option.map_eq_some_iff.1 hs
      rw [hid] at hdev
      have hd : dev = _ := Option.some.inj (hdev.symm.trans hi)
      subst hd
      exact MailCase.completed k c i rfl hc hcl hsem hi

/-- **The cases of a step are exhaustive.** -/
theorem mailStep_cases (h : MailInv x) (hd : MailDiscipline x l) (hs : mailStep P l x = some y) :
    MailCase P l x y := by
  cases l with
  | recv msg =>
      obtain ⟨dev, hdev, rfl⟩ := Option.map_eq_some_iff.1 hs
      exact MailCase.called _ (Moved.refl h fun _ => rfl) hdev
        (polite_of_caught nofun nofun nofun hd)
  | reset =>
      simp only [mailStep, callLayer] at hs
      obtain ⟨dev, hdev, rfl⟩ := Option.map_eq_some_iff.1 hs
      exact MailCase.called _ (Moved.refl h fun _ => rfl) hdev
        (polite_of_caught nofun nofun nofun hd)
  | register client =>
      simp only [mailStep] at hs
      split at hs
      · next hf =>
          obtain ⟨dev, hdev, rfl⟩ := Option.map_eq_some_iff.1 hs
          refine MailCase.called _ (Moved.refl h fun _ => rfl) hdev
            (polite_of_caught nofun nofun (fun client' ho => ?_) fun c hcl => hcl.elim)
          cases ho
          exact hf
      · cases hs
  | task k => exact taskStep_cases h hs
  | taskSend k msg =>
      simp only [mailStep, taskSend] at hs
      split at hs
      · split at hs
        · obtain ⟨dev, hdev, rfl⟩ := Option.map_eq_some_iff.1 hs
          exact MailCase.called _ (Moved.refl h fun _ => rfl) hdev ⟨nofun, nofun, nofun, nofun⟩
        · cases hs
          exact MailCase.moved (Moved.refl h fun _ => rfl)
      · cases hs

/-! ### Runs -/

/-- The invariants of the layer hold after a call. -/
theorem MailInv.keeps (h : MailInv x) {call : Call} {dev : HeciDev}
    (hdev : step P call x.dev = some dev) : TableInv dev ∧ PtrInv dev :=
  ⟨(keeps_tableInv P).step h.table hdev, (keeps_ptrInv P).step h.ptr hdev⟩

/-- A polite call keeps the invariant. -/
theorem MailInv.call (h : MailInv x) {call : Call} {dev : HeciDev}
    (hdev : step P call x.dev = some dev) (hp : Polite x call) : MailInv (x.after dev) := by
  obtain ⟨hT', hI'⟩ := h.keeps hdev
  refine ⟨hT', hI', h.own.step h.table hp.fresh hdev, fun k => ?_⟩
  exact taskOk_call h.table h.own hT' hdev (clientStep h.table h.ptr h.own hdev) (hp.caught k)
    (hp.release k) (hp.free k) (h.tasks k)

/-- The completion of a connection, for a task that waits for it no longer. -/
theorem MailInv.completed (h : MailInv x) {c : ConnId} {i : ClientId} (hc : Owns x.dev k c)
    (hsem : (x.tasks k).sem = false)
    (hdev : step P (.op (.completeDisconnect c)) x.dev =
      some (freeConn c i (respondDisconnect P c (releaseRx c x.dev)))) :
    MailInv ((x.setTask k { x.tasks k with pc := .wait }).after
      (freeConn c i (respondDisconnect P c (releaseRx c x.dev)))) := by
  obtain ⟨hT', hI'⟩ := h.keeps hdev
  have hfresh : ∀ client, Call.op (.completeDisconnect c) = .op (.register (some client)) →
      FreshClient x.dev client := by
    intro client he
    cases he
  refine ⟨hT', hI', h.own.step h.table hfresh hdev, fun j => ?_⟩
  have hstep : ClientStep j (.op (.completeDisconnect c)) x.dev _ :=
    clientStep h.table h.ptr h.own hdev
  show TaskOk _ j ((Function.update x.tasks k _ j).hear _)
  by_cases hj : j = k
  · subst hj
    have hears : heard j (newEvents x.dev
        (freeConn c i (respondDisconnect P c (releaseRx c x.dev)))) = [] :=
      hears_freeConn.newEvents
    rw [Function.update_self]
    show TaskOk _ j (Task.hear _ (heard j (newEvents x.dev _)))
    rw [hears, Task.hear_nil]
    refine TaskOk.idle (fun d hd => ?_) rfl hsem
    obtain ⟨hdc, hd⟩ := owns_freeConn hd
    exact hdc (h.own.unique h.table hd hc)
  · rw [Function.update_of_ne hj]
    refine taskOk_call h.table h.own hT' hdev hstep (fun d o ho hclose => ?_) nofun
      (fun d ho hd => ?_) (h.tasks j)
    · cases ho
      exact hclose.elim
    · have hcd : d = c := Fin.ext (Op.completeDisconnect.inj (Call.op.inj ho)).symm
      rw [hcd] at hd
      exact hj (Option.some.inj (hd.2.symm.trans hc.2))

/-- **Every disciplined step keeps the invariant.** -/
theorem mailInv_step (h : MailInv x) (hd : MailDiscipline x l) (hs : mailStep P l x = some y) :
    MailInv y := by
  cases mailStep_cases h hd hs with
  | moved hm => exact hm.inv
  | called call hm hdev hp => exact hm.inv.call hdev hp
  | completed k c i _ hc _ hsem hdev => exact h.completed hc hsem hdev

/-- The connection is freed between the two states. -/
def FreedBetween (x y : MailSys) (c : ConnId) : Prop :=
  ∃ evs, y.dev.events = x.dev.events ++ evs ∧ Event.freed c ∈ evs

/-- **A closing connection is freed, or its task comes closer to it.** -/
theorem closing_step (h : MailInv x) (hd : MailDiscipline x l) (hs : mailStep P l x = some y)
    {c : ConnId} (hc : Owns x.dev k c) (hcl : Closing (x.dev.connections c)) :
    FreedBetween x y c ∨ (Owns y.dev k c ∧ Closing (y.dev.connections c) ∧
      (y.tasks k).rank + (l.isTask k).toNat ≤ (x.tasks k).rank) := by
  cases mailStep_cases h hd hs with
  | moved hm =>
      right
      rw [hm.dev]
      exact ⟨hc, hcl, hm.rank k c hc hcl⟩
  | @called z dev call hm hdev hp =>
      right
      have hz : Owns z.dev k c ∧ Closing (z.dev.connections c) := by
        rw [hm.dev]
        exact ⟨hc, hcl⟩
      have hstep : ClientStep k call z.dev dev :=
        clientStep hm.inv.table hm.inv.ptr hm.inv.own hdev
      obtain ⟨hc', hcl', hnil⟩ := closing_call hm.inv.table hm.inv.own (hm.inv.keeps hdev).1 hstep
        hz.1 hz.2 (hp.free k)
      refine ⟨hc', hcl', ?_⟩
      show ((z.tasks k).hear (heard k (newEvents z.dev dev))).rank + _ ≤ _
      rw [hnil, Task.hear_nil]
      exact hm.rank k c hc hcl
  | completed j d i hl hd' _ _ hdev =>
      by_cases hj : j = k
      · -- the task completes its own connection
        left
        subst hj
        obtain rfl := h.own.unique h.table hc hd'
        obtain ⟨evs, he, -⟩ := freeConn_events (P := P) (k := j) (s := x.dev) (c := c) (i := i)
        exact ⟨_, he, by simp⟩
      · right
        have hstep : ClientStep k _ x.dev _ := clientStep h.table h.ptr h.own hdev
        have hfree : ∀ e : ConnId, Call.op (.completeDisconnect d) = .op (.completeDisconnect e) →
            ¬ Owns x.dev k e := by
          intro e he hown
          have hde : e = d := Fin.ext (Op.completeDisconnect.inj (Call.op.inj he)).symm
          rw [hde] at hown
          exact hj (Option.some.inj (hd'.2.symm.trans hown.2))
        obtain ⟨hc', hcl', hnil⟩ := closing_call h.table h.own (h.keeps hdev).1 hstep hc hcl hfree
        refine ⟨hc', hcl', ?_⟩
        show ((Function.update x.tasks j _ k).hear (heard k (newEvents x.dev _))).rank + _ ≤ _
        have hlabel : l.isTask k = false := by
          rw [hl]
          exact beq_eq_false_iff_ne.2 hj
        rw [Function.update_of_ne (Ne.symm hj), hnil, Task.hear_nil, hlabel]
        exact le_refl _

/-- The trace of the layer only grows. -/
theorem mailStep_events (h : MailInv x) (hd : MailDiscipline x l) (hs : mailStep P l x = some y) :
    ∃ evs, y.dev.events = x.dev.events ++ evs := by
  cases mailStep_cases h hd hs with
  | moved hm => exact ⟨[], by rw [hm.dev, List.append_nil]⟩
  | called call hm hdev _ =>
      have hstep : ClientStep 0 call _ _ := clientStep hm.inv.table hm.inv.ptr hm.inv.own hdev
      rw [← hm.dev]
      exact hstep.events
  | completed k c i _ _ _ _ hdev =>
      have hstep : ClientStep k _ x.dev _ := clientStep h.table h.ptr h.own hdev
      exact hstep.events

end cases

/-- A disciplined run only extends the trace. -/
theorem run_events {P : Platform} {ls : List MailLabel} {x y : MailSys} (h : MailInv x)
    (hr : Lts.run (Lts.guarded MailDiscipline (mailStep P)) x ls = some y) :
    ∃ evs, y.dev.events = x.dev.events ++ evs := by
  induction ls generalizing x with
  | nil =>
      cases hr
      exact ⟨[], (List.append_nil _).symm⟩
  | cons l ls ih =>
      rw [Lts.run_cons] at hr
      obtain ⟨z, hz, hr⟩ := Option.bind_eq_some_iff.1 hr
      obtain ⟨hd, hz⟩ := Lts.guarded_eq_some.1 hz
      obtain ⟨evs, he⟩ := mailStep_events h hd hz
      obtain ⟨evs', he'⟩ := ih (mailInv_step h hd hz) hr
      exact ⟨evs ++ evs', by rw [he', he, List.append_assoc]⟩

/-- **A closed connection is completed** in every disciplined run with enough steps of its task. -/
theorem freed_of_run {P : Platform} {k : EventCb} {c : ConnId} {ls : List MailLabel}
    {x y : MailSys} (h : MailInv x) (hc : Owns x.dev k c) (hcl : Closing (x.dev.connections c))
    (hr : Lts.run (Lts.guarded MailDiscipline (mailStep P)) x ls = some y)
    (hn : (x.tasks k).rank ≤ ls.countP (MailLabel.isTask k)) : FreedBetween x y c := by
  induction ls generalizing x with
  | nil =>
      -- every task has something left to do
      have hpos : 0 < (x.tasks k).rank := by
        unfold Task.rank
        split <;> omega
      rw [List.countP_nil] at hn
      omega
  | cons l ls ih =>
      rw [Lts.run_cons] at hr
      obtain ⟨z, hz, hr⟩ := Option.bind_eq_some_iff.1 hr
      obtain ⟨hd, hz⟩ := Lts.guarded_eq_some.1 hz
      have hz' := mailInv_step h hd hz
      rcases closing_step h hd hz hc hcl with ⟨evs, he, hmem⟩ | ⟨hc', hcl', hrank⟩
      · obtain ⟨evs', he'⟩ := run_events hz' hr
        exact ⟨evs ++ evs', by rw [he', he, List.append_assoc], List.mem_append_left _ hmem⟩
      · have hcount : (z.tasks k).rank ≤ ls.countP (MailLabel.isTask k) := by
          rw [List.countP_cons] at hn
          cases hl : l.isTask k with
          | false => simp [hl] at hn hrank; omega
          | true => simp [hl] at hn hrank; omega
        obtain ⟨evs, he⟩ := mailStep_events h hd hz
        obtain ⟨evs', he', hmem⟩ := ih hz' hc' hcl' hr hcount
        exact ⟨evs ++ evs', by rw [he', he, List.append_assoc], List.mem_append_right _ hmem⟩

/-! ### The mailbox -/

/-- **What the mailbox is for**: a task that acts on a disconnection completes its own closing
connection; and a connection that is closed has a task that can go on, and that completes it within
six of its steps, whatever else happens. -/
structure MailSafe (P : Platform) (x : MailSys) : Prop where
  own : ∀ k, (x.tasks k).pc = .disconn →
    ∃ c : ConnId, (x.tasks k).connId = c ∧ Owns x.dev k c ∧ Closing (x.dev.connections c)
  ready : ∀ k c, Owns x.dev k c → Closing (x.dev.connections c) →
    (mailStep P (.task k) x).isSome
  completed : ∀ k c, Owns x.dev k c → Closing (x.dev.connections c) → ∀ ls y,
    Lts.run (Lts.guarded MailDiscipline (mailStep P)) x ls = some y →
      6 ≤ ls.countP (MailLabel.isTask k) → FreedBetween x y c

/-- The task of a closing connection is never blocked. -/
theorem taskStep_isSome {P : Platform} {x : MailSys} (h : MailInv x) {k : EventCb} {c : ConnId}
    (hc : Owns x.dev k c) (hcl : Closing (x.dev.connections c)) :
    (mailStep P (.task k) x).isSome := by
  have ht := (h.tasks k).closeOk h.table h.own hc hcl
  unfold mailStep taskStep
  dsimp only
  cases hpc : (x.tasks k).pc with
  | wait =>
      have hsem : (x.tasks k).sem = true := ht.sem.2 (by rw [hpc]; decide)
      simp [hsem]
  | woken =>
      have hev := ht.event (by rw [hpc]; decide)
      simp [hev]
  | newMsg =>
      dsimp only
      split
      · rfl
      · split <;> rfl
  | process => rfl
  | flow => rfl
  | disconn =>
      obtain ⟨d, hid, -, hcl', -⟩ := (h.tasks k).of_disconn hpc
      obtain ⟨i, hi⟩ := step_complete (P := P) h.table hcl'
      dsimp only
      rw [hid]
      unfold callLayer
      show (Option.map _ (step P _ x.dev)).isSome
      rw [hi]
      rfl

/-- The mailbox is safe in every run in which no disconnection overtakes a task. -/
theorem mailSafe_of_disciplined {P : Platform} {x : MailSys}
    (h : Lts.Reach MailSys.Initial (mailStep P) MailDiscipline x) : MailSafe P x := by
  have hinv : MailInv x :=
    h.invariant (fun _ h₀ => mailInv_initial h₀) fun _ _ _ hx hd hs => mailInv_step hx hd hs
  refine ⟨fun k hpc => ?_, fun k c hc hcl => taskStep_isSome hinv hc hcl,
    fun k c hc hcl ls y hr hn => freed_of_run hinv hc hcl hr (le_trans ?_ hn)⟩
  · obtain ⟨c, hid, hc, hcl, -⟩ := (hinv.tasks k).of_disconn hpc
    exact ⟨c, hid, hc, hcl⟩
  · unfold Task.rank
    split <;> omega

/-- After power-up, with memory behind every buffer. -/
def mailStart : MailSys where
  dev := coldStart
  tasks := fun _ => Task.start

theorem mailStart_initial : mailStart.Initial := ⟨coldStart_initial, fun _ => rfl⟩

theorem exists_mailRun (P : Platform) (ls : List MailLabel) (p : MailSys → Prop) [DecidablePred p]
    (h : (Lts.run (Lts.guarded MailDiscipline (mailStep P)) mailStart ls).any
      (fun x => decide (p x)) = true) :
    ∃ x, Lts.Reach MailSys.Initial (mailStep P) MailDiscipline x ∧ p x :=
  Lts.exists_reach_guarded mailStart_initial ls p h

theorem exists_freeMailRun (P : Platform) (ls : List MailLabel) (p : MailSys → Prop)
    [DecidablePred p]
    (h : (Lts.run (mailStep P) mailStart ls).any (fun x => decide (p x)) = true) :
    ∃ x, Lts.Reach MailSys.Initial (mailStep P) Lts.Free x ∧ p x :=
  Lts.exists_reach mailStart_initial ls p h

/-- A client with a callback and a buffer of its own. -/
def mailClient (protocolId : BitVec 128) (k : EventCb) : HeciClient :=
  { plainClient protocolId k 100 1 with eventCb := some k }

/-- The host sends a bus message. -/
def hostSends (data : List UInt8) : MailLabel := .recv (busFrame data)

/-- Two clients register, and the host connects to the first one, whose task acts on it; then it
connects to the second one. -/
def bothConnected : List MailLabel :=
  [.register (mailClient 1 1), .register (mailClient 2 2), hostSends [busMsgHostEnumReq, 0, 0, 0],
    hostSends [busMsgClientConnectReq, 32, 5, 0], .task 1, .task 1, .task 1, .task 1,
    hostSends [busMsgClientConnectReq, 33, 6, 0]]

/-- The host closes the second connection. -/
def secondClosed : MailLabel := hostSends [busMsgClientDisconnectReq, 33, 6, 0]

theorem mailSafe_second_closed :
    ∃ x, Lts.Reach MailSys.Initial (mailStep Platform.nominal) MailDiscipline x ∧
      (Owns x.dev 2 1 ∧ Closing (x.dev.connections 1) ∧ (x.tasks 2).pc = .disconn) ∧
      MailSafe Platform.nominal x := by
  obtain ⟨x, hx, hp⟩ := exists_mailRun Platform.nominal
    (bothConnected ++ ([.task 2, .task 2, .task 2, .task 2, secondClosed, .task 2, .task 2] :
      List MailLabel))
    (fun x => Owns x.dev 2 1 ∧ Closing (x.dev.connections 1) ∧ (x.tasks 2).pc = .disconn)
    (by decide +kernel)
  exact ⟨x, hx, hp, mailSafe_of_disciplined hx⟩

/-- The disconnection overtakes the second task, which then acts on the first client's
connection. -/
theorem not_mailSafe_overtaken :
    ∃ x, Lts.Reach MailSys.Initial (mailStep Platform.nominal) Lts.Free x ∧
      ¬ MailSafe Platform.nominal x := by
  obtain ⟨x, hx, hpc, hid, hno⟩ := exists_freeMailRun Platform.nominal
    (bothConnected ++ [secondClosed, .task 2, .task 2])
    (fun x => (x.tasks 2).pc = .disconn ∧ (x.tasks 2).connId = 0 ∧ ¬ Owns x.dev 2 0)
    (by decide +kernel)
  refine ⟨x, hx, fun hsafe => ?_⟩
  obtain ⟨c, hc, hown, -⟩ := hsafe.own 2 hpc
  have hzero : c = 0 := Fin.ext (hc.symm.trans hid)
  rw [hzero] at hown
  exact hno hown

end PseFw.Heci
