/-
**The manageability fifo.**

The message about Sx transitions and the one about the network are linked into the fifo themselves,
and their producers do not look whether the message is there already.  A second transition before
the thread has taken the first one links the node a second time.

Main definitions:

* `FifoOk` — what is wanted: the fifo is a finite list of different nodes, and what was put into it
  is what was taken, followed by what is there;
* `FifoDiscipline` — a node is linked only when it is not waiting.

Main results:

* `oobStep_fifo` — everything a step can do to the fifo;
* `fifo_of_relink` — what a second link does: no end, or lost nodes;
* `fifoOk_step_iff` — a step keeps the fifo intact exactly when it keeps the discipline;
* `fifoOk_of_disciplined` — **the fifo is intact in every disciplined run.**
-/

import PseFw.Oob.Service

set_option relaxedAutoImplicit false
set_option autoImplicit false

namespace PseFw.Oob

variable {c : Credentials} {x x' : OobSys} {l : OobLabel}

/-- **What is wanted of the fifo**: it is a finite list without cycles, and every node that was put
into it was taken once, or is still there to be taken, in the order of the puts. -/
def FifoOk (x : OobSys) : Prop :=
  ∃ nodes, x.s.managabilityFifo.Holds nodes ∧ x.puts = x.taken ++ nodes

/-- The node was put into the fifo and has not been taken since. -/
def OobSys.Waiting (x : OobSys) (n : OobNode) : Prop := n ∈ x.puts.drop x.taken.length

instance (x : OobSys) (n : OobNode) : Decidable (x.Waiting n) :=
  inferInstanceAs (Decidable (_ ∈ _))

/-- The message an event links into the fifo itself. -/
def OobLabel.linked : OobLabel → Option OobNode
  | .sx _ => some .sxStateQ
  | .l2 .ifDown => some .nwMgmtQ
  | _ => none

/-- **The discipline**: no message is linked while it is waiting. -/
def FifoDiscipline (x : OobSys) (l : OobLabel) : Prop :=
  ∀ n, l.linked = some n → ¬ x.Waiting n

instance (x : OobSys) (l : OobLabel) : Decidable (FifoDiscipline x l) :=
  decidable_of_iff (∀ n ∈ l.linked, ¬ x.Waiting n) (by rfl)

/-! ### What a step does to the fifo -/

/-- **Everything a step can do to the fifo.** -/
inductive FifoEffect (x : OobSys) (l : OobLabel) (x' : OobSys) : Prop
  | same : l.linked = none → x'.s.managabilityFifo = x.s.managabilityFifo → x'.puts = x.puts →
      x'.taken = x.taken → x'.s.fresh = x.s.fresh → FifoEffect x l x'
  | link (n : OobNode) : l.linked = some n →
      x'.s.managabilityFifo = x.s.managabilityFifo.append n → x'.puts = x.puts ++ [n] →
      x'.taken = x.taken → x'.s.fresh = x.s.fresh → FifoEffect x l x'
  | alloc : l.linked = none →
      x'.s.managabilityFifo = x.s.managabilityFifo.append (.alloc x.s.fresh) →
      x'.puts = x.puts ++ [.alloc x.s.fresh] → x'.taken = x.taken →
      x'.s.fresh = x.s.fresh + 1 → FifoEffect x l x'
  | take (n : OobNode) : l.linked = none →
      x.s.managabilityFifo.get = some (n, x'.s.managabilityFifo) → x'.puts = x.puts →
      x'.taken = x.taken ++ [n] → x'.s.fresh = x.s.fresh → FifoEffect x l x'

/-- An allocated node, or no memory for it. -/
theorem fifoEffect_allocPut (hl : l.linked = none) {alloc : Bool} {item : OobItem} {s : OobState}
    (hs : s.managabilityFifo = x.s.managabilityFifo) (hfresh : s.fresh = x.s.fresh)
    (hfifo : x'.s.managabilityFifo = (kFifoAllocPut alloc item s).managabilityFifo)
    (hf : x'.s.fresh = (kFifoAllocPut alloc item s).fresh)
    (hputs : x'.puts = x.puts ++ x.allocated alloc) (htaken : x'.taken = x.taken) :
    FifoEffect x l x' := by
  cases alloc with
  | true =>
      refine .alloc hl ?_ hputs htaken ?_
      · rw [hfifo, ← hs, ← hfresh]
        rfl
      · rw [hf, ← hfresh]
        rfl
  | false =>
      refine .same hl (hfifo.trans hs) ?_ htaken (hf.trans hfresh)
      rw [hputs]
      exact List.append_nil _

theorem runOp_fifo (result : Bool) (s : OobState) (op : OobOp) :
    (runOp result s op).managabilityFifo = s.managabilityFifo ∧
      (runOp result s op).fresh = s.fresh := by
  cases op <;> exact ⟨rfl, rfl⟩

/-- **A step does one of the four things.** -/
theorem oobStep_fifo (h : oobStep c l x = some x') : FifoEffect x l x' := by
  cases l with
  | publish m stack alloc =>
      obtain ⟨p, -, rfl⟩ := Option.map_eq_some_iff.1 h
      by_cases hp : p.msg = .ignore
      · refine .same rfl ?_ ?_ rfl ?_
        · simp [mqttProcessReceive, hp]
        · simp [hp]
        · simp [mqttProcessReceive, hp]
      · refine @fifoEffect_allocPut x _ _ rfl alloc .fmessage
          { x.s with
            nextMsg := p.nextMsg.getD x.s.nextMsg
            topicBuf := p.topicBuf.getD x.s.topicBuf
            fmessage := p.msg } rfl rfl ?_ ?_ ?_ rfl
        · simp only [mqttProcessReceive, ne_eq, hp, not_false_eq_true, if_true]
        · simp only [mqttProcessReceive, ne_eq, hp, not_false_eq_true, if_true]
        · simp only [ne_eq, hp, not_false_eq_true, if_true]
  | sx event =>
      cases h
      refine .link .sxStateQ rfl ?_ rfl rfl ?_
      · rw [oobSxHandler_eq]
      · rw [oobSxHandler_eq]
  | l2 mgmtEvent =>
      cases h
      cases mgmtEvent with
      | outside => exact .same rfl rfl (List.append_nil _) rfl rfl
      | ifUp => exact .same rfl rfl (List.append_nil _) rfl rfl
      | ifDown => exact .link .nwMgmtQ rfl rfl rfl rfl rfl
  | powerTransExpiry alloc =>
      obtain ⟨-, h⟩ := Option.ite_none_right_eq_some.1 h
      cases h
      exact fifoEffect_allocPut rfl (s := x.s) rfl rfl rfl rfl rfl rfl
  | tlsSessionExpiry alloc =>
      cases h
      exact fifoEffect_allocPut rfl (s := x.s) rfl rfl rfl rfl rfl rfl
  | pingreqExpiry alloc =>
      cases h
      exact fifoEffect_allocPut rfl (s := x.s) rfl rfl rfl rfl rfl rfl
  | get =>
      obtain ⟨-, h⟩ := Option.ite_none_right_eq_some.1 h
      obtain ⟨a, ha, rfl⟩ := Option.map_eq_some_iff.1 h
      exact .take a.1 rfl ha rfl rfl rfl
  | ack after =>
      obtain ⟨-, h⟩ := Option.ite_none_right_eq_some.1 h
      cases h
      exact .same rfl rfl rfl rfl rfl
  | work result =>
      obtain ⟨-, h⟩ := Option.ite_none_right_eq_some.1 h
      obtain ⟨op, -, rfl⟩ := Option.map_eq_some_iff.1 h
      obtain ⟨hfifo, hfresh⟩ := runOp_fifo result { x.s with todo := x.s.todo.tail } op
      exact .same rfl hfifo rfl rfl hfresh

/-! ### The fifo is a list -/

/-- Allocated nodes are new, and the fifo is intact. -/
structure FifoInv (x : OobSys) : Prop where
  ok : FifoOk x
  fresh : ∀ id, OobNode.alloc id ∈ x.puts → id < x.s.fresh

/-- What waits is what is in the fifo. -/
theorem waiting_iff {nodes : List OobNode} (hputs : x.puts = x.taken ++ nodes) (n : OobNode) :
    x.Waiting n ↔ n ∈ nodes := by
  unfold OobSys.Waiting
  rw [hputs, List.drop_left]

theorem fifoInv_init (h : OobInit x) : FifoInv x := by
  refine ⟨⟨[], ?_, ?_⟩, fun id hid => ?_⟩
  · rw [h.managabilityFifo]
    exact LinkedQueue.holds_empty
  · rw [h.puts, h.taken]
    rfl
  · rw [h.puts] at hid
    cases hid

/-- A node that is not in the fifo is put into it. -/
theorem FifoOk.append {n : OobNode} {nodes : List OobNode} (hh : x.s.managabilityFifo.Holds nodes)
    (hp : x.puts = x.taken ++ nodes) (hn : n ∉ nodes)
    (hfifo : x'.s.managabilityFifo = x.s.managabilityFifo.append n)
    (hputs : x'.puts = x.puts ++ [n]) (htaken : x'.taken = x.taken) : FifoOk x' := by
  refine ⟨nodes ++ [n], ?_, ?_⟩
  · rw [hfifo]
    exact hh.append hn
  · rw [hputs, htaken, hp, List.append_assoc]

/-- A node that is linked while it is in the fifo destroys the fifo. -/
theorem not_fifoOk_of_link {n : OobNode} {nodes : List OobNode}
    (hp : x.puts = x.taken ++ nodes) (hn : n ∈ nodes) (hputs : x'.puts = x.puts ++ [n])
    (htaken : x'.taken = x.taken) : ¬ FifoOk x' := by
  rintro ⟨nodes', hh, hp'⟩
  rw [hputs, htaken, hp, List.append_assoc] at hp'
  have heq : nodes ++ [n] = nodes' := List.append_cancel_left hp'
  have hnodup := hh.nodup
  rw [← heq, List.nodup_append] at hnodup
  exact hnodup.2.2 n hn n (List.mem_singleton_self n) rfl

/-- **A step keeps the fifo intact exactly when it keeps the discipline.** -/
theorem fifoOk_step_iff (h : FifoInv x) (hstep : oobStep c l x = some x') :
    FifoOk x' ↔ FifoDiscipline x l := by
  obtain ⟨⟨nodes, hh, hp⟩, hfresh⟩ := h
  have hfree : l.linked = none → FifoDiscipline x l := fun hl n hn => by
    rw [hl] at hn
    cases hn
  cases oobStep_fifo hstep with
  | same hl hfifo hputs htaken _ =>
      refine ⟨fun _ => hfree hl, fun _ => ⟨nodes, ?_, ?_⟩⟩
      · rw [hfifo]
        exact hh
      · rw [hputs, htaken]
        exact hp
  | link n hl hfifo hputs htaken _ =>
      by_cases hn : n ∈ nodes
      · refine ⟨fun hok => absurd hok (not_fifoOk_of_link hp hn hputs htaken), fun hd => ?_⟩
        exact absurd ((waiting_iff hp n).2 hn) (hd n hl)
      · refine ⟨fun _ m hm => ?_, fun _ => FifoOk.append hh hp hn hfifo hputs htaken⟩
        rw [hl] at hm
        cases hm
        exact fun hw => hn ((waiting_iff hp n).1 hw)
  | alloc hl hfifo hputs htaken _ =>
      have hn : OobNode.alloc x.s.fresh ∉ nodes := fun hn => by
        have hlt := hfresh x.s.fresh (by rw [hp]; exact List.mem_append_right _ hn)
        exact Nat.lt_irrefl _ hlt
      exact ⟨fun _ => hfree hl, fun _ => FifoOk.append hh hp hn hfifo hputs htaken⟩
  | take n hl hget hputs htaken _ =>
      refine ⟨fun _ => hfree hl, fun _ => ?_⟩
      cases nodes with
      | nil =>
          rw [hh.get_nil] at hget
          cases hget
      | cons m nodes =>
          obtain ⟨q, hq, hholds⟩ := hh.get
          rw [hq] at hget
          obtain ⟨rfl, rfl⟩ := Prod.mk.inj (Option.some.inj hget)
          refine ⟨nodes, hholds, ?_⟩
          rw [hputs, htaken, hp, List.append_assoc]
          rfl

theorem fifoInv_step (h : FifoInv x) (hd : FifoDiscipline x l) (hstep : oobStep c l x = some x') :
    FifoInv x' := by
  refine ⟨(fifoOk_step_iff h hstep).2 hd, fun id hid => ?_⟩
  cases oobStep_fifo hstep with
  | same _ _ hputs _ hf =>
      rw [hputs] at hid
      rw [hf]
      exact h.fresh id hid
  | link n hl _ hputs _ hf =>
      rw [hputs, List.mem_append, List.mem_singleton] at hid
      rw [hf]
      rcases hid with hid | rfl
      · exact h.fresh id hid
      · cases l with
        | sx event => cases hl
        | l2 mgmtEvent => cases mgmtEvent <;> cases hl
        | _ => cases hl
  | alloc _ _ hputs _ hf =>
      rw [hputs, List.mem_append, List.mem_singleton] at hid
      rw [hf]
      rcases hid with hid | hid
      · exact Nat.lt_succ_of_lt (h.fresh id hid)
      · cases hid
        exact Nat.lt_succ_self _
  | take n _ _ hputs _ hf =>
      rw [hputs] at hid
      rw [hf]
      exact h.fresh id hid

/-- **What a second link does**: the fifo has no end any more, or the nodes behind the one that was
linked again are lost. -/
theorem fifo_of_relink (h : FifoInv x) {n : OobNode} (hl : l.linked = some n) (hw : x.Waiting n)
    (hstep : oobStep c l x = some x') :
    (∀ nodes, ¬ LinkedQueue.Seg x'.s.managabilityFifo.next x'.s.managabilityFifo.head nodes none) ∨
      ∃ before lost, lost ≠ [] ∧ x.puts = x.taken ++ (before ++ n :: lost) ∧
        LinkedQueue.Seg x'.s.managabilityFifo.next x'.s.managabilityFifo.head (before ++ [n])
          none := by
  obtain ⟨⟨nodes, hh, hp⟩, -⟩ := h
  have hfifo : x'.s.managabilityFifo = x.s.managabilityFifo.append n := by
    cases oobStep_fifo hstep with
    | link m hm hfifo _ _ _ =>
        rw [hl] at hm
        cases hm
        exact hfifo
    | same hm _ _ _ _ => rw [hl] at hm; cases hm
    | alloc hm _ _ _ _ => rw [hl] at hm; cases hm
    | take _ hm _ _ _ _ => rw [hl] at hm; cases hm
  obtain ⟨before, lost, rfl⟩ := List.append_of_mem ((waiting_iff hp n).1 hw)
  rw [hfifo]
  by_cases hlost : lost = []
  · subst hlost
    exact .inl (LinkedQueue.append_last hh)
  · exact .inr ⟨before, lost, hlost, hp, LinkedQueue.append_inner hh hlost⟩

/-- **The fifo is intact in every disciplined run**, and the first step that leaves the discipline
destroys it. -/
theorem fifoOk_of_disciplined (c : Credentials) (x : OobSys)
    (h : Lts.Reach OobInit (oobStep c) FifoDiscipline x) :
    FifoOk x ∧ ∀ l x', oobStep c l x = some x' → (FifoOk x' ↔ FifoDiscipline x l) := by
  have hinv : FifoInv x :=
    Lts.Reach.invariant (fun _ => fifoInv_init)
      (fun _ _ _ hx hd hstep => fifoInv_step hx hd hstep) h
  exact ⟨hinv.ok, fun l x' hstep => fifoOk_step_iff hinv hstep⟩

/-- The host goes to sleep, and the thread takes the message about it. -/
theorem fifoOk_sleep_taken :
    ∃ x, Lts.Reach OobInit (oobStep azureCredentials) FifoDiscipline x ∧
      x.taken = [.sxStateQ] ∧ FifoOk x := by
  obtain ⟨x, hx, htaken⟩ :
      ∃ x, Lts.Reach OobInit (oobStep azureCredentials) FifoDiscipline x ∧
        x.taken = [OobNode.sxStateQ] :=
    Lts.exists_reach_guarded oobInit_idle [.sx .entry, .get] _ (by decide +kernel)
  exact ⟨x, hx, htaken, (fifoOk_of_disciplined azureCredentials x hx).1⟩

/-- The host goes to sleep and comes back before the thread has taken the first message. -/
theorem not_fifoOk_twice :
    ¬ ∀ x, Lts.Reach OobInit (oobStep azureCredentials) Lts.Free x → FifoOk x := by
  intro h
  obtain ⟨x, hx, hputs, htaken⟩ :
      ∃ x, Lts.Reach OobInit (oobStep azureCredentials) Lts.Free x ∧
        x.puts = [OobNode.sxStateQ, .sxStateQ] ∧ x.taken = [] :=
    Lts.exists_reach oobInit_idle [.sx .entry, .sx .exit] _ (by decide +kernel)
  obtain ⟨nodes, hh, hp⟩ := h x hx
  rw [hputs, htaken, List.nil_append] at hp
  have hnodup := hh.nodup
  rw [← hp] at hnodup
  exact absurd hnodup (by decide)

end PseFw.Oob
