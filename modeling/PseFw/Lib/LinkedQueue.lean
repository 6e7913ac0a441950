/-
**Queues of linked nodes.**

The nodes of the queue are given by its users; the queue only keeps a pointer to the next node in
each of them, and the two ends.  Appending a node writes to that node and to the last one, and
nothing looks whether the node is in the queue already.  As long as only nodes that are not in the
queue are appended, the queue behaves as a list: first in, first out.  A node that is appended again
while it is in the queue either cuts off everything behind it or, when it is the last one, points to
itself, and then the queue has no end.

Main definitions:

* `LinkedQueue`, `LinkedQueue.append`, `LinkedQueue.get` — the queue;
* `LinkedQueue.Seg` — the nodes on the way from one pointer to another;
* `LinkedQueue.Holds` — the queue is a finite list of different nodes.

Main results:

* `LinkedQueue.Holds.append`, `LinkedQueue.Holds.get` — **a queue of different nodes is a list**;
* `LinkedQueue.append_inner`, `LinkedQueue.append_last` — **what a second append does**: it loses
  the rest of the queue, or it makes a cycle.
-/

import Mathlib.Data.List.Nodup
import Mathlib.Logic.Function.Basic

set_option relaxedAutoImplicit false
set_option autoImplicit false

/-- A queue of nodes that are linked to one another. -/
structure LinkedQueue (N : Type*) where
  next : N → Option N
  head : Option N
  tail : Option N

namespace LinkedQueue

variable {N : Type*}

/-- The empty queue. -/
def empty : LinkedQueue N := ⟨fun _ => none, none, none⟩

/-- Append a node. -/
def append [DecidableEq N] (q : LinkedQueue N) (n : N) : LinkedQueue N :=
  match q.tail with
  | none => ⟨Function.update q.next n none, some n, some n⟩
  | some t => ⟨Function.update (Function.update q.next n none) t (some n), q.head, some n⟩

/-- Take the first node. -/
def get [DecidableEq N] (q : LinkedQueue N) : Option (N × LinkedQueue N) :=
  q.head.map fun n =>
    (n, { q with
      head := q.next n
      tail := if q.tail = some n then q.next n else q.tail })

/-! ### Segments -/

/-- The nodes on the way from one pointer to another. -/
inductive Seg (next : N → Option N) : Option N → List N → Option N → Prop
  | nil (a : Option N) : Seg next a [] a
  | cons {n : N} {l : List N} {b : Option N} : Seg next (next n) l b → Seg next (some n) (n :: l) b

variable {next next' : N → Option N} {a b c : Option N} {l l₁ l₂ : List N} {n : N}

theorem Seg.append (h₁ : Seg next a l₁ b) (h₂ : Seg next b l₂ c) : Seg next a (l₁ ++ l₂) c := by
  induction h₁ with
  | nil => exact h₂
  | cons _ ih => exact .cons (ih h₂)

theorem Seg.split (h : Seg next a (l₁ ++ l₂) c) : ∃ b, Seg next a l₁ b ∧ Seg next b l₂ c := by
  induction l₁ generalizing a with
  | nil => exact ⟨a, .nil a, h⟩
  | cons n l ih =>
      cases h with
      | cons h =>
          obtain ⟨b, h₁, h₂⟩ := ih h
          exact ⟨b, .cons h₁, h₂⟩

/-- A segment depends on the pointers of its nodes only. -/
theorem Seg.congr (h : Seg next a l b) (heq : ∀ n ∈ l, next' n = next n) : Seg next' a l b := by
  induction h with
  | nil => exact .nil _
  | cons _ ih =>
      refine .cons ?_
      rw [heq _ List.mem_cons_self]
      exact ih fun n hn => heq n (List.mem_cons_of_mem _ hn)

theorem Seg.nil_inv (h : Seg next a [] b) : a = b := by
  cases h
  rfl

theorem Seg.cons_inv (h : Seg next a (n :: l) b) : a = some n ∧ Seg next (next n) l b := by
  cases h with
  | cons h => exact ⟨rfl, h⟩

/-- The way to the end is unique: what leads to a node on it leads on from there. -/
theorem Seg.rest (h₁ : Seg next a l₁ b) (h : Seg next a l none) :
    ∃ l₂, l = l₁ ++ l₂ ∧ Seg next b l₂ none := by
  induction h₁ generalizing l with
  | nil a => exact ⟨l, rfl, h⟩
  | cons _ ih =>
      cases h with
      | cons h =>
          obtain ⟨l₂, rfl, h₂⟩ := ih h
          exact ⟨l₂, rfl, h₂⟩

/-! ### Lists of different nodes -/

/-- **The queue is the list**: a finite chain of different nodes, whose last one is the tail. -/
structure Holds (q : LinkedQueue N) (l : List N) : Prop where
  seg : Seg q.next q.head l none
  tail : q.tail = l.getLast?
  nodup : l.Nodup

theorem holds_empty : Holds (empty : LinkedQueue N) [] := ⟨.nil none, rfl, List.nodup_nil⟩

variable [DecidableEq N]

/-- **A node that is not in the queue becomes its last one.** -/
theorem Holds.append {q : LinkedQueue N} (h : q.Holds l) (hn : n ∉ l) :
    (q.append n).Holds (l ++ [n]) := by
  have hnodup : (l ++ [n]).Nodup := by
    rw [List.nodup_append]
    refine ⟨h.nodup, List.nodup_singleton n, fun x hx y hy hxy => hn ?_⟩
    rw [List.mem_singleton.1 hy] at hxy
    exact hxy ▸ hx
  rcases List.eq_nil_or_concat l with rfl | ⟨l, t, rfl⟩
  · have htail : q.tail = none := h.tail
    refine ⟨?_, ?_, hnodup⟩
    · simp only [LinkedQueue.append, htail, List.nil_append]
      refine .cons ?_
      rw [Function.update_self]
      exact .nil none
    · simp only [LinkedQueue.append, htail, List.nil_append, List.getLast?_singleton]
  · rw [List.concat_eq_append] at h hn hnodup ⊢
    have htail : q.tail = some t := by rw [h.tail, List.getLast?_concat]
    obtain ⟨b, hl, hb⟩ := h.seg.split
    obtain ⟨rfl, -⟩ := hb.cons_inv
    rw [List.mem_append, not_or, List.mem_singleton] at hn
    have hnt : n ≠ t := hn.2
    have htl : t ∉ l := fun ht => by
      have := (List.nodup_append.1 h.nodup).2.2 t ht t (List.mem_singleton_self t)
      exact this rfl
    refine ⟨?_, ?_, hnodup⟩
    · simp only [LinkedQueue.append, htail]
      rw [List.append_assoc]
      refine Seg.append (hl.congr fun x hx => ?_) (.cons ?_)
      · rw [Function.update_of_ne (ne_of_mem_of_not_mem hx htl),
          Function.update_of_ne (ne_of_mem_of_not_mem hx hn.1)]
      · rw [Function.update_self]
        refine .cons ?_
        rw [Function.update_of_ne hnt, Function.update_self]
        exact .nil none
    · simp only [LinkedQueue.append, htail, List.getLast?_concat]

/-- **The first node is taken, and the rest stays.** -/
theorem Holds.get {q : LinkedQueue N} (h : q.Holds (n :: l)) :
    ∃ q', q.get = some (n, q') ∧ q'.Holds l := by
  obtain ⟨hhead, hseg⟩ := h.seg.cons_inv
  have hn : n ∉ l := (List.nodup_cons.1 h.nodup).1
  refine ⟨⟨q.next, q.next n, if q.tail = some n then q.next n else q.tail⟩, ?_, hseg, ?_,
    (List.nodup_cons.1 h.nodup).2⟩
  · simp only [LinkedQueue.get, hhead, Option.map_some]
  · cases l with
    | nil =>
        have htail : q.tail = some n := h.tail
        have hnext : q.next n = none := hseg.nil_inv
        simp only [htail, if_true, hnext, List.getLast?_nil]
    | cons m l =>
        have htail : q.tail = (m :: l).getLast? := by
          rw [h.tail, List.getLast?_cons_cons]
        have hne : q.tail ≠ some n := by
          rw [htail]
          exact fun hl => hn (List.mem_of_getLast? hl)
        rw [if_neg hne, htail]

theorem Holds.get_nil {q : LinkedQueue N} (h : q.Holds []) : q.get = none := by
  have hhead : q.head = none := h.seg.nil_inv
  simp only [LinkedQueue.get, hhead, Option.map_none]

/-! ### A node that is appended twice -/

/-- **A second append in the middle** cuts off what was behind the node. -/
theorem append_inner {q : LinkedQueue N} (h : q.Holds (l₁ ++ n :: l₂)) (hl : l₂ ≠ []) :
    Seg (q.append n).next (q.append n).head (l₁ ++ [n]) none := by
  obtain ⟨b, h₁, h₂⟩ := h.seg.split
  obtain ⟨rfl, -⟩ := h₂.cons_inv
  obtain ⟨l₂, t, rfl⟩ := (List.eq_nil_or_concat l₂).resolve_left hl
  rw [List.concat_eq_append] at h h₂
  have htail : q.tail = some t := by
    rw [h.tail, ← List.cons_append, ← List.append_assoc, List.getLast?_concat]
  obtain ⟨-, hnd, hdis⟩ := List.nodup_append.1 h.nodup
  have hnt : n ≠ t := fun hnt => (List.nodup_cons.1 hnd).1 (by simp [hnt])
  simp only [LinkedQueue.append, htail]
  refine Seg.append (h₁.congr fun x hx => ?_) (.cons ?_)
  · rw [Function.update_of_ne (hdis x hx t (by simp)),
      Function.update_of_ne (hdis x hx n List.mem_cons_self)]
  · rw [Function.update_of_ne hnt, Function.update_self]
    exact .nil none

/-- **A second append of the last node** makes it point to itself: the queue has no end. -/
theorem append_last {q : LinkedQueue N} (h : q.Holds (l ++ [n])) :
    ∀ l', ¬ Seg (q.append n).next (q.append n).head l' none := by
  obtain ⟨b, h₁, h₂⟩ := h.seg.split
  obtain ⟨rfl, -⟩ := h₂.cons_inv
  have htail : q.tail = some n := by rw [h.tail, List.getLast?_concat]
  obtain ⟨-, -, hdis⟩ := List.nodup_append.1 h.nodup
  have hself : (q.append n).next n = some n := by
    simp only [LinkedQueue.append, htail, Function.update_self]
  have hloop : ∀ l', ¬ Seg (q.append n).next (some n) l' none := by
    intro l'
    induction l' with
    | nil =>
        intro hs
        cases hs
    | cons m l' ih =>
        intro hs
        cases hs with
        | cons hs =>
            rw [hself] at hs
            exact ih hs
  have hhead : Seg (q.append n).next (q.append n).head l (some n) := by
    simp only [LinkedQueue.append, htail]
    refine h₁.congr fun x hx => ?_
    have hxn : x ≠ n := hdis x hx n (List.mem_singleton_self n)
    rw [Function.update_of_ne hxn, Function.update_of_ne hxn]
  intro l' hs
  obtain ⟨l₂, -, h₂⟩ := hhead.rest hs
  exact hloop l₂ h₂

end LinkedQueue
