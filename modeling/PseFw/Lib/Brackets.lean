/-
**Taking and giving back.**

A program takes things and gives them back; a trace of it is a list of marks.  `Brackets.held` says
what is held at the end of a trace: nothing may be given back that is not held.  A trace is *paired*
if it starts and ends with nothing held, which is to say that everything that is taken is given back
exactly once, later, and nothing else is.

Traces are built from brackets: what is taken, a part of the trace that returns what it took, and
the giving back.  Such a part may run while other things are held, so the notion that composes is
`Brackets.Balanced`, which says that the trace leaves whatever is held as it was.

Main definitions:

* `Brackets.held`, `Brackets.Paired` — what is held, and traces in which everything is given back;
* `Brackets.Balanced`, `Brackets.Leaves` — traces that leave what is held as it was, or with one
  thing more;
* `Brackets.takes`, `Brackets.gives` — how often something is taken and given back.

Main results:

* `Brackets.held_append` — a trace after another one;
* `Brackets.Balanced.append`, `Brackets.Balanced.bracket` — how balanced traces compose;
* `Brackets.Leaves.not_paired` — what is left over is not given back;
* `Brackets.length_of_held` — **what is held is what was taken and not given back**.
-/

import Mathlib.Data.List.Basic

set_option relaxedAutoImplicit false
set_option autoImplicit false

namespace Brackets

variable {α : Type*} [DecidableEq α]

/-- Something is taken, or given back. -/
inductive Mark (α : Type*)
  | take (a : α)
  | give (a : α)

/-- **What is held after a trace**, if nothing is given back that is not held. -/
def held : List α → List (Mark α) → Option (List α)
  | hs, [] => some hs
  | hs, .take a :: ms => held (a :: hs) ms
  | hs, .give a :: ms => if a ∈ hs then held (hs.erase a) ms else none

/-- **Everything that is taken is given back**, exactly once, and nothing else is. -/
def Paired (ms : List (Mark α)) : Prop := held [] ms = some []

instance (ms : List (Mark α)) : Decidable (Paired ms) := inferInstanceAs (Decidable (_ = _))

/-- The trace leaves what is held as it was. -/
def Balanced (ms : List (Mark α)) : Prop := ∀ hs, held hs ms = some hs

/-- The trace leaves `a` held in addition. -/
def Leaves (a : α) (ms : List (Mark α)) : Prop := ∀ hs, held hs ms = some (a :: hs)

/-- One trace after another. -/
theorem held_append (hs : List α) (ms ms' : List (Mark α)) :
    held hs (ms ++ ms') = (held hs ms).bind fun hs' => held hs' ms' := by
  induction ms generalizing hs with
  | nil => rfl
  | cons m ms ih =>
      cases m with
      | take a => exact ih (a :: hs)
      | give a =>
          rw [List.cons_append, held, held]
          split
          · exact ih (hs.erase a)
          · rfl

theorem balanced_nil : Balanced ([] : List (Mark α)) := fun _ => rfl

theorem Balanced.append {ms ms' : List (Mark α)} (h : Balanced ms) (h' : Balanced ms') :
    Balanced (ms ++ ms') := by
  intro hs
  rw [held_append, h hs]
  exact h' hs

/-- **A bracket around a balanced trace is balanced.** -/
theorem Balanced.bracket {ms : List (Mark α)} (h : Balanced ms) (a : α) :
    Balanced (.take a :: (ms ++ [.give a])) := by
  intro hs
  rw [held, held_append, h (a :: hs)]
  simp [held]

theorem Balanced.paired {ms : List (Mark α)} (h : Balanced ms) : Paired ms := h []

theorem leaves_take (a : α) : Leaves a [.take a] := fun _ => rfl

theorem Leaves.append {a : α} {ms ms' : List (Mark α)} (h : Balanced ms) (h' : Leaves a ms') :
    Leaves a (ms ++ ms') := by
  intro hs
  rw [held_append, h hs]
  exact h' hs

theorem Leaves.not_paired {a : α} {ms : List (Mark α)} (h : Leaves a ms) : ¬ Paired ms := by
  unfold Paired
  rw [h []]
  simp

/-! ### Counting -/

/-- How often something is taken. -/
def takes : List (Mark α) → ℕ
  | [] => 0
  | .take _ :: ms => takes ms + 1
  | .give _ :: ms => takes ms

/-- How often something is given back. -/
def gives : List (Mark α) → ℕ
  | [] => 0
  | .take _ :: ms => gives ms
  | .give _ :: ms => gives ms + 1

/-- **What is held is what was taken and not given back.** -/
theorem length_of_held {hs hs' : List α} {ms : List (Mark α)} (h : held hs ms = some hs') :
    hs'.length + gives ms = hs.length + takes ms := by
  induction ms generalizing hs with
  | nil =>
      cases h
      rfl
  | cons m ms ih =>
      cases m with
      | take a =>
          have ih := ih h
          rw [List.length_cons] at ih
          simp only [takes, gives]
          omega
      | give a =>
          rw [held] at h
          split at h
          · rename_i hmem
            have ih := ih h
            have hpos := List.length_pos_of_mem hmem
            rw [List.length_erase_of_mem hmem] at ih
            simp only [takes, gives]
            omega
          · cases h

theorem Balanced.takes_eq_gives {ms : List (Mark α)} (h : Balanced ms) : takes ms = gives ms := by
  have hlen := length_of_held (h [])
  omega

theorem Leaves.takes_ne_gives {a : α} {ms : List (Mark α)} (h : Leaves a ms) :
    takes ms ≠ gives ms := by
  have hlen := length_of_held (h [])
  rw [List.length_singleton, List.length_nil] at hlen
  omega

end Brackets
