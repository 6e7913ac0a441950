/-
**Stages that fetch and write.**

A function goes through a list of stages.  Each of them fetches something, and either gives up with
an error of its own, or writes what it has fetched and goes on.  The result is the error of the
first stage that fails, or success; what is written comes from the stages in front of it.

Main definitions:

* `Stages.run` — the stages, one after the other;
* `Stages.Reached` — no stage in front of a given one fails.

Main results:

* `Stages.run_fst_eq_iff` — **success is that nothing fails**;
* `Stages.mem_run_iff` — **what is written** by the stages that are reached;
* `Stages.run_of_forall` — what is written when nothing fails.
-/

import Mathlib.Data.List.Basic

set_option relaxedAutoImplicit false
set_option autoImplicit false

namespace Stages

variable {F V W E : Type*}

/-- The result of the stages, and what they write. -/
def run (fetch : F → Option V) (write : F → V → List W) (error : F → E) (success : E) :
    List F → E × List W
  | [] => (success, [])
  | f :: fs =>
      match fetch f with
      | none => (error f, [])
      | some v =>
          ((run fetch write error success fs).1, write f v ++ (run fetch write error success fs).2)

/-- No stage in front of the given one fails. -/
def Reached (fetch : F → Option V) (fs : List F) (f : F) : Prop :=
  ∃ before after, fs = before ++ f :: after ∧ ∀ g ∈ before, fetch g ≠ none

variable {fetch : F → Option V} {write : F → V → List W} {error : F → E} {success : E}
  {f : F} {fs : List F}

theorem run_cons_none (h : fetch f = none) :
    run fetch write error success (f :: fs) = (error f, []) := by
  rw [run, h]

theorem run_cons_some {v : V} (h : fetch f = some v) :
    run fetch write error success (f :: fs) =
      ((run fetch write error success fs).1,
        write f v ++ (run fetch write error success fs).2) := by
  rw [run, h]

/-- **Success is that nothing fails.** -/
theorem run_fst_eq_iff (herror : ∀ f, error f ≠ success) :
    (run fetch write error success fs).1 = success ↔ ∀ f ∈ fs, fetch f ≠ none := by
  induction fs with
  | nil => exact iff_of_true rfl (List.forall_mem_nil _)
  | cons f fs ih =>
      rw [List.forall_mem_cons]
      cases hf : fetch f with
      | none =>
          rw [run_cons_none hf]
          exact iff_of_false (herror f) fun h => h.1 rfl
      | some v =>
          rw [run_cons_some hf, ih]
          exact (and_iff_right (Option.some_ne_none v)).symm

theorem reached_cons {g : F} :
    Reached fetch (f :: fs) g ↔ g = f ∨ fetch f ≠ none ∧ Reached fetch fs g := by
  constructor
  · rintro ⟨before, after, heq, h⟩
    cases before with
    | nil => exact .inl (List.cons.inj heq).1.symm
    | cons e before =>
        obtain ⟨rfl, rfl⟩ := List.cons.inj heq
        rw [List.forall_mem_cons] at h
        exact .inr ⟨h.1, before, after, rfl, h.2⟩
  · rintro (rfl | ⟨hf, before, after, rfl, h⟩)
    · exact ⟨[], fs, rfl, List.forall_mem_nil _⟩
    · exact ⟨f :: before, after, rfl, List.forall_mem_cons.2 ⟨hf, h⟩⟩

/-- **What is written** comes from the stages that are reached and do not fail. -/
theorem mem_run_iff {w : W} : w ∈ (run fetch write error success fs).2 ↔
    ∃ f v, Reached fetch fs f ∧ fetch f = some v ∧ w ∈ write f v := by
  induction fs with
  | nil =>
      refine iff_of_false List.not_mem_nil ?_
      rintro ⟨f, v, ⟨before, after, heq, -⟩, -, -⟩
      exact List.append_ne_nil_of_right_ne_nil before (List.cons_ne_nil f after) heq.symm
  | cons f fs ih =>
      simp only [reached_cons]
      cases hf : fetch f with
      | none =>
          rw [run_cons_none hf]
          refine iff_of_false List.not_mem_nil ?_
          rintro ⟨g, v, rfl | ⟨hne, -⟩, hv, -⟩
          · rw [hf] at hv
            cases hv
          · exact hne rfl
      | some v =>
          rw [run_cons_some hf, List.mem_append, ih]
          constructor
          · rintro (hw | ⟨g, u, hg, hu, hw⟩)
            · exact ⟨f, v, .inl rfl, hf, hw⟩
            · exact ⟨g, u, .inr ⟨Option.some_ne_none v, hg⟩, hu, hw⟩
          · rintro ⟨g, u, rfl | ⟨-, hg⟩, hu, hw⟩
            · rw [hf] at hu
              exact .inl (Option.some.inj hu ▸ hw)
            · exact .inr ⟨g, u, hg, hu, hw⟩

/-- **What is written when nothing fails.** -/
theorem run_of_forall {v : F → V} (h : ∀ f ∈ fs, fetch f = some (v f)) :
    run fetch write error success fs = (success, fs.flatMap fun f => write f (v f)) := by
  induction fs with
  | nil => rfl
  | cons f fs ih =>
      rw [List.forall_mem_cons] at h
      rw [run_cons_some h.1, ih h.2, List.flatMap_cons]

end Stages
