/-
**Partial step functions, their runs, and invariants along restricted runs.**

A system is given by a partial step function `step : L → S → Option S`: the label says which action
is taken and the result is `none` when the action is not possible, or has no defined outcome, in
that state.  A *discipline* `C : S → L → Prop` restricts the runs under consideration to those whose
every step is taken from a state in which the discipline allows its label; the trivial discipline
gives all runs.

Main definitions:

* `Lts.run` — the state a list of labels leads to;
* `Lts.Reach` — the states reached by runs that keep a discipline.

Main results:

* `Lts.Reach.invariant` — **the invariant rule**: what holds initially and is kept by every step the
  discipline allows holds in every state reached;
* `Lts.exists_reach`, `Lts.exists_reach_guarded` — what a concrete run establishes holds in some
  reachable state, which is how a trace refutes an invariant;
* `Lts.settles` — **the progress rule**: a party that moves alone, and whose rank falls until its
  aim is reached, reaches it and stays there;
* `Lts.rank_add_countP_le` — **the counting rule**: a party whose steps are counted down takes only
  so many of them, whatever the others do in between.
-/

import Mathlib.Data.Set.Basic
import Mathlib.Logic.Function.Iterate

set_option relaxedAutoImplicit false
set_option autoImplicit false

namespace Lts

variable {S L : Type*}

/-- The state reached by taking the labels of a list in order, if every step is defined. -/
def run (step : L → S → Option S) : S → List L → Option S
  | s, [] => some s
  | s, l :: ls => (step l s).bind fun s' => run step s' ls

@[simp] theorem run_nil (step : L → S → Option S) (s : S) : run step s [] = some s := rfl

@[simp] theorem run_cons (step : L → S → Option S) (s : S) (l : L) (ls : List L) :
    run step s (l :: ls) = (step l s).bind fun s' => run step s' ls := rfl

/-- **The states reached from `init` by steps that keep the discipline `C`.** -/
inductive Reach (init : S → Prop) (step : L → S → Option S) (C : S → L → Prop) : S → Prop
  | init {s : S} : init s → Reach init step C s
  | step {s s' : S} {l : L} : Reach init step C s → C s l → step l s = some s' →
      Reach init step C s'

/-- The discipline that allows every step. -/
def Free : S → L → Prop := fun _ _ => True

variable {init : S → Prop} {step : L → S → Option S} {C : S → L → Prop}

/-- **The invariant rule.** -/
theorem Reach.invariant {I : S → Prop} (h₀ : ∀ s, init s → I s)
    (h₁ : ∀ s l s', I s → C s l → step l s = some s' → I s') {s : S}
    (h : Reach init step C s) : I s := by
  induction h with
  | init hs => exact h₀ _ hs
  | step _ hc hst ih => exact h₁ _ _ _ ih hc hst

/-! ### Concrete runs -/

/-- The step function that refuses what the discipline forbids. -/
def guarded (C : S → L → Prop) [∀ s l, Decidable (C s l)] (step : L → S → Option S) :
    L → S → Option S :=
  fun l s => if C s l then step l s else none

theorem guarded_eq_some [∀ s l, Decidable (C s l)] {l : L} {s s' : S} :
    guarded C step l s = some s' ↔ C s l ∧ step l s = some s' := by
  unfold guarded
  split
  · next hc => exact ⟨fun h => ⟨hc, h⟩, And.right⟩
  · next hc => exact ⟨nofun, fun h => absurd h.1 hc⟩

/-- A guarded run from a state a disciplined run reaches ends in another one. -/
theorem Reach.run [∀ s l, Decidable (C s l)] {s s' : S} {ls : List L} (h : Reach init step C s)
    (hr : Lts.run (guarded C step) s ls = some s') : Reach init step C s' := by
  induction ls generalizing s with
  | nil =>
      simp only [run_nil, Option.some.injEq] at hr
      exact hr ▸ h
  | cons l ls ih =>
      rw [run_cons] at hr
      obtain ⟨s₁, hs₁, hr⟩ := Option.bind_eq_some_iff.1 hr
      obtain ⟨hc, hs₁⟩ := guarded_eq_some.1 hs₁
      exact ih (Reach.step h hc hs₁) hr

/-- **What a concrete disciplined run establishes** holds in some state that is reached. -/
theorem exists_reach_guarded [∀ s l, Decidable (C s l)] {s : S} (hs : init s) (ls : List L)
    (p : S → Prop) [DecidablePred p]
    (h : (Lts.run (guarded C step) s ls).any (fun s' => decide (p s')) = true) :
    ∃ s', Reach init step C s' ∧ p s' := by
  cases hr : Lts.run (guarded C step) s ls with
  | none => simp [hr] at h
  | some s' => exact ⟨s', (Reach.init hs).run hr, by simpa [hr] using h⟩

instance : ∀ (s : S) (l : L), Decidable (Free s l) := fun _ _ => isTrue trivial

/-- **What a concrete run establishes** holds in some reachable state. -/
theorem exists_reach {s : S} (hs : init s) (ls : List L) (p : S → Prop) [DecidablePred p]
    (h : (Lts.run step s ls).any (fun s' => decide (p s')) = true) :
    ∃ s', Reach init step Free s' ∧ p s' := by
  have hfree : guarded Free step = step := by
    funext l s
    exact if_pos trivial
  refine exists_reach_guarded hs ls p ?_
  rw [hfree]
  exact h

/-! ### Progress -/

/-- **The progress rule.**  `I` is an invariant of the moves, `P` the aim. -/
theorem settles {f : S → S} {I P : S → Prop} (rank : S → ℕ) (hI : ∀ s, I s → I (f s))
    (hP : ∀ s, I s → P s → P (f s)) (hrank : ∀ s, I s → ¬ P s → rank (f s) < rank s) {s : S}
    (hs : I s) : ∃ N, ∀ k, N ≤ k → I (f^[k] s) ∧ P (f^[k] s) := by
  -- once reached, the aim is kept
  have stays : ∀ s, I s → P s → ∀ k, I (f^[k] s) ∧ P (f^[k] s) := by
    intro s hs hp k
    induction k with
    | zero => exact ⟨hs, hp⟩
    | succ k ih =>
        rw [Function.iterate_succ_apply']
        exact ⟨hI _ ih.1, hP _ ih.1 ih.2⟩
  induction hr : rank s using Nat.strongRecOn generalizing s with
  | ind r ih =>
      by_cases hp : P s
      · exact ⟨0, fun k _ => stays s hs hp k⟩
      · obtain ⟨N, hN⟩ := ih (rank (f s)) (hr ▸ hrank s hs hp) (hI s hs) rfl
        refine ⟨N + 1, fun k hk => ?_⟩
        obtain ⟨k, rfl⟩ : ∃ k', k = k' + 1 := ⟨k - 1, by omega⟩
        rw [Function.iterate_succ_apply]
        exact hN k (by omega)

/-- **The counting rule**: when no step lets the rank grow, and a step of some party lets it fall,
the party takes no more steps in a run than the rank was at its start. -/
theorem rank_add_countP_le {I : S → Prop} (rank : S → ℕ) (own : L → Bool)
    (h₁ : ∀ s l s', I s → step l s = some s' → I s' ∧ rank s' + (own l).toNat ≤ rank s) {s s' : S}
    {ls : List L} (hs : I s) (hr : run step s ls = some s') :
    rank s' + ls.countP own ≤ rank s ∧ I s' := by
  induction ls generalizing s with
  | nil =>
      obtain rfl := Option.some.inj hr
      exact ⟨le_rfl, hs⟩
  | cons l ls ih =>
      rw [run_cons] at hr
      obtain ⟨s₁, hs₁, hr⟩ := Option.bind_eq_some_iff.1 hr
      obtain ⟨hI, hle⟩ := h₁ s l s₁ hs hs₁
      obtain ⟨hrest, hI'⟩ := ih hI hr
      refine ⟨?_, hI'⟩
      rw [List.countP_cons]
      cases hl : own l with
      | true =>
          rw [hl, Bool.toNat_true] at hle
          rw [if_pos rfl]
          omega
      | false =>
          rw [hl, Bool.toNat_false] at hle
          rw [if_neg (by decide)]
          omega

end Lts
