/-
**Tables filled from a list.**

Values are put into a table in two ways: the `i`-th value at the place `p i`, or at the place `q i`.
Both keep the order of the values, everything else in the table is zero, and a value whose place is
behind the end of the table is left out.

Main definitions:

* `Placed` — a table that holds the values at their places.

Main results:

* `Placed.agree_iff` — **when the two tables are the same**: every value that is not zero has the
  same place in both.
-/

import Mathlib.Order.Monotone.Basic

set_option relaxedAutoImplicit false
set_option autoImplicit false

variable {M : Type*} [Zero M]

/-- The first `N` entries of a table `S` are the first `n` values `f`, at the places `p`. -/
structure Placed (p : ℕ → ℕ) (f : ℕ → M) (n N : ℕ) (S : ℕ → M) : Prop where
  at_place : ∀ i < n, p i < N → S (p i) = f i
  elsewhere : ∀ k < N, (∀ i < n, p i ≠ k) → S k = 0

namespace Placed

variable {p q : ℕ → ℕ} {f : ℕ → M} {n N : ℕ} {S T : ℕ → M}

/-- Where the table is not zero, there is a value. -/
theorem exists_of_ne_zero (h : Placed p f n N S) {k : ℕ} (hk : k < N) (hne : S k ≠ 0) :
    ∃ i < n, p i = k := by
  by_contra hno
  refine hne (h.elsewhere k hk ?_)
  intro i hi hik
  exact hno ⟨i, hi, hik⟩

/-- A value the second table has at an earlier place is not in the first one there, if all values
before it have the same places. -/
theorem ne_of_lt (hp : StrictMono p) (hq : StrictMono q) (hS : Placed p f n N S)
    (hT : Placed q f n N T) {i : ℕ} (hi : i < n) (hf : f i ≠ 0) (hlt : q i < p i) (hN : q i < N)
    (hsame : ∀ j < i, f j ≠ 0 → p j = q j) : S (q i) ≠ T (q i) := by
  intro heq
  rw [hT.at_place i hi hN] at heq
  obtain ⟨j, hj, hpj⟩ := hS.exists_of_ne_zero hN (heq ▸ hf)
  have hji : j < i := hp.lt_iff_lt.1 (hpj ▸ hlt)
  have hfj : f j ≠ 0 := by
    rw [← hS.at_place j hj (hpj ▸ hN), hpj, heq]
    exact hf
  have hqj : q j = q i := (hsame j hji hfj).symm.trans hpj
  exact absurd (hq.injective hqj) hji.ne

/-- **Two tables of the same values** are the same exactly if every value that is not zero has the
same place in both. -/
theorem agree_iff (hp : StrictMono p) (hq : StrictMono q) (hS : Placed p f n N S)
    (hT : Placed q f n N T) (hN : ∀ i < n, p i < N ∨ q i < N) :
    (∀ k < N, S k = T k) ↔ ∀ i < n, f i ≠ 0 → p i = q i := by
  constructor
  · intro hagree i
    -- The first value with two places is at one of them in one table only.
    induction i using Nat.strong_induction_on with
    | _ i ih =>
        intro hi hf
        have hsame : ∀ j < i, f j ≠ 0 → p j = q j := fun j hj => ih j hj (hj.trans hi)
        have hsame' : ∀ j < i, f j ≠ 0 → q j = p j := fun j hj h => (hsame j hj h).symm
        rcases lt_trichotomy (p i) (q i) with hlt | heq | hgt
        · have hpN : p i < N := (hN i hi).elim id fun h => hlt.trans h
          exact absurd (hagree _ hpN).symm (ne_of_lt hq hp hT hS hi hf hlt hpN hsame')
        · exact heq
        · have hqN : q i < N := (hN i hi).elim (fun h => hgt.trans h) id
          exact absurd (hagree _ hqN) (ne_of_lt hp hq hS hT hi hf hgt hqN hsame)
  · intro hsame k hk
    by_cases hex : ∃ i < n, f i ≠ 0 ∧ p i = k
    · obtain ⟨i, hi, hf, rfl⟩ := hex
      rw [hS.at_place i hi hk]
      rw [hsame i hi hf] at hk ⊢
      exact (hT.at_place i hi hk).symm
    · have hzero : ∀ {r : ℕ → ℕ} {R : ℕ → M}, Placed r f n N R →
          (∀ i < n, f i ≠ 0 → r i ≠ k) → R k = 0 := by
        intro r R hR hr
        by_contra hne
        obtain ⟨i, hi, rfl⟩ := hR.exists_of_ne_zero hk hne
        rw [hR.at_place i hi hk] at hne
        exact hr i hi hne rfl
      have hpk : ∀ i < n, f i ≠ 0 → p i ≠ k := fun i hi hf h => hex ⟨i, hi, hf, h⟩
      rw [hzero hS hpk, hzero hT]
      intro i hi hf
      exact hsame i hi hf ▸ hpk i hi hf

end Placed
