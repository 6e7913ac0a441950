/-
**Searching and counting in a finite table.**

A table is a function on a finite index type.  A search runs through the indices in increasing
order, so what it finds is the first entry that passes its test.  `Table.tally p f` counts the
entries of `f` that satisfy `p`; what the invariants of a table need is how the count moves when one
entry is replaced, and that it does not move when the entries are replaced by equivalent ones.

Main definitions:

* `Table.tally` — the number of entries that satisfy a test.

Main results:

* `Table.find?_finRange_first` — a search finds the first entry that passes;
* `Table.tally_update` — **replacing one entry** moves the count by what the old and the new entry
  contribute;
* `Table.tally_congr` — replacing entries without changing the test does not move the count.
-/

import Mathlib.Algebra.BigOperators.Group.Finset.Basic
import Mathlib.Data.Fintype.Card
import Mathlib.Data.List.FinRange

set_option relaxedAutoImplicit false
set_option autoImplicit false

namespace Table

variable {ι α β : Type*} [Fintype ι]

/-! ### Searching -/

/-- A search through all indices finds the first one that passes the test. -/
theorem find?_finRange_first {n : ℕ} {p : Fin n → Bool} {i : Fin n}
    (h : (List.finRange n).find? p = some i) : ∀ j, j < i → p j = false := by
  obtain ⟨-, as, bs, heq, has⟩ := List.find?_eq_some_iff_append.1 h
  intro j hj
  have hmem : j ∈ as ++ i :: bs := heq ▸ List.mem_finRange j
  have hsorted : (as ++ i :: bs).Pairwise (· < ·) := heq ▸ List.pairwise_lt_finRange n
  rcases List.mem_append.1 hmem with hm | hm
  · simpa using has j hm
  · rcases List.mem_cons.1 hm with rfl | hm
    · exact absurd hj (lt_irrefl _)
    · have hij := (List.pairwise_cons.1 (List.pairwise_append.1 hsorted).2.1).1 j hm
      exact absurd hj (not_lt.2 hij.le)

/-! ### Counting -/

/-- **The number of entries of a table that satisfy a test.** -/
def tally (p : α → Bool) (f : ι → α) : ℕ := ∑ i, (p (f i)).toNat

/-- Replacing entries without changing the test does not move the count. -/
theorem tally_congr {p : α → Bool} {q : β → Bool} {f : ι → α} {g : ι → β}
    (h : ∀ i, q (g i) = p (f i)) : tally q g = tally p f := by
  unfold tally
  exact Finset.sum_congr rfl fun i _ => by rw [h i]

/-- **Replacing one entry** moves the count by what the two entries contribute. -/
theorem tally_update [DecidableEq ι] (p : α → Bool) (f : ι → α) (i : ι) (x : α) :
    tally p (Function.update f i x) + (p (f i)).toNat = tally p f + (p x).toNat := by
  have hne : ∀ j ∈ Finset.univ.erase i, (p (Function.update f i x j)).toNat = (p (f j)).toNat := by
    intro j hj
    rw [Function.update_of_ne (Finset.ne_of_mem_erase hj)]
  have hnew := Finset.add_sum_erase Finset.univ
    (fun j => (p (Function.update f i x j)).toNat) (Finset.mem_univ i)
  have hold := Finset.add_sum_erase Finset.univ (fun j => (p (f j)).toNat) (Finset.mem_univ i)
  rw [Finset.sum_congr rfl hne] at hnew
  simp only [Function.update_self] at hnew
  unfold tally
  omega

/-- Replacing an entry by one with the same test. -/
theorem tally_update_of_eq [DecidableEq ι] {p : α → Bool} {f : ι → α} {i : ι} {x : α}
    (h : p x = p (f i)) : tally p (Function.update f i x) = tally p f := by
  have := tally_update p f i x
  rw [h] at this
  omega

/-- An entry that satisfies the test is counted. -/
theorem tally_pos [DecidableEq ι] {p : α → Bool} {f : ι → α} {i : ι} (h : p (f i) = true) :
    0 < tally p f := by
  have hsum := Finset.add_sum_erase Finset.univ (fun j => (p (f j)).toNat) (Finset.mem_univ i)
  simp only [h, Bool.toNat_true] at hsum
  unfold tally
  omega

/-- A table none of whose entries satisfies the test. -/
theorem tally_eq_zero {p : α → Bool} {f : ι → α} (h : ∀ i, p (f i) = false) : tally p f = 0 := by
  unfold tally
  exact Finset.sum_eq_zero fun i _ => by rw [h i]; rfl

/-- The count as a cardinality. -/
theorem tally_eq_card {p : α → Bool} {f : ι → α} {r : ι → Prop} [DecidablePred r]
    (h : ∀ i, p (f i) = true ↔ r i) : tally p f = (Finset.univ.filter r).card := by
  unfold tally
  rw [Finset.card_eq_sum_ones, Finset.sum_filter]
  refine Finset.sum_congr rfl fun i _ => ?_
  by_cases hr : r i
  · rw [if_pos hr, (h i).2 hr, Bool.toNat_true]
  · have hp : p (f i) = false := by simpa using fun hp => hr ((h i).1 hp)
    rw [if_neg hr, hp, Bool.toNat_false]

end Table
