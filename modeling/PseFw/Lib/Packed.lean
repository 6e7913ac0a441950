/-
**Tables with gaps, walked with a pointer.**

A table of entries, some of which are missing, is written out slot by slot.  With an index the entry
of number `k` goes to slot `k`.  With a pointer that moves on only behind an entry that is there,
the entries stand close together, and the entry of number `k` goes to slot `k` as long as nothing
before it is missing.

Main definitions:

* `Packed.walk` — the pass with the pointer;
* `Packed.GapFree` — nothing is missing before an entry.

Main results:

* `Packed.get_walk` — slot `k` holds the entry of number `k` among those that are there;
* `Packed.getElem?_reduceOption`, `Packed.gapFree_of_slots` — **pointer and index agree if and only
  if there is no gap**;
* `Packed.gapFree_iff` — the numbers of the entries that are there are an initial part.
-/

import Mathlib.Data.List.ReduceOption

set_option relaxedAutoImplicit false
set_option autoImplicit false

namespace Packed

variable {α β σ π : Type*}

/-- A pass over a table: what is missing is skipped, and the pointer stays where it is. -/
def walk (store : π → α → σ → σ) (next : π → π) : List (Option α) → π → σ → σ
  | [], _, s => s
  | none :: l, p, s => walk store next l p s
  | some a :: l, p, s => walk store next l (next p) (store p a s)

/-- Nothing is missing before an entry that is there. -/
def GapFree : List (Option α) → Prop
  | [] => True
  | none :: l => ∀ x ∈ l, x = none
  | some _ :: l => GapFree l

/-! ### The slots -/

section Slots

variable (store : π → α → σ → σ) (next : π → π) (ptr : ℕ → π) (get : ℕ → σ → β) (val : α → β)
variable (bound : ℕ)

/-- A slot before the pointer stays. -/
theorem get_walk_of_lt (hnext : ∀ k, next (ptr k) = ptr (k + 1))
    (hother : ∀ j k a s, j < bound → k < bound → j ≠ k → get k (store (ptr j) a s) = get k s)
    (l : List (Option α)) {j k : ℕ} (s : σ) (hj : j + l.length ≤ bound) (hk : k < j) :
    get k (walk store next l (ptr j) s) = get k s := by
  induction l generalizing j s with
  | nil => rfl
  | cons x l ih =>
      rw [List.length_cons] at hj
      cases x with
      | none => exact ih s (by omega) hk
      | some a =>
          unfold walk
          rw [hnext, ih _ (by omega) (by omega)]
          exact hother j k a s (by omega) (by omega) (by omega)

/-- **What stands in the slots behind a pass**: the entries that are there, close together. -/
theorem get_walk (hnext : ∀ k, next (ptr k) = ptr (k + 1))
    (hself : ∀ k a s, k < bound → get k (store (ptr k) a s) = val a)
    (hother : ∀ j k a s, j < bound → k < bound → j ≠ k → get k (store (ptr j) a s) = get k s)
    (l : List (Option α)) {j k : ℕ} (s : σ) (hj : j + l.length ≤ bound) (hk : j + k < bound) :
    get (j + k) (walk store next l (ptr j) s) =
      (l.reduceOption[k]?).elim (get (j + k) s) val := by
  induction l generalizing j k s with
  | nil => rfl
  | cons x l ih =>
      rw [List.length_cons] at hj
      cases x with
      | none =>
          rw [List.reduceOption_cons_of_none]
          exact ih s (by omega) hk
      | some a =>
          rw [List.reduceOption_cons_of_some]
          unfold walk
          rw [hnext]
          cases k with
          | zero =>
              rw [get_walk_of_lt store next ptr get bound hnext hother l _ (by omega) (by omega)]
              exact hself j a s hk
          | succ k =>
              have hrest := ih (store (ptr j) a s) (j := j + 1) (k := k) (by omega) (by omega)
              rw [Nat.add_right_comm j 1 k] at hrest
              rw [← Nat.add_assoc, hrest, hother j _ a s (by omega) (by omega) (by omega)]
              rfl

end Slots

/-! ### Gaps -/

theorem reduceOption_eq_nil {l : List (Option α)} : l.reduceOption = [] ↔ ∀ x ∈ l, x = none := by
  unfold List.reduceOption
  rw [List.filterMap_eq_nil_iff]
  rfl

/-- Without a gap pointer and index agree: every entry is in its own slot, and nothing is in the
slot of a missing one. -/
theorem getElem?_reduceOption {l : List (Option α)} (h : GapFree l) (k : ℕ) :
    l.reduceOption[k]? = (l[k]?).join := by
  induction l generalizing k with
  | nil => rfl
  | cons x l ih =>
      cases x with
      | none =>
          rw [List.reduceOption_cons_of_none, reduceOption_eq_nil.2 h]
          cases k with
          | zero => rfl
          | succ k =>
              rw [List.getElem?_cons_succ, List.getElem?_nil]
              cases hk : l[k]? with
              | none => rfl
              | some y => exact (h y (List.mem_of_getElem? hk)).symm
      | some a =>
          rw [List.reduceOption_cons_of_some]
          cases k with
          | zero => rfl
          | succ k => exact ih h k

/-- If nothing stands in the slot of a missing entry, there is no gap. -/
theorem gapFree_of_slots {l : List (Option α)}
    (h : ∀ k : ℕ, l[k]? = some none → l.reduceOption[k]? = none) : GapFree l := by
  induction l with
  | nil => trivial
  | cons x l ih =>
      cases x with
      | none =>
          have hzero := h 0 rfl
          rw [List.reduceOption_cons_of_none, List.getElem?_eq_none_iff, Nat.le_zero,
            List.length_eq_zero_iff] at hzero
          exact reduceOption_eq_nil.1 hzero
      | some a =>
          refine ih fun k hk => ?_
          have hsucc := h (k + 1) hk
          rwa [List.reduceOption_cons_of_some] at hsucc

/-- There is no gap if and only if the numbers of the entries that are there are an initial part. -/
theorem gapFree_iff {l : List (Option α)} : GapFree l ↔
    ∀ i j : ℕ, i ≤ j → ((l[j]?).join).isSome = true → ((l[i]?).join).isSome = true := by
  induction l with
  | nil => exact iff_of_true trivial fun i j _ h => h
  | cons x l ih =>
      cases x with
      | none =>
          constructor
          · intro h i j _ hj
            cases j with
            | zero => exact absurd hj Bool.false_ne_true
            | succ j =>
                rw [List.getElem?_cons_succ] at hj
                cases hl : l[j]? with
                | none =>
                    rw [hl] at hj
                    exact absurd hj Bool.false_ne_true
                | some y =>
                    rw [hl, h y (List.mem_of_getElem? hl)] at hj
                    exact absurd hj Bool.false_ne_true
          · intro h y hy
            obtain ⟨j, hj⟩ := List.mem_iff_getElem?.1 hy
            by_contra hne
            refine absurd (h 0 (j + 1) (Nat.zero_le _) ?_) Bool.false_ne_true
            rw [List.getElem?_cons_succ, hj]
            exact Option.isSome_iff_ne_none.2 hne
      | some a =>
          refine ih.trans ⟨fun h i j hij hj => ?_, fun h i j hij hj => ?_⟩
          · cases i with
            | zero => rfl
            | succ i =>
                cases j with
                | zero => exact absurd hij (Nat.not_succ_le_zero i)
                | succ j => exact h i j (Nat.le_of_succ_le_succ hij) hj
          · exact h (i + 1) (j + 1) (Nat.succ_le_succ hij) hj

end Packed
