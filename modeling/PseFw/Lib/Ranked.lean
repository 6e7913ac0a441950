/-
**Numbers among the elements that pass a test.**

The elements of a list that pass a test are numbered in their order.  A loop over these elements
with their numbers is a loop over the whole list, in which an element that passes the test has as
its number the number of elements before it that pass it.

A loop whose turns may fail has a result for every turn if no turn fails.

Main definitions:

* `Ranked.rank` — the number of elements before a place that pass the test.

Main results:

* `Ranked.getElem?_filter`, `Ranked.exists_rank` — the element with a number;
* `Ranked.flatMap_filter` — **a loop over the elements that pass**;
* `Ranked.mapM_eq_some_iff`, `Ranked.exists_mapM_iff`, `Ranked.mapM_map_result` — loops that may
  fail.
-/

import Mathlib.Data.List.Basic
import Mathlib.Data.List.Induction
import Mathlib.Data.List.Flatten

set_option relaxedAutoImplicit false
set_option autoImplicit false

namespace Ranked

variable {α β : Type*} (p : α → Bool)

/-- The number of elements before a place that pass the test. -/
def rank (l : List α) (i : ℕ) : ℕ := (l.take i).countP p

variable {p}

/-- **The element with a number.** -/
theorem getElem?_filter {l : List α} {i : ℕ} {x : α} (hx : l[i]? = some x) (hp : p x = true) :
    (l.filter p)[rank p l i]? = some x := by
  unfold rank
  induction l generalizing i with
  | nil => cases hx
  | cons a l ih =>
      cases i with
      | zero =>
          rw [List.getElem?_cons_zero] at hx
          cases hx
          rw [List.filter_cons_of_pos hp]
          rfl
      | succ i =>
          rw [List.getElem?_cons_succ] at hx
          rw [List.take_succ_cons]
          by_cases ha : p a = true
          · rw [List.filter_cons_of_pos ha, List.countP_cons_of_pos ha, List.getElem?_cons_succ]
            exact ih hx
          · rw [List.filter_cons_of_neg ha, List.countP_cons_of_neg ha]
            exact ih hx

/-- Every element that passes has its place in the list. -/
theorem exists_rank {l : List α} {n : ℕ} {x : α} (h : (l.filter p)[n]? = some x) :
    ∃ i, l[i]? = some x ∧ p x = true ∧ rank p l i = n := by
  unfold rank
  induction l generalizing n with
  | nil => cases h
  | cons a l ih =>
      by_cases ha : p a = true
      · rw [List.filter_cons_of_pos ha] at h
        cases n with
        | zero =>
            rw [List.getElem?_cons_zero] at h
            cases h
            exact ⟨0, rfl, ha, rfl⟩
        | succ n =>
            rw [List.getElem?_cons_succ] at h
            obtain ⟨i, hi, hx, hrank⟩ := ih h
            exact ⟨i + 1, hi, hx, by rw [List.take_succ_cons, List.countP_cons_of_pos ha, hrank]⟩
      · rw [List.filter_cons_of_neg ha] at h
        obtain ⟨i, hi, hx, hrank⟩ := ih h
        exact ⟨i + 1, hi, hx, by rw [List.take_succ_cons, List.countP_cons_of_neg ha, hrank]⟩

/-- **A loop over the elements that pass**, with their numbers, is a loop over all elements. -/
theorem flatMap_filter (l : List α) (f : α → ℕ → List β) :
    ((l.filter p).zipIdx.flatMap fun x => f x.1 x.2) =
      l.zipIdx.flatMap fun x => if p x.1 = true then f x.1 (rank p l x.2) else [] := by
  induction l using List.reverseRecOn with
  | nil => rfl
  | append_singleton l a ih =>
      have htake : ∀ i ≤ l.length, rank p (l ++ [a]) i = rank p l i := by
        intro i hi
        unfold rank
        rw [List.take_append_of_le_length hi]
      have hinit : (l.zipIdx.flatMap fun x =>
          if p x.1 = true then f x.1 (rank p (l ++ [a]) x.2) else []) =
          l.zipIdx.flatMap fun x => if p x.1 = true then f x.1 (rank p l x.2) else [] := by
        refine List.flatMap_congr ?_
        intro x hx
        have hlt := List.snd_lt_of_mem_zipIdx hx
        rw [htake x.2 (by omega)]
      have hlast : rank p (l ++ [a]) l.length = (l.filter p).length := by
        rw [htake _ (Nat.le_refl _)]
        unfold rank
        rw [List.take_length, List.countP_eq_length_filter]
      have hsplit : ((l ++ [a]).zipIdx.flatMap fun x =>
          if p x.1 = true then f x.1 (rank p (l ++ [a]) x.2) else []) =
          ((l.filter p).zipIdx.flatMap fun x => f x.1 x.2) ++
            if p a = true then f a (l.filter p).length else [] := by
        rw [List.zipIdx_append, List.flatMap_append, hinit, ← ih, List.zipIdx_singleton,
          List.flatMap_singleton, Nat.zero_add, hlast]
      rw [hsplit, List.filter_append]
      by_cases ha : p a = true
      · rw [if_pos ha, List.filter_cons_of_pos ha, List.filter_nil, List.zipIdx_append,
          List.flatMap_append, List.zipIdx_singleton, List.flatMap_singleton, Nat.zero_add]
      · rw [if_neg ha, List.filter_cons_of_neg ha, List.filter_nil, List.append_nil,
          List.append_nil]

/-- A loop from a number on. -/
theorem flatMap_drop_zipIdx (l : List α) (k : ℕ) (f : α → ℕ → List β) :
    ((l.zipIdx.drop k).flatMap fun x => f x.1 x.2) =
      l.zipIdx.flatMap fun x => if k ≤ x.2 then f x.1 x.2 else [] := by
  have hnum : ∀ {i : ℕ} {x : α × ℕ}, l.zipIdx[i]? = some x → x.2 = i := by
    intro i x hx
    rw [List.getElem?_zipIdx, Option.map_eq_some_iff] at hx
    obtain ⟨a, -, rfl⟩ := hx
    exact Nat.zero_add i
  have htake : ((l.zipIdx.take k).flatMap fun x => if k ≤ x.2 then f x.1 x.2 else []) = [] := by
    refine List.flatMap_eq_nil_iff.2 ?_
    intro x hx
    obtain ⟨i, hi⟩ := List.mem_iff_getElem?.1 hx
    rw [List.getElem?_take] at hi
    by_cases hik : i < k
    · rw [if_pos hik] at hi
      exact if_neg (by rw [hnum hi]; omega)
    · rw [if_neg hik] at hi
      cases hi
  have hdrop : ((l.zipIdx.drop k).flatMap fun x => if k ≤ x.2 then f x.1 x.2 else []) =
      (l.zipIdx.drop k).flatMap fun x => f x.1 x.2 := by
    refine List.flatMap_congr ?_
    intro x hx
    obtain ⟨i, hi⟩ := List.mem_iff_getElem?.1 hx
    rw [List.getElem?_drop] at hi
    exact if_pos (by rw [hnum hi]; omega)
  rw [← List.take_append_drop k l.zipIdx, List.flatMap_append, List.take_append_drop, htake, hdrop,
    List.nil_append]

/-! ### Loops that may fail -/

variable {f : α → Option β} {l : List α}

theorem mapM_eq_some_iff {ys : List β} : l.mapM f = some ys ↔ l.map f = ys.map some := by
  induction l generalizing ys with
  | nil =>
      cases ys with
      | nil => exact iff_of_true rfl rfl
      | cons y ys => exact iff_of_false (fun h => by cases h) fun h => by cases h
  | cons a l ih =>
      rw [List.mapM_cons, List.map_cons]
      constructor
      · intro h
        obtain ⟨y, hy, h⟩ := Option.bind_eq_some_iff.1 h
        obtain ⟨ys', hys, h⟩ := Option.bind_eq_some_iff.1 h
        cases h
        rw [hy, ih.1 hys]
        rfl
      · intro h
        cases ys with
        | nil => cases h
        | cons y ys =>
            obtain ⟨hy, hys⟩ := List.cons.inj h
            rw [hy, ih.2 hys]
            rfl

/-- A loop has results exactly if no turn fails. -/
theorem exists_mapM_iff : (∃ ys, l.mapM f = some ys) ↔ ∀ x ∈ l, (f x).isSome := by
  constructor
  · rintro ⟨ys, h⟩ x hx
    have hmem : f x ∈ ys.map some := mapM_eq_some_iff.1 h ▸ List.mem_map_of_mem hx
    obtain ⟨y, -, hy⟩ := List.mem_map.1 hmem
    rw [← hy]
    rfl
  · intro h
    induction l with
    | nil => exact ⟨[], rfl⟩
    | cons a l ih =>
        obtain ⟨ys, hys⟩ := ih fun x hx => h x (List.mem_cons_of_mem _ hx)
        obtain ⟨y, hy⟩ := Option.isSome_iff_exists.1 (h a List.mem_cons_self)
        refine ⟨y :: ys, mapM_eq_some_iff.2 ?_⟩
        rw [List.map_cons, hy, mapM_eq_some_iff.1 hys]
        rfl

/-- The result of a turn. -/
theorem getElem?_of_mapM {ys : List β} (h : l.mapM f = some ys) {k : ℕ} {x : α}
    (hx : l[k]? = some x) : ∃ y, ys[k]? = some y ∧ f x = some y := by
  have hget : (ys.map some)[k]? = some (f x) := by
    rw [← mapM_eq_some_iff.1 h, List.getElem?_map, hx]
    rfl
  rw [List.getElem?_map, Option.map_eq_some_iff] at hget
  obtain ⟨y, hy, hfx⟩ := hget
  exact ⟨y, hy, hfx.symm⟩

/-- A loop whose turns are changed afterwards. -/
theorem mapM_map_result {γ : Type*} (f : α → Option β) (g : β → γ) (l : List α) :
    (l.mapM fun x => (f x).map g) = (l.mapM f).map (List.map g) := by
  induction l with
  | nil => rfl
  | cons a l ih =>
      rw [List.mapM_cons, List.mapM_cons, ih]
      cases f a with
      | none => rfl
      | some y =>
          cases l.mapM f with
          | none => rfl
          | some ys => rfl

/-- The results of all turns together. -/
theorem flatten_of_mapM {f : α → Option (List β)} {ys : List (List β)} (h : l.mapM f = some ys) :
    ys.flatten = l.flatMap fun x => (f x).getD [] := by
  rw [mapM_eq_some_iff] at h
  induction l generalizing ys with
  | nil =>
      cases ys with
      | nil => rfl
      | cons y ys => cases h
  | cons a l ih =>
      cases ys with
      | nil => cases h
      | cons y ys =>
          obtain ⟨hy, hys⟩ := List.cons.inj h
          rw [List.flatten_cons, List.flatMap_cons, ih hys, hy]
          rfl

end Ranked
