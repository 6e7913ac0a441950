/-
**Dictionaries that keep their order.**

A dictionary is a list of keys with their values, in the order in which the keys came.  Items are
collected under their keys: the first item of a key makes an entry at the end, the others change it.

Main definitions:

* `Dict.get?`, `Dict.upsert` — looking up a key, and changing or making its entry;
* `Dict.collect` — collecting the items of a list.

Main results:

* `Dict.get?_collect` — **what is collected under a key**: all its items, in their order;
* `Dict.pairwise_collect` — **the keys are in the order of their first items**;
* `Dict.last_collect` — the last of the keys that pass a test.
-/

import Mathlib.Data.List.Basic
import Mathlib.Data.List.Induction

set_option relaxedAutoImplicit false
set_option autoImplicit false

namespace Dict

variable {α β κ : Type*} [DecidableEq κ]

/-- The value of a key. -/
def get? (d : List (κ × β)) (k : κ) : Option β := (d.find? fun e => e.1 = k).map Prod.snd

/-- The value of a key is changed, or a new entry is made. -/
def upsert (d : List (κ × β)) (k : κ) (f : β → β) (b : β) : List (κ × β) :=
  if d.any fun e => e.1 = k then d.map fun e => if e.1 = k then (e.1, f e.2) else e
  else d ++ [(k, b)]

/-- Items collected under their keys. -/
def collect (key : α → κ) (new : α → β) (upd : α → β → β) (l : List α) : List (κ × β) :=
  l.foldl (fun d x => upsert d (key x) (upd x) (new x)) []

variable {d : List (κ × β)} {k k' : κ} {f : β → β} {b : β}

theorem any_iff : (d.any fun e => e.1 = k) = true ↔ k ∈ d.map Prod.fst := by
  rw [List.any_eq_true, List.mem_map]
  simp only [decide_eq_true_eq]

theorem get?_eq_none_iff : get? d k = none ↔ k ∉ d.map Prod.fst := by
  unfold get?
  rw [Option.map_eq_none_iff, List.find?_eq_none, List.mem_map]
  simp only [decide_eq_true_eq, not_exists, not_and]

theorem keys_upsert : (upsert d k f b).map Prod.fst =
    if k ∈ d.map Prod.fst then d.map Prod.fst else d.map Prod.fst ++ [k] := by
  unfold upsert
  simp only [any_iff]
  split
  · rw [List.map_map]
    refine List.map_congr_left fun e _ => ?_
    simp only [Function.comp_apply]
    split <;> rfl
  · rw [List.map_append]
    rfl

theorem get?_map (g : κ × β → κ × β) (hg : ∀ e, (g e).1 = e.1) :
    get? (d.map g) k = (d.find? fun e => e.1 = k).map fun e => (g e).2 := by
  unfold get?
  rw [List.find?_map, Option.map_map]
  have hfun : ((fun e : κ × β => decide (e.1 = k)) ∘ g) = fun e => decide (e.1 = k) := by
    funext e
    simp only [Function.comp_apply, hg]
  rw [hfun]
  rfl

theorem get?_upsert_self : get? (upsert d k f b) k = some ((get? d k).elim b f) := by
  unfold upsert
  split
  · next h =>
      rw [get?_map _ fun e => by split <;> rfl]
      unfold get?
      cases hf : d.find? fun e => e.1 = k with
      | none =>
          rw [List.any_eq_true] at h
          obtain ⟨e, he, hek⟩ := h
          exact absurd hek (List.find?_eq_none.1 hf e he)
      | some e =>
          have hek : e.1 = k := by simpa using List.find?_some hf
          simp only [Option.map_some, Option.elim_some, if_pos hek]
  · next h =>
      have hnone : get? d k = none := get?_eq_none_iff.2 (mt any_iff.2 h)
      rw [hnone]
      unfold get? at hnone ⊢
      rw [List.find?_append, Option.map_eq_none_iff.1 hnone, Option.none_or]
      simp

theorem get?_upsert_of_ne (h : k' ≠ k) : get? (upsert d k f b) k' = get? d k' := by
  unfold upsert
  split
  · rw [get?_map _ fun e => by split <;> rfl]
    unfold get?
    cases hf : d.find? fun e => e.1 = k' with
    | none => rfl
    | some e =>
        have hek : e.1 = k' := by simpa using List.find?_some hf
        rw [Option.map_some, Option.map_some, if_neg fun h' => h (hek.symm.trans h')]
  · unfold get?
    rw [List.find?_append, List.find?_cons_of_neg (by simpa using Ne.symm h)]
    simp

/-! ### Collecting -/

variable {key : α → κ} {new : α → β} {upd : α → β → β} {l : List α}

theorem collect_append (l : List α) (x : α) : collect key new upd (l ++ [x]) =
    upsert (collect key new upd l) (key x) (upd x) (new x) := by
  unfold collect
  rw [List.foldl_append]
  rfl

/-- What the items of a key become. -/
def fold (new : α → β) (upd : α → β → β) : List α → Option β
  | [] => none
  | x :: l => some (l.foldl (fun v y => upd y v) (new x))

theorem fold_append (l : List α) (x : α) :
    fold new upd (l ++ [x]) = some ((fold new upd l).elim (new x) (upd x)) := by
  cases l with
  | nil => rfl
  | cons y l =>
      rw [List.cons_append, fold, List.foldl_append]
      rfl

/-- **What is collected under a key.** -/
theorem get?_collect (l : List α) (k : κ) :
    get? (collect key new upd l) k = fold new upd (l.filter fun x => key x = k) := by
  induction l using List.reverseRecOn with
  | nil => rfl
  | append_singleton l x ih =>
      rw [collect_append, List.filter_append]
      by_cases hx : key x = k
      · subst hx
        rw [get?_upsert_self, ih, List.filter_cons, if_pos (by simp), List.filter_nil, fold_append]
      · rw [get?_upsert_of_ne (Ne.symm hx), ih, List.filter_cons_of_neg (by simpa using hx),
          List.filter_nil, List.append_nil]

theorem mem_keys_collect : k ∈ (collect key new upd l).map Prod.fst ↔ ∃ x ∈ l, key x = k := by
  rw [← not_iff_not, ← get?_eq_none_iff, get?_collect]
  have hnone : ∀ l : List α, fold new upd l = none ↔ l = [] := fun l => by
    cases l with
    | nil => exact ⟨fun _ => rfl, fun _ => rfl⟩
    | cons x l => exact ⟨fun h => (by cases h), fun h => (by cases h)⟩
  rw [hnone, List.filter_eq_nil_iff]
  simp only [decide_eq_true_eq, not_exists, not_and]

/-- Where the first item of a key is. -/
def firstIdx (key : α → κ) (l : List α) (k : κ) : ℕ := l.findIdx fun x => key x = k

theorem firstIdx_append_of_mem {x : α} (h : ∃ y ∈ l, key y = k) :
    firstIdx key (l ++ [x]) k = firstIdx key l k := by
  unfold firstIdx
  rw [List.findIdx_append, if_pos]
  obtain ⟨y, hy, hk⟩ := h
  exact List.findIdx_lt_length_of_exists ⟨y, hy, decide_eq_true hk⟩

theorem firstIdx_append_of_not_mem {x : α} (h : ¬ ∃ y ∈ l, key y = key x) :
    firstIdx key (l ++ [x]) (key x) = l.length := by
  unfold firstIdx
  rw [List.findIdx_append, if_neg]
  · simp
  · intro hlt
    refine h ⟨_, List.getElem_mem hlt, ?_⟩
    have := List.findIdx_getElem (w := hlt)
    exact of_decide_eq_true this

/-- **The keys are in the order of their first items.** -/
theorem pairwise_collect (l : List α) :
    ((collect key new upd l).map Prod.fst).Pairwise fun k k' =>
      firstIdx key l k < firstIdx key l k' := by
  induction l using List.reverseRecOn with
  | nil => exact List.Pairwise.nil
  | append_singleton l x ih =>
      rw [collect_append, keys_upsert]
      have hold : ∀ k ∈ (collect key new upd l).map Prod.fst,
          firstIdx key (l ++ [x]) k = firstIdx key l k := fun k hk =>
        firstIdx_append_of_mem (mem_keys_collect.1 hk)
      have ih' : ((collect key new upd l).map Prod.fst).Pairwise fun k k' =>
          firstIdx key (l ++ [x]) k < firstIdx key (l ++ [x]) k' := by
        refine ih.imp_of_mem fun {k k'} hk hk' hlt => ?_
        rw [hold k hk, hold k' hk']
        exact hlt
      split
      · exact ih'
      · next hx =>
          rw [List.pairwise_append]
          refine ⟨ih', List.pairwise_singleton _ _, fun k hk k' hk' => ?_⟩
          rw [List.mem_singleton.1 hk', hold k hk,
            firstIdx_append_of_not_mem fun h => hx (mem_keys_collect.2 h)]
          obtain ⟨y, hy, hky⟩ := mem_keys_collect.1 hk
          exact List.findIdx_lt_length_of_exists ⟨y, hy, decide_eq_true hky⟩

/-- **The last of the keys that pass a test** is the one whose first item is last. -/
theorem last_collect {q : κ → Bool} {e : κ × β}
    (h : (collect key new upd l).reverse.find? (fun e => q e.1) = some e) :
    q e.1 = true ∧ get? (collect key new upd l) e.1 = some e.2 ∧
      ∀ k', q k' = true → (∃ x ∈ l, key x = k') → firstIdx key l k' ≤ firstIdx key l e.1 := by
  obtain ⟨hq, as, bs, heq, has⟩ := List.find?_eq_some_iff_append.1 h
  have hd : collect key new upd l = bs.reverse ++ e :: as.reverse := by
    rw [← List.reverse_reverse (collect key new upd l), heq]
    simp
  have hpair := @pairwise_collect α β κ _ key new upd l
  rw [hd, List.map_append, List.map_cons, List.pairwise_append] at hpair
  obtain ⟨-, -, hbefore⟩ := hpair
  refine ⟨hq, ?_, fun k' hq' hk' => ?_⟩
  · rw [get?, hd, List.find?_append]
    have hnone : bs.reverse.find? (fun e' => e'.1 = e.1) = none := by
      rw [List.find?_eq_none]
      intro e' he' heq'
      have hlt := hbefore e'.1 (List.mem_map_of_mem he') e.1 List.mem_cons_self
      rw [of_decide_eq_true heq'] at hlt
      exact Nat.lt_irrefl _ hlt
    rw [hnone, Option.none_or]
    simp
  · have hmem : k' ∈ (collect key new upd l).map Prod.fst := mem_keys_collect.2 hk'
    rw [hd, List.map_append, List.map_cons, List.mem_append, List.mem_cons] at hmem
    rcases hmem with hmem | rfl | hmem
    · exact Nat.le_of_lt (hbefore k' hmem e.1 List.mem_cons_self)
    · exact Nat.le_refl _
    · obtain ⟨e', he', rfl⟩ := List.mem_map.1 hmem
      have hno := has e' (List.mem_reverse.1 he')
      rw [hq'] at hno
      cases hno

end Dict
