/-
**Cutting a sequence into packets.**

A sender that has to fit a sequence into packets of bounded size fills one packet after the other
and marks the last one.  The result is determined by the sequence: all packets but the last are
full, and the last one is not empty.  This module describes such cuts, without saying how they are
computed.

Main definitions:

* `Chunks.IsChunking` — the pieces are a cut of the sequence;
* `Chunks.markLast` — the pieces become packets, the last of them marked.

Main results:

* `Chunks.IsChunking.flatten_eq`, `Chunks.IsChunking.length_eq`, `Chunks.IsChunking.getElem_length`
  — what the pieces add up to, how many there are, and how long they are;
* `Chunks.getElem_markLast` — which packet is marked.
-/

import Mathlib.Data.List.Basic
import Mathlib.Tactic.Common

set_option relaxedAutoImplicit false
set_option autoImplicit false

namespace Chunks

variable {α β : Type*}

/-! ### Cuts -/

/-- **The pieces cut the sequence** into full ones of length `n` and a last one, which is not
empty. -/
inductive IsChunking (n : ℕ) : List α → List (List α) → Prop
  | last {xs : List α} : xs ≠ [] → xs.length ≤ n → IsChunking n xs [xs]
  | cons {xs ys : List α} {pieces : List (List α)} : xs.length = n → IsChunking n ys pieces →
      IsChunking n (xs ++ ys) (xs :: pieces)

namespace IsChunking

variable {n : ℕ} {xs : List α} {pieces : List (List α)}

theorem ne_nil (h : IsChunking n xs pieces) : pieces ≠ [] := by
  cases h with
  | last _ _ => exact List.cons_ne_nil _ _
  | cons _ _ => exact List.cons_ne_nil _ _

theorem length_pos (h : IsChunking n xs pieces) : 0 < xs.length := by
  induction h with
  | last hne _ => exact List.length_pos_iff.2 hne
  | cons _ _ ih =>
      rw [List.length_append]
      omega

/-- **The pieces add up to the sequence.** -/
theorem flatten_eq (h : IsChunking n xs pieces) : pieces.flatten = xs := by
  induction h with
  | last _ _ => simp
  | cons _ _ ih => rw [List.flatten_cons, ih]

/-- **The number of pieces** is the length of the sequence over `n`, rounded up. -/
theorem length_eq (hn : 0 < n) (h : IsChunking n xs pieces) :
    pieces.length = (xs.length + n - 1) / n := by
  induction h with
  | @last xs hne hle =>
      have hpos := List.length_pos_iff.2 hne
      rw [List.length_singleton, eq_comm, Nat.div_eq_of_lt_le] <;> omega
  | @cons xs ys pieces hlen h ih =>
      have hpos := h.length_pos
      have hsplit : (xs ++ ys).length + n - 1 = (ys.length + n - 1) + n := by
        rw [List.length_append]
        omega
      rw [List.length_cons, ih, hsplit, Nat.add_div_right _ hn]

/-- All pieces but the last are full. -/
theorem getElem_length (h : IsChunking n xs pieces) (k : ℕ) (hk : k + 1 < pieces.length) :
    pieces[k].length = n := by
  induction h generalizing k with
  | last _ _ => simp at hk
  | cons hlen _ ih =>
      cases k with
      | zero => exact hlen
      | succ k => exact ih k (by simpa using hk)

/-- **The pieces before the last add up to a beginning** of the sequence. -/
theorem flatten_take (h : IsChunking n xs pieces) {j : ℕ} (hj : j < pieces.length) :
    (pieces.take j).flatten = xs.take (n * j) := by
  induction h generalizing j with
  | last _ _ =>
      obtain rfl : j = 0 := by simpa using hj
      simp
  | @cons xs ys pieces hlen _ ih =>
      cases j with
      | zero => simp
      | succ j =>
          have hxs : xs.length ≤ n * (j + 1) := by
            rw [hlen, Nat.mul_succ]
            omega
          rw [List.take_succ_cons, List.flatten_cons, ih (by simpa using hj), List.take_append,
            List.take_of_length_le hxs, hlen, Nat.mul_succ, Nat.add_sub_cancel]

/-- As long as there is another piece, the sequence goes on. -/
theorem mul_lt_length (h : IsChunking n xs pieces) {j : ℕ} (hj : j < pieces.length) :
    n * j < xs.length := by
  induction h generalizing j with
  | last hne _ =>
      obtain rfl : j = 0 := by simpa using hj
      simpa using List.length_pos_iff.2 hne
  | @cons xs ys pieces hlen h ih =>
      rw [List.length_append, hlen]
      cases j with
      | zero =>
          have := h.length_pos
          omega
      | succ j =>
          have := ih (j := j) (by simpa using hj)
          rw [Nat.mul_succ]
          omega

/-- As long as the sequence goes on, there is another piece. -/
theorem lt_length_of_mul_lt (h : IsChunking n xs pieces) {j : ℕ} (hj : n * j < xs.length) :
    j < pieces.length := by
  induction h generalizing j with
  | last _ hle =>
      cases j with
      | zero => simp
      | succ j =>
          rw [Nat.mul_succ] at hj
          omega
  | @cons xs ys pieces hlen _ ih =>
      cases j with
      | zero => simp
      | succ j =>
          rw [List.length_append, hlen, Nat.mul_succ] at hj
          have := ih (j := j) (by omega)
          rw [List.length_cons]
          omega

/-- No piece is empty or too long. -/
theorem length_mem (hn : 0 < n) (h : IsChunking n xs pieces) {p : List α} (hp : p ∈ pieces) :
    1 ≤ p.length ∧ p.length ≤ n := by
  induction h with
  | last hne hle =>
      rw [List.mem_singleton] at hp
      subst hp
      exact ⟨List.length_pos_iff.2 hne, hle⟩
  | cons hlen _ ih =>
      rcases List.mem_cons.1 hp with rfl | hp
      · omega
      · exact ih hp

end IsChunking

/-! ### Marking the last packet -/

/-- Make packets of the pieces, and mark the last one. -/
def markLast (packet : Bool → α → β) : List α → List β
  | [] => []
  | [x] => [packet true x]
  | x :: y :: xs => packet false x :: markLast packet (y :: xs)

theorem markLast_cons (packet : Bool → α → β) (x : α) {xs : List α} (h : xs ≠ []) :
    markLast packet (x :: xs) = packet false x :: markLast packet xs := by
  cases xs with
  | nil => exact absurd rfl h
  | cons y ys => rfl

@[simp] theorem length_markLast (packet : Bool → α → β) (xs : List α) :
    (markLast packet xs).length = xs.length := by
  fun_induction markLast packet xs with
  | case1 => rfl
  | case2 x => rfl
  | case3 x y xs ih => simpa using ih

/-- **Only the last packet is marked.** -/
theorem getElem_markLast (packet : Bool → α → β) (xs : List α) (k : ℕ)
    (hk : k < (markLast packet xs).length) (hk' : k < xs.length) :
    (markLast packet xs)[k] = packet (decide (k + 1 = xs.length)) xs[k] := by
  fun_induction markLast packet xs generalizing k with
  | case1 => simp at hk
  | case2 x =>
      obtain rfl : k = 0 := by simpa using hk'
      rfl
  | case3 x y xs ih =>
      cases k with
      | zero => simp
      | succ k =>
          have hk'' : k < (y :: xs).length := by simpa using hk'
          rw [List.getElem_cons_succ, ih k (by simpa using hk'') hk'']
          simp

/-- A function of the packets that does not look at the mark. -/
theorem map_markLast {γ : Type*} {packet : Bool → α → β} {g : β → γ} {f : α → γ}
    (h : ∀ b x, g (packet b x) = f x) (xs : List α) : (markLast packet xs).map g = xs.map f := by
  fun_induction markLast packet xs with
  | case1 => rfl
  | case2 x => simp [h]
  | case3 x y xs ih => simpa [h] using ih

theorem markLast_map {γ : Type*} (packet : Bool → α → β) (g : β → γ) (xs : List α) :
    (markLast packet xs).map g = markLast (fun b x => g (packet b x)) xs := by
  fun_induction markLast packet xs with
  | case1 => rfl
  | case2 x => rfl
  | case3 x y xs ih => simpa [markLast] using ih

end Chunks
