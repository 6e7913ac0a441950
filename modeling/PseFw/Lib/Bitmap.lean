/-
**Bitmaps in words.**

An array of words of `w` bits is a bitmap: bit `k` is bit `k % w` of word `k / w`.  Setting a bit is
an `or` with a mask of one bit.

Main definitions:

* `Bitmap.testBit`, `Bitmap.setBit` — one bit;
* `Bitmap.setRange` — bit after bit.

Main results:

* `Bitmap.testBit_setBit` — **a bit that is set changes no other one**;
* `Bitmap.testBit_setRange` — the same for a range.
-/

import Mathlib.Data.BitVec
import Mathlib.Logic.Function.Basic

set_option relaxedAutoImplicit false
set_option autoImplicit false

namespace Bitmap

variable {w : ℕ}

/-- Bit `k` of an array of words. -/
def testBit (words : ℕ → BitVec w) (k : ℕ) : Bool := (words (k / w)).getLsbD (k % w)

/-- The word with bit `k` of the array set. -/
def setBit (words : ℕ → BitVec w) (k : ℕ) : ℕ → BitVec w :=
  Function.update words (k / w) (words (k / w) ||| BitVec.twoPow w (k % w))

/-- The `n` bits from `i` on are set, one after the other. -/
def setRange : ℕ → ℕ → (ℕ → BitVec w) → ℕ → BitVec w
  | 0, _, words => words
  | n + 1, i, words => setRange n (i + 1) (setBit words i)

/-- Two bits of one word are told apart by their places in it. -/
theorem eq_of_place {j k : ℕ} (hword : j / w = k / w) (hbit : j % w = k % w) : j = k := by
  rw [← Nat.div_add_mod j w, ← Nat.div_add_mod k w, hword, hbit]

theorem testBit_setBit (hw : 0 < w) (words : ℕ → BitVec w) (j k : ℕ) :
    testBit (setBit words k) j = (testBit words j || decide (j = k)) := by
  have hk : k % w < w := Nat.mod_lt k hw
  unfold testBit setBit
  by_cases hword : j / w = k / w
  · rw [hword, Function.update_self, BitVec.getLsbD_or, BitVec.getLsbD_twoPow]
    congr 1
    by_cases hbit : j % w = k % w
    · simp [eq_of_place hword hbit, hk]
    · have hne : j ≠ k := fun h => hbit (h ▸ rfl)
      have hbit' : k % w ≠ j % w := fun h => hbit h.symm
      simp [hne, hbit']
  · have hne : j ≠ k := fun h => hword (h ▸ rfl)
    rw [Function.update_of_ne hword]
    simp [hne]

/-- **The bits that are set behind a range of bits are set.** -/
theorem testBit_setRange (hw : 0 < w) (n i : ℕ) (words : ℕ → BitVec w) (j : ℕ) :
    testBit (setRange n i words) j = (testBit words j || decide (i ≤ j ∧ j < i + n)) := by
  induction n generalizing i words with
  | zero =>
      have hempty : ¬ (i ≤ j ∧ j < i + 0) := by omega
      rw [setRange, decide_eq_false hempty, Bool.or_false]
  | succ n ih =>
      rw [setRange, ih, testBit_setBit hw, Bool.or_assoc, ← Bool.decide_or]
      congr 1
      rw [decide_eq_decide]
      omega

end Bitmap
