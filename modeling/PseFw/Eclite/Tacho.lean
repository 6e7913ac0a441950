/-
**The speed of the fan.**

A counter of 64 bits counts the pulses of the fan, two for a turn.  Once a second its count is
delivered, and the difference to the count before, thirty times, is the number of turns a minute.
The difference is put into a signed variable of sixteen bits, which is corrected when it is negative
and then multiplied in its place.

Up to 1092 pulses a second nothing of this is noticed: the difference of two counts is the same
whether or not the counter has wrapped around, it fits, and so does the product.

Main definitions:

* `tgpioCallback` — what is done with a count;
* `ecliteReadTacho` — the speed;
* `Exact` — the speed behind a count is the right one, without the correction.

Main results:

* `exact_of_close` — **a callback whose count is close to the one before**;
* `speedExact_of_steady` — a run of callbacks.
-/

import Mathlib.Data.BitVec
import Mathlib.Data.List.Basic
import Mathlib.Data.List.Chain

set_option relaxedAutoImplicit false
set_option autoImplicit false

namespace PseFw.Eclite

/-! ### The callback -/

/-- The variables of `eclite_tacho.c`. -/
structure TachoVars where
  isCallbacked : Bool
  rotation : BitVec 16
  currentRotation : BitVec 64
  previousRotation : BitVec 64
  deriving DecidableEq, Repr

/-- `WRAP_AROUND`. -/
def wrapAround : BitVec 64 := 0xFFFFFFFFFFFFFFFF

/-- `ONE_MINUTE`. -/
def oneMinute : ℤ := 60

/-- `PULSE_PER_REV`. -/
def pulsePerRev : ℤ := 2

/-- `eclite_init_tacho`, its variables. -/
def ecliteInitTacho : TachoVars := ⟨false, 0, 0, 0⟩

/-- The count is stored, and the difference to the one before is put into `rotation`. -/
def countRotation (evCnt : BitVec 64) (v : TachoVars) : TachoVars where
  isCallbacked := true
  rotation := (evCnt - v.currentRotation).setWidth 16
  currentRotation := evCnt
  previousRotation := v.currentRotation

/-- The count is taken for one that is rolled over. -/
def RolledOver (evCnt : BitVec 64) (v : TachoVars) : Prop :=
  (countRotation evCnt v).rotation.toInt < 0

instance (evCnt : BitVec 64) (v : TachoVars) : Decidable (RolledOver evCnt v) :=
  inferInstanceAs (Decidable (_ < _))

/-- `tgpio_callback`. -/
def tgpioCallback (evCnt : BitVec 64) (v : TachoVars) : TachoVars :=
  let x := countRotation evCnt v
  let rotation :=
    if RolledOver evCnt v then
      (x.currentRotation - x.previousRotation + wrapAround).setWidth 16
    else x.rotation
  { x with rotation := BitVec.ofInt 16 ((rotation.toInt * oneMinute).tdiv pulsePerRev) }

/-- `eclite_read_tacho`, what it stores. -/
def ecliteReadTacho (v : TachoVars) : BitVec 32 := v.rotation.signExtend 32

/-- A sequence of counts is delivered. -/
def tachoRun (counts : List (BitVec 64)) (v : TachoVars) : TachoVars :=
  counts.foldl (fun v evCnt => tgpioCallback evCnt v) v

/-! ### What is wanted -/

/-- The pulses between two counts. -/
def pulses (a b : BitVec 64) : ℕ := (b - a).toNat

/-- Two counts of consecutive seconds. -/
def Close (a b : BitVec 64) : Prop := pulses a b ≤ 1092

instance (a b : BitVec 64) : Decidable (Close a b) := inferInstanceAs (Decidable (_ ≤ _))

/-- **The speed behind count `b` is the one since count `a`**, and nothing was corrected. -/
structure Exact (v : TachoVars) (a b : BitVec 64) : Prop where
  uncorrected : ¬ RolledOver b v
  speed : (ecliteReadTacho (tgpioCallback b v)).toNat = 30 * pulses a b

/-- **The speeds of a run are the right ones**: behind every count that comes after another one, and
behind the first one if it is close to the count that is stored. -/
structure SpeedExact (v : TachoVars) (counts : List (BitVec 64)) : Prop where
  later : ∀ (pre : List (BitVec 64)) (a b : BitVec 64) (post : List (BitVec 64)),
    counts = pre ++ a :: b :: post → Exact (tachoRun (pre ++ [a]) v) a b
  first : ∀ (b : BitVec 64) (post : List (BitVec 64)),
    counts = b :: post → Close v.currentRotation b → Exact v v.currentRotation b

variable {v : TachoVars} {a b : BitVec 64} {counts : List (BitVec 64)}

/-! ### A callback -/

/-- A difference that fits is not negative. -/
theorem toInt_countRotation (h : Close v.currentRotation b) :
    (countRotation b v).rotation.toInt = pulses v.currentRotation b := by
  have hsmall : pulses v.currentRotation b ≤ 1092 := h
  have hnat : (countRotation b v).rotation.toNat = pulses v.currentRotation b := by
    show ((b - v.currentRotation).setWidth 16).toNat = pulses v.currentRotation b
    rw [BitVec.toNat_setWidth]
    exact Nat.mod_eq_of_lt (by unfold pulses at hsmall; omega)
  rw [BitVec.toInt_eq_toNat_of_lt (by omega), hnat]

theorem not_rolledOver (h : Close v.currentRotation b) : ¬ RolledOver b v := by
  unfold RolledOver
  rw [toInt_countRotation h]
  omega

/-- Thirty times a number of pulses, as the code computes it. -/
theorem toInt_scaled {n : ℕ} (h : n ≤ 1092) :
    (BitVec.ofInt 16 (((n : ℤ) * oneMinute).tdiv pulsePerRev)).toInt = 30 * (n : ℤ) := by
  have hscaled : ((n : ℤ) * oneMinute).tdiv pulsePerRev = 30 * (n : ℤ) := by
    have hmul : (n : ℤ) * oneMinute = 30 * (n : ℤ) * pulsePerRev := by
      unfold oneMinute pulsePerRev
      omega
    rw [hmul]
    exact Int.mul_tdiv_cancel _ (by decide)
  rw [hscaled]
  refine BitVec.toInt_ofInt_eq_self (by decide) ?_ ?_
  · omega
  · omega

theorem rotation_tgpioCallback (h : Close v.currentRotation b) :
    (tgpioCallback b v).rotation.toInt = 30 * (pulses v.currentRotation b : ℤ) := by
  unfold tgpioCallback
  dsimp only
  rw [if_neg (not_rolledOver h), toInt_countRotation h]
  exact toInt_scaled h

/-- **A callback whose count is close to the one that is stored.** -/
theorem exact_of_close (h : Close v.currentRotation b) : Exact v v.currentRotation b := by
  refine ⟨not_rolledOver h, ?_⟩
  have hrotation := rotation_tgpioCallback h
  have hread : (ecliteReadTacho (tgpioCallback b v)).toInt =
      30 * (pulses v.currentRotation b : ℤ) := by
    unfold ecliteReadTacho
    rw [BitVec.toInt_signExtend_of_le (by decide), hrotation]
  rw [BitVec.toInt_eq_toNat_cond] at hread
  have hlt := (ecliteReadTacho (tgpioCallback b v)).isLt
  split at hread
  · omega
  · omega

/-! ### A run -/

/-- The count that was delivered last is stored. -/
theorem currentRotation_tachoRun (pre : List (BitVec 64)) (a : BitVec 64) (v : TachoVars) :
    (tachoRun (pre ++ [a]) v).currentRotation = a := by
  unfold tachoRun
  rw [List.foldl_append]
  rfl

/-- **The speeds are exact** in every run whose consecutive counts differ by at most 1092 pulses,
wherever the counter wraps around. -/
theorem speedExact_of_steady (v : TachoVars) (counts : List (BitVec 64))
    (h : counts.IsChain Close) : SpeedExact v counts := by
  constructor
  · rintro pre a b post rfl
    have hclose : Close a b := by
      have hsuffix := (List.isChain_append.1 h).2.1
      exact (List.isChain_cons_cons.1 hsuffix).1
    have hstored := currentRotation_tachoRun pre a v
    have hexact := @exact_of_close (tachoRun (pre ++ [a]) v) b (hstored.symm ▸ hclose)
    rwa [hstored] at hexact
  · rintro b post - hclose
    exact exact_of_close hclose

/-- The counter wraps around between the second and the third count: 1092 pulses are 32760 turns. -/
theorem speedExact_wrap : Exact (tachoRun [-1000, -500] ecliteInitTacho) (-500) 592 :=
  (speedExact_of_steady ecliteInitTacho [-1000, -500, 592] (by decide)).later [-1000] (-500) 592 []
    rfl

end PseFw.Eclite
