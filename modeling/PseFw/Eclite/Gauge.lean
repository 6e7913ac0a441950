/-
**The trip points and the rate of the fuel gauge.**

When the charge of the battery crosses a trip point, the gauge gives an interrupt.  ECLite then puts
the trip points one percent of the full capacity below and above the charge.  The percent is kept in
eight bits and the trip points in sixteen.  And if the capacities cannot be read, the value that
asked for new trip points is itself written as a trip point.

The current the gauge reports is negative when the battery is discharged.  The driver takes its
magnitude, and the region takes over what the driver has left as the discharge rate if it is still
negative.

Main definitions:

* `setBatteryTripPoint` — the trip points that are written;
* `TripsBracket` — one percent below and above, and none after a failed read;
* `RateReported` — the magnitude, and the discharge rate of a negative current.

Main results:

* `tripsBracket_iff` — **the trip points are right if and only if the capacities can be read, one
  percent fits into a byte, and nothing wraps**;
* `rateReported_iff` — **the discharge rate of a negative current is never taken over**, except for
  the smallest number.
-/

import PseFw.Eclite.Battery
import PseFw.Eclite.CpuTemp

set_option relaxedAutoImplicit false
set_option autoImplicit false

namespace PseFw.Eclite

open Mem

/-! ### The trip points -/

/-- `eclite_i2c_read_word`, into a variable: the result, and what the variable holds afterwards. -/
structure CapacityRead where
  ret : Int32
  value : BitVec 16
  deriving DecidableEq, Repr

/-- `BTP_CAP_PER`. -/
def btpCapPer : ℕ := 100

/-- The registers `BQ40Z40_BTP_DISCHARGE` and `BQ40Z40_BTP_CHARGE`. -/
inductive BtpRegister
  | discharge
  | charge
  deriving DecidableEq, Repr

/-- A word that is written to a register of the gauge. -/
structure BtpWrite where
  register : BtpRegister
  value : BitVec 16
  deriving DecidableEq, Repr

/-- `delta`, which has eight bits. -/
def btpDelta (fullchargeCapacity : BitVec 16) : BitVec 8 :=
  BitVec.ofNat 8 (fullchargeCapacity.toNat / btpCapPer)

/-- `btp_dischg_val` and `btp_chg_val`. -/
def btpValues (full remaining : CapacityRead) (tripValue : BitVec 16) : BitVec 16 × BitVec 16 :=
  if tripValue = 0 ∧ full.ret ||| remaining.ret = 0 then
    (remaining.value - (btpDelta full.value).setWidth 16,
      remaining.value + (btpDelta full.value).setWidth 16)
  else (tripValue, tripValue)

/-- `bq40z40_set_battery_trip_point`, with the words that are written; the last two arguments are
the results of the writes. -/
def setBatteryTripPoint (full remaining : CapacityRead) (writeDischarge writeCharge : Int32)
    (tripValue : Option (BitVec 16)) : Int32 × List BtpWrite :=
  match tripValue with
  | none => (errorCode, [])
  | some tripValue =>
      (writeDischarge ||| writeCharge,
        [⟨.discharge, (btpValues full remaining tripValue).1⟩,
          ⟨.charge, (btpValues full remaining tripValue).2⟩])

/-- Both capacities have been read. -/
def CapacitiesRead (full remaining : CapacityRead) : Prop := full.ret = 0 ∧ remaining.ret = 0

/-- The trip points lie around the charge, and one percent of the capacity away from it where there
is room for that. -/
structure Brackets (full remaining discharge charge : BitVec 16) : Prop where
  below : discharge.toNat ≤ remaining.toNat
  above : remaining.toNat ≤ charge.toNat
  below_eq : full.toNat / btpCapPer ≤ remaining.toNat →
    discharge.toNat = remaining.toNat - full.toNat / btpCapPer
  above_eq : remaining.toNat + full.toNat / btpCapPer < 2 ^ 16 →
    charge.toNat = remaining.toNat + full.toNat / btpCapPer

/-- **What is written brackets the charge**, and nothing is written if a read has failed. -/
structure TripsBracket (full remaining : CapacityRead) (written : List BtpWrite) : Prop where
  read : CapacitiesRead full remaining → ∃ discharge charge,
    written = [⟨.discharge, discharge⟩, ⟨.charge, charge⟩] ∧
      Brackets full.value remaining.value discharge charge
  failed : ¬ CapacitiesRead full remaining → written = []

/-- One percent fits into a byte, and one percent below and above the charge do not wrap. -/
structure PercentFits (full remaining : BitVec 16) : Prop where
  byte : full.toNat / btpCapPer < 2 ^ 8
  below : full.toNat / btpCapPer ≤ remaining.toNat
  above : remaining.toNat + full.toNat / btpCapPer < 2 ^ 16

variable {full remaining : BitVec 16}

theorem toNat_btpDelta (full : BitVec 16) :
    ((btpDelta full).setWidth 16).toNat = full.toNat / btpCapPer % 2 ^ 8 := by
  rw [BitVec.toNat_setWidth, btpDelta, BitVec.toNat_ofNat]
  omega

/-- The lower trip point wraps if the step is larger than the charge. -/
theorem toNat_below (full remaining : BitVec 16) :
    (remaining - (btpDelta full).setWidth 16).toNat =
      if full.toNat / btpCapPer % 2 ^ 8 ≤ remaining.toNat then
        remaining.toNat - full.toNat / btpCapPer % 2 ^ 8
      else remaining.toNat + 2 ^ 16 - full.toNat / btpCapPer % 2 ^ 8 := by
  have hremaining := remaining.isLt
  have hstep : full.toNat / btpCapPer % 2 ^ 8 < 2 ^ 8 := Nat.mod_lt _ (by decide)
  rw [BitVec.toNat_sub, toNat_btpDelta]
  split
  · omega
  · omega

/-- The upper trip point wraps if there is no room for the step. -/
theorem toNat_above (full remaining : BitVec 16) :
    (remaining + (btpDelta full).setWidth 16).toNat =
      if remaining.toNat + full.toNat / btpCapPer % 2 ^ 8 < 2 ^ 16 then
        remaining.toNat + full.toNat / btpCapPer % 2 ^ 8
      else remaining.toNat + full.toNat / btpCapPer % 2 ^ 8 - 2 ^ 16 := by
  have hremaining := remaining.isLt
  have hstep : full.toNat / btpCapPer % 2 ^ 8 < 2 ^ 8 := Nat.mod_lt _ (by decide)
  rw [BitVec.toNat_add, toNat_btpDelta]
  split
  · omega
  · omega

/-- The sums bracket the charge if and only if the percent fits. -/
theorem brackets_iff : Brackets full remaining (remaining - (btpDelta full).setWidth 16)
    (remaining + (btpDelta full).setWidth 16) ↔ PercentFits full remaining := by
  have hbelow := toNat_below full remaining
  have habove := toNat_above full remaining
  have hmod : full.toNat / btpCapPer % 2 ^ 8 ≤ full.toNat / btpCapPer := Nat.mod_le _ _
  have hstep : full.toNat / btpCapPer % 2 ^ 8 < 2 ^ 8 := Nat.mod_lt _ (by decide)
  have hpercent : full.toNat / btpCapPer ≤ 655 := by
    have hfull := full.isLt
    unfold btpCapPer
    omega
  constructor
  · intro h
    have hle : full.toNat / btpCapPer % 2 ^ 8 ≤ remaining.toNat := by
      by_contra hgt
      have hnot := h.below
      rw [hbelow, if_neg hgt] at hnot
      omega
    have hlt : remaining.toNat + full.toNat / btpCapPer % 2 ^ 8 < 2 ^ 16 := by
      by_contra hge
      have hnot := h.above
      rw [habove, if_neg hge] at hnot
      omega
    rw [if_pos hle] at hbelow
    rw [if_pos hlt] at habove
    have hbelowEq := h.below_eq
    have haboveEq := h.above_eq
    rw [hbelow] at hbelowEq
    rw [habove] at haboveEq
    constructor
    · omega
    · omega
    · omega
  · intro h
    have heq : full.toNat / btpCapPer % 2 ^ 8 = full.toNat / btpCapPer := Nat.mod_eq_of_lt h.byte
    rw [heq, if_pos h.below] at hbelow
    rw [heq, if_pos h.above] at habove
    constructor
    · rw [hbelow]
      exact Nat.sub_le _ _
    · rw [habove]
      exact Nat.le_add_right _ _
    · exact fun _ => hbelow
    · exact fun _ => habove

theorem capacitiesRead_iff (full remaining : CapacityRead) :
    full.ret ||| remaining.ret = 0 ↔ CapacitiesRead full remaining := by
  unfold CapacitiesRead
  rw [← Int32.toBitVec_inj, Int32.toBitVec_or, ← Int32.toBitVec_inj, ← Int32.toBitVec_inj]
  exact BitVec.or_eq_zero_iff

/-- **The trip points are right if and only if the capacities can be read, one percent fits into a
byte, and nothing wraps.** -/
theorem tripsBracket_iff (full remaining : CapacityRead) (writeDischarge writeCharge : Int32) :
    TripsBracket full remaining
        (setBatteryTripPoint full remaining writeDischarge writeCharge (some 0)).2 ↔
      CapacitiesRead full remaining ∧ PercentFits full.value remaining.value := by
  by_cases hread : CapacitiesRead full remaining
  · rw [and_iff_right hread, ← brackets_iff]
    have hvalues : btpValues full remaining 0 =
        (remaining.value - (btpDelta full.value).setWidth 16,
          remaining.value + (btpDelta full.value).setWidth 16) :=
      if_pos ⟨rfl, (capacitiesRead_iff full remaining).2 hread⟩
    unfold setBatteryTripPoint
    simp only
    rw [hvalues]
    constructor
    · intro h
      obtain ⟨discharge, charge, heq, hbrackets⟩ := h.read hread
      simp only [List.cons.injEq, BtpWrite.mk.injEq, true_and, and_true] at heq
      obtain ⟨rfl, rfl⟩ := heq
      exact hbrackets
    · exact fun h => ⟨fun _ => ⟨_, _, rfl, h⟩, fun hnot => absurd hread hnot⟩
  · refine iff_of_false (fun h => ?_) fun h => hread h.1
    exact absurd (h.failed hread) (List.cons_ne_nil _ _)

/-- Two capacities, the first of 25600 mAh: the percent is zero in eight bits. -/
theorem not_tripsBracket_large : ¬ ∀ (full remaining : CapacityRead)
    (writeDischarge writeCharge : Int32), TripsBracket full remaining
      (setBatteryTripPoint full remaining writeDischarge writeCharge (some 0)).2 := by
  intro h
  obtain ⟨discharge, charge, heq, hbrackets⟩ := (h ⟨0, 25600⟩ ⟨0, 10000⟩ 0 0).read ⟨rfl, rfl⟩
  have hwritten : setBatteryTripPoint ⟨0, 25600⟩ ⟨0, 10000⟩ 0 0 (some 0) =
      (0, [⟨.discharge, 10000⟩, ⟨.charge, 10000⟩]) := by
    decide
  rw [hwritten] at heq
  simp only [List.cons.injEq, BtpWrite.mk.injEq, true_and, and_true] at heq
  obtain ⟨rfl, rfl⟩ := heq
  exact absurd (hbrackets.below_eq (by decide)) (by decide)

/-! ### The rate -/

/-- The magnitude of a current. -/
def magnitude (current : BitVec 16) : ℕ := current.toInt.natAbs

/-- A word that says how large a negative current is: its magnitude, or the current itself. -/
def Describes (current : BitVec 16) (word : ℕ) : Prop :=
  word = magnitude current ∨ word = current.toNat

/-- **The region reports the rate**: the magnitude, and the discharge rate of a negative current. -/
structure RateReported (current : BitVec 16) (o : ℕ → UInt8) : Prop where
  presetRate : batteryWord o .presetRate = magnitude current
  dischargeRate : current.toInt < 0 → Describes current (batteryWord o .dischargeRate)

/-- The gauge answers with this current; the other words may fail. -/
def GaugeReads.withCurrent (g : GaugeReads) (current : BitVec 16) : GaugeReads :=
  { g with atRate := ⟨leBytes 2 current.toNat, by rw [length_leBytes]⟩ }

/-- `update_battery_region`, on a platform with a gauge that answers with this current. -/
def updateWithCurrent (chargerDev : Bool) (chargeringStatus : BitVec 8) (g : GaugeReads)
    (current : BitVec 16) (o : ℕ → UInt8) : ℕ → UInt8 :=
  updateBatteryRegion chargerDev true chargeringStatus (g.withCurrent current) o

variable {o : ℕ → UInt8} {current : BitVec 16}

/-- The magnitude as the driver computes it; that of the smallest number is the number itself. -/
theorem magnitude_eq (current : BitVec 16) :
    magnitude current =
      if 2 ^ 15 ≤ current.toNat then 2 ^ 16 - current.toNat else current.toNat := by
  have hlt := current.isLt
  unfold magnitude
  rw [BitVec.toInt_eq_toNat_cond]
  split
  · rw [if_neg (by omega)]
    omega
  · rw [if_pos (by omega)]
    omega

theorem magnitude_lt (current : BitVec 16) : magnitude current < 2 ^ 16 := by
  have hlt := current.isLt
  rw [magnitude_eq]
  split
  · omega
  · omega

/-- **The driver takes the magnitude.** -/
theorem presetRate_bq40z40AtRate (o : ℕ → UInt8) (current : BitVec 16) (r : WordRead)
    (h : r.bytes = leBytes 2 current.toNat) :
    batteryWord (bq40z40AtRate r o) .presetRate = magnitude current := by
  have hread : batteryWord (ecliteI2cReadWord .presetRate r o) .presetRate = current.toNat := by
    rw [ecliteI2cReadWord, h]
    exact batteryWord_setWord o .presetRate current.isLt
  unfold bq40z40AtRate
  simp only
  rw [hread, magnitude_eq]
  split
  · exact batteryWord_setWord _ _ (by omega)
  · exact hread

/-- The words before the last step. -/
def gaugeWords (g : GaugeReads) (o : ℕ → UInt8) : ℕ → UInt8 :=
  let o := bq40z40AtRate g.atRate (ecliteI2cReadWord .batteryVoltage g.voltage o)
  let o := ecliteI2cReadWord .remainingCapacity g.remainingCapacity o
  let o := ecliteI2cReadWord .designCapacity g.designCapacity o
  let o := ecliteI2cReadWord .fullChargeCapacity g.fullChargeCapacity o
  let o := ecliteI2cReadWord .designVoltage g.designVoltage o
  ecliteI2cReadWord .cycleCount g.cycleCount o

theorem updateGaugeWords_eq (g : GaugeReads) (o : ℕ → UInt8) :
    updateGaugeWords g o = updateDischargeRate (gaugeWords g o) := rfl

/-- The words that are read behind the rate. -/
theorem batteryWord_gaugeWords {f : OpField} (g : GaugeReads) (o : ℕ → UInt8)
    (h : f ∉ ([.remainingCapacity, .designCapacity, .fullChargeCapacity, .designVoltage,
      .cycleCount] : List OpField)) (hf : 2 ≤ f.size) :
    batteryWord (gaugeWords g o) f =
      batteryWord (bq40z40AtRate g.atRate (ecliteI2cReadWord .batteryVoltage g.voltage o)) f := by
  simp only [List.mem_cons, List.not_mem_nil, not_or, or_false] at h
  obtain ⟨hrem, hdesign, hfull, hvoltage, hcycle⟩ := h
  unfold gaugeWords
  rw [batteryWord_ecliteI2cReadWord _ _ hcycle hf (by decide),
    batteryWord_ecliteI2cReadWord _ _ hvoltage hf (by decide),
    batteryWord_ecliteI2cReadWord _ _ hfull hf (by decide),
    batteryWord_ecliteI2cReadWord _ _ hdesign hf (by decide),
    batteryWord_ecliteI2cReadWord _ _ hrem hf (by decide)]

/-- The magnitude stands in the region behind an update. -/
theorem presetRate_gaugeWords (g : GaugeReads) (o : ℕ → UInt8) :
    batteryWord (gaugeWords (g.withCurrent current) o) .presetRate = magnitude current := by
  rw [batteryWord_gaugeWords _ _ (by decide) (by decide)]
  exact presetRate_bq40z40AtRate _ current _ rfl

/-- The old discharge rate stands there until the last step. -/
theorem dischargeRate_gaugeWords (g : GaugeReads) (o : ℕ → UInt8) :
    batteryWord (gaugeWords g o) .dischargeRate = batteryWord o .dischargeRate := by
  rw [batteryWord_gaugeWords _ _ (by decide) (by decide),
    batteryWord_bq40z40AtRate _ _ (by decide) (by decide),
    batteryWord_ecliteI2cReadWord _ _ (by decide) (by decide) (by decide)]

/-- **The discharge rate is taken over only from the smallest number.** -/
theorem dischargeRate_updateDischargeRate (h : batteryWord o .presetRate = magnitude current) :
    batteryWord (updateDischargeRate o) .dischargeRate =
      if current.toInt = -2 ^ 15 then magnitude current else batteryWord o .dischargeRate := by
  have hsmallest : 2 ^ 15 ≤ magnitude current ↔ current.toInt = -2 ^ 15 := by
    have hlt := BitVec.toInt_lt (x := current)
    have hle := BitVec.le_toInt (x := current)
    unfold magnitude
    omega
  unfold updateDischargeRate
  rw [h]
  by_cases hmin : current.toInt = -2 ^ 15
  · rw [if_pos hmin, if_pos (hsmallest.2 hmin)]
    exact batteryWord_setWord _ _ (magnitude_lt current)
  · rw [if_neg hmin, if_neg fun hge => hmin (hsmallest.1 hge)]

/-- Without a charger there is no update. -/
theorem updateWithCurrent_no_charger (chargeringStatus : BitVec 8) (g : GaugeReads)
    (current : BitVec 16) (o : ℕ → UInt8) :
    updateWithCurrent false chargeringStatus g current o = o := rfl

theorem updateWithCurrent_charger (chargeringStatus : BitVec 8) (g : GaugeReads)
    (current : BitVec 16) (o : ℕ → UInt8) :
    updateWithCurrent true chargeringStatus g current o = updateDischargeRate
      (gaugeWords (g.withCurrent current) (setWord .state chargeringStatus.toNat o)) := by
  unfold updateWithCurrent updateBatteryRegion
  rw [if_neg Bool.false_ne_true.symm, if_neg Bool.false_ne_true.symm, updateGaugeWords_eq]

/-- **The rate is reported if and only if the current is not negative, or is the smallest number, or
stands in the region already**; and without a charger, if nothing has to be reported. -/
theorem rateReported_iff (chargerDev : Bool) (chargeringStatus : BitVec 8) (g : GaugeReads)
    (current : BitVec 16) (o : ℕ → UInt8) :
    RateReported current (updateWithCurrent chargerDev chargeringStatus g current o) ↔
      if chargerDev = true then
        0 ≤ current.toInt ∨ current.toInt = -2 ^ 15 ∨
          Describes current (batteryWord o .dischargeRate)
      else RateReported current o := by
  cases chargerDev with
  | false => rw [updateWithCurrent_no_charger, if_neg Bool.false_ne_true]
  | true =>
      rw [updateWithCurrent_charger, if_pos rfl]
      have hpreset : batteryWord (gaugeWords (g.withCurrent current)
          (setWord .state chargeringStatus.toNat o)) .presetRate = magnitude current :=
        presetRate_gaugeWords g _
      have hdischarge := dischargeRate_updateDischargeRate hpreset
      rw [dischargeRate_gaugeWords,
        batteryWord_setWord_of_ne _ _ (by decide) (by decide) (by decide)] at hdischarge
      constructor
      · intro h
        rcases lt_or_ge current.toInt 0 with hneg | hnonneg
        · by_cases hmin : current.toInt = -2 ^ 15
          · exact Or.inr (Or.inl hmin)
          · have hdesc := h.dischargeRate hneg
            rw [hdischarge, if_neg hmin] at hdesc
            exact Or.inr (Or.inr hdesc)
        · exact Or.inl hnonneg
      · intro h
        refine ⟨?_, fun hneg => ?_⟩
        · rw [batteryWord_updateDischargeRate _ (by decide) (by decide)]
          exact hpreset
        · rw [hdischarge]
          split
          · exact Or.inl rfl
          · next hmin => exact (h.resolve_left (not_le_of_gt hneg)).resolve_left hmin

/-- A current of minus one milliampere: the discharge rate stays zero. -/
theorem not_rateReported_one : ¬ ∀ (chargerDev : Bool) (chargeringStatus : BitVec 8)
    (g : GaugeReads) (current : BitVec 16) (o : ℕ → UInt8),
    RateReported current (updateWithCurrent chargerDev chargeringStatus g current o) := by
  intro h
  let r : WordRead := ⟨[], by decide⟩
  have hdesc := (h true 0 ⟨r, r, r, r, r, r, r⟩ (-1) fun _ => 0).dischargeRate (by decide)
  revert hdesc
  unfold Describes
  decide

end PseFw.Eclite
