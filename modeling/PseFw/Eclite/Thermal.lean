/-
**The alerts of the thermal framework.**

A sensor raises an alert when its temperature lies above its critical or its high threshold, or
below its low one.  For the processor an alert moves the band: the thresholds are set to three
degrees above and below the temperature that raised it.

The temperature is a signed number and the thresholds are unsigned ones, so a threshold below zero
is a very large number in every comparison.  A high or a critical threshold of this kind is never
exceeded, and a low one is nearly always undershot: behind an alert below three degrees, the next
reading of the processor raises an alert again.

Main definitions:

* `ThermalDriverData` — what is known of a sensor;
* `checkThermalCondition`, `processThermal` — the check, and the way of a reading;
* `Hysteresis` — a reading behind an alert raises an alert only if it has left the band;
* `SensorAlert` — a bit is set as the signed numbers say.

Main results:

* `outOfBand_iff` — what the check compares;
* `raises_after_alert_iff` — the check behind an alert, **below three degrees it always alerts**;
* `thermalAlerts_iff` — **the alerts are right if and only if the band decides as it should behind
  every alert, and no negative threshold decides.**
-/

import PseFw.Eclite.Dispatcher

set_option relaxedAutoImplicit false
set_option autoImplicit false

namespace PseFw.Eclite

/-! ### The sensors -/

/-- `struct thermal_driver_data`, as far as the framework uses it.  The thresholds are of type
`uint16_t`, the other members of type `int16_t`. -/
structure ThermalDriverData where
  highThreshold : BitVec 16
  lowThreshold : BitVec 16
  critical : BitVec 16
  temperature : BitVec 16
  rotation : BitVec 16
  tacho : BitVec 16
  deriving DecidableEq, Repr

/-- `CPU`, the number of the processor among the thermal devices. -/
def cpu : ℕ := 15

/-- `CPU_TEMP_DELTA`. -/
def cpuTempDelta : ℤ := 3

/-- `DEV_NOT_FOUND`. -/
def devNotFound : Int32 := -8

/-- `enum thermal_status`. -/
inductive ThermalStatus
  | thermalHighThreshold
  | thermalLowThreshold
  | thermalCriticalThreshold
  | cpuHighThreshold
  | cpuLowThreshold
  | cpuCriticalThreshold
  deriving DecidableEq, Repr

/-- `thermal_data->temperature > threshold`; both are turned into an `int`. -/
def ThermalDriverData.Above (d : ThermalDriverData) (threshold : BitVec 16) : Prop :=
  (threshold.toNat : ℤ) < d.temperature.toInt

instance (d : ThermalDriverData) (threshold : BitVec 16) : Decidable (d.Above threshold) :=
  inferInstanceAs (Decidable (_ < _))

/-- `thermal_data->temperature < threshold`. -/
def ThermalDriverData.Below (d : ThermalDriverData) (threshold : BitVec 16) : Prop :=
  d.temperature.toInt < threshold.toNat

instance (d : ThermalDriverData) (threshold : BitVec 16) : Decidable (d.Below threshold) :=
  inferInstanceAs (Decidable (_ < _))

/-- The condition `check_thermal_condition` finds. -/
def thermalCondition (d : ThermalDriverData) (thermalDevType : ℕ) : Option ThermalStatus :=
  if thermalDevType = cpu then
    if d.Above d.critical then some .cpuCriticalThreshold
    else if d.Above d.highThreshold then some .cpuHighThreshold
    else if d.Below d.lowThreshold then some .cpuLowThreshold
    else none
  else
    if d.Above d.critical then some .thermalCriticalThreshold
    else if d.Above d.highThreshold then some .thermalHighThreshold
    else if d.Below d.lowThreshold then some .thermalLowThreshold
    else none

/-- `update_sensor_status`; which condition it is is only logged. -/
def updateSensorStatus (thermalStatus : BitVec 16) (thermalDevType : ℕ) : BitVec 16 :=
  thermalStatus ||| BitVec.twoPow 16 thermalDevType

/-- `check_thermal_condition`. -/
def checkThermalCondition (d : ThermalDriverData) (status : BitVec 16) (thermalDevType : ℕ) :
    BitVec 16 :=
  if (thermalCondition d thermalDevType).isSome then updateSensorStatus status thermalDevType
  else status

/-- The band of the processor, around its temperature. -/
def deltaBand (d : ThermalDriverData) : ThermalDriverData :=
  { d with
    highThreshold := BitVec.ofInt 16 (d.temperature.toInt + cpuTempDelta)
    lowThreshold := BitVec.ofInt 16 (d.temperature.toInt - cpuTempDelta) }

/-- `process_thermal`, for a device that is there.  The argument `readData` is the function of its
driver: from what stands in the variable for the temperature, the result and what stands there
afterwards. -/
def processDevice (d : ThermalDriverData) (readData : BitVec 16 → Int32 × BitVec 16)
    (status : BitVec 16) (thermalDevType : ℕ) : Int32 × ThermalDriverData × BitVec 16 :=
  let (ret, temperature) := readData d.temperature
  let d := { d with temperature := temperature }
  if ret ≠ 0 then (ret, d, status)
  else
    let status := checkThermalCondition d status thermalDevType
    if thermalDevType = cpu ∧ status.getLsbD cpu = true then (0, deltaBand d, status)
    else (0, d, status)

/-- `process_thermal`. -/
def processThermal (thermalDev : Option ThermalDriverData)
    (readData : BitVec 16 → Int32 × BitVec 16) (status : BitVec 16) (thermalDevType : ℕ) :
    Int32 × Option ThermalDriverData × BitVec 16 :=
  match thermalDev with
  | none => (devNotFound, none, status)
  | some d =>
      let (ret, d, status) := processDevice d readData status thermalDevType
      (ret, some d, status)

/-! ### Readings -/

/-- A reading of a device, with the status `process_thermal` is called with: the bit of the device
is not set, since `thermal_callback` has reset the status and the other devices have bits of their
own. -/
structure ThermalReading (thermalDevType : ℕ) where
  temperature : BitVec 16
  status : BitVec 16
  lt : thermalDevType < 16
  clear : status.getLsbD thermalDevType = false

/-- What `process_thermal` does with a reading. -/
def ThermalReading.process {thermalDevType : ℕ} (r : ThermalReading thermalDevType)
    (d : ThermalDriverData) : Int32 × ThermalDriverData × BitVec 16 :=
  processDevice d (fun _ => (0, r.temperature)) r.status thermalDevType

/-- The reading raises an alert. -/
def Raises {thermalDevType : ℕ} (d : ThermalDriverData) (r : ThermalReading thermalDevType) :
    Prop :=
  (r.process d).2.2.getLsbD thermalDevType = true

/-- The data of the processor behind a sequence of readings. -/
def cpuRun (d : ThermalDriverData) (rs : List (ThermalReading cpu)) : ThermalDriverData :=
  rs.foldl (fun d r => (r.process d).2.1) d

/-! ### What is wanted -/

/-- The reading has left the band around the temperature of the one before it, or is critical. -/
def LeavesBand (critical : BitVec 16) (before after : BitVec 16) : Prop :=
  critical.toInt < after.toInt ∨ cpuTempDelta < |after.toInt - before.toInt|

/-- **Behind an alert, a reading raises an alert if and only if it has left the band.** -/
def Hysteresis (d : ThermalDriverData) (rs : List (ThermalReading cpu)) : Prop :=
  ∀ (pre : List (ThermalReading cpu)) (r r' : ThermalReading cpu) (post : List _),
    rs = pre ++ r :: r' :: post → Raises (cpuRun d pre) r →
      (Raises (cpuRun d (pre ++ [r])) r' ↔ LeavesBand d.critical r.temperature r'.temperature)

/-- The thresholds as the host has written them. -/
structure HostThresholds where
  high : BitVec 16
  low : BitVec 16
  critical : BitVec 16

/-- `thermal_command` stores them. -/
def ThermalDriverData.store (d : ThermalDriverData) (h : HostThresholds) : ThermalDriverData :=
  { d with highThreshold := h.high, lowThreshold := h.low, critical := h.critical }

/-- An alert is due; all numbers are signed. -/
def HostThresholds.Due (h : HostThresholds) (temperature : BitVec 16) : Prop :=
  h.critical.toInt < temperature.toInt ∨ h.high.toInt < temperature.toInt ∨
    temperature.toInt < h.low.toInt

/-- **The bit is set if and only if an alert is due.** -/
def SensorAlert {thermalDevType : ℕ} (d : ThermalDriverData) (h : HostThresholds)
    (r : ThermalReading thermalDevType) : Prop :=
  Raises (d.store h) r ↔ h.Due r.temperature

/-- **The alerts are right**, of the processor and of a sensor. -/
def ThermalAlerts {thermalDevType : ℕ} (processor : ThermalDriverData)
    (rs : List (ThermalReading cpu)) (d : ThermalDriverData) (h : HostThresholds)
    (r : ThermalReading thermalDevType) : Prop :=
  Hysteresis processor rs ∧ SensorAlert d h r

/-- The reading stands above the low threshold that has wrapped around at the lower end. -/
def Wrapped (before after : BitVec 16) : Prop := before.toInt - cpuTempDelta + 2 ^ 16 ≤ after.toInt

/-- The band decides as it should: below three degrees the next reading has left it; one that stands
above a threshold that has wrapped around is critical; and a critical threshold below zero does not
decide. -/
structure BandHolds (critical : BitVec 16) (before after : BitVec 16) : Prop where
  low : before.toInt < cpuTempDelta → ¬ Wrapped before after → LeavesBand critical before after
  wrapped : Wrapped before after → 0 ≤ critical.toInt ∧ critical.toInt < after.toInt
  critical : cpuTempDelta ≤ before.toInt → critical.toInt < 0 →
    critical.toInt < after.toInt → cpuTempDelta < |after.toInt - before.toInt|

/-- An upper threshold is exceeded that is not negative, or the low one is undershot. -/
def HostThresholds.Seen (h : HostThresholds) (temperature : BitVec 16) : Prop :=
  (0 ≤ h.critical.toInt ∧ h.critical.toInt < temperature.toInt) ∨
    (0 ≤ h.high.toInt ∧ h.high.toInt < temperature.toInt) ∨ temperature.toInt < h.low.toInt

/-- No negative threshold decides: with a negative low one an alert is due, and with another low one
an alert that is due is so without the negative ones. -/
structure NoNegativeDecides (h : HostThresholds) (temperature : BitVec 16) : Prop where
  low : h.low.toInt < 0 → h.Due temperature
  upper : 0 ≤ h.low.toInt → h.Due temperature → h.Seen temperature

variable {d : ThermalDriverData} {threshold status : BitVec 16} {n : ℕ}

/-! ### The comparisons -/

/-- A negative threshold is never exceeded. -/
theorem above_iff : d.Above threshold ↔
    0 ≤ threshold.toInt ∧ threshold.toInt < d.temperature.toInt := by
  have htemp := BitVec.toInt_lt (x := d.temperature)
  have hlt := threshold.isLt
  unfold ThermalDriverData.Above
  rw [BitVec.toInt_eq_toNat_cond threshold]
  split
  · omega
  · omega

/-- A negative threshold is always undershot. -/
theorem below_iff : d.Below threshold ↔
    threshold.toInt < 0 ∨ d.temperature.toInt < threshold.toInt := by
  have htemp := BitVec.toInt_lt (x := d.temperature)
  have hlt := threshold.isLt
  unfold ThermalDriverData.Below
  rw [BitVec.toInt_eq_toNat_cond threshold]
  split
  · omega
  · omega

/-- A number that is stored in sixteen bits without a sign. -/
theorem toNat_ofInt_threshold {i : ℤ} (hlo : -2 ^ 16 ≤ i) (hhi : i < 2 ^ 16) :
    ((BitVec.ofInt 16 i).toNat : ℤ) = if i < 0 then i + 2 ^ 16 else i := by
  rw [BitVec.toNat_ofInt, Int.toNat_of_nonneg (Int.emod_nonneg _ (by decide))]
  split
  · omega
  · omega

/-- What the check compares. -/
def OutOfBand (d : ThermalDriverData) : Prop :=
  d.Above d.critical ∨ d.Above d.highThreshold ∨ d.Below d.lowThreshold

theorem outOfBand_iff : (thermalCondition d n).isSome = true ↔ OutOfBand d := by
  unfold thermalCondition OutOfBand
  by_cases hcritical : d.Above d.critical
  · simp [hcritical, apply_ite Option.isSome]
  · by_cases hhigh : d.Above d.highThreshold
    · simp [hcritical, hhigh, apply_ite Option.isSome]
    · by_cases hlow : d.Below d.lowThreshold
      · simp [hcritical, hhigh, hlow, apply_ite Option.isSome]
      · simp [hcritical, hhigh, hlow]

/-! ### The bits -/

theorem getLsbD_updateSensorStatus_of_ne {k : ℕ} (h : n ≠ k) :
    (updateSensorStatus status n).getLsbD k = status.getLsbD k := by
  unfold updateSensorStatus
  rw [BitVec.getLsbD_or, BitVec.getLsbD_twoPow, decide_eq_false h, Bool.and_false, Bool.or_false]

/-- The bit of another device stays. -/
theorem getLsbD_checkThermalCondition_of_ne {k : ℕ} (h : n ≠ k) :
    (checkThermalCondition d status n).getLsbD k = status.getLsbD k := by
  unfold checkThermalCondition
  split
  · exact getLsbD_updateSensorStatus_of_ne h
  · rfl

/-- The bit of the device says whether it is out of its band. -/
theorem getLsbD_checkThermalCondition (hlt : n < 16) (hclear : status.getLsbD n = false) :
    (checkThermalCondition d status n).getLsbD n = true ↔ OutOfBand d := by
  rw [← outOfBand_iff (n := n)]
  unfold checkThermalCondition
  split
  · next hsome =>
      refine iff_of_true ?_ hsome
      unfold updateSensorStatus
      rw [BitVec.getLsbD_or, BitVec.getLsbD_twoPow, decide_eq_true hlt, decide_eq_true rfl,
        Bool.and_true, Bool.or_true]
  · next hnone =>
      refine iff_of_false ?_ hnone
      rw [hclear]
      decide

/-- The status behind a call does not depend on the band. -/
theorem processDevice_status (readData : BitVec 16 → Int32 × BitVec 16) :
    (processDevice d readData status n).2.2 =
      if (readData d.temperature).1 ≠ 0 then status
      else checkThermalCondition { d with temperature := (readData d.temperature).2 } status n := by
  unfold processDevice
  simp only
  split
  · rfl
  · split
    · rfl
    · rfl

/-- **A reading raises an alert if it is out of the band that is stored.** -/
theorem raises_iff (r : ThermalReading n) :
    Raises d r ↔ OutOfBand { d with temperature := r.temperature } := by
  unfold Raises ThermalReading.process
  rw [processDevice_status, if_neg (not_not_intro rfl)]
  exact getLsbD_checkThermalCondition r.lt r.clear

/-! ### The band -/

/-- The data behind a reading of the processor that raises an alert. -/
theorem process_of_raises (r : ThermalReading cpu) (h : Raises d r) :
    (r.process d).2.1 = deltaBand { d with temperature := r.temperature } := by
  have hbit : (checkThermalCondition { d with temperature := r.temperature } r.status
      cpu).getLsbD cpu = true :=
    (getLsbD_checkThermalCondition r.lt r.clear).2 ((raises_iff r).1 h)
  unfold ThermalReading.process processDevice
  simp only
  rw [if_neg (not_not_intro rfl), if_pos ⟨trivial, hbit⟩]

/-- No reading writes the critical threshold. -/
theorem critical_process (r : ThermalReading n) : (r.process d).2.1.critical = d.critical := by
  unfold ThermalReading.process processDevice
  simp only
  rw [if_neg (not_not_intro rfl)]
  split
  · rfl
  · rfl

theorem critical_cpuRun (rs : List (ThermalReading cpu)) :
    (cpuRun d rs).critical = d.critical := by
  induction rs generalizing d with
  | nil => rfl
  | cons r rs ih => exact (ih (d := (r.process d).2.1)).trans (critical_process r)

theorem cpuRun_concat (rs : List (ThermalReading cpu)) (r : ThermalReading cpu) :
    cpuRun d (rs ++ [r]) = (r.process (cpuRun d rs)).2.1 := by
  unfold cpuRun
  rw [List.foldl_append, List.foldl_cons, List.foldl_nil]

/-- **The check behind an alert**: from three degrees on it is the one of the band, and below three
degrees it always alerts, unless the low threshold wraps around. -/
theorem raises_after_alert_iff (r r' : ThermalReading cpu) (h : Raises d r) :
    Raises (r.process d).2.1 r' ↔
      (0 ≤ d.critical.toInt ∧ d.critical.toInt < r'.temperature.toInt) ∨
        (r.temperature.toInt < cpuTempDelta ∧ ¬ Wrapped r.temperature r'.temperature) ∨
          (cpuTempDelta ≤ r.temperature.toInt ∧
            cpuTempDelta < |r'.temperature.toInt - r.temperature.toInt|) := by
  have hlt := BitVec.toInt_lt (x := r.temperature)
  have hle := BitVec.le_toInt (x := r.temperature)
  have hlt' := BitVec.toInt_lt (x := r'.temperature)
  have hle' := BitVec.le_toInt (x := r'.temperature)
  rw [raises_iff, process_of_raises r h, OutOfBand, above_iff]
  refine or_congr_right ?_
  unfold ThermalDriverData.Above ThermalDriverData.Below deltaBand Wrapped cpuTempDelta
  simp only
  rw [toNat_ofInt_threshold (by omega) (by omega), toNat_ofInt_threshold (by omega) (by omega),
    lt_abs]
  split
  · rw [if_pos (by omega)]
    omega
  · split
    · omega
    · omega

/-- Where the low threshold wraps around, the readings are far apart. -/
theorem Wrapped.delta_lt {before after : BitVec 16} (h : Wrapped before after) :
    before.toInt < cpuTempDelta ∧ cpuTempDelta < |after.toInt - before.toInt| := by
  have hlt := BitVec.toInt_lt (x := after)
  unfold Wrapped cpuTempDelta at h
  rw [cpuTempDelta, lt_abs]
  omega

/-- The alert behind an alert is right if and only if the band decides as it should. -/
theorem hysteresis_step_iff (r r' : ThermalReading cpu) (h : Raises d r) :
    (Raises (r.process d).2.1 r' ↔ LeavesBand d.critical r.temperature r'.temperature) ↔
      BandHolds d.critical r.temperature r'.temperature := by
  rw [raises_after_alert_iff r r' h]
  constructor
  · intro hiff
    refine ⟨fun hlow hwrap => hiff.1 (Or.inr (Or.inl ⟨hlow, hwrap⟩)), fun hwrap => ?_,
      fun hhigh hneg hcritical => ?_⟩
    · obtain ⟨hlow, hdelta⟩ := hwrap.delta_lt
      rcases hiff.2 (Or.inr hdelta) with hcritical | ⟨-, hnot⟩ | ⟨hhigh, -⟩
      · exact hcritical
      · exact absurd hwrap hnot
      · exact absurd hlow (not_lt_of_ge hhigh)
    · rcases hiff.2 (Or.inl hcritical) with ⟨hnonneg, -⟩ | ⟨hlow, -⟩ | ⟨-, hdelta⟩
      · exact absurd hneg (not_lt_of_ge hnonneg)
      · exact absurd hlow (not_lt_of_ge hhigh)
      · exact hdelta
  · intro hb
    constructor
    · rintro (⟨-, hcritical⟩ | ⟨hlow, hwrap⟩ | ⟨-, hdelta⟩)
      · exact Or.inl hcritical
      · exact hb.low hlow hwrap
      · exact Or.inr hdelta
    · intro hleaves
      by_cases hwrap : Wrapped r.temperature r'.temperature
      · exact Or.inl (hb.wrapped hwrap)
      · rcases lt_or_ge r.temperature.toInt cpuTempDelta with hlow | hhigh
        · exact Or.inr (Or.inl ⟨hlow, hwrap⟩)
        · rcases hleaves with hcritical | hdelta
          · rcases lt_or_ge d.critical.toInt 0 with hneg | hnonneg
            · exact Or.inr (Or.inr ⟨hhigh, hb.critical hhigh hneg hcritical⟩)
            · exact Or.inl ⟨hnonneg, hcritical⟩
          · exact Or.inr (Or.inr ⟨hhigh, hdelta⟩)

/-- The run is right if and only if the band decides as it should behind every alert. -/
theorem hysteresis_iff (d : ThermalDriverData) (rs : List (ThermalReading cpu)) :
    Hysteresis d rs ↔ ∀ (pre : List (ThermalReading cpu)) (r r' : ThermalReading cpu)
      (post : List (ThermalReading cpu)), rs = pre ++ r :: r' :: post →
        Raises (cpuRun d pre) r → BandHolds d.critical r.temperature r'.temperature := by
  unfold Hysteresis
  refine forall_congr' fun pre => forall_congr' fun r => forall_congr' fun r' =>
    forall_congr' fun post => forall_congr' fun _ => forall_congr' fun halert => ?_
  have hstep := hysteresis_step_iff r r' halert
  rw [critical_cpuRun] at hstep
  rw [cpuRun_concat]
  exact hstep

/-! ### The thresholds of the host -/

/-- The bit is right if and only if no negative threshold decides. -/
theorem sensorAlert_iff (d : ThermalDriverData) (h : HostThresholds) (r : ThermalReading n) :
    SensorAlert d h r ↔ NoNegativeDecides h r.temperature := by
  have hraises : Raises (d.store h) r ↔ h.low.toInt < 0 ∨ h.Seen r.temperature := by
    rw [raises_iff, OutOfBand, above_iff, above_iff, below_iff, HostThresholds.Seen,
      or_left_comm (a := h.low.toInt < 0), or_left_comm (a := h.low.toInt < 0)]
    rfl
  have hdue : h.Seen r.temperature → h.Due r.temperature := by
    rintro (⟨-, hcritical⟩ | ⟨-, hhigh⟩ | hlow)
    · exact Or.inl hcritical
    · exact Or.inr (Or.inl hhigh)
    · exact Or.inr (Or.inr hlow)
  unfold SensorAlert
  rw [hraises]
  constructor
  · intro hiff
    refine ⟨fun hlow => hiff.1 (Or.inl hlow), fun hlow hd => ?_⟩
    exact (hiff.2 hd).resolve_left (not_lt_of_ge hlow)
  · intro hn
    constructor
    · rintro (hlow | hseen)
      · exact hn.low hlow
      · exact hdue hseen
    · intro hd
      rcases lt_or_ge h.low.toInt 0 with hlow | hlow
      · exact Or.inl hlow
      · exact Or.inr (hn.upper hlow hd)

/-- **The alerts are right if and only if the band decides as it should behind every alert of the
processor, and no negative threshold decides.** -/
theorem thermalAlerts_iff {thermalDevType : ℕ} (processor : ThermalDriverData)
    (rs : List (ThermalReading cpu)) (d : ThermalDriverData) (h : HostThresholds)
    (r : ThermalReading thermalDevType) : ThermalAlerts processor rs d h r ↔
      (∀ (pre : List (ThermalReading cpu)) (r r' : ThermalReading cpu)
        (post : List (ThermalReading cpu)), rs = pre ++ r :: r' :: post →
          Raises (cpuRun processor pre) r →
            BandHolds processor.critical r.temperature r'.temperature) ∧
        NoNegativeDecides h r.temperature :=
  and_congr (hysteresis_iff processor rs) (sensorAlert_iff d h r)

/-- The processor as `cpu_init` leaves it, and two readings of one degree: both raise an alert. -/
theorem not_thermalAlerts_one : ¬ ∀ (processor : ThermalDriverData)
    (rs : List (ThermalReading cpu)) (d : ThermalDriverData) (h : HostThresholds)
    (r : ThermalReading cpu), ThermalAlerts processor rs d h r := by
  intro hall
  let r : ThermalReading cpu := ⟨1, 0, by decide, by decide⟩
  have hrun := (hall ⟨55, 50, 130, 0, 0, 0⟩ [r, r] ⟨55, 50, 130, 0, 0, 0⟩ ⟨55, 50, 130⟩ r).1
  have hfirst : Raises ⟨55, 50, 130, 0, 0, 0⟩ r := by
    unfold Raises
    decide
  have hsecond : Raises (r.process ⟨55, 50, 130, 0, 0, 0⟩).2.1 r := by
    unfold Raises
    decide
  have hleaves := (hrun [] r r [] rfl hfirst).1 hsecond
  revert hleaves
  unfold LeavesBand
  decide

end PseFw.Eclite
