/-
**The checks of the battery.**

When the charger or the fuel gauge has an event, ECLite asks the gauge for its words, puts them into
the region, and looks at them twice.  In S3 it wakes the host when the battery runs low, and it asks
for a shutdown when the battery is critical.  A word that cannot be read stays as it was, and a
platform without a gauge leaves them all.

The percentage is a quotient by the full charge capacity that is kept in sixteen bits.  Nobody looks
whether the divisor is zero.  The second check compares the full charge capacity, not the remaining
one, with the critical level.

Main definitions:

* `batteryWord` — a word of `struct battery`, as it stands in the region;
* `handleLowBatteryWake`, `handleCritBatteryShutdown`, `batteryChecks` — the two checks;
* `updateBatteryRegion`, `beforeChecks` — what happens before them;
* `BatteryAlarms` — no division by zero, no wrapped difference, the right requests;
* `BatterySound` — the contents for which it is so.

Main results:

* `lowBatteryWake_iff`, `critBatteryShutdown_iff` — what the checks ask for;
* `batteryAlarms_iff` — **the checks are right if and only if the contents are sound**;
* `discharging_beforeChecks` — the first check sees the status the charging manager has found;
* `no_shutdown_request` — nobody writes the critical level, so that no battery shuts the host down.
-/

import PseFw.Eclite.Charger
import PseFw.Eclite.HostComm

set_option relaxedAutoImplicit false
set_option autoImplicit false

namespace PseFw.Eclite

open Mem

/-! ### The words -/

/-- A word of the region. -/
def batteryWord (o : ℕ → UInt8) (f : OpField) : ℕ := ofLe (read o f.offset 2)

/-- A word is put into the region. -/
def setWord (f : OpField) (n : ℕ) (o : ℕ → UInt8) : ℕ → UInt8 := write o f.offset (leBytes 2 n)

theorem batteryWord_lt (o : ℕ → UInt8) (f : OpField) : batteryWord o f < 2 ^ 16 := by
  have h := ofLe_lt (read o f.offset 2)
  rw [length_read] at h
  exact h

theorem batteryWord_setWord (o : ℕ → UInt8) (f : OpField) {n : ℕ} (h : n < 2 ^ 16) :
    batteryWord (setWord f n o) f = n := by
  have hread := read_write_self o f.offset (leBytes 2 n)
  rw [length_leBytes] at hread
  rw [batteryWord, setWord, hread]
  exact ofLe_leBytes h

theorem mem_ecliteOpregionFields (f : OpField) : f ∈ ecliteOpregionFields := by
  cases f <;> decide

/-- A write to another member leaves a word as it is. -/
theorem batteryWord_write {f g : OpField} (o : ℕ → UInt8) {l : List UInt8} (hne : f ≠ g)
    (hf : 2 ≤ f.size) (hl : l.length ≤ g.size) :
    batteryWord (write o g.offset l) f = batteryWord o f := by
  have hdis : f.offset + f.size ≤ g.offset ∨ g.offset + g.size ≤ f.offset :=
    offset_disjoint OpField.size (mem_ecliteOpregionFields f) (mem_ecliteOpregionFields g) hne
  unfold batteryWord
  rw [read_write_disjoint]
  omega

/-! ### The checks -/

/-- `MAX_PERCENTAGE`. -/
def maxPercentage : ℕ := 100

/-- The requests for a change of the power state, `PMC_SRT_SHUTDOWN` and `PMC_SRT_WAKEUP`. -/
inductive PowerStateChange
  | shutdown
  | wakeup
  deriving DecidableEq, Repr

/-- The values of `eclite_sx_state`, in the order in which the platform prints them. -/
inductive PmResetType
  | s0
  | s3
  | s4
  | s5
  | warm
  | cold
  deriving DecidableEq, Repr

/-- `state & BATTERY_DISCHARGING`. -/
def Discharging (o : ℕ → UInt8) : Prop := (batteryWord o .state).testBit 0 = true

instance (o : ℕ → UInt8) : Decidable (Discharging o) :=
  inferInstanceAs (Decidable (_ = true))

/-- `rem_capacity_percent`, which has sixteen bits; there is none when the divisor is zero. -/
def remCapacityPercent (o : ℕ → UInt8) : Option ℕ :=
  let capacity := batteryWord o .fullChargeCapacity
  if capacity = 0 then none
  else some (batteryWord o .remainingCapacity * maxPercentage / capacity % 2 ^ 16)

/-- `handle_low_battery_wake`, with the requests it makes. -/
def handleLowBatteryWake (critBatLevel : UInt16) (ecliteSxState : PmResetType)
    (o : ℕ → UInt8) : Option (List PowerStateChange) :=
  (remCapacityPercent o).map fun percent =>
    if Discharging o ∧ percent < critBatLevel.toNat ∧ ecliteSxState = .s3 then [.wakeup] else []

/-- `critical_level - delta`, a difference of type `int`. -/
def critMargin (o : ℕ → UInt8) : Int32 :=
  Int32.ofNat (batteryWord o .criticalLevel) -
    Int32.ofNat (batteryWord o .designCapacity / maxPercentage)

/-- `handle_crit_battery_shutdown`, with the requests it makes. -/
def handleCritBatteryShutdown (o : ℕ → UInt8) : List PowerStateChange :=
  let capacity := batteryWord o .fullChargeCapacity
  if capacity < batteryWord o .criticalLevel then
    if Int32.ofNat capacity < critMargin o then [.shutdown] else []
  else []

/-- The checks behind an event of the charger, one after the other. -/
def batteryChecks (critBatLevel : UInt16) (ecliteSxState : PmResetType) (o : ℕ → UInt8) :
    Option (List PowerStateChange) :=
  (handleLowBatteryWake critBatLevel ecliteSxState o).map (· ++ handleCritBatteryShutdown o)

/-! ### What is wanted -/

/-- Less than the critical level minus one percent of the design capacity; the comparison is one of
numbers, of hundredths. -/
def BelowCritical (o : ℕ → UInt8) (capacity : ℕ) : Prop :=
  (100 * capacity : ℤ) < 100 * batteryWord o .criticalLevel - batteryWord o .designCapacity

/-- **The requests are right.** -/
structure RightRequests (critBatLevel : UInt16) (ecliteSxState : PmResetType) (o : ℕ → UInt8)
    (requests : List PowerStateChange) : Prop where
  wakeup : .wakeup ∈ requests ↔ (Discharging o ∧ ecliteSxState = .s3) ∧
    100 * batteryWord o .remainingCapacity <
      critBatLevel.toNat * batteryWord o .fullChargeCapacity
  shutdown : .shutdown ∈ requests ↔ BelowCritical o (batteryWord o .remainingCapacity)

/-- The difference is the one of the numbers. -/
def Unwrapped (o : ℕ → UInt8) : Prop :=
  (critMargin o).toInt =
    (batteryWord o .criticalLevel : ℤ) - (batteryWord o .designCapacity / 100 : ℕ)

/-- **The checks are right**: they come to their end, the difference does not wrap, and the
requests are right. -/
def BatteryAlarms (critBatLevel : UInt16) (ecliteSxState : PmResetType) (o : ℕ → UInt8) : Prop :=
  Unwrapped o ∧ ∃ requests, batteryChecks critBatLevel ecliteSxState o = some requests ∧
    RightRequests critBatLevel ecliteSxState o requests

/-- **The contents are sound**: there is a divisor; the percentage, where it decides, fits into
sixteen bits, or what is left of it is still large enough; and the full charge capacity and the
remaining one lie on the same side of the threshold. -/
structure BatterySound (critBatLevel : UInt16) (ecliteSxState : PmResetType)
    (o : ℕ → UInt8) : Prop where
  divisor : batteryWord o .fullChargeCapacity ≠ 0
  percent : Discharging o → ecliteSxState = .s3 →
    2 ^ 16 ≤ 100 * batteryWord o .remainingCapacity / batteryWord o .fullChargeCapacity →
    critBatLevel.toNat ≤
      100 * batteryWord o .remainingCapacity / batteryWord o .fullChargeCapacity % 2 ^ 16
  sameSide : BelowCritical o (batteryWord o .fullChargeCapacity) ↔
    BelowCritical o (batteryWord o .remainingCapacity)

variable {critBatLevel : UInt16} {ecliteSxState : PmResetType} {o : ℕ → UInt8}
variable {requests : List PowerStateChange}

/-! ### The first check -/

/-- The quotient that is kept in sixteen bits is below the level exactly when the number is, unless
it loses its upper half and comes out too small. -/
theorem percent_lt_iff {percent : ℕ} {level : UInt16} :
    (percent % 2 ^ 16 < level.toNat ↔ percent < level.toNat) ↔
      (2 ^ 16 ≤ percent → level.toNat ≤ percent % 2 ^ 16) := by
  have hlevel : level.toNat < 2 ^ 16 := level.toNat_lt
  rcases Nat.lt_or_ge percent (2 ^ 16) with hlt | hge
  · rw [Nat.mod_eq_of_lt hlt]
    exact iff_of_true Iff.rfl fun hge => absurd hlt (Nat.not_lt.2 hge)
  · have hnot : ¬ percent < level.toNat := by omega
    rw [iff_false_right hnot, Nat.not_lt]
    exact ⟨fun h _ => h, fun h => h hge⟩

/-- The checks end if there is a divisor. -/
theorem batteryChecks_eq_none_iff : batteryChecks critBatLevel ecliteSxState o = none ↔
    batteryWord o .fullChargeCapacity = 0 := by
  unfold batteryChecks handleLowBatteryWake remCapacityPercent
  rw [Option.map_eq_none_iff, Option.map_eq_none_iff]
  simp only
  split
  · next hz => exact iff_of_true rfl hz
  · next hne => exact iff_of_false (Option.some_ne_none _) hne

theorem wakeup_not_mem_shutdown : PowerStateChange.wakeup ∉ handleCritBatteryShutdown o := by
  unfold handleCritBatteryShutdown
  simp only
  split
  · split
    · decide
    · exact List.not_mem_nil
  · exact List.not_mem_nil

/-- **The wake that is asked for.** -/
theorem lowBatteryWake_iff (h : batteryChecks critBatLevel ecliteSxState o = some requests) :
    .wakeup ∈ requests ↔ (Discharging o ∧ ecliteSxState = .s3) ∧
      100 * batteryWord o .remainingCapacity / batteryWord o .fullChargeCapacity % 2 ^ 16 <
        critBatLevel.toNat := by
  have hne : batteryWord o .fullChargeCapacity ≠ 0 := by
    intro hz
    rw [batteryChecks_eq_none_iff.2 hz] at h
    cases h
  rw [batteryChecks, handleLowBatteryWake, remCapacityPercent, if_neg hne, Option.map_some,
    Option.map_some] at h
  obtain rfl := Option.some.inj h
  rw [List.mem_append, or_iff_left wakeup_not_mem_shutdown, maxPercentage,
    Nat.mul_comm _ 100, and_assoc, and_comm (a := ecliteSxState = .s3)]
  split
  · next hc => exact iff_of_true (List.mem_singleton_self _) hc
  · next hc => exact iff_of_false List.not_mem_nil hc

/-! ### The second check -/

/-- **The difference does not wrap.** -/
theorem unwrapped (o : ℕ → UInt8) : Unwrapped o := by
  have hlevel := batteryWord_lt o .criticalLevel
  have hdesign := batteryWord_lt o .designCapacity
  have hdelta : batteryWord o .designCapacity / maxPercentage < 2 ^ 31 := by
    unfold maxPercentage
    omega
  rw [Unwrapped, critMargin, Int32.toInt_sub, Int32.toInt_ofNat_of_lt (by omega),
    Int32.toInt_ofNat_of_lt hdelta, maxPercentage]
  exact Int.bmod_eq_of_le (by omega) (by omega)

/-- The comparison of the second check. -/
theorem lt_critMargin_iff {capacity : ℕ} (h : capacity < 2 ^ 16) :
    Int32.ofNat capacity < critMargin o ↔ BelowCritical o capacity := by
  have hmargin : (critMargin o).toInt = _ := unwrapped o
  rw [Int32.lt_iff_toInt_lt, hmargin, Int32.toInt_ofNat_of_lt (by omega), BelowCritical]
  omega

/-- **The shutdown that is asked for**: it looks at the full charge capacity. -/
theorem critBatteryShutdown_iff : .shutdown ∈ handleCritBatteryShutdown o ↔
    BelowCritical o (batteryWord o .fullChargeCapacity) := by
  have hcap := batteryWord_lt o .fullChargeCapacity
  rw [← lt_critMargin_iff hcap]
  unfold handleCritBatteryShutdown
  simp only
  split
  · split
    · next hlt => exact iff_of_true (List.mem_singleton_self _) hlt
    · next hge => exact iff_of_false List.not_mem_nil hge
  · next hge =>
      refine iff_of_false List.not_mem_nil fun hlt => ?_
      have hbelow := (lt_critMargin_iff hcap).1 hlt
      unfold BelowCritical at hbelow
      omega

theorem shutdown_mem_iff (h : batteryChecks critBatLevel ecliteSxState o = some requests) :
    .shutdown ∈ requests ↔ BelowCritical o (batteryWord o .fullChargeCapacity) := by
  obtain ⟨woken, hwoken, rfl⟩ := Option.map_eq_some_iff.1 h
  obtain ⟨percent, -, rfl⟩ := Option.map_eq_some_iff.1 hwoken
  rw [List.mem_append, critBatteryShutdown_iff]
  refine or_iff_right ?_
  split
  · decide
  · exact List.not_mem_nil

/-! ### The contents that are sound -/

/-- The percentage is below the level exactly when the product is. -/
theorem percent_lt_iff_mul {remaining capacity level : ℕ} (h : capacity ≠ 0) :
    100 * remaining / capacity < level ↔ 100 * remaining < level * capacity :=
  Nat.div_lt_iff_lt_mul (Nat.pos_of_ne_zero h)

/-- The requests are right for contents with a divisor if and only if the rest is sound. -/
theorem rightRequests_iff (h : batteryChecks critBatLevel ecliteSxState o = some requests)
    (hne : batteryWord o .fullChargeCapacity ≠ 0) :
    RightRequests critBatLevel ecliteSxState o requests ↔
      BatterySound critBatLevel ecliteSxState o := by
  constructor
  · intro hr
    have hw := hr.wakeup
    rw [lowBatteryWake_iff h, ← percent_lt_iff_mul hne, and_congr_right_iff] at hw
    have hs := hr.shutdown
    rw [shutdown_mem_iff h] at hs
    exact ⟨hne, fun hd hsx => percent_lt_iff.1 (hw ⟨hd, hsx⟩), hs⟩
  · intro hb
    constructor
    · rw [lowBatteryWake_iff h, ← percent_lt_iff_mul hne, and_congr_right_iff]
      exact fun hc => percent_lt_iff.2 (hb.percent hc.1 hc.2)
    · rw [shutdown_mem_iff h]
      exact hb.sameSide

/-- **The checks are right if and only if the contents are sound.** -/
theorem batteryAlarms_iff (critBatLevel : UInt16) (ecliteSxState : PmResetType) (o : ℕ → UInt8) :
    BatteryAlarms critBatLevel ecliteSxState o ↔
      BatterySound critBatLevel ecliteSxState o := by
  constructor
  · rintro ⟨-, requests, hchecks, hright⟩
    have hne : batteryWord o .fullChargeCapacity ≠ 0 := by
      intro hz
      rw [batteryChecks_eq_none_iff.2 hz] at hchecks
      cases hchecks
    exact (rightRequests_iff hchecks hne).1 hright
  · intro hb
    obtain ⟨requests, hchecks⟩ : ∃ requests,
        batteryChecks critBatLevel ecliteSxState o = some requests :=
      Option.ne_none_iff_exists'.1 fun hnone => hb.divisor (batteryChecks_eq_none_iff.1 hnone)
    exact ⟨unwrapped o, requests, hchecks, (rightRequests_iff hchecks hb.divisor).2 hb⟩

/-- A region in which nothing has been written: the first check divides by zero. -/
theorem not_batteryAlarms_zero : ¬ ∀ (critBatLevel : UInt16) (ecliteSxState : PmResetType)
    (o : ℕ → UInt8), BatteryAlarms critBatLevel ecliteSxState o := by
  intro h
  obtain ⟨-, requests, hchecks, -⟩ := h 10 .s0 fun _ => 0
  rw [batteryChecks_eq_none_iff.2 (by decide)] at hchecks
  cases hchecks

/-! ### The event -/

/-- What a read of a word over I2C stores: the bytes that came, fewer than two if it fails. -/
structure WordRead where
  bytes : List UInt8
  length_le : bytes.length ≤ 2

/-- `eclite_i2c_read_word`, into a member of the region. -/
def ecliteI2cReadWord (f : OpField) (r : WordRead) (o : ℕ → UInt8) : ℕ → UInt8 :=
  write o f.offset r.bytes

/-- `bq40z40_at_rate`: a negative rate is turned into a positive one, the smallest one excepted. -/
def bq40z40AtRate (r : WordRead) (o : ℕ → UInt8) : ℕ → UInt8 :=
  let o := ecliteI2cReadWord .presetRate r o
  let rate := batteryWord o .presetRate
  if 2 ^ 15 ≤ rate then setWord .presetRate (2 ^ 16 - rate) o else o

/-- What the gauge answers, word by word. -/
structure GaugeReads where
  voltage : WordRead
  atRate : WordRead
  remainingCapacity : WordRead
  designCapacity : WordRead
  fullChargeCapacity : WordRead
  designVoltage : WordRead
  cycleCount : WordRead

/-- The discharge rate, of a rate that is still negative. -/
def updateDischargeRate (o : ℕ → UInt8) : ℕ → UInt8 :=
  if 2 ^ 15 ≤ batteryWord o .presetRate then
    setWord .dischargeRate (batteryWord o .presetRate) o
  else o

/-- The words of the gauge, in the order in which `update_battery_region` asks for them; that a read
failed is only logged. -/
def updateGaugeWords (g : GaugeReads) (o : ℕ → UInt8) : ℕ → UInt8 :=
  let o := ecliteI2cReadWord .batteryVoltage g.voltage o
  let o := bq40z40AtRate g.atRate o
  let o := ecliteI2cReadWord .remainingCapacity g.remainingCapacity o
  let o := ecliteI2cReadWord .designCapacity g.designCapacity o
  let o := ecliteI2cReadWord .fullChargeCapacity g.fullChargeCapacity o
  let o := ecliteI2cReadWord .designVoltage g.designVoltage o
  let o := ecliteI2cReadWord .cycleCount g.cycleCount o
  updateDischargeRate o

/-- `update_charger_region`. -/
def updateChargerRegion (chargerDev : Bool) (acPresent : BitVec 32) (o : ℕ → UInt8) :
    ℕ → UInt8 :=
  if chargerDev = false then o else setWord .psrc (acPresent &&& 1).toNat o

/-- `update_battery_region`. -/
def updateBatteryRegion (chargerDev sbsDev : Bool) (chargeringStatus : BitVec 8) (g : GaugeReads)
    (o : ℕ → UInt8) : ℕ → UInt8 :=
  if chargerDev = false then o
  else if sbsDev = false then o
  else updateGaugeWords g (setWord .state chargeringStatus.toNat o)

/-- `update_opregion`, with `DEV_CHG` or `DEV_FG`. -/
def updateOpregionChg (r : ChargerReadings) (g : GaugeReads) (s : ChargingManager)
    (o : ℕ → UInt8) : ℕ → UInt8 :=
  updateBatteryRegion r.chargerDev r.sbsDev s.chargeringStatus g
    (updateChargerRegion r.chargerDev s.acPresent o)

/-- An event of the charger or of the gauge, with what is found outside. -/
structure ChargerEvent where
  event : BitVec 8
  readings : ChargerReadings
  gauge : GaugeReads

/-- The variables and the region behind the callback, when the checks look at them. -/
def beforeChecks (e : ChargerEvent) (s : ChargingManager) (o : ℕ → UInt8) :
    ChargingManager × (ℕ → UInt8) :=
  let s := (chargingManagerCallback e.event e.readings 0 s).2.2
  (s, updateOpregionChg e.readings e.gauge s o)

/-- The words `update_opregion` writes to. -/
def gaugeFields : List OpField :=
  [.batteryVoltage, .presetRate, .remainingCapacity, .designCapacity, .fullChargeCapacity,
    .designVoltage, .cycleCount, .dischargeRate]

theorem batteryWord_ecliteI2cReadWord {f g : OpField} (r : WordRead) (o : ℕ → UInt8) (hne : f ≠ g)
    (hf : 2 ≤ f.size) (hg : 2 ≤ g.size) :
    batteryWord (ecliteI2cReadWord g r o) f = batteryWord o f :=
  batteryWord_write o hne hf (r.length_le.trans hg)

theorem batteryWord_setWord_of_ne {f g : OpField} (n : ℕ) (o : ℕ → UInt8) (hne : f ≠ g)
    (hf : 2 ≤ f.size) (hg : 2 ≤ g.size) : batteryWord (setWord g n o) f = batteryWord o f :=
  batteryWord_write o hne hf (by rwa [length_leBytes])

theorem batteryWord_bq40z40AtRate {f : OpField} (r : WordRead) (o : ℕ → UInt8)
    (hne : f ≠ .presetRate) (hf : 2 ≤ f.size) :
    batteryWord (bq40z40AtRate r o) f = batteryWord o f := by
  unfold bq40z40AtRate
  simp only
  split
  · rw [batteryWord_setWord_of_ne _ _ hne hf (by decide),
      batteryWord_ecliteI2cReadWord r o hne hf (by decide)]
  · exact batteryWord_ecliteI2cReadWord r o hne hf (by decide)

theorem batteryWord_updateDischargeRate {f : OpField} (o : ℕ → UInt8)
    (hne : f ≠ .dischargeRate) (hf : 2 ≤ f.size) :
    batteryWord (updateDischargeRate o) f = batteryWord o f := by
  unfold updateDischargeRate
  split
  · exact batteryWord_setWord_of_ne _ _ hne hf (by decide)
  · rfl

/-- **The other words stay**, whatever the gauge answers. -/
theorem batteryWord_updateGaugeWords {f : OpField} (g : GaugeReads) (o : ℕ → UInt8)
    (h : f ∉ gaugeFields) (hf : 2 ≤ f.size) :
    batteryWord (updateGaugeWords g o) f = batteryWord o f := by
  have hne : ∀ e ∈ gaugeFields, f ≠ e := fun e he heq => h (heq ▸ he)
  have hread : ∀ (e : OpField) (r : WordRead) (o : ℕ → UInt8), e ∈ gaugeFields →
      batteryWord (ecliteI2cReadWord e r o) f = batteryWord o f := by
    intro e r o he
    have hsize : ∀ e ∈ gaugeFields, 2 ≤ e.size := by decide
    exact batteryWord_ecliteI2cReadWord r o (hne e he) hf (hsize e he)
  rw [updateGaugeWords, batteryWord_updateDischargeRate _ (hne _ (by decide)) hf,
    hread _ _ _ (by decide), hread _ _ _ (by decide), hread _ _ _ (by decide),
    hread _ _ _ (by decide), hread _ _ _ (by decide),
    batteryWord_bq40z40AtRate _ _ (hne _ (by decide)) hf, hread _ _ _ (by decide)]

/-- The critical level is not among the words the gauge is asked for. -/
theorem criticalLevel_updateOpregionChg (r : ChargerReadings) (g : GaugeReads)
    (s : ChargingManager) (o : ℕ → UInt8) :
    batteryWord (updateOpregionChg r g s o) .criticalLevel = batteryWord o .criticalLevel := by
  have hcharger : batteryWord (updateChargerRegion r.chargerDev s.acPresent o) .criticalLevel =
      batteryWord o .criticalLevel := by
    unfold updateChargerRegion
    split
    · rfl
    · exact batteryWord_setWord_of_ne _ _ (by decide) (by decide) (by decide)
  rw [← hcharger]
  unfold updateOpregionChg updateBatteryRegion
  split
  · rfl
  · split
    · rfl
    · rw [batteryWord_updateGaugeWords _ _ (by decide) (by decide)]
      exact batteryWord_setWord_of_ne _ _ (by decide) (by decide) (by decide)

/-- **The first check sees the status the charging manager has found**, when both devices are
there. -/
theorem discharging_beforeChecks {e : ChargerEvent} {s : ChargingManager}
    (hcharger : e.readings.chargerDev = true) (hsbs : e.readings.sbsDev = true) :
    Discharging (beforeChecks e s o).2 ↔
      IsDischarging (beforeChecks e s o).1.chargeringStatus := by
  have hstate : batteryWord (beforeChecks e s o).2 .state =
      (beforeChecks e s o).1.chargeringStatus.toNat := by
    rw [beforeChecks]
    simp only
    rw [updateOpregionChg, updateBatteryRegion, if_neg (by rw [hcharger]; decide),
      if_neg (by rw [hsbs]; decide), batteryWord_updateGaugeWords _ _ (by decide) (by decide)]
    exact batteryWord_setWord _ _ (lt_of_lt_of_le (BitVec.isLt _) (by decide))
  have hbit : ∀ status : BitVec 8, status.toNat.testBit 0 = true ↔ IsDischarging status := by
    decide +kernel
  rw [Discharging, hstate, hbit]

/-! ### Runs -/

/-- The region with its host, the charging manager, the state of sleep, and the requests made. -/
structure BatterySys where
  comm : HostComm
  cm : ChargingManager
  ecliteSxState : PmResetType
  requests : List PowerStateChange

/-- What happens: the host sends a message, the charger has an event, the host goes to sleep. -/
inductive BatteryAct
  | message (heciSend : Bool) (m : Message)
  | charger (e : ChargerEvent)
  | reset (ecliteSxState : PmResetType)

/-- One step; there is none behind a division by zero. -/
def batteryStep (critBatLevel : UInt16) : BatteryAct → BatterySys → Option BatterySys
  | .message heciSend m, x => some { x with comm := receiveMessage heciSend m x.comm }
  | .charger e, x =>
      let (s, o) := beforeChecks e x.cm x.comm.opregion
      (batteryChecks critBatLevel x.ecliteSxState o).map fun requests =>
        { x with
          comm := { x.comm with opregion := o }
          cm := s
          requests := x.requests ++ requests }
  | .reset ecliteSxState, x => some { x with ecliteSxState := ecliteSxState }

/-- The start: nothing in `struct battery`, which ends before the first reserved words, and no
request. -/
structure BatteryInit (x : BatterySys) : Prop where
  opregion : ∀ i, i < OpField.reserved1.offset → x.comm.opregion i = 0
  requests : x.requests = []

/-- The critical level is zero, and no shutdown has been asked for. -/
structure NoShutdown (x : BatterySys) : Prop where
  criticalLevel : batteryWord x.comm.opregion .criticalLevel = 0
  requests : .shutdown ∉ x.requests

theorem not_inBlock_criticalLevel : ∀ i < 2, ¬ InBlock (OpField.criticalLevel.offset + i) := by
  unfold InBlock
  decide

theorem not_belowCritical {capacity : ℕ} (h : batteryWord o .criticalLevel = 0) :
    ¬ BelowCritical o capacity := by
  rw [BelowCritical, h]
  omega

theorem noShutdown_init {x : BatterySys} (h : BatteryInit x) : NoShutdown x := by
  refine ⟨?_, by rw [h.requests]; exact List.not_mem_nil⟩
  have hread : read x.comm.opregion OpField.criticalLevel.offset 2 =
      read (fun _ => 0) OpField.criticalLevel.offset 2 := by
    refine read_congr fun i _ hi => h.opregion i (hi.trans ?_)
    decide
  rw [batteryWord, hread]
  decide

theorem noShutdown_step (x : BatterySys) (l : BatteryAct) (x' : BatterySys) (h : NoShutdown x)
    (hs : batteryStep critBatLevel l x = some x') : NoShutdown x' := by
  cases l with
  | message heciSend m =>
      obtain rfl := Option.some.inj hs
      refine ⟨?_, h.requests⟩
      rw [← h.criticalLevel, batteryWord, batteryWord]
      refine congrArg ofLe (read_congr fun i hi hlt => ?_)
      obtain ⟨d, rfl⟩ := Nat.exists_eq_add_of_le hi
      exact receiveMessage_outside (not_inBlock_criticalLevel d (by omega))
  | charger e =>
      obtain ⟨requests, hchecks, rfl⟩ := Option.map_eq_some_iff.1 hs
      have hlevel : batteryWord (beforeChecks e x.cm x.comm.opregion).2 .criticalLevel = 0 :=
        (criticalLevel_updateOpregionChg _ _ _ _).trans h.criticalLevel
      refine ⟨hlevel, fun hmem => ?_⟩
      rcases List.mem_append.1 hmem with hold | hnew
      · exact h.requests hold
      · exact not_belowCritical hlevel ((shutdown_mem_iff hchecks).1 hnew)
  | reset ecliteSxState =>
      obtain rfl := Option.some.inj hs
      exact ⟨h.criticalLevel, h.requests⟩

/-- **No battery shuts the host down**: nobody writes the critical level. -/
theorem no_shutdown_request (critBatLevel : UInt16) {x : BatterySys}
    (h : Lts.Reach BatteryInit (batteryStep critBatLevel) Lts.Free x) :
    .shutdown ∉ x.requests :=
  (h.invariant (fun _ => noShutdown_init) fun x l x' hx _ => noShutdown_step x l x' hx).requests

end PseFw.Eclite
