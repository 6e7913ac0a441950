/-
**The charging manager.**

On every charger and fuel gauge event ECLite looks at the adapter pin and at the battery, tells the
charger to charge or not to charge, and writes down in `chargering_status` what the battery does.
The command and the status are given in different places: the branch for an adapter without a
battery only writes the status, the branch for neither of them does nothing at all, and a state of
charge that cannot be read counts as zero, so that the battery is charged.

Main definitions:

* `updateChagerStatus`, `chargerFlow`, `chargingManagerCallback` — the source's functions;
* `bq24610EnCharging`, `bq24610DisCharging` — what a command does to the pins;
* `ChargerSys`, `chargerStep` — runs of the callback, with the commands given so far;
* `ChargerOk` — what is wanted after every run of the callback;
* `ChargerDiscipline` — the runs that do not reach the gaps.

Main results:

* `chargingManagerCallback_cases` — everything a run of the callback can do to status and charger;
* `chargerOk_step_iff` — from a consistent state a run keeps the property exactly when it keeps the
  discipline;
* `chargerOk_of_disciplined` — **status and command agree in every disciplined run.**
-/

import Mathlib.Data.BitVec
import PseFw.Lib.Transition

set_option relaxedAutoImplicit false
set_option autoImplicit false

namespace PseFw.Eclite

/-! ### The status of the battery -/

/-- The bits of `chargering_status`, which are also the codes `update_chager_status` takes. -/
abbrev batteryDischarging : BitVec 8 := 1
abbrev batteryCharging : BitVec 8 := 2
abbrev batteryCritical : BitVec 8 := 4
abbrev batteryPresent : BitVec 8 := 8
abbrev acOnly : BitVec 8 := 16
abbrev batteryFull : BitVec 8 := 32

/-- `update_chager_status`, on `chargering_status`. -/
def updateChagerStatus (chargeStatus chargeringStatus : BitVec 8) : BitVec 8 :=
  if chargeStatus = batteryCharging then
    (chargeringStatus &&& ~~~batteryDischarging ||| batteryCharging ||| batteryPresent) &&&
      ~~~batteryCritical
  else if chargeStatus = batteryDischarging then
    (chargeringStatus &&& ~~~batteryCharging ||| batteryDischarging ||| batteryPresent) &&&
      ~~~batteryCritical
  else if chargeStatus = acOnly then
    chargeringStatus &&& ~~~batteryCharging &&& ~~~batteryDischarging &&& ~~~batteryPresent &&&
      ~~~batteryCritical
  else if chargeStatus = batteryFull then
    (chargeringStatus &&& ~~~batteryCharging &&& ~~~batteryDischarging ||| batteryPresent) &&&
      ~~~batteryCritical
  else
    chargeringStatus &&& ~~~batteryCharging &&& ~~~batteryDischarging &&& ~~~batteryPresent |||
      batteryCritical

/-- The status says that the battery is being charged. -/
def IsCharging (chargeringStatus : BitVec 8) : Prop := chargeringStatus &&& batteryCharging ≠ 0

/-- The status says that the battery is being discharged. -/
def IsDischarging (chargeringStatus : BitVec 8) : Prop :=
  chargeringStatus &&& batteryDischarging ≠ 0

instance (chargeringStatus : BitVec 8) : Decidable (IsCharging chargeringStatus) :=
  inferInstanceAs (Decidable (_ ≠ _))

instance (chargeringStatus : BitVec 8) : Decidable (IsDischarging chargeringStatus) :=
  inferInstanceAs (Decidable (_ ≠ _))

/-! ### The driver of the charger -/

/-- A command to the charger. -/
inductive ChargerCommand
  | enable
  | disable
  deriving DecidableEq, Repr

/-- The two GPIO devices the driver has: the one of the adapter pin and the one of the control
pin. -/
inductive ChargerGpio
  | gpioDev
  | gpioCntlr
  deriving DecidableEq, Repr

/-- A level that is put on the pin `CHARGER_GPIO_CE` of a device. -/
structure CeWrite where
  dev : ChargerGpio
  value : BitVec 32
  deriving DecidableEq, Repr

/-- `bq24610_en_charging`; `charging_status` is what the control pin reads. -/
def bq24610EnCharging (chargingStatus : BitVec 32) : List CeWrite :=
  if chargingStatus ≠ 0 then [] else [⟨.gpioDev, 1⟩]

/-- `bq24610_dis_charging`. -/
def bq24610DisCharging : List CeWrite := [⟨.gpioCntlr, 0⟩]

/-! ### The charging manager -/

/-- A word read over I2C: whether the read succeeded, and what the variable holds afterwards.  The
variables start with zero, so that is what a failing read that stores nothing leaves. -/
structure I2cRead where
  ok : Bool
  value : BitVec 16
  deriving DecidableEq, Repr

/-- What a run of the callback finds outside. -/
structure ChargerReadings where
  /-- `find_dev_by_type(DEV_CHG)` and `find_dev_by_type(DEV_FG)` find their device. -/
  chargerDev : Bool
  sbsDev : Bool
  /-- The voltage of the battery; a battery that does not answer is not there. -/
  voltage : I2cRead
  /-- `gpio_pin_get_raw` of the adapter pin: a level, or an error code. -/
  acPin : BitVec 32
  /-- The same pin once more, for the trigger of its interrupt. -/
  pinValue : BitVec 32
  /-- The results of `eclite_gpio_configure` and `gpio_pin_interrupt_configure`. -/
  gpioConfigure : Int
  interruptConfigure : Int
  alarm : I2cRead
  absoluteCharge : I2cRead
  /-- `gpio_pin_get_raw` of the control pin. -/
  ce : BitVec 32

/-- The variables the callback works on. -/
structure ChargingManager where
  chargerPresentOld : BitVec 8
  chargePercentage : BitVec 8
  chargeringStatus : BitVec 8
  acPresent : BitVec 32
  /-- The trigger in `gpio_config.intr_type`. -/
  intrTrigHigh : Bool
  intrTrigLow : Bool
  /-- The commands through `cm_enable_charging` and `cm_disable_charging`, the last one last. -/
  commands : List ChargerCommand
  ceWrites : List CeWrite
  /-- The calls of `battery_trip_point`. -/
  tripPoints : List (BitVec 16)

/-- `cm_enable_charging`. -/
def cmEnableCharging (r : ChargerReadings) (s : ChargingManager) : ChargingManager :=
  { s with
    commands := s.commands ++ [.enable]
    ceWrites := s.ceWrites ++ bq24610EnCharging r.ce }

/-- `cm_disable_charging`. -/
def cmDisableCharging (s : ChargingManager) : ChargingManager :=
  { s with
    commands := s.commands ++ [.disable]
    ceWrites := s.ceWrites ++ bq24610DisCharging }

/-- `update_chager_status`. -/
def ChargingManager.update (chargeStatus : BitVec 8) (s : ChargingManager) : ChargingManager :=
  { s with chargeringStatus := updateChagerStatus chargeStatus s.chargeringStatus }

abbrev socFullBatCap : BitVec 16 := 100
abbrev socBatMaintainceThrs : BitVec 16 := 95

/-- `charger_flow`. -/
def chargerFlow (r : ChargerReadings) (absoluteStateOfCharge : BitVec 16) (s : ChargingManager) :
    ChargingManager :=
  if s.acPresent ≠ 0 then
    if socFullBatCap ≤ absoluteStateOfCharge then
      (cmDisableCharging s).update batteryFull
    else if absoluteStateOfCharge < socBatMaintainceThrs ∧ IsCharging s.chargeringStatus then
      (cmEnableCharging r s).update batteryCharging
    else
      (cmEnableCharging r s).update batteryCharging
  else s

/-- `bq40z40_get_battery_status`: three bits of the alarm word, or'ed. -/
def getBatteryStatus (r : ChargerReadings) : Bool :=
  r.alarm.value.getLsbD 12 || r.alarm.value.getLsbD 14 || r.alarm.value.getLsbD 15

abbrev chgEvent : BitVec 8 := 3
abbrev fgEvent : BitVec 8 := 4

/-- The values of `power_device`. -/
abbrev chargerOnly : BitVec 8 := 1
abbrev batteryOnly : BitVec 8 := 2
abbrev chargerBattery : BitVec 8 := 3

/-- `ERROR`. -/
abbrev chargerError : Int := -1

/-- The bits `charging_manager_callback` sets in the word its caller sends to the host. -/
def chargerStatusBits (r : ChargerReadings) (s : ChargingManager) (status : BitVec 16) :
    BitVec 16 :=
  let status := status ||| r.acPin.setWidth 16
  let status := status ||| ((r.acPin ^^^ s.chargerPresentOld.setWidth 32) <<< 1).setWidth 16
  if r.absoluteCharge.value ≠ s.chargePercentage.setWidth 16 then status ||| 4
  else status &&& ~~~4

/-- The connected power sources: the second `switch` of `charging_manager_callback`. -/
def powerSources (r : ChargerReadings) (ret : Int) (s : ChargingManager) : Int × ChargingManager :=
  let powerDevice : BitVec 8 := (r.acPin ||| (if r.voltage.ok then 2 else 0)).setWidth 8
  if powerDevice = chargerOnly then (ret, s.update acOnly)
  else if powerDevice = batteryOnly then (ret, (cmDisableCharging s).update batteryDischarging)
  else if powerDevice = chargerBattery then (ret, chargerFlow r r.absoluteCharge.value s)
  else (chargerError, s)

/-- The critical errors, with which `charging_manager_callback` ends. -/
def criticalErrors (r : ChargerReadings) (ret : Int) (s : ChargingManager) :
    Int × ChargingManager :=
  if getBatteryStatus r && r.voltage.ok then
    (chargerError, (cmDisableCharging s).update batteryDischarging)
  else (ret, s)

/-- What `charging_manager_callback` takes down before it looks at the power sources. -/
def takeReadings (event : BitVec 8) (r : ChargerReadings) (s : ChargingManager) :
    ChargingManager :=
  { s with
    chargerPresentOld := r.acPin.setWidth 8
    chargePercentage :=
      if r.absoluteCharge.value ≠ s.chargePercentage.setWidth 16 then
        r.absoluteCharge.value.setWidth 8
      else s.chargePercentage
    tripPoints := if event = fgEvent then s.tripPoints ++ [0] else s.tripPoints }

/-- `charging_manager_callback` behind the set-up of the interrupt. -/
def manageCharging (event : BitVec 8) (r : ChargerReadings) (s : ChargingManager) :
    Int × ChargingManager :=
  let ret := if event = fgEvent ∨ event = chgEvent then 0 else chargerError
  let (ret, s) := powerSources r ret (takeReadings event r s)
  criticalErrors r ret s

/-- `charging_manager_callback`: the result, the word for the host, and the variables. -/
def chargingManagerCallback (event : BitVec 8) (r : ChargerReadings) (status : BitVec 16)
    (s : ChargingManager) : Int × BitVec 16 × ChargingManager :=
  if r.chargerDev = false then (chargerError, status, s)
  else if r.sbsDev = false then (chargerError, status, s)
  else
    let s := { s with acPresent := r.acPin }
    if r.voltage.ok = true then
      let s := { s with
        intrTrigHigh := decide (r.pinValue = 0)
        intrTrigLow := decide (r.pinValue ≠ 0) }
      if r.gpioConfigure ≠ 0 then (r.gpioConfigure, status, s)
      else if r.interruptConfigure ≠ 0 then (r.interruptConfigure, status, s)
      else
        let (ret, s') := manageCharging event r s
        (ret, chargerStatusBits r s status, s')
    else
      let (ret, s') := manageCharging event r s
      (ret, chargerStatusBits r s status, s')

/-! ### Runs -/

/-- The charging manager, with the readings of its last run and the commands of that run. -/
structure ChargerSys where
  cm : ChargingManager
  last : Option (ChargerReadings × List ChargerCommand)

/-- The last command the charger was given. -/
def ChargingManager.lastCommand (s : ChargingManager) : Option ChargerCommand :=
  s.commands.getLast?

/-- A run of the callback: the event, what it finds outside, and the word of the caller. -/
structure ChargerRun where
  event : BitVec 8
  readings : ChargerReadings
  status : BitVec 16

/-- One run of the callback. -/
def chargerStep (l : ChargerRun) (x : ChargerSys) : Option ChargerSys :=
  let s := (chargingManagerCallback l.event l.readings l.status x.cm).2.2
  some ⟨s, some (l.readings, s.commands.drop x.cm.commands.length)⟩

/-- The start: nothing in the status, no command given. -/
structure ChargerInit (x : ChargerSys) : Prop where
  chargeringStatus : x.cm.chargeringStatus = 0
  commands : x.cm.commands = []
  last : x.last = none

/-- **What is wanted after every run**: the battery is not said to be charged and discharged at
once, the last command is to charge exactly when the battery is said to be charged, charging is not
left on without a battery, and it is not turned on without a state of charge. -/
structure ChargerOk (x : ChargerSys) : Prop where
  exclusive : ¬ (IsCharging x.cm.chargeringStatus ∧ IsDischarging x.cm.chargeringStatus)
  agree : x.cm.lastCommand = some .enable ↔ IsCharging x.cm.chargeringStatus
  removed : ∀ r issued, x.last = some (r, issued) → r.voltage.ok = false →
    x.cm.lastCommand ≠ some .enable
  unread : ∀ r issued, x.last = some (r, issued) → r.absoluteCharge.ok = false →
    ChargerCommand.enable ∉ issued

/-- The low byte of the adapter pin, which is all `power_device` keeps of it. -/
def ChargerReadings.acByte (r : ChargerReadings) : BitVec 8 := r.acPin.setWidth 8

/-- The readings that lead to the branch that enables charging. -/
structure ChargerReadings.Enables (r : ChargerReadings) : Prop where
  chargerDev : r.chargerDev = true
  sbsDev : r.sbsDev = true
  gpio : r.voltage.ok = true → r.gpioConfigure = 0 ∧ r.interruptConfigure = 0
  ac : r.acByte = 3 ∨ r.voltage.ok = true ∧ r.acByte = 1
  charge : r.absoluteCharge.value < socFullBatCap

/-- The readings with which charging is disabled though no battery answers.  A pin that reads zero,
one or an error has none of these values. -/
structure ChargerReadings.OddPin (r : ChargerReadings) : Prop where
  chargerDev : r.chargerDev = true
  sbsDev : r.sbsDev = true
  ac : r.acByte = 2 ∨ r.acByte = 3 ∧ socFullBatCap ≤ r.absoluteCharge.value

/-- **The discipline**: no battery goes while the last command is to charge, and the branch that
enables charging is not reached without a battery or without a state of charge. -/
structure ChargerDiscipline (x : ChargerSys) (l : ChargerRun) : Prop where
  removed : l.readings.voltage.ok = false →
    ¬ l.readings.Enables ∧ (x.cm.lastCommand ≠ some .enable ∨ l.readings.OddPin)
  unread : l.readings.absoluteCharge.ok = false → ¬ l.readings.Enables

/-! ### What the status says after an update -/

theorem update_charging : ∀ st : BitVec 8,
    IsCharging (updateChagerStatus batteryCharging st) ∧
      ¬ IsDischarging (updateChagerStatus batteryCharging st) := by
  decide +kernel

theorem update_discharging : ∀ st : BitVec 8,
    ¬ IsCharging (updateChagerStatus batteryDischarging st) := by
  decide +kernel

theorem update_acOnly : ∀ st : BitVec 8, ¬ IsCharging (updateChagerStatus acOnly st) := by
  decide +kernel

theorem update_full : ∀ st : BitVec 8, ¬ IsCharging (updateChagerStatus batteryFull st) := by
  decide +kernel

/-! ### What a run of the callback can do -/

/-- The part of the variables the property is about has not changed. -/
structure ChargingManager.Same (s s' : ChargingManager) : Prop where
  commands : s'.commands = s.commands
  status : s'.chargeringStatus = s.chargeringStatus

/-- Only the status has changed, and it does not say that the battery is charged. -/
structure ChargingManager.Cleared (s s' : ChargingManager) : Prop where
  commands : s'.commands = s.commands
  status : ¬ IsCharging s'.chargeringStatus

/-- The charger was told not to charge, at the end and perhaps before; the status agrees. -/
structure ChargingManager.Disabled (s s' : ChargingManager) (issued : List ChargerCommand) :
    Prop where
  commands : s'.commands = s.commands ++ issued
  last : issued.getLast? = some .disable
  status : ¬ IsCharging s'.chargeringStatus

/-- The charger was told to charge; the status agrees. -/
structure ChargingManager.Enabled (s s' : ChargingManager) : Prop where
  commands : s'.commands = s.commands ++ [.enable]
  status : IsCharging s'.chargeringStatus ∧ ¬ IsDischarging s'.chargeringStatus

theorem chargerFlow_full {r : ChargerReadings} {soc : BitVec 16} {s : ChargingManager}
    (hac : s.acPresent ≠ 0) (hsoc : socFullBatCap ≤ soc) :
    s.Disabled (chargerFlow r soc s) [.disable] := by
  unfold chargerFlow
  rw [if_pos hac, if_pos hsoc]
  exact ⟨rfl, rfl, update_full _⟩

theorem chargerFlow_charge {r : ChargerReadings} {soc : BitVec 16} {s : ChargingManager}
    (hac : s.acPresent ≠ 0) (hsoc : ¬ socFullBatCap ≤ soc) :
    s.Enabled (chargerFlow r soc s) := by
  unfold chargerFlow
  rw [if_pos hac, if_neg hsoc, ite_self]
  exact ⟨rfl, update_charging _⟩

/-- `power_device` with a battery, in terms of the low byte of the pin. -/
theorem powerDevice_battery (r : ChargerReadings) :
    (r.acPin ||| 2).setWidth 8 = r.acByte ||| 2 :=
  BitVec.setWidth_or

theorem powerDevice_noBattery (r : ChargerReadings) : (r.acPin ||| 0).setWidth 8 = r.acByte := by
  unfold ChargerReadings.acByte
  simp

theorem acPin_ne_zero {r : ChargerReadings} (h : r.acByte ≠ 0) : r.acPin ≠ 0 := by
  intro h0
  apply h
  unfold ChargerReadings.acByte
  rw [h0]
  rfl

theorem or_two_eq : ∀ b : BitVec 8,
    b ||| 2 ≠ chargerOnly ∧ (b ||| 2 = batteryOnly → b ≠ 1 ∧ b ≠ 3) ∧
      (b ||| 2 = chargerBattery ↔ b = 1 ∨ b = 3) := by
  decide +kernel

/-- The readings with which `charger_flow` enables charging, once it is reached. -/
def ChargerReadings.Drives (r : ChargerReadings) : Prop :=
  (r.acByte = 3 ∨ r.voltage.ok = true ∧ r.acByte = 1) ∧ r.absoluteCharge.value < socFullBatCap

/-- With a battery the power sources leave everything as it is, or they give a command. -/
theorem powerSources_battery {r : ChargerReadings} (ret : Int) {s : ChargingManager}
    (hb : r.voltage.ok = true) (hac : s.acPresent = r.acPin) :
    ¬ r.Drives ∧ (s.Same (powerSources r ret s).2 ∨
        s.Disabled (powerSources r ret s).2 [.disable]) ∨
      r.Drives ∧ s.Enabled (powerSources r ret s).2 := by
  obtain ⟨hone, htwo, hthree⟩ := or_two_eq r.acByte
  unfold powerSources ChargerReadings.Drives
  simp only [hb, if_true, powerDevice_battery, true_and]
  rw [if_neg hone]
  split
  · next h =>
      obtain ⟨h1, h3⟩ := htwo h
      refine .inl ⟨fun hd => ?_, .inr ⟨rfl, rfl, update_discharging _⟩⟩
      rcases hd.1 with hd | hd
      · exact h3 hd
      · exact h1 hd
  · split
    · next h =>
        have hor := hthree.1 h
        have hne : s.acPresent ≠ 0 := by
          rw [hac]
          refine acPin_ne_zero ?_
          rcases hor with hor | hor
          · rw [hor]; decide
          · rw [hor]; decide
        by_cases hsoc : socFullBatCap ≤ r.absoluteCharge.value
        · exact .inl ⟨fun hd => absurd hd.2 (BitVec.not_lt.2 hsoc),
            .inr (chargerFlow_full hne hsoc)⟩
        · exact .inr ⟨⟨hor.symm, BitVec.not_le.1 hsoc⟩, chargerFlow_charge hne hsoc⟩
    · next h =>
        refine .inl ⟨fun hd => h (hthree.2 hd.1.symm), .inl ⟨rfl, rfl⟩⟩

/-- Without a battery the status may be cleared and no command given. -/
theorem powerSources_noBattery {r : ChargerReadings} (ret : Int) {s : ChargingManager}
    (hb : r.voltage.ok = false) (hac : s.acPresent = r.acPin) :
    (¬ r.Drives ∧ ¬ (r.acByte = 2 ∨ r.acByte = 3 ∧ socFullBatCap ≤ r.absoluteCharge.value) ∧
        (s.Same (powerSources r ret s).2 ∨ s.Cleared (powerSources r ret s).2)) ∨
      (¬ r.Drives ∧ (r.acByte = 2 ∨ r.acByte = 3 ∧ socFullBatCap ≤ r.absoluteCharge.value) ∧
        s.Disabled (powerSources r ret s).2 [.disable]) ∨
      r.Drives ∧ s.Enabled (powerSources r ret s).2 := by
  unfold powerSources ChargerReadings.Drives
  simp only [hb, Bool.false_eq_true, if_false, powerDevice_noBattery, false_and, or_false]
  split
  · next h =>
      rw [h]
      exact .inl ⟨by simp, by simp, .inr ⟨rfl, update_acOnly _⟩⟩
  · split
    · next h =>
        rw [h]
        exact .inr (.inl ⟨by simp, .inl rfl, rfl, rfl, update_discharging _⟩)
    · next h2 =>
        split
        · next h =>
            have hne : s.acPresent ≠ 0 := by
              rw [hac]
              refine acPin_ne_zero ?_
              rw [h]
              decide
            by_cases hsoc : socFullBatCap ≤ r.absoluteCharge.value
            · exact .inr (.inl ⟨fun hd => absurd hd.2 (BitVec.not_lt.2 hsoc), .inr ⟨h, hsoc⟩,
                chargerFlow_full hne hsoc⟩)
            · exact .inr (.inr ⟨⟨h, BitVec.not_le.1 hsoc⟩, chargerFlow_charge hne hsoc⟩)
        · next h3 =>
            refine .inl ⟨fun hd => h3 hd.1, fun hd => ?_, .inl ⟨rfl, rfl⟩⟩
            rcases hd with hd | hd
            · exact h2 hd
            · exact h3 hd.1

/-- **Everything a run of the callback can do** to the charger and to the status. -/
inductive ChargerEffect (r : ChargerReadings) (s s' : ChargingManager) : Prop
  | same : ¬ r.Enables → ¬ (r.voltage.ok = false ∧ r.OddPin) → s.Same s' → ChargerEffect r s s'
  | cleared : ¬ r.Enables → r.voltage.ok = false → ¬ r.OddPin → s.Cleared s' →
      ChargerEffect r s s'
  | disabled {issued : List ChargerCommand} : ¬ r.Enables → (r.voltage.ok = false → r.OddPin) →
      ChargerCommand.enable ∉ issued → s.Disabled s' issued → ChargerEffect r s s'
  | enabled : r.Enables → s.Enabled s' → ChargerEffect r s s'
  | alarmed : r.Enables → r.voltage.ok = true → s.Disabled s' [.enable, .disable] →
      ChargerEffect r s s'

/-- The effect depends on the commands and the status of the first state only. -/
theorem ChargerEffect.congr {r : ChargerReadings} {s₁ s s' : ChargingManager}
    (h : ChargerEffect r s₁ s') (hc : s₁.commands = s.commands)
    (hs : s₁.chargeringStatus = s.chargeringStatus) : ChargerEffect r s s' := by
  cases h with
  | same he ho h => exact .same he ho ⟨h.commands.trans hc, h.status.trans hs⟩
  | cleared he hb ho h => exact .cleared he hb ho ⟨h.commands.trans hc, h.status⟩
  | disabled he ho hi h => exact .disabled he ho hi ⟨hc ▸ h.commands, h.last, h.status⟩
  | enabled he h => exact .enabled he ⟨hc ▸ h.commands, h.status⟩
  | alarmed he hb h => exact .alarmed he hb ⟨hc ▸ h.commands, h.last, h.status⟩

/-- The alarms of the battery. -/
theorem criticalErrors_cases (r : ChargerReadings) (ret : Int) (s : ChargingManager) :
    (criticalErrors r ret s).2 = s ∨
      r.voltage.ok = true ∧ s.Disabled (criticalErrors r ret s).2 [.disable] := by
  unfold criticalErrors
  split
  · next h =>
      rw [Bool.and_eq_true] at h
      exact .inr ⟨h.2, rfl, rfl, update_discharging _⟩
  · exact .inl rfl

/-- The power sources and the alarms, in a run that gets so far. -/
theorem criticalErrors_effect {r : ChargerReadings} (ret : Int) {s : ChargingManager}
    (hchg : r.chargerDev = true) (hsbs : r.sbsDev = true)
    (hgpio : r.voltage.ok = true → r.gpioConfigure = 0 ∧ r.interruptConfigure = 0)
    (hac : s.acPresent = r.acPin) :
    ChargerEffect r s (criticalErrors r (powerSources r ret s).1 (powerSources r ret s).2).2 := by
  have hdrives : r.Enables ↔ r.Drives :=
    ⟨fun h => ⟨h.ac, h.charge⟩, fun h => ⟨hchg, hsbs, hgpio, h.1, h.2⟩⟩
  have hodd : r.OddPin ↔
      (r.acByte = 2 ∨ r.acByte = 3 ∧ socFullBatCap ≤ r.absoluteCharge.value) :=
    ⟨ChargerReadings.OddPin.ac, fun h => ⟨hchg, hsbs, h⟩⟩
  cases hb : r.voltage.ok with
  | true =>
      -- with a battery an alarm adds a command to whatever the power sources did
      have hob : r.voltage.ok = false → r.OddPin := fun h => by
        rw [hb] at h
        cases h
      rcases criticalErrors_cases r (powerSources r ret s).1 (powerSources r ret s).2 with
        heq | ⟨-, hdis⟩
      · rw [heq]
        rcases powerSources_battery ret hb hac with ⟨hn, hsame | hdis⟩ | ⟨hd, hen⟩
        · exact .same (mt hdrives.1 hn) (fun h => by rw [hb] at h; cases h.1) hsame
        · exact .disabled (mt hdrives.1 hn) hob (by decide) hdis
        · exact .enabled (hdrives.2 hd) hen
      · rcases powerSources_battery ret hb hac with ⟨hn, hsame | hdis₁⟩ | ⟨hd, hen⟩
        · refine .disabled (mt hdrives.1 hn) hob (by decide) ⟨?_, hdis.last, hdis.status⟩
          rw [hdis.commands, hsame.commands]
        · have htwo : s.Disabled (criticalErrors r (powerSources r ret s).1
              (powerSources r ret s).2).2 [.disable, .disable] := by
            refine ⟨?_, rfl, hdis.status⟩
            rw [hdis.commands, hdis₁.commands, List.append_assoc]
            rfl
          exact .disabled (mt hdrives.1 hn) hob (by decide) htwo
        · refine .alarmed (hdrives.2 hd) hb ⟨?_, rfl, hdis.status⟩
          rw [hdis.commands, hen.commands, List.append_assoc]
          rfl
  | false =>
      rcases criticalErrors_cases r (powerSources r ret s).1 (powerSources r ret s).2 with
        heq | ⟨hb', -⟩
      · rw [heq]
        rcases powerSources_noBattery ret hb hac with
          ⟨hn, ho, hsame | hcl⟩ | ⟨hn, ho, hdis⟩ | ⟨hd, hen⟩
        · exact .same (mt hdrives.1 hn) (fun h => ho (hodd.1 h.2)) hsame
        · exact .cleared (mt hdrives.1 hn) hb (mt hodd.1 ho) hcl
        · exact .disabled (mt hdrives.1 hn) (fun _ => hodd.2 ho) (by decide) hdis
        · exact .enabled (hdrives.2 hd) hen
      · rw [hb] at hb'
        cases hb'

theorem manageCharging_effect (event : BitVec 8) {r : ChargerReadings} {s : ChargingManager}
    (hchg : r.chargerDev = true) (hsbs : r.sbsDev = true)
    (hgpio : r.voltage.ok = true → r.gpioConfigure = 0 ∧ r.interruptConfigure = 0)
    (hac : s.acPresent = r.acPin) : ChargerEffect r s (manageCharging event r s).2 := by
  have h := criticalErrors_effect (s := takeReadings event r s)
    (if event = fgEvent ∨ event = chgEvent then 0 else chargerError) hchg hsbs hgpio hac
  exact h.congr rfl rfl

/-- **The callback does one of the five things.** -/
theorem chargingManagerCallback_cases (event : BitVec 8) (r : ChargerReadings)
    (status : BitVec 16) (s : ChargingManager) :
    ChargerEffect r s (chargingManagerCallback event r status s).2.2 := by
  unfold chargingManagerCallback
  split
  · next h =>
      refine .same (fun he => ?_) (fun ho => ?_) ⟨rfl, rfl⟩
      · rw [he.chargerDev] at h; cases h
      · rw [ho.2.chargerDev] at h; cases h
  · next hchg =>
      split
      · next h =>
          refine .same (fun he => ?_) (fun ho => ?_) ⟨rfl, rfl⟩
          · rw [he.sbsDev] at h; cases h
          · rw [ho.2.sbsDev] at h; cases h
      · next hsbs =>
          rw [Bool.not_eq_false] at hchg hsbs
          simp only
          split
          · next hb =>
              have hnb : ¬ (r.voltage.ok = false ∧ r.OddPin) := fun h => by
                rw [hb] at h
                cases h.1
              split
              · next hg => exact .same (fun he => hg (he.gpio hb).1) hnb ⟨rfl, rfl⟩
              · next hg =>
                  split
                  · next hi => exact .same (fun he => hi (he.gpio hb).2) hnb ⟨rfl, rfl⟩
                  · next hi =>
                      have h := manageCharging_effect event
                        (s := { s with
                          acPresent := r.acPin
                          intrTrigHigh := decide (r.pinValue = 0)
                          intrTrigLow := decide (r.pinValue ≠ 0) })
                        hchg hsbs (fun _ => ⟨not_not.1 hg, not_not.1 hi⟩) rfl
                      exact h.congr rfl rfl
          · next hb =>
              have h := manageCharging_effect event (s := { s with acPresent := r.acPin })
                hchg hsbs (fun h => absurd h hb) rfl
              exact h.congr rfl rfl

/-! ### Status and command agree -/

theorem lastCommand_append (s : ChargingManager) {s' : ChargingManager}
    {issued : List ChargerCommand} {c : ChargerCommand} (h : s'.commands = s.commands ++ issued)
    (hl : issued.getLast? = some c) : s'.lastCommand = some c := by
  unfold ChargingManager.lastCommand
  rw [h, List.getLast?_append, hl]
  rfl

/-- The property after a run, about that run. -/
theorem chargerOk_mk {s : ChargingManager} {r : ChargerReadings} {issued : List ChargerCommand}
    (hex : ¬ (IsCharging s.chargeringStatus ∧ IsDischarging s.chargeringStatus)) :
    ChargerOk ⟨s, some (r, issued)⟩ ↔
      (s.lastCommand = some .enable ↔ IsCharging s.chargeringStatus) ∧
        (r.voltage.ok = false → s.lastCommand ≠ some .enable) ∧
        (r.absoluteCharge.ok = false → ChargerCommand.enable ∉ issued) := by
  constructor
  · intro h
    exact ⟨h.agree, h.removed r issued rfl, h.unread r issued rfl⟩
  · rintro ⟨hagree, hrem, hunread⟩
    refine ⟨hex, hagree, ?_, ?_⟩
    · intro r' issued' h
      cases h
      exact hrem
    · intro r' issued' h
      cases h
      exact hunread

/-- A run that ends with the charger told not to charge. -/
theorem ChargingManager.Disabled.ok_iff {s s' : ChargingManager} {r : ChargerReadings}
    {issued : List ChargerCommand} (h : s.Disabled s' issued) :
    ChargerOk ⟨s', some (r, issued)⟩ ↔
      (r.absoluteCharge.ok = false → ChargerCommand.enable ∉ issued) := by
  have hlast : s'.lastCommand ≠ some .enable := by
    rw [lastCommand_append s h.commands h.last]
    decide
  rw [chargerOk_mk (fun hc => h.status hc.1)]
  exact ⟨fun hok => hok.2.2,
    fun hu => ⟨⟨fun hl => absurd hl hlast, fun hc => absurd hc h.status⟩, fun _ => hlast, hu⟩⟩

/-- **From a consistent state a run of the callback keeps the property exactly when it keeps the
discipline.** -/
theorem chargerOk_step_iff {x x' : ChargerSys} {l : ChargerRun} (h : ChargerOk x)
    (hstep : chargerStep l x = some x') : ChargerOk x' ↔ ChargerDiscipline x l := by
  obtain ⟨hex, hagree, -, -⟩ := h
  obtain rfl : x' = ⟨(chargingManagerCallback l.event l.readings l.status x.cm).2.2, _⟩ :=
    (Option.some.inj hstep).symm
  have heff := chargingManagerCallback_cases l.event l.readings l.status x.cm
  generalize (chargingManagerCallback l.event l.readings l.status x.cm).2.2 = s' at heff
  have hdrop : ∀ issued, s'.commands = x.cm.commands ++ issued →
      s'.commands.drop x.cm.commands.length = issued := fun issued h => by
    rw [h, List.drop_left]
  cases heff with
  | same he ho h =>
      have hlast : s'.lastCommand = x.cm.lastCommand := congrArg List.getLast? h.commands
      rw [hdrop [] (by rw [h.commands, List.append_nil]),
        chargerOk_mk (by rw [h.status]; exact hex),
        h.status, hlast]
      constructor
      · rintro ⟨-, hrem, -⟩
        exact ⟨fun hb => ⟨he, .inl (hrem hb)⟩, fun _ => he⟩
      · rintro ⟨hrem, -⟩
        refine ⟨hagree, fun hb => ?_, fun _ => List.not_mem_nil⟩
        rcases (hrem hb).2 with hl | hodd
        · exact hl
        · exact absurd ⟨hb, hodd⟩ ho
  | cleared he hb ho h =>
      have hlast : s'.lastCommand = x.cm.lastCommand := congrArg List.getLast? h.commands
      rw [hdrop [] (by rw [h.commands, List.append_nil]), chargerOk_mk (fun hc => h.status hc.1),
        hlast]
      constructor
      · rintro ⟨-, hrem, -⟩
        exact ⟨fun _ => ⟨he, .inl (hrem hb)⟩, fun _ => he⟩
      · rintro ⟨hrem, -⟩
        have hl : x.cm.lastCommand ≠ some .enable := (hrem hb).2.resolve_right ho
        exact ⟨⟨fun h' => absurd h' hl, fun hc => absurd hc h.status⟩, fun _ => hl,
          fun _ => List.not_mem_nil⟩
  | disabled he ho hi h =>
      rw [hdrop _ h.commands, h.ok_iff]
      exact ⟨fun _ => ⟨fun hb => ⟨he, .inr (ho hb)⟩, fun _ => he⟩, fun _ _ => hi⟩
  | enabled he h =>
      have hlast : s'.lastCommand = some .enable := lastCommand_append x.cm h.commands rfl
      rw [hdrop _ h.commands, chargerOk_mk (fun hc => h.status.2 hc.2), hlast]
      constructor
      · rintro ⟨-, hrem, hunread⟩
        exact ⟨fun hb => absurd rfl (hrem hb),
          fun hu => absurd (List.mem_singleton.2 rfl) (hunread hu)⟩
      · rintro ⟨hrem, hunread⟩
        exact ⟨⟨fun _ => h.status.1, fun _ => rfl⟩, fun hb => absurd he (hrem hb).1,
          fun hu => absurd he (hunread hu)⟩
  | alarmed he hb h =>
      rw [hdrop _ h.commands, h.ok_iff]
      constructor
      · intro hunread
        refine ⟨fun hb' => ?_, fun hu => absurd (by decide) (hunread hu)⟩
        rw [hb] at hb'
        cases hb'
      · rintro ⟨-, hunread⟩ hu
        exact absurd he (hunread hu)

theorem chargerOk_init {x : ChargerSys} (h : ChargerInit x) : ChargerOk x := by
  have hcharging : ¬ IsCharging x.cm.chargeringStatus := by
    rw [h.chargeringStatus]
    decide
  have hlast : x.cm.lastCommand ≠ some .enable := by
    unfold ChargingManager.lastCommand
    rw [h.commands]
    decide
  refine ⟨fun hc => hcharging hc.1, ⟨fun hl => absurd hl hlast, fun hc => absurd hc hcharging⟩,
    fun _ _ _ _ => hlast, fun r issued hr => ?_⟩
  rw [h.last] at hr
  cases hr

/-- **Status and command agree in every disciplined run**, and the first run of the callback that
leaves the discipline breaks the property. -/
theorem chargerOk_of_disciplined {x : ChargerSys}
    (h : Lts.Reach ChargerInit chargerStep ChargerDiscipline x) :
    ChargerOk x ∧
      ∀ l x', chargerStep l x = some x' → (ChargerOk x' ↔ ChargerDiscipline x l) := by
  have hok : ChargerOk x :=
    Lts.Reach.invariant (fun _ => chargerOk_init)
      (fun _ _ _ hx hd hstep => (chargerOk_step_iff hx hstep).2 hd) h
  exact ⟨hok, fun l x' hstep => chargerOk_step_iff hok hstep⟩

/-- The variables before the first run. -/
def chargerIdle : ChargerSys where
  cm := ⟨0, 0, 0, 0, false, false, [], [], []⟩
  last := none

theorem chargerInit_idle : ChargerInit chargerIdle := ⟨rfl, rfl, rfl⟩

/-- An adapter, and a battery at fifty percent. -/
def halfCharged : ChargerReadings where
  chargerDev := true
  sbsDev := true
  voltage := ⟨true, 12000⟩
  acPin := 1
  pinValue := 1
  gpioConfigure := 0
  interruptConfigure := 0
  alarm := ⟨true, 0⟩
  absoluteCharge := ⟨true, 50⟩
  ce := 0

/-- The adapter alone: nothing on the I2C bus answers. -/
def adapterAlone : ChargerReadings :=
  { halfCharged with
    voltage := ⟨false, 0⟩
    alarm := ⟨false, 0⟩
    absoluteCharge := ⟨false, 0⟩ }

/-- The state after one run with an adapter and a battery. -/
def chargingSys : ChargerSys :=
  (chargerStep ⟨fgEvent, halfCharged, 0⟩ chargerIdle).getD chargerIdle

/-- An adapter is plugged in, and the battery is charged. -/
theorem chargerOk_plugged_in :
    Lts.Reach ChargerInit chargerStep ChargerDiscipline chargingSys ∧ ChargerOk chargingSys ∧
      chargingSys.cm.lastCommand = some .enable := by
  have h : Lts.Reach ChargerInit chargerStep ChargerDiscipline chargingSys :=
    Lts.Reach.step (Lts.Reach.init chargerInit_idle) (l := ⟨fgEvent, halfCharged, 0⟩)
      ⟨fun hb => (by cases hb), fun hu => (by cases hu)⟩ rfl
  exact ⟨h, (chargerOk_of_disciplined h).1, rfl⟩

/-- The battery is taken out while it is charged, and the charger is left on. -/
theorem not_chargerOk_removed :
    ¬ ∀ x, Lts.Reach ChargerInit chargerStep Lts.Free x → ChargerOk x := by
  intro h
  obtain ⟨x, hx, hlast, hcharging⟩ : ∃ x, Lts.Reach ChargerInit chargerStep Lts.Free x ∧
      x.cm.lastCommand = some .enable ∧ ¬ IsCharging x.cm.chargeringStatus :=
    Lts.exists_reach chargerInit_idle [⟨fgEvent, halfCharged, 0⟩, ⟨chgEvent, adapterAlone, 0⟩] _
      (by decide +kernel)
  exact hcharging ((h x hx).agree.1 hlast)

end PseFw.Eclite
