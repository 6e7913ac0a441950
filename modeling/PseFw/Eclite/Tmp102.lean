/-
**The window of a temperature sensor.**

A sensor of type TMP102 compares its temperature with two registers and raises its line on its own.
The driver stores the thresholds of the host there, but not when the host writes them: a command
only changes what the framework knows, and the registers follow with the next interrupt of the
sensor.  A register holds a temperature in the upper byte, the word that is written has its bytes
the other way round, and the thresholds are words, so only the lower byte of one gets there.

Main definitions:

* `tmp102ConvertTemperature` — from a word of the bus to degrees, and back;
* `tmp102UpdateThreshold`, `tmp102Isr`, `tmp102Init` — the driver;
* `Tmp102Act`, `tmp102Step` — the host, the framework and the interrupts of the sensors;
* `Tmp102Limit` — a threshold: its register, its word in the region and its command.

Main results:

* `reading_eq`, `le_reading_iff` — a reading is rounded down, so it reaches a threshold exactly when
  the temperature of the sensor reaches its register;
* `thresholdOf_step`, `register_step` — what an act leaves of a threshold and of its register;
* `window_of_init` — the window after the start;
* `window_of_run` — **behind the next interrupt the register holds what the host has written**,
  whatever happens in between and afterwards, and the sensor compares as the driver would when the
  threshold fits into a byte.
-/

import PseFw.Eclite.ThermalSlots

set_option relaxedAutoImplicit false
set_option autoImplicit false

namespace PseFw.Eclite

/-! ### Temperatures on the bus -/

/-- `enum tmp102_temperature_format`. -/
inductive Tmp102TemperatureFormat
  | regFormat
  | readableFormat
  deriving DecidableEq, Repr

/-- `TMP102_EM_NORAML_MODE`. -/
def tmp102EmNormalMode : ℕ := 0

/-- `TMP102_EM_EXTENDED_MODE`. -/
def tmp102EmExtendedMode : ℕ := 1

/-- The two bytes of a word change places. -/
def swapBytes (data : BitVec 16) : BitVec 16 :=
  ((data &&& 0xFF) <<< 8) ||| ((data &&& 0xFF00) >>> 8)

/-- `tmp102_convert_temperature`. -/
def tmp102ConvertTemperature (data : BitVec 16) (format : Tmp102TemperatureFormat) (mode : ℕ) :
    BitVec 16 :=
  if mode = tmp102EmNormalMode ∨ mode = tmp102EmExtendedMode then
    if format = .readableFormat then (swapBytes data).sshiftRight (8 - mode)
    else swapBytes (data <<< (8 - mode))
  else 0

/-- **A register on the bus**: its upper byte comes first, and is the lower byte of the word in
memory. -/
def wireOrder (register : BitVec 16) : BitVec 16 :=
  register.extractLsb' 0 8 ++ register.extractLsb' 8 8

/-! ### The driver -/

/-- A register that is read: what the transfer returns, and what stands in the register. -/
structure Tmp102Read where
  ret : Int32
  register : BitVec 16
  deriving DecidableEq, Repr

/-- A register that is written: what the transfer returns, and what stands in the register if it
fails. -/
structure Tmp102Write where
  ret : Int32
  left : BitVec 16
  deriving DecidableEq, Repr

/-- The registers of a sensor that the driver writes. -/
structure Tmp102Chip where
  configuration : BitVec 16
  tLow : BitVec 16
  tHigh : BitVec 16
  deriving DecidableEq, Repr

/-- What a register holds after `eclite_i2c_write_word`. -/
def Tmp102Write.store (a : Tmp102Write) (value : BitVec 16) : BitVec 16 :=
  if a.ret = 0 then wireOrder value else a.left

/-- `tmp102_config`. -/
def tmp102Config (data : BitVec 16) (read : Tmp102Read) (write : Tmp102Write) (chip : Tmp102Chip) :
    Int32 × Tmp102Chip :=
  if read.ret ≠ 0 then (read.ret, chip)
  else
    (write.ret, { chip with configuration := write.store (wireOrder read.register ||| data) })

/-- `tmp102_read_temperature`: from what stands in the variable, the result and what stands there
afterwards. -/
def tmp102ReadTemperature (read : Tmp102Read) (data : BitVec 16) : Int32 × BitVec 16 :=
  if read.ret ≠ 0 then (read.ret, data)
  else
    (0, tmp102ConvertTemperature (wireOrder read.register) .readableFormat tmp102EmNormalMode)

/-- `tmp102_update_threshold`. -/
def tmp102UpdateThreshold (d : ThermalDriverData) (high low : Tmp102Write) (chip : Tmp102Chip) :
    Int32 × Tmp102Chip :=
  let chip := { chip with
    tHigh := high.store (tmp102ConvertTemperature d.critical .regFormat tmp102EmNormalMode) }
  if high.ret ≠ 0 then (high.ret, chip)
  else
    (low.ret, { chip with
      tLow := low.store (tmp102ConvertTemperature d.lowThreshold .regFormat tmp102EmNormalMode) })

/-- The transfers of an interrupt. -/
structure Tmp102Answers where
  temperature : Tmp102Read
  high : Tmp102Write
  low : Tmp102Write
  deriving DecidableEq, Repr

/-- `tmp102_isr`. -/
def tmp102Isr (a : Tmp102Answers) (d : ThermalDriverData) (chip : Tmp102Chip) :
    Int32 × ThermalDriverData × Tmp102Chip :=
  let (ret, temp) := tmp102ReadTemperature a.temperature 0
  if ret ≠ 0 then (ret, d, chip)
  else
    let d := { d with temperature := temp }
    let (ret, chip) := tmp102UpdateThreshold d a.high a.low chip
    (ret, d, chip)

/-- `struct tmp102_configuration` as the word `tmp102_init` fills in: interrupts, two faults and one
hertz; the other members keep what is on the stack. -/
def tmp102ConfigData (stack : BitVec 16) : BitVec 16 := (stack &&& 0x2FE0) ||| 0x400A

/-- A result in the variable of type `int8_t`. -/
def narrowResult (ret : Int32) : Int32 := ret.toInt8.toInt32

/-- `THM_HIGH_TEMPERATURE`. -/
def thmHighTemperature : BitVec 16 := 55

/-- `THM_LOW_TEMPERATURE`. -/
def thmLowTemperature : BitVec 16 := 10

/-- `DEV_SHUTDOWN`. -/
def devShutdown : Int32 := -9

/-- `tmp102_init`; `critTemp` is `CONFIG_SYS_CRIT_SHUTDOWN`. -/
def tmp102Init (critTemp stack : BitVec 16) (config : Tmp102Read) (configWrite : Tmp102Write)
    (a : Tmp102Answers) (d : ThermalDriverData) (chip : Tmp102Chip) :
    Int32 × ThermalDriverData × Tmp102Chip :=
  let (ret, chip) := tmp102Config (tmp102ConfigData stack) config configWrite chip
  if narrowResult ret ≠ 0 then (narrowResult ret, d, chip)
  else
    let (ret, temp) := tmp102ReadTemperature a.temperature 0
    if narrowResult ret ≠ 0 then (narrowResult ret, d, chip)
    else
      let d := { d with
        temperature := temp
        highThreshold := thmHighTemperature
        lowThreshold := thmLowTemperature
        critical := critTemp }
      -- that a threshold is not stored is only logged
      let chip := (tmp102UpdateThreshold d a.high a.low chip).2
      if (critTemp.toNat : ℤ) ≤ d.temperature.toInt then (devShutdown, d, chip)
      else (narrowResult ret, d, chip)

/-! ### Readings -/

theorem swapBytes_eq (data : BitVec 16) : swapBytes data = wireOrder data := by
  unfold swapBytes wireOrder
  refine BitVec.eq_of_getLsbD_eq fun i hi => ?_
  simp only [BitVec.getLsbD_append, BitVec.getLsbD_extractLsb', BitVec.getLsbD_or,
    BitVec.getLsbD_shiftLeft, BitVec.getLsbD_ushiftRight, BitVec.getLsbD_and]
  interval_cases i
  all_goals simp

theorem toNat_wireOrder (w : BitVec 16) :
    (wireOrder w).toNat = 2 ^ 8 * (w.toNat % 2 ^ 8) + w.toNat / 2 ^ 8 := by
  have hlt := w.isLt
  have hupper : w.toNat / 2 ^ 8 < 2 ^ 8 := by omega
  unfold wireOrder
  rw [BitVec.toNat_append, BitVec.extractLsb'_toNat, BitVec.extractLsb'_toNat, Nat.shiftRight_zero,
    Nat.shiftRight_eq_div_pow, Nat.shiftLeft_eq, Nat.mod_eq_of_lt hupper, Nat.mul_comm,
    ← Nat.two_pow_add_eq_or_of_lt hupper]

/-- What is written is what is read. -/
theorem wireOrder_wireOrder (w : BitVec 16) : wireOrder (wireOrder w) = w := by
  have hlt := w.isLt
  refine BitVec.eq_of_toNat_eq ?_
  rw [toNat_wireOrder, toNat_wireOrder]
  omega

/-- **A reading is rounded down.** -/
theorem reading_eq (register : BitVec 16) :
    (tmp102ConvertTemperature (wireOrder register) .readableFormat tmp102EmNormalMode).toInt =
      register.toInt / 256 := by
  unfold tmp102ConvertTemperature
  rw [if_pos (Or.inl rfl), if_pos rfl, swapBytes_eq, wireOrder_wireOrder, BitVec.toInt_sshiftRight]
  exact Int.shiftRight_eq_div_pow _ _

/-- What is written is the lower byte. -/
theorem written_eq (t : BitVec 16) :
    wireOrder (tmp102ConvertTemperature t .regFormat tmp102EmNormalMode) = t <<< 8 := by
  unfold tmp102ConvertTemperature
  rw [if_pos (Or.inl rfl), if_neg (by decide), swapBytes_eq, wireOrder_wireOrder]
  rfl

/-- A threshold that is written. -/
theorem Tmp102Write.store_threshold {w : Tmp102Write} (hw : w.ret = 0) (t : BitVec 16) :
    w.store (tmp102ConvertTemperature t .regFormat tmp102EmNormalMode) = t <<< 8 := by
  rw [Tmp102Write.store, if_pos hw, written_eq]

/-- The threshold is that of a byte. -/
def FitsByte (t : BitVec 16) : Prop := -128 ≤ t.toInt ∧ t.toInt < 128

instance (t : BitVec 16) : Decidable (FitsByte t) := inferInstanceAs (Decidable (_ ∧ _))

/-- **A reading reaches a threshold exactly when the register does.** -/
theorem le_reading_iff {t : BitVec 16} (ht : FitsByte t) (register : BitVec 16) :
    (t <<< 8).toInt ≤ register.toInt ↔ t.toInt ≤
      (tmp102ConvertTemperature (wireOrder register) .readableFormat tmp102EmNormalMode).toInt := by
  have hshift : (t <<< 8).toInt = 256 * t.toInt := by
    have hlt := t.isLt
    unfold FitsByte at ht
    rw [BitVec.toInt_eq_toNat_cond] at *
    rw [BitVec.toInt_eq_toNat_cond, BitVec.toNat_shiftLeft, Nat.shiftLeft_eq]
    split <;> split <;> omega
  rw [reading_eq, hshift]
  omega

/-! ### The sensors over a run -/

/-- The devices, and the registers of the sensor of each slot. -/
structure Tmp102Sys where
  thermals : Thermals
  chip : ℕ → Tmp102Chip

/-- **What happens**: a command of the host, with the region and what is on the stack; the thermal
task; and an interrupt of the sensor of a slot. -/
inductive Tmp102Act
  | command (event : ℕ) (o : ℕ → UInt8) (stack : ℕ → BitVec 16)
  | callback (drivers : ThermalDrivers) (thermalDisableD0ix : Bool)
  | isr (n : ℕ) (a : Tmp102Answers)

/-- What an act does; there is no interrupt of a sensor that is not there. -/
def tmp102Step : Tmp102Act → Tmp102Sys → Option Tmp102Sys
  | .command event o stack, x =>
      some { x with thermals := processThermalCommand event o stack x.thermals }
  | .callback drivers d0ix, x =>
      some { x with thermals := (thermalCallback drivers d0ix x.thermals).thermals }
  | .isr n a, x =>
      (sensorData x.thermals.devList n).map fun d =>
        let r := tmp102Isr a d (x.chip n)
        { thermals.devList := modifyDriverData (isSensor n) (fun _ => r.2.1) x.thermals.devList
          thermals.fanWrites := x.thermals.fanWrites
          chip := Function.update x.chip n r.2.2 }

/-- A threshold that is stored in the sensor. -/
inductive Tmp102Limit
  | high
  | low
  deriving DecidableEq, Repr

namespace Tmp102Limit

/-- The threshold of the framework: the upper register is for the critical one. -/
def threshold : Tmp102Limit → ThermalDriverData → BitVec 16
  | high, d => d.critical
  | low, d => d.lowThreshold

/-- The register. -/
def register : Tmp102Limit → Tmp102Chip → BitVec 16
  | high, chip => chip.tHigh
  | low, chip => chip.tLow

/-- The transfer that writes it. -/
def write : Tmp102Limit → Tmp102Answers → Tmp102Write
  | high, a => a.high
  | low, a => a.low

/-- The command of the host. -/
def event : Tmp102Limit → ℕ
  | high => ecliteOsEventCritTempUpdate
  | low => ecliteOsEventThermAlertThUpdate

/-- The word of the region. -/
def slot : Tmp102Limit → ℕ → OpField
  | high => sysCrittempThr1
  | low => sysAlert11

end Tmp102Limit

/-- Every transfer of an interrupt is completed. -/
structure Tmp102Answers.Completes (a : Tmp102Answers) : Prop where
  temperature : a.temperature.ret = 0
  high : a.high.ret = 0
  low : a.low.ret = 0

/-- An act that leaves the threshold alone: no command for it, and no interrupt in which the
transfer to its register fails. -/
def Tmp102Limit.Spares (limit : Tmp102Limit) (n : ℕ) : Tmp102Act → Prop
  | .command event _ _ => event ≠ limit.event
  | .callback _ _ => True
  | .isr m a => m = n → (limit.write a).ret = 0

/-- The threshold as the framework has it, if the sensor is there. -/
def thresholdOf (limit : Tmp102Limit) (n : ℕ) (devList : List ThermalDevice) :
    Option (BitVec 16) :=
  (sensorData devList n).map limit.threshold

/-! ### What an act leaves of a threshold -/

section thresholds

variable {limit : Tmp102Limit} {n : ℕ} {devList : List ThermalDevice}

/-- Data of another kind of device are changed. -/
theorem thresholdOf_modify_of_disjoint {isDev : ThermalDevice → Bool}
    {f : ThermalDriverData → ThermalDriverData}
    (hdis : ∀ d, isDev d = true → ¬ isSensor n d = true) :
    thresholdOf limit n (modifyDriverData isDev f devList) = thresholdOf limit n devList := by
  unfold thresholdOf
  rw [sensorData_eq, sensorData_eq,
    find?_modifyDriverData_of_disjoint (ignoresData_isSensor n) hdis]

/-- Data of a sensor are changed, but not the threshold. -/
theorem thresholdOf_modify {k : ℕ} {f : ThermalDriverData → ThermalDriverData}
    (hf : ∀ d, limit.threshold (f d) = limit.threshold d) :
    thresholdOf limit n (modifyDriverData (isSensor k) f devList) =
      thresholdOf limit n devList := by
  by_cases hk : k = n
  · subst hk
    unfold thresholdOf
    rw [sensorData_modify_self, Option.map_map]
    exact congrArg (fun g => (sensorData devList k).map g) (funext hf)
  · exact thresholdOf_modify_of_disjoint (isSensor_disjoint hk)

theorem thresholdOf_storeSensors {g : ℕ → ThermalDriverData → ThermalDriverData}
    (hg : ∀ i d, limit.threshold (g i d) = limit.threshold d) (numbers : List ℕ) :
    thresholdOf limit n (storeSensors g numbers devList) = thresholdOf limit n devList := by
  induction numbers generalizing devList with
  | nil => rfl
  | cons i numbers ih => exact ih.trans (thresholdOf_modify (hg i))

/-- A device of another type is no sensor. -/
theorem isDevType_disjoint {type : DeviceType} (h : type ≠ .thermal) (d : ThermalDevice)
    (hd : isDevType type d = true) : ¬ isSensor n d = true := by
  rw [isSensor_iff]
  rintro ⟨hthermal, -⟩
  exact h ((of_decide_eq_true hd).symm.trans hthermal)

/-- **Another command leaves the threshold alone.** -/
theorem thresholdOf_command {event : ℕ} (h : event ≠ limit.event) (o : ℕ → UInt8)
    (stack : ℕ → BitVec 16) (x : Thermals) :
    thresholdOf limit n (processThermalCommand event o stack x).devList =
      thresholdOf limit n x.devList := by
  unfold processThermalCommand thermalCommand
  split
  · rfl
  split
  · exact thresholdOf_modify_of_disjoint (isDevType_disjoint (by decide))
  split
  · next heq =>
      cases limit with
      | low => exact absurd heq h
      | high =>
          refine thresholdOf_storeSensors (fun _ _ => ?_) _
          rfl
  split
  · next heq =>
      cases limit with
      | high => exact absurd heq h
      | low =>
          refine thresholdOf_storeSensors (fun _ _ => ?_) _
          rfl
  · rfl

/-- A reading leaves the thresholds of a sensor alone; only the processor has a band that moves. -/
theorem threshold_processDevice {k : ℕ} (hk : k ≠ cpu) (d : ThermalDriverData)
    (readData : BitVec 16 → Int32 × BitVec 16) (status : BitVec 16) :
    limit.threshold (processDevice d readData status k).2.1 = limit.threshold d := by
  unfold processDevice
  dsimp only
  split
  · cases limit <;> rfl
  · rw [if_neg fun hc => hk hc.1]
    cases limit <;> rfl

theorem thresholdOf_process (hn : n ≠ cpu) (readData : BitVec 16 → Int32 × BitVec 16)
    (x : ThermalPass) : thresholdOf limit n (x.process (isSensor n) readData n).thermals.devList =
      thresholdOf limit n x.thermals.devList := by
  unfold ThermalPass.process processThermal thresholdOf
  rw [sensorData_eq x.thermals.devList]
  cases hd : (x.thermals.devList.find? (isSensor n)).map (·.driverData) with
  | none =>
      simp only [Option.elim_none]
      rw [sensorData_eq, hd]
  | some d =>
      simp only [Option.elim_some]
      rw [sensorData_modify_self, sensorData_eq, hd]
      exact congrArg some (threshold_processDevice hn d readData x.status)

/-- The loop over the sensors. -/
theorem thresholdOf_sensors (hn : n ≠ cpu) (drivers : ThermalDrivers) (numbers : List ℕ)
    (x : ThermalPass) : thresholdOf limit n (x.sensors drivers numbers).thermals.devList =
      thresholdOf limit n x.thermals.devList := by
  induction numbers generalizing x with
  | nil => rfl
  | cons i numbers ih =>
      refine (ih _).trans ?_
      by_cases hi : i = n
      · subst hi
        exact thresholdOf_process hn _ x
      · unfold thresholdOf
        rw [sensorData_process (isSensor_disjoint hi)]

/-- **The thermal task leaves the thresholds alone.** -/
theorem thresholdOf_callback (hn : n ≠ cpu) (drivers : ThermalDrivers) (d0ix : Bool)
    (x : Thermals) : thresholdOf limit n (thermalCallback drivers d0ix x).thermals.devList =
      thresholdOf limit n x.devList := by
  have hcpu : thresholdOf limit n ((ThermalPass.sensors drivers (List.range maxThermalSensor)
      ⟨x, 0, 0⟩).process (isDevType .thermalCpu) drivers.cpu cpu).thermals.devList =
      thresholdOf limit n x.devList := by
    refine Eq.trans ?_ (thresholdOf_sensors hn drivers (List.range maxThermalSensor) ⟨x, 0, 0⟩)
    unfold thresholdOf
    rw [sensorData_process (isDevType_disjoint (by decide))]
  unfold thermalCallback
  dsimp only
  split
  · exact hcpu
  · -- the tacho is stored in the data of the fan
    refine Eq.trans ?_ hcpu
    generalize ThermalPass.process _ _ _ _ = y
    have hfan : y.controlFan.thermals.devList = y.thermals.devList := by
      unfold ThermalPass.controlFan
      cases findDevByType y.thermals.devList .fan <;> rfl
    unfold ThermalPass.readTacho
    cases findDevByType y.controlFan.thermals.devList .fan with
    | none => exact congrArg _ hfan
    | some fan =>
        dsimp only
        rw [thresholdOf_modify_of_disjoint (isDevType_disjoint (by decide)), hfan]

end thresholds

/-! ### Runs -/

section runs

variable {limit : Tmp102Limit} {n : ℕ} {t : BitVec 16} {act : Tmp102Act} {x x' : Tmp102Sys}

/-- An interrupt changes the temperature, and no threshold. -/
theorem threshold_isr (a : Tmp102Answers) (d : ThermalDriverData) (chip : Tmp102Chip) :
    limit.threshold (tmp102Isr a d chip).2.1 = limit.threshold d := by
  unfold tmp102Isr
  dsimp only
  split
  · rfl
  · cases limit <;> rfl

/-- **What an act leaves of a threshold.** -/
theorem thresholdOf_step (hn : n < maxThermalSensor) (hs : limit.Spares n act)
    (h : thresholdOf limit n x.thermals.devList = some t) (hst : tmp102Step act x = some x') :
    thresholdOf limit n x'.thermals.devList = some t := by
  have hcpu : n ≠ cpu := ne_of_lt (hn.trans (by decide))
  cases act with
  | command event o stack =>
      cases hst
      exact (thresholdOf_command hs o stack x.thermals).trans h
  | callback drivers d0ix =>
      cases hst
      exact (thresholdOf_callback hcpu drivers d0ix x.thermals).trans h
  | isr m a =>
      obtain ⟨d, hd, rfl⟩ := Option.map_eq_some_iff.1 hst
      dsimp only
      by_cases hm : m = n
      · subst hm
        unfold thresholdOf at h ⊢
        rw [hd] at h
        rw [sensorData_modify_self, hd]
        exact (congrArg some (threshold_isr a d (x.chip m))).trans h
      · exact (thresholdOf_modify_of_disjoint (isSensor_disjoint hm)).trans h

/-- The register behind an interrupt: as it was, when the temperature could not be read or the other
register comes first and fails. -/
theorem register_isr {a : Tmp102Answers} {d : ThermalDriverData} {chip : Tmp102Chip}
    (hret : (limit.write a).ret = 0) :
    limit.register (tmp102Isr a d chip).2.2 = limit.register chip ∨
      limit.register (tmp102Isr a d chip).2.2 = limit.threshold d <<< 8 := by
  unfold tmp102Isr tmp102UpdateThreshold
  dsimp only
  split
  · exact Or.inl rfl
  · cases limit with
    | high =>
        refine Or.inr ?_
        split <;> exact Tmp102Write.store_threshold hret _
    | low =>
        split
        · exact Or.inl rfl
        · exact Or.inr (Tmp102Write.store_threshold hret _)

/-- An interrupt whose transfers are completed writes the register. -/
theorem register_isr_of_completes {a : Tmp102Answers} (ha : a.Completes) (d : ThermalDriverData)
    (chip : Tmp102Chip) :
    limit.register (tmp102Isr a d chip).2.2 = limit.threshold d <<< 8 := by
  unfold tmp102Isr tmp102UpdateThreshold tmp102ReadTemperature
  rw [if_neg (not_not_intro ha.temperature)]
  dsimp only
  rw [if_neg (not_not_intro rfl), if_neg (not_not_intro ha.high)]
  cases limit with
  | high => exact Tmp102Write.store_threshold ha.high _
  | low => exact Tmp102Write.store_threshold ha.low _

/-- **What an act leaves of a register** that holds its threshold. -/
theorem register_step (hs : limit.Spares n act)
    (h : thresholdOf limit n x.thermals.devList = some t)
    (hreg : limit.register (x.chip n) = t <<< 8) (hst : tmp102Step act x = some x') :
    limit.register (x'.chip n) = t <<< 8 := by
  cases act with
  | command event o stack =>
      cases hst
      exact hreg
  | callback drivers d0ix =>
      cases hst
      exact hreg
  | isr m a =>
      obtain ⟨d, hd, rfl⟩ := Option.map_eq_some_iff.1 hst
      dsimp only
      by_cases hm : m = n
      · subst hm
        rw [Function.update_self]
        have hthreshold : limit.threshold d = t := by
          unfold thresholdOf at h
          rw [hd] at h
          exact Option.some.inj h
        rcases @register_isr limit a d (x.chip m) (hs rfl) with hsame | hnew
        · exact hsame.trans hreg
        · rw [hnew, hthreshold]
      · rw [Function.update_of_ne (Ne.symm hm)]
        exact hreg

/-- The command of the host sets the threshold. -/
theorem thresholdOf_own_command {o : ℕ → UInt8} {stack : ℕ → BitVec 16} (hn : n < maxThermalSensor)
    (hfan : (findDevByType x.thermals.devList .fan).isSome = true)
    (hsensor : (sensorData x.thermals.devList n).isSome = true)
    (hst : tmp102Step (.command limit.event o stack) x = some x') :
    thresholdOf limit n x'.thermals.devList = some (opWord o (limit.slot n)) := by
  obtain ⟨d, hd⟩ := Option.isSome_iff_exists.1 hsensor
  cases hst
  unfold thresholdOf
  cases limit with
  | high =>
      show ((sensorData (processThermalCommand ecliteOsEventCritTempUpdate o stack
        x.thermals).devList n).map _) = _
      rw [sensorData_criticalCommand stack o hfan hn, hd]
      rfl
  | low =>
      show ((sensorData (processThermalCommand ecliteOsEventThermAlertThUpdate o stack
        x.thermals).devList n).map _) = _
      rw [sensorData_alertCommand stack o hfan hn, hd]
      rfl

/-! ### The window -/

/-- **The sensor compares with the threshold**: its register holds the lower byte of it, and if the
threshold is that of a byte, a temperature reaches the register exactly when its reading reaches the
threshold. -/
structure WindowHolds (limit : Tmp102Limit) (t : BitVec 16) (chip : Tmp102Chip) : Prop where
  register : limit.register chip = t <<< 8
  compares : FitsByte t → ∀ temperature : BitVec 16,
    (limit.register chip).toInt ≤ temperature.toInt ↔ t.toInt ≤
      (tmp102ConvertTemperature (wireOrder temperature) .readableFormat tmp102EmNormalMode).toInt

theorem windowHolds_of_register {chip : Tmp102Chip} (h : limit.register chip = t <<< 8) :
    WindowHolds limit t chip := by
  refine ⟨h, fun hfits temperature => ?_⟩
  rw [h]
  exact le_reading_iff hfits temperature

/-- **The start**: when every transfer is completed, the sensor compares with the thresholds of the
framework, which are those of the configuration. -/
theorem window_of_init {config : Tmp102Read} {configWrite : Tmp102Write} {a : Tmp102Answers}
    (hconfig : config.ret = 0) (hwrite : configWrite.ret = 0) (ha : a.Completes)
    (critTemp stack : BitVec 16) (d : ThermalDriverData) (chip : Tmp102Chip) :
    WindowHolds .high critTemp (tmp102Init critTemp stack config configWrite a d chip).2.2 ∧
      WindowHolds .low thmLowTemperature
        (tmp102Init critTemp stack config configWrite a d chip).2.2 := by
  have hnarrow : narrowResult 0 = 0 := by decide
  unfold tmp102Init tmp102Config tmp102ReadTemperature tmp102UpdateThreshold
  simp only [hconfig, hwrite, ha.temperature, ha.high, hnarrow, ne_eq, not_true_eq_false, if_false]
  split
  all_goals
    exact ⟨windowHolds_of_register (Tmp102Write.store_threshold ha.high critTemp),
      windowHolds_of_register (Tmp102Write.store_threshold ha.low thmLowTemperature)⟩

/-- The states that acts which spare the threshold lead to. -/
def Tmp102Limit.Leads (limit : Tmp102Limit) (n : ℕ) (x : Tmp102Sys) : Tmp102Sys → Prop :=
  Lts.Reach (· = x) tmp102Step fun _ => limit.Spares n

/-- **Behind the next interrupt the register holds what the host has written**, whatever happens in
between and afterwards. -/
theorem window_of_run {x₁ x₂ x₃ : Tmp102Sys} {o : ℕ → UInt8} {stack : ℕ → BitVec 16}
    {a : Tmp102Answers} (hn : n < maxThermalSensor)
    (hfan : (findDevByType x.thermals.devList .fan).isSome = true)
    (hsensor : (sensorData x.thermals.devList n).isSome = true)
    (hcommand : tmp102Step (.command limit.event o stack) x = some x₁)
    (hbefore : limit.Leads n x₁ x₂) (ha : a.Completes) (hisr : tmp102Step (.isr n a) x₂ = some x₃)
    (hafter : limit.Leads n x₃ x') : WindowHolds limit (opWord o (limit.slot n)) (x'.chip n) := by
  have hset := thresholdOf_own_command hn hfan hsensor hcommand
  have hkept : thresholdOf limit n x₂.thermals.devList = some (opWord o (limit.slot n)) :=
    hbefore.invariant (fun _ hx => hx ▸ hset) fun _ _ _ h hs hst => thresholdOf_step hn hs h hst
  have hspares : limit.Spares n (.isr n a) := fun _ => by
    cases limit with
    | high => exact ha.high
    | low => exact ha.low
  have hstill := thresholdOf_step hn hspares hkept hisr
  have hwritten : limit.register (x₃.chip n) = opWord o (limit.slot n) <<< 8 := by
    obtain ⟨d, hd, rfl⟩ := Option.map_eq_some_iff.1 hisr
    unfold thresholdOf at hkept
    rw [hd] at hkept
    dsimp only
    rw [Function.update_self, register_isr_of_completes ha, Option.some.inj hkept]
  have hend : thresholdOf limit n x'.thermals.devList = some (opWord o (limit.slot n)) ∧
      limit.register (x'.chip n) = opWord o (limit.slot n) <<< 8 := by
    refine Lts.Reach.invariant (I := fun y => thresholdOf limit n y.thermals.devList = some _ ∧
      limit.register (y.chip n) = _ <<< 8) ?_ ?_ hafter
    · rintro _ rfl
      exact ⟨hstill, hwritten⟩
    · intro y l y' h hs hst
      exact ⟨thresholdOf_step hn hs h.1 hst, register_step hs h.1 h.2 hst⟩
  exact windowHolds_of_register hend.2

end runs

/-- One sensor, and a fan. -/
def oneSensor : Tmp102Sys := ⟨platformOf {0} true, fun _ => ⟨0, 0, 0⟩⟩

/-- Every transfer is completed; the sensor measures 30 degrees. -/
def completedAnswers : Tmp102Answers := ⟨⟨0, 0x1E00⟩, ⟨0, 0⟩, ⟨0, 0⟩⟩

/-- The region with a critical temperature of 90 degrees for the first sensor. -/
def criticalRegion : ℕ → UInt8 := putWord OpField.sys0CrittempThr1.offset 90 zeroRegion

/-- The host writes a critical temperature, and the sensor interrupts. -/
theorem window_criticalRegion :
    ∃ x₁ x₃, tmp102Step (.command Tmp102Limit.high.event criticalRegion fun _ => 0) oneSensor =
        some x₁ ∧ tmp102Step (.isr 0 completedAnswers) x₁ = some x₃ ∧
      opWord criticalRegion (Tmp102Limit.high.slot 0) = 90 ∧ FitsByte 90 ∧
      WindowHolds .high (opWord criticalRegion (Tmp102Limit.high.slot 0)) (x₃.chip 0) := by
  obtain ⟨x₃, hisr⟩ : ∃ x₃, tmp102Step (.isr 0 completedAnswers)
      { oneSensor with
        thermals := processThermalCommand Tmp102Limit.high.event criticalRegion (fun _ => 0)
          oneSensor.thermals } = some x₃ := Option.isSome_iff_exists.1 (by decide +kernel)
  exact ⟨_, x₃, rfl, hisr, by decide +kernel, by decide,
    window_of_run (by decide) (by decide +kernel) (by decide +kernel) rfl (.init rfl)
      ⟨rfl, rfl, rfl⟩ hisr (.init rfl)⟩

end PseFw.Eclite
