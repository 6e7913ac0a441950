/-
**The slots of the thermal sensors.**

The region has four slots for the temperatures of the sensors, four for their alert thresholds and
four for their critical ones; the status has four bits for them, and the host has four events.  Slot
`n` is for the sensor of instance `n + 1`.  Some of the four may be missing, and so may the fan.

The status, the events and the commands of the host find a slot by its index.  The region is written
with pointers that move on only behind a sensor that is there.  And a command returns at once if
there is no fan, also if it is about the sensors.

Main definitions:

* `updateThermalRegion`, `initializeThermalRegion` — the words of the region;
* `thermalCallback`, `ecliteSendThermalEvent` — the status and the events;
* `processThermalCommand` — the thresholds of the host;
* `SlotsAgree` — slot `n` is everywhere the one of instance `n + 1`.

Main results:

* `opWord_updateThermalRegion`, `opWord_alert31` — a slot of the region holds the next sensor that
  is there;
* `status_callback` — a bit of the status belongs to its sensor;
* `slotAgreement_iff` — **the slots agree if and only if the sensors that are there are the first
  ones, and there is a fan or no sensor.** -/

import PseFw.Eclite.Battery
import PseFw.Eclite.Thermal
import PseFw.Lib.Packed
import Mathlib.Tactic.IntervalCases

set_option relaxedAutoImplicit false
set_option autoImplicit false

namespace PseFw.Eclite

open Mem

/-! ### The devices -/

/-- `struct eclite_device`, with the data of its driver; the pointer to them is set in every table
of the platform. -/
structure ThermalDevice where
  deviceTyp : DeviceType
  instanceNo : ℕ
  driverData : ThermalDriverData
  deriving DecidableEq, Repr

/-- `MAX_THERMAL_SENSOR`. -/
def maxThermalSensor : ℕ := 4

/-- The test of `find_dev_by_type`. -/
def isDevType (type : DeviceType) (d : ThermalDevice) : Bool := decide (d.deviceTyp = type)

/-- The test of `find_dev_instance_by_type`. -/
def isDevInstance (type : DeviceType) (instanceNo : ℕ) (d : ThermalDevice) : Bool :=
  decide (d.deviceTyp = type) && decide (d.instanceNo = instanceNo)

/-- `find_dev_by_type`. -/
def findDevByType (devList : List ThermalDevice) (type : DeviceType) : Option ThermalDevice :=
  devList.find? (isDevType type)

/-- `find_dev_instance_by_type`. -/
def findDevInstanceByType (devList : List ThermalDevice) (type : DeviceType) (instanceNo : ℕ) :
    Option ThermalDevice :=
  devList.find? (isDevInstance type instanceNo)

/-- The data of the device that is found are changed. -/
def modifyDriverData (isDev : ThermalDevice → Bool) (f : ThermalDriverData → ThermalDriverData) :
    List ThermalDevice → List ThermalDevice
  | [] => []
  | d :: devs =>
      if isDev d = true then { d with driverData := f d.driverData } :: devs
      else d :: modifyDriverData isDev f devs

/-- The device list, and what was handed to the driver of the fan. -/
structure Thermals where
  devList : List ThermalDevice
  fanWrites : List (BitVec 16)
  deriving DecidableEq, Repr

/-- The sensor of slot `n`. -/
def isSensor (n : ℕ) : ThermalDevice → Bool := isDevInstance .thermal (n + 1)

/-- The data of the sensor of slot `n`, if it is there. -/
def sensorData (devList : List ThermalDevice) (n : ℕ) : Option ThermalDriverData :=
  (findDevInstanceByType devList .thermal (n + 1)).map (·.driverData)

/-! ### The region -/

/-- A word of the region. -/
def opWord (o : ℕ → UInt8) (f : OpField) : BitVec 16 := BitVec.ofNat 16 (batteryWord o f)

/-- A word is stored where a pointer points to. -/
def putWord (p : ℕ) (w : BitVec 16) (o : ℕ → UInt8) : ℕ → UInt8 := write o p (leBytes 2 w.toNat)

/-- The sensors, instance by instance, as the loops find them. -/
def thermals (devList : List ThermalDevice) : List (Option ThermalDriverData) :=
  (List.range maxThermalSensor).map (sensorData devList)

/-- `update_thermal_region`: the pointer moves on by a word, behind a sensor that is there. -/
def updateThermalRegion (devList : List ThermalDevice) (o : ℕ → UInt8) : ℕ → UInt8 :=
  Packed.walk (fun p d => putWord p d.temperature) (· + 2) (thermals devList)
    OpField.systherm0Temp1.offset o

/-- The three words `initialize_thermal_region` stores for a sensor, behind its two pointers. -/
def putThresholds (p : ℕ × ℕ) (d : ThermalDriverData) (o : ℕ → UInt8) : ℕ → UInt8 :=
  putWord p.2 d.critical (putWord (p.1 + 2) d.lowThreshold (putWord p.1 d.highThreshold o))

/-- `initialize_thermal_region`. -/
def initializeThermalRegion (devList : List ThermalDevice) (o : ℕ → UInt8) : ℕ → UInt8 :=
  Packed.walk putThresholds (fun p => (p.1 + 4, p.2 + 2)) (thermals devList)
    (OpField.sys0Alert31.offset, OpField.sys0CrittempThr1.offset) o

/-! ### The callback -/

/-- The drivers: the `read_data` of the sensors, by instance, of the processor and of the tacho. -/
structure ThermalDrivers where
  sensor : ℕ → BitVec 16 → Int32 × BitVec 16
  cpu : BitVec 16 → Int32 × BitVec 16
  tacho : BitVec 16 → Int32 × BitVec 16

/-- The framework in `thermal_callback`. -/
structure ThermalPass where
  thermals : Thermals
  status : BitVec 16
  ret : Int32
  deriving DecidableEq, Repr

/-- A device is looked up and processed. -/
def ThermalPass.process (isDev : ThermalDevice → Bool)
    (readData : BitVec 16 → Int32 × BitVec 16) (thermalDevType : ℕ) (x : ThermalPass) :
    ThermalPass :=
  let r := processThermal ((x.thermals.devList.find? isDev).map (·.driverData)) readData x.status
    thermalDevType
  { thermals :=
      { x.thermals with
        devList := r.2.1.elim x.thermals.devList fun data =>
          modifyDriverData isDev (fun _ => data) x.thermals.devList }
    status := r.2.2
    ret := x.ret ||| r.1 }

/-- The loop over the sensors. -/
def ThermalPass.sensors (drivers : ThermalDrivers) (numbers : List ℕ) (x : ThermalPass) :
    ThermalPass :=
  numbers.foldl (fun x i => x.process (isSensor i) (drivers.sensor (i + 1)) i) x

/-- `control_fan`; that the driver failed is only logged. -/
def ThermalPass.controlFan (x : ThermalPass) : ThermalPass :=
  match findDevByType x.thermals.devList .fan with
  | none => { x with ret := x.ret ||| devNotFound }
  | some fan =>
      { x with
        thermals.fanWrites := x.thermals.fanWrites ++ [fan.driverData.rotation] }

/-- `read_tacho`; the tacho is the one of the fan. -/
def ThermalPass.readTacho (drivers : ThermalDrivers) (x : ThermalPass) : ThermalPass :=
  match findDevByType x.thermals.devList .fan with
  | none => { x with ret := x.ret ||| devNotFound }
  | some fan =>
      let (ret, tacho) := drivers.tacho fan.driverData.tacho
      { x with
        thermals.devList := modifyDriverData (isDevType .fan) (fun d => { d with tacho := tacho })
          x.thermals.devList
        ret := x.ret ||| ret }

/-- `thermal_callback`, behind the request for TjMax. -/
def thermalCallback (drivers : ThermalDrivers) (thermalDisableD0ix : Bool) (x : Thermals) :
    ThermalPass :=
  let x := (ThermalPass.sensors drivers (List.range maxThermalSensor) ⟨x, 0, 0⟩).process
    (isDevType .thermalCpu) drivers.cpu cpu
  if thermalDisableD0ix = true then x else x.controlFan.readTacho drivers

/-- `eclite_check_thermal_event`, with the events that are sent. -/
def ecliteCheckThermalEvent (sensorCondition : Bool) (hostEventId : BitVec 32) :
    List (BitVec 32) :=
  if sensorCondition = true then [hostEventId] else []

/-- The events `ECLITE_EVENT_SYSTEMP0_ALERT` to `ECLITE_EVENT_SYSTEMP3_ALERT`. -/
def systempAlert : ℕ → BitVec 32
  | 0 => 0x04
  | 1 => 0x05
  | 2 => 0x06
  | _ => 0x0A

/-- `ECLITE_EVENT_CPUTEMP_UPDATE`. -/
def cputempUpdate : BitVec 32 := 0x0F

/-- `eclite_send_thermal_event`. -/
def ecliteSendThermalEvent (thermalStatus : BitVec 16) : List (BitVec 32) :=
  ecliteCheckThermalEvent (thermalStatus.getLsbD 0) (systempAlert 0) ++
    ecliteCheckThermalEvent (thermalStatus.getLsbD 1) (systempAlert 1) ++
    ecliteCheckThermalEvent (thermalStatus.getLsbD 2) (systempAlert 2) ++
    ecliteCheckThermalEvent (thermalStatus.getLsbD 3) (systempAlert 3) ++
    ecliteCheckThermalEvent (thermalStatus.getLsbD cpu) cputempUpdate

/-! ### The commands -/

/-- `struct thermal_command_data`. -/
structure ThermalCommandData where
  eventId : ℕ
  data : ℕ → BitVec 16

/-- `ECLITE_OS_EVENT_PWM_UPDATE`. -/
def ecliteOsEventPwmUpdate : ℕ := 0x0F

/-- `ECLITE_OS_EVENT_THERM_ALERT_TH_UPDATE`. -/
def ecliteOsEventThermAlertThUpdate : ℕ := 0x06

/-- `ECLITE_OS_EVENT_CRIT_TEMP_UPDATE`. -/
def ecliteOsEventCritTempUpdate : ℕ := 0x04

/-- The loop of `thermal_command` over the sensors. -/
def storeSensors (f : ℕ → ThermalDriverData → ThermalDriverData) (numbers : List ℕ)
    (devList : List ThermalDevice) : List ThermalDevice :=
  numbers.foldl (fun devs i => modifyDriverData (isSensor i) (f i) devs) devList

/-- `thermal_command`. -/
def thermalCommand (msg : ThermalCommandData) (x : Thermals) : Thermals :=
  if (findDevByType x.devList .fan).isNone = true then x
  else if msg.eventId = ecliteOsEventPwmUpdate then
    { devList := modifyDriverData (isDevType .fan) (fun d => { d with rotation := msg.data 0 })
        x.devList
      fanWrites := x.fanWrites ++ [msg.data 0] }
  else if msg.eventId = ecliteOsEventThermAlertThUpdate then
    { x with
      devList := storeSensors (fun i d =>
        { d with
          highThreshold := msg.data (2 * i)
          lowThreshold := msg.data (2 * i + 1) }) (List.range maxThermalSensor) x.devList }
  else if msg.eventId = ecliteOsEventCritTempUpdate then
    { x with
      devList := storeSensors (fun i d => { d with critical := msg.data i })
        (List.range maxThermalSensor) x.devList }
  else x

/-- The array `process_thermal_command` fills; the argument `stack` is what stands in it before. -/
def thermalCommandWords (event : ℕ) (o : ℕ → UInt8) (stack : ℕ → BitVec 16) : ℕ → BitVec 16 :=
  if event = ecliteOsEventPwmUpdate then
    fun
    | 0 => opWord o .pwmDutycyle
    | i => stack i
  else if event = ecliteOsEventThermAlertThUpdate then
    fun
    | 0 => opWord o .sys0Alert31
    | 1 => opWord o .sys0Alert11
    | 2 => opWord o .sys1Alert31
    | 3 => opWord o .sys1Alert11
    | 4 => opWord o .sys2Alert31
    | 5 => opWord o .sys2Alert11
    | 6 => opWord o .sys3Alert31
    | 7 => opWord o .sys3Alert11
    | i => stack i
  else if event = ecliteOsEventCritTempUpdate then
    fun
    | 0 => opWord o .sys0CrittempThr1
    | 1 => opWord o .sys1CrittempThr1
    | 2 => opWord o .sys2CrittempThr1
    | 3 => opWord o .sys3CrittempThr1
    | i => stack i
  else stack

/-- `process_thermal_command`. -/
def processThermalCommand (event : ℕ) (o : ℕ → UInt8) (stack : ℕ → BitVec 16) (x : Thermals) :
    Thermals :=
  thermalCommand ⟨event, thermalCommandWords event o stack⟩ x

/-! ### What is wanted -/

/-- The slot of a temperature. -/
def systhermTemp1 : ℕ → OpField
  | 0 => .systherm0Temp1
  | 1 => .systherm1Temp1
  | 2 => .systherm2Temp1
  | _ => .systherm3Temp1

/-- The slot of a high threshold. -/
def sysAlert31 : ℕ → OpField
  | 0 => .sys0Alert31
  | 1 => .sys1Alert31
  | 2 => .sys2Alert31
  | _ => .sys3Alert31

/-- The slot of a low threshold. -/
def sysAlert11 : ℕ → OpField
  | 0 => .sys0Alert11
  | 1 => .sys1Alert11
  | 2 => .sys2Alert11
  | _ => .sys3Alert11

/-- The slot of a critical threshold. -/
def sysCrittempThr1 : ℕ → OpField
  | 0 => .sys0CrittempThr1
  | 1 => .sys1CrittempThr1
  | 2 => .sys2CrittempThr1
  | _ => .sys3CrittempThr1

/-- A slot of the region holds a value of its sensor, and stays as it was if there is none. -/
def SlotHolds (devList : List ThermalDevice) (o o' : ℕ → UInt8) (slot : ℕ → OpField)
    (val : ThermalDriverData → BitVec 16) : Prop :=
  ∀ n < maxThermalSensor,
    opWord o' (slot n) = (sensorData devList n).elim (opWord o (slot n)) val

/-- What the command for the alerts should do with a sensor. -/
def alertThresholds (o : ℕ → UInt8) (n : ℕ) (d : ThermalDriverData) : ThermalDriverData :=
  { d with highThreshold := opWord o (sysAlert31 n), lowThreshold := opWord o (sysAlert11 n) }

/-- What the command for the critical temperatures should do with a sensor. -/
def criticalThreshold (o : ℕ → UInt8) (n : ℕ) (d : ThermalDriverData) : ThermalDriverData :=
  { d with critical := opWord o (sysCrittempThr1 n) }

/-- **Slot `n` is everywhere the one of instance `n + 1`.** -/
structure SlotsAgree (drivers : ThermalDrivers) (thermalDisableD0ix : Bool)
    (stack : ℕ → BitVec 16) (x : Thermals) (o : ℕ → UInt8) : Prop where
  temperature :
    SlotHolds x.devList o (updateThermalRegion x.devList o) systhermTemp1 (·.temperature)
  alertHigh :
    SlotHolds x.devList o (initializeThermalRegion x.devList o) sysAlert31 (·.highThreshold)
  alertLow :
    SlotHolds x.devList o (initializeThermalRegion x.devList o) sysAlert11 (·.lowThreshold)
  critical :
    SlotHolds x.devList o (initializeThermalRegion x.devList o) sysCrittempThr1 (·.critical)
  status : ∀ n < maxThermalSensor,
    (thermalCallback drivers thermalDisableD0ix x).status.getLsbD n = true ↔
      ∃ d, sensorData x.devList n = some d ∧ (drivers.sensor (n + 1) d.temperature).1 = 0 ∧
        OutOfBand { d with temperature := (drivers.sensor (n + 1) d.temperature).2 }
  event : ∀ n < maxThermalSensor, ∀ status : BitVec 16,
    systempAlert n ∈ ecliteSendThermalEvent status ↔ status.getLsbD n = true
  alertThresholds : ∀ n < maxThermalSensor,
    sensorData (processThermalCommand ecliteOsEventThermAlertThUpdate o stack x).devList n =
      (sensorData x.devList n).map (alertThresholds o n)
  criticalThreshold : ∀ n < maxThermalSensor,
    sensorData (processThermalCommand ecliteOsEventCritTempUpdate o stack x).devList n =
      (sensorData x.devList n).map (criticalThreshold o n)

/-- **The slots agree for every platform with these sensors**, whatever they measure and whatever
stands in the region. -/
def SlotAgreement (present : Finset ℕ) (fan : Bool) : Prop :=
  ∀ (drivers : ThermalDrivers) (thermalDisableD0ix : Bool) (stack : ℕ → BitVec 16) (x : Thermals)
    (o : ℕ → UInt8),
    (∀ n < maxThermalSensor, (sensorData x.devList n).isSome = true ↔ n ∈ present) →
      (findDevByType x.devList .fan).isSome = fan →
        SlotsAgree drivers thermalDisableD0ix stack x o

/-- The sensors that are there are the first ones, and there is a fan or no sensor. -/
structure FirstSensors (present : Finset ℕ) (fan : Bool) : Prop where
  initial : ∀ i j, i ≤ j → j < maxThermalSensor → j ∈ present → i ∈ present
  fan : fan = true ∨ ∀ n < maxThermalSensor, n ∉ present

variable {devList : List ThermalDevice} {o : ℕ → UInt8} {x : Thermals} {n : ℕ}
variable {isDev isDev' : ThermalDevice → Bool} {f : ThermalDriverData → ThermalDriverData}

/-! ### The device that is found -/

/-- A test that does not look at the data of the driver. -/
def IgnoresData (isDev : ThermalDevice → Bool) : Prop :=
  ∀ d data, isDev { d with driverData := data } = isDev d

theorem ignoresData_isSensor (n : ℕ) : IgnoresData (isSensor n) := fun _ _ => rfl

/-- What is found afterwards, for the same test. -/
theorem find?_modifyDriverData_self (h : IgnoresData isDev) :
    ((modifyDriverData isDev f devList).find? isDev).map (·.driverData) =
      ((devList.find? isDev).map (·.driverData)).map f := by
  induction devList with
  | nil => rfl
  | cons d devs ih =>
      unfold modifyDriverData
      by_cases hd : isDev d = true
      · have hd' : isDev { d with driverData := f d.driverData } = true := (h d _).trans hd
        rw [if_pos hd, List.find?_cons_of_pos hd, List.find?_cons_of_pos hd']
        rfl
      · rw [if_neg hd, List.find?_cons_of_neg hd, List.find?_cons_of_neg hd]
        exact ih

/-- What is found afterwards, for a test of other devices. -/
theorem find?_modifyDriverData_of_disjoint (h : IgnoresData isDev')
    (hdis : ∀ d, isDev d = true → ¬ isDev' d = true) :
    (modifyDriverData isDev f devList).find? isDev' = devList.find? isDev' := by
  induction devList with
  | nil => rfl
  | cons d devs ih =>
      unfold modifyDriverData
      by_cases hd : isDev d = true
      · have hd' : ¬ isDev' { d with driverData := f d.driverData } = true := by
          rw [h]
          exact hdis d hd
        rw [if_pos hd, List.find?_cons_of_neg hd', List.find?_cons_of_neg (hdis d hd)]
      · rw [if_neg hd]
        by_cases hd' : isDev' d = true
        · rw [List.find?_cons_of_pos hd', List.find?_cons_of_pos hd']
        · rw [List.find?_cons_of_neg hd', List.find?_cons_of_neg hd', ih]

theorem isSensor_iff {d : ThermalDevice} :
    isSensor n d = true ↔ d.deviceTyp = .thermal ∧ d.instanceNo = n + 1 := by
  unfold isSensor isDevInstance
  rw [Bool.and_eq_true, decide_eq_true_eq, decide_eq_true_eq]

theorem isSensor_disjoint {k : ℕ} (h : n ≠ k) (d : ThermalDevice) (hd : isSensor n d = true) :
    ¬ isSensor k d = true := by
  rw [isSensor_iff] at hd ⊢
  omega

theorem sensorData_eq (devList : List ThermalDevice) (n : ℕ) :
    sensorData devList n = (devList.find? (isSensor n)).map (·.driverData) := rfl

theorem sensorData_modify_self :
    sensorData (modifyDriverData (isSensor n) f devList) n = (sensorData devList n).map f :=
  find?_modifyDriverData_self (ignoresData_isSensor n)

theorem sensorData_modify_of_ne {k : ℕ} (h : k ≠ n) :
    sensorData (modifyDriverData (isSensor k) f devList) n = sensorData devList n := by
  rw [sensorData_eq, sensorData_eq,
    find?_modifyDriverData_of_disjoint (ignoresData_isSensor n) (isSensor_disjoint h)]

/-! ### The words of the region -/

/-- The word at an address. -/
def wordAt (p : ℕ) (o : ℕ → UInt8) : BitVec 16 := BitVec.ofNat 16 (ofLe (read o p 2))

theorem opWord_eq (o : ℕ → UInt8) (f : OpField) : opWord o f = wordAt f.offset o := rfl

theorem wordAt_putWord_self (p : ℕ) (w : BitVec 16) (o : ℕ → UInt8) :
    wordAt p (putWord p w o) = w := by
  have hread := read_write_self o p (leBytes 2 w.toNat)
  rw [length_leBytes] at hread
  rw [wordAt, putWord, hread, ofLe_leBytes (by exact w.isLt)]
  exact BitVec.ofNat_toNat 16 w

theorem wordAt_putWord_of_disjoint {p q : ℕ} (w : BitVec 16) (o : ℕ → UInt8)
    (h : p + 2 ≤ q ∨ q + 2 ≤ p) : wordAt p (putWord q w o) = wordAt p o := by
  unfold wordAt putWord
  rw [read_write_disjoint]
  rw [length_leBytes]
  omega

theorem length_thermals (devList : List ThermalDevice) :
    (thermals devList).length = maxThermalSensor := by
  rw [thermals, List.length_map, List.length_range]

theorem getElem?_thermals (devList : List ThermalDevice) (h : n < maxThermalSensor) :
    (thermals devList)[n]? = some (sensorData devList n) := by
  rw [thermals, List.getElem?_map, List.getElem?_range h, Option.map_some]

/-- **A slot of the temperatures** holds the next sensor that is there. -/
theorem opWord_updateThermalRegion (devList : List ThermalDevice) (o : ℕ → UInt8)
    (h : n < maxThermalSensor) :
    opWord (updateThermalRegion devList o) (systhermTemp1 n) =
      ((thermals devList).reduceOption[n]?).elim (opWord o (systhermTemp1 n)) (·.temperature) := by
  have hslot : ∀ k < maxThermalSensor,
      (systhermTemp1 k).offset = OpField.systherm0Temp1.offset + 2 * k := by
    decide
  have hwalk := Packed.get_walk (fun p (d : ThermalDriverData) => putWord p d.temperature) (· + 2)
    (fun k => OpField.systherm0Temp1.offset + 2 * k)
    (fun k => wordAt (OpField.systherm0Temp1.offset + 2 * k)) (·.temperature) maxThermalSensor
    (fun k => rfl) (fun k d o _ => wordAt_putWord_self _ _ _)
    (fun j k d o _ _ hne => wordAt_putWord_of_disjoint _ _ (by omega)) (thermals devList)
    (j := 0) (k := n) o (by rw [length_thermals, Nat.zero_add]) (by omega)
  rw [Nat.zero_add] at hwalk
  rw [opWord_eq, opWord_eq, hslot n h]
  exact hwalk

/-- A word the three stores of a sensor leave as it is. -/
theorem wordAt_putThresholds {p : ℕ} {q : ℕ × ℕ} (d : ThermalDriverData) (o : ℕ → UInt8)
    (h : p + 2 ≤ q.1 ∨ q.1 + 4 ≤ p) (h' : p + 2 ≤ q.2 ∨ q.2 + 2 ≤ p) :
    wordAt p (putThresholds q d o) = wordAt p o := by
  unfold putThresholds
  rw [wordAt_putWord_of_disjoint _ _ h', wordAt_putWord_of_disjoint _ _ (by omega),
    wordAt_putWord_of_disjoint _ _ (by omega)]

/-- The two pointers of `initialize_thermal_region` for slot `k`. -/
def thresholdSlots (k : ℕ) : ℕ × ℕ :=
  (OpField.sys0Alert31.offset + 4 * k, OpField.sys0CrittempThr1.offset + 2 * k)

/-- The alert slots end before the critical ones. -/
theorem thresholdSlots_lt {j k : ℕ} (hj : j < maxThermalSensor) :
    (thresholdSlots j).1 + 4 ≤ (thresholdSlots k).2 := by
  have hbase : OpField.sys0Alert31.offset + 16 ≤ OpField.sys0CrittempThr1.offset := by decide
  unfold maxThermalSensor at hj
  unfold thresholdSlots
  omega

/-- What `initialize_thermal_region` leaves at an address that belongs to slot `k`, for each of the
three kinds: `get` is the address, `val` the member. -/
theorem wordAt_initializeThermalRegion (devList : List ThermalDevice) (o : ℕ → UInt8)
    (addr : ℕ → ℕ) (val : ThermalDriverData → BitVec 16)
    (hself : ∀ k d o, k < maxThermalSensor →
      wordAt (addr k) (putThresholds (thresholdSlots k) d o) = val d)
    (hother : ∀ j k d o, j < maxThermalSensor → k < maxThermalSensor → j ≠ k →
      wordAt (addr k) (putThresholds (thresholdSlots j) d o) = wordAt (addr k) o)
    (h : n < maxThermalSensor) :
    wordAt (addr n) (initializeThermalRegion devList o) =
      ((thermals devList).reduceOption[n]?).elim (wordAt (addr n) o) val := by
  have hwalk := Packed.get_walk putThresholds (fun p => (p.1 + 4, p.2 + 2)) thresholdSlots
    (fun k => wordAt (addr k)) val maxThermalSensor (fun k => rfl) hself hother (thermals devList)
    (j := 0) (k := n) o (by rw [length_thermals, Nat.zero_add]) (by omega)
  rw [Nat.zero_add] at hwalk
  exact hwalk

/-- **A slot of the high thresholds.** -/
theorem opWord_alert31 (devList : List ThermalDevice) (o : ℕ → UInt8) (h : n < maxThermalSensor) :
    opWord (initializeThermalRegion devList o) (sysAlert31 n) =
      ((thermals devList).reduceOption[n]?).elim (opWord o (sysAlert31 n)) (·.highThreshold) := by
  have hslot : ∀ k < maxThermalSensor, (sysAlert31 k).offset = (thresholdSlots k).1 := by decide
  rw [opWord_eq, opWord_eq, hslot n h]
  refine wordAt_initializeThermalRegion devList o (fun k => (thresholdSlots k).1) _
    (fun k d o hk => ?_) (fun j k d o hj hk hne => ?_) h
  · have hlt := thresholdSlots_lt (k := k) hk
    unfold putThresholds
    rw [wordAt_putWord_of_disjoint _ _ (by omega), wordAt_putWord_of_disjoint _ _ (by omega)]
    exact wordAt_putWord_self _ _ _
  · have hlt := thresholdSlots_lt (k := j) hk
    refine wordAt_putThresholds d o ?_ (by omega)
    unfold thresholdSlots
    omega

/-- **A slot of the low thresholds.** -/
theorem opWord_alert11 (devList : List ThermalDevice) (o : ℕ → UInt8) (h : n < maxThermalSensor) :
    opWord (initializeThermalRegion devList o) (sysAlert11 n) =
      ((thermals devList).reduceOption[n]?).elim (opWord o (sysAlert11 n)) (·.lowThreshold) := by
  have hslot : ∀ k < maxThermalSensor, (sysAlert11 k).offset = (thresholdSlots k).1 + 2 := by
    decide
  rw [opWord_eq, opWord_eq, hslot n h]
  refine wordAt_initializeThermalRegion devList o (fun k => (thresholdSlots k).1 + 2) _
    (fun k d o hk => ?_) (fun j k d o hj hk hne => ?_) h
  · have hlt := thresholdSlots_lt (k := k) hk
    unfold putThresholds
    rw [wordAt_putWord_of_disjoint _ _ (by omega)]
    exact wordAt_putWord_self _ _ _
  · have hlt := thresholdSlots_lt (k := j) hk
    refine wordAt_putThresholds d o ?_ (by omega)
    unfold thresholdSlots
    omega

/-- **A slot of the critical thresholds.** -/
theorem opWord_crittempThr1 (devList : List ThermalDevice) (o : ℕ → UInt8)
    (h : n < maxThermalSensor) :
    opWord (initializeThermalRegion devList o) (sysCrittempThr1 n) =
      ((thermals devList).reduceOption[n]?).elim (opWord o (sysCrittempThr1 n)) (·.critical) := by
  have hslot : ∀ k < maxThermalSensor, (sysCrittempThr1 k).offset = (thresholdSlots k).2 := by
    decide
  rw [opWord_eq, opWord_eq, hslot n h]
  refine wordAt_initializeThermalRegion devList o (fun k => (thresholdSlots k).2) _
    (fun k d o hk => ?_) (fun j k d o hj hk hne => ?_) h
  · exact wordAt_putWord_self _ _ _
  · have hlt := thresholdSlots_lt (k := k) hj
    refine wordAt_putThresholds d o (by omega) ?_
    unfold thresholdSlots
    omega

/-! ### The status -/

/-- What a look-up and a call of `process_thermal` leave of the status. -/
theorem status_process (readData : BitVec 16 → Int32 × BitVec 16) (k : ℕ) (x : ThermalPass) :
    (x.process isDev readData k).status =
      ((x.thermals.devList.find? isDev).map (·.driverData)).elim x.status
        fun d => (processDevice d readData x.status k).2.2 := by
  unfold ThermalPass.process processThermal
  cases (x.thermals.devList.find? isDev).map (·.driverData) with
  | none => rfl
  | some d => rfl

/-- The other bits stay. -/
theorem getLsbD_status_process {k : ℕ} (h : k ≠ n) (readData : BitVec 16 → Int32 × BitVec 16)
    (x : ThermalPass) : (x.process isDev readData k).status.getLsbD n = x.status.getLsbD n := by
  rw [status_process]
  cases (x.thermals.devList.find? isDev).map (·.driverData) with
  | none => rfl
  | some d =>
      rw [Option.elim_some, processDevice_status]
      split
      · rfl
      · exact getLsbD_checkThermalCondition_of_ne h

/-- The other sensors stay. -/
theorem sensorData_process (hdis : ∀ d, isDev d = true → ¬ isSensor n d = true)
    (readData : BitVec 16 → Int32 × BitVec 16) (k : ℕ) (x : ThermalPass) :
    sensorData (x.process isDev readData k).thermals.devList n =
      sensorData x.thermals.devList n := by
  unfold ThermalPass.process processThermal
  cases (x.thermals.devList.find? isDev).map (·.driverData) with
  | none => rfl
  | some d =>
      simp only [Option.elim_some]
      rw [sensorData_eq, sensorData_eq,
        find?_modifyDriverData_of_disjoint (ignoresData_isSensor n) hdis]

/-- The sensor is there, can be read, and is out of its band. -/
def SensorAlerts (drivers : ThermalDrivers) (devList : List ThermalDevice) (n : ℕ) : Prop :=
  ∃ d, sensorData devList n = some d ∧ (drivers.sensor (n + 1) d.temperature).1 = 0 ∧
    OutOfBand { d with temperature := (drivers.sensor (n + 1) d.temperature).2 }

/-- A sensor sets its own bit. -/
theorem getLsbD_process_self (drivers : ThermalDrivers) (x : ThermalPass) (h : n < 16)
    (hclear : x.status.getLsbD n = false) :
    (x.process (isSensor n) (drivers.sensor (n + 1)) n).status.getLsbD n = true ↔
      SensorAlerts drivers x.thermals.devList n := by
  rw [status_process]
  unfold SensorAlerts
  rw [sensorData_eq]
  cases (x.thermals.devList.find? (isSensor n)).map (·.driverData) with
  | none =>
      rw [Option.elim_none, hclear]
      exact iff_of_false Bool.false_ne_true fun ⟨d, hd, _⟩ => Option.some_ne_none d hd.symm
  | some d =>
      rw [Option.elim_some, processDevice_status]
      constructor
      · intro hbit
        split at hbit
        · rw [hclear] at hbit
          exact absurd hbit Bool.false_ne_true
        · next hret =>
            exact ⟨d, rfl, not_not.1 hret, (getLsbD_checkThermalCondition h hclear).1 hbit⟩
      · rintro ⟨d', hd', hret, hband⟩
        obtain rfl := Option.some.inj hd'
        rw [if_neg (not_not_intro hret)]
        exact (getLsbD_checkThermalCondition h hclear).2 hband

/-- The bits of the sensors that are not processed, and their data, stay. -/
theorem sensors_of_not_mem (drivers : ThermalDrivers) {numbers : List ℕ} (x : ThermalPass)
    (h : n ∉ numbers) :
    (x.sensors drivers numbers).status.getLsbD n = x.status.getLsbD n ∧
      sensorData (x.sensors drivers numbers).thermals.devList n =
        sensorData x.thermals.devList n := by
  induction numbers generalizing x with
  | nil => exact ⟨rfl, rfl⟩
  | cons i numbers ih =>
      obtain ⟨hne, hrest⟩ := not_or.1 (List.mem_cons.not.1 h)
      have hstep := ih (x.process (isSensor i) (drivers.sensor (i + 1)) i) hrest
      rw [getLsbD_status_process (Ne.symm hne),
        sensorData_process (isSensor_disjoint (Ne.symm hne))] at hstep
      exact hstep

/-- **The bit of a sensor behind the loop.** -/
theorem getLsbD_sensors (drivers : ThermalDrivers) {numbers : List ℕ} (x : ThermalPass)
    (hnodup : numbers.Nodup) (h : n ∈ numbers) (hlt : n < 16)
    (hclear : x.status.getLsbD n = false) :
    (x.sensors drivers numbers).status.getLsbD n = true ↔
      SensorAlerts drivers x.thermals.devList n := by
  induction numbers generalizing x with
  | nil => exact absurd h List.not_mem_nil
  | cons i numbers ih =>
      obtain ⟨hi, hnodup⟩ := List.nodup_cons.1 hnodup
      by_cases hne : i = n
      · subst hne
        rw [← getLsbD_process_self drivers x hlt hclear]
        exact Bool.eq_iff_iff.1 (sensors_of_not_mem drivers _ hi).1
      · have hmem : n ∈ numbers := (List.mem_cons.1 h).resolve_left (Ne.symm hne)
        have hstep := ih (x.process (isSensor i) (drivers.sensor (i + 1)) i) hnodup hmem
          ((getLsbD_status_process hne _ x).trans hclear)
        unfold SensorAlerts at hstep ⊢
        rw [sensorData_process (isSensor_disjoint hne)] at hstep
        exact hstep

theorem status_controlFan (x : ThermalPass) : x.controlFan.status = x.status := by
  unfold ThermalPass.controlFan
  cases findDevByType x.thermals.devList .fan with
  | none => rfl
  | some fan => rfl

theorem status_readTacho (drivers : ThermalDrivers) (x : ThermalPass) :
    (x.readTacho drivers).status = x.status := by
  unfold ThermalPass.readTacho
  cases findDevByType x.thermals.devList .fan with
  | none => rfl
  | some fan => rfl

/-- **A bit of the status belongs to its sensor**, for any set of sensors. -/
theorem status_callback (drivers : ThermalDrivers) (thermalDisableD0ix : Bool) (x : Thermals)
    (h : n < maxThermalSensor) :
    (thermalCallback drivers thermalDisableD0ix x).status.getLsbD n = true ↔
      SensorAlerts drivers x.devList n := by
  have hlt : n < 16 := lt_of_lt_of_le h (by decide)
  have hne : cpu ≠ n := by
    unfold maxThermalSensor at h
    unfold cpu
    omega
  have hstatus : (thermalCallback drivers thermalDisableD0ix x).status =
      ((ThermalPass.sensors drivers (List.range maxThermalSensor) ⟨x, 0, 0⟩).process
        (isDevType .thermalCpu) drivers.cpu cpu).status := by
    unfold thermalCallback
    simp only
    split
    · rfl
    · rw [status_readTacho, status_controlFan]
  rw [hstatus, getLsbD_status_process hne]
  exact getLsbD_sensors drivers ⟨x, 0, 0⟩ List.nodup_range (List.mem_range.2 h) hlt
    BitVec.getLsbD_zero

theorem mem_ecliteCheckThermalEvent {e e' : BitVec 32} {b : Bool} :
    e ∈ ecliteCheckThermalEvent b e' ↔ b = true ∧ e = e' := by
  unfold ecliteCheckThermalEvent
  cases b with
  | false => exact iff_of_false List.not_mem_nil fun h => Bool.false_ne_true h.1
  | true => exact List.mem_singleton.trans (and_iff_right rfl).symm

/-- An event belongs to its bit. -/
theorem mem_ecliteSendThermalEvent (h : n < maxThermalSensor) (status : BitVec 16) :
    systempAlert n ∈ ecliteSendThermalEvent status ↔ status.getLsbD n = true := by
  unfold ecliteSendThermalEvent
  simp only [List.mem_append, mem_ecliteCheckThermalEvent]
  unfold maxThermalSensor at h
  interval_cases n
  all_goals simp [systempAlert, cputempUpdate]

/-! ### The commands of the host -/

theorem storeSensors_of_not_mem (g : ℕ → ThermalDriverData → ThermalDriverData) {numbers : List ℕ}
    (h : n ∉ numbers) : sensorData (storeSensors g numbers devList) n = sensorData devList n := by
  induction numbers generalizing devList with
  | nil => rfl
  | cons i numbers ih =>
      obtain ⟨hne, hrest⟩ := not_or.1 (List.mem_cons.not.1 h)
      exact (ih hrest).trans (sensorData_modify_of_ne (Ne.symm hne))

/-- **The loop of a command** stores what it stores in the sensor of its index. -/
theorem sensorData_storeSensors (g : ℕ → ThermalDriverData → ThermalDriverData) {numbers : List ℕ}
    (hnodup : numbers.Nodup) (h : n ∈ numbers) :
    sensorData (storeSensors g numbers devList) n = (sensorData devList n).map (g n) := by
  induction numbers generalizing devList with
  | nil => exact absurd h List.not_mem_nil
  | cons i numbers ih =>
      obtain ⟨hi, hnodup⟩ := List.nodup_cons.1 hnodup
      by_cases hne : i = n
      · subst hne
        exact (storeSensors_of_not_mem g hi).trans sensorData_modify_self
      · have hmem : n ∈ numbers := (List.mem_cons.1 h).resolve_left (Ne.symm hne)
        have hstep : sensorData (storeSensors g numbers
            (modifyDriverData (isSensor i) (g i) devList)) n = _ := ih hnodup hmem
        rw [sensorData_modify_of_ne hne] at hstep
        exact hstep

theorem alertWords (o : ℕ → UInt8) (stack : ℕ → BitVec 16) : ∀ n < maxThermalSensor,
    thermalCommandWords ecliteOsEventThermAlertThUpdate o stack (2 * n) =
        opWord o (sysAlert31 n) ∧
      thermalCommandWords ecliteOsEventThermAlertThUpdate o stack (2 * n + 1) =
        opWord o (sysAlert11 n) := by
  unfold maxThermalSensor
  intro n h
  interval_cases n
  all_goals exact ⟨rfl, rfl⟩

theorem criticalWords (o : ℕ → UInt8) (stack : ℕ → BitVec 16) : ∀ n < maxThermalSensor,
    thermalCommandWords ecliteOsEventCritTempUpdate o stack n = opWord o (sysCrittempThr1 n) := by
  unfold maxThermalSensor
  intro n h
  interval_cases n
  all_goals rfl

theorem ecliteOsEvent_ne : ecliteOsEventThermAlertThUpdate ≠ ecliteOsEventPwmUpdate ∧
    ecliteOsEventCritTempUpdate ≠ ecliteOsEventPwmUpdate ∧
      ecliteOsEventCritTempUpdate ≠ ecliteOsEventThermAlertThUpdate := by
  decide

/-- **The command for the alerts**, when there is a fan. -/
theorem sensorData_alertCommand (stack : ℕ → BitVec 16) (o : ℕ → UInt8)
    (hfan : (findDevByType x.devList .fan).isSome = true) (h : n < maxThermalSensor) :
    sensorData (processThermalCommand ecliteOsEventThermAlertThUpdate o stack x).devList n =
      (sensorData x.devList n).map (alertThresholds o n) := by
  have hsome : ¬ (findDevByType x.devList .fan).isNone = true := by
    rw [Option.isNone_iff_eq_none]
    exact Option.isSome_iff_ne_none.1 hfan
  unfold processThermalCommand thermalCommand
  rw [if_neg hsome, if_neg ecliteOsEvent_ne.1, if_pos rfl]
  simp only
  rw [sensorData_storeSensors _ List.nodup_range (List.mem_range.2 h),
    (alertWords o stack n h).1, (alertWords o stack n h).2]
  rfl

/-- **The command for the critical temperatures**, when there is a fan. -/
theorem sensorData_criticalCommand (stack : ℕ → BitVec 16) (o : ℕ → UInt8)
    (hfan : (findDevByType x.devList .fan).isSome = true) (h : n < maxThermalSensor) :
    sensorData (processThermalCommand ecliteOsEventCritTempUpdate o stack x).devList n =
      (sensorData x.devList n).map (criticalThreshold o n) := by
  have hsome : ¬ (findDevByType x.devList .fan).isNone = true := by
    rw [Option.isNone_iff_eq_none]
    exact Option.isSome_iff_ne_none.1 hfan
  unfold processThermalCommand thermalCommand
  rw [if_neg hsome, if_neg ecliteOsEvent_ne.2.1, if_neg ecliteOsEvent_ne.2.2, if_pos rfl]
  simp only
  rw [sensorData_storeSensors _ List.nodup_range (List.mem_range.2 h), criticalWords o stack n h]
  rfl

/-- **A command is lost** when there is no fan. -/
theorem processThermalCommand_no_fan (event : ℕ) (stack : ℕ → BitVec 16) (o : ℕ → UInt8)
    (hfan : (findDevByType x.devList .fan).isNone = true) :
    processThermalCommand event o stack x = x := by
  unfold processThermalCommand thermalCommand
  rw [if_pos hfan]

/-! ### The first sensors -/

theorem isSome_join_thermals (devList : List ThermalDevice) (n : ℕ) :
    (((thermals devList)[n]?).join).isSome = true ↔
      n < maxThermalSensor ∧ (sensorData devList n).isSome = true := by
  rcases Nat.lt_or_ge n maxThermalSensor with h | h
  · rw [getElem?_thermals devList h, Option.join_some, and_iff_right h]
  · rw [List.getElem?_eq_none (by rwa [length_thermals])]
    exact iff_of_false Bool.false_ne_true fun hn => absurd hn.1 (Nat.not_lt.2 h)

/-- No sensor is missing before another one. -/
theorem gapFree_thermals_iff (devList : List ThermalDevice) :
    Packed.GapFree (thermals devList) ↔ ∀ i j, i ≤ j → j < maxThermalSensor →
      (sensorData devList j).isSome = true → (sensorData devList i).isSome = true := by
  rw [Packed.gapFree_iff]
  refine forall_congr' fun i => forall_congr' fun j => forall_congr' fun hij => ?_
  rw [isSome_join_thermals, isSome_join_thermals]
  exact ⟨fun h hj hsome => (h ⟨hj, hsome⟩).2,
    fun h hsome => ⟨lt_of_le_of_lt hij hsome.1, h hsome.1 hsome.2⟩⟩

/-- Without a gap every slot is the one of its sensor. -/
theorem reduceOption_thermals (hgap : Packed.GapFree (thermals devList))
    (h : n < maxThermalSensor) :
    (thermals devList).reduceOption[n]? = sensorData devList n := by
  rw [Packed.getElem?_reduceOption hgap, getElem?_thermals devList h, Option.join_some]

/-- The first sensors and a fan are enough. -/
theorem slotAgreement_of_first {present : Finset ℕ} {fan : Bool} (h : FirstSensors present fan) :
    SlotAgreement present fan := by
  intro drivers thermalDisableD0ix stack x o hpresent hfan
  have hgap : Packed.GapFree (thermals x.devList) := by
    refine (gapFree_thermals_iff _).2 fun i j hij hj hsome => ?_
    rw [hpresent i (lt_of_le_of_lt hij hj)]
    exact h.initial i j hij hj ((hpresent j hj).1 hsome)
  have hnone : fan = false → ∀ n < maxThermalSensor, sensorData x.devList n = none := by
    intro hf n hn
    have hnot : n ∉ present := h.fan.resolve_left (Bool.not_eq_true _ ▸ hf) n hn
    rw [← hpresent n hn, Bool.not_eq_true, Option.isSome_eq_false_iff,
      Option.isNone_iff_eq_none] at hnot
    exact hnot
  have hlost : fan = false → ∀ event, processThermalCommand event o stack x = x := by
    intro hf event
    refine processThermalCommand_no_fan event stack o ?_
    rwa [hf, Option.isSome_eq_false_iff] at hfan
  constructor
  · intro n hn
    rw [opWord_updateThermalRegion _ _ hn, reduceOption_thermals hgap hn]
  · intro n hn
    rw [opWord_alert31 _ _ hn, reduceOption_thermals hgap hn]
  · intro n hn
    rw [opWord_alert11 _ _ hn, reduceOption_thermals hgap hn]
  · intro n hn
    rw [opWord_crittempThr1 _ _ hn, reduceOption_thermals hgap hn]
  · exact fun n hn => status_callback drivers thermalDisableD0ix x hn
  · exact fun n hn status => mem_ecliteSendThermalEvent hn status
  · intro n hn
    cases fan with
    | true => exact sensorData_alertCommand stack o hfan hn
    | false =>
        rw [hlost rfl, hnone rfl n hn]
        rfl
  · intro n hn
    cases fan with
    | true => exact sensorData_criticalCommand stack o hfan hn
    | false =>
        rw [hlost rfl, hnone rfl n hn]
        rfl

/-! ### A platform for a set of sensors -/

/-- Data in which no member is zero. -/
def oneData : ThermalDriverData := ⟨1, 1, 1, 1, 1, 1⟩

/-- A platform with the given sensors. -/
def platformOf (present : Finset ℕ) (fan : Bool) : Thermals where
  devList := ((List.range maxThermalSensor).filter (· ∈ present)).map
      (fun n => ⟨.thermal, n + 1, oneData⟩) ++
    if fan = true then [⟨.fan, 1, oneData⟩] else []
  fanWrites := []

theorem mem_platformOf {present : Finset ℕ} {fan : Bool} {d : ThermalDevice} :
    d ∈ (platformOf present fan).devList ↔
      (∃ n, (n < maxThermalSensor ∧ n ∈ present) ∧ ⟨.thermal, n + 1, oneData⟩ = d) ∨
        (fan = true ∧ d = ⟨.fan, 1, oneData⟩) := by
  unfold platformOf
  rw [List.mem_append, List.mem_map]
  simp only [List.mem_filter, List.mem_range, decide_eq_true_eq]
  refine or_congr_right ?_
  split
  · next hfan => rw [List.mem_singleton, and_iff_right hfan]
  · next hfan => exact iff_of_false List.not_mem_nil fun h => hfan h.1

theorem sensorData_platformOf (present : Finset ℕ) (fan : Bool) {d : ThermalDriverData}
    (h : sensorData (platformOf present fan).devList n = some d) : d = oneData := by
  obtain ⟨dev, hdev, rfl⟩ := Option.map_eq_some_iff.1 h
  rcases mem_platformOf.1 (List.mem_of_find?_eq_some hdev) with ⟨k, -, rfl⟩ | ⟨-, rfl⟩
  · rfl
  · rfl

theorem isSome_sensorData_platformOf (present : Finset ℕ) (fan : Bool)
    (h : n < maxThermalSensor) :
    (sensorData (platformOf present fan).devList n).isSome = true ↔ n ∈ present := by
  rw [sensorData_eq, Option.isSome_map, List.find?_isSome]
  constructor
  · rintro ⟨d, hd, hsensor⟩
    rw [isSensor_iff] at hsensor
    rcases mem_platformOf.1 hd with ⟨k, ⟨-, hk⟩, rfl⟩ | ⟨-, rfl⟩
    · obtain rfl := Nat.succ.inj hsensor.2
      exact hk
    · exact absurd hsensor.1 (by decide)
  · exact fun hn => ⟨⟨.thermal, n + 1, oneData⟩, mem_platformOf.2 (Or.inl ⟨n, ⟨h, hn⟩, rfl⟩),
      isSensor_iff.2 ⟨rfl, rfl⟩⟩

theorem isSome_fan_platformOf (present : Finset ℕ) (fan : Bool) :
    (findDevByType (platformOf present fan).devList .fan).isSome = fan := by
  rw [Bool.eq_iff_iff, findDevByType, List.find?_isSome]
  constructor
  · rintro ⟨d, hd, htype⟩
    rcases mem_platformOf.1 hd with ⟨k, -, rfl⟩ | ⟨hfan, -⟩
    · exact absurd htype Bool.false_ne_true
    · exact hfan
  · exact fun hfan => ⟨⟨.fan, 1, oneData⟩, mem_platformOf.2 (Or.inr ⟨hfan, rfl⟩), rfl⟩

/-- A region that has not been written. -/
def zeroRegion : ℕ → UInt8 := fun _ => 0

theorem opWord_zeroRegion (f : OpField) : opWord zeroRegion f = 0 := rfl

/-- The first sensors and a fan are necessary. -/
theorem first_of_slotAgreement {present : Finset ℕ} {fan : Bool}
    (h : SlotAgreement present fan) : FirstSensors present fan := by
  have hagree := h ⟨fun _ t => (0, t), fun t => (0, t), fun t => (0, t)⟩ true (fun _ => 0)
    (platformOf present fan) zeroRegion (fun n hn => isSome_sensorData_platformOf present fan hn)
    (isSome_fan_platformOf present fan)
  constructor
  · have hgap : Packed.GapFree (thermals (platformOf present fan).devList) := by
      refine Packed.gapFree_of_slots fun k hk => ?_
      have hlt : k < maxThermalSensor := by
        rw [← length_thermals (platformOf present fan).devList]
        exact (List.getElem?_eq_some_iff.1 hk).1
      rw [getElem?_thermals _ hlt] at hk
      have hslot := hagree.temperature k hlt
      rw [opWord_updateThermalRegion _ _ hlt, Option.some.inj hk, opWord_zeroRegion,
        Option.elim_none] at hslot
      -- what stands in the slot would be the temperature of another sensor
      cases hval : (thermals (platformOf present fan).devList).reduceOption[k]? with
      | none => rfl
      | some d =>
          have hmem := List.reduceOption_mem_iff.1 (List.mem_of_getElem? hval)
          obtain ⟨n, -, hn⟩ := List.mem_map.1 hmem
          rw [hval, sensorData_platformOf present fan hn] at hslot
          exact absurd hslot (by decide)
    intro i j hij hj hmem
    have hsome := (gapFree_thermals_iff _).1 hgap i j hij hj
      ((isSome_sensorData_platformOf present fan hj).2 hmem)
    exact (isSome_sensorData_platformOf present fan (lt_of_le_of_lt hij hj)).1 hsome
  · refine or_iff_not_imp_left.2 fun hfan n hn hmem => ?_
    obtain ⟨d, hd⟩ := Option.isSome_iff_exists.1
      ((isSome_sensorData_platformOf present fan hn).2 hmem)
    have hnone : (findDevByType (platformOf present fan).devList .fan).isNone = true := by
      rw [← Option.isSome_eq_false_iff, isSome_fan_platformOf, ← Bool.not_eq_true]
      exact hfan
    have hthr := hagree.alertThresholds n hn
    rw [processThermalCommand_no_fan _ _ _ hnone, hd, sensorData_platformOf present fan hd,
      Option.map_some] at hthr
    have hhigh := congrArg ThermalDriverData.highThreshold (Option.some.inj hthr)
    exact absurd (hhigh.trans (opWord_zeroRegion _)) (by decide)

/-- **The slots agree if and only if the sensors that are there are the first ones, and there is a
fan or no sensor.** -/
theorem slotAgreement_iff (present : Finset ℕ) (fan : Bool) :
    SlotAgreement present fan ↔ FirstSensors present fan :=
  ⟨first_of_slotAgreement, slotAgreement_of_first⟩

/-- The second sensor without the first one: its temperature stands in the first slot. -/
theorem not_slotAgreement_second :
    ¬ ∀ (present : Finset ℕ) (fan : Bool), SlotAgreement present fan := by
  intro h
  have hfirst := first_of_slotAgreement (h {1} true)
  exact absurd (hfirst.initial 0 1 (by decide) (by decide) (by decide)) (by decide)

end PseFw.Eclite
