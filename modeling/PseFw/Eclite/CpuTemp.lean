/-
**The temperature of the processor.**

The processor reports how far it is below TjMax, its highest temperature, in units of a sixty-fourth
of a degree.  ECLite asks for TjMax once and adds it to every reading.  The temperature is a
variable of sixteen bits, and the function that reads it gets a pointer to a byte: it stores the
lower half, and the upper half stays what it was.

Main definitions:

* `peciGetTemp`, `getTjMax`, `pmcCommand` — the requests to the PMC;
* `getCpuTemperature` — the reading;
* `requestTjMax` — the request for TjMax, at the first pass of the framework;
* `DecodesCpu` — the stored temperature is TjMax plus the reading.

Main results:

* `toInt_getCpuTemperature` — what a reading stores, **modulo 256**;
* `decodesCpu_iff` — **the temperature is right if and only if its upper half is the one that was
  stored before**;
* `cpuTemperature_byte` — from a variable that starts with zero, what is stored is a byte.
-/

import PseFw.Eclite.Battery
import PseFw.Eclite.Thermal

set_option relaxedAutoImplicit false
set_option autoImplicit false

namespace PseFw.Eclite

/-! ### The requests -/

/-- What `pmc_sync_send_msg` returns, and what stands in `peci_msg.u.msg` afterwards. -/
structure PeciReply where
  ret : Int32
  msg : ℕ → BitVec 8

/-- `ERROR`. -/
def errorCode : Int32 := -1

/-- `PECI_FAIL_SAFE_TJMAX`. -/
def peciFailSafeTjmax : BitVec 8 := 100

/-- `COMPLETION_CODE`. -/
def completionCode : BitVec 8 := 0x40

/-- `RAW_TO_INT`. -/
def rawToInt : ℕ := 6

/-- `raw_temp`, of the bytes `res_lsb` and `res_msb` of the answer. -/
def PeciReply.rawTemp (reply : PeciReply) : BitVec 16 := reply.msg 6 ++ reply.msg 5

/-- `data[2]` of `struct read_package_res_t`. -/
def PeciReply.tjMax (reply : PeciReply) : BitVec 8 := reply.msg 8

/-- `peci_get_temp`, with the result and the byte behind the pointer.  `TJ_MAX` is signed. -/
def peciGetTemp (tjMax : BitVec 8) (reply : PeciReply) (temp : BitVec 8) : Int32 × BitVec 8 :=
  if reply.ret ≠ 0 then (reply.ret, temp)
  else (0, BitVec.ofInt 8 (tjMax.toInt + reply.rawTemp.toInt >>> rawToInt))

/-- `peci_read_package`, its result. -/
def peciReadPackage (reply : PeciReply) : Int32 :=
  if reply.ret ≠ 0 then reply.ret
  else if reply.msg 5 ≠ completionCode then errorCode
  else 0

/-- `get_tj_max`. -/
def getTjMax (reply : PeciReply) : Int32 × BitVec 8 :=
  if peciReadPackage reply ≠ 0 then (peciReadPackage reply, peciFailSafeTjmax)
  else (0, reply.tjMax)

/-- The requests `pmc_command` knows. -/
inductive PmcRequest
  | getTemp
  | getTjMax
  | sendPowerStateChange
  | other
  deriving DecidableEq, Repr

/-- `pmc_command`: the result, the byte in the buffer, and `tj_max` of `eclite_pmc.c`. -/
def pmcCommand (msgType : PmcRequest) (reply : PeciReply) (buf tjMax : BitVec 8) :
    Int32 × BitVec 8 × BitVec 8 :=
  match msgType with
  | .getTemp => ((peciGetTemp tjMax reply buf).1, (peciGetTemp tjMax reply buf).2, tjMax)
  | .getTjMax => ((getTjMax reply).1, (getTjMax reply).2, (getTjMax reply).2)
  | .sendPowerStateChange => (reply.ret, buf, tjMax)
  | .other => (errorCode, buf, tjMax)

/-- `get_cpu_temperature`: the pointer to the sixteen bits is turned into one to a byte. -/
def getCpuTemperature (ecliteSxState : PmResetType) (ecliteS0ixState : Bool) (reply : PeciReply)
    (tjMax : BitVec 8) (data : BitVec 16) : Int32 × BitVec 16 :=
  if ecliteSxState ≠ .s0 then (errorCode, data)
  else if ecliteS0ixState = true then (errorCode, data)
  else
    let r := pmcCommand .getTemp reply (data.extractLsb' 0 8) tjMax
    (r.1, data.extractLsb' 8 8 ++ r.2.1)

/-- The variables for TjMax: `tj_flag` and `tj_max` of the framework, and `tj_max` of
`eclite_pmc.c`. -/
structure TjMaxVars where
  tjFlag : Bool
  frameworkTjMax : BitVec 8
  tjMax : BitVec 8
  deriving DecidableEq, Repr

/-- The request for TjMax at the start of `thermal_callback`. -/
def requestTjMax (reply : PeciReply) (v : TjMaxVars) : TjMaxVars :=
  if v.tjFlag = true then v
  else
    let r := pmcCommand .getTjMax reply v.frameworkTjMax v.tjMax
    { tjFlag := decide (r.1 = 0), frameworkTjMax := r.2.1, tjMax := r.2.2 }

/-! ### What is wanted -/

/-- TjMax plus the integer part of the reading. -/
def cpuDegrees (tjMax : BitVec 8) (raw : BitVec 16) : ℤ := tjMax.toNat + raw.toInt / 64

/-- An answer in which the package has reported its TjMax. -/
structure TjMaxReport where
  reply : PeciReply
  success : peciReadPackage reply = 0

/-- **Behind a successful reading the temperature is TjMax plus the reading.** -/
def DecodesCpu (ecliteSxState : PmResetType) (ecliteS0ixState : Bool) (report : TjMaxReport)
    (reply : PeciReply) (v : TjMaxVars) (data : BitVec 16) : Prop :=
  let v := requestTjMax report.reply { v with tjFlag := false }
  let r := getCpuTemperature ecliteSxState ecliteS0ixState reply v.tjMax data
  r.1 = 0 → r.2.toInt = cpuDegrees report.reply.tjMax reply.rawTemp

variable {tjMax : BitVec 8} {data : BitVec 16} {reply : PeciReply} {v : TjMaxVars}
variable {ecliteSxState : PmResetType} {ecliteS0ixState : Bool}

/-! ### The bytes -/

/-- A signed word is its upper half times 256 and its lower half. -/
theorem toInt_halves (hi lo : BitVec 8) : (hi ++ lo).toInt = 256 * hi.toInt + lo.toNat := by
  rw [BitVec.toInt_append]
  rfl

theorem toInt_upper (data : BitVec 16) : (data.extractLsb' 8 8).toInt = data.toInt / 256 := by
  have hhalves := toInt_halves (data.extractLsb' 8 8) (data.extractLsb' 0 8)
  have hdata : data.extractLsb' 8 8 ++ data.extractLsb' 0 8 = data :=
    @BitVec.extractLsb'_append_extractLsb' 8 8 data
  rw [hdata] at hhalves
  have hlt := (data.extractLsb' 0 8).isLt
  omega

/-- That TjMax is signed does not matter for a byte. -/
theorem toNat_peciTemp (tjMax : BitVec 8) (raw : BitVec 16) :
    ((BitVec.ofInt 8 (tjMax.toInt + raw.toInt >>> rawToInt)).toNat : ℤ) =
      cpuDegrees tjMax raw % 256 := by
  have hshift : raw.toInt >>> rawToInt = raw.toInt / 64 := Int.shiftRight_eq_div_pow _ _
  rw [BitVec.toNat_ofInt, Int.toNat_of_nonneg (Int.emod_nonneg _ (by decide)), hshift,
    BitVec.toInt_eq_toNat_cond, cpuDegrees]
  split
  · rfl
  · omega

/-! ### The reading -/

theorem errorCode_ne : ¬ errorCode = 0 := by decide

/-- A reading succeeds in S0, outside of S0ix, if the PMC answers. -/
theorem getCpuTemperature_success_iff :
    (getCpuTemperature ecliteSxState ecliteS0ixState reply tjMax data).1 = 0 ↔
      ecliteSxState = .s0 ∧ ecliteS0ixState = false ∧ reply.ret = 0 := by
  unfold getCpuTemperature
  by_cases hsx : ecliteSxState = .s0
  · rw [if_neg (not_not_intro hsx), and_iff_right hsx]
    by_cases hs0ix : ecliteS0ixState = true
    · rw [if_pos hs0ix, hs0ix]
      exact iff_of_false errorCode_ne fun h => Bool.false_ne_true h.1.symm
    · rw [if_neg hs0ix, and_iff_right (Bool.not_eq_true _ ▸ hs0ix)]
      unfold pmcCommand peciGetTemp
      simp only
      by_cases hret : reply.ret = 0
      · rw [if_neg (not_not_intro hret)]
        exact iff_of_true rfl hret
      · rw [if_pos hret]
  · rw [if_pos hsx]
    exact iff_of_false errorCode_ne fun h => hsx h.1

/-- **What a successful reading stores**: a new lower half. -/
theorem toInt_getCpuTemperature (hret : reply.ret = 0) :
    (getCpuTemperature .s0 false reply tjMax data).2.toInt =
      256 * (data.toInt / 256) + cpuDegrees tjMax reply.rawTemp % 256 := by
  unfold getCpuTemperature pmcCommand peciGetTemp
  rw [if_neg (not_not_intro rfl), if_neg Bool.false_ne_true, if_neg (not_not_intro hret)]
  simp only
  rw [toInt_halves, toInt_upper, toNat_peciTemp]

/-- What is stored for TjMax is what the package has reported. -/
theorem tjMax_requestTjMax (report : TjMaxReport) (h : v.tjFlag = false) :
    (requestTjMax report.reply v).tjMax = report.reply.tjMax := by
  unfold requestTjMax pmcCommand getTjMax
  rw [if_neg (Bool.eq_false_iff.1 h), if_neg (not_not_intro report.success)]

/-- **The temperature is right if and only if its upper half is the one that was stored before.** -/
theorem decodesCpu_iff (ecliteSxState : PmResetType) (ecliteS0ixState : Bool)
    (report : TjMaxReport) (reply : PeciReply) (v : TjMaxVars) (data : BitVec 16) :
    DecodesCpu ecliteSxState ecliteS0ixState report reply v data ↔
      (ecliteSxState = .s0 ∧ ecliteS0ixState = false ∧ reply.ret = 0 →
        data.toInt / 256 = cpuDegrees report.reply.tjMax reply.rawTemp / 256) := by
  unfold DecodesCpu
  simp only
  rw [getCpuTemperature_success_iff, tjMax_requestTjMax report rfl]
  refine forall_congr' fun hsuccess => ?_
  obtain ⟨rfl, rfl, hret⟩ := hsuccess
  rw [toInt_getCpuTemperature hret]
  have hdiv := Int.mul_ediv_add_emod (cpuDegrees report.reply.tjMax reply.rawTemp) 256
  omega

/-- A reading does not touch the upper half. -/
theorem upper_getCpuTemperature : (getCpuTemperature ecliteSxState ecliteS0ixState reply tjMax
    data).2.toInt / 256 = data.toInt / 256 := by
  unfold getCpuTemperature
  split
  · rfl
  · split
    · rfl
    · simp only
      rw [toInt_halves, toInt_upper]
      have hlt := (pmcCommand .getTemp reply (data.extractLsb' 0 8) tjMax).2.1.isLt
      omega

/-- A reading with what is found outside. -/
structure CpuRead where
  ecliteSxState : PmResetType
  ecliteS0ixState : Bool
  reply : PeciReply
  tjMax : BitVec 8

/-- The temperature behind a sequence of readings. -/
def cpuTemperature (rs : List CpuRead) (data : BitVec 16) : BitVec 16 :=
  rs.foldl (fun data r =>
    (getCpuTemperature r.ecliteSxState r.ecliteS0ixState r.reply r.tjMax data).2) data

/-- **From a variable that starts with zero, what is stored is a byte**, below zero it is too large
by 256. -/
theorem cpuTemperature_byte (rs : List CpuRead) :
    0 ≤ (cpuTemperature rs 0).toInt ∧ (cpuTemperature rs 0).toInt < 256 := by
  have hupper : ∀ data, (cpuTemperature rs data).toInt / 256 = data.toInt / 256 := by
    induction rs with
    | nil => exact fun _ => rfl
    | cons r rs ih => exact fun data => (ih _).trans upper_getCpuTemperature
  have hzero : (cpuTemperature rs 0).toInt / 256 = 0 := (hupper 0).trans (by decide)
  omega

/-- TjMax is 100 degrees, and the processor is 101 degrees below it: 255 degrees are stored. -/
theorem not_decodesCpu_below_zero : ¬ ∀ (ecliteSxState : PmResetType) (ecliteS0ixState : Bool)
    (report : TjMaxReport) (reply : PeciReply) (v : TjMaxVars) (data : BitVec 16),
    DecodesCpu ecliteSxState ecliteS0ixState report reply v data := by
  intro h
  have hdecodes := h .s0 false ⟨⟨0, fun i => if i = 5 then 0x40 else 100⟩, by decide⟩
    ⟨0, fun i => if i = 5 then 0xC0 else 0xE6⟩ ⟨false, 0, 0⟩ 0
  revert hdecodes
  unfold DecodesCpu
  decide

end PseFw.Eclite
