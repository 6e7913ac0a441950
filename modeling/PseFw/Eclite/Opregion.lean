/-
**The operation region of ECLite, and the blocks the host may write to.**

The host and ECLite share a region of 384 bytes.  A write of the host is checked against a table of
eight blocks, whose first and last bytes are computed from the members of the region.

Main definitions:

* `OpField`, `OpField.offset` — the layout of `struct eclite_opregion_t`;
* `opregionWrChkTbl` — the table;
* `ecliteVerifyOpregWrAccess` — the check;
* `InBlock`, `Fits` — a byte, or a range, that lies in one of the blocks.

Main results:

* `sizeof_ecliteOpregion` — the members fill the region;
* `verify_iff_fits` — **the check accepts what lies in one block.**
-/

import PseFw.Lib.Memory

set_option relaxedAutoImplicit false
set_option autoImplicit false

namespace PseFw.Eclite

open Mem

/-! ### The layout -/

/-- The members of `struct eclite_opregion_t`, in the order of the source; those of the structures
in it are named one by one. -/
inductive OpField
  | state
  | presetRate
  | remainingCapacity
  | batteryVoltage
  | designCapacity
  | fullChargeCapacity
  | designVoltage
  | cycleCount
  | designCapacityWarning
  | designCapacityLow
  | tripPoint0
  | tripPoint1
  | dischargeRate
  | warningLevel
  | criticalLevel
  | reserved
  -- here `struct battery` ends
  | reserved1
  | systherm0Temp1
  | systherm1Temp1
  | systherm2Temp1
  | systherm3Temp1
  | reserved2
  | reserved3
  | reserved4
  | sys0Alert31
  | sys0Alert11
  | sys1Alert31
  | sys1Alert11
  | sys2Alert31
  | sys2Alert11
  | sys3Alert31
  | sys3Alert11
  | reserved5
  | reserved6
  | reserved7
  | sys0CrittempThr1
  | sys1CrittempThr1
  | sys2CrittempThr1
  | sys3CrittempThr1
  | reserved8
  | reserved9
  | reserved10
  | cpuCrittempThr
  | cpuTemperature
  | chg1Cc
  | chg1Cv
  | chg1Ilim
  | reserved11
  | reserved12
  | reserved13
  | reserved14
  | reserved15
  | psrc
  | reserved16
  | reserved17
  | reserved18
  | reserved19
  | reserved20
  | reserved21
  | reserved22
  -- `struct ucsi_info_in`
  | msgOutInfo
  | controlInfo
  | msgInInfo
  | cciInfo
  | ucsiVersion
  | reserved24
  | reserved25
  | reserved26
  | reserved27
  | pwmDutycyle
  | tachoRpm
  | reserved28
  | eventNotifyConfig
  | reserved29
  deriving DecidableEq, Repr

/-- The size of a member in bytes; the members that are not named here are of type `uint16_t`. -/
def OpField.size : OpField → ℕ
  | .reserved => 4 * 2
  | .reserved1 => 19 * 2
  | .reserved4 | .reserved16 => 6 * 2
  | .reserved5 | .reserved6 => 2 * 2
  | .reserved7 => 12 * 2
  | .reserved10 | .reserved19 | .reserved21 => 7 * 2
  | .reserved14 => 9 * 2
  | .msgOutInfo | .msgInInfo => 16
  | .controlInfo => 8
  | .cciInfo => 4
  | .reserved24 => 8 * 2
  | .reserved28 | .eventNotifyConfig => 1
  | .reserved29 => 25 * 2
  | _ => 2

/-- The members of `struct eclite_opregion_t`, in the order of the source. -/
def ecliteOpregionFields : List OpField :=
  [.state, .presetRate, .remainingCapacity, .batteryVoltage, .designCapacity, .fullChargeCapacity,
    .designVoltage, .cycleCount, .designCapacityWarning, .designCapacityLow, .tripPoint0,
    .tripPoint1, .dischargeRate, .warningLevel, .criticalLevel, .reserved, .reserved1,
    .systherm0Temp1, .systherm1Temp1, .systherm2Temp1, .systherm3Temp1, .reserved2, .reserved3,
    .reserved4, .sys0Alert31, .sys0Alert11, .sys1Alert31, .sys1Alert11, .sys2Alert31,
    .sys2Alert11, .sys3Alert31, .sys3Alert11, .reserved5, .reserved6, .reserved7,
    .sys0CrittempThr1, .sys1CrittempThr1, .sys2CrittempThr1, .sys3CrittempThr1, .reserved8,
    .reserved9, .reserved10, .cpuCrittempThr, .cpuTemperature, .chg1Cc, .chg1Cv, .chg1Ilim,
    .reserved11, .reserved12, .reserved13, .reserved14, .reserved15, .psrc, .reserved16,
    .reserved17, .reserved18, .reserved19, .reserved20, .reserved21, .reserved22, .msgOutInfo,
    .controlInfo, .msgInInfo, .cciInfo, .ucsiVersion, .reserved24, .reserved25, .reserved26,
    .reserved27, .pwmDutycyle, .tachoRpm, .reserved28, .eventNotifyConfig, .reserved29]

/-- `offsetof(struct eclite_opregion_t, …)`. -/
def OpField.offset (f : OpField) : ℕ := Mem.offset OpField.size ecliteOpregionFields f

/-- `MAX_OPR_LENGTH`. -/
def maxOprLength : ℕ := 0x180

/-- The members fill the region. -/
theorem sizeof_ecliteOpregion : (ecliteOpregionFields.map OpField.size).sum = maxOprLength := by
  decide

/-! ### The table of the blocks -/

/-- An entry of the table: the first and the last byte of a block, and its size. -/
structure EcliteOpregWrAttr where
  offsetStart : ℕ
  offsetEnd : ℕ
  blockSz : ℕ
  le : offsetStart ≤ offsetEnd
  blockSz_eq : blockSz = offsetEnd - offsetStart + 1

/-- The block from the start of one member to the second byte of another. -/
def EcliteOpregWrAttr.of (f g : OpField) (h : f.offset ≤ g.offset + 1) : EcliteOpregWrAttr :=
  ⟨f.offset, g.offset + 1, g.offset + 1 - f.offset + 1, h, rfl⟩

/-- `opregion_wr_chk_tbl`. -/
def opregionWrChkTbl : List EcliteOpregWrAttr :=
  [
    -- battery trip point
    .of .tripPoint0 .tripPoint1 (by decide),
    -- system thermal thresholds
    .of .sys0Alert31 .sys3Alert11 (by decide),
    -- system critical temperature
    .of .sys0CrittempThr1 .sys3CrittempThr1 (by decide),
    -- critical temperature of the processor
    .of .cpuCrittempThr .cpuCrittempThr (by decide),
    -- charger
    .of .chg1Cc .chg1Ilim (by decide),
    -- fan
    .of .pwmDutycyle .pwmDutycyle (by decide),
    -- the switch for the events, which has one byte; the block has two
    .of .eventNotifyConfig .eventNotifyConfig (by decide),
    -- UCSI
    .of .msgOutInfo .ucsiVersion (by decide)]

/-- The results of the functions. -/
inductive Ret
  | success
  | error
  deriving DecidableEq, Repr

/-- `eclite_verify_opreg_wr_access`.  The sum is one of type `int`: with a length of zero it may be
below the offset. -/
def ecliteVerifyOpregWrAccess (offset blocksz : ℕ) : Ret :=
  if opregionWrChkTbl.any fun b =>
      decide (b.offsetStart ≤ offset) && decide (blocksz ≤ b.blockSz) &&
        decide ((offset : ℤ) + blocksz - 1 ≤ b.offsetEnd) then .success
  else .error

/-- A byte of one of the blocks. -/
def InBlock (i : ℕ) : Prop := ∃ b ∈ opregionWrChkTbl, b.offsetStart ≤ i ∧ i ≤ b.offsetEnd

/-- A range that lies in one of the blocks. -/
def Fits (offset length : ℕ) : Prop :=
  ∃ b ∈ opregionWrChkTbl, b.offsetStart ≤ offset ∧ offset + length ≤ b.offsetEnd + 1

/-- **The check accepts what lies in one block**: the comparison with the size adds nothing. -/
theorem verify_iff_fits (offset length : ℕ) :
    ecliteVerifyOpregWrAccess offset length = .success ↔ Fits offset length := by
  unfold ecliteVerifyOpregWrAccess Fits
  rw [ite_eq_left_iff, List.any_eq_true]
  constructor
  · intro h
    by_contra hn
    refine absurd (h fun ⟨b, hb, hcheck⟩ => hn ⟨b, hb, ?_⟩) (by decide)
    simp only [Bool.and_eq_true, decide_eq_true_eq] at hcheck
    omega
  · rintro ⟨b, hb, hs, he⟩ hn
    refine absurd ⟨b, hb, ?_⟩ hn
    have hle := b.le
    have hsz := b.blockSz_eq
    simp only [Bool.and_eq_true, decide_eq_true_eq]
    omega

theorem block_end_lt {b : EcliteOpregWrAttr} (h : b ∈ opregionWrChkTbl) :
    b.offsetEnd < maxOprLength := by
  have hall : ∀ b ∈ opregionWrChkTbl, b.offsetEnd < maxOprLength := by decide
  exact hall b h

theorem Fits.le_max {offset length : ℕ} (h : Fits offset length) :
    offset + length ≤ maxOprLength := by
  obtain ⟨b, hb, -, he⟩ := h
  have := block_end_lt hb
  omega

theorem Fits.inBlock {offset length i : ℕ} (h : Fits offset length) (hi : offset ≤ i)
    (hlt : i < offset + length) : InBlock i := by
  obtain ⟨b, hb, hs, he⟩ := h
  exact ⟨b, hb, by omega, by omega⟩

end PseFw.Eclite
