/-
**The limit of the ICCM.**

`map_check` reads the lengths of the ICCM and of the DCCM in the map of the linker, expresses them
in units of 64 KiB, refuses the program when they are more than seven together, and gives the number
of units of the ICCM to the boot loader, in the header of the image.

A length that is not a whole number of units is not rounded up: one byte is added to it before the
shift.  That is enough for a length that is one byte short of a whole number of units, and for no
other.

Main definitions:

* `mapLoop`, `mapCheck` — the lines of the map, and the check;
* `units` — the number of units a length needs;
* `LimitRight` — what is wanted;
* `RoundsUp` — the lengths for which it is so.

Main results:

* `roundUnits_add_short` — what the code computes;
* `limitRight_iff` — **for which maps the limit is right**;
* `not_limitRight_short` — 65537 bytes of ICCM.
-/

import PseFw.Lib.Pattern
import PseFw.ImageTool.Layout
import Mathlib.Algebra.Order.Floor.Div

set_option relaxedAutoImplicit false
set_option autoImplicit false

namespace PseFw.ImageTool

open Image Pattern

/-! ### The characters of the expressions -/

/-- A line of a text. -/
abbrev Text : Type := List Char

/-- `\s`, and what `rstrip` takes away. -/
def isSpace (c : Char) : Bool :=
  (9 ≤ c.toNat && c.toNat ≤ 13) || (28 ≤ c.toNat && c.toNat ≤ 32) ||
    (0x2000 ≤ c.toNat && c.toNat ≤ 0x200a) ||
    [0x85, 0xa0, 0x1680, 0x2028, 0x2029, 0x202f, 0x205f, 0x3000].contains c.toNat

/-- `[0-9a-f]`. -/
def isHex (c : Char) : Bool := c.isDigit || ('a' ≤ c && c ≤ 'f')

/-- `[rwx]`. -/
def isAttribute (c : Char) : Bool := c = 'r' || c = 'w' || c = 'x'

/-- `rstrip`. -/
def rstrip (t : Text) : Text := (t.reverse.dropWhile isSpace).reverse

/-- The value of a hexadecimal digit. -/
def hexDigit (c : Char) : ℕ := if c.isDigit then c.toNat - '0'.toNat else c.toNat - 'a'.toNat + 10

/-- `int(t, 16)`, without the `0x` in front. -/
def hexValue (t : Text) : ℕ := t.foldl (fun n c => 16 * n + hexDigit c) 0

/-! ### The map of the linker -/

/-- `iccm_re`; the length is its sixth piece. -/
def iccmRe : List (Piece Char) :=
  [.lit "ICCM ".toList, .plus isSpace, .lit " 0x".toList, .plus isHex, .lit " 0x".toList,
    .plus isHex, .lit " ".toList, .plus isAttribute, .star isSpace]

/-- `dccm_re`; the length is its sixth piece. -/
def dccmRe : List (Piece Char) :=
  [.lit "DCCM ".toList, .plus isSpace, .lit " 0x".toList, .plus isHex, .lit " 0x".toList,
    .plus isHex, .lit " ".toList, .plus isAttribute, .star isSpace]

/-- The expression that is searched for; the address is its second piece. -/
def vectorTableRe : List (Piece Char) :=
  [.lit "0x".toList, .plus isHex, .plus isSpace, .lit "_vector_table".toList]

/-- A hexadecimal number among the pieces of a match. -/
def numberAt (k : ℕ) (r : Option (List Text)) : Option ℕ :=
  r.bind fun pieces => pieces[k]?.map hexValue

/-- The variables of `map_check`; `entry_point` is bound by the line of the vector table. -/
structure MapVars where
  iccmLength : ℕ
  dccmLength : ℕ
  entryPoint : Option ℕ
  deriving DecidableEq, Repr

/-- The loop over the lines of the map. -/
def mapLoop : List Text → MapVars → MapVars
  | [], x => x
  | line :: lines, x =>
      match numberAt 5 (matchPre iccmRe (rstrip line)) with
      | some length => mapLoop lines { x with iccmLength := length }
      | none =>
          match numberAt 5 (matchPre dccmRe line) with
          | some length => mapLoop lines { x with dccmLength := length }
          | none =>
              match numberAt 1 (search vectorTableRe line) with
              | some address => { x with entryPoint := some address }
              | none => mapLoop lines x

/-- What the map says. -/
def mapVars (lines : List Text) : MapVars := mapLoop lines ⟨0, 0, none⟩

/-! ### The check -/

/-- A length in units of 64 KiB. -/
def roundUnits (length : ℕ) : ℕ := (if 0 < length &&& 0xFFFF then length + 1 else length) >>> 16

/-- How `map_check` ends. -/
inductive MapChecked
  /-- `os._exit(1)`. -/
  | stopped
  /-- No line of the map has bound `entry_point`. -/
  | unbound
  | accepted (info : ImageInfo)

/-- `map_check`. -/
def mapCheck (lines : List Text) : MapChecked :=
  let x := mapVars lines
  let iccmLength := roundUnits x.iccmLength
  let dccmLength := roundUnits x.dccmLength
  if iccmLength + dccmLength > 7 then .stopped
  else
    match x.entryPoint with
    | none => .unbound
    | some entryPoint => .accepted ⟨[], entryPoint, iccmLength, 0⟩

/-! ### What is wanted -/

/-- The number of units of 64 KiB a length needs. -/
def units (length : ℕ) : ℕ := length ⌈/⌉ 0x10000

/-- The limit in the header of an image. -/
def headerLimit (image : List UInt8) : ℕ := Mem.ofLe (slice image 29 1)

/-- **The limit is right**: a program is accepted when it needs at most seven units, and then the
limit that is recorded, and is in every image that is stitched with it, is the number of units of
the ICCM. -/
structure LimitRight (lines : List Text) : Prop where
  accepts : (∃ info, mapCheck lines = .accepted info) ↔
    units (mapVars lines).iccmLength + units (mapVars lines).dccmLength ≤ 7
  records : ∀ info, mapCheck lines = .accepted info →
    info.iccmLimit = units (mapVars lines).iccmLength
  packs : ∀ info, mapCheck lines = .accepted info → ∀ info' bringup later image,
    info'.iccmLimit = info.iccmLimit → BringupFirst info' bringup later →
      stitch info' = some image → headerLimit image = units (mapVars lines).iccmLength

/-! ### Rounding -/

/-- One unit when the length needs one that the code does not count. -/
def short (length : ℕ) : ℕ :=
  if 0 < length % 0x10000 ∧ length % 0x10000 < 0xFFFF then 1 else 0

/-- **What the code computes**: a unit less when there is something left over, unless only one byte
is missing. -/
theorem roundUnits_add_short (length : ℕ) : roundUnits length + short length = units length := by
  have hmask : length &&& 0xFFFF = length % 0x10000 := Nat.and_two_pow_sub_one_eq_mod length 16
  unfold roundUnits short units
  rw [hmask, Nat.shiftRight_eq_div_pow, Nat.ceilDiv_eq_add_pred_div]
  split <;> split <;> omega

/-- The length is rounded up. -/
def RoundsUp (length : ℕ) : Prop := length % 0x10000 = 0 ∨ length % 0x10000 = 0xFFFF

instance (length : ℕ) : Decidable (RoundsUp length) := inferInstanceAs (Decidable (_ ∨ _))

theorem roundUnits_eq_units_iff (length : ℕ) :
    roundUnits length = units length ↔ RoundsUp length := by
  rw [← roundUnits_add_short]
  unfold short RoundsUp
  split <;> omega

/-! ### The header -/

/-- The limit is the second byte of the last number. -/
theorem lastDword_limit {info : ImageInfo} (hne : info.moduleInfo ≠ [])
    (hlen : info.moduleInfo.length ≤ 16) (h : 0 ≤ info.miscOption) (hlimit : info.iccmLimit < 256) :
    (lastDword info).toNat / 256 % 256 = info.iccmLimit := by
  rw [lastDword_eq hne h, Int.toNat_natCast]
  show _ / 2 ^ 8 % 2 ^ 8 = _
  rw [Nat.or_div_two_pow, Nat.or_div_two_pow, Nat.or_mod_two_pow, Nat.or_mod_two_pow,
    Nat.shiftLeft_eq, Nat.shiftLeft_eq]
  have h₁ : (info.moduleInfo.length - 1) / 2 ^ 8 = 0 := by omega
  have h₂ : info.iccmLimit * 2 ^ 8 / 2 ^ 8 % 2 ^ 8 = info.iccmLimit := by omega
  have h₃ : info.miscOption.toNat * 2 ^ 16 / 2 ^ 8 % 2 ^ 8 = 0 := by
    have hsplit : info.miscOption.toNat * 2 ^ 16 = info.miscOption.toNat * 2 ^ 8 * 2 ^ 8 := by
      rw [Nat.mul_assoc, ← Nat.pow_add]
    rw [hsplit, Nat.mul_div_cancel _ (by decide), Nat.mul_mod_left]
  rw [h₁, h₂, h₃, Nat.zero_mod, Nat.zero_or, Nat.or_zero]

theorem limit_startBytes {info : ImageInfo} (hne : info.moduleInfo ≠ [])
    (hlen : info.moduleInfo.length ≤ 16) (h : 0 ≤ info.miscOption) (hlimit : info.iccmLimit < 256)
    (n : ℕ) : Mem.ofLe (slice (startBytes info n) 25 1) = info.iccmLimit := by
  have hsplit : startBytes info n =
      (Mem.leBytes 4 headerVer ++ (Mem.leBytes 2 headerSize ++ Mem.leBytes 2 manOffset) ++
        ([(info.vectorTbl : ℤ), info.miscOption, n, manVer].map fun x =>
          Mem.leBytes 4 x.toNat).flatten) ++ Mem.leBytes 4 (lastDword info).toNat := by
    unfold startBytes
    simp only [List.map_cons, List.map_nil, List.flatten_cons, List.flatten_nil, List.append_nil,
      List.append_assoc]
  have hslice : slice (startBytes info n) 25 1 = [UInt8.ofNat ((lastDword info).toNat / 256)] := by
    rw [hsplit, slice_append_right _ _ (by simp), Mem.leBytes_succ, Mem.leBytes_succ]
    simp [slice]
  rw [hslice, Mem.ofLe, Mem.ofLe, UInt8.toNat_ofNat', ← lastDword_limit hne hlen h hlimit]
  rfl

/-- The image begins with the header and the bringup. -/
theorem front_isPrefix {info : ImageInfo} {bringup : Module} {later : List Module}
    {image : List UInt8} (hb : BringupFirst info bringup later) (h : stitch info = some image) :
    front info bringup later <+: image := by
  obtain ⟨⟨hfits, hent⟩, rfl⟩ := (stitch_eq_some hb).1 h
  have hsmall : ∀ m ∈ later, m.content.length < 2 ^ 32 := by
    intro m hm
    by_cases hpos : 0 < m.content.length
    · obtain ⟨k, hk⟩ := List.mem_iff_getElem?.1 hm
      obtain ⟨off, hoff⟩ := @placed_of_later bringup m later k hk
      exact (hent _ (List.mem_of_getElem? hoff) hpos).moduleSize
    · omega
  obtain ⟨hnext, hdvd⟩ := nextOff_spec (by decide : 16 ∣ headerSize) hfits.size
  obtain ⟨hord, -⟩ := manifestFrom_spec hdvd hsmall
  refine prefix_place (ordered_copied (hord.mono ?_))
  have hcount := count_later hb
  have hfilter := List.length_filter_le (fun m => decide (0 < m.moduleSize)) (placed bringup later)
  rw [placed, length_manifestFrom] at hfilter
  have hlen : (front info bringup later).length ≤ headerSize + bringup.content.length := by
    unfold front
    rw [List.length_append, List.length_append, Mem.length_leBytes, length_headerBytes, placed]
    have hsize : headerSize = 512 := rfl
    omega
  exact hlen.trans hnext

/-- **The limit in the header of an image.** -/
theorem headerLimit_stitch {info : ImageInfo} {bringup : Module} {later : List Module}
    {image : List UInt8} (hb : BringupFirst info bringup later) (h : stitch info = some image)
    (hlimit : info.iccmLimit < 256) : headerLimit image = info.iccmLimit := by
  obtain ⟨⟨hfits, -⟩, -⟩ := (stitch_eq_some hb).1 h
  have hmods : (generateManifest info).1.moduleInfo.length = later.length + 1 := by
    show (manifestFrom headerSize info.moduleInfo).length = _
    rw [length_manifestFrom, hb.modules, List.length_cons]
  have hcount := count_later hb
  have hstart := @limit_startBytes (generateManifest info).1 (List.length_pos_iff.1 (by omega))
    (by omega) hfits.miscOption.1 hlimit bringup.content.length
  obtain ⟨rest, hrest⟩ : ∃ rest, front info bringup later =
      Mem.leBytes 4 (crc32 (headerBytes info bringup later ++ bupData bringup.content) 0).toNat ++
        (startBytes (generateManifest info).1 bringup.content.length ++ rest) := by
    refine ⟨(((placed bringup later).filter fun m => 0 < m.moduleSize).map entryBytes).flatten ++
      (List.replicate (headerSize - 32 * (later.length + 1)) 0 ++ bringup.content), ?_⟩
    unfold front
    rw [headerBytes]
    simp only [List.append_assoc]
  have hlen : 29 + 1 ≤ (front info bringup later).length := by
    rw [hrest, List.length_append, List.length_append, Mem.length_leBytes, length_startBytes]
    omega
  unfold headerLimit
  rw [slice_of_isPrefix (front_isPrefix hb h) hlen, hrest,
    slice_append_right _ _ (by rw [Mem.length_leBytes]; decide), Mem.length_leBytes,
    slice_append_left (by rw [length_startBytes]; decide)]
  exact hstart

/-! ### When the limit is right -/

/-- **The maps whose limit is right**: either the program fits, the map has a vector table, and the
length of the ICCM is rounded up; or it does not fit, and does not fit either without the units the
code does not count, or the map has no vector table. -/
def LimitFits (x : MapVars) : Prop :=
  (units x.iccmLength + units x.dccmLength ≤ 7 ∧ x.entryPoint ≠ none ∧ RoundsUp x.iccmLength) ∨
    (7 < units x.iccmLength + units x.dccmLength ∧
      (7 + short x.iccmLength + short x.dccmLength < units x.iccmLength + units x.dccmLength ∨
        x.entryPoint = none))

/-- What is accepted. -/
theorem mapCheck_accepted_iff {lines : List Text} {info : ImageInfo} :
    mapCheck lines = .accepted info ↔
      roundUnits (mapVars lines).iccmLength + roundUnits (mapVars lines).dccmLength ≤ 7 ∧
        ∃ entryPoint, (mapVars lines).entryPoint = some entryPoint ∧
          info = ⟨[], entryPoint, roundUnits (mapVars lines).iccmLength, 0⟩ := by
  unfold mapCheck
  dsimp only
  by_cases hfits : roundUnits (mapVars lines).iccmLength + roundUnits (mapVars lines).dccmLength > 7
  · rw [if_pos hfits]
    constructor
    · intro h
      cases h
    · exact fun h => absurd h.1 (Nat.not_le.2 hfits)
  · rw [if_neg hfits]
    cases (mapVars lines).entryPoint with
    | none => simp
    | some entryPoint =>
        constructor
        · intro h
          cases h
          exact ⟨Nat.le_of_not_lt hfits, entryPoint, rfl, rfl⟩
        · rintro ⟨-, _, ⟨⟩, rfl⟩
          rfl

theorem exists_accepted_iff {lines : List Text} :
    (∃ info, mapCheck lines = .accepted info) ↔
      roundUnits (mapVars lines).iccmLength + roundUnits (mapVars lines).dccmLength ≤ 7 ∧
        (mapVars lines).entryPoint ≠ none := by
  simp only [mapCheck_accepted_iff]
  constructor
  · rintro ⟨info, hfits, entryPoint, hentry, -⟩
    exact ⟨hfits, by rw [hentry]; exact Option.some_ne_none _⟩
  · rintro ⟨hfits, hentry⟩
    obtain ⟨entryPoint, hentry⟩ := Option.ne_none_iff_exists'.1 hentry
    exact ⟨_, hfits, entryPoint, hentry, rfl⟩

/-- **For which maps the limit is right.** -/
theorem limitRight_iff (lines : List Text) : LimitRight lines ↔ LimitFits (mapVars lines) := by
  have hiccm := roundUnits_add_short (mapVars lines).iccmLength
  have hdccm := roundUnits_add_short (mapVars lines).dccmLength
  have hrounds := roundUnits_eq_units_iff (mapVars lines).iccmLength
  unfold LimitFits
  constructor
  · rintro ⟨haccepts, hrecords, -⟩
    by_cases hfits : units (mapVars lines).iccmLength + units (mapVars lines).dccmLength ≤ 7
    · obtain ⟨info, hinfo⟩ := haccepts.2 hfits
      obtain ⟨-, hentry⟩ := exists_accepted_iff.1 ⟨info, hinfo⟩
      obtain ⟨-, _, -, rfl⟩ := mapCheck_accepted_iff.1 hinfo
      exact .inl ⟨hfits, hentry, hrounds.1 (hrecords _ hinfo)⟩
    · refine .inr ⟨Nat.lt_of_not_le hfits, ?_⟩
      by_cases hentry : (mapVars lines).entryPoint = none
      · exact .inr hentry
      · have hrefused : ¬ (roundUnits (mapVars lines).iccmLength +
            roundUnits (mapVars lines).dccmLength ≤ 7) :=
          fun h => hfits (haccepts.1 (exists_accepted_iff.2 ⟨h, hentry⟩))
        exact .inl (by omega)
  · rintro (⟨hfits, hentry, hup⟩ | ⟨hexceeds, hrefused⟩)
    · have hround := hrounds.2 hup
      have hrecords : ∀ info, mapCheck lines = .accepted info →
          info.iccmLimit = units (mapVars lines).iccmLength := by
        intro info h
        obtain ⟨-, _, -, rfl⟩ := mapCheck_accepted_iff.1 h
        exact hround
      refine ⟨⟨fun _ => hfits, fun _ => exists_accepted_iff.2 ⟨by omega, hentry⟩⟩, hrecords, ?_⟩
      intro info h info' bringup later image hsame hb himage
      rw [← hrecords info h, ← hsame]
      refine headerLimit_stitch hb himage ?_
      rw [hsame, hrecords info h]
      omega
    · have hnot : ¬ ∃ info, mapCheck lines = .accepted info := by
        rw [exists_accepted_iff]
        rintro ⟨hfits, hentry⟩
        rcases hrefused with hrefused | hrefused
        · omega
        · exact hentry hrefused
      refine ⟨⟨fun h => absurd h hnot, fun h => by omega⟩, ?_, ?_⟩
      · exact fun info h => absurd ⟨info, h⟩ hnot
      · exact fun info h => absurd ⟨info, h⟩ hnot

/-- A map with 65537 bytes of ICCM. -/
def shortMap : List Text :=
  ["ICCM             0x00000000 0x00010001 xr".toList,
    "DCCM             0x20000000 0x00010000 rw".toList,
    "                0x00000040                _vector_table".toList]

/-- Of two units one is recorded. -/
theorem not_limitRight_short : ¬ LimitRight shortMap := by
  intro h
  have hvars : mapVars shortMap = ⟨0x10001, 0x10000, some 0x40⟩ := by decide +kernel
  have hinfo : mapCheck shortMap = .accepted ⟨[], 0x40, 1, 0⟩ := by
    rw [mapCheck_accepted_iff, hvars]
    exact ⟨by decide, 0x40, rfl, rfl⟩
  have hlimit := h.records _ hinfo
  rw [hvars] at hlimit
  exact absurd hlimit (by decide)

end PseFw.ImageTool
