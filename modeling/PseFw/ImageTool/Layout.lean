/-
**The layout of the image.**

The header area of the image has room for sixteen entries: one for the header itself and one for
each further module.  A module without bytes gets no entry, but is counted, in the header as well as
when the header is filled up: every such module makes the header area shorter by one entry, and all
that follows moves.  A module that is called `BRINGUP` and is not the first one gets an entry, but
its bytes are not copied.

Main definitions:

* `BringupFirst` — the lists of modules the tool is for;
* `LayoutOk` — what the boot loader relies on;
* `StitchOk` — the lists for which the image is like that.

Main results:

* `stitch_layout_iff` — **for which lists of modules the image has its layout**;
* `not_layoutOk_empty` — a module without bytes.
-/

import PseFw.ImageTool.Stitch

set_option relaxedAutoImplicit false
set_option autoImplicit false

namespace PseFw.ImageTool

open Image

variable {info : ImageInfo} {bringup m : Module} {later ms : List Module} {image : List UInt8}

/-! ### What is wanted -/

/-- **The lists the tool is for**: at most sixteen modules, the first one the bringup, which can be
told from its name and from its path, and from the paths of the others. -/
structure BringupFirst (info : ImageInfo) (bringup : Module) (later : List Module) : Prop where
  modules : info.moduleInfo = bringup :: later
  count : info.moduleInfo.length ≤ 16
  name : bringup.compName = "BRINGUP"
  path : isSubString "bringup" bringup.rawBinPath = true
  others : ∀ m ∈ later, isSubString "bringup" m.rawBinPath = false

/-- The modules after the bringup, with their sizes and offsets. -/
def placed (bringup : Module) (later : List Module) : List Module :=
  manifestFrom (nextOff headerSize bringup.content.length) later

/-- The count in the header. -/
def headerCount (image : List UInt8) : ℕ := Mem.ofLe (slice image 28 1)

/-- The offset in an entry of the manifest. -/
def entryOffset (image : List UInt8) (k : ℕ) : ℕ :=
  Mem.ofLe (slice image (manOffset + 32 * k + 8) 4)

/-- **What the boot loader relies on.** -/
structure LayoutOk (info : ImageInfo) (bringup : Module) (later : List Module)
    (image : List UInt8) : Prop where
  /-- The header area has its size. -/
  header : ∃ h, headerData (generateManifest info).1 = some h ∧ 4 + h.length = headerSize ∧
    slice image 4 h.length = h
  /-- The bringup is behind it. -/
  bringupAt : slice image headerSize bringup.content.length = bringup.content
  /-- There are as many entries as the header says, one for each module, and nothing else. -/
  count : headerCount image = later.length
  entries : ∀ k m, (placed bringup later)[k]? = some m →
    manifestEntry m = some (slice image (manOffset + 32 * k) 32)
  rest : slice image (manOffset + 32 * later.length)
      (headerSize - (manOffset + 32 * later.length)) =
    List.replicate (headerSize - (manOffset + 32 * later.length)) 0
  /-- The modules are at the offsets in their entries. -/
  modules : ∀ k m, later[k]? = some m →
    slice image (entryOffset image k) m.content.length = m.content
  aligned : ∀ k < later.length, 16 ∣ entryOffset image k
  /-- They do not meet the bringup, nor each other. -/
  apart : ∀ k < later.length, headerSize + bringup.content.length ≤ entryOffset image k
  disjoint : ∀ i j m, i < j → j < later.length → later[i]? = some m →
    entryOffset image i + m.content.length ≤ entryOffset image j
  /-- The checksum is that of the header and of the first stage of the bringup. -/
  crc : slice image 0 4 =
    Mem.leBytes 4 (crc32 (slice image 4
      (headerSize + min bringup.content.length bup1stStageSize - 4)) 0).toNat

/-- The numbers of an entry fit, and the names are plain. -/
structure EntryFits (m : Module) : Prop where
  compName : ∀ c ∈ m.compName.toList, c.toNat < 128
  vendorName : ∀ c ∈ m.vendorName.toList, c.toNat < 128
  codeOffset : m.codeOffset < 2 ^ 32
  moduleSize : m.moduleSize < 2 ^ 32
  loadAddress : 0 ≤ m.loadAddress ∧ m.loadAddress < 2 ^ 32
  compFlags : 0 ≤ m.compFlags ∧ m.compFlags < 2 ^ 32
  dbgLevel : 0 ≤ m.dbgLevel ∧ m.dbgLevel < 2 ^ 32
  traceLevel : 0 ≤ m.traceLevel ∧ m.traceLevel < 2 ^ 32

/-- The numbers of the header fit. -/
structure HeaderFits (info : ImageInfo) (bringup : Module) : Prop where
  vectorTbl : info.vectorTbl < 2 ^ 32
  iccmLimit : info.iccmLimit < 2 ^ 24
  miscOption : 0 ≤ info.miscOption ∧ info.miscOption < 2 ^ 16
  size : bringup.content.length < 2 ^ 32

/-- **The lists for which the image has its layout**: all numbers fit, every module has bytes, and a
module that is called like the bringup has only zeros and is followed by one that is not. -/
structure StitchOk (info : ImageInfo) (bringup : Module) (later : List Module) : Prop where
  header : HeaderFits info bringup
  entries : ∀ m ∈ placed bringup later, EntryFits m
  nonempty : ∀ m ∈ later, m.content ≠ []
  named : ∀ (k : ℕ) (m : Module), later[k]? = some m → m.compName = "BRINGUP" →
    (∀ x ∈ m.content, x = 0) ∧
      ∃ (j : ℕ) (m' : Module), k < j ∧ later[j]? = some m' ∧ m'.compName ≠ "BRINGUP"

/-! ### Numbers in the header -/

/-- Several numbers are packed when each of them fits. -/
theorem packIs_eq_some {xs : List ℤ} {l : List UInt8} :
    packIs xs = some l ↔ (∀ x ∈ xs, 0 ≤ x ∧ x < 2 ^ 32) ∧
      l = (xs.map fun x => Mem.leBytes 4 x.toNat).flatten := by
  unfold packIs
  induction xs generalizing l with
  | nil => simp [eq_comm]
  | cons x xs ih =>
      rw [List.mapM_cons, Option.map_eq_some_iff]
      by_cases hx : 0 ≤ x ∧ x < 2 ^ 32
      · have hpack : packI x = some (Mem.leBytes 4 x.toNat) := if_pos hx
        rw [List.forall_mem_cons, List.map_cons, List.flatten_cons, hpack]
        constructor
        · rintro ⟨ls, hls, rfl⟩
          obtain ⟨b, hb, hls⟩ := Option.bind_eq_some_iff.1 hls
          obtain ⟨rest, hrest, heq⟩ := Option.bind_eq_some_iff.1 hls
          cases hb
          cases heq
          have hih := (@ih rest.flatten).1 (by rw [hrest]; rfl)
          exact ⟨⟨hx, hih.1⟩, by rw [List.flatten_cons, ← hih.2]⟩
        · rintro ⟨⟨-, hxs⟩, rfl⟩
          obtain ⟨rest, hrest, heq⟩ := Option.map_eq_some_iff.1 (ih.2 ⟨hxs, rfl⟩)
          refine ⟨Mem.leBytes 4 x.toNat :: rest, ?_, by rw [List.flatten_cons, heq]⟩
          rw [hrest]
          rfl
      · have hpack : packI x = none := if_neg hx
        rw [List.forall_mem_cons, hpack]
        constructor
        · rintro ⟨ls, hls, -⟩
          cases hls
        · rintro ⟨⟨h, -⟩, -⟩
          exact absurd h hx

theorem pack4s_eq_some {t : String} {l : List UInt8} :
    pack4s t = some l ↔ (∀ c ∈ t.toList, c.toNat < 128) ∧
      l = Mem.padTo 4 (t.toList.map fun c => c.toNat.toUInt8) := by
  unfold pack4s
  rw [Option.ite_none_right_eq_some, List.all_eq_true, Option.some.injEq]
  simp only [decide_eq_true_eq]
  exact and_congr_right fun _ => eq_comm

/-- The bytes of an entry. -/
def entryBytes (m : Module) : List UInt8 :=
  Mem.padTo 4 (m.compName.toList.map fun c => c.toNat.toUInt8) ++
    Mem.padTo 4 (m.vendorName.toList.map fun c => c.toNat.toUInt8) ++
    ([(m.codeOffset : ℤ), m.moduleSize, m.loadAddress, m.compFlags, m.dbgLevel,
      m.traceLevel].map fun x => Mem.leBytes 4 x.toNat).flatten

/-- **Which entries can be written.** -/
theorem manifestEntry_eq_some {l : List UInt8} :
    manifestEntry m = some l ↔ EntryFits m ∧ l = entryBytes m := by
  unfold manifestEntry
  simp only [Option.bind_eq_some_iff, Option.map_eq_some_iff, pack4s_eq_some, packIs_eq_some]
  constructor
  · rintro ⟨name, ⟨hname, rfl⟩, vendor, ⟨hvendor, rfl⟩, nums, ⟨hnums, rfl⟩, rfl⟩
    simp only [List.forall_mem_cons] at hnums
    obtain ⟨h₁, h₂, h₃, h₄, h₅, h₆, -⟩ := hnums
    exact ⟨⟨hname, hvendor, by omega, by omega, h₃, h₄, h₅, h₆⟩, rfl⟩
  · rintro ⟨h, rfl⟩
    refine ⟨_, ⟨h.compName, rfl⟩, _, ⟨h.vendorName, rfl⟩, _, ⟨?_, rfl⟩, rfl⟩
    have hoff := h.codeOffset
    have hsize := h.moduleSize
    simp only [List.forall_mem_cons]
    exact ⟨by omega, by omega, h.loadAddress, h.compFlags, h.dbgLevel, h.traceLevel,
      fun _ hx => absurd hx List.not_mem_nil⟩

@[simp] theorem length_entryBytes (m : Module) : (entryBytes m).length = 32 := by
  unfold entryBytes
  simp [Mem.length_padTo]

/-- The offset in an entry. -/
theorem offset_entryBytes (h : m.codeOffset < 2 ^ 32) :
    Mem.ofLe (slice (entryBytes m) 8 4) = m.codeOffset := by
  have hslice : slice (entryBytes m) 8 4 = Mem.leBytes 4 m.codeOffset := by
    unfold entryBytes
    rw [List.map_cons, List.flatten_cons, slice_append_right _ _ (by simp [Mem.length_padTo])]
    rw [slice_append_left (by simp [Mem.length_padTo])]
    simp [slice, Mem.length_padTo]
  rw [hslice, Mem.ofLe_leBytes h]

/-- The last number of the header, when the options are not negative. -/
theorem lastDword_eq (hne : info.moduleInfo ≠ []) (h : 0 ≤ info.miscOption) :
    lastDword info = (((info.moduleInfo.length - 1) ||| info.iccmLimit <<< 8 |||
      info.miscOption.toNat <<< 16 : ℕ) : ℤ) := by
  have hlen : (info.moduleInfo.length : ℤ) - 1 = ((info.moduleInfo.length - 1 : ℕ) : ℤ) := by
    have := List.length_pos_iff.2 hne
    omega
  have hmisc : info.miscOption <<< (16 : ℕ) = ((info.miscOption.toNat <<< 16 : ℕ) : ℤ) := by
    rw [Int.shiftLeft_eq, Nat.shiftLeft_eq]
    push_cast
    rw [Int.toNat_of_nonneg h]
  unfold lastDword
  rw [hlen, hmisc]
  rfl

theorem lastDword_lt_iff (hne : info.moduleInfo ≠ []) (hlen : info.moduleInfo.length ≤ 16)
    (h : 0 ≤ info.miscOption) :
    lastDword info < 2 ^ 32 ↔ info.iccmLimit < 2 ^ 24 ∧ info.miscOption < 2 ^ 16 := by
  rw [lastDword_eq hne h]
  have hcast : ∀ n : ℕ, (n : ℤ) < 2 ^ 32 ↔ n < 2 ^ 32 := fun n => by
    rw [← Nat.cast_ofNat, ← Nat.cast_pow, Nat.cast_lt]
  rw [hcast, Nat.shiftLeft_eq, Nat.shiftLeft_eq]
  constructor
  · intro hlt
    have h₁ : info.miscOption.toNat * 2 ^ 16 < 2 ^ 32 := Nat.right_le_or.trans_lt hlt
    have h₂ : info.iccmLimit * 2 ^ 8 < 2 ^ 32 :=
      Nat.right_le_or.trans_lt (Nat.left_le_or.trans_lt hlt)
    omega
  · rintro ⟨hiccm, hmisc⟩
    refine Nat.or_lt_two_pow (Nat.or_lt_two_pow ?_ ?_) ?_ <;> omega

/-- The count is the lowest byte. -/
theorem lastDword_mod (hne : info.moduleInfo ≠ []) (hlen : info.moduleInfo.length ≤ 16)
    (h : 0 ≤ info.miscOption) : (lastDword info).toNat % 256 = info.moduleInfo.length - 1 := by
  rw [lastDword_eq hne h, Int.toNat_natCast]
  show _ % 2 ^ 8 = _
  rw [Nat.or_mod_two_pow, Nat.or_mod_two_pow, Nat.shiftLeft_eq, Nat.shiftLeft_eq]
  have h₁ : info.iccmLimit * 2 ^ 8 % 2 ^ 8 = 0 := by omega
  have h₂ : info.miscOption.toNat * 2 ^ 16 % 2 ^ 8 = 0 :=
    Nat.mod_eq_zero_of_dvd (Dvd.dvd.mul_left (pow_dvd_pow 2 (by decide)) _)
  have h₃ : (info.moduleInfo.length - 1) % 2 ^ 8 = info.moduleInfo.length - 1 := by omega
  rw [h₁, h₂, h₃, Nat.or_zero, Nat.or_zero]

/-- The bytes of the header without the checksum and the manifest. -/
def startBytes (info : ImageInfo) (nBringupSz : ℕ) : List UInt8 :=
  Mem.leBytes 4 headerVer ++ (Mem.leBytes 2 headerSize ++ Mem.leBytes 2 manOffset) ++
    ([(info.vectorTbl : ℤ), info.miscOption, nBringupSz, manVer, lastDword info].map fun x =>
      Mem.leBytes 4 x.toNat).flatten

/-- **Which headers can be written.** -/
theorem headerStart_eq_some (hne : info.moduleInfo ≠ []) (hlen : info.moduleInfo.length ≤ 16)
    {l : List UInt8} : headerStart info bringup.content.length = some l ↔
      HeaderFits info bringup ∧ l = startBytes info bringup.content.length := by
  unfold headerStart
  simp only [Option.map_eq_some_iff, packIs_eq_some, List.forall_mem_cons]
  constructor
  · rintro ⟨nums, ⟨⟨h₁, h₂, h₃, -, h₅, -⟩, rfl⟩, rfl⟩
    obtain ⟨hiccm, hmisc⟩ := (lastDword_lt_iff hne hlen h₂.1).1 h₅.2
    exact ⟨⟨by omega, hiccm, ⟨h₂.1, hmisc⟩, by omega⟩, rfl⟩
  · rintro ⟨h, rfl⟩
    have h₁ := h.vectorTbl
    have h₂ := h.miscOption
    have h₃ := h.size
    have h₅ := (lastDword_lt_iff hne hlen h₂.1).2 ⟨h.iccmLimit, h₂.2⟩
    have h₆ : 0 ≤ lastDword info := by
      rw [lastDword_eq hne h₂.1]
      exact Int.natCast_nonneg _
    exact ⟨_, ⟨⟨by omega, by omega, by omega, by decide, ⟨h₆, h₅⟩,
      fun _ hx => absurd hx List.not_mem_nil⟩, rfl⟩, rfl⟩

@[simp] theorem length_startBytes (info : ImageInfo) (n : ℕ) : (startBytes info n).length = 28 := by
  unfold startBytes
  simp

/-- The count in the header. -/
theorem count_startBytes (hne : info.moduleInfo ≠ []) (hlen : info.moduleInfo.length ≤ 16)
    (h : 0 ≤ info.miscOption) (n : ℕ) :
    Mem.ofLe (slice (startBytes info n) 24 1) = info.moduleInfo.length - 1 := by
  have hsplit : startBytes info n =
      (Mem.leBytes 4 headerVer ++ (Mem.leBytes 2 headerSize ++ Mem.leBytes 2 manOffset) ++
        ([(info.vectorTbl : ℤ), info.miscOption, n, manVer].map fun x =>
          Mem.leBytes 4 x.toNat).flatten) ++ Mem.leBytes 4 (lastDword info).toNat := by
    unfold startBytes
    simp only [List.map_cons, List.map_nil, List.flatten_cons, List.flatten_nil, List.append_nil,
      List.append_assoc]
  have hslice : slice (startBytes info n) 24 1 = [UInt8.ofNat (lastDword info).toNat] := by
    rw [hsplit, slice_append_right _ _ (by simp), Mem.leBytes_succ]
    simp [slice]
  rw [hslice, Mem.ofLe, Mem.ofLe, UInt8.toNat_ofNat', ← lastDword_mod hne hlen h]
  rfl

/-! ### The manifest -/

@[simp] theorem length_manifestFrom (c : ℕ) (ms : List Module) :
    (manifestFrom c ms).length = ms.length := by
  induction ms generalizing c with
  | nil => rfl
  | cons m ms ih => rw [manifestFrom, List.length_cons, List.length_cons, ih]

/-- The loop places every module somewhere. -/
theorem getElem?_manifestFrom (c : ℕ) (ms : List Module) (k : ℕ) :
    ∃ off, (manifestFrom c ms)[k]? = ms[k]?.map fun m => m.placedAt off := by
  induction ms generalizing c k with
  | nil => exact ⟨0, rfl⟩
  | cons m ms ih =>
      cases k with
      | zero => exact ⟨c, rfl⟩
      | succ k => exact ih _ k

theorem mem_manifestFrom {c : ℕ} (h : m ∈ manifestFrom c ms) :
    ∃ m' ∈ ms, ∃ off, m = m'.placedAt off := by
  obtain ⟨k, hk⟩ := List.mem_iff_getElem?.1 h
  obtain ⟨off, hoff⟩ := getElem?_manifestFrom c ms k
  rw [hk] at hoff
  obtain ⟨m', hm', heq⟩ := Option.map_eq_some_iff.1 hoff.symm
  exact ⟨m', List.mem_of_getElem? hm', off, heq.symm⟩

/-- **The entries the loop writes**: one for every module with bytes. -/
theorem headerLoop_later (hpath : ∀ m ∈ ms, isSubString "bringup" m.rawBinPath = false) (i : ℕ)
    (h : List UInt8) {l : List UInt8} : headerLoop info i ms (some h) = some l ↔
      (∀ m ∈ ms, 0 < m.moduleSize → EntryFits m) ∧
        l = h ++ ((ms.filter fun m => 0 < m.moduleSize).map entryBytes).flatten := by
  induction ms generalizing i h with
  | nil => simp [headerLoop, eq_comm]
  | cons m ms ih =>
      have hrest := fun m hm => hpath m (List.mem_cons_of_mem _ hm)
      rw [headerLoop, if_neg (by rw [hpath m List.mem_cons_self]; decide), List.forall_mem_cons]
      by_cases hsize : 0 < m.moduleSize
      · have hfilter : (m :: ms).filter (fun m => 0 < m.moduleSize) =
            m :: ms.filter fun m => 0 < m.moduleSize :=
          List.filter_cons_of_pos (decide_eq_true hsize)
        rw [if_pos hsize, hfilter, List.map_cons, List.flatten_cons, Option.bind_some,
          Option.bind_eq_some_iff, ← List.append_assoc]
        constructor
        · rintro ⟨e, he, hl⟩
          obtain ⟨hfits, rfl⟩ := manifestEntry_eq_some.1 he
          obtain ⟨hall, heq⟩ := (ih hrest _ _).1 hl
          exact ⟨⟨fun _ => hfits, hall⟩, heq⟩
        · rintro ⟨⟨hfits, hall⟩, heq⟩
          exact ⟨entryBytes m, manifestEntry_eq_some.2 ⟨hfits hsize, rfl⟩,
            (ih hrest _ _).2 ⟨hall, heq⟩⟩
      · have hfilter : (m :: ms).filter (fun m => 0 < m.moduleSize) =
            ms.filter fun m => 0 < m.moduleSize :=
          List.filter_cons_of_neg (by simpa using hsize)
        rw [if_neg hsize, hfilter, ih hrest]
        exact and_congr_left fun _ => ⟨fun hall => ⟨fun hx => absurd hx hsize, hall⟩, And.right⟩

/-- The bytes of the header. -/
def headerBytes (info : ImageInfo) (bringup : Module) (later : List Module) : List UInt8 :=
  startBytes (generateManifest info).1 bringup.content.length ++
    (((placed bringup later).filter fun m => 0 < m.moduleSize).map entryBytes).flatten ++
      List.replicate (headerSize - 32 * (later.length + 1)) 0

/-- **When the header can be written, and what it is.** -/
theorem headerData_eq_some (hb : BringupFirst info bringup later) {l : List UInt8} :
    headerData (generateManifest info).1 = some l ↔
      (HeaderFits info bringup ∧ ∀ m ∈ placed bringup later, 0 < m.moduleSize → EntryFits m) ∧
        l = headerBytes info bringup later := by
  have hmods : (generateManifest info).1.moduleInfo =
      bringup.placedAt headerSize :: placed bringup later := by
    show manifestFrom headerSize info.moduleInfo = _
    rw [hb.modules]
    rfl
  have hcount : later.length + 1 ≤ 16 := by
    have := hb.count
    rw [hb.modules] at this
    exact this
  have hlen : (generateManifest info).1.moduleInfo.length = later.length + 1 := by
    rw [hmods, List.length_cons, placed, length_manifestFrom]
  have hpath : ∀ m ∈ placed bringup later, isSubString "bringup" m.rawBinPath = false := by
    intro m hm
    obtain ⟨m', hm', off, rfl⟩ := mem_manifestFrom hm
    exact hb.others m' hm'
  have hstart : headerLoop (generateManifest info).1 0 (generateManifest info).1.moduleInfo none =
      (headerStart (generateManifest info).1 bringup.content.length).bind fun h =>
        headerLoop (generateManifest info).1 1 (placed bringup later) (some h) := by
    have hpath₀ : isSubString "bringup" (bringup.placedAt headerSize).rawBinPath = true := hb.path
    rw [hmods, headerLoop, if_pos hpath₀, if_neg (not_not.2 rfl)]
    rfl
  unfold headerData headerBytes
  rw [if_neg (by omega), hstart, Option.map_eq_some_iff, hlen]
  simp only [Option.bind_eq_some_iff, headerLoop_later hpath]
  have hne : (generateManifest info).1.moduleInfo ≠ [] := by
    rw [hmods]
    exact List.cons_ne_nil _ _
  have hlen' : (generateManifest info).1.moduleInfo.length ≤ 16 := hlen.trans_le hcount
  constructor
  · rintro ⟨a, ⟨s, hs, hall, rfl⟩, rfl⟩
    obtain ⟨hfits, rfl⟩ := (headerStart_eq_some hne hlen').1 hs
    exact ⟨⟨⟨hfits.1, hfits.2, hfits.3, hfits.4⟩, hall⟩, rfl⟩
  · rintro ⟨⟨hfits, hall⟩, rfl⟩
    refine ⟨_, ⟨_, (headerStart_eq_some hne hlen').2 ⟨?_, rfl⟩, hall, rfl⟩, rfl⟩
    exact ⟨hfits.1, hfits.2, hfits.3, hfits.4⟩

/-! ### The offsets -/

/-- The mask takes away the four lowest bits of a number of thirty-two. -/
theorem and_mask {n : ℕ} (h : n < 2 ^ 32) : n &&& 0xfffffff0 = n / 16 * 16 := by
  have hshift : n / 16 * 16 = n >>> 4 <<< 4 := by
    rw [Nat.shiftRight_eq_div_pow, Nat.shiftLeft_eq]
  have hmask : 0xfffffff0 = (2 ^ 28 - 1) <<< 4 := by decide
  rw [hshift, hmask]
  refine Nat.eq_of_testBit_eq fun i => ?_
  rw [Nat.testBit_and, Nat.testBit_shiftLeft, Nat.testBit_shiftLeft, Nat.testBit_shiftRight,
    Nat.testBit_two_pow_sub_one]
  by_cases hi : 4 ≤ i
  · rw [Nat.add_sub_cancel' hi]
    by_cases hi' : i < 32
    · simp [hi, show i - 4 < 28 by omega]
    · have hbit : n.testBit i = false :=
        Nat.testBit_lt_two_pow (h.trans_le (Nat.pow_le_pow_right (by decide) (by omega)))
      simp [hbit]
  · simp [hi]

/-- The next offset is a multiple of sixteen and leaves room for the module. -/
theorem nextOff_spec {c n : ℕ} (hc : 16 ∣ c) (h : n < 2 ^ 32) :
    c + n ≤ nextOff c n ∧ 16 ∣ nextOff c n := by
  have hlow : n &&& 0xf = n % 16 := Nat.and_two_pow_sub_one_eq_mod n 4
  unfold nextOff
  rw [hlow, and_mask h]
  split <;> omega

/-- A module as a segment of the image. -/
def Module.segment (m : Module) : ℕ × List UInt8 := (m.codeOffset, m.content)

/-- **The offsets of the modules**: multiples of sixteen, with room for everything before. -/
theorem manifestFrom_spec {c : ℕ} (hc : 16 ∣ c) (h : ∀ m ∈ ms, m.content.length < 2 ^ 32) :
    Ordered c ((manifestFrom c ms).map Module.segment) ∧
      ∀ m ∈ manifestFrom c ms, 16 ∣ m.codeOffset := by
  induction ms generalizing c with
  | nil => exact ⟨trivial, fun m hm => absurd hm List.not_mem_nil⟩
  | cons m ms ih =>
      obtain ⟨hle, hdvd⟩ := nextOff_spec hc (h m List.mem_cons_self)
      obtain ⟨hord, hall⟩ := ih hdvd fun m' hm' => h m' (List.mem_cons_of_mem _ hm')
      refine ⟨⟨le_rfl, hord.mono hle⟩, fun m' hm' => ?_⟩
      rcases List.mem_cons.1 hm' with rfl | hm'
      · exact hc
      · exact hall m' hm'

/-! ### The image -/

/-- The modules whose bytes are copied. -/
def copied (bringup : Module) (later : List Module) : List (ℕ × List UInt8) :=
  ((placed bringup later).filter fun m => m.compName ≠ "BRINGUP").map Module.segment

/-- The image before the modules after the bringup are copied. -/
def front (info : ImageInfo) (bringup : Module) (later : List Module) : List UInt8 :=
  Mem.leBytes 4 (crc32 (headerBytes info bringup later ++ bupData bringup.content) 0).toNat ++
    headerBytes info bringup later ++ bringup.content

theorem bupData_append (l : List UInt8) : bupData l ++ bupRest l = l := by
  unfold bupData bupRest
  split
  · exact List.take_append_drop _ _
  · exact List.append_nil l

/-- The loop that copies the modules. -/
theorem foldl_stitchModule (h : ∀ m ∈ ms, m.moduleSize = m.content.length) (image : List UInt8) :
    ms.foldl stitchModule image =
      place image ((ms.filter fun m => m.compName ≠ "BRINGUP").map Module.segment) := by
  induction ms generalizing image with
  | nil => rfl
  | cons m ms ih =>
      have hsize := h m List.mem_cons_self
      rw [List.foldl_cons, ih fun m' hm' => h m' (List.mem_cons_of_mem _ hm')]
      by_cases hname : m.compName = "BRINGUP"
      · rw [stitchModule, if_neg (not_not.2 hname), List.filter_cons_of_neg (by simpa using hname)]
      · rw [stitchModule, if_pos hname, hsize, List.take_length,
          List.filter_cons_of_pos (by simpa using hname), List.map_cons]
        rfl

/-- **When there is an image, and what it is.** -/
theorem stitch_eq_some (hb : BringupFirst info bringup later) : stitch info = some image ↔
    (HeaderFits info bringup ∧ ∀ m ∈ placed bringup later, 0 < m.moduleSize → EntryFits m) ∧
      image = place (front info bringup later) (copied bringup later) := by
  have hmods : (generateManifest info).1.moduleInfo =
      bringup.placedAt headerSize :: placed bringup later := by
    show manifestFrom headerSize info.moduleInfo = _
    rw [hb.modules]
    rfl
  have hfound : (generateManifest info).2 = true := by
    unfold generateManifest
    rw [hb.modules]
    exact decide_eq_true hb.name
  have hname : (bringup.placedAt headerSize).compName = "BRINGUP" := hb.name
  have hsize : ∀ m ∈ placed bringup later, m.moduleSize = m.content.length := by
    intro m hm
    obtain ⟨m', -, off, rfl⟩ := mem_manifestFrom hm
    rfl
  unfold stitch generateFw
  rw [if_pos hfound, hmods]
  simp only [Option.map_eq_some_iff, headerData_eq_some hb, List.foldl_cons]
  have hfront : ∀ image, stitchModule image (bringup.placedAt headerSize) = image := fun _ =>
    if_neg (not_not.2 hname)
  have himage : (placed bringup later).foldl stitchModule
      (Mem.leBytes 4 (crc32 (bupData bringup.content)
        (crc32 (headerBytes info bringup later) 0)).toNat ++ headerBytes info bringup later ++
          bupData bringup.content ++ bupRest bringup.content) =
      place (front info bringup later) (copied bringup later) := by
    rw [foldl_stitchModule hsize, ← crc32_append, List.append_assoc _ (bupData _), bupData_append]
    rfl
  constructor
  · rintro ⟨h, ⟨hfits, rfl⟩, rfl⟩
    rw [hfront]
    exact ⟨hfits, himage⟩
  · rintro ⟨hfits, rfl⟩
    refine ⟨_, ⟨hfits, rfl⟩, ?_⟩
    rw [hfront]
    exact himage

/-! ### The modules in the image -/

theorem placed_of_later {k : ℕ} (h : later[k]? = some m) :
    ∃ off, (placed bringup later)[k]? = some (m.placedAt off) := by
  obtain ⟨off, hoff⟩ := getElem?_manifestFrom (nextOff headerSize bringup.content.length) later k
  rw [h] at hoff
  exact ⟨off, hoff⟩

theorem later_of_placed {k : ℕ} (h : (placed bringup later)[k]? = some m) :
    ∃ m' off, later[k]? = some m' ∧ m = m'.placedAt off := by
  obtain ⟨off, hoff⟩ := getElem?_manifestFrom (nextOff headerSize bringup.content.length) later k
  rw [placed] at h
  rw [h] at hoff
  obtain ⟨m', hm', heq⟩ := Option.map_eq_some_iff.1 hoff.symm
  exact ⟨m', off, hm', heq.symm⟩

theorem mem_copied {s : ℕ × List UInt8} (h : s ∈ copied bringup later) :
    ∃ (k : ℕ) (m : Module), (placed bringup later)[k]? = some m ∧ m.compName ≠ "BRINGUP" ∧
      s = m.segment := by
  obtain ⟨m, hm, rfl⟩ := List.mem_map.1 h
  obtain ⟨hm, hname⟩ := List.mem_filter.1 hm
  obtain ⟨k, hk⟩ := List.mem_iff_getElem?.1 hm
  exact ⟨k, m, hk, of_decide_eq_true hname, rfl⟩

theorem copied_of_placed {k : ℕ} (h : (placed bringup later)[k]? = some m)
    (hname : m.compName ≠ "BRINGUP") : m.segment ∈ copied bringup later :=
  List.mem_map_of_mem (List.mem_filter.2 ⟨List.mem_of_getElem? h, decide_eq_true hname⟩)

section Placed

variable {start : List UInt8}
  (hord : Ordered start.length ((placed bringup later).map Module.segment))

include hord

theorem ordered_copied : Ordered start.length (copied bringup later) :=
  hord.sublist ((List.filter_sublist).map Module.segment)

theorem placed_disjoint {i j : ℕ} {m' : Module} (hij : i < j)
    (hm : (placed bringup later)[i]? = some m) (hm' : (placed bringup later)[j]? = some m') :
    m.codeOffset + m.content.length ≤ m'.codeOffset := by
  refine @Ordered.disjoint _ m.segment _ hord i j hij m'.segment ?_ ?_
  · rw [List.getElem?_map, hm]
    rfl
  · rw [List.getElem?_map, hm']
    rfl

/-- A module whose bytes are not copied is a gap in the image, if another one follows. -/
theorem getElem?_not_copied {j k p : ℕ} {m' : Module} (hm : (placed bringup later)[k]? = some m)
    (hname : m.compName = "BRINGUP") (hkj : k < j) (hm' : (placed bringup later)[j]? = some m')
    (hname' : m'.compName ≠ "BRINGUP") (hp : p < m.content.length) :
    (place start (copied bringup later))[m.codeOffset + p]? = some 0 := by
  have hle : start.length ≤ m.codeOffset :=
    hord.le (List.mem_map_of_mem (f := Module.segment) (List.mem_of_getElem? hm))
  refine getElem?_place_gap (ordered_copied hord) (by omega) ?_ (copied_of_placed hm' hname') ?_
  · intro s hs hin
    obtain ⟨i, t, ht, htname, rfl⟩ := mem_copied hs
    have hin : t.codeOffset ≤ m.codeOffset + p ∧
        m.codeOffset + p < t.codeOffset + t.content.length := hin
    rcases Nat.lt_trichotomy i k with hik | hik | hik
    · have := placed_disjoint hord hik ht hm
      omega
    · rw [hik, hm] at ht
      cases ht
      exact htname hname
    · have := placed_disjoint hord hik hm ht
      omega
  · have hdis := placed_disjoint hord hkj hm hm'
    show m.codeOffset + p < m'.codeOffset
    omega

/-- **A module that is not copied is in the image by chance only.** -/
theorem slice_not_copied_iff {k : ℕ} (hm : (placed bringup later)[k]? = some m)
    (hname : m.compName = "BRINGUP") (hne : m.content ≠ []) :
    slice (place start (copied bringup later)) m.codeOffset m.content.length = m.content ↔
      (∀ x ∈ m.content, x = 0) ∧ ∃ (j : ℕ) (m' : Module), k < j ∧
        (placed bringup later)[j]? = some m' ∧ m'.compName ≠ "BRINGUP" := by
  constructor
  · intro h
    have hj : ∃ (j : ℕ) (m' : Module), k < j ∧ (placed bringup later)[j]? = some m' ∧
        m'.compName ≠ "BRINGUP" := by
      by_contra hno
      -- then the image ends before the module
      have hle : start.length ≤ m.codeOffset :=
        hord.le (List.mem_map_of_mem (f := Module.segment) (List.mem_of_getElem? hm))
      have hend := length_place_le (ordered_copied hord) hle fun s hs => by
        obtain ⟨i, t, ht, htname, rfl⟩ := mem_copied hs
        rcases Nat.lt_trichotomy i k with hik | hik | hik
        · exact placed_disjoint hord hik ht hm
        · rw [hik, hm] at ht
          cases ht
          exact absurd hname htname
        · exact absurd ⟨i, t, hik, ht, htname⟩ hno
      have hlen := congrArg List.length h
      rw [length_slice] at hlen
      have := List.length_pos_iff.2 hne
      omega
    refine ⟨fun x hx => ?_, hj⟩
    obtain ⟨j, m', hkj, hm', hname'⟩ := hj
    obtain ⟨p, hp⟩ := List.mem_iff_getElem?.1 hx
    obtain ⟨hlt, -⟩ := List.getElem?_eq_some_iff.1 hp
    have hzero := getElem?_not_copied hord hm hname hkj hm' hname' hlt
    rw [← h, getElem?_slice, if_pos hlt, hzero] at hp
    exact (Option.some.inj hp).symm
  · rintro ⟨hzeros, j, m', hkj, hm', hname'⟩
    refine List.ext_getElem? fun p => ?_
    rw [getElem?_slice]
    split
    · next hlt =>
        rw [getElem?_not_copied hord hm hname hkj hm' hname' hlt, List.getElem?_eq_getElem hlt,
          hzeros _ (List.getElem_mem hlt)]
    · next hge => rw [List.getElem?_eq_none (Nat.not_lt.1 hge)]

/-- **The modules are where they belong** exactly when those that are not copied hold zeros and are
followed by one that is. -/
theorem slice_placed_iff (hne : ∀ m ∈ later, m.content ≠ []) :
    (∀ (k : ℕ) (m : Module), (placed bringup later)[k]? = some m →
      slice (place start (copied bringup later)) m.codeOffset m.content.length = m.content) ↔
    ∀ (k : ℕ) (m : Module), later[k]? = some m → m.compName = "BRINGUP" →
      (∀ x ∈ m.content, x = 0) ∧
        ∃ (j : ℕ) (m' : Module), k < j ∧ later[j]? = some m' ∧ m'.compName ≠ "BRINGUP" := by
  constructor
  · intro h k m hm hname
    obtain ⟨off, hoff⟩ := @placed_of_later bringup m later k hm
    obtain ⟨hzeros, j, m', hkj, hm', hname'⟩ := (slice_not_copied_iff hord hoff hname
      (hne m (List.mem_of_getElem? hm))).1 (h k _ hoff)
    obtain ⟨m'', off', hm'', rfl⟩ := later_of_placed hm'
    exact ⟨hzeros, j, m'', hkj, hm'', hname'⟩
  · intro h k m hm
    by_cases hname : m.compName = "BRINGUP"
    · obtain ⟨m', off, hm', rfl⟩ := later_of_placed hm
      obtain ⟨hzeros, j, t, hkj, ht, htname⟩ := h k m' hm' hname
      obtain ⟨off', hoff'⟩ := @placed_of_later bringup t later j ht
      exact (slice_not_copied_iff hord hm hname (hne m' (List.mem_of_getElem? hm'))).2
        ⟨hzeros, j, _, hkj, hoff', htname⟩
    · exact slice_place (ordered_copied hord) (copied_of_placed hm hname)

end Placed

/-! ### The header in the image -/

theorem count_later (hb : BringupFirst info bringup later) : later.length + 1 ≤ 16 := by
  have := hb.count
  rw [hb.modules] at this
  exact this

theorem moduleSize_placed (h : m ∈ placed bringup later) : m.moduleSize = m.content.length := by
  obtain ⟨m', -, off, rfl⟩ := mem_manifestFrom h
  rfl

theorem length_flatten_entries (ms : List Module) :
    (ms.map entryBytes).flatten.length = 32 * ms.length := by
  induction ms with
  | nil => rfl
  | cons m ms ih =>
      rw [List.map_cons, List.flatten_cons, List.length_append, length_entryBytes, ih,
        List.length_cons]
      omega

theorem length_headerBytes (info : ImageInfo) (bringup : Module) (later : List Module) :
    (headerBytes info bringup later).length =
      28 + 32 * ((placed bringup later).filter fun m => 0 < m.moduleSize).length +
        (headerSize - 32 * (later.length + 1)) := by
  unfold headerBytes
  rw [List.length_append, List.length_append, length_startBytes, length_flatten_entries,
    List.length_replicate]

/-- **The header area has its size only if every module has bytes.** -/
theorem nonempty_of_header (hb : BringupFirst info bringup later)
    (h : 4 + (headerBytes info bringup later).length = headerSize) :
    ∀ m ∈ later, m.content ≠ [] := by
  have hcount := count_later hb
  rw [length_headerBytes] at h
  have hlen : ((placed bringup later).filter fun m => 0 < m.moduleSize).length =
      (placed bringup later).length := by
    have hsize : headerSize = 512 := rfl
    rw [placed, length_manifestFrom]
    rw [placed] at h
    omega
  have hall := List.length_filter_eq_length_iff.1 hlen
  intro m hm hnil
  obtain ⟨k, hk⟩ := List.mem_iff_getElem?.1 hm
  obtain ⟨off, hoff⟩ := @placed_of_later bringup m later k hk
  have hpos := of_decide_eq_true (hall _ (List.mem_of_getElem? hoff))
  rw [moduleSize_placed (List.mem_of_getElem? hoff)] at hpos
  exact absurd (List.length_pos_iff.1 hpos) (not_not.2 hnil)

theorem header_front : slice (front info bringup later) 4 (headerBytes info bringup later).length =
    headerBytes info bringup later := by
  have hmid := slice_middle (Mem.leBytes 4 (crc32 (headerBytes info bringup later ++
    bupData bringup.content) 0).toNat) (headerBytes info bringup later) bringup.content
  rw [Mem.length_leBytes] at hmid
  exact hmid

theorem length_bupData (l : List UInt8) : (bupData l).length = min l.length bup1stStageSize := by
  unfold bupData
  split
  · rw [List.length_take]
    omega
  · omega

theorem headerBytes_eq (info : ImageInfo) (hne : ∀ m ∈ later, m.content ≠ []) :
    headerBytes info bringup later =
    startBytes (generateManifest info).1 bringup.content.length ++
      ((placed bringup later).map entryBytes).flatten ++
        List.replicate (headerSize - 32 * (later.length + 1)) 0 := by
  unfold headerBytes
  rw [List.filter_eq_self.2]
  intro m hm
  obtain ⟨m', hm', off, rfl⟩ := mem_manifestFrom hm
  exact decide_eq_true (List.length_pos_iff.2 (hne m' hm'))

/-- The checksum and the first numbers, the entries, the zeros behind them, and the bringup. -/
theorem exists_front (info : ImageInfo) (hne : ∀ m ∈ later, m.content ≠ []) :
    ∃ crc : List UInt8, crc.length = 4 ∧ front info bringup later =
      (crc ++ startBytes (generateManifest info).1 bringup.content.length) ++
      ((placed bringup later).map entryBytes).flatten ++
        (List.replicate (headerSize - 32 * (later.length + 1)) 0 ++ bringup.content) := by
  refine ⟨Mem.leBytes 4 (crc32 (headerBytes info bringup later ++ bupData bringup.content) 0).toNat,
    Mem.length_leBytes 4 _, ?_⟩
  unfold front
  rw [headerBytes_eq info hne]
  simp only [List.append_assoc]

/-- The entry of a module. -/
theorem entry_front (info : ImageInfo) (hne : ∀ m ∈ later, m.content ≠ []) {k : ℕ}
    (hm : (placed bringup later)[k]? = some m) :
    slice (front info bringup later) (manOffset + 32 * k) 32 = entryBytes m := by
  obtain ⟨crc, hcrc, hfront⟩ := exists_front info hne
  obtain ⟨hk, -⟩ := List.getElem?_eq_some_iff.1 hm
  have hstart : (crc ++ startBytes (generateManifest info).1 bringup.content.length).length =
      manOffset := by
    rw [List.length_append, hcrc, length_startBytes]
  rw [hfront, List.append_assoc,
    slice_append_right _ _ (by rw [hstart]; exact Nat.le_add_right _ _),
    hstart, Nat.add_sub_cancel_left, slice_append_left]
  · refine slice_flatten (fun l hl => ?_) ?_
    · obtain ⟨m', -, rfl⟩ := List.mem_map.1 hl
      exact length_entryBytes m'
    · rw [List.getElem?_map, hm]
      rfl
  · rw [length_flatten_entries]
    omega

/-- The zeros behind the entries. -/
theorem rest_front (info : ImageInfo) (hne : ∀ m ∈ later, m.content ≠ []) :
    slice (front info bringup later) (manOffset + 32 * later.length)
    (headerSize - (manOffset + 32 * later.length)) =
      List.replicate (headerSize - (manOffset + 32 * later.length)) 0 := by
  obtain ⟨crc, hcrc, hfront⟩ := exists_front info hne
  have hlen : (crc ++ startBytes (generateManifest info).1 bringup.content.length ++
      ((placed bringup later).map entryBytes).flatten).length = manOffset + 32 * later.length := by
    rw [List.length_append, List.length_append, hcrc, length_startBytes, length_flatten_entries,
      placed, length_manifestFrom]
  have hzeros : headerSize - (manOffset + 32 * later.length) =
      headerSize - 32 * (later.length + 1) := by
    have hman : manOffset = 32 := rfl
    omega
  have hmid := slice_middle (crc ++ startBytes (generateManifest info).1 bringup.content.length ++
    ((placed bringup later).map entryBytes).flatten)
    (List.replicate (headerSize - 32 * (later.length + 1)) 0) bringup.content
  rw [hlen, List.length_replicate, List.append_assoc _ (List.replicate _ _), ← hfront] at hmid
  rw [hzeros]
  exact hmid

section Full

variable (hb : BringupFirst info bringup later) (hne : ∀ m ∈ later, m.content ≠ [])

include hb hne

theorem length_header : (headerBytes info bringup later).length = headerSize - 4 := by
  have hcount := count_later hb
  rw [headerBytes_eq info hne, List.length_append, List.length_append, length_startBytes,
    length_flatten_entries, List.length_replicate, placed, length_manifestFrom]
  have hsize : headerSize = 512 := rfl
  omega

theorem length_front :
    (front info bringup later).length = headerSize + bringup.content.length := by
  unfold front
  rw [List.length_append, List.length_append, Mem.length_leBytes, length_header hb hne]
  rfl

/-- The count in the header. -/
theorem count_front (hfits : HeaderFits info bringup) :
    Mem.ofLe (slice (front info bringup later) 28 1) = later.length := by
  obtain ⟨crc, hcrc, hfront⟩ := exists_front info hne
  have hmods : (generateManifest info).1.moduleInfo.length = later.length + 1 := by
    show (manifestFrom headerSize info.moduleInfo).length = _
    rw [length_manifestFrom, hb.modules, List.length_cons]
  have hcount := count_later hb
  have hstart := @count_startBytes (generateManifest info).1 (List.length_pos_iff.1 (by omega))
    (by omega) hfits.miscOption.1 bringup.content.length
  rw [hmods, Nat.add_sub_cancel] at hstart
  rw [hfront, List.append_assoc, List.append_assoc, slice_append_right _ _ (by omega), hcrc,
    slice_append_left (by rw [length_startBytes]; decide)]
  exact hstart

/-- The bringup behind the header. -/
theorem bringup_front :
    slice (front info bringup later) headerSize bringup.content.length = bringup.content := by
  have hmid := slice_middle (Mem.leBytes 4 (crc32 (headerBytes info bringup later ++
    bupData bringup.content) 0).toNat ++ headerBytes info bringup later) bringup.content []
  rw [List.append_nil, List.length_append, Mem.length_leBytes, length_header hb hne] at hmid
  exact hmid

/-- The bytes under the checksum. -/
theorem checked_front :
    slice (front info bringup later) 4
      (headerSize + min bringup.content.length bup1stStageSize - 4) =
        headerBytes info bringup later ++ bupData bringup.content := by
  have hmid := slice_middle (Mem.leBytes 4 (crc32 (headerBytes info bringup later ++
    bupData bringup.content) 0).toNat) (headerBytes info bringup later ++ bupData bringup.content)
    (bupRest bringup.content)
  have hlen : (headerBytes info bringup later ++ bupData bringup.content).length =
      headerSize + min bringup.content.length bup1stStageSize - 4 := by
    have hsize : 4 ≤ headerSize := by decide
    rw [List.length_append, length_header hb hne, length_bupData]
    omega
  rw [Mem.length_leBytes, hlen, List.append_assoc, List.append_assoc _ (bupData _),
    bupData_append, ← List.append_assoc] at hmid
  exact hmid

/-- The modules are laid out one after the other behind the front, at multiples of 16. -/
theorem ordered_placed (hfits : HeaderFits info bringup)
    (hent : ∀ m ∈ placed bringup later, EntryFits m) :
    Ordered (front info bringup later).length ((placed bringup later).map Module.segment) ∧
      ∀ m ∈ placed bringup later, 16 ∣ m.codeOffset := by
  have hsmall : ∀ m ∈ later, m.content.length < 2 ^ 32 := by
    intro m hm
    obtain ⟨k, hk⟩ := List.mem_iff_getElem?.1 hm
    obtain ⟨off, hoff⟩ := @placed_of_later bringup m later k hk
    exact (hent _ (List.mem_of_getElem? hoff)).moduleSize
  obtain ⟨hnext, hdvd⟩ := nextOff_spec (by decide : 16 ∣ headerSize) hfits.size
  obtain ⟨hord, halign⟩ := manifestFrom_spec hdvd hsmall
  refine ⟨hord.mono ?_, halign⟩
  rw [length_front hb hne]
  exact hnext

section Image

variable (hord : Ordered (front info bringup later).length
  ((placed bringup later).map Module.segment))

include hord

/-- The front is the beginning of the image. -/
theorem slice_image {a n : ℕ} (h : a + n ≤ headerSize + bringup.content.length) :
    slice (place (front info bringup later) (copied bringup later)) a n =
      slice (front info bringup later) a n := by
  refine slice_of_isPrefix (prefix_place (ordered_copied hord)) ?_
  rw [length_front hb hne]
  exact h

/-- The entry of a module in the image. -/
theorem entry_image {k : ℕ} (hm : (placed bringup later)[k]? = some m) :
    slice (place (front info bringup later) (copied bringup later)) (manOffset + 32 * k) 32 =
      entryBytes m := by
  have hcount := count_later hb
  have hsize : headerSize = 512 := rfl
  have hman : manOffset = 32 := rfl
  obtain ⟨hk, -⟩ := List.getElem?_eq_some_iff.1 hm
  rw [placed, length_manifestFrom] at hk
  rw [slice_image hb hne hord (by omega), entry_front info hne hm]

/-- The offset in that entry. -/
theorem entryOffset_image {k : ℕ} (hm : (placed bringup later)[k]? = some m)
    (hfits : EntryFits m) :
    entryOffset (place (front info bringup later) (copied bringup later)) k = m.codeOffset := by
  unfold entryOffset
  rw [← slice_slice (by decide : 8 + 4 ≤ 32), entry_image hb hne hord hm,
    offset_entryBytes hfits.codeOffset]

end Image

/-- **The image of a list all of whose modules have bytes** has everything but, maybe, the modules
that are not copied. -/
theorem layoutOk_iff (hfits : HeaderFits info bringup)
    (hent : ∀ m ∈ placed bringup later, EntryFits m) :
    LayoutOk info bringup later (place (front info bringup later) (copied bringup later)) ↔
      ∀ (k : ℕ) (m : Module), later[k]? = some m → m.compName = "BRINGUP" →
        (∀ x ∈ m.content, x = 0) ∧
          ∃ (j : ℕ) (m' : Module), k < j ∧ later[j]? = some m' ∧ m'.compName ≠ "BRINGUP" := by
  have hcount := count_later hb
  have hsize : headerSize = 512 := rfl
  have hman : manOffset = 32 := rfl
  have hlen := length_front hb hne
  obtain ⟨hord, halign⟩ := ordered_placed hb hne hfits hent
  have hoffset : ∀ {k : ℕ} {m : Module}, (placed bringup later)[k]? = some m →
      entryOffset (place (front info bringup later) (copied bringup later)) k = m.codeOffset :=
    fun hm => entryOffset_image hb hne hord hm (hent _ (List.mem_of_getElem? hm))
  have hplaced : ∀ {k : ℕ}, k < later.length → ∃ m, (placed bringup later)[k]? = some m := by
    intro k hk
    obtain ⟨off, hoff⟩ := @placed_of_later bringup _ later k (List.getElem?_eq_getElem hk)
    exact ⟨_, hoff⟩
  rw [← slice_placed_iff hord hne]
  constructor
  · intro h k m hm
    obtain ⟨m', off, hm', rfl⟩ := later_of_placed hm
    have hmod := h.modules k m' hm'
    rw [hoffset hm] at hmod
    exact hmod
  · intro h
    refine ⟨⟨headerBytes info bringup later, (headerData_eq_some hb).2
      ⟨⟨hfits, fun m hm _ => hent m hm⟩, rfl⟩, ?_, ?_⟩, ?_, ?_, fun k m hm => ?_, ?_,
      fun k m hm => ?_, fun k hk => ?_, fun k hk => ?_, fun i j m hij hj hm => ?_, ?_⟩
    · rw [length_header hb hne]
      rfl
    · rw [slice_image hb hne hord, header_front]
      rw [length_header hb hne]
      omega
    · rw [slice_image hb hne hord le_rfl, bringup_front hb hne]
    · unfold headerCount
      rw [slice_image hb hne hord (by omega), count_front hb hne hfits]
    · rw [manifestEntry_eq_some, entry_image hb hne hord hm]
      exact ⟨hent m (List.mem_of_getElem? hm), rfl⟩
    · rw [slice_image hb hne hord (by omega), rest_front info hne]
    · obtain ⟨off, hoff⟩ := @placed_of_later bringup m later k hm
      rw [hoffset hoff]
      exact h k _ hoff
    · obtain ⟨m, hm⟩ := hplaced hk
      rw [hoffset hm]
      exact halign m (List.mem_of_getElem? hm)
    · obtain ⟨m, hm⟩ := hplaced hk
      rw [hoffset hm, ← hlen]
      exact hord.le (List.mem_map_of_mem (f := Module.segment) (List.mem_of_getElem? hm))
    · obtain ⟨off, hoff⟩ := @placed_of_later bringup m later i hm
      obtain ⟨m', hm'⟩ := hplaced hj
      rw [hoffset hoff, hoffset hm']
      exact placed_disjoint hord hij hoff hm'
    · rw [slice_image hb hne hord (by omega), slice_image hb hne hord (by omega),
        checked_front hb hne]
      unfold front slice
      rw [List.drop_zero, List.append_assoc, List.take_left' (Mem.length_leBytes 4 _)]

end Full

/-- **For which lists of modules the image has its layout.** -/
theorem stitch_layout_iff (info : ImageInfo) (bringup : Module) (later : List Module)
    (hb : BringupFirst info bringup later) :
    (∃ image, stitch info = some image ∧ LayoutOk info bringup later image) ↔
      StitchOk info bringup later := by
  constructor
  · rintro ⟨image, himage, hlayout⟩
    obtain ⟨⟨hfits, hent⟩, rfl⟩ := (stitch_eq_some hb).1 himage
    obtain ⟨h, hdata, hsize, -⟩ := hlayout.header
    obtain ⟨-, rfl⟩ := (headerData_eq_some hb).1 hdata
    have hne := nonempty_of_header hb hsize
    have hent : ∀ m ∈ placed bringup later, EntryFits m := by
      intro m hm
      obtain ⟨m', hm', off, rfl⟩ := mem_manifestFrom hm
      exact hent _ hm (List.length_pos_iff.2 (hne m' hm'))
    exact ⟨hfits, hent, hne, (layoutOk_iff hb hne hfits hent).1 hlayout⟩
  · intro h
    refine ⟨place (front info bringup later) (copied bringup later), ?_, ?_⟩
    · exact (stitch_eq_some hb).2 ⟨⟨h.header, fun m hm _ => h.entries m hm⟩, rfl⟩
    · exact (layoutOk_iff hb h.nonempty h.header h.entries).2 h.named

/-- A module of the template, with the content of its file. -/
def templateModule (compName rawBinPath : String) (loadAddress : ℤ) (content : List UInt8) :
    Module :=
  ⟨compName, "INTL", 0, 0, loadAddress, 1, 1, 1, rawBinPath, content⟩

/-- The bringup, and one module with the given content. -/
def smallImage (content : List UInt8) : ImageInfo where
  moduleInfo := [templateModule "BRINGUP" "fragments/bringup.bin" 0x7000D000 [1, 2, 3],
    templateModule "AON" "fragments/aon.bin" 0x70000000 content]
  vectorTbl := 0x60000000
  iccmLimit := 6
  miscOption := 1

theorem bringupFirst_small (content : List UInt8) :
    BringupFirst (smallImage content)
      (templateModule "BRINGUP" "fragments/bringup.bin" 0x7000D000 [1, 2, 3])
      [templateModule "AON" "fragments/aon.bin" 0x70000000 content] := by
  refine ⟨rfl, ?_, rfl, ?_, fun m hm => ?_⟩
  · show 2 ≤ 16
    decide
  · decide +kernel
  · rw [List.mem_singleton.1 hm]
    show isSubString "bringup" "fragments/aon.bin" = false
    decide +kernel

/-- A module with one byte. -/
theorem stitch_layout_one_byte :
    BringupFirst (smallImage [9])
      (templateModule "BRINGUP" "fragments/bringup.bin" 0x7000D000 [1, 2, 3])
      [templateModule "AON" "fragments/aon.bin" 0x70000000 [9]] ∧
    ∃ image, stitch (smallImage [9]) = some image ∧ LayoutOk (smallImage [9])
      (templateModule "BRINGUP" "fragments/bringup.bin" 0x7000D000 [1, 2, 3])
      [templateModule "AON" "fragments/aon.bin" 0x70000000 [9]] image := by
  refine ⟨bringupFirst_small [9], (stitch_layout_iff _ _ _ (bringupFirst_small [9])).2 ?_⟩
  refine ⟨⟨by decide, by decide, by decide, by decide⟩, fun m hm => ?_, fun m hm => ?_,
    fun k m hm hname => ?_⟩
  · -- the entry can be written, so its numbers fit
    obtain ⟨l, hl⟩ : ∃ l, manifestEntry m = some l := by
      rw [List.mem_singleton.1 hm]
      exact Option.isSome_iff_exists.1 (by decide +kernel)
    exact (manifestEntry_eq_some.1 hl).1
  · rw [List.mem_singleton.1 hm]
    exact List.cons_ne_nil _ _
  · rw [List.mem_singleton.1 (List.mem_of_getElem? hm)] at hname
    exact absurd hname (by decide)

/-- **A module without bytes**: the image is written, its header area has an entry less, and the
bringup is not where it belongs. -/
theorem not_layoutOk_empty :
    BringupFirst (smallImage [])
      (templateModule "BRINGUP" "fragments/bringup.bin" 0x7000D000 [1, 2, 3])
      [templateModule "AON" "fragments/aon.bin" 0x70000000 []] ∧
    (stitch (smallImage [])).map (fun image => (slice image (headerSize - 32) 3,
      slice image headerSize 3)) = some ([1, 2, 3], [0, 0, 0]) ∧
    ¬ ∃ image, stitch (smallImage []) = some image ∧ LayoutOk (smallImage [])
      (templateModule "BRINGUP" "fragments/bringup.bin" 0x7000D000 [1, 2, 3])
      [templateModule "AON" "fragments/aon.bin" 0x70000000 []] image := by
  have himage : (stitch (smallImage [])).map (fun image => (slice image (headerSize - 32) 3,
      slice image headerSize 3)) = some ([1, 2, 3], [0, 0, 0]) := by decide +kernel
  refine ⟨bringupFirst_small [], himage, ?_⟩
  rintro ⟨image, hstitch, hlayout⟩
  rw [hstitch, Option.map_some] at himage
  have hslice := (Prod.mk.inj (Option.some.inj himage)).2
  exact absurd (hslice.symm.trans hlayout.bringupAt) (by decide)

end PseFw.ImageTool
