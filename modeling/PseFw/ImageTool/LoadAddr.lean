/-
**Load addresses.**

`zephyr_image_parse.py` and `baremetal_image_parse.py` cut the program into one file for each memory
region: they go through the program headers, find the regions a segment lies in, and list its
sections for the file of the region.  The address of the first segment of a region is written into
`seg_start.txt`, and `pse_image_tool.py` takes it from there for the module of that name; for other
modules the address of the template stays.

The scripts read the output of `readelf` with two expressions.  The type of a program header must be
one word of capital letters, and a line of the section mapping must name a section; so the lists of
addresses and of sections need not belong together.  If the list of sections is too short the script
ends.  The last command that writes a file decides what is in it.

Main definitions:

* `Region`, `ProgramHeader`, `Script` — the memory map, the program and the two scripts;
* `placements`, `imageParse` — which segments go into which file;
* `loadAddress`, `binFile` — the address in the manifest, and the segments in a file;
* `Agrees` — what is wanted;
* `AddressesOk` — when it is so.

Main results:

* `load_address_iff` — **for which programs the load addresses are those of the files**;
* `not_agrees_sram` — a program in the L2 SRAM.
-/

import PseFw.Lib.Dict
import Mathlib.Order.Bounds.Basic
import Mathlib.Data.String.Basic

set_option relaxedAutoImplicit false
set_option autoImplicit false

namespace PseFw.ImageTool

/-! ### The scripts -/

/-- A character of the name of a region. -/
def plainChar (c : Char) : Bool := c = '_' || c.isUpper || c.isDigit

/-- A line of the memory map. -/
structure Region where
  name : String
  origin : ℕ
  length : ℕ
  /-- The expression accepts no other names. -/
  plain : ∀ c ∈ name.toList, plainChar c = true

/-- A program header, and the sections of the segment. -/
structure ProgramHeader where
  /-- The type is one word of capital letters. -/
  plainType : Bool
  phyAddr : ℕ
  fileSiz : ℕ
  sections : List String
  deriving DecidableEq, Repr

/-- What the two scripts differ in: the program header they start with, and whether regions without
memory are left out. -/
structure Script where
  first : ℕ
  skipEmpty : Bool

/-- `zephyr_image_parse.py`. -/
def zephyrImageParse : Script := ⟨1, true⟩

/-- `baremetal_image_parse.py`. -/
def baremetalImageParse : Script := ⟨0, false⟩

/-- `memory`: the regions, one for each origin. -/
def memoryOf (sc : Script) (lines : List Region) : List Region :=
  lines.foldl (fun memory r =>
    if sc.skipEmpty && r.length = 0 then memory
    else if memory.any fun item => item.origin = r.origin then memory
    else memory ++ [r]) []

/-- `out_bin`. -/
def outBin (r : Region) : String := if r.name = "L2SRAM" then "sram" else r.name

/-- A segment for which there is a place: the key of the file, the address of the program header,
and the segment whose sections are listed. -/
structure Placement where
  key : String
  phyAddr : ℕ
  segment : ProgramHeader
  deriving DecidableEq, Repr

/-- The regions a segment lies in, and what is listed for them. -/
def placementsAt (memory : List Region) (sections : List ProgramHeader) (n : ℕ)
    (ph : ProgramHeader) : Option (List Placement) :=
  if ph.fileSiz = 0 then some []
  else (memory.filter fun item => item.origin ≤ ph.phyAddr ∧
      ph.phyAddr + ph.fileSiz ≤ item.origin + item.length).mapM fun item =>
    sections[n]?.map fun s => ⟨outBin item, ph.phyAddr, s⟩

/-- The loop over the program headers; `none` when the list of sections is too short. -/
def placements (sc : Script) (lines : List Region) (headers : List ProgramHeader) :
    Option (List Placement) :=
  let phs := headers.filter fun h => h.plainType
  let sections := headers.filter fun h => h.sections ≠ []
  ((phs.zipIdx.drop sc.first).mapM fun x =>
    placementsAt (memoryOf sc lines) sections x.2 x.1).map List.flatten

/-- An entry of `bin_start_dic` and of `bin_dic`. -/
structure Bin where
  start : ℕ
  segments : List ProgramHeader

/-- `bin_start_dic` and `bin_dic`. -/
def binDic (ps : List Placement) : List (String × Bin) :=
  Dict.collect Placement.key (fun p => ⟨p.phyAddr, [p.segment]⟩)
    (fun p b => { b with segments := b.segments ++ [p.segment] }) ps

/-- The files and `seg_start.txt`. -/
def imageParse (sc : Script) (lines : List Region) (headers : List ProgramHeader) :
    Option (List (String × Bin)) :=
  (placements sc lines headers).map binDic

/-- The segments in the file with a name: the last command writes it. -/
def binFile (bins : List (String × Bin)) (file : String) : Option (List ProgramHeader) :=
  (bins.reverse.find? fun b => b.1.toLower = file).map fun b => b.2.segments

/-! ### The manifest -/

/-- The modules of the template whose files are made from the program. -/
inductive Stitched
  | iccm
  | dccm
  | sram
  | aon
  deriving DecidableEq, Repr

/-- `COMP_NAME`. -/
def Stitched.compName : Stitched → String
  | .iccm => "ICCM"
  | .dccm => "DCCM"
  | .sram => "SRAM"
  | .aon => "AON"

/-- `LOAD_ADDR`. -/
def Stitched.loadAddr : Stitched → ℕ
  | .iccm => 0x0
  | .dccm => 0x20000000
  | .sram => 0x60000000
  | .aon => 0x70000000

/-- The file in `PATH`, without its directory and `.bin`. -/
def Stitched.file : Stitched → String
  | .iccm => "iccm"
  | .dccm => "dccm"
  | .sram => "sram"
  | .aon => "aon_task"

/-- `load_config`: the load address of a module, from the first line with its name. -/
def loadAddress (bins : List (String × Bin)) (t : Stitched) : ℕ :=
  ((Dict.get? bins t.compName).map fun b => b.start).getD t.loadAddr

/-- **What is wanted**: the load address of a module is the lowest address of the segments in its
file. -/
def Agrees (bins : List (String × Bin)) : Prop :=
  ∀ t segs, binFile bins (Stitched.file t) = some segs →
    IsLeast {a | ∃ s ∈ segs, s.phyAddr = a} (loadAddress bins t)

/-! ### When it is so -/

/-- The addresses of the segments listed under a key. -/
def addresses (ps : List Placement) (key : String) : Set ℕ :=
  {a | ∃ p ∈ ps, p.key = key ∧ p.segment.phyAddr = a}

/-- The address of the first program header under a key. -/
def firstIn (ps : List Placement) (key : String) : Option ℕ :=
  (ps.find? fun p => p.key = key).map fun p => p.phyAddr

/-- The first program header under a key has the lowest address. -/
def FirstLowest (ps : List Placement) (key : String) : Prop :=
  ∀ a, firstIn ps key = some a → IsLeast (addresses ps key) a

/-- The file of the L2 SRAM is written after the one of a region called `SRAM`. -/
def L2Last (ps : List Placement) : Prop :=
  firstIn ps "sram" ≠ none ∧
    Dict.firstIdx Placement.key ps "SRAM" < Dict.firstIdx Placement.key ps "sram"

/-- **When the load addresses are right.** -/
structure AddressesOk (ps : List Placement) : Prop where
  iccm : FirstLowest ps "ICCM"
  dccm : FirstLowest ps "DCCM"
  /-- The name `sram` is not that of the module, which keeps the address of the template. -/
  l2sram : firstIn ps "SRAM" = none → firstIn ps "sram" ≠ none →
    IsLeast (addresses ps "sram") 0x60000000
  /-- A region called `SRAM` gives the address, and shares the file with the L2 SRAM. -/
  sram : ∀ a, firstIn ps "SRAM" = some a →
    (¬ L2Last ps → IsLeast (addresses ps "SRAM") a) ∧ (L2Last ps → IsLeast (addresses ps "sram") a)
  /-- The file of the module is that of a region called `AON_TASK`. -/
  aon : firstIn ps "AON_TASK" ≠ none →
    IsLeast (addresses ps "AON_TASK") ((firstIn ps "AON").getD 0x70000000)

/-! ### The keys -/

theorem exists_of_mem_mapM {α β : Type} {f : α → Option β} {l : List α} {ys : List β}
    (h : l.mapM f = some ys) {y : β} (hy : y ∈ ys) : ∃ x ∈ l, f x = some y := by
  induction l generalizing ys with
  | nil =>
      cases h
      cases hy
  | cons x l ih =>
      rw [List.mapM_cons] at h
      obtain ⟨z, hz, h⟩ := Option.bind_eq_some_iff.1 h
      obtain ⟨zs, hzs, h⟩ := Option.bind_eq_some_iff.1 h
      cases h
      rcases List.mem_cons.1 hy with rfl | hy
      · exact ⟨x, List.mem_cons_self, hz⟩
      · obtain ⟨x', hx', hfx'⟩ := ih hzs hy
        exact ⟨x', List.mem_cons_of_mem _ hx', hfx'⟩

/-- Every key comes from a region. -/
theorem key_of_placements {sc : Script} {lines : List Region} {headers : List ProgramHeader}
    {ps : List Placement} (h : placements sc lines headers = some ps) :
    ∀ p ∈ ps, ∃ r, p.key = outBin r := by
  obtain ⟨pss, hpss, rfl⟩ := Option.map_eq_some_iff.1 h
  intro p hp
  obtain ⟨l, hl, hpl⟩ := List.mem_flatten.1 hp
  obtain ⟨x, -, hx⟩ := exists_of_mem_mapM hpss hl
  unfold placementsAt at hx
  split at hx
  · cases hx
    cases hpl
  · obtain ⟨r, -, hr⟩ := exists_of_mem_mapM hx hpl
    obtain ⟨s, -, rfl⟩ := Option.map_eq_some_iff.1 hr
    exact ⟨r, rfl⟩

theorem toNat_lt_of_plainChar {c : Char} (h : plainChar c = true) : c.toNat < 128 := by
  unfold plainChar Char.isUpper Char.isDigit at h
  simp only [Bool.or_eq_true, decide_eq_true_eq, Bool.and_eq_true, ge_iff_le] at h
  rcases h with (rfl | ⟨-, h⟩) | ⟨-, h⟩
  · decide
  · exact Nat.lt_of_le_of_lt (UInt32.le_iff_toNat_le.1 h) (by decide)
  · exact Nat.lt_of_le_of_lt (UInt32.le_iff_toNat_le.1 h) (by decide)

/-- The small letters of a plain character go back to it. -/
theorem toUpper_toLower {c : Char} (h : plainChar c = true) : c.toLower.toUpper = c := by
  have hall : ∀ n : Fin 128, plainChar (Char.ofNat n) = true →
      (Char.ofNat n).toLower.toUpper = Char.ofNat n := by decide +kernel
  have hc := hall ⟨c.toNat, toNat_lt_of_plainChar h⟩
  rw [Char.ofNat_toNat] at hc
  exact hc h

/-- **A key whose file has a given name**: the one of the L2 SRAM, or the name in capitals. -/
theorem key_of_toLower {r : Region} {file : String} (h : (outBin r).toLower = file) :
    outBin r = "sram" ∨ outBin r = file.toUpper := by
  by_cases hr : r.name = "L2SRAM"
  · exact .inl (if_pos hr)
  · have hout : outBin r = r.name := if_neg hr
    refine .inr ?_
    rw [← h, hout]
    refine String.ext ?_
    show r.name.toList = ((r.name.map Char.toLower).map Char.toUpper).toList
    rw [String.toList_map, String.toList_map, List.map_map]
    refine (List.map_id' _).symm.trans (List.map_congr_left fun c hc => ?_)
    exact (toUpper_toLower (r.plain c hc)).symm

/-! ### The files -/

variable {ps : List Placement} {key : String} {b : Bin} {segs : List ProgramHeader}

/-- What is collected from placements. -/
theorem foldl_segments (l : List Placement) (b : Bin) :
    l.foldl (fun v p => { v with segments := v.segments ++ [p.segment] }) b =
      (⟨b.start, b.segments ++ l.map Placement.segment⟩ : Bin) := by
  induction l generalizing b with
  | nil =>
      rw [List.map_nil, List.append_nil]
      rfl
  | cons p l ih =>
      rw [List.foldl_cons, ih, List.map_cons, List.append_assoc]
      rfl

/-- **The entry of a key**: the address of its first program header, and all its segments. -/
theorem get?_binDic (h : Dict.get? (binDic ps) key = some b) :
    firstIn ps key = some b.start ∧ {a | ∃ s ∈ b.segments, s.phyAddr = a} = addresses ps key := by
  unfold binDic at h
  rw [Dict.get?_collect] at h
  have hhead : ps.find? (fun p => p.key = key) = (ps.filter fun p => p.key = key).head? :=
    List.head?_filter.symm
  have hmem : ∀ p, p ∈ ps.filter (fun p => p.key = key) ↔ p ∈ ps ∧ p.key = key := fun p => by
    rw [List.mem_filter, decide_eq_true_eq]
  unfold firstIn
  rw [hhead]
  cases hf : ps.filter fun p => p.key = key with
  | nil =>
      rw [hf] at h
      cases h
  | cons x xs =>
      rw [hf, Dict.fold, foldl_segments] at h
      cases h
      refine ⟨rfl, Set.ext fun a => ?_⟩
      have hsegs : [x.segment] ++ xs.map Placement.segment =
          (ps.filter fun p => p.key = key).map Placement.segment := by rw [hf]; rfl
      unfold addresses
      simp only [Set.mem_ofPred_eq, hsegs, List.mem_map, hmem]
      constructor
      · rintro ⟨s, ⟨p, ⟨hp, hk⟩, rfl⟩, ha⟩
        exact ⟨p, hp, hk, ha⟩
      · rintro ⟨p, hp, hk, ha⟩
        exact ⟨p.segment, ⟨p, ⟨hp, hk⟩, rfl⟩, ha⟩

theorem firstIn_ne_none_iff : firstIn ps key ≠ none ↔ ∃ p ∈ ps, p.key = key := by
  unfold firstIn
  rw [ne_eq, Option.map_eq_none_iff, List.find?_eq_none]
  simp only [decide_eq_true_eq, not_forall, not_not, exists_prop]

/-- **The load address of a module.** -/
theorem loadAddress_eq (ps : List Placement) (t : Stitched) :
    loadAddress (binDic ps) t = (firstIn ps t.compName).getD t.loadAddr := by
  unfold loadAddress
  cases hget : Dict.get? (binDic ps) t.compName with
  | some b => rw [(get?_binDic hget).1, Option.map_some]
  | none =>
      have hnone : firstIn ps t.compName = none := by
        by_contra hne
        exact Dict.get?_eq_none_iff.1 hget (Dict.mem_keys_collect.2 (firstIn_ne_none_iff.1 hne))
      rw [hnone, Option.map_none]

/-- **The segments in a file** are those of the key with that name that came last. -/
theorem binFile_eq_some {file : String} (h : binFile (binDic ps) file = some segs) :
    ∃ k, k.toLower = file ∧ firstIn ps k ≠ none ∧
      {a | ∃ s ∈ segs, s.phyAddr = a} = addresses ps k ∧
      ∀ k', k'.toLower = file → firstIn ps k' ≠ none →
        Dict.firstIdx Placement.key ps k' ≤ Dict.firstIdx Placement.key ps k := by
  obtain ⟨e, he, rfl⟩ := Option.map_eq_some_iff.1 h
  obtain ⟨hq, hget, hlast⟩ := Dict.last_collect (q := fun k : String => k.toLower = file) he
  obtain ⟨hfirst, haddr⟩ := get?_binDic hget
  refine ⟨e.1, of_decide_eq_true hq, ?_, haddr, fun k' hk' hne => ?_⟩
  · rw [hfirst]
    exact Option.some_ne_none _
  · exact hlast k' (decide_eq_true hk') (firstIn_ne_none_iff.1 hne)

/-- A key makes a file. -/
theorem binFile_of_key {file : String} (hkey : key.toLower = file) (h : firstIn ps key ≠ none) :
    ∃ segs, binFile (binDic ps) file = some segs := by
  have hmem : key ∈ (binDic ps).map Prod.fst := Dict.mem_keys_collect.2 (firstIn_ne_none_iff.1 h)
  obtain ⟨e, he, rfl⟩ := List.mem_map.1 hmem
  cases hf : (binDic ps).reverse.find? fun b => b.1.toLower = file with
  | none => exact absurd hkey (by simpa using List.find?_eq_none.1 hf e (List.mem_reverse.2 he))
  | some b => exact ⟨b.2.segments, by rw [binFile, hf]; rfl⟩

/-! ### The modules -/

/-- What is wanted of one module. -/
def AgreesAt (ps : List Placement) (t : Stitched) : Prop :=
  ∀ segs, binFile (binDic ps) t.file = some segs →
    IsLeast {a | ∃ s ∈ segs, s.phyAddr = a} (loadAddress (binDic ps) t)

/-- A module whose file belongs to one key. -/
theorem agreesAt_iff {t : Stitched} (hfile : key.toLower = t.file)
    (hkeys : ∀ p ∈ ps, p.key.toLower = t.file → p.key = key) :
    AgreesAt ps t ↔ (firstIn ps key ≠ none →
      IsLeast (addresses ps key) ((firstIn ps t.compName).getD t.loadAddr)) := by
  have hkey : ∀ segs, binFile (binDic ps) t.file = some segs →
      {a | ∃ s ∈ segs, s.phyAddr = a} = addresses ps key ∧ firstIn ps key ≠ none := by
    intro segs hsegs
    obtain ⟨k, hk, hne, haddr, -⟩ := binFile_eq_some hsegs
    obtain ⟨p, hp, rfl⟩ := firstIn_ne_none_iff.1 hne
    rw [hkeys p hp hk] at haddr hne
    exact ⟨haddr, hne⟩
  unfold AgreesAt
  rw [loadAddress_eq]
  constructor
  · intro h hne
    obtain ⟨segs, hsegs⟩ := binFile_of_key hfile hne
    have hleast := h segs hsegs
    rw [(hkey segs hsegs).1] at hleast
    exact hleast
  · intro h segs hsegs
    obtain ⟨haddr, hne⟩ := hkey segs hsegs
    rw [haddr]
    exact h hne

/-- A module whose file and name belong to one key. -/
theorem firstLowest_iff {t : Stitched} : FirstLowest ps t.compName ↔
    (firstIn ps t.compName ≠ none →
      IsLeast (addresses ps t.compName) ((firstIn ps t.compName).getD t.loadAddr)) := by
  unfold FirstLowest
  cases firstIn ps t.compName with
  | none => exact ⟨fun _ h => absurd rfl h, fun _ a ha => (by cases ha)⟩
  | some a =>
      refine ⟨fun h _ => h a rfl, fun h a' ha' => ?_⟩
      cases ha'
      exact h (Option.some_ne_none a)

section Keys

variable (hreg : ∀ p ∈ ps, ∃ r, p.key = outBin r)

include hreg

/-- The keys of the files other than the one of the L2 SRAM. -/
theorem key_unique (file : String) (hfile : "sram".toLower ≠ file) (hkey : file.toUpper = key) :
    ∀ p ∈ ps, p.key.toLower = file → p.key = key := by
  intro p hp hlow
  rw [← hkey]
  obtain ⟨r, hr⟩ := hreg p hp
  rw [hr] at hlow ⊢
  refine (key_of_toLower hlow).resolve_left fun hs => hfile ?_
  rw [← hs]
  exact hlow

theorem agreesAt_iccm : AgreesAt ps .iccm ↔ FirstLowest ps "ICCM" := by
  rw [@agreesAt_iff ps "ICCM" .iccm (by decide +kernel)
    (key_unique hreg "iccm" (by decide +kernel) (by decide +kernel))]
  exact firstLowest_iff (t := .iccm).symm

theorem agreesAt_dccm : AgreesAt ps .dccm ↔ FirstLowest ps "DCCM" := by
  rw [@agreesAt_iff ps "DCCM" .dccm (by decide +kernel)
    (key_unique hreg "dccm" (by decide +kernel) (by decide +kernel))]
  exact firstLowest_iff (t := .dccm).symm

theorem agreesAt_aon : AgreesAt ps .aon ↔ (firstIn ps "AON_TASK" ≠ none →
    IsLeast (addresses ps "AON_TASK") ((firstIn ps "AON").getD 0x70000000)) :=
  agreesAt_iff (by decide +kernel)
    (key_unique hreg "aon_task" (by decide +kernel) (by decide +kernel))

/-- **Which key fills the file of the SRAM.** -/
theorem sram_key (h : binFile (binDic ps) "sram" = some segs) :
    (firstIn ps "SRAM" = none ∨ L2Last ps) ∧ firstIn ps "sram" ≠ none ∧
        {a | ∃ s ∈ segs, s.phyAddr = a} = addresses ps "sram" ∨
      firstIn ps "SRAM" ≠ none ∧ ¬ L2Last ps ∧
        {a | ∃ s ∈ segs, s.phyAddr = a} = addresses ps "SRAM" := by
  obtain ⟨k, hk, hne, haddr, hlast⟩ := binFile_eq_some h
  obtain ⟨p, hp, rfl⟩ := firstIn_ne_none_iff.1 hne
  obtain ⟨r, hr⟩ := hreg p hp
  have hkey : p.key = "sram" ∨ p.key = "SRAM" := by
    have hup : "sram".toUpper = "SRAM" := by decide +kernel
    rw [hr] at hk ⊢
    rw [← hup]
    exact key_of_toLower hk
  rcases hkey with hkey | hkey
  · rw [hkey] at hne haddr hlast
    refine .inl ⟨or_iff_not_imp_left.2 fun hS => ⟨hne, ?_⟩, hne, haddr⟩
    have hle := hlast "SRAM" (by decide +kernel) hS
    refine Nat.lt_of_le_of_ne hle fun heq => ?_
    -- the two keys do not have the same first item
    obtain ⟨p', hp', hkey'⟩ := firstIn_ne_none_iff.1 hS
    have hlt : Dict.firstIdx Placement.key ps "SRAM" < ps.length :=
      List.findIdx_lt_length_of_exists ⟨p', hp', decide_eq_true hkey'⟩
    have h₁ : (ps.get ⟨_, hlt⟩).key = "SRAM" := of_decide_eq_true (List.findIdx_getElem (w := hlt))
    have hlt' : Dict.firstIdx Placement.key ps "sram" < ps.length := heq ▸ hlt
    have h₂ : (ps.get ⟨_, hlt'⟩).key = "sram" :=
      of_decide_eq_true (List.findIdx_getElem (w := hlt'))
    have hsame : ps.get ⟨_, hlt⟩ = ps.get ⟨_, hlt'⟩ := congrArg ps.get (Fin.ext heq)
    rw [hsame, h₂] at h₁
    exact absurd h₁ (by decide)
  · rw [hkey] at hne haddr hlast
    refine .inr ⟨hne, fun hL => ?_, haddr⟩
    exact absurd (hlast "sram" (by decide +kernel) hL.1) (Nat.not_le.2 hL.2)

theorem agreesAt_sram : AgreesAt ps .sram ↔
    (firstIn ps "SRAM" = none → firstIn ps "sram" ≠ none →
      IsLeast (addresses ps "sram") 0x60000000) ∧
    ∀ a, firstIn ps "SRAM" = some a →
      (¬ L2Last ps → IsLeast (addresses ps "SRAM") a) ∧
        (L2Last ps → IsLeast (addresses ps "sram") a) := by
  unfold AgreesAt
  rw [loadAddress_eq]
  constructor
  · intro h
    refine ⟨fun hS hs => ?_, fun a ha => ?_⟩
    · obtain ⟨segs, hsegs⟩ := binFile_of_key (by decide +kernel : "sram".toLower = "sram") hs
      have hleast := h segs hsegs
      rcases sram_key hreg hsegs with ⟨-, -, haddr⟩ | ⟨hS', -⟩
      · rw [haddr, show Stitched.compName .sram = "SRAM" from rfl, hS] at hleast
        exact hleast
      · exact absurd hS hS'
    · have hS : firstIn ps "SRAM" ≠ none := by
        rw [ha]
        exact Option.some_ne_none a
      obtain ⟨segs, hsegs⟩ := binFile_of_key (by decide +kernel : "SRAM".toLower = "sram") hS
      have hleast := h segs hsegs
      rw [show Stitched.compName .sram = "SRAM" from rfl, ha] at hleast
      rcases sram_key hreg hsegs with ⟨hL, -, haddr⟩ | ⟨-, hL, haddr⟩
      · rw [haddr] at hleast
        exact ⟨fun hL' => absurd (hL.resolve_left hS) hL', fun _ => hleast⟩
      · rw [haddr] at hleast
        exact ⟨fun _ => hleast, fun hL' => absurd hL' hL⟩
  · rintro ⟨h₁, h₂⟩ segs hsegs
    rw [show Stitched.compName .sram = "SRAM" from rfl]
    rcases sram_key hreg hsegs with ⟨hL, hs, haddr⟩ | ⟨hS, hL, haddr⟩
    · rw [haddr]
      cases hS : firstIn ps "SRAM" with
      | none => exact h₁ hS hs
      | some a =>
          refine (h₂ a hS).2 (hL.resolve_left ?_)
          rw [hS]
          exact Option.some_ne_none a
    · rw [haddr]
      obtain ⟨a, ha⟩ := Option.ne_none_iff_exists'.1 hS
      rw [ha]
      exact (h₂ a ha).1 hL

theorem agrees_iff : Agrees (binDic ps) ↔ AddressesOk ps := by
  have hall : Agrees (binDic ps) ↔ ∀ t, AgreesAt ps t := Iff.rfl
  rw [hall]
  constructor
  · intro h
    obtain ⟨hl2, hsram⟩ := (agreesAt_sram hreg).1 (h .sram)
    exact ⟨(agreesAt_iccm hreg).1 (h .iccm), (agreesAt_dccm hreg).1 (h .dccm), hl2, hsram,
      (agreesAt_aon hreg).1 (h .aon)⟩
  · intro h t
    cases t with
    | iccm => exact (agreesAt_iccm hreg).2 h.iccm
    | dccm => exact (agreesAt_dccm hreg).2 h.dccm
    | sram => exact (agreesAt_sram hreg).2 ⟨h.l2sram, h.sram⟩
    | aon => exact (agreesAt_aon hreg).2 h.aon

end Keys

/-- **For which programs the load addresses are those of the files.** -/
theorem load_address_iff (sc : Script) (lines : List Region) (headers : List ProgramHeader) :
    (∀ bins, imageParse sc lines headers = some bins → Agrees bins) ↔
      ∀ ps, placements sc lines headers = some ps → AddressesOk ps := by
  constructor
  · intro h ps hps
    refine (agrees_iff (key_of_placements hps)).1 (h _ ?_)
    rw [imageParse, hps]
    rfl
  · intro h bins hbins
    obtain ⟨ps, hps, rfl⟩ := Option.map_eq_some_iff.1 hbins
    exact (agrees_iff (key_of_placements hps)).2 (h ps hps)

/-- The region of the L2 SRAM. -/
def l2Sram : Region :=
  ⟨"L2SRAM", 0x60000000, 0x100000, List.all_eq_true.1 (by decide +kernel)⟩

/-- A program that leaves the beginning of the L2 SRAM free. -/
def sramProgram : List ProgramHeader :=
  [⟨true, 0x60000400, 0x8, [".ARM.exidx"]⟩, ⟨true, 0x60000400, 0x1000, [".text"]⟩]

/-- **A program in the L2 SRAM**: `seg_start.txt` has its address under `sram`, where nobody looks,
and the manifest has the address of the template. -/
theorem not_agrees_sram :
    ((imageParse zephyrImageParse [l2Sram] sramProgram).map fun bins =>
      (bins.map fun b => (b.1, b.2.start), loadAddress bins .sram)) =
        some ([("sram", 0x60000400)], 0x60000000) ∧
    ¬ ∀ bins, imageParse zephyrImageParse [l2Sram] sramProgram = some bins → Agrees bins := by
  refine ⟨by decide +kernel, fun h => ?_⟩
  obtain ⟨bins, hbins⟩ : ∃ bins, imageParse zephyrImageParse [l2Sram] sramProgram = some bins :=
    Option.isSome_iff_exists.1 (by decide +kernel)
  have hleast := h bins hbins .sram [⟨true, 0x60000400, 0x1000, [".text"]⟩]
  have hfile : ((imageParse zephyrImageParse [l2Sram] sramProgram).map fun bins =>
      (binFile bins (Stitched.file .sram), loadAddress bins .sram)) =
        some (some [⟨true, 0x60000400, 0x1000, [".text"]⟩], 0x60000000) := by decide +kernel
  rw [hbins, Option.map_some, Option.some.injEq, Prod.mk.injEq] at hfile
  obtain ⟨s, hs, haddr⟩ := (hleast hfile.1).1
  rw [List.mem_singleton.1 hs, hfile.2] at haddr
  exact absurd haddr (by decide)

end PseFw.ImageTool
