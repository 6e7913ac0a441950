/-
**The sections of a segment.**

The image parsers collect the program headers and the lines of the section mapping in two lists, and
take the sections of the `n`-th program header from the `n`-th entry of the other list.  In the
first list are the program headers whose type is one word of capital letters, in the second one the
segments that have sections.  A segment whose program header was read gets the right sections if as
many of the ones as of the others stand before it, or if by chance the line with its number reads
the same.

A segment that lies in no region is passed over, as is one that lies in a region which the map
parser did not take, and, by the parser for Zephyr, the first program header.

Main definitions:

* `MemoryMap` — a map of the linker;
* `places`, `turn`, `turns`, `parseImage` — the parsers, up to `bin_dic`;
* `wanted`, `SectionsExact`, `Paired` — what is wanted;
* `SegmentFits` — the segments for which it is so.

Main results:

* `mem_memoryOf_iff`, `places_of_liesIn` — the regions that are taken, and those a segment lies in;
* `parseImage_eq_placements` — the lines are read as the program headers of `LoadAddr`;
* `paired_iff` — **for which listings and maps the sections are those of the segments**;
* `not_paired_ehFrame` — a program header that is not read, in front of the program.
-/

import PseFw.Lib.Ranked
import PseFw.ImageTool.Listing

set_option relaxedAutoImplicit false
set_option autoImplicit false

namespace PseFw.ImageTool

open Ranked

/-! ### The parsers -/

/-- The regions of `memory` a segment lies in, if it is not empty. -/
def places (memory : List Region) (ph : Ph) : List Region :=
  if ph.fsize = 0 then []
  else memory.filter fun item =>
    item.origin ≤ ph.phyAddr ∧ ph.phyAddr + ph.fsize ≤ item.origin + item.length

/-- The turn of a program header: what it adds to which entries of `bin_dic`; `none` when the list
of sections is too short. -/
def turn (memory : List Region) (sections : List Text) (n : ℕ) (ph : Ph) :
    Option (List (String × Text)) :=
  (places memory ph).mapM fun item => sections[n]?.map fun t => (outBin item, t)

/-- The loop over the program headers. -/
def turns (sc : Script) (memory : List Region) (phs : List Ph) (sections : List Text) :
    Option (List (List (String × Text))) :=
  (phs.zipIdx.drop sc.first).mapM fun x => turn memory sections x.2 x.1

/-- The two scripts, up to `bin_dic`: what the turns add. -/
def parseImage (sc : Script) (map listing : List Text) : Option (List (List (String × Text))) :=
  turns sc (memoryOf sc (map.filterMap readRegion)) (listing.filterMap readPh)
    (listing.filterMap readSections)

/-- `bin_dic`: the options for each key. -/
def binTexts (ts : List (List (String × Text))) : List (String × Text) :=
  Dict.collect Prod.fst Prod.snd (fun added t => t ++ added.2) ts.flatten

/-! ### Maps and listings -/

/-- A line of the map that is not read. -/
abbrev OtherMapLine : Type := { t : Text // readRegion t = none }

namespace MapRegion

variable (r : MapRegion)

/-- The addresses of a region. -/
def Covers (a : ℕ) : Prop := r.origin.value ≤ a ∧ a < r.origin.value + r.length.value

/-- The key of the file of a region. -/
def key : String :=
  if String.ofList r.name.val = "L2SRAM" then "sram" else String.ofList r.name.val

end MapRegion

/-- A map of the linker, the regions of which have no address in common. -/
structure MemoryMap where
  heading : List OtherMapLine
  regions : List MapRegion
  trailing : List OtherMapLine
  disjoint : regions.Pairwise fun r r' => ∀ a, r.Covers a → ¬ r'.Covers a

/-- Its lines. -/
def MemoryMap.lines (map : MemoryMap) : List Text :=
  map.heading.map Subtype.val ++ map.regions.map MapRegion.line ++ map.trailing.map Subtype.val

namespace Segment

variable (s : Segment)

/-- A segment lies in a region. -/
def LiesIn (r : MapRegion) : Prop :=
  r.origin.value ≤ s.physAddr.value ∧
    s.physAddr.value + s.fileSiz.value ≤ r.origin.value + r.length.value

instance (r : MapRegion) : Decidable (s.LiesIn r) := inferInstanceAs (Decidable (_ ∧ _))

end Segment

/-! ### What is wanted -/

/-- What is to be listed for a segment: its sections, for every region it lies in. -/
def wanted (map : MemoryMap) (s : Segment) : List (String × Text) :=
  if s.fileSiz.value = 0 ∨ s.sections = [] then []
  else (map.regions.filter fun r => s.LiesIn r).map fun r => (r.key, options s.sections)

/-- The number of a segment among the program headers that are read. -/
def Listing.number (l : Listing) (i : ℕ) : ℕ := rank Segment.plain l.segments i

/-- What is listed in the turn of a segment; a program header that is not read has no turn, nor have
those in front of the first one. -/
def listed (sc : Script) (l : Listing) (ts : List (List (String × Text))) (i : ℕ) (s : Segment) :
    List (String × Text) :=
  if s.plain = true ∧ sc.first ≤ l.number i then ts[l.number i - sc.first]?.getD [] else []

/-- **The sections are those of the segments.** -/
structure SectionsExact (sc : Script) (map : MemoryMap) (l : Listing)
    (ts : List (List (String × Text))) : Prop where
  /-- Copied for a file are the sections of the segments in the region. -/
  bins : ∀ key, (Dict.get? (binTexts ts) key).getD [] =
    ((l.segments.flatMap (wanted map)).filter fun w => w.1 = key).flatMap Prod.snd
  /-- Every segment adds its sections, and nothing else. -/
  segments : ∀ {i : ℕ} {s : Segment}, l.segments[i]? = some s → listed sc l ts i s = wanted map s
  /-- It adds them to one file. -/
  oneBin : ∀ {i : ℕ} {s : Segment}, l.segments[i]? = some s → s.fileSiz.value ≠ 0 →
    s.sections ≠ [] → (∃ r ∈ map.regions, s.LiesIn r) → ∃! key, ∃ t, (key, t) ∈ listed sc l ts i s
  /-- A segment to be loaded that lies nowhere is not passed over. -/
  notDropped : ∀ {i : ℕ} {s : Segment}, l.segments[i]? = some s →
    s.type.val = ['L', 'O', 'A', 'D'] → s.fileSiz.value ≠ 0 →
    (∀ r ∈ map.regions, ¬ s.LiesIn r) → listed sc l ts i s ≠ []

/-- The script does not fail, and the sections are those of the segments. -/
def Paired (sc : Script) (map : MemoryMap) (l : Listing) : Prop :=
  ∃ ts, parseImage sc map.lines l.lines = some ts ∧ SectionsExact sc map l ts

/-! ### When it is so -/

/-- A region that is read and taken: there may be a region without memory at the same origin before
it, unless such regions are left out. -/
def MemoryMap.Kept (map : MemoryMap) (sc : Script) (k : ℕ) (r : MapRegion) : Prop :=
  r.Readable ∧ (sc.skipEmpty = true ∨ ∀ j < k, ∀ r', map.regions[j]? = some r' →
    r'.Readable → r'.origin.value ≠ r.origin.value)

/-- A segment with sections. -/
def Segment.named (s : Segment) : Bool := !s.sections.isEmpty

/-- The line with a number, of those that name sections, names these ones as far as it is read. -/
def Listing.ReadsAs (l : Listing) (n : ℕ) (names : List SectionName) : Prop :=
  ∃ j s, l.segments[j]? = some s ∧ s.named = true ∧ rank Segment.named l.segments j = n ∧
    readNames (joined s.sections) = joined names

/-- A program header that has its turn. -/
def HasTurn (sc : Script) (l : Listing) (i : ℕ) (s : Segment) : Prop :=
  s.plain = true ∧ sc.first ≤ l.number i

/-- **A segment that is not empty and gets its sections.** -/
structure SegmentFits (sc : Script) (map : MemoryMap) (l : Listing) (i : ℕ) (s : Segment) :
    Prop where
  /-- It has its turn, its region is taken, and the line with its number reads as its own
  sections. -/
  withSections : s.sections ≠ [] → ∀ {k : ℕ} {r : MapRegion}, map.regions[k]? = some r →
    s.LiesIn r → HasTurn sc l i s ∧ map.Kept sc k r ∧
      l.ReadsAs (l.number i) s.sections
  /-- Without sections it has no turn, or its region is not taken. -/
  withoutSections : s.sections = [] → ∀ {k : ℕ} {r : MapRegion}, map.regions[k]? = some r →
    s.LiesIn r → ¬ (HasTurn sc l i s ∧ map.Kept sc k r)
  /-- If it is to be loaded, it lies in a region. -/
  loaded : s.type.val = ['L', 'O', 'A', 'D'] → ∃ r ∈ map.regions, s.LiesIn r

/-! ### The regions that are taken -/

section Memory

variable {sc : Script}

/-- A line of the map. -/
def memoryStep (sc : Script) (memory : List Region) (r : Region) : List Region :=
  if sc.skipEmpty && r.length = 0 then memory
  else if memory.any fun item => item.origin = r.origin then memory
  else memory ++ [r]

theorem memoryOf_eq (lines : List Region) :
    memoryOf sc lines = lines.foldl (memoryStep sc) [] := rfl

theorem any_origin_iff {memory : List Region} {r : Region} :
    (memory.any fun item => item.origin = r.origin) = true ↔
      r.origin ∈ memory.map Region.origin := by
  rw [List.any_eq_true, List.mem_map]
  simp only [decide_eq_true_eq]

variable (sc) in
/-- A line that is left out, one whose origin is taken, and one that is new. -/
theorem memoryStep_cases (memory : List Region) (r : Region) :
    ((sc.skipEmpty = true ∧ r.length = 0 ∨ r.origin ∈ memory.map Region.origin) ∧
      memoryStep sc memory r = memory) ∨
    (¬ (sc.skipEmpty = true ∧ r.length = 0) ∧ r.origin ∉ memory.map Region.origin ∧
      memoryStep sc memory r = memory ++ [r]) := by
  unfold memoryStep
  by_cases hskip : sc.skipEmpty = true ∧ r.length = 0
  · rw [if_pos (by rw [hskip.1, hskip.2]; rfl)]
    exact .inl ⟨.inl hskip, rfl⟩
  · rw [if_neg (by rwa [Bool.and_eq_true, decide_eq_true_eq])]
    by_cases horigin : r.origin ∈ memory.map Region.origin
    · rw [if_pos (any_origin_iff.2 horigin)]
      exact .inl ⟨.inr horigin, rfl⟩
    · rw [if_neg (any_origin_iff.not.2 horigin)]
      exact .inr ⟨hskip, horigin, rfl⟩

variable (sc) in
/-- What a part of the map adds. -/
theorem foldl_memoryStep (memory lines : List Region) :
    ∃ added, lines.foldl (memoryStep sc) memory = memory ++ added ∧ added.Sublist lines ∧
      (∀ r ∈ added, ¬ (sc.skipEmpty = true ∧ r.length = 0)) ∧
      (∀ r ∈ lines, ¬ (sc.skipEmpty = true ∧ r.length = 0) →
        r.origin ∈ (memory ++ added).map Region.origin) ∧
      ((memory.map Region.origin).Nodup → ((memory ++ added).map Region.origin).Nodup) := by
  induction lines generalizing memory with
  | nil =>
      refine ⟨[], (List.append_nil _).symm, List.Sublist.refl _, ?_, ?_, ?_⟩
      · exact fun r hr => absurd hr List.not_mem_nil
      · exact fun r hr => absurd hr List.not_mem_nil
      · rw [List.append_nil]
        exact id
  | cons r lines ih =>
      rw [List.foldl_cons]
      rcases memoryStep_cases sc memory r with ⟨hcase, hstep⟩ | ⟨hskip, horigin, hstep⟩
      · obtain ⟨added, heq, hsub, hadded, hlines, hnodup⟩ := ih memory
        rw [hstep]
        refine ⟨added, heq, hsub.cons r, hadded, ?_, hnodup⟩
        intro x hx hxskip
        rcases List.mem_cons.1 hx with rfl | hx
        · rw [List.map_append]
          exact List.mem_append_left _ (hcase.resolve_left hxskip)
        · exact hlines x hx hxskip
      · obtain ⟨added, heq, hsub, hadded, hlines, hnodup⟩ := ih (memory ++ [r])
        rw [List.append_assoc, List.singleton_append] at heq hlines hnodup
        rw [hstep]
        refine ⟨r :: added, heq, hsub.cons_cons r, ?_, ?_, ?_⟩
        · intro x hx
          rcases List.mem_cons.1 hx with rfl | hx
          · exact hskip
          · exact hadded x hx
        · intro x hx hxskip
          rcases List.mem_cons.1 hx with rfl | hx
          · rw [List.map_append]
            exact List.mem_append_right _ List.mem_cons_self
          · exact hlines x hx hxskip
        · intro hmem
          refine hnodup ?_
          rw [List.map_append, List.nodup_append]
          refine ⟨hmem, List.nodup_singleton _, ?_⟩
          intro a ha b hb
          rw [List.mem_singleton.1 hb]
          rintro rfl
          exact horigin ha

/-- **A region with memory is taken** unless there is one without memory at the same origin before
it that is taken. -/
theorem mem_memoryOf_iff {front back : List Region} {x : Region} (hx : x.length ≠ 0)
    (hfront : ∀ y ∈ front, y.origin = x.origin → y.length = 0) :
    x ∈ memoryOf sc (front ++ x :: back) ↔
      sc.skipEmpty = true ∨ ∀ y ∈ front, y.origin ≠ x.origin := by
  obtain ⟨taken, htaken, hsub, hskip, horigins, hnodup⟩ := foldl_memoryStep sc [] front
  rw [List.nil_append] at htaken horigins hnodup
  have hmemory : memoryOf sc (front ++ x :: back) =
      back.foldl (memoryStep sc) (memoryStep sc taken x) := by
    rw [memoryOf_eq, List.foldl_append, List.foldl_cons, htaken]
  obtain ⟨added, hadded, -, -, -, hnodup'⟩ :=
    foldl_memoryStep sc (memoryStep sc taken x) back
  rw [hmemory, hadded]
  rcases memoryStep_cases sc taken x with ⟨hcase, hstep⟩ | ⟨-, hnew, hstep⟩
  · -- The origin is taken by a region without memory.
    obtain ⟨y, hy, hyx⟩ := List.mem_map.1 (hcase.resolve_left fun h => hx h.2)
    have hyfront := hsub.subset hy
    have hlen := hfront y hyfront hyx
    rw [hstep] at hnodup' ⊢
    refine iff_of_false (fun hmem => ?_) ?_
    · have hsame := List.inj_on_of_nodup_map (hnodup' (hnodup List.nodup_nil))
        (List.mem_append_left _ hy) hmem hyx
      exact hx (hsame ▸ hlen)
    · rintro (h | h)
      · exact hskip y hy ⟨h, hlen⟩
      · exact h y hyfront hyx
  · rw [hstep]
    refine iff_of_true (List.mem_append_left _ (List.mem_append_right _ List.mem_cons_self)) ?_
    by_cases h : sc.skipEmpty = true
    · exact .inl h
    · refine .inr ?_
      intro y hy hyx
      exact hnew (hyx ▸ horigins y hy fun hempty => h hempty.1)

end Memory

/-! ### The region of a segment -/

section Places

variable {sc : Script} {map : MemoryMap} {s : Segment} {k : ℕ} {r : MapRegion}

/-- `memory`. -/
def MemoryMap.memory (map : MemoryMap) (sc : Script) : List Region :=
  memoryOf sc (map.lines.filterMap readRegion)

/-- The regions that are read. -/
theorem filterMap_mapLines (map : MemoryMap) :
    map.lines.filterMap readRegion = map.regions.filterMap MapRegion.region := by
  have hother : ∀ ts : List OtherMapLine, (ts.map Subtype.val).filterMap readRegion = [] := by
    intro ts
    refine List.filterMap_eq_nil_iff.2 ?_
    intro t ht
    obtain ⟨t', _, rfl⟩ := List.mem_map.1 ht
    exact t'.property
  unfold MemoryMap.lines
  rw [List.filterMap_append, List.filterMap_append, hother, hother, List.nil_append,
    List.append_nil, List.filterMap_map]
  exact List.filterMap_congr fun r _ => readRegion_line r

theorem region_eq_some {reg : Region} (h : r.region = some reg) : r.Readable ∧
    reg.origin = r.origin.value ∧ reg.length = r.length.value ∧ outBin reg = r.key := by
  unfold MapRegion.region at h
  by_cases hread : r.Readable
  · rw [dif_pos hread] at h
    cases h
    exact ⟨hread, rfl, rfl, rfl⟩
  · rw [dif_neg hread] at h
    cases h

theorem exists_region (h : r.Readable) : ∃ reg, r.region = some reg := ⟨_, dif_pos h⟩

/-- Of elements that exclude each other only one passes a test. -/
theorem filter_eq_singleton {α : Type} {R : α → α → Prop} {p : α → Bool} {l : List α}
    (hl : l.Pairwise R) (hR : ∀ {a b : α}, R a b → p a = true → p b = false) {x : α} (hx : x ∈ l)
    (hp : p x = true) : l.filter p = [x] := by
  induction l with
  | nil => cases hx
  | cons a l ih =>
      obtain ⟨ha, hl⟩ := List.pairwise_cons.1 hl
      by_cases hpa : p a = true
      · have hnil : l.filter p = [] :=
          List.filter_eq_nil_iff.2 fun b hb => by rw [hR (ha b hb) hpa]; exact Bool.false_ne_true
        rw [List.filter_cons_of_pos hpa, hnil]
        rcases List.mem_cons.1 hx with rfl | hx
        · rfl
        · rw [hR (ha x hx) hpa] at hp
          cases hp
      · rw [List.filter_cons_of_neg hpa]
        rcases List.mem_cons.1 hx with rfl | hx
        · exact absurd hp hpa
        · exact ih hl hx

theorem covers_of_liesIn (hs : s.fileSiz.value ≠ 0) (h : s.LiesIn r) :
    r.Covers s.physAddr.value := by
  obtain ⟨horigin, hend⟩ := h
  exact ⟨horigin, by omega⟩

/-- A segment that is not empty lies in one region at most. -/
theorem filter_liesIn (hs : s.fileSiz.value ≠ 0) (hr : r ∈ map.regions) (h : s.LiesIn r) :
    (map.regions.filter fun r => s.LiesIn r) = [r] := by
  refine filter_eq_singleton map.disjoint ?_ hr (decide_eq_true h)
  intro a b hab ha
  refine decide_eq_false fun hb => ?_
  exact hab _ (covers_of_liesIn hs (of_decide_eq_true ha)) (covers_of_liesIn hs hb)

theorem mem_take_iff {α : Type} {l : List α} {n : ℕ} {x : α} :
    x ∈ l.take n ↔ ∃ j < n, l[j]? = some x := by
  rw [List.mem_iff_getElem?]
  refine exists_congr fun j => ?_
  rw [List.getElem?_take]
  by_cases hj : j < n
  · rw [if_pos hj, and_iff_right hj]
  · rw [if_neg hj]
    exact iff_of_false (by rintro ⟨⟩) fun h => hj h.1

variable (sc) in
/-- **A region is taken** exactly if it is kept. -/
theorem mem_memory_iff {reg : Region} (hreg : r.region = some reg) (hr : map.regions[k]? = some r)
    (hlen : r.length.value ≠ 0) : reg ∈ map.memory sc ↔ map.Kept sc k r := by
  obtain ⟨hread, horigin, hlength, -⟩ := region_eq_some hreg
  obtain ⟨hk, hget⟩ := List.getElem?_eq_some_iff.1 hr
  have hsplit : map.regions = map.regions.take k ++ r :: map.regions.drop (k + 1) := by
    rw [← hget, List.cons_getElem_drop_succ, List.take_append_drop]
  have hlines : map.lines.filterMap readRegion = (map.regions.take k).filterMap MapRegion.region ++
      reg :: (map.regions.drop (k + 1)).filterMap MapRegion.region := by
    rw [filterMap_mapLines]
    conv_lhs => rw [hsplit]
    rw [List.filterMap_append, List.filterMap_cons, hreg]
  have hfront : ∀ y ∈ (map.regions.take k).filterMap MapRegion.region, y.origin = reg.origin →
      y.length = 0 := by
    intro y hy hyx
    obtain ⟨r', hr', hregion⟩ := List.mem_filterMap.1 hy
    obtain ⟨-, horigin', hlength', -⟩ := region_eq_some hregion
    have hdisjoint := map.disjoint
    rw [hsplit] at hdisjoint
    have hapart := (List.pairwise_append.1 hdisjoint).2.2 r' hr' r List.mem_cons_self
    by_contra hne
    exact hapart r.origin.value ⟨by omega, by omega⟩ ⟨le_rfl, by omega⟩
  unfold MemoryMap.memory MemoryMap.Kept
  rw [hlines, mem_memoryOf_iff (hlength ▸ hlen) hfront, and_iff_right hread, horigin]
  refine or_congr_right ?_
  constructor
  · intro hall j hj r' hr' hread'
    obtain ⟨reg', hreg'⟩ := exists_region hread'
    obtain ⟨-, horigin', -⟩ := region_eq_some hreg'
    rw [← horigin']
    exact hall reg' (List.mem_filterMap.2 ⟨r', mem_take_iff.2 ⟨j, hj, hr'⟩, hreg'⟩)
  · intro hall y hy
    obtain ⟨r', hr', hregion⟩ := List.mem_filterMap.1 hy
    obtain ⟨hread', horigin', -⟩ := region_eq_some hregion
    obtain ⟨j, hj, hget'⟩ := mem_take_iff.1 hr'
    rw [horigin']
    exact hall j hj r' hget' hread'

variable (sc map) in
/-- The regions of a segment are among those of the map it lies in. -/
theorem places_sublist (hs : s.fileSiz.value ≠ 0) :
    (places (map.memory sc) ⟨s.fileSiz.value, s.physAddr.value⟩).Sublist
      ((map.regions.filter fun r => s.LiesIn r).filterMap MapRegion.region) := by
  obtain ⟨added, hadded, hsub, -⟩ :=
    foldl_memoryStep sc [] (map.lines.filterMap readRegion)
  have hmemory : (map.memory sc).Sublist (map.lines.filterMap readRegion) := by
    have heq : map.memory sc = [] ++ added := hadded
    rw [heq]
    exact hsub
  have hfilter : (map.lines.filterMap readRegion).filter (fun item =>
      item.origin ≤ s.physAddr.value ∧
        s.physAddr.value + s.fileSiz.value ≤ item.origin + item.length) =
      (map.regions.filter fun r => s.LiesIn r).filterMap MapRegion.region := by
    rw [filterMap_mapLines, List.filter_filterMap, List.filterMap_filter]
    refine List.filterMap_congr ?_
    intro r _
    cases hreg : r.region with
    | none => split <;> rfl
    | some reg =>
        obtain ⟨-, horigin, hlength, -⟩ := region_eq_some hreg
        rw [Option.filter_some, horigin, hlength]
        rfl
  unfold places
  rw [if_neg hs, ← hfilter]
  exact hmemory.filter _

variable (sc) in
/-- **The regions a segment lies in**, as far as they are taken. -/
theorem places_of_liesIn (hs : s.fileSiz.value ≠ 0) (hr : map.regions[k]? = some r)
    (h : s.LiesIn r) :
    (map.Kept sc k r → ∃ reg, outBin reg = r.key ∧
      places (map.memory sc) ⟨s.fileSiz.value, s.physAddr.value⟩ = [reg]) ∧
    (¬ map.Kept sc k r → places (map.memory sc) ⟨s.fileSiz.value, s.physAddr.value⟩ = []) := by
  have hsub := places_sublist sc map hs
  have hlen : r.length.value ≠ 0 := by
    obtain ⟨horigin, hend⟩ := h
    omega
  rw [filter_liesIn hs (List.mem_of_getElem? hr) h] at hsub
  by_cases hread : r.Readable
  · obtain ⟨reg, hreg⟩ := exists_region hread
    obtain ⟨-, horigin, hlength, hkey⟩ := region_eq_some hreg
    have hsingle : [r].filterMap MapRegion.region = [reg] := by
      rw [List.filterMap_cons, hreg]
      rfl
    have hkept := mem_memory_iff sc hreg hr hlen
    have hmem : reg ∈ places (map.memory sc) ⟨s.fileSiz.value, s.physAddr.value⟩ ↔
        reg ∈ map.memory sc := by
      unfold places
      rw [if_neg hs, List.mem_filter, decide_eq_true_eq, horigin, hlength]
      exact and_iff_left h
    rw [hsingle] at hsub
    rcases List.sublist_singleton.1 hsub with hnil | hone
    · rw [hnil] at hmem ⊢
      exact ⟨fun hk => absurd (hmem.2 (hkept.2 hk)) List.not_mem_nil, fun _ => rfl⟩
    · rw [hone] at hmem ⊢
      exact ⟨fun _ => ⟨reg, hkey, rfl⟩, fun hk => absurd (hkept.1 (hmem.1 List.mem_cons_self)) hk⟩
  · have hnone : [r].filterMap MapRegion.region = [] := by
      have hregion : r.region = none := dif_neg hread
      rw [List.filterMap_cons, hregion]
      rfl
    rw [hnone] at hsub
    exact ⟨fun hk => absurd hk.1 hread, fun _ => List.sublist_nil.1 hsub⟩

/-- A segment that lies in no region. -/
theorem places_of_not_liesIn (hs : s.fileSiz.value ≠ 0) (h : ∀ r ∈ map.regions, ¬ s.LiesIn r) :
    places (map.memory sc) ⟨s.fileSiz.value, s.physAddr.value⟩ = [] := by
  have hsub := places_sublist sc map hs
  have hnil : (map.regions.filter fun r => s.LiesIn r) = [] :=
    List.filter_eq_nil_iff.2 fun r hr hlies => h r hr (of_decide_eq_true hlies)
  rw [hnil] at hsub
  exact List.sublist_nil.1 hsub

end Places

/-! ### The lines of the section mapping -/

section Lines

variable {l : Listing} {i : ℕ} {s : Segment}

theorem named_iff : s.named = true ↔ s.sections ≠ [] := by
  unfold Segment.named
  rw [Bool.not_eq_true', List.isEmpty_eq_false_iff]

theorem sectionTexts_eq_map : l.sectionTexts = (l.segments.filter Segment.named).map fun s =>
    option ++ replaceBlanks (readNames (joined s.sections)) := by
  rw [l.sectionTexts_eq]
  induction l.segments with
  | nil => rfl
  | cons s segments ih =>
      rw [List.filterMap_cons, ih]
      unfold lineText
      by_cases h : s.sections = []
      · rw [if_pos h, List.filter_cons_of_neg (fun hnamed => named_iff.1 hnamed h)]
      · rw [if_neg h, List.filter_cons_of_pos (named_iff.2 h)]
        rfl

/-- **The entry with a number** names the sections exactly if the line with that number reads so. -/
theorem sectionTexts_eq_some_iff {n : ℕ} {names : List SectionName} (h : names ≠ []) :
    l.sectionTexts[n]? = some (options names) ↔ l.ReadsAs n names := by
  rw [sectionTexts_eq_map, List.getElem?_map, Option.map_eq_some_iff,
    ← option_append_replaceBlanks h]
  constructor
  · rintro ⟨s, hs, heq⟩
    obtain ⟨j, hj, hnamed, hrank⟩ := exists_rank hs
    exact ⟨j, s, hj, hnamed, hrank, replaceBlanks_injective (List.append_cancel_left heq)⟩
  · rintro ⟨j, s, hj, hnamed, rfl, heq⟩
    exact ⟨s, getElem?_filter hj hnamed, by rw [heq]⟩

/-- **The own line of a segment** has its number if as many segments with sections stand before it
as types that are read; then it must only be in the class. -/
theorem readsAs_of_same_rank (hs : l.segments[i]? = some s) (hnamed : s.named = true)
    (hsame : rank Segment.named l.segments i = l.number i) :
    l.ReadsAs (l.number i) s.sections ↔
      ∀ name ∈ s.sections, ∀ c ∈ name.val, isSectionChar c = true := by
  have hne := named_iff.1 hnamed
  have hown : l.sectionTexts[l.number i]? = lineText s.sections := by
    rw [sectionTexts_eq_map, List.getElem?_map, ← hsame, getElem?_filter hs hnamed]
    unfold lineText
    rw [if_neg hne]
    rfl
  rw [← sectionTexts_eq_some_iff hne, hown, lineText_eq_options_iff hne]

end Lines

/-! ### The turns -/

section Turns

variable {sc : Script} {map : MemoryMap} {l : Listing} {i : ℕ} {s : Segment}
  {ts : List (List (String × Text))}

/-- The turn of a segment. -/
def segmentTurn (sc : Script) (map : MemoryMap) (l : Listing) (i : ℕ) (s : Segment) :
    Option (List (String × Text)) :=
  turn (map.memory sc) l.sectionTexts (l.number i) ⟨s.fileSiz.value, s.physAddr.value⟩

theorem parseImage_eq (sc : Script) (map : MemoryMap) (l : Listing) :
    parseImage sc map.lines l.lines =
      (l.phs.zipIdx.drop sc.first).mapM fun x => turn (map.memory sc) l.sectionTexts x.2 x.1 := rfl

/-- A segment that has its turn. -/
theorem getElem?_phs (hs : l.segments[i]? = some s) (hplain : s.plain = true) :
    l.phs[l.number i]? = some ⟨s.fileSiz.value, s.physAddr.value⟩ := by
  unfold Listing.number
  rw [l.phs_eq, List.getElem?_map, getElem?_filter hs hplain]
  rfl

/-- **What is listed in the turn of a segment.** -/
theorem segmentTurn_eq_some (h : parseImage sc map.lines l.lines = some ts)
    (hs : l.segments[i]? = some s) (hturn : HasTurn sc l i s) :
    segmentTurn sc map l i s = some (listed sc l ts i s) := by
  obtain ⟨hplain, hfirst⟩ := hturn
  have hget : (l.phs.zipIdx.drop sc.first)[l.number i - sc.first]? =
      some (⟨s.fileSiz.value, s.physAddr.value⟩, l.number i) := by
    rw [List.getElem?_drop, Nat.add_sub_cancel' hfirst, List.getElem?_zipIdx,
      getElem?_phs hs hplain, Option.map_some, Nat.zero_add]
  obtain ⟨g, hg, hturn⟩ := getElem?_of_mapM h hget
  unfold listed
  rw [if_pos ⟨hplain, hfirst⟩, hg]
  exact hturn

theorem listed_of_not_hasTurn (h : ¬ HasTurn sc l i s) : listed sc l ts i s = [] := if_neg h

/-- **The script does not fail** exactly if no turn does. -/
theorem exists_parseImage_iff : (∃ ts, parseImage sc map.lines l.lines = some ts) ↔
    ∀ i s, l.segments[i]? = some s → HasTurn sc l i s → (segmentTurn sc map l i s).isSome := by
  constructor
  · rintro ⟨ts, h⟩ i s hs hturn
    rw [segmentTurn_eq_some h hs hturn]
    rfl
  · intro hall
    rw [parseImage_eq, exists_mapM_iff]
    rintro ⟨ph, n⟩ hx
    obtain ⟨j, hj⟩ := List.mem_iff_getElem?.1 hx
    rw [List.getElem?_drop, List.getElem?_zipIdx, Option.map_eq_some_iff] at hj
    obtain ⟨ph', hph, heq⟩ := hj
    cases heq
    rw [l.phs_eq, List.getElem?_map, Option.map_eq_some_iff] at hph
    obtain ⟨s, hs, rfl⟩ := hph
    obtain ⟨i, hi, hplain, hrank⟩ := exists_rank hs
    have hnum : l.number i = 0 + (sc.first + j) := hrank.trans (Nat.zero_add _).symm
    have hsome := hall i s hi ⟨hplain, by omega⟩
    unfold segmentTurn at hsome
    rwa [hnum] at hsome

/-- All that is listed. -/
theorem flatten_eq (h : parseImage sc map.lines l.lines = some ts) :
    ts.flatten = l.segments.zipIdx.flatMap fun x => listed sc l ts x.2 x.1 := by
  rw [parseImage_eq] at h
  rw [flatten_of_mapM h, flatMap_drop_zipIdx l.phs sc.first fun ph n =>
    (turn (map.memory sc) l.sectionTexts n ph).getD [], l.phs_eq, List.zipIdx_map, List.flatMap_map]
  refine (flatMap_filter l.segments fun s n => if sc.first ≤ n then
    (turn (map.memory sc) l.sectionTexts n ⟨s.fileSiz.value, s.physAddr.value⟩).getD []
    else []).trans ?_
  refine List.flatMap_congr ?_
  rintro ⟨s, i⟩ hx
  have hs : l.segments[i]? = some s := List.mem_zipIdx_iff_getElem?.1 hx
  by_cases hturn : HasTurn sc l i s
  · have heq := segmentTurn_eq_some ((parseImage_eq sc map l).trans h) hs hturn
    unfold segmentTurn at heq
    show (if s.plain = true then if sc.first ≤ l.number i then
      (turn (map.memory sc) l.sectionTexts (l.number i) _).getD [] else [] else []) = _
    rw [if_pos hturn.1, if_pos hturn.2, heq]
    rfl
  · rw [listed_of_not_hasTurn hturn]
    show (if s.plain = true then if sc.first ≤ l.number i then _ else [] else []) = []
    by_cases hplain : s.plain = true
    · rw [if_pos hplain, if_neg fun hfirst => hturn ⟨hplain, hfirst⟩]
    · rw [if_neg hplain]

/-- The turn of a segment without a region. -/
theorem segmentTurn_of_nil
    (h : places (map.memory sc) ⟨s.fileSiz.value, s.physAddr.value⟩ = []) :
    segmentTurn sc map l i s = some [] := by
  unfold segmentTurn turn
  rw [h]
  rfl

/-- The turn of a segment with one region. -/
theorem segmentTurn_of_singleton {reg : Region}
    (h : places (map.memory sc) ⟨s.fileSiz.value, s.physAddr.value⟩ = [reg]) :
    segmentTurn sc map l i s =
      l.sectionTexts[l.number i]?.map fun t => [(outBin reg, t)] := by
  unfold segmentTurn turn
  rw [h, List.mapM_cons, List.mapM_nil]
  cases l.sectionTexts[l.number i]? with
  | none => rfl
  | some t => rfl

/-- The options of a key. -/
theorem getD_binTexts (ts : List (List (String × Text))) (key : String) :
    (Dict.get? (binTexts ts) key).getD [] =
      (ts.flatten.filter fun w => w.1 = key).flatMap Prod.snd := by
  have hfold : ∀ ws : List (String × Text),
      (Dict.fold Prod.snd (fun added t => t ++ added.2) ws).getD [] = ws.flatMap Prod.snd := by
    intro ws
    induction ws using List.reverseRecOn with
    | nil => rfl
    | append_singleton ws w ih =>
        rw [Dict.fold_append, List.flatMap_append, ← ih]
        cases Dict.fold Prod.snd (fun (added : String × Text) t => t ++ added.2) ws with
        | none => exact (List.append_nil _).symm
        | some t => exact congrArg (t ++ ·) (List.append_nil _).symm
  unfold binTexts
  rw [Dict.get?_collect, hfold]

end Turns

/-! ### The program headers behind the lines -/

section Headers

variable {sc : Script} {map : MemoryMap} {l : Listing}

/-- The program header of a segment, with its sections. -/
def Segment.header (s : Segment) : ProgramHeader where
  plainType := s.plain
  phyAddr := s.physAddr.value
  fileSiz := s.fileSiz.value
  sections := s.sections.map fun name => String.ofList name.val

/-- The options for the sections of a program header, as they are read from its line. -/
def headerText (h : ProgramHeader) : Text :=
  option ++ replaceBlanks (readNames ([' '].intercalate (h.sections.map String.toList)))

/-- What is added for a segment that is placed. -/
def placedText (p : Placement) : String × Text := (p.key, headerText p.segment)

theorem headerText_header (s : Segment) :
    headerText s.header = option ++ replaceBlanks (readNames (joined s.sections)) := by
  have hnames : (s.sections.map fun name => String.ofList name.val).map String.toList =
      s.sections.map Subtype.val := by
    rw [List.map_map]
    refine List.map_congr_left ?_
    intro name _
    exact String.toList_ofList
  unfold headerText Segment.header joined
  rw [hnames]

/-- The entries of `sections` are those of the program headers that name sections. -/
theorem sectionTexts_eq_headers : l.sectionTexts =
    ((l.segments.map Segment.header).filter fun h => h.sections ≠ []).map headerText := by
  have hnamed : ∀ s : Segment, decide (s.header.sections ≠ []) = s.named := by
    intro s
    rw [Bool.eq_iff_iff, decide_eq_true_eq, named_iff]
    exact not_congr List.map_eq_nil_iff
  rw [sectionTexts_eq_map, List.filter_map, List.map_map]
  refine (List.map_congr_left fun s _ => (headerText_header s).symm).trans ?_
  exact congrArg (List.map _) (List.filter_congr fun s _ => (hnamed s).symm)

/-- The entries of `fsize` and of `phy_addr` are those of the program headers of one word. -/
theorem phs_eq_headers : l.phs = ((l.segments.map Segment.header).filter fun h => h.plainType).map
    fun h => ⟨h.fileSiz, h.phyAddr⟩ := by
  rw [l.phs_eq, List.filter_map, List.map_map]
  rfl

/-- A turn places the segment and lists the sections of its number. -/
theorem turn_eq_placementsAt (memory : List Region) (sections : List ProgramHeader) (n : ℕ)
    (h : ProgramHeader) : turn memory (sections.map headerText) n ⟨h.fileSiz, h.phyAddr⟩ =
      (placementsAt memory sections n h).map (List.map placedText) := by
  unfold turn places placementsAt
  by_cases hfs : h.fileSiz = 0
  · rw [if_pos hfs, if_pos hfs]
    rfl
  · rw [if_neg hfs, if_neg hfs, ← mapM_map_result, List.getElem?_map]
    cases sections[n]? with
    | none => rfl
    | some s => rfl

/-- The loop places the segments one after the other. -/
theorem turns_eq_placements (lines : List Region) (headers : List ProgramHeader) :
    (turns sc (memoryOf sc lines)
      ((headers.filter fun h => h.plainType).map fun h => ⟨h.fileSiz, h.phyAddr⟩)
      ((headers.filter fun h => h.sections ≠ []).map headerText)).map List.flatten =
      (placements sc lines headers).map (List.map placedText) := by
  have hflatten : (List.flatten ∘ List.map (List.map placedText)) =
      List.map placedText ∘ List.flatten := funext fun ps => List.map_flatten.symm
  unfold turns placements
  rw [List.zipIdx_map, ← List.map_drop, List.mapM_map, Option.map_map, ← hflatten,
    ← Option.map_map, ← mapM_map_result]
  refine congrArg (Option.map List.flatten) (congrArg (fun f => List.mapM f _) ?_)
  exact funext fun x => turn_eq_placementsAt _ _ x.2 x.1

/-- **The lines are read as the program headers**: with the text of the listing and of the map the
scripts place what they place with the headers and the regions that can be read. -/
theorem parseImage_eq_placements (sc : Script) (map : MemoryMap) (l : Listing) :
    (parseImage sc map.lines l.lines).map List.flatten =
      (placements sc (map.regions.filterMap MapRegion.region)
        (l.segments.map Segment.header)).map (List.map placedText) := by
  have hlists : parseImage sc map.lines l.lines =
      turns sc (memoryOf sc (map.lines.filterMap readRegion)) l.phs l.sectionTexts := rfl
  rw [hlists, filterMap_mapLines, phs_eq_headers, sectionTexts_eq_headers, turns_eq_placements]

end Headers

/-! ### For which listings it is so -/

section Paired

variable {sc : Script} {map : MemoryMap} {l : Listing} {i : ℕ} {s : Segment}
  {ts : List (List (String × Text))}

theorem wanted_of_liesIn {k : ℕ} {r : MapRegion} (hfs : s.fileSiz.value ≠ 0)
    (hsec : s.sections ≠ []) (hr : map.regions[k]? = some r) (h : s.LiesIn r) :
    wanted map s = [(r.key, options s.sections)] := by
  unfold wanted
  rw [if_neg (not_or.2 ⟨hfs, hsec⟩), filter_liesIn hfs (List.mem_of_getElem? hr) h]
  rfl

theorem wanted_of_not_liesIn (h : ∀ r ∈ map.regions, ¬ s.LiesIn r) : wanted map s = [] := by
  have hnil : (map.regions.filter fun r => s.LiesIn r) = [] :=
    List.filter_eq_nil_iff.2 fun r hr hlies => h r hr (of_decide_eq_true hlies)
  unfold wanted
  rw [hnil]
  split <;> rfl

/-- **Segments that get their sections fit.** -/
theorem segmentFits_of_exact (h : parseImage sc map.lines l.lines = some ts)
    (hexact : SectionsExact sc map l ts) (hs : l.segments[i]? = some s)
    (hfs : s.fileSiz.value ≠ 0) : SegmentFits sc map l i s := by
  have hlisted := hexact.segments hs
  refine ⟨?_, ?_, ?_⟩
  · intro hsec k r hr hlies
    rw [wanted_of_liesIn hfs hsec hr hlies] at hlisted
    have hturn : HasTurn sc l i s := by
      by_contra hno
      rw [listed_of_not_hasTurn hno] at hlisted
      cases hlisted
    have hsome := segmentTurn_eq_some h hs hturn
    rw [hlisted] at hsome
    obtain ⟨hkept, hnot⟩ := places_of_liesIn sc hfs hr hlies
    by_cases hk : map.Kept sc k r
    · obtain ⟨reg, -, hplaces⟩ := hkept hk
      rw [segmentTurn_of_singleton hplaces, Option.map_eq_some_iff] at hsome
      obtain ⟨t, ht, heq⟩ := hsome
      have htext : t = options s.sections := (Prod.mk.inj (List.cons.inj heq).1).2
      exact ⟨hturn, hk, (sectionTexts_eq_some_iff hsec).1 (htext ▸ ht)⟩
    · rw [segmentTurn_of_nil (hnot hk)] at hsome
      cases hsome
  · rintro hsec k r hr hlies ⟨hturn, hk⟩
    have hnil : wanted map s = [] := if_pos (.inr hsec)
    obtain ⟨reg, -, hplaces⟩ := (places_of_liesIn sc hfs hr hlies).1 hk
    have hsome := segmentTurn_eq_some h hs hturn
    rw [hlisted, hnil, segmentTurn_of_singleton hplaces, Option.map_eq_some_iff] at hsome
    obtain ⟨t, -, heq⟩ := hsome
    cases heq
  · intro hload
    by_contra hno
    have hnone : ∀ r ∈ map.regions, ¬ s.LiesIn r := fun r hr hlies => hno ⟨r, hr, hlies⟩
    exact hexact.notDropped hs hload hfs hnone (hlisted.trans (wanted_of_not_liesIn hnone))

/-- A segment that fits: its turn does not fail, and lists what is wanted. -/
theorem segmentTurn_of_fits (hfits : s.fileSiz.value ≠ 0 → SegmentFits sc map l i s) :
    (HasTurn sc l i s → segmentTurn sc map l i s = some (wanted map s)) ∧
      (¬ HasTurn sc l i s → wanted map s = []) := by
  by_cases hfs : s.fileSiz.value = 0
  · have hnil : wanted map s = [] := if_pos (.inl hfs)
    have hplaces : places (map.memory sc) ⟨s.fileSiz.value, s.physAddr.value⟩ = [] := if_pos hfs
    rw [hnil]
    exact ⟨fun _ => segmentTurn_of_nil hplaces, fun _ => rfl⟩
  · obtain ⟨hwith, hwithout, -⟩ := hfits hfs
    by_cases hlies : ∃ r ∈ map.regions, s.LiesIn r
    · obtain ⟨r, hr, hlies⟩ := hlies
      obtain ⟨k, hk⟩ := List.mem_iff_getElem?.1 hr
      obtain ⟨hkept, hnot⟩ := places_of_liesIn sc hfs hk hlies
      by_cases hsec : s.sections = []
      · have hnil : wanted map s = [] := if_pos (.inr hsec)
        rw [hnil]
        refine ⟨fun hturn => ?_, fun _ => rfl⟩
        exact segmentTurn_of_nil (hnot fun h => hwithout hsec hk hlies ⟨hturn, h⟩)
      · obtain ⟨hturn, htaken, htext⟩ := hwith hsec hk hlies
        obtain ⟨reg, hkey, hplaces⟩ := hkept htaken
        refine ⟨fun _ => ?_, fun h => absurd hturn h⟩
        rw [segmentTurn_of_singleton hplaces, (sectionTexts_eq_some_iff hsec).2 htext,
          wanted_of_liesIn hfs hsec hk hlies, ← hkey]
        rfl
    · have hnone : ∀ r ∈ map.regions, ¬ s.LiesIn r := fun r hr h => hlies ⟨r, hr, h⟩
      rw [wanted_of_not_liesIn hnone]
      exact ⟨fun _ => segmentTurn_of_nil (places_of_not_liesIn hfs hnone), fun _ => rfl⟩

/-- **For which listings and maps the sections are those of the segments**: every segment that is
not empty fits. -/
theorem paired_iff (sc : Script) (map : MemoryMap) (l : Listing) : Paired sc map l ↔
    ∀ i s, l.segments[i]? = some s → s.fileSiz.value ≠ 0 → SegmentFits sc map l i s := by
  constructor
  · rintro ⟨ts, h, hexact⟩ i s hs hfs
    exact segmentFits_of_exact h hexact hs hfs
  · intro hfits
    obtain ⟨ts, h⟩ := exists_parseImage_iff.2 fun i s hs hturn => by
      rw [(segmentTurn_of_fits (hfits i s hs)).1 hturn]
      rfl
    have hsegments : ∀ {i : ℕ} {s : Segment}, l.segments[i]? = some s →
        listed sc l ts i s = wanted map s := by
      intro i s hs
      obtain ⟨hturn, hnot⟩ := segmentTurn_of_fits (hfits i s hs)
      by_cases hhas : HasTurn sc l i s
      · exact Option.some.inj ((segmentTurn_eq_some h hs hhas).symm.trans (hturn hhas))
      · rw [listed_of_not_hasTurn hhas, hnot hhas]
    refine ⟨ts, h, ⟨?_, hsegments, ?_, ?_⟩⟩
    · intro key
      have hflat : ts.flatten = l.segments.flatMap (wanted map) := by
        have hfst : l.segments.flatMap (wanted map) =
            (l.segments.zipIdx.map Prod.fst).flatMap (wanted map) := by
          rw [List.zipIdx_map_fst]
        rw [flatten_eq h, hfst, List.flatMap_map]
        refine List.flatMap_congr ?_
        rintro ⟨s, i⟩ hx
        exact hsegments (List.mem_zipIdx_iff_getElem?.1 hx)
      rw [getD_binTexts, hflat]
    · intro i s hs hfs hsec hlies
      obtain ⟨r, hr, hlies⟩ := hlies
      obtain ⟨k, hk⟩ := List.mem_iff_getElem?.1 hr
      rw [hsegments hs, wanted_of_liesIn hfs hsec hk hlies]
      refine ⟨r.key, ⟨_, List.mem_cons_self⟩, ?_⟩
      rintro key ⟨t, ht⟩
      exact (Prod.mk.inj (List.mem_singleton.1 ht)).1
    · intro i s hs hload hfs hnone
      obtain ⟨r, hr, hlies⟩ := (hfits i s hs hfs).loaded hload
      exact absurd hlies (hnone r hr)

end Paired

/-! ### A program header that is not read -/

/-- A segment of `size` bytes at the address 0 with one section. -/
def oneSection (type : { t : Text // IsType t }) (size : HexField) (name : SectionName) :
    Segment where
  type := type
  offset := ⟨['0'], by decide⟩
  virtAddr := ⟨['0'], by decide⟩
  physAddr := ⟨['0'], by decide⟩
  fileSiz := size
  memSiz := size
  rest := ⟨['R', ' ', '0', 'x', '4'], ['R', ' ', '0', 'x'], '4', rfl, by decide⟩
  notes := []
  sections := [name]

/-- `GNU_EH_FRAME` in front of `LOAD`. -/
def ehFrameListing : Listing where
  heading := []
  segments := [
    oneSection ⟨['G', 'N', 'U', '_', 'E', 'H', '_', 'F', 'R', 'A', 'M', 'E'], 'G', _, rfl,
      by decide, by decide, by decide⟩ ⟨['1', '0'], by decide⟩
      ⟨['.', 'e', 'h', '_', 'f', 'r', 'a', 'm', 'e', '_', 'h', 'd', 'r'], by decide⟩,
    oneSection ⟨['L', 'O', 'A', 'D'], 'L', _, rfl, by decide, by decide, by decide⟩
      ⟨['8', '0'], by decide⟩ ⟨['.', 't', 'e', 'x', 't'], by decide⟩]
  middle := []
  trailing := []

/-- A map with one region. -/
def iccmMap : MemoryMap where
  heading := []
  regions := [⟨⟨['I', 'C', 'C', 'M'], by decide⟩, ⟨['0'], by decide⟩,
    ⟨['5', '0', '0', '0', '0'], by decide⟩, ['x', 'r']⟩]
  trailing := []
  disjoint := List.pairwise_singleton _ _

/-- The program gets the section of the program header in front of it. -/
theorem not_paired_ehFrame : ¬ Paired baremetalImageParse iccmMap ehFrameListing := by
  rintro ⟨ts, h, hexact⟩
  have hfits := segmentFits_of_exact h hexact (i := 1) rfl (by decide)
  obtain ⟨-, -, hreads⟩ := hfits.withSections (by decide) (k := 0) rfl (by decide)
  have htext := (sectionTexts_eq_some_iff (List.cons_ne_nil _ _)).2 hreads
  rw [ehFrameListing.sectionTexts_eq] at htext
  revert htext
  decide

end PseFw.ImageTool
