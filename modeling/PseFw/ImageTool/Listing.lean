/-
**The texts the image parsers read.**

The parsers go through the output of `readelf -l`, which has a line for every program header and,
behind them, a line for every segment with the names of its sections, and through the map of the
linker, which has a line for every region of the memory.  A line is tried with the expressions one
after the other; what does not match is passed over.

The type of a program header must be one word of capital letters.  A segment without sections has a
line that does not match, and of the names only the part up to the first character outside the
class is read.  The name of a region must be made of capitals, digits and underscores, must leave
room for two blanks in a column of sixteen characters, and the region must have attributes.

Main definitions:

* `readPh`, `readSections`, `readRegion` — what is taken from a line;
* `Segment`, `Listing`, `MapRegion` — the listings and the regions of a map, with their lines.

Main results:

* `readPh_headerLine`, `readSections_mappingLine` — **what is read of a segment**;
* `lineText_eq_options_iff` — when the names are read as they are;
* `readRegion_line` — what is read of a region.
-/

import PseFw.ImageTool.LoadAddr
import PseFw.ImageTool.MapCheck

set_option relaxedAutoImplicit false
set_option autoImplicit false

namespace PseFw.ImageTool

open Pattern

/-! ### The expressions -/

/-- A blank. -/
def isBlank (c : Char) : Bool := c = ' '

/-- `[0-9a-zA-Z._ ]`. -/
def isSectionChar (c : Char) : Bool := c.isAlphanum || c = '.' || c = '_' || c = ' '

/-- `ph_re`; the address is its ninth piece, and the size in the file the eleventh one. -/
def phRe : List (Piece Char) :=
  [.plus isBlank, .plus Char.isUpper, .plus isBlank, .lit ['0', 'x'], .plus isHex,
    .lit [' ', '0', 'x'], .plus isHex, .lit [' ', '0', 'x'], .plus isHex,
    .lit [' ', '0', 'x'], .plus isHex, .lit [' ', '0', 'x'], .plus isHex, .lit [' ']]

/-- `map_re`; the names are its fourth piece. -/
def mapRe : List (Piece Char) :=
  [.plus isBlank, .plus isHex, .plus isBlank, .plus isSectionChar]

/-- `memory_re`; the name, the origin and the length are its first, fourth and sixth piece. -/
def memoryRe : List (Piece Char) :=
  [.plus plainChar, .plus isBlank, .lit [' ', '0', 'x'], .plus isHex, .lit [' ', '0', 'x'],
    .plus isHex, .lit [' '], .plus isAttribute]

/-- An entry of `fsize` and of `phy_addr`. -/
structure Ph where
  fsize : ℕ
  phyAddr : ℕ
  deriving DecidableEq, Repr

/-- What `ph_re` takes from a line. -/
def readPh (line : Text) : Option Ph :=
  let pieces := matchPre phRe (rstrip line)
  (numberAt 10 pieces).bind fun fsize => (numberAt 8 pieces).map fun phyAddr => ⟨fsize, phyAddr⟩

/-- `' -j '`. -/
def option : Text := [' ', '-', 'j', ' ']

/-- `replace(" ", " -j ")`. -/
def replaceBlanks (t : Text) : Text := t.flatMap fun c => if c = ' ' then option else [c]

/-- What `map_re` takes from a line. -/
def readSections (line : Text) : Option Text :=
  (matchPre mapRe (rstrip line)).bind fun pieces =>
    pieces[3]?.map fun names => option ++ replaceBlanks names

/-- What `memory_re` takes from a line. -/
def readRegion (line : Text) : Option Region :=
  (matchPre memoryRe line).bind fun pieces =>
    let name := String.ofList (pieces.getD 0 [])
    if h : ∀ c ∈ name.toList, plainChar c = true then
      some ⟨name, hexValue (pieces.getD 3 []), hexValue (pieces.getD 5 []), h⟩
    else none

/-! ### The lines of a listing -/

/-- A number of a listing, without `0x`. -/
abbrev HexField : Type := { t : Text // t ≠ [] ∧ ∀ c ∈ t, isHex c = true }

/-- The number. -/
def HexField.value (n : HexField) : ℕ := hexValue n.val

/-- The name of a section. -/
abbrev SectionName : Type := { t : Text // t ≠ [] ∧ ∀ c ∈ t, isSpace c = false }

/-- The types `readelf` writes do not begin like a number, and those that begin with a capital
letter are one word. -/
def IsType (t : Text) : Prop :=
  ∃ c t', t = c :: t' ∧ isBlank c = false ∧ isHex c = false ∧
    (c.isUpper = true → ∀ d ∈ t', isBlank d = false)

/-- A line neither expression matches. -/
abbrev OtherLine : Type := { t : Text // readPh t = none ∧ readSections t = none }

/-- A segment: its program header, the lines behind it, and its sections. -/
structure Segment where
  type : { t : Text // IsType t }
  offset : HexField
  virtAddr : HexField
  physAddr : HexField
  fileSiz : HexField
  memSiz : HexField
  /-- The flags and the alignment. -/
  rest : { t : Text // ∃ t' c, t = t' ++ [c] ∧ isSpace c = false }
  notes : List OtherLine
  sections : List SectionName

namespace Segment

variable (s : Segment)

/-- The line of the program header. -/
def headerLine : Text :=
  [' ', ' '] ++ (s.type.val ++ (List.replicate (14 - s.type.val.length) ' ' ++ ([' ', '0', 'x'] ++
    (s.offset.val ++ ([' ', '0', 'x'] ++ (s.virtAddr.val ++ ([' ', '0', 'x'] ++
    (s.physAddr.val ++ ([' ', '0', 'x'] ++ (s.fileSiz.val ++ ([' ', '0', 'x'] ++
    (s.memSiz.val ++ ([' '] ++ s.rest.val)))))))))))))

/-- The line of the section mapping. -/
def mappingLine (i : ℕ) : Text :=
  [' ', ' ', ' '] ++ ((Nat.toDigits 10 i).leftpad 2 '0' ++ ([' ', ' ', ' ', ' ', ' '] ++
    s.sections.flatMap fun name => name.val ++ [' ']))

/-- The type is one word of capital letters. -/
def plain : Bool := s.type.val.all Char.isUpper

end Segment

/-- The output of `readelf -l`. -/
structure Listing where
  heading : List OtherLine
  segments : List Segment
  middle : List OtherLine
  trailing : List OtherLine

/-- Its lines. -/
def Listing.lines (l : Listing) : List Text :=
  l.heading.map Subtype.val ++
    (l.segments.flatMap fun s => s.headerLine :: s.notes.map Subtype.val) ++
    l.middle.map Subtype.val ++ (l.segments.zipIdx.map fun s => s.1.mappingLine s.2) ++
    l.trailing.map Subtype.val

/-- The name of a region. -/
abbrev RegionName : Type := { t : Text // t ≠ [] ∧ ∀ c ∈ t, isBlank c = false }

/-- A region of the memory configuration; it may have no attributes. -/
structure MapRegion where
  name : RegionName
  origin : HexField
  length : HexField
  attributes : Text

/-- The line of a region. -/
def MapRegion.line (r : MapRegion) : Text :=
  r.name.val ++ (List.replicate (16 - r.name.val.length) ' ' ++ ([' ', '0', 'x'] ++
    (r.origin.val ++ ([' ', '0', 'x'] ++ (r.length.val ++
      if r.attributes = [] then [] else [' '] ++ r.attributes)))))

/-! ### What is read of a program header -/

theorem rstrip_of_last {t : Text} {c : Char} (h : isSpace c = false) :
    rstrip (t ++ [c]) = t ++ [c] := by
  unfold rstrip
  rw [List.reverse_append, List.reverse_singleton, List.singleton_append, List.dropWhile_cons,
    if_neg (by rw [h]; decide), List.reverse_cons, List.reverse_reverse]

theorem rstrip_append_space (t : Text) {b : Text} (h : ∀ c ∈ b, isSpace c = true) :
    rstrip (t ++ b) = rstrip t := by
  unfold rstrip
  rw [List.reverse_append, List.dropWhile_append_of_pos]
  intro c hc
  exact h c (List.mem_reverse.1 hc)

theorem isBlank_of {p : Char → Bool} (hp : p ' ' = false) {c : Char} (h : p c = true) :
    isBlank c = false := by
  refine decide_eq_false ?_
  rintro rfl
  rw [hp] at h
  cases h

/-- A word that is not made of the characters of the class. -/
theorem matchPre_word_eq_none {p : Char → Bool} {ps : List (Piece Char)} {w : Text}
    (hblank : ∀ d ∈ w, isBlank d = false) (hnot : ¬ ∀ d ∈ w, p d = true) (t : Text) :
    matchPre (.plus p :: .plus isBlank :: ps) (w ++ t) = none := by
  refine matchPre_plus_eq_none ?_
  intro l s' heq _ hp
  rcases List.append_eq_append_iff.1 heq with ⟨m, rfl, -⟩ | ⟨m, rfl, rfl⟩
  · -- The run takes all of the word.
    exact absurd (fun d hd => hp d (List.mem_append_left _ hd)) hnot
  · cases m with
    | nil =>
        rw [List.append_nil] at hnot
        exact absurd hp hnot
    | cons d m =>
        exact matchPre_plus_cons (hblank d (List.mem_append_right _ List.mem_cons_self)) _

/-- A number and what separates it from the next one. -/
theorem matchPre_field {ps : List (Piece Char)} (t : Text) (n : HexField) (s : Text) :
    matchPre (.plus isHex :: .lit (' ' :: t) :: ps) (n.val ++ ((' ' :: t) ++ s)) =
      (matchPre ps s).map fun r => n.val :: (' ' :: t) :: r := by
  rw [matchPre_plus_append n.property.1 n.property.2, matchPre_lit_append, Option.map_map]
  · rfl
  · intro c s' h
    cases h
    decide
  · intro c s' hc
    refine matchPre_lit_cons ?_ _ _
    rintro rfl
    exact absurd hc (by decide)

section Header

variable (s : Segment)

theorem rstrip_headerLine : rstrip s.headerLine = s.headerLine := by
  obtain ⟨t, c, hrest, hc⟩ := s.rest.property
  unfold Segment.headerLine
  rw [hrest]
  simp only [← List.append_assoc]
  exact rstrip_of_last hc

/-- The numbers of a program header, and what is behind them. -/
def numbers : Text :=
  ['0', 'x'] ++ (s.offset.val ++ ([' ', '0', 'x'] ++ (s.virtAddr.val ++ ([' ', '0', 'x'] ++
    (s.physAddr.val ++ ([' ', '0', 'x'] ++ (s.fileSiz.val ++ ([' ', '0', 'x'] ++
    (s.memSiz.val ++ ([' '] ++ s.rest.val))))))))))

/-- The blanks behind the type. -/
def padding : Text := List.replicate (14 - s.type.val.length) ' ' ++ [' ']

theorem headerLine_eq :
    s.headerLine = [' ', ' '] ++ (s.type.val ++ (padding s ++ numbers s)) := by
  unfold padding
  rw [List.append_assoc]
  rfl

theorem padding_eq_cons : ∃ t, padding s = ' ' :: t := by
  unfold padding
  rw [← List.replicate_succ']
  exact ⟨_, List.replicate_succ⟩

theorem isBlank_padding : ∀ c ∈ padding s, isBlank c = true := by
  intro c hc
  rcases List.mem_append.1 hc with hc | hc
  · rw [List.eq_of_mem_replicate hc]
    rfl
  · rw [List.mem_singleton.1 hc]
    rfl

/-- The pieces of the numbers. -/
def numbersRe : List (Piece Char) :=
  [.lit ['0', 'x'], .plus isHex, .lit [' ', '0', 'x'], .plus isHex, .lit [' ', '0', 'x'],
    .plus isHex, .lit [' ', '0', 'x'], .plus isHex, .lit [' ', '0', 'x'], .plus isHex, .lit [' ']]

theorem matchPre_numbers : matchPre numbersRe (numbers s) =
    some [['0', 'x'], s.offset.val, [' ', '0', 'x'], s.virtAddr.val, [' ', '0', 'x'],
      s.physAddr.val, [' ', '0', 'x'], s.fileSiz.val, [' ', '0', 'x'], s.memSiz.val, [' ']] := by
  unfold numbersRe numbers
  rw [matchPre_lit_append, matchPre_field, matchPre_field, matchPre_field, matchPre_field,
    matchPre_field]
  rfl

/-- The blanks in front of the numbers. -/
theorem matchPre_padding : matchPre (.plus isBlank :: numbersRe) (padding s ++ numbers s) =
    (matchPre numbersRe (numbers s)).map (padding s :: ·) := by
  obtain ⟨t, ht⟩ := padding_eq_cons s
  refine matchPre_plus_append (ht ▸ List.cons_ne_nil _ _) (isBlank_padding s) ?_ ?_
  · intro c s' h
    cases h
    rfl
  · intro c s' hc
    refine matchPre_lit_cons ?_ _ _
    rintro rfl
    exact absurd hc (by decide)

/-- The blanks in front of a line. -/
theorem matchPre_front {ps : List (Piece Char)} (hps : ∀ t, matchPre ps (' ' :: t) = none)
    {l t : Text} (hl : l ≠ []) (hblank : ∀ c ∈ l, isBlank c = true)
    (ht : ∀ c t', t = c :: t' → isBlank c = false) :
    matchPre (.plus isBlank :: ps) (l ++ t) = (matchPre ps t).map (l :: ·) := by
  refine matchPre_plus_append hl hblank ht ?_
  intro d s' hd
  rw [of_decide_eq_true hd]
  exact hps s'

/-- The type is not blank. -/
theorem isBlank_type {t : Text} : ∀ c t', s.type.val ++ t = c :: t' → isBlank c = false := by
  obtain ⟨d, t'', htype, hblank, -, -⟩ := s.type.property
  intro c t' h
  rw [htype] at h
  cases h
  exact hblank

/-- A type that is one word of capital letters. -/
theorem matchPre_type (h : s.plain = true) :
    matchPre (.plus Char.isUpper :: .plus isBlank :: numbersRe)
      (s.type.val ++ (padding s ++ numbers s)) =
      (matchPre (.plus isBlank :: numbersRe) (padding s ++ numbers s)).map (s.type.val :: ·) := by
  obtain ⟨t, ht⟩ := padding_eq_cons s
  obtain ⟨c, t', htype, -⟩ := s.type.property
  refine matchPre_plus_append (htype ▸ List.cons_ne_nil _ _) (List.all_eq_true.1 h) ?_ ?_
  · intro d s' hd
    rw [ht] at hd
    cases hd
    rfl
  · intro d s' hd
    exact matchPre_plus_cons (isBlank_of rfl hd) _

/-- Another type: behind its capital letters there is no blank. -/
theorem matchPre_type_eq_none (h : s.plain = false) (t : Text) (ps : List (Piece Char)) :
    matchPre (.plus Char.isUpper :: .plus isBlank :: ps) (s.type.val ++ t) = none := by
  obtain ⟨c, t', htype, hblank, -, hword⟩ := s.type.property
  by_cases hc : c.isUpper = true
  · refine matchPre_word_eq_none ?_ (fun hall => ?_) t
    · rw [htype]
      intro d hd
      rcases List.mem_cons.1 hd with rfl | hd
      · exact hblank
      · exact hword hc d hd
    · exact absurd (List.all_eq_true.2 hall) (Bool.eq_false_iff.1 h)
  · rw [htype, List.cons_append, matchPre_plus_cons (Bool.eq_false_iff.2 hc)]

/-- **What is read of a program header.** -/
theorem readPh_headerLine : readPh s.headerLine =
    if s.plain = true then some ⟨s.fileSiz.value, s.physAddr.value⟩ else none := by
  have hphRe : phRe = .plus isBlank :: .plus Char.isUpper :: .plus isBlank :: numbersRe := rfl
  unfold readPh
  rw [rstrip_headerLine, headerLine_eq, hphRe,
    matchPre_front (fun t => matchPre_plus_cons rfl t) (List.cons_ne_nil _ _) (by decide)
      (isBlank_type s)]
  by_cases h : s.plain = true
  · rw [matchPre_type s h, matchPre_padding, matchPre_numbers, if_pos h]
    rfl
  · rw [matchPre_type_eq_none s (Bool.eq_false_iff.2 h), if_neg h]
    rfl

/-- Program headers are not read as sections. -/
theorem readSections_headerLine : readSections s.headerLine = none := by
  have hmapRe : mapRe = [.plus isBlank, .plus isHex, .plus isBlank, .plus isSectionChar] := rfl
  obtain ⟨c, t, htype, -, hhex, -⟩ := s.type.property
  unfold readSections
  rw [rstrip_headerLine, headerLine_eq, hmapRe,
    matchPre_front (fun t => matchPre_plus_cons rfl t) (List.cons_ne_nil _ _) (by decide)
      (isBlank_type s), htype, List.cons_append, matchPre_plus_cons hhex]
  rfl

end Header

/-! ### What is read of a section mapping -/

/-- The names with blanks between them. -/
def joined (names : List SectionName) : Text := [' '].intercalate (names.map Subtype.val)

/-- The part of the names that is read.  Where it would be empty, the last one of the blanks in
front is read instead. -/
def readNames (names : Text) : Text :=
  if names.takeWhile isSectionChar = [] then [' '] else names.takeWhile isSectionChar

/-- What is read of the line of a segment. -/
def lineText (names : List SectionName) : Option Text :=
  if names = [] then none else some (option ++ replaceBlanks (readNames (joined names)))

/-- The options that name the sections. -/
def options (names : List SectionName) : Text := names.flatMap fun name => option ++ name.val

theorem joined_cons (name : SectionName) {names : List SectionName} (h : names ≠ []) :
    joined (name :: names) = name.val ++ ' ' :: joined names := by
  unfold joined
  rw [List.map_cons, List.intercalate_cons_of_ne_nil (fun hnil => h (List.map_eq_nil_iff.1 hnil)),
    List.append_assoc, List.singleton_append]

theorem joined_singleton (name : SectionName) : joined [name] = name.val :=
  List.intercalate_singleton

theorem flatMap_names {names : List SectionName} (h : names ≠ []) :
    (names.flatMap fun name => name.val ++ [' ']) = joined names ++ [' '] := by
  induction names with
  | nil => exact absurd rfl h
  | cons name names ih =>
      rw [List.flatMap_cons]
      by_cases hnames : names = []
      · subst hnames
        rw [joined_singleton]
        exact List.append_nil _
      · rw [ih hnames, joined_cons name hnames, List.append_assoc, List.append_assoc]
        rfl

theorem notBlank_of_notSpace {c : Char} (h : isSpace c = false) : isBlank c = false := by
  refine decide_eq_false ?_
  rintro rfl
  exact absurd h (by decide)

/-- The names do not begin with a blank. -/
theorem joined_head {names : List SectionName} (h : names ≠ []) :
    ∃ c t, joined names = c :: t ∧ isBlank c = false := by
  cases names with
  | nil => exact absurd rfl h
  | cons name names =>
      obtain ⟨hne, hspace⟩ := name.property
      obtain ⟨c, t, hname⟩ := List.exists_cons_of_ne_nil hne
      have hc := notBlank_of_notSpace (hspace c (hname ▸ List.mem_cons_self))
      by_cases hnames : names = []
      · subst hnames
        exact ⟨c, t, (joined_singleton name).trans hname, hc⟩
      · refine ⟨c, t ++ ' ' :: joined names, ?_, hc⟩
        rw [joined_cons name hnames, hname]
        rfl

/-- Nor do they end with one. -/
theorem joined_last {names : List SectionName} (h : names ≠ []) :
    ∃ t c, joined names = t ++ [c] ∧ isSpace c = false := by
  induction names with
  | nil => exact absurd rfl h
  | cons name names ih =>
      by_cases hnames : names = []
      · subst hnames
        obtain ⟨hne, hspace⟩ := name.property
        refine ⟨name.val.dropLast, name.val.getLast hne, ?_, hspace _ (List.getLast_mem hne)⟩
        rw [joined_singleton, List.dropLast_append_getLast]
      · obtain ⟨t, c, hjoined, hc⟩ := ih hnames
        refine ⟨name.val ++ ' ' :: t, c, ?_, hc⟩
        rw [joined_cons name hnames, hjoined, List.append_assoc]
        rfl

/-- Blanks are replaced one by one. -/
theorem option_append_replaceBlanks {names : List SectionName} (h : names ≠ []) :
    option ++ replaceBlanks (joined names) = options names := by
  have hname : ∀ name : SectionName, replaceBlanks name.val = name.val := by
    intro name
    have hsingle : ∀ c ∈ name.val, (if c = ' ' then option else [c]) = [c] := by
      intro c hc
      exact if_neg (of_decide_eq_false (notBlank_of_notSpace (name.property.2 c hc)))
    unfold replaceBlanks
    rw [List.flatMap_congr hsingle]
    exact List.flatMap_singleton' _
  induction names with
  | nil => exact absurd rfl h
  | cons name names ih =>
      by_cases hnames : names = []
      · subst hnames
        rw [joined_singleton, hname]
        exact (List.append_nil _).symm
      · have hsplit : replaceBlanks (joined (name :: names)) =
            name.val ++ (option ++ replaceBlanks (joined names)) := by
          rw [joined_cons name hnames]
          unfold replaceBlanks
          rw [List.flatMap_append, List.flatMap_cons]
          exact congrArg (· ++ _) (hname name)
        rw [hsplit, ih hnames, ← List.append_assoc]
        rfl

/-- What a character becomes tells which one it was. -/
theorem replaced_inj {c d : Char} {s t : Text}
    (h : (if c = ' ' then option else [c]) ++ s = (if d = ' ' then option else [d]) ++ t) :
    c = d ∧ s = t := by
  by_cases hc : c = ' ' <;> by_cases hd : d = ' '
  · rw [if_pos hc, if_pos hd] at h
    exact ⟨hc.trans hd.symm, List.append_cancel_left h⟩
  · rw [if_pos hc, if_neg hd] at h
    exact absurd (List.cons.inj h).1.symm hd
  · rw [if_neg hc, if_pos hd] at h
    exact absurd (List.cons.inj h).1 hc
  · rw [if_neg hc, if_neg hd] at h
    exact List.cons.inj h

theorem replaceBlanks_injective : Function.Injective replaceBlanks := by
  have hne : ∀ c : Char, ∀ t : Text, (if c = ' ' then option else [c]) ++ t ≠ [] := by
    intro c t
    by_cases hc : c = ' '
    · rw [if_pos hc]
      exact List.cons_ne_nil _ _
    · rw [if_neg hc]
      exact List.cons_ne_nil _ _
  intro s t h
  induction s generalizing t with
  | nil =>
      cases t with
      | nil => rfl
      | cons d t => exact absurd h.symm (hne d _)
  | cons c s ih =>
      cases t with
      | nil => exact absurd h (hne c _)
      | cons d t =>
          obtain ⟨hcd, hst⟩ := replaced_inj h
          rw [hcd, ih hst]

/-- The names and the blanks between them are in the class if the names are. -/
theorem forall_mem_joined {names : List SectionName} (h : names ≠ []) :
    (∀ c ∈ joined names, isSectionChar c = true) ↔
      ∀ name ∈ names, ∀ c ∈ name.val, isSectionChar c = true := by
  induction names with
  | nil => exact absurd rfl h
  | cons name names ih =>
      rw [List.forall_mem_cons]
      by_cases hnames : names = []
      · subst hnames
        rw [joined_singleton]
        exact (and_iff_left fun _ hname => absurd hname List.not_mem_nil).symm
      · rw [joined_cons name hnames, List.forall_mem_append, List.forall_mem_cons, ih hnames]
        exact and_congr_right fun _ => and_iff_right rfl

/-- **The names are read as they are** exactly if all their characters are in the class. -/
theorem lineText_eq_options_iff {names : List SectionName} (h : names ≠ []) :
    lineText names = some (options names) ↔
      ∀ name ∈ names, ∀ c ∈ name.val, isSectionChar c = true := by
  have hall : joined names = readNames (joined names) ↔
      ∀ c ∈ joined names, isSectionChar c = true := by
    rw [← List.takeWhile_eq_self_iff]
    obtain ⟨c, t, hjoined, hc⟩ := joined_head h
    unfold readNames
    by_cases hnil : (joined names).takeWhile isSectionChar = []
    · rw [if_pos hnil, hnil, hjoined]
      refine iff_of_false (fun heq => ?_) (List.cons_ne_nil _ _).symm
      rw [(List.cons.inj heq).1] at hc
      exact absurd hc (by decide)
    · rw [if_neg hnil]
      exact eq_comm
  unfold lineText
  rw [if_neg h, ← option_append_replaceBlanks h, Option.some_inj, ← forall_mem_joined h, ← hall]
  constructor
  · intro heq
    exact (replaceBlanks_injective (List.append_cancel_left heq)).symm
  · intro heq
    rw [← heq]

section Mapping

variable (names : List SectionName)

/-- The number of a segment. -/
def segmentNumber (i : ℕ) : Text := (Nat.toDigits 10 i).leftpad 2 '0'

theorem isDigit_segmentNumber (i : ℕ) : ∀ c ∈ segmentNumber i, c.isDigit = true := by
  intro c hc
  unfold segmentNumber List.leftpad at hc
  rcases List.mem_append.1 hc with hc | hc
  · rw [List.eq_of_mem_replicate hc]
    decide
  · exact Nat.isDigit_of_mem_toDigits (by decide) (by decide) hc

theorem isHex_segmentNumber (i : ℕ) : ∀ c ∈ segmentNumber i, isHex c = true := by
  intro c hc
  unfold isHex
  rw [isDigit_segmentNumber i c hc, Bool.true_or]

theorem segmentNumber_ne_nil (i : ℕ) : segmentNumber i ≠ [] := by
  refine List.ne_nil_of_length_pos ?_
  unfold segmentNumber
  rw [List.length_leftpad]
  exact lt_of_lt_of_le Nat.zero_lt_two (le_max_left _ _)

theorem notSpace_of_isDigit {c : Char} (h : c.isDigit = true) : isSpace c = false := by
  obtain ⟨h0, h9⟩ := Char.isDigit_iff_toNat.1 h
  have hlow : '0'.toNat = 48 := rfl
  have hhigh : '9'.toNat = 57 := rfl
  unfold isSpace
  simp only [Bool.or_eq_false_iff, Bool.and_eq_false_iff, decide_eq_false_iff_not,
    List.contains_eq_mem, List.mem_cons, List.not_mem_nil, or_false, not_or]
  omega

/-- The line without the blanks at its end. -/
def mappingRest : Text :=
  if names = [] then [] else [' ', ' ', ' ', ' ', ' '] ++ joined names

theorem rstrip_mappingLine (s : Segment) (i : ℕ) : rstrip (s.mappingLine i) =
    [' ', ' ', ' '] ++ (segmentNumber i ++ mappingRest s.sections) := by
  unfold mappingRest Segment.mappingLine
  by_cases h : s.sections = []
  · have hlast := List.dropLast_append_getLast (segmentNumber_ne_nil i)
    have hdigit := isDigit_segmentNumber i _ (List.getLast_mem (segmentNumber_ne_nil i))
    rw [if_pos h, h, List.flatMap_nil, List.append_nil, List.append_nil, ← List.append_assoc,
      rstrip_append_space _ (by decide)]
    show rstrip ([' ', ' ', ' '] ++ segmentNumber i) = _
    rw [← hlast, ← List.append_assoc, rstrip_of_last (notSpace_of_isDigit hdigit)]
  · obtain ⟨t, c, hjoined, hc⟩ := joined_last h
    rw [if_neg h, flatMap_names h, hjoined]
    simp only [← List.append_assoc]
    rw [rstrip_append_space _ (by decide), rstrip_of_last hc]
    rfl

/-- The number does not begin with a blank or a letter. -/
theorem segmentNumber_head (i : ℕ) {t : Text} :
    ∀ c t', segmentNumber i ++ t = c :: t' → c.isDigit = true := by
  obtain ⟨d, u, hd⟩ := List.exists_cons_of_ne_nil (segmentNumber_ne_nil i)
  have hdigit := isDigit_segmentNumber i d (hd ▸ List.mem_cons_self)
  intro c t' h
  rw [hd] at h
  cases h
  exact hdigit

/-- The blanks and the number in front of the names. -/
theorem matchPre_number {ps : List (Piece Char)} (i : ℕ) {t : Text}
    (ht : ∀ c t', t = c :: t' → isHex c = false) :
    matchPre (.plus isBlank :: .plus isHex :: .plus isBlank :: ps)
      ([' ', ' ', ' '] ++ (segmentNumber i ++ t)) =
      (matchPre (.plus isBlank :: ps) t).map fun r => [' ', ' ', ' '] :: segmentNumber i :: r := by
  rw [matchPre_front (fun t => matchPre_plus_cons rfl t) (List.cons_ne_nil _ _) (by decide),
    matchPre_plus_append (segmentNumber_ne_nil i) (isHex_segmentNumber i) ht, Option.map_map]
  · rfl
  · intro c s' hc
    exact matchPre_plus_cons (isBlank_of rfl hc) _
  · intro c t' h
    exact isBlank_of rfl (segmentNumber_head i c t' h)

/-- A repetition at the end of a pattern is the longest run. -/
theorem matchPre_last {p : Char → Bool} {t : Text} (h : t.takeWhile p ≠ []) :
    matchPre [.plus p] t = some [t.takeWhile p] := by
  have hlonger : matchPre [.plus p] (t.dropWhile p) = none := by
    cases hd : t.dropWhile p with
    | nil => rfl
    | cons c t' =>
        refine matchPre_plus_cons ?_ _
        have hhead := List.head?_dropWhile_not p t
        rw [hd] at hhead
        exact hhead
  have hmatch := matchPre_plus_of_some h (fun c hc => List.mem_takeWhile_imp hc)
    (rfl : matchPre [] (t.dropWhile p) = some []) hlonger
  rwa [List.takeWhile_append_dropWhile] at hmatch

/-- **The names**: the blanks in front of them give one back if the first name cannot be read. -/
theorem matchPre_names {names : List SectionName} (h : names ≠ []) :
    ∃ blanks, matchPre [.plus isBlank, .plus isSectionChar]
      ([' ', ' ', ' ', ' ', ' '] ++ joined names) = some [blanks, readNames (joined names)] := by
  obtain ⟨c, t, hjoined, hc⟩ := joined_head h
  have hstop : matchPre [.plus isBlank, .plus isSectionChar] (joined names) = none := by
    rw [hjoined, matchPre_plus_cons hc]
  unfold readNames
  by_cases hnil : (joined names).takeWhile isSectionChar = []
  · have hnot : isSectionChar c = false := by
      by_contra hc
      rw [hjoined, List.takeWhile_cons_of_pos (Bool.not_eq_false _ ▸ hc)] at hnil
      cases hnil
    have hblank : (' ' :: joined names).takeWhile isSectionChar = [' '] := by
      rw [List.takeWhile_cons_of_pos (by decide), hnil]
    have hone : matchPre [.plus isBlank, .plus isSectionChar] (' ' :: joined names) = none := by
      refine matchPre_plus_eq_none ?_
      intro l s' heq hl hp
      cases l with
      | nil => exact absurd rfl hl
      | cons d l =>
          rw [List.cons_append, List.cons.injEq] at heq
          cases l with
          | nil =>
              rw [← (show joined names = s' from heq.2), hjoined, matchPre_plus_cons hnot]
          | cons e l =>
              rw [hjoined, List.cons_append, List.cons.injEq] at heq
              have he := hp e (List.mem_cons_of_mem _ List.mem_cons_self)
              rw [← heq.2.1, hc] at he
              cases he
    have hlast := matchPre_last (hblank ▸ List.cons_ne_nil _ _)
    rw [hblank] at hlast
    rw [if_pos hnil]
    exact ⟨_, matchPre_plus_of_some (l := [' ', ' ', ' ', ' ']) (List.cons_ne_nil _ _) (by decide)
      hlast hone⟩
  · rw [if_neg hnil]
    exact ⟨_, matchPre_plus_of_some (List.cons_ne_nil _ _) (by decide) (matchPre_last hnil) hstop⟩

/-- **What is read of a section mapping.** -/
theorem readSections_mappingLine (s : Segment) (i : ℕ) :
    readSections (s.mappingLine i) = lineText s.sections := by
  have hmapRe : mapRe = [.plus isBlank, .plus isHex, .plus isBlank, .plus isSectionChar] := rfl
  unfold readSections lineText
  rw [rstrip_mappingLine, hmapRe, matchPre_number i]
  · unfold mappingRest
    by_cases h : s.sections = []
    · rw [if_pos h, if_pos h]
      rfl
    · obtain ⟨blanks, hnames⟩ := matchPre_names h
      rw [if_neg h, if_neg h, hnames]
      rfl
  · intro c t' h
    unfold mappingRest at h
    by_cases hnil : s.sections = []
    · rw [if_pos hnil] at h
      cases h
    · rw [if_neg hnil] at h
      cases h
      decide

/-- The lines of the section mapping are not read as program headers. -/
theorem readPh_mappingLine (s : Segment) (i : ℕ) : readPh (s.mappingLine i) = none := by
  have hphRe : phRe = .plus isBlank :: .plus Char.isUpper :: .plus isBlank :: numbersRe := rfl
  have hhead := segmentNumber_head i (t := mappingRest s.sections)
  obtain ⟨c, t, hc⟩ := List.exists_cons_of_ne_nil
    (List.append_ne_nil_of_left_ne_nil (segmentNumber_ne_nil i) (mappingRest s.sections))
  have hdigit := hhead c t hc
  have hupper : c.isUpper = false := by
    have hle := (Char.isDigit_iff_toNat.1 hdigit).2
    have h9 : '9'.toNat = 57 := rfl
    have hA : 'A'.toNat = 65 := rfl
    refine Bool.eq_false_iff.2 fun h => ?_
    have hge : 'A'.toNat ≤ c.toNat := (of_decide_eq_true h).1
    omega
  unfold readPh
  rw [rstrip_mappingLine, hphRe, matchPre_front (fun t => matchPre_plus_cons rfl t)
    (List.cons_ne_nil _ _) (by decide) fun c t' h => isBlank_of rfl (hhead c t' h), hc,
    matchPre_plus_cons hupper]
  rfl

end Mapping

/-! ### What is read of a listing -/

theorem filterMap_other {α : Type} {f : Text → Option α} (ts : List OtherLine)
    (h : ∀ t : OtherLine, f t.val = none) : (ts.map Subtype.val).filterMap f = [] := by
  refine List.filterMap_eq_nil_iff.2 ?_
  intro t ht
  obtain ⟨t', _, rfl⟩ := List.mem_map.1 ht
  exact h t'

/-- What is taken from the lines of a listing. -/
theorem filterMap_lines {α : Type} {f : Text → Option α} (l : Listing)
    (h : ∀ t : OtherLine, f t.val = none) : l.lines.filterMap f =
      (l.segments.filterMap fun s => f s.headerLine) ++
        l.segments.zipIdx.filterMap fun s => f (s.1.mappingLine s.2) := by
  have hheaders :
      (l.segments.flatMap fun s => s.headerLine :: s.notes.map Subtype.val).filterMap f =
      l.segments.filterMap fun s => f s.headerLine := by
    induction l.segments with
    | nil => rfl
    | cons s segments ih =>
        rw [List.flatMap_cons, List.cons_append, List.filterMap_cons, List.filterMap_append,
          filterMap_other s.notes h, ih, List.filterMap_cons]
        rfl
  unfold Listing.lines
  rw [List.filterMap_append, List.filterMap_append, List.filterMap_append, List.filterMap_append,
    filterMap_other _ h, filterMap_other _ h, filterMap_other _ h, hheaders, List.filterMap_map,
    List.nil_append, List.append_nil, List.append_nil]
  rfl

namespace Listing

variable (l : Listing)

/-- `fsize` and `phy_addr`. -/
def phs : List Ph := l.lines.filterMap readPh

/-- `sections`. -/
def sectionTexts : List Text := l.lines.filterMap readSections

/-- **The program headers** that are read. -/
theorem phs_eq : l.phs = (l.segments.filter Segment.plain).map fun s =>
    ⟨s.fileSiz.value, s.physAddr.value⟩ := by
  have hmapping : (l.segments.zipIdx.filterMap fun s => readPh (s.1.mappingLine s.2)) = [] := by
    refine List.filterMap_eq_nil_iff.2 ?_
    intro s _
    exact readPh_mappingLine s.1 s.2
  unfold phs
  rw [filterMap_lines l fun t => t.property.1, hmapping, List.append_nil]
  induction l.segments with
  | nil => rfl
  | cons s segments ih =>
      rw [List.filterMap_cons, readPh_headerLine, List.filter_cons]
      by_cases h : s.plain = true
      · rw [if_pos h, if_pos h, ih]
        rfl
      · rw [if_neg h, if_neg h, ih]

/-- **The texts of the sections** that are read. -/
theorem sectionTexts_eq :
    l.sectionTexts = l.segments.filterMap fun s => lineText s.sections := by
  have hheader : (l.segments.filterMap fun s => readSections s.headerLine) = [] := by
    refine List.filterMap_eq_nil_iff.2 ?_
    intro s _
    exact readSections_headerLine s
  have hfst : (l.segments.zipIdx.filterMap fun s => readSections (s.1.mappingLine s.2)) =
      (l.segments.zipIdx.map Prod.fst).filterMap fun s => lineText s.sections := by
    rw [List.filterMap_map]
    refine List.filterMap_congr ?_
    intro s _
    exact readSections_mappingLine s.1 s.2
  unfold sectionTexts
  rw [filterMap_lines l fun t => t.property.2, hheader, List.nil_append, hfst,
    List.zipIdx_map_fst]

end Listing

/-! ### What is read of a region -/

namespace MapRegion

variable (r : MapRegion)

/-- The line of the region is read. -/
def Readable : Prop :=
  (∀ c ∈ r.name.val, plainChar c = true) ∧ r.name.val.length ≤ 15 ∧
    r.attributes.takeWhile isAttribute ≠ []

instance : Decidable r.Readable := inferInstanceAs (Decidable (_ ∧ _ ∧ _))

/-- The region that is read. -/
def region : Option Region :=
  if h : r.Readable then
    some ⟨String.ofList r.name.val, r.origin.value, r.length.value, by
      rw [String.toList_ofList]
      exact h.1⟩
  else none

end MapRegion

section MapLine

variable {ps : List (Piece Char)} {t : Text}

/-- Fewer blanks do not help if the rest does not match, and no blank is left if there is one only.
-/
theorem matchPre_zeroX_eq_none {k : ℕ} (h : k = 0 ∨ matchPre ps t = none) {l s' : Text}
    (heq : List.replicate k ' ' ++ ([' ', '0', 'x'] ++ t) = l ++ s') (hl : l ≠ [])
    (hp : ∀ c ∈ l, isBlank c = true) : matchPre (.lit [' ', '0', 'x'] :: ps) s' = none := by
  cases l with
  | nil => exact absurd rfl hl
  | cons c l =>
      induction k generalizing c l with
      | zero =>
          have heq' : '0' :: 'x' :: t = l ++ s' := (List.cons.inj heq).2
          cases l with
          | nil =>
              rw [← show '0' :: 'x' :: t = s' from heq']
              exact matchPre_lit_cons (by decide) _ _
          | cons d l =>
              have hd := hp d (List.mem_cons_of_mem _ List.mem_cons_self)
              rw [← (List.cons.inj heq').1] at hd
              exact absurd hd (by decide)
      | succ k ih =>
          have hnone : matchPre ps t = none := h.elim (fun hk => absurd hk (Nat.succ_ne_zero k)) id
          have heq' : List.replicate k ' ' ++ ([' ', '0', 'x'] ++ t) = l ++ s' :=
            (List.cons.inj heq).2
          cases l with
          | cons d l =>
              exact ih (.inr hnone) d l heq' (List.cons_ne_nil _ _) fun e he =>
                hp e (List.mem_cons_of_mem _ he)
          | nil =>
              rw [← show List.replicate k ' ' ++ ([' ', '0', 'x'] ++ t) = s' from heq']
              cases k with
              | zero =>
                  rw [List.replicate_zero, List.nil_append, matchPre_lit_append, hnone]
                  rfl
              | succ k =>
                  cases k with
                  | zero => rfl
                  | succ k => rfl

/-- The blanks in front of the origin: one of them is left. -/
theorem matchPre_blanks (k : ℕ) :
    matchPre (.plus isBlank :: .lit [' ', '0', 'x'] :: ps)
      (List.replicate k ' ' ++ ([' ', '0', 'x'] ++ t)) =
      if k = 0 then none
      else (matchPre ps t).map fun r => List.replicate k ' ' :: [' ', '0', 'x'] :: r := by
  by_cases hk : k = 0
  · rw [if_pos hk]
    exact matchPre_plus_eq_none fun l s' heq hl hp => matchPre_zeroX_eq_none (.inl hk) heq hl hp
  · rw [if_neg hk]
    cases hps : matchPre ps t with
    | none =>
        exact matchPre_plus_eq_none fun l s' heq hl hp =>
          matchPre_zeroX_eq_none (.inr hps) heq hl hp
    | some r =>
        have hrest : matchPre (.lit [' ', '0', 'x'] :: ps) ([' ', '0', 'x'] ++ t) =
            some ([' ', '0', 'x'] :: r) := by
          rw [matchPre_lit_append, hps]
          rfl
        refine matchPre_plus_of_some ?_ ?_ hrest ?_
        · exact fun hnil => hk ((List.replicate_eq_nil_iff _).1 hnil)
        · intro c hc
          rw [List.eq_of_mem_replicate hc]
          rfl
        · exact matchPre_plus_eq_none fun l s' heq hl hp =>
            matchPre_zeroX_eq_none (k := 0) (.inl rfl) heq hl hp

/-- The length and the attributes. -/
theorem matchPre_attributes (r : MapRegion) :
    matchPre [.plus isHex, .lit [' '], .plus isAttribute]
      (r.length.val ++ if r.attributes = [] then [] else [' '] ++ r.attributes) =
      if r.attributes.takeWhile isAttribute = [] then none
      else some [r.length.val, [' '], r.attributes.takeWhile isAttribute] := by
  by_cases hnil : r.attributes = []
  · rw [hnil, List.takeWhile_nil, if_pos rfl, if_pos rfl, List.append_nil]
    have hend : matchPre [.plus isHex, .lit [' '], .plus isAttribute] (r.length.val ++ []) =
        (matchPre [.lit [' '], .plus isAttribute] []).map (r.length.val :: ·) := by
      refine matchPre_plus_append r.length.property.1 r.length.property.2 ?_ ?_
      · exact fun _ _ h => absurd h (List.cons_ne_nil _ _).symm
      · intro c s' hc
        refine matchPre_lit_cons (fun h => ?_) _ _
        rw [← h] at hc
        exact absurd hc (by decide)
    rw [List.append_nil] at hend
    exact hend
  · rw [if_neg hnil, matchPre_field]
    by_cases hattr : r.attributes.takeWhile isAttribute = []
    · rw [if_pos hattr]
      obtain ⟨c, t, hc⟩ := List.exists_cons_of_ne_nil hnil
      have hnot : isAttribute c = false := by
        by_contra h
        rw [hc, List.takeWhile_cons_of_pos (Bool.not_eq_false _ ▸ h)] at hattr
        cases hattr
      rw [hc, matchPre_plus_cons hnot]
      rfl
    · rw [if_neg hattr, matchPre_last hattr]
      rfl

/-- The pieces of the line of a region. -/
theorem matchPre_memoryRe (r : MapRegion) : matchPre memoryRe r.line =
    if r.Readable then
      some [r.name.val, List.replicate (16 - r.name.val.length) ' ', [' ', '0', 'x'], r.origin.val,
        [' ', '0', 'x'], r.length.val, [' '], r.attributes.takeWhile isAttribute]
    else none := by
  have hmemoryRe : memoryRe = .plus plainChar :: .plus isBlank :: .lit [' ', '0', 'x'] ::
    .plus isHex :: .lit [' ', '0', 'x'] :: [.plus isHex, .lit [' '], .plus isAttribute] := rfl
  obtain ⟨hne, hblank⟩ := r.name.property
  unfold MapRegion.line
  rw [hmemoryRe]
  by_cases hname : ∀ c ∈ r.name.val, plainChar c = true
  · rw [matchPre_plus_append hne hname, matchPre_blanks, matchPre_field, matchPre_attributes]
    · by_cases hlen : r.name.val.length ≤ 15
      · rw [if_neg (by omega)]
        by_cases hattr : r.attributes.takeWhile isAttribute = []
        · rw [if_pos hattr, if_neg fun h : r.Readable => h.2.2 hattr]
          rfl
        · rw [if_neg hattr, if_pos (show r.Readable from ⟨hname, hlen, hattr⟩)]
          rfl
      · rw [if_pos (by omega), if_neg fun h : r.Readable => hlen h.2.1]
        rfl
    · intro c s' h
      cases hk : 16 - r.name.val.length with
      | zero =>
          rw [hk] at h
          cases h
          rfl
      | succ k =>
          rw [hk, List.replicate_succ] at h
          cases h
          rfl
    · intro c s' hc
      exact matchPre_plus_cons (isBlank_of rfl hc) _
  · rw [matchPre_word_eq_none hblank hname, if_neg fun h : r.Readable => hname h.1]

/-- **What is read of a region.** -/
theorem readRegion_line (r : MapRegion) : readRegion r.line = r.region := by
  unfold readRegion MapRegion.region
  rw [matchPre_memoryRe]
  by_cases h : r.Readable
  · rw [if_pos h, dif_pos h]
    have hname : ∀ c ∈ (String.ofList r.name.val).toList, plainChar c = true := by
      rw [String.toList_ofList]
      exact h.1
    exact dif_pos hname
  · rw [if_neg h, dif_neg h]
    rfl

end MapLine

end PseFw.ImageTool
