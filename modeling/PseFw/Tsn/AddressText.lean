/-
**Addresses as texts.**

The capsule script asks for addresses as texts, tests them with regular expressions, and writes them
as hexadecimal numbers, in the order in which they are the right bytes when every number is stored
with its lowest byte first.

An IPv4 address is one number.  An IPv6 address is four, which are made from the first six fields of
the text: the first two fields get a number each, and the other four share two.  How many groups the
two colons stand for does not matter there.

Main definitions:

* `ipv4Accepted`, `ipv6Accepted` — the tests;
* `ipPositioning`, `ipv6Positioning` — the numbers;
* `Ipv4.address`, `Ipv6Text.groups` — the addresses the texts stand for;
* `codeGroups` — the groups the four numbers are made of.

Main results:

* `leBytes_ipPositioning` — the number of an IPv4 address is the address;
* `leBytes_single`, `leBytes_pair` — the numbers of an IPv6 address;
* `placed_codeGroups`, `placed_groups` — where the fields are in the code and in the address.
-/

import PseFw.Lib.Memory
import PseFw.Lib.Pattern
import PseFw.Lib.Placement
import Mathlib.Tactic.IntervalCases

set_option relaxedAutoImplicit false
set_option autoImplicit false

namespace PseFw.Tsn

/-! ### Numbers in texts -/

/-- A text. -/
abbrev Text : Type := List Char

/-- `[0-9a-fA-F]`. -/
def hexDigits : Text :=
  ['0', '1', '2', '3', '4', '5', '6', '7', '8', '9', 'a', 'b', 'c', 'd', 'e', 'f', 'A', 'B', 'C',
    'D', 'E', 'F']

/-- The value of a digit. -/
def digit (c : Char) : ℕ :=
  if c.isDigit then c.toNat - '0'.toNat
  else if 'a' ≤ c then c.toNat - 'a'.toNat + 10
  else c.toNat - 'A'.toNat + 10

/-- The number a text stands for. -/
def numeral (base : ℕ) (t : Text) : ℕ := t.foldl (fun n c => base * n + digit c) 0

/-- `${t^^}`. -/
def upper (t : Text) : Text := t.map Char.toUpper

theorem digit_lt : ∀ c ∈ hexDigits, digit c < 16 := by decide

theorem toUpper_mem : ∀ c ∈ hexDigits, c.toUpper ∈ hexDigits := by decide

theorem digit_toUpper : ∀ c ∈ hexDigits, digit c.toUpper = digit c := by decide

theorem foldl_numeral (base : ℕ) (t : Text) (n : ℕ) :
    t.foldl (fun n c => base * n + digit c) n = n * base ^ t.length + numeral base t := by
  unfold numeral
  induction t generalizing n with
  | nil => rw [List.foldl_nil, List.foldl_nil, List.length_nil, pow_zero, mul_one, add_zero]
  | cons c t ih =>
      rw [List.foldl_cons, List.foldl_cons, ih, ih (base * 0 + digit c), List.length_cons, pow_succ]
      ring

/-- A number in two parts. -/
theorem numeral_append (base : ℕ) (s t : Text) :
    numeral base (s ++ t) = numeral base s * base ^ t.length + numeral base t := by
  conv_lhs => unfold numeral
  rw [List.foldl_append, foldl_numeral]
  rfl

theorem numeral_lt {t : Text} (h : ∀ c ∈ t, c ∈ hexDigits) : numeral 16 t < 16 ^ t.length := by
  induction t with
  | nil => decide
  | cons c t ih =>
      have hc := digit_lt c (h c List.mem_cons_self)
      have ht := ih fun d hd => h d (List.mem_cons_of_mem _ hd)
      have hsplit := numeral_append 16 [c] t
      have hone : numeral 16 [c] = digit c := Nat.zero_add _
      rw [List.singleton_append, hone] at hsplit
      rw [hsplit, List.length_cons]
      calc digit c * 16 ^ t.length + numeral 16 t
          < digit c * 16 ^ t.length + 16 ^ t.length := Nat.add_lt_add_left ht _
        _ = (digit c + 1) * 16 ^ t.length := (Nat.succ_mul _ _).symm
        _ ≤ 16 * 16 ^ t.length := Nat.mul_le_mul_right _ hc
        _ = 16 ^ (t.length + 1) := (Nat.pow_succ').symm

theorem numeral_upper {t : Text} (h : ∀ c ∈ t, c ∈ hexDigits) :
    numeral 16 (upper t) = numeral 16 t := by
  unfold numeral upper
  rw [List.foldl_map]
  refine List.foldl_ext _ _ _ ?_
  intro n c hc
  rw [digit_toUpper c (h c hc)]

theorem mem_upper {t : Text} (h : ∀ c ∈ t, c ∈ hexDigits) : ∀ c ∈ upper t, c ∈ hexDigits := by
  intro c hc
  obtain ⟨d, hd, rfl⟩ := List.mem_map.1 hc
  exact toUpper_mem d (h d hd)

/-- Zeros in front do not count. -/
theorem numeral_leftpad (n : ℕ) (t : Text) : numeral 16 (t.leftpad n '0') = numeral 16 t := by
  have hzero : ∀ k : ℕ, numeral 16 (List.replicate k '0') = 0 := by
    intro k
    induction k with
    | zero => rfl
    | succ k ih =>
        rw [List.replicate_succ', numeral_append, ih, Nat.zero_mul, Nat.zero_add]
        rfl
  unfold List.leftpad
  rw [numeral_append, hzero, Nat.zero_mul, Nat.zero_add]

/-! ### IPv4 -/

/-- The expression for a part of an address, `test`. -/
def isOctet : Text → Bool
  | [a] => a.isDigit
  | [a, b] => '1' ≤ a && a ≤ '9' && b.isDigit
  | [a, b, c] =>
      (a = '1' && b.isDigit && c.isDigit) || (a = '2' && '0' ≤ b && b ≤ '4' && c.isDigit) ||
        (a = '2' && b = '5' && '0' ≤ c && c ≤ '5')
  | _ => false

/-- `=~ ^$test\.$test\.$test\.$test$`. -/
def ipv4Accepted (ip : Text) : Bool :=
  (ip.splitOn '.').length = 4 && (ip.splitOn '.').all isOctet

/-- `printf "%02x"`, in capitals. -/
def hexByte (n : ℕ) : Text := upper ((Nat.toDigits 16 n).leftpad 2 '0')

/-- `ip_positioning`. -/
def ipPositioning (ip : Text) : Text :=
  let pos := ip.splitOn '.'
  hexByte (numeral 10 (pos.getD 3 [])) ++ hexByte (numeral 10 (pos.getD 2 [])) ++
    hexByte (numeral 10 (pos.getD 1 [])) ++ hexByte (numeral 10 (pos.getD 0 []))

/-- A text that is accepted as an IPv4 address. -/
def Ipv4 : Type := { t : Text // ipv4Accepted t = true }

/-- The bytes of the address, in the order of the text. -/
def Ipv4.address (ip : Ipv4) : List UInt8 :=
  (ip.val.splitOn '.').map fun t => UInt8.ofNat (numeral 10 t)

theorem digit_of_isDigit {c : Char} (h : c.isDigit = true) :
    digit c + '0'.toNat = c.toNat ∧ digit c ≤ 9 := by
  obtain ⟨h0, h9⟩ := Char.isDigit_iff_toNat.1 h
  have hlow : '0'.toNat = 48 := rfl
  have hhigh : '9'.toNat = 57 := rfl
  unfold digit
  rw [if_pos h]
  omega

/-- A digit that is not above another one. -/
theorem digit_le {c d : Char} (hc : c.isDigit = true) (hd : d.isDigit = true) (h : c ≤ d) :
    digit c ≤ digit d := by
  have hle : c.toNat ≤ d.toNat := h
  have hc := (digit_of_isDigit hc).1
  have hd := (digit_of_isDigit hd).1
  omega

theorem isDigit_of_between {c d : Char} (hd : d.isDigit = true) (h0 : '0' ≤ c) (h : c ≤ d) :
    c.isDigit = true :=
  Char.isDigit_iff_toNat.2 ⟨h0, le_trans (show c.toNat ≤ d.toNat from h)
    (Char.isDigit_iff_toNat.1 hd).2⟩

/-- A part of an address is a byte. -/
theorem numeral_lt_of_isOctet {t : Text} (h : isOctet t = true) : numeral 10 t < 256 := by
  rcases t with _ | ⟨a, _ | ⟨b, _ | ⟨c, _ | ⟨d, t⟩⟩⟩⟩
  · cases h
  · have ha := (digit_of_isDigit h).2
    have hval : numeral 10 [a] = 10 * 0 + digit a := rfl
    omega
  · simp only [isOctet, Bool.and_eq_true, decide_eq_true_eq] at h
    have h1 : '0' ≤ a := Char.le_trans (by decide : '0' ≤ '1') h.1.1
    have ha := (digit_of_isDigit (isDigit_of_between (by decide) h1 h.1.2)).2
    have hb := (digit_of_isDigit h.2).2
    have hval : numeral 10 [a, b] = 10 * (10 * 0 + digit a) + digit b := rfl
    omega
  · have hval : numeral 10 [a, b, c] = 10 * (10 * (10 * 0 + digit a) + digit b) + digit c := rfl
    have h1 : digit '1' = 1 := rfl
    have h2 : digit '2' = 2 := rfl
    have h4 : digit '4' = 4 := rfl
    have h5 : digit '5' = 5 := rfl
    simp only [isOctet, Bool.or_eq_true, Bool.and_eq_true, decide_eq_true_eq] at h
    rcases h with (⟨⟨rfl, hb⟩, hc⟩ | ⟨⟨⟨rfl, hb0⟩, hb4⟩, hc⟩) | ⟨⟨⟨rfl, rfl⟩, hc0⟩, hc5⟩
    · have hb := (digit_of_isDigit hb).2
      have hc := (digit_of_isDigit hc).2
      omega
    · have hb := digit_le (isDigit_of_between (by decide) hb0 hb4) (by decide) hb4
      have hc := (digit_of_isDigit hc).2
      omega
    · have hc := digit_le (isDigit_of_between (by decide) hc0 hc5) (by decide) hc5
      omega
  · cases h

/-- The two digits of a byte. -/
theorem hexByte_spec : ∀ n < 256, numeral 16 (hexByte n) = n ∧ (hexByte n).length = 2 ∧
    ∀ c ∈ hexByte n, c ∈ hexDigits := by
  decide +kernel

/-- A byte behind a number. -/
theorem numeral_append_hexByte (s : Text) {n : ℕ} (h : n < 256) :
    numeral 16 (s ++ hexByte n) = n + 256 * numeral 16 s := by
  obtain ⟨hval, hlen, _⟩ := hexByte_spec n h
  rw [numeral_append, hval, hlen]
  ring

/-- A number of four bytes, the lowest of them first. -/
theorem leBytes_four {a b c : ℕ} (d : ℕ) (ha : a < 256) (hb : b < 256) (hc : c < 256) :
    Mem.leBytes 4 (a + 256 * (b + 256 * (c + 256 * d))) =
      [UInt8.ofNat a, UInt8.ofNat b, UInt8.ofNat c, UInt8.ofNat d] := by
  have hlow : ∀ {x : ℕ} (y : ℕ), x < 256 → UInt8.ofNat (x + 256 * y) = UInt8.ofNat x := by
    intro x y _
    refine UInt8.toNat_inj.1 ?_
    rw [UInt8.toNat_ofNat', UInt8.toNat_ofNat']
    omega
  have hhigh : ∀ {x : ℕ} (y : ℕ), x < 256 → (x + 256 * y) / 256 = y := by
    intro x y hx
    omega
  rw [Mem.leBytes_succ, Mem.leBytes_succ, Mem.leBytes_succ, Mem.leBytes_succ, hlow _ ha,
    hhigh _ ha, hlow _ hb, hhigh _ hb, hlow _ hc, hhigh _ hc]
  rfl

/-- The four bytes of an address. -/
theorem exists_octets (ip : Ipv4) : ∃ a b c d : ℕ, a < 256 ∧ b < 256 ∧ c < 256 ∧ d < 256 ∧
    ipPositioning ip.val = hexByte d ++ hexByte c ++ hexByte b ++ hexByte a ∧
    ip.address = [UInt8.ofNat a, UInt8.ofNat b, UInt8.ofNat c, UInt8.ofNat d] := by
  have hacc := ip.property
  unfold ipPositioning Ipv4.address
  unfold ipv4Accepted at hacc
  rw [Bool.and_eq_true, decide_eq_true_eq, List.all_eq_true] at hacc
  obtain ⟨hlen, hall⟩ := hacc
  generalize ip.val.splitOn '.' = pos at hlen hall
  obtain ⟨a, b, c, d, rfl⟩ : ∃ a b c d, pos = [a, b, c, d] := by
    rcases pos with _ | ⟨a, _ | ⟨b, _ | ⟨c, _ | ⟨d, _ | ⟨e, pos⟩⟩⟩⟩⟩
    all_goals first | exact ⟨a, b, c, d, rfl⟩ | cases hlen
  have hbyte : ∀ t ∈ [a, b, c, d], numeral 10 t < 256 := fun t ht =>
    numeral_lt_of_isOctet (hall t ht)
  exact ⟨_, _, _, _, hbyte a (by simp), hbyte b (by simp), hbyte c (by simp), hbyte d (by simp),
    rfl, rfl⟩

/-- **The number of an IPv4 address**, with its lowest byte first, is the address. -/
theorem leBytes_ipPositioning (ip : Ipv4) :
    Mem.leBytes 4 (numeral 16 (ipPositioning ip.val)) = ip.address := by
  obtain ⟨a, b, c, d, ha, hb, hc, hd, hpos, haddr⟩ := exists_octets ip
  rw [hpos, haddr, numeral_append_hexByte _ ha, numeral_append_hexByte _ hb,
    numeral_append_hexByte _ hc, (hexByte_spec d hd).1, leBytes_four _ ha hb hc]

/-- A hexadecimal number of at most four bytes. -/
def IsHexNumber (t : Text) : Prop := t ≠ [] ∧ t.length ≤ 8 ∧ ∀ c ∈ t, c ∈ hexDigits

instance (t : Text) : Decidable (IsHexNumber t) :=
  inferInstanceAs (Decidable (t ≠ [] ∧ t.length ≤ 8 ∧ ∀ c ∈ t, c ∈ hexDigits))

theorem isHexNumber_ipPositioning (ip : Ipv4) : IsHexNumber (ipPositioning ip.val) := by
  obtain ⟨a, b, c, d, ha, hb, hc, hd, hpos, -⟩ := exists_octets ip
  obtain ⟨-, hla, hxa⟩ := hexByte_spec a ha
  obtain ⟨-, hlb, hxb⟩ := hexByte_spec b hb
  obtain ⟨-, hlc, hxc⟩ := hexByte_spec c hc
  obtain ⟨-, hld, hxd⟩ := hexByte_spec d hd
  have hlen : (ipPositioning ip.val).length = 8 := by
    rw [hpos, List.length_append, List.length_append, List.length_append, hla, hlb, hlc, hld]
  refine ⟨List.ne_nil_of_length_pos (by omega), by omega, ?_⟩
  intro x hx
  rw [hpos, List.mem_append, List.mem_append, List.mem_append] at hx
  rcases hx with ((hx | hx) | hx) | hx
  · exact hxd x hx
  · exact hxc x hx
  · exact hxb x hx
  · exact hxa x hx

/-! ### IPv6 -/

/-- `grep "^\([0-9a-fA-F]\{0,4\}:\)\{1,7\}[0-9a-fA-F]\{0,4\}$"`. -/
def ipv6Accepted (ipv6 : Text) : Bool :=
  let fields := ipv6.splitOn ':'
  2 ≤ fields.length && fields.length ≤ 8 &&
    fields.all fun t => t.length ≤ 4 && t.all hexDigits.contains

/-- `read -ra pos`, with the colon between the fields: an empty field at the end is not read. -/
def readFields (ipv6 : Text) : List Text :=
  let fields := ipv6.splitOn ':'
  if fields.getLast? = some [] then fields.dropLast else fields

/-- The loop over the fields: four digits each. -/
def padField (t : Text) : Text := (if t.isEmpty then ['0', '0', '0', '0'] else t).leftpad 4 '0'

/-- `${pos[k]:2:2}` and then `${pos[k]:0:2}`. -/
def swapped (pos : List Text) (k : ℕ) : Text :=
  ((pos.getD k []).drop 2).take 2 ++ (pos.getD k []).take 2

/-- `ipv6_positioning`, and the `read` that takes its four numbers; those that are empty are the
last ones. -/
def ipv6Positioning (ipv6 : Text) : List Text :=
  let pos := (readFields ipv6).map padField
  [upper (['0', '0', '0', '0'] ++ swapped pos 0), upper (['0', '0', '0', '0'] ++ swapped pos 1),
    upper (swapped pos 3 ++ swapped pos 2), upper (swapped pos 5 ++ swapped pos 4)]

/-- A group of an address. -/
abbrev Group : Type := { t : Text // t ≠ [] ∧ t.length ≤ 4 ∧ ∀ c ∈ t, c ∈ hexDigits }

/-- The textual forms of an address. -/
inductive Ipv6Text
  | full (groups : List Group) (h : groups.length = 8)
  | compressed (before after : List Group) (h : before.length + after.length ≤ 7)

/-- The groups with the colons between them. -/
def join (gs : List Group) : Text := [':'].intercalate (gs.map Subtype.val)

/-- The two colons stand for all groups that are missing. -/
def expand (before after : List ℕ) : List ℕ :=
  before ++ List.replicate (8 - (before.length + after.length)) 0 ++ after

/-- The number of a group. -/
def Group.value (g : Group) : ℕ := numeral 16 g.val

namespace Ipv6Text

/-- The text. -/
def text : Ipv6Text → Text
  | full groups _ => join groups
  | compressed before after _ => join before ++ [':', ':'] ++ join after

/-- The eight groups of the address. -/
def groups : Ipv6Text → List ℕ
  | full groups _ => groups.map Group.value
  | compressed before after _ => expand (before.map Group.value) (after.map Group.value)

/-- The fields that are read. -/
def fields (t : Ipv6Text) : List Text := readFields t.text

/-- The number of fields in front of the two colons; without them, of all fields. -/
def gap : Ipv6Text → ℕ
  | full _ _ => 8
  | compressed before _ _ => max 1 before.length

end Ipv6Text

/-! ### The fields of a text -/

theorem intercalate_append {x : Char} {l m : List Text} (hl : l ≠ []) (hm : m ≠ []) :
    [x].intercalate (l ++ m) = [x].intercalate l ++ x :: [x].intercalate m := by
  induction l with
  | nil => exact absurd rfl hl
  | cons t l ih =>
      rw [List.cons_append]
      by_cases hl' : l = []
      · subst hl'
        rw [List.nil_append, List.intercalate_cons_of_ne_nil hm, List.intercalate_singleton,
          List.append_assoc, List.singleton_append]
      · rw [List.intercalate_cons_of_ne_nil (List.append_ne_nil_of_left_ne_nil hl' m), ih hl',
          List.intercalate_cons_of_ne_nil hl', List.append_assoc, List.append_assoc,
          List.append_assoc]

/-- The fields of no groups are one empty field. -/
def orEmpty (l : List Text) : List Text := if l = [] then [[]] else l

theorem intercalate_orEmpty (x : Char) (l : List Text) :
    [x].intercalate (orEmpty l) = [x].intercalate l := by
  unfold orEmpty
  by_cases h : l = []
  · rw [if_pos h, h]
    rfl
  · rw [if_neg h]

theorem orEmpty_ne_nil (l : List Text) : orEmpty l ≠ [] := by
  unfold orEmpty
  by_cases h : l = []
  · rw [if_pos h]
    exact List.cons_ne_nil _ _
  · rw [if_neg h]
    exact h

theorem colon_notMem (gs : List Group) : ∀ t ∈ gs.map Subtype.val, ':' ∉ t := by
  intro t ht hcolon
  obtain ⟨g, _, rfl⟩ := List.mem_map.1 ht
  exact absurd (g.property.2.2 ':' hcolon) (by decide)

theorem colon_notMem_orEmpty (gs : List Group) : ∀ t ∈ orEmpty (gs.map Subtype.val), ':' ∉ t := by
  unfold orEmpty
  by_cases h : gs.map Subtype.val = []
  · rw [if_pos h]
    intro t ht
    rw [List.mem_singleton.1 ht]
    exact List.not_mem_nil
  · rw [if_neg h]
    exact colon_notMem gs

theorem splitOn_join {gs : List Group} (h : gs ≠ []) :
    (join gs).splitOn ':' = gs.map Subtype.val :=
  List.splitOn_intercalate ':' (colon_notMem gs) fun hnil => h (List.map_eq_nil_iff.1 hnil)

theorem splitOn_compressed (before after : List Group) :
    (join before ++ [':', ':'] ++ join after).splitOn ':' =
      orEmpty (before.map Subtype.val) ++ [] :: orEmpty (after.map Subtype.val) := by
  have htext : join before ++ [':', ':'] ++ join after = [':'].intercalate
      (orEmpty (before.map Subtype.val) ++ [] :: orEmpty (after.map Subtype.val)) := by
    rw [intercalate_append (orEmpty_ne_nil _) (List.cons_ne_nil _ _),
      List.intercalate_cons_of_ne_nil (orEmpty_ne_nil _), intercalate_orEmpty,
      intercalate_orEmpty, List.append_assoc]
    rfl
  rw [htext]
  refine List.splitOn_intercalate ':' ?_ (List.append_ne_nil_of_left_ne_nil (orEmpty_ne_nil _) _)
  intro t ht
  rw [List.mem_append, List.mem_cons] at ht
  rcases ht with ht | rfl | ht
  · exact colon_notMem_orEmpty before t ht
  · exact List.not_mem_nil
  · exact colon_notMem_orEmpty after t ht

/-- The last group of a text is not empty. -/
theorem getLast?_ne_nil {gs : List Group} : (gs.map Subtype.val).getLast? ≠ some [] := by
  intro h
  obtain ⟨g, _, hg⟩ := List.mem_map.1 (List.mem_of_getLast? h)
  exact g.property.1 hg

namespace Ipv6Text

theorem fields_full {gs : List Group} (h : gs.length = 8) :
    (full gs h).fields = gs.map Subtype.val := by
  have hne : gs ≠ [] := List.ne_nil_of_length_pos (by omega)
  unfold fields readFields text
  rw [splitOn_join hne, if_neg getLast?_ne_nil]

/-- The fields of a text with two colons: the empty field at the end is not read. -/
theorem fields_compressed {before after : List Group} (h : before.length + after.length ≤ 7) :
    (compressed before after h).fields =
      orEmpty (before.map Subtype.val) ++ [] :: after.map Subtype.val := by
  unfold fields readFields text
  rw [splitOn_compressed]
  by_cases hafter : after.map Subtype.val = []
  · rw [hafter]
    show (if (orEmpty _ ++ [[], []]).getLast? = some [] then (orEmpty _ ++ [[], []]).dropLast
      else _) = orEmpty _ ++ [[]]
    have hsplit : orEmpty (before.map Subtype.val) ++ [[], []] =
        orEmpty (before.map Subtype.val) ++ [[]] ++ [([] : Text)] := by
      rw [List.append_assoc]
      rfl
    rw [hsplit, List.getLast?_concat, if_pos rfl, List.dropLast_concat]
  · have hor : orEmpty (after.map Subtype.val) = after.map Subtype.val := if_neg hafter
    have hlast : (orEmpty (before.map Subtype.val) ++ [] :: after.map Subtype.val).getLast? ≠
        some [] := by
      rw [List.getLast?_append_of_ne_nil _ (List.cons_ne_nil _ _),
        List.getLast?_cons_of_ne_nil hafter]
      exact getLast?_ne_nil
    rw [hor, if_neg hlast]

end Ipv6Text

/-! ### Where the fields are -/

/-- The group a field becomes in the code. -/
def codePlace (i : ℕ) : ℕ := if i = 0 then 0 else if i = 1 then 2 else i + 2

/-- The group a field of a text of `n` fields is in the address. -/
def stdPlace (gap n i : ℕ) : ℕ := if i ≤ gap then i else i + (8 - n)

/-- The number in a field; what is not there counts as zero. -/
def fieldValue (fields : List Text) (i : ℕ) : ℕ := numeral 16 (fields.getD i [])

/-- The groups the four numbers are made of. -/
def codeGroups (fields : List Text) : List ℕ :=
  [fieldValue fields 0, 0, fieldValue fields 1, 0, fieldValue fields 2, fieldValue fields 3,
    fieldValue fields 4, fieldValue fields 5]

theorem strictMono_codePlace : StrictMono codePlace := by
  intro i j hij
  unfold codePlace
  split_ifs <;> omega

theorem strictMono_stdPlace (gap n : ℕ) : StrictMono (stdPlace gap n) := by
  intro i j hij
  unfold stdPlace
  split_ifs <;> omega

theorem fieldValue_of_ge {fields : List Text} {i : ℕ} (h : fields.length ≤ i) :
    fieldValue fields i = 0 := by
  unfold fieldValue
  rw [List.getD_eq_default _ _ h]
  rfl

theorem getD_map_numeral (fields : List Text) (k : ℕ) :
    (fields.map (numeral 16)).getD k 0 = fieldValue fields k :=
  List.getD_map _ [] (numeral 16)

/-- **The fields in the code.** -/
theorem placed_codeGroups (fields : List Text) {N : ℕ} (hN : N ≤ 8) :
    Placed codePlace (fieldValue fields) fields.length N fun k => (codeGroups fields).getD k 0 := by
  constructor
  · intro i _ hp
    have hi : i < 6 := by
      unfold codePlace at hp
      split_ifs at hp <;> omega
    interval_cases i <;> rfl
  · intro k hk hno
    have hmissing : ∀ i, codePlace i = k → fieldValue fields i = 0 := by
      intro i hi
      by_contra hne
      refine hno i ?_ hi
      by_contra hge
      exact hne (fieldValue_of_ge (Nat.le_of_not_lt hge))
    have hk8 : k < 8 := by omega
    interval_cases k
    · exact hmissing 0 rfl
    · rfl
    · exact hmissing 1 rfl
    · rfl
    · exact hmissing 2 rfl
    · exact hmissing 3 rfl
    · exact hmissing 4 rfl
    · exact hmissing 5 rfl

section Expand

variable {before after : List ℕ}

theorem expand_left {i : ℕ} (h : i < before.length) :
    (expand before after).getD i 0 = before.getD i 0 := by
  unfold expand
  rw [List.append_assoc, List.getD_append _ _ _ _ h]

theorem expand_middle {i : ℕ} (h : before.length ≤ i) (hi : i + after.length < 8) :
    (expand before after).getD i 0 = 0 := by
  unfold expand
  rw [List.append_assoc, List.getD_append_right _ _ _ _ h,
    List.getD_append _ _ _ _ (by rw [List.length_replicate]; omega)]
  exact List.getD_replicate _ (by omega)

theorem expand_right (h : before.length + after.length ≤ 8) (j : ℕ) :
    (expand before after).getD (8 - after.length + j) 0 = after.getD j 0 := by
  have hlen : (before ++ List.replicate (8 - (before.length + after.length)) 0).length =
      8 - after.length := by
    rw [List.length_append, List.length_replicate]
    omega
  unfold expand
  rw [List.getD_append_right _ _ _ _ (by omega), hlen, Nat.add_sub_cancel_left]

theorem length_expand (h : before.length + after.length ≤ 8) :
    (expand before after).length = 8 := by
  unfold expand
  rw [List.length_append, List.length_append, List.length_replicate]
  omega

/-- One of the groups that are missing may be written. -/
theorem expand_nil (h : after.length ≤ 7) : expand [] after = expand [0] after := by
  have hsub : 8 - (0 + after.length) = 8 - (1 + after.length) + 1 := by omega
  show List.replicate (8 - (0 + after.length)) 0 ++ after = _
  rw [hsub, List.replicate_succ]
  rfl

end Expand

section Fields

variable (pre post : List Text)

theorem fieldValue_left {i : ℕ} (h : i < pre.length) :
    fieldValue (pre ++ [] :: post) i = (pre.map (numeral 16)).getD i 0 := by
  rw [getD_map_numeral]
  unfold fieldValue
  rw [List.getD_append _ _ _ _ h]

theorem fieldValue_middle : fieldValue (pre ++ [] :: post) pre.length = 0 := by
  unfold fieldValue
  rw [List.getD_append_right _ _ _ _ le_rfl, Nat.sub_self]
  rfl

theorem fieldValue_right (j : ℕ) :
    fieldValue (pre ++ [] :: post) (pre.length + 1 + j) = (post.map (numeral 16)).getD j 0 := by
  have hj : pre.length + 1 + j - pre.length = j + 1 := by omega
  rw [getD_map_numeral]
  unfold fieldValue
  rw [List.getD_append_right _ _ _ _ (by omega), hj, List.getD_cons_succ]

variable {pre post}

/-- **The fields in an address** with an empty field in the middle. -/
theorem placed_expand (h : pre.length + post.length ≤ 7) :
    Placed (stdPlace pre.length (pre.length + 1 + post.length)) (fieldValue (pre ++ [] :: post))
      (pre.length + 1 + post.length) 8
      fun k => (expand (pre.map (numeral 16)) (post.map (numeral 16))).getD k 0 := by
  have hpre : (pre.map (numeral 16)).length = pre.length := List.length_map _
  have hpost : (post.map (numeral 16)).length = post.length := List.length_map _
  constructor
  · intro i hi _
    unfold stdPlace
    rcases lt_trichotomy i pre.length with hlt | rfl | hgt
    · rw [if_pos hlt.le, fieldValue_left _ _ hlt]
      exact expand_left (by omega)
    · rw [if_pos le_rfl, fieldValue_middle]
      exact expand_middle (by omega) (by omega)
    · obtain ⟨j, rfl⟩ : ∃ j, i = pre.length + 1 + j := ⟨i - (pre.length + 1), by omega⟩
      have hplace : pre.length + 1 + j + (8 - (pre.length + 1 + post.length)) =
          8 - (post.map (numeral 16)).length + j := by omega
      rw [if_neg (by omega), fieldValue_right, hplace]
      exact expand_right (by omega) j
  · intro k hk hno
    refine expand_middle (Nat.le_of_not_lt fun hlt => ?_) (Nat.lt_of_not_le fun hle => ?_)
    · exact hno k (by omega) (if_pos (by omega))
    · refine hno (k - (7 - (pre.length + post.length))) (by omega) ?_
      unfold stdPlace
      rw [if_neg (by omega)]
      omega

end Fields

/-! ### What is accepted -/

/-- A text of an address that is accepted. -/
def Ipv6 : Type := { t : Ipv6Text // ipv6Accepted t.text = true }

theorem length_splitOn_le (t : Ipv6) : (t.val.text.splitOn ':').length ≤ 8 := by
  have hacc := t.property
  unfold ipv6Accepted at hacc
  rw [Bool.and_eq_true, Bool.and_eq_true, decide_eq_true_eq, decide_eq_true_eq] at hacc
  exact hacc.1.2

theorem readFields_subset (ipv6 : Text) : readFields ipv6 ⊆ ipv6.splitOn ':' := by
  unfold readFields
  by_cases h : (ipv6.splitOn ':').getLast? = some []
  · rw [if_pos h]
    exact List.dropLast_subset _
  · rw [if_neg h]
    exact List.Subset.refl _

/-- The fields that are read have at most four digits. -/
theorem mem_fields {t : Ipv6} {f : Text} (h : f ∈ t.val.fields) :
    f.length ≤ 4 ∧ ∀ c ∈ f, c ∈ hexDigits := by
  have hacc := t.property
  unfold ipv6Accepted at hacc
  rw [Bool.and_eq_true, List.all_eq_true] at hacc
  have hf := hacc.2 f (readFields_subset _ h)
  rw [Bool.and_eq_true, decide_eq_true_eq, List.all_eq_true] at hf
  exact ⟨hf.1, fun c hc => List.contains_iff_mem.1 (hf.2 c hc)⟩

theorem Group.value_lt (g : Group) : g.value < 65536 :=
  lt_of_lt_of_le (numeral_lt g.property.2.2) (Nat.pow_le_pow_right (by decide) g.property.2.1)

theorem map_value (gs : List Group) :
    gs.map Group.value = (gs.map Subtype.val).map (numeral 16) := (List.map_map).symm

/-- Fields in front of the two colons, one of which may be empty. -/
theorem expand_orEmpty {pre post : List Text} (h : post.length ≤ 7) :
    expand (pre.map (numeral 16)) (post.map (numeral 16)) =
      expand ((orEmpty pre).map (numeral 16)) (post.map (numeral 16)) := by
  unfold orEmpty
  by_cases hpre : pre = []
  · rw [if_pos hpre, hpre]
    exact expand_nil (by rw [List.length_map]; exact h)
  · rw [if_neg hpre]

theorem length_orEmpty (l : List Text) : (orEmpty l).length = max 1 l.length := by
  unfold orEmpty
  by_cases h : l = []
  · rw [if_pos h, h]
    rfl
  · have hpos := List.length_pos_of_ne_nil h
    rw [if_neg h]
    omega

theorem one_le_gap (t : Ipv6Text) : 1 ≤ t.gap := by
  cases t with
  | full groups h => exact Nat.le_add_left 1 7
  | compressed before after h => exact le_max_left _ _

theorem mem_groups_lt {t : Ipv6Text} {g : ℕ} (h : g ∈ t.groups) : g < 65536 := by
  have hval : ∀ {gs : List Group}, g ∈ gs.map Group.value → g < 65536 := by
    intro gs hg
    obtain ⟨g', _, rfl⟩ := List.mem_map.1 hg
    exact g'.value_lt
  cases t with
  | full groups _ => exact hval h
  | compressed before after _ =>
      unfold Ipv6Text.groups expand at h
      rw [List.mem_append, List.mem_append] at h
      rcases h with (h | h) | h
      · exact hval h
      · rw [List.eq_of_mem_replicate h]
        exact Nat.zero_lt_succ _
      · exact hval h

theorem length_groups (t : Ipv6Text) : t.groups.length = 8 := by
  cases t with
  | full groups h => exact (List.length_map _).trans h
  | compressed before after h =>
      refine length_expand ?_
      rw [List.length_map, List.length_map]
      omega

/-- **The fields of an address** are in its groups. -/
theorem placed_groups (t : Ipv6) : t.val.fields.length ≤ 8 ∧
    Placed (stdPlace t.val.gap t.val.fields.length) (fieldValue t.val.fields) t.val.fields.length 8
      fun k => t.val.groups.getD k 0 := by
  obtain ⟨t, hacc⟩ := t
  have hlen := length_splitOn_le ⟨t, hacc⟩
  cases t with
  | full groups h =>
      have hfields := Ipv6Text.fields_full h
      have hgroups : ∀ k, (groups.map Group.value).getD k 0 =
          fieldValue (groups.map Subtype.val) k := by
        intro k
        rw [map_value, getD_map_numeral]
      have hmap : (groups.map Subtype.val).length = 8 := (List.length_map _).trans h
      show (Ipv6Text.full groups h).fields.length ≤ 8 ∧ Placed _ _ _ 8
        fun k => (groups.map Group.value).getD k 0
      rw [hfields, hmap]
      refine ⟨le_rfl, ?_, ?_⟩
      · intro i hi _
        have hplace : stdPlace 8 8 i = i := if_pos hi.le
        show (groups.map Group.value).getD (stdPlace 8 8 i) 0 = _
        rw [hplace, hgroups]
      · intro k hk hno
        exact absurd (if_pos hk.le) (hno k hk)
  | compressed before after h =>
      have hpre := length_orEmpty (before.map Subtype.val)
      have hpost := length_orEmpty (after.map Subtype.val)
      change ((join before ++ [':', ':'] ++ join after).splitOn ':').length ≤ 8 at hlen
      rw [splitOn_compressed, List.length_append, List.length_cons, hpost] at hlen
      have hfields : (Ipv6Text.compressed before after h).fields.length =
          (orEmpty (before.map Subtype.val)).length + 1 + (after.map Subtype.val).length := by
        rw [Ipv6Text.fields_compressed, List.length_append, List.length_cons]
        omega
      have hgap : (Ipv6Text.compressed before after h).gap =
          (orEmpty (before.map Subtype.val)).length := by
        rw [hpre, List.length_map]
        rfl
      have hgroups : (Ipv6Text.compressed before after h).groups =
          expand ((orEmpty (before.map Subtype.val)).map (numeral 16))
            ((after.map Subtype.val).map (numeral 16)) := by
        rw [← expand_orEmpty (by omega), ← map_value, ← map_value]
        rfl
      refine ⟨hfields.le.trans (by omega), ?_⟩
      rw [hfields, hgap, hgroups, Ipv6Text.fields_compressed]
      exact placed_expand (by omega)

/-! ### The four numbers -/

/-- The bytes of two groups, in network order. -/
def networkBytes (g g' : ℕ) : List UInt8 :=
  [UInt8.ofNat (g / 256), UInt8.ofNat g, UInt8.ofNat (g' / 256), UInt8.ofNat g']

/-- The bytes of an address, in network order. -/
def Ipv6Text.address (t : Ipv6Text) : List UInt8 :=
  t.groups.flatMap fun g => [UInt8.ofNat (g / 256), UInt8.ofNat g]

theorem networkBytes_inj {g g' k k' : ℕ} (hg : g < 65536) (hg' : g' < 65536) (hk : k < 65536)
    (hk' : k' < 65536) (h : networkBytes g g' = networkBytes k k') : g = k ∧ g' = k' := by
  have hbyte : ∀ {m n : ℕ}, UInt8.ofNat m = UInt8.ofNat n → m % 256 = n % 256 := by
    intro m n hmn
    have htoNat := congrArg UInt8.toNat hmn
    rwa [UInt8.toNat_ofNat', UInt8.toNat_ofNat'] at htoNat
  unfold networkBytes at h
  rw [List.cons.injEq, List.cons.injEq, List.cons.injEq, List.cons.injEq] at h
  have h0 := hbyte h.1
  have h1 := hbyte h.2.1
  have h2 := hbyte h.2.2.1
  have h3 := hbyte h.2.2.2.1
  omega

/-- The two halves of two groups, swapped, are their bytes in network order. -/
theorem leBytes_swapped {g g' : ℕ} (hg : g < 65536) (hg' : g' < 65536) :
    Mem.leBytes 4 ((g' / 256 + 256 * (g' % 256)) * 16 ^ 4 + (g / 256 + 256 * (g % 256))) =
      networkBytes g g' := by
  have hnum : (g' / 256 + 256 * (g' % 256)) * 16 ^ 4 + (g / 256 + 256 * (g % 256)) =
      g / 256 + 256 * (g % 256 + 256 * (g' / 256 + 256 * (g' % 256))) := by ring
  have hmod : ∀ n : ℕ, UInt8.ofNat (n % 256) = UInt8.ofNat n := by
    intro n
    refine UInt8.toNat_inj.1 ?_
    rw [UInt8.toNat_ofNat', UInt8.toNat_ofNat']
    exact Nat.mod_mod _ _
  rw [hnum, leBytes_four _ (by omega) (by omega) (by omega), hmod, hmod]
  rfl

theorem padField_spec {f : Text} (hlen : f.length ≤ 4) (hhex : ∀ c ∈ f, c ∈ hexDigits) :
    (padField f).length = 4 ∧ (∀ c ∈ padField f, c ∈ hexDigits) ∧
      numeral 16 (padField f) = numeral 16 f := by
  cases f with
  | nil => decide
  | cons c f =>
      have hpad : padField (c :: f) = (c :: f).leftpad 4 '0' := rfl
      rw [hpad, List.length_leftpad, numeral_leftpad]
      refine ⟨max_eq_left hlen, ?_, rfl⟩
      intro d hd
      unfold List.leftpad at hd
      rcases List.mem_append.1 hd with hd | hd
      · rw [List.eq_of_mem_replicate hd]
        decide
      · exact hhex d hd

section Swapped

variable (t : Ipv6)

theorem fieldValue_lt (k : ℕ) : fieldValue t.val.fields k < 65536 := by
  by_cases hk : k < t.val.fields.length
  · obtain ⟨hlen, hhex⟩ := mem_fields (List.getElem_mem hk)
    unfold fieldValue
    rw [List.getD_eq_getElem _ _ hk]
    exact lt_of_lt_of_le (numeral_lt hhex) (Nat.pow_le_pow_right (by decide) hlen)
  · rw [fieldValue_of_ge (Nat.le_of_not_lt hk)]
    decide

theorem swapped_of_ge {k : ℕ} (hk : t.val.fields.length ≤ k) :
    swapped (t.val.fields.map padField) k = [] := by
  unfold swapped
  rw [List.getD_eq_default _ _ (by rw [List.length_map]; exact hk)]
  rfl

/-- The halves of a field. -/
theorem swapped_eq {k : ℕ} (hk : k < t.val.fields.length) :
    swapped (t.val.fields.map padField) k = (padField t.val.fields[k]).drop 2 ++
      (padField t.val.fields[k]).take 2 := by
  obtain ⟨hlen, hhex⟩ := mem_fields (List.getElem_mem hk)
  have hpad := (padField_spec hlen hhex).1
  have hget : (t.val.fields.map padField).getD k [] = padField t.val.fields[k] := by
    rw [List.getD_eq_getElem _ _ (by rw [List.length_map]; exact hk), List.getElem_map]
  unfold swapped
  rw [hget, List.take_of_length_le]
  rw [List.length_drop]
  omega

theorem mem_swapped {k : ℕ} : ∀ c ∈ swapped (t.val.fields.map padField) k, c ∈ hexDigits := by
  intro c hc
  by_cases hk : k < t.val.fields.length
  · obtain ⟨hlen, hhex⟩ := mem_fields (List.getElem_mem hk)
    have hpad := (padField_spec hlen hhex).2.1
    rw [swapped_eq t hk, List.mem_append] at hc
    rcases hc with hc | hc
    · exact hpad c (List.mem_of_mem_drop hc)
    · exact hpad c (List.mem_of_mem_take hc)
  · rw [swapped_of_ge t (Nat.le_of_not_lt hk)] at hc
    cases hc

theorem length_swapped {k : ℕ} (hk : k < t.val.fields.length) :
    (swapped (t.val.fields.map padField) k).length = 4 := by
  obtain ⟨hlen, hhex⟩ := mem_fields (List.getElem_mem hk)
  have hpad := (padField_spec hlen hhex).1
  rw [swapped_eq t hk, List.length_append, List.length_drop, List.length_take]
  omega

theorem length_swapped_le (k : ℕ) : (swapped (t.val.fields.map padField) k).length ≤ 4 := by
  by_cases hk : k < t.val.fields.length
  · exact (length_swapped t hk).le
  · rw [swapped_of_ge t (Nat.le_of_not_lt hk)]
    exact Nat.zero_le 4

/-- The low byte of a field is in front. -/
theorem numeral_swapped (k : ℕ) : numeral 16 (swapped (t.val.fields.map padField) k) =
    fieldValue t.val.fields k / 256 + 256 * (fieldValue t.val.fields k % 256) := by
  by_cases hk : k < t.val.fields.length
  · obtain ⟨hlen, hhex⟩ := mem_fields (List.getElem_mem hk)
    obtain ⟨hlen4, hpad, hval⟩ := padField_spec hlen hhex
    have hfield : fieldValue t.val.fields k = numeral 16 (padField t.val.fields[k]) := by
      unfold fieldValue
      rw [List.getD_eq_getElem _ _ hk, hval]
    rw [swapped_eq t hk, hfield]
    generalize padField t.val.fields[k] = f at hlen4 hpad
    have hlow : (f.drop 2).length = 2 := by rw [List.length_drop]; omega
    have hhigh : (f.take 2).length = 2 := by rw [List.length_take]; omega
    have hlt := numeral_lt fun c hc => hpad c (List.mem_of_mem_drop hc (i := 2))
    have hsplit := numeral_append 16 (f.take 2) (f.drop 2)
    rw [List.take_append_drop] at hsplit
    rw [hlow] at hlt hsplit
    rw [numeral_append, hhigh, hsplit]
    omega
  · have hge := Nat.le_of_not_lt hk
    rw [swapped_of_ge t hge, fieldValue_of_ge hge]
    rfl

/-- **The first two fields** get a number each. -/
theorem leBytes_single (k : ℕ) : Mem.leBytes 4 (numeral 16 (upper (['0', '0', '0', '0'] ++
    swapped (t.val.fields.map padField) k))) = networkBytes (fieldValue t.val.fields k) 0 := by
  have hhex : ∀ c ∈ ['0', '0', '0', '0'] ++ swapped (t.val.fields.map padField) k,
      c ∈ hexDigits := by
    intro c hc
    rcases List.mem_append.1 hc with hc | hc
    · rw [List.eq_of_mem_replicate (n := 4) hc]
      decide
    · exact mem_swapped t c hc
  have hzero : numeral 16 ['0', '0', '0', '0'] = 0 := rfl
  have hbytes := leBytes_swapped (fieldValue_lt t k) (Nat.zero_lt_succ 65535)
  rw [numeral_upper hhex, numeral_append, hzero, numeral_swapped]
  rw [← hbytes]
  norm_num

/-- **Two of the other fields** share a number. -/
theorem leBytes_pair {k : ℕ} (hk : k < t.val.fields.length) :
    Mem.leBytes 4 (numeral 16 (upper (swapped (t.val.fields.map padField) (k + 1) ++
      swapped (t.val.fields.map padField) k))) =
      networkBytes (fieldValue t.val.fields k) (fieldValue t.val.fields (k + 1)) := by
  have hhex : ∀ c ∈ swapped (t.val.fields.map padField) (k + 1) ++
      swapped (t.val.fields.map padField) k, c ∈ hexDigits := by
    intro c hc
    exact (List.mem_append.1 hc).elim (mem_swapped t c) (mem_swapped t c)
  rw [numeral_upper hhex, numeral_append, length_swapped t hk, numeral_swapped, numeral_swapped,
    leBytes_swapped (fieldValue_lt t k) (fieldValue_lt t (k + 1))]

theorem isHexNumber_single (k : ℕ) : IsHexNumber (upper (['0', '0', '0', '0'] ++
    swapped (t.val.fields.map padField) k)) := by
  have hlen := length_swapped_le t k
  refine ⟨List.cons_ne_nil _ _, ?_, mem_upper ?_⟩
  · unfold upper
    rw [List.length_map, List.length_append]
    exact Nat.add_le_add_left hlen 4
  · intro c hc
    rcases List.mem_append.1 hc with hc | hc
    · rw [List.eq_of_mem_replicate (n := 4) hc]
      decide
    · exact mem_swapped t c hc

theorem isHexNumber_pair {k : ℕ} (hk : k < t.val.fields.length) :
    IsHexNumber (upper (swapped (t.val.fields.map padField) (k + 1) ++
      swapped (t.val.fields.map padField) k)) := by
  have hlen := length_swapped t hk
  have hlen' := length_swapped_le t (k + 1)
  have hsum : (upper (swapped (t.val.fields.map padField) (k + 1) ++
      swapped (t.val.fields.map padField) k)).length =
      (swapped (t.val.fields.map padField) (k + 1)).length + 4 := by
    unfold upper
    rw [List.length_map, List.length_append, hlen]
  refine ⟨List.ne_nil_of_length_pos (by omega), by omega, mem_upper ?_⟩
  intro c hc
  exact (List.mem_append.1 hc).elim (mem_swapped t c) (mem_swapped t c)

/-- Fields that are not there have no number. -/
theorem pair_of_ge {k : ℕ} (hk : t.val.fields.length ≤ k) :
    upper (swapped (t.val.fields.map padField) (k + 1) ++
      swapped (t.val.fields.map padField) k) = [] := by
  rw [swapped_of_ge t hk, swapped_of_ge t (Nat.le_succ_of_le hk)]
  rfl

end Swapped

end PseFw.Tsn
