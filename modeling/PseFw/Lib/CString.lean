/-
**Strings that end with a zero.**

A pointer is modelled by the memory from it on: a list of bytes, behind which there are zeros.  The
string at a pointer is what stands before the first zero; the functions of the C library look at
nothing else, and they look at all of that, whatever the caller knows about the length of his data.

Main definitions:

* `CStr.bytes` — the bytes of a literal;
* `CStr.str` — the string at a pointer;
* `CStr.find`, `CStr.strstr`, `CStr.strchr`, `CStr.strncmpEq`, `CStr.snprintf` — the library.

Main results:

* `CStr.str_append_of_mem`, `CStr.str_append_of_not_mem` — the string of a memory in two parts;
* `CStr.find_isSome_iff` — what is found is there;
* `CStr.find_append` — **the first occurrence stays the first one** when the memory grows;
* `CStr.strstr_append`, `CStr.strstr_append_of_mem` — **when a search does not look behind the
  data**;
* `CStr.prefix_str_append_iff` — the same for comparisons.
-/

import Mathlib.Data.List.Infix
import Mathlib.Data.List.TakeWhile

set_option relaxedAutoImplicit false
set_option autoImplicit false

namespace CStr

/-- The bytes of a literal. -/
def bytes (s : String) : List UInt8 := s.toList.map fun c => c.toNat.toUInt8

/-- The string at a pointer. -/
def str (m : List UInt8) : List UInt8 := m.takeWhile (· != 0)

/-- Where a string occurs first in another one. -/
def find (needle : List UInt8) : List UInt8 → Option ℕ
  | [] => if needle = [] then some 0 else none
  | b :: l => if needle <+: b :: l then some 0 else (find needle l).map (· + 1)

/-- `strstr`: the pointer to the first occurrence. -/
def strstr (m needle : List UInt8) : Option (List UInt8) := (find needle (str m)).map m.drop

/-- `strchr`, for a character other than zero. -/
def strchr (m : List UInt8) (c : UInt8) : Option (List UInt8) := strstr m [c]

/-- `strncmp` finds no difference between the string at a pointer and a literal. -/
def strncmpEq (m lit : List UInt8) (n : ℕ) : Bool := (str m).take n = lit.take n

/-- `snprintf`: what the buffer holds of a text. -/
def snprintf (size : ℕ) (text : List UInt8) : List UInt8 := text.take (size - 1)

/-- `memcpy` of `n` bytes. -/
def memcpy (m : List UInt8) (n : ℕ) : List UInt8 := (m ++ List.replicate n 0).take n

/-! ### The string of a memory -/

theorem ne_zero_of_not_mem {m : List UInt8} (h : 0 ∉ m) : ∀ b ∈ m, (b != 0) = true := by
  intro b hb
  rw [bne_iff_ne]
  exact ne_of_mem_of_not_mem hb h

/-- Without a zero the string goes on behind a memory. -/
theorem str_append_of_not_mem {m : List UInt8} (h : 0 ∉ m) (m' : List UInt8) :
    str (m ++ m') = m ++ str m' :=
  List.takeWhile_append_of_pos (ne_zero_of_not_mem h)

/-- A string that ends in a memory does not depend on what follows. -/
theorem str_append_of_mem {m : List UInt8} (h : 0 ∈ m) (m' : List UInt8) :
    str (m ++ m') = str m := by
  induction m with
  | nil => exact absurd h List.not_mem_nil
  | cons b m ih =>
      unfold str at ih ⊢
      rw [List.cons_append, List.takeWhile_cons, List.takeWhile_cons]
      split
      · next hb =>
          rcases List.mem_cons.1 h with h0 | h
          · rw [← h0] at hb
            cases hb
          · rw [ih h]
      · rfl

theorem str_of_not_mem {m : List UInt8} (h : 0 ∉ m) : str m = m :=
  List.takeWhile_eq_self_iff.2 (ne_zero_of_not_mem h)

/-- A zero at the end does not change the string. -/
theorem str_concat_zero (m : List UInt8) : str (m ++ [0]) = str m := by
  by_cases h : 0 ∈ m
  · exact str_append_of_mem h [0]
  · rw [str_append_of_not_mem h, str_of_not_mem h]
    exact List.append_nil m

theorem zero_not_mem_str (m : List UInt8) : 0 ∉ str m := by
  intro h
  have := List.mem_takeWhile_imp h
  cases this

/-! ### Occurrences -/

variable {needle s s' : List UInt8} {i : ℕ}

/-- What is found is there, and what is there is found. -/
theorem find_isSome_iff : (find needle s).isSome ↔ needle <:+: s := by
  induction s with
  | nil =>
      rw [List.infix_nil, find]
      split
      · next h => exact ⟨fun _ => h, fun _ => rfl⟩
      · next h => exact ⟨fun h' => Bool.noConfusion h', fun h' => absurd h' h⟩
  | cons b s ih =>
      rw [List.infix_cons_iff, find]
      split
      · next h => exact ⟨fun _ => .inl h, fun _ => rfl⟩
      · next h =>
          rw [Option.isSome_map, ih]
          exact ⟨.inr, fun h' => h'.resolve_left h⟩

/-- The string stands where it is found. -/
theorem prefix_of_find (h : find needle s = some i) : needle <+: s.drop i := by
  induction s generalizing i with
  | nil =>
      rw [find] at h
      split at h
      · next hn => rw [hn]; exact List.nil_prefix
      · cases h
  | cons b s ih =>
      rw [find] at h
      split at h
      · next hn =>
          cases h
          exact hn
      · obtain ⟨j, hj, rfl⟩ := Option.map_eq_some_iff.1 h
        exact ih hj

theorem find_of_isPrefix (h : needle <+: s) : find needle s = some 0 := by
  cases s with
  | nil => exact if_pos (List.prefix_nil.1 h)
  | cons b s => exact if_pos h

/-- **The first occurrence stays the first one** when the string grows. -/
theorem find_append (h : find needle s = some i) : find needle (s ++ s') = some i := by
  induction s generalizing i with
  | nil =>
      rw [find] at h
      split at h
      · next hn =>
          cases h
          rw [hn]
          cases s' with
          | nil => rfl
          | cons b s' => exact if_pos List.nil_prefix
      · cases h
  | cons b s ih =>
      rw [find] at h
      rw [List.cons_append, find]
      split at h
      · next hn =>
          cases h
          exact if_pos (hn.trans (List.prefix_append _ s'))
      · next hn =>
          obtain ⟨j, hj, rfl⟩ := Option.map_eq_some_iff.1 h
          -- a new occurrence at the start would fit into the old string
          have hlen : needle.length ≤ (b :: s).length := by
            have := (prefix_of_find hj).length_le
            rw [List.length_drop] at this
            rw [List.length_cons]
            omega
          have hneg : ¬ needle <+: b :: (s ++ s') := fun hp => hn <| by
            rw [← List.cons_append] at hp
            exact List.prefix_of_prefix_length_le hp (List.prefix_append _ s') hlen
          rw [if_neg hneg, ih hj]
          rfl

theorem strstr_isSome_iff {m : List UInt8} : (strstr m needle).isSome ↔ needle <:+: str m := by
  unfold strstr
  rw [Option.isSome_map, find_isSome_iff]

/-- An occurrence that does not end in the second part lies in the first one. -/
theorem infix_of_infix_append {b : UInt8} (hb : b ∉ s') (h : needle ++ [b] <:+: s ++ s') :
    needle ++ [b] <:+: s := by
  rcases List.infix_append_iff.1 h with h | h | ⟨l₁, l₂, heq, h₁, h₂⟩
  · exact h
  · exact absurd (h.subset (List.mem_append_right _ List.mem_cons_self)) hb
  · rcases List.eq_nil_or_concat l₂ with rfl | ⟨l, a, rfl⟩
    · rw [List.append_nil] at heq
      rw [heq]
      exact h₁.isInfix
    · rw [List.concat_eq_append, ← List.append_assoc] at heq
      rw [List.concat_eq_append] at h₂
      have hab : b = a := by
        have hlast := congrArg List.getLast? heq
        rw [List.getLast?_concat, List.getLast?_concat] at hlast
        exact Option.some.inj hlast
      rw [← hab] at h₂
      exact absurd (h₂.subset (List.mem_append_right _ List.mem_cons_self)) hb

theorem find_le (h : find needle s = some i) : i ≤ s.length := by
  induction s generalizing i with
  | nil =>
      rw [find] at h
      split at h
      · cases h
        exact le_rfl
      · cases h
  | cons b s ih =>
      rw [find] at h
      split at h
      · cases h
        exact Nat.zero_le _
      · obtain ⟨j, hj, rfl⟩ := Option.map_eq_some_iff.1 h
        exact Nat.succ_le_succ (ih hj)

theorem length_str_le (m : List UInt8) : (str m).length ≤ m.length :=
  (List.takeWhile_sublist _).length_le

theorem drop_append_of_find {m : List UInt8} (h : find needle (str m) = some i)
    (m' : List UInt8) : (m ++ m').drop i = m.drop i ++ m' :=
  List.drop_append_of_le_length ((find_le h).trans (length_str_le m))

/-- **A search that succeeds in the data** succeeds at the same place, whatever is behind them. -/
theorem strstr_append {m p : List UInt8} (h : strstr m needle = some p) (m' : List UInt8) :
    strstr (m ++ m') needle = some (p ++ m') := by
  obtain ⟨i, hi, rfl⟩ := Option.map_eq_some_iff.1 h
  refine Option.map_eq_some_iff.2 ⟨i, ?_, drop_append_of_find hi m'⟩
  by_cases h0 : 0 ∈ m
  · rw [str_append_of_mem h0]
    exact hi
  · rw [str_append_of_not_mem h0]
    rw [str_of_not_mem h0] at hi
    exact find_append hi

/-- **A search in data that hold a zero** does not look behind them. -/
theorem strstr_append_of_mem {m : List UInt8} (h : 0 ∈ m) (m' : List UInt8) :
    strstr (m ++ m') needle = (strstr m needle).map (· ++ m') := by
  cases hs : strstr m needle with
  | some p => exact strstr_append hs m'
  | none =>
      have hfind : find needle (str m) = none := Option.map_eq_none_iff.1 hs
      unfold strstr
      rw [str_append_of_mem h, hfind]
      rfl

/-- The string behind a place in a string. -/
theorem str_drop {m : List UInt8} (h : i ≤ (str m).length) : str (m.drop i) = (str m).drop i := by
  have hsplit : str m ++ m.dropWhile (· != 0) = m := List.takeWhile_append_dropWhile
  have hend : str (m.dropWhile (· != 0)) = [] := by
    have hall := List.append_cancel_left
      ((str_append_of_not_mem (zero_not_mem_str m) (m.dropWhile (· != 0))).symm.trans
        ((congrArg str hsplit).trans (List.append_nil (str m)).symm))
    exact hall
  conv_lhs => rw [← hsplit, List.drop_append_of_le_length h]
  rw [str_append_of_not_mem (fun h0 => zero_not_mem_str m (List.mem_of_mem_drop h0)), hend,
    List.append_nil]

/-- The zero that ends the string stands behind everything that is found in it. -/
theorem zero_mem_of_strstr {m p : List UInt8} (h0 : 0 ∈ m) (h : strstr m needle = some p) :
    0 ∈ p := by
  obtain ⟨i, hi, rfl⟩ := Option.map_eq_some_iff.1 h
  have hsplit : str m ++ m.dropWhile (· != 0) = m := List.takeWhile_append_dropWhile
  have hrest : 0 ∈ m.dropWhile (· != 0) := by
    rw [← hsplit] at h0
    exact (List.mem_append.1 h0).resolve_left (zero_not_mem_str m)
  rw [← hsplit, List.drop_append_of_le_length (find_le hi)]
  exact List.mem_append_right _ hrest

theorem zero_not_mem_of_strstr {m p : List UInt8} (h0 : 0 ∉ m) (h : strstr m needle = some p) :
    0 ∉ p := by
  obtain ⟨i, -, rfl⟩ := Option.map_eq_some_iff.1 h
  exact fun hp => h0 (List.mem_of_mem_drop hp)

/-- A character behind data that hold neither it nor a zero is the one that is found. -/
theorem strchr_append_cons {l : List UInt8} {b : UInt8} (h0 : 0 ∉ l) (hb : b ∉ l) (hne : b ≠ 0)
    (r : List UInt8) : strchr (l ++ b :: r) b = some (b :: r) := by
  have hfind : find [b] (l ++ [b]) = some l.length := by
    clear h0
    induction l with
    | nil => exact if_pos (List.prefix_rfl)
    | cons a l ih =>
        rw [List.mem_cons, not_or] at hb
        have hnot : ¬ [b] <+: a :: (l ++ [b]) := fun h => hb.1 (List.cons_prefix_cons.1 h).1
        rw [List.cons_append, find, if_neg hnot, ih hb.2]
        rfl
  have hnot : 0 ∉ l ++ [b] := fun h =>
    (List.mem_append.1 h).elim h0 fun h => hne (List.mem_singleton.1 h).symm
  have hshort : strstr (l ++ [b]) [b] = some [b] := by
    unfold strstr
    rw [str_of_not_mem hnot, hfind, Option.map_some, List.drop_left]
  have hlong := strstr_append hshort r
  rwa [List.append_assoc] at hlong

/-- The first place of a character in a string. -/
theorem exists_append_of_find {b : UInt8} (h : find [b] s = some i) :
    ∃ l r, s = l ++ b :: r ∧ l.length = i ∧ b ∉ l := by
  induction s generalizing i with
  | nil => cases h
  | cons a s ih =>
      rw [find] at h
      split at h
      · next hp =>
          rw [(List.cons_prefix_cons.1 hp).1]
          exact ⟨[], s, rfl, Option.some.inj h, List.not_mem_nil⟩
      · next hp =>
          obtain ⟨j, hj, rfl⟩ := Option.map_eq_some_iff.1 h
          obtain ⟨l, r, rfl, rfl, hb⟩ := ih hj
          have hne : b ≠ a := fun heq => hp (heq ▸ List.cons_prefix_cons.2 ⟨rfl, List.nil_prefix⟩)
          exact ⟨a :: l, r, rfl, rfl, fun hmem => (List.mem_cons.1 hmem).elim hne hb⟩

/-- What `strchr` finds is the first place of the character. -/
theorem exists_append_of_strchr {m f : List UInt8} {b : UInt8} (h : strchr m b = some f) :
    ∃ l, m = l ++ b :: f.tail ∧ b ∉ l ∧ 0 ∉ l := by
  obtain ⟨i, hi, rfl⟩ := Option.map_eq_some_iff.1 h
  obtain ⟨l, r, hs, rfl, hb⟩ := exists_append_of_find hi
  have hsplit : str m ++ m.dropWhile (· != 0) = m := List.takeWhile_append_dropWhile
  have h0 : 0 ∉ l := fun hmem => zero_not_mem_str m (hs ▸ List.mem_append_left _ hmem)
  have hm : m = l ++ b :: (r ++ m.dropWhile (· != 0)) := by
    rw [hs, List.append_assoc] at hsplit
    exact hsplit.symm
  refine ⟨l, ?_, hb, h0⟩
  conv_rhs => rw [hm, List.drop_left]
  exact hm

theorem prefix_of_strstr {m p : List UInt8} (h : strstr m needle = some p) : needle <+: p := by
  obtain ⟨i, hi, rfl⟩ := Option.map_eq_some_iff.1 h
  have hsplit : str m ++ m.dropWhile (· != 0) = m := List.takeWhile_append_dropWhile
  rw [← hsplit, List.drop_append_of_le_length (find_le hi)]
  exact (prefix_of_find hi).trans (List.prefix_append _ _)

/-! ### Copies -/

@[simp] theorem length_memcpy (m : List UInt8) (n : ℕ) : (memcpy m n).length = n := by
  unfold memcpy
  rw [List.length_take, List.length_append, List.length_replicate]
  omega

theorem memcpy_of_le {m : List UInt8} {n : ℕ} (h : m.length ≤ n) :
    memcpy m n = m ++ List.replicate (n - m.length) 0 := by
  unfold memcpy
  rw [List.take_append, List.take_of_length_le h, List.take_replicate]
  congr 2
  omega

/-- A copy that has room for the data holds them as its string. -/
theorem str_memcpy_of_le {m : List UInt8} {n : ℕ} (h0 : 0 ∉ m) (h : m.length ≤ n) :
    str (memcpy m n) = m := by
  rw [memcpy_of_le h, str_append_of_not_mem h0]
  cases n - m.length with
  | zero => exact List.append_nil m
  | succ k => exact List.append_nil m

theorem memcpy_of_ge {m : List UInt8} {n : ℕ} (h : n ≤ m.length) : memcpy m n = m.take n :=
  List.take_append_of_le_length h

theorem memcpy_append_of_le {m : List UInt8} {n : ℕ} (h : n ≤ m.length) (m' : List UInt8) :
    memcpy (m ++ m') n = memcpy m n := by
  unfold memcpy
  rw [List.append_assoc, List.take_append_of_le_length h, List.take_append_of_le_length h]

theorem memcpy_of_lt {m : List UInt8} {n : ℕ} (h : m.length < n) (m' : List UInt8) :
    ∃ rest, memcpy (m ++ m') n = m ++ rest := by
  unfold memcpy
  rw [List.append_assoc, List.take_append, List.take_of_length_le h.le]
  exact ⟨_, rfl⟩

/-- The string in a copy of data that hold a zero. -/
theorem str_memcpy_append {m : List UInt8} (h : 0 ∈ m) (n : ℕ) (m' rest : List UInt8) :
    str (memcpy (m ++ m') n ++ rest) = str (memcpy m n ++ rest) := by
  rcases Nat.lt_or_ge m.length n with hn | hn
  · obtain ⟨r, hr⟩ := memcpy_of_lt hn m'
    obtain ⟨r', hr'⟩ := memcpy_of_lt hn []
    rw [List.append_nil] at hr'
    rw [hr, hr', List.append_assoc, List.append_assoc, str_append_of_mem h, str_append_of_mem h]
  · rw [memcpy_append_of_le hn]

/-! ### Comparisons -/

/-- `strncmp` over the length of the data does not look behind it. -/
theorem take_str_append (m m' : List UInt8) : (str (m ++ m')).take m.length = str m := by
  by_cases h : 0 ∈ m
  · rw [str_append_of_mem h, List.take_of_length_le (length_str_le m)]
  · rw [str_append_of_not_mem h, List.take_left, str_of_not_mem h]

theorem strncmpEq_length_iff {m lit : List UInt8} :
    strncmpEq m lit lit.length = true ↔ lit <+: str m := by
  unfold strncmpEq
  rw [decide_eq_true_eq, List.take_length, List.prefix_iff_eq_take]
  exact eq_comm

/-- The data are the beginning of a literal, so that what is behind them decides a comparison. -/
def Undecided (lit m : List UInt8) : Prop := 0 ∉ m ∧ m <+: lit ∧ m ≠ lit

/-- Otherwise a comparison with a literal does not look behind the data. -/
theorem prefix_str_append_iff {lit m : List UInt8} (h : ¬ Undecided lit m)
    (m' : List UInt8) : lit <+: str (m ++ m') ↔ lit <+: str m := by
  by_cases hm : 0 ∈ m
  · rw [str_append_of_mem hm]
  · rw [str_append_of_not_mem hm, str_of_not_mem hm]
    refine ⟨fun hp => ?_, fun hp => hp.trans (List.prefix_append _ _)⟩
    rcases Nat.le_total lit.length m.length with hle | hle
    · exact List.prefix_of_prefix_length_le hp (List.prefix_append _ _) hle
    · have hpre : m <+: lit := List.prefix_of_prefix_length_le (List.prefix_append _ _) hp hle
      by_cases heq : m = lit
      · rw [heq]
      · exact absurd ⟨hm, hpre, heq⟩ h

end CStr
