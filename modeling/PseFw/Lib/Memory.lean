/-
**Memories.**

A memory is a function from addresses to values.  Reading a block gives a list, writing one puts a
list into the memory.  The lemmas say what a read sees of an earlier write: all of it, or nothing
when the two blocks do not meet.  A record laid out in memory is a list of fields with their sizes;
two different fields of it never meet.

Main definitions:

* `Mem.read`, `Mem.write` — blocks of a memory;
* `Mem.writes`, `Mem.Within` — several writes, and a write that stays inside a buffer;
* `Mem.leBytes`, `Mem.ofLe` — numbers in little-endian order;
* `Mem.cString` — the bytes up to the first zero;
* `Mem.offset` — where a field of a layout starts.

Main results:

* `Mem.read_write_self`, `Mem.read_write_disjoint` — **what a read sees of a write**;
* `Mem.writes_of_untouched` — what no write of a sequence reaches is as before;
* `Mem.ofLe_leBytes` — numbers are read as they were written;
* `Mem.cString_padded` — a string is read up to its padding;
* `Mem.cString_eq_iff` — when a string is read as it was written;
* `Mem.padTo_cString` — a string in a buffer;
* `Mem.offset_disjoint` — **the fields of a layout do not overlap**.
-/

import Mathlib.Data.List.Basic
import Mathlib.Data.List.GetD
import Mathlib.Data.List.TakeWhile
import Mathlib.Algebra.Order.Ring.Nat
import Mathlib.Tactic.Ring

set_option relaxedAutoImplicit false
set_option autoImplicit false

namespace Mem

variable {α : Type*}

/-! ### Blocks -/

/-- The `n` values from address `a` on. -/
def read (m : ℕ → α) (a n : ℕ) : List α := (List.range n).map fun i => m (a + i)

/-- Put the list into the memory, from address `a` on. -/
def write (m : ℕ → α) (a : ℕ) (l : List α) : ℕ → α :=
  fun i => if a ≤ i then l.getD (i - a) (m i) else m i

@[simp] theorem length_read (m : ℕ → α) (a n : ℕ) : (read m a n).length = n := by simp [read]

theorem getElem_read (m : ℕ → α) (a : ℕ) {n i : ℕ} (h : i < (read m a n).length) :
    (read m a n)[i] = m (a + i) := by
  simp only [read, List.getElem_map, List.getElem_range]

theorem read_congr {m m' : ℕ → α} {a n : ℕ} (h : ∀ i, a ≤ i → i < a + n → m i = m' i) :
    read m a n = read m' a n := by
  refine List.map_congr_left fun i hi => ?_
  exact h (a + i) (Nat.le_add_right a i) (by rw [List.mem_range] at hi; omega)

theorem read_add (m : ℕ → α) (a n k : ℕ) : read m a (n + k) = read m a n ++ read m (a + n) k := by
  unfold read
  rw [List.range_add, List.map_append, List.map_map]
  refine congrArg _ (List.map_congr_left fun i _ => ?_)
  show m (a + (n + i)) = m (a + n + i)
  rw [Nat.add_assoc]

theorem take_read (m : ℕ → α) (a : ℕ) {n k : ℕ} (h : k ≤ n) : (read m a n).take k = read m a k := by
  obtain ⟨d, rfl⟩ := Nat.exists_eq_add_of_le h
  rw [read_add, List.take_left' (length_read m a k)]

theorem write_of_lt (m : ℕ → α) {a i : ℕ} (l : List α) (h : i < a) : write m a l i = m i :=
  if_neg (by omega)

theorem write_of_ge (m : ℕ → α) {a i : ℕ} (l : List α) (h : a + l.length ≤ i) :
    write m a l i = m i := by
  unfold write
  split
  · exact List.getD_eq_default _ _ (by omega)
  · rfl

theorem write_add (m : ℕ → α) (a : ℕ) {l : List α} {i : ℕ} (h : i < l.length) :
    write m a l (a + i) = l[i] := by
  unfold write
  rw [if_pos (Nat.le_add_right a i), Nat.add_sub_cancel_left, List.getD_eq_getElem _ _ h]

/-- Two memories that agree at an address still do after the same write. -/
theorem write_congr {m m' : ℕ → α} {i : ℕ} (h : m i = m' i) (a : ℕ) (l : List α) :
    write m a l i = write m' a l i := by
  unfold write
  rw [h]

/-- A write covers an earlier one at the same address that is no longer. -/
theorem write_write_self (m : ℕ → α) (a : ℕ) {l l' : List α} (h : l.length ≤ l'.length) :
    write (write m a l) a l' = write m a l' := by
  funext i
  rcases Nat.lt_or_ge i a with hi | hi
  · rw [write_of_lt _ _ hi, write_of_lt _ _ hi, write_of_lt _ _ hi]
  · obtain ⟨d, rfl⟩ := Nat.exists_eq_add_of_le hi
    rcases Nat.lt_or_ge d l'.length with hd | hd
    · rw [write_add _ _ hd, write_add _ _ hd]
    · rw [write_of_ge _ _ (by omega), write_of_ge _ _ (by omega), write_of_ge _ _ (by omega)]

/-- **A read of the block that was written.** -/
theorem read_write_self (m : ℕ → α) (a : ℕ) (l : List α) : read (write m a l) a l.length = l := by
  refine List.ext_getElem (length_read _ _ _) fun i _ h => ?_
  rw [getElem_read, write_add m a h]

/-- A block that is written back. -/
theorem write_read_self (m : ℕ → α) (a n : ℕ) : write m a (read m a n) = m := by
  funext i
  rcases Nat.lt_or_ge i a with hi | hi
  · exact write_of_lt m _ hi
  · obtain ⟨d, rfl⟩ := Nat.exists_eq_add_of_le hi
    rcases Nat.lt_or_ge d n with hd | hd
    · rw [write_add m a (by rwa [length_read]), getElem_read]
    · exact write_of_ge m _ (by rw [length_read]; omega)

/-- **A read of a block that does not meet the one that was written.** -/
theorem read_write_disjoint (m : ℕ → α) {a b n : ℕ} {l : List α}
    (h : b + n ≤ a ∨ a + l.length ≤ b) : read (write m a l) b n = read m b n := by
  refine read_congr fun i hi hn => ?_
  rcases h with h | h
  · exact write_of_lt m l (by omega)
  · exact write_of_ge m l (by omega)

/-- A read inside a block that was filled with one value. -/
theorem read_write_replicate (m : ℕ → α) (x : α) {a b n k : ℕ} (ha : a ≤ b) (h : b + k ≤ a + n) :
    read (write m a (List.replicate n x)) b k = List.replicate k x := by
  refine List.ext_getElem (by simp) fun i hi _ => ?_
  rw [length_read] at hi
  obtain ⟨d, rfl⟩ := Nat.exists_eq_add_of_le ha
  rw [getElem_read, List.getElem_replicate, Nat.add_assoc,
    write_add m a (l := List.replicate n x) (by rw [List.length_replicate]; omega),
    List.getElem_replicate]

theorem drop_read (m : ℕ → α) (a n k : ℕ) : (read m a n).drop k = read m (a + k) (n - k) := by
  refine List.ext_getElem (by simp) fun i _ _ => ?_
  rw [List.getElem_drop, getElem_read, getElem_read, Nat.add_assoc]

/-- A read of a block whose beginning was written. -/
theorem read_write_le (m : ℕ → α) (a : ℕ) {l : List α} {n : ℕ} (h : l.length ≤ n) :
    read (write m a l) a n = l ++ (read m a n).drop l.length := by
  obtain ⟨d, rfl⟩ := Nat.exists_eq_add_of_le h
  rw [drop_read, Nat.add_sub_cancel_left, read_add, read_write_self,
    read_write_disjoint m (Or.inr le_rfl)]

/-- A block that holds a concatenation holds its parts. -/
theorem read_append {m : ℕ → α} {a : ℕ} {l l' : List α}
    (h : read m a (l ++ l').length = l ++ l') :
    read m a l.length = l ∧ read m (a + l.length) l'.length = l' := by
  rw [List.length_append, read_add] at h
  exact List.append_inj h (length_read _ _ _)

/-- Two writes, one right behind the other. -/
theorem write_append (m : ℕ → α) (a : ℕ) (l l' : List α) :
    write (write m a l) (a + l.length) l' = write m a (l ++ l') := by
  funext i
  rcases Nat.lt_or_ge i a with h | h
  · rw [write_of_lt _ _ (by omega), write_of_lt _ _ h, write_of_lt _ _ h]
  · obtain ⟨d, rfl⟩ := Nat.exists_eq_add_of_le h
    rcases Nat.lt_or_ge d l.length with hd | hd
    · rw [write_of_lt _ _ (by omega), write_add m a hd,
        write_add m a (l := l ++ l') (by rw [List.length_append]; omega),
        List.getElem_append_left hd]
    · obtain ⟨e, rfl⟩ := Nat.exists_eq_add_of_le hd
      rcases Nat.lt_or_ge e l'.length with he | he
      · rw [← Nat.add_assoc, write_add _ _ he, Nat.add_assoc,
          write_add m a (l := l ++ l') (by rw [List.length_append]; omega),
          List.getElem_append_right hd]
        congr 1
        omega
      · rw [write_of_ge _ _ (by omega), write_of_ge _ _ (by omega),
          write_of_ge _ _ (by rw [List.length_append]; omega)]

/-! ### Several writes -/

/-- Put the lists into the memory, one after the other, each from its address on. -/
def writes (m : ℕ → α) : List (ℕ × List α) → ℕ → α
  | [] => m
  | w :: ws => writes (write m w.1 w.2) ws

/-- A write to the first `n` addresses. -/
def Within (n : ℕ) (w : ℕ × List α) : Prop := w.1 + w.2.length ≤ n

instance (n : ℕ) (w : ℕ × List α) : Decidable (Within n w) :=
  inferInstanceAs (Decidable (w.1 + w.2.length ≤ n))

theorem writes_append (m : ℕ → α) (ws ws' : List (ℕ × List α)) :
    writes m (ws ++ ws') = writes (writes m ws) ws' := by
  induction ws generalizing m with
  | nil => rfl
  | cons w ws ih => exact ih _

/-- **What no write reaches** is as before. -/
theorem writes_of_untouched {i : ℕ} {ws : List (ℕ × List α)}
    (h : ∀ w ∈ ws, i < w.1 ∨ w.1 + w.2.length ≤ i) (m : ℕ → α) : writes m ws i = m i := by
  induction ws generalizing m with
  | nil => rfl
  | cons w ws ih =>
      have hw : write m w.1 w.2 i = m i := by
        rcases h w List.mem_cons_self with hlt | hge
        · exact write_of_lt m w.2 hlt
        · exact write_of_ge m w.2 hge
      exact (ih (fun w' hw' => h w' (List.mem_cons_of_mem w hw')) _).trans hw

/-! ### Numbers -/

/-- The `k` lowest bytes of a number, the lowest one first. -/
def leBytes (k n : ℕ) : List UInt8 := (List.range k).map fun i => UInt8.ofNat (n / 256 ^ i)

/-- The number the bytes stand for. -/
def ofLe : List UInt8 → ℕ
  | [] => 0
  | b :: l => b.toNat + 256 * ofLe l

@[simp] theorem length_leBytes (k n : ℕ) : (leBytes k n).length = k := by simp [leBytes]

theorem leBytes_succ (k n : ℕ) :
    leBytes (k + 1) n = UInt8.ofNat n :: leBytes k (n / 256) := by
  unfold leBytes
  rw [List.range_succ_eq_map, List.map_cons, List.map_map, Nat.pow_zero, Nat.div_one]
  refine congrArg _ (List.map_congr_left fun i _ => ?_)
  show UInt8.ofNat (n / 256 ^ (i + 1)) = UInt8.ofNat (n / 256 / 256 ^ i)
  rw [Nat.div_div_eq_div_mul, Nat.pow_succ, Nat.mul_comm]

theorem ofLe_lt (l : List UInt8) : ofLe l < 256 ^ l.length := by
  induction l with
  | nil => exact Nat.one_pos
  | cons b l ih =>
      have hb : b.toNat < 256 := b.toNat_lt
      rw [List.length_cons, Nat.pow_succ]
      show b.toNat + 256 * ofLe l < _
      omega

/-- **Numbers are read as they were written.** -/
theorem ofLe_leBytes {k n : ℕ} (h : n < 256 ^ k) : ofLe (leBytes k n) = n := by
  induction k generalizing n with
  | zero =>
      rw [Nat.pow_zero] at h
      have hn : n = 0 := by omega
      rw [hn]
      rfl
  | succ k ih =>
      rw [Nat.pow_succ, Nat.mul_comm] at h
      rw [leBytes_succ, ofLe, ih (Nat.div_lt_of_lt_mul h), UInt8.toNat_ofNat']
      exact Nat.mod_add_div n 256

/-! ### Strings -/

/-- The bytes from address `a` on, up to the first zero; at most `limit` of them. -/
def cString (m : ℕ → UInt8) (a limit : ℕ) : List UInt8 := (read m a limit).takeWhile (· != 0)

theorem takeWhile_append_zero {l : List UInt8} (h : 0 ∉ l) (rest : List UInt8) :
    (l ++ 0 :: rest).takeWhile (· != 0) = l := by
  induction l with
  | nil => rfl
  | cons b l ih =>
      rw [List.mem_cons, not_or] at h
      rw [List.cons_append, List.takeWhile_cons, if_pos (by simpa using Ne.symm h.1), ih h.2]

/-- The list, filled up with zeros. -/
def padTo (n : ℕ) (l : List UInt8) : List UInt8 := (l ++ List.replicate n 0).take n

theorem length_padTo (n : ℕ) (l : List UInt8) : (padTo n l).length = n := by
  simp [padTo]

theorem padTo_of_length {n : ℕ} {l : List UInt8} (h : l.length = n) : padTo n l = l := by
  unfold padTo
  rw [← h]
  exact List.take_left' rfl

theorem padTo_eq_append {n : ℕ} {l : List UInt8} (h : l.length ≤ n) :
    padTo n l = l ++ List.replicate (n - l.length) 0 := by
  unfold padTo
  rw [List.take_append, List.take_of_length_le h, List.take_replicate,
    Nat.min_eq_left (Nat.sub_le _ _)]

/-- **A string is read up to its padding.** -/
theorem cString_padded {m : ℕ → UInt8} {a n limit : ℕ} {l : List UInt8} (h0 : 0 ∉ l)
    (hl : l.length < n) (hn : n ≤ limit) (h : read m a n = padTo n l) :
    cString m a limit = l := by
  obtain ⟨d, rfl⟩ := Nat.exists_eq_add_of_le hn
  obtain ⟨k, hk⟩ := Nat.exists_eq_add_of_lt hl
  unfold cString
  rw [read_add, h, padTo_eq_append hl.le]
  have hrep : List.replicate (n - l.length) (0 : UInt8) = 0 :: List.replicate k 0 := by
    rw [show n - l.length = k + 1 by omega]
    rfl
  rw [hrep, List.append_assoc]
  exact takeWhile_append_zero h0 _

/-- **A string is read as it was written if and only if it holds no zero and one stands behind
it.** -/
theorem cString_eq_iff {m : ℕ → UInt8} {a limit : ℕ} {l : List UInt8}
    (h : read m a l.length = l) (hl : l.length < limit) :
    cString m a limit = l ↔ 0 ∉ l ∧ m (a + l.length) = 0 := by
  obtain ⟨k, rfl⟩ := Nat.exists_eq_add_of_lt hl
  have hread : read m a (l.length + k + 1) =
      l ++ m (a + l.length) :: read m (a + l.length + 1) k := by
    have hsplit : l.length + k + 1 = l.length + (1 + k) := by omega
    rw [hsplit, read_add, h, read_add]
    rfl
  unfold cString
  rw [hread]
  constructor
  · intro hstr
    have hall : l.all (· != 0) = true := by
      rw [← hstr]
      exact List.all_takeWhile
    have hpos : ∀ b ∈ l, (b != 0) = true := List.all_eq_true.1 hall
    refine ⟨fun hmem => bne_iff_ne.1 (hpos 0 hmem) rfl, ?_⟩
    rw [List.takeWhile_append_of_pos hpos, List.takeWhile_cons] at hstr
    by_contra hne
    rw [if_pos (bne_iff_ne.2 hne)] at hstr
    have hlen := congrArg List.length hstr
    rw [List.length_append, List.length_cons] at hlen
    omega
  · rintro ⟨h0, hz⟩
    rw [hz]
    exact takeWhile_append_zero h0 _

/-- A string ends at a zero, if not before. -/
theorem length_cString_le {m : ℕ → UInt8} {a limit k : ℕ} (h : m (a + k) = 0) :
    (cString m a limit).length ≤ k := by
  by_contra hlt
  have hpre : cString m a limit <+: read m a limit := List.takeWhile_prefix _
  have hget := hpre.getElem (Nat.lt_of_not_le hlt)
  rw [getElem_read, h] at hget
  have hmem : (0 : UInt8) ∈ cString m a limit := hget ▸ List.getElem_mem _
  exact absurd (List.mem_takeWhile_imp hmem) (by decide)

/-! ### Layouts -/

variable {F : Type*} [DecidableEq F]

/-- Where a field starts in a record that lists its fields in order. -/
def offset (size : F → ℕ) : List F → F → ℕ
  | [], _ => 0
  | g :: l, f => if g = f then 0 else size g + offset size l f

/-- **The fields of a layout do not overlap.** -/
theorem offset_disjoint (size : F → ℕ) {l : List F} {f g : F} (hf : f ∈ l) (hg : g ∈ l)
    (hne : f ≠ g) : offset size l f + size f ≤ offset size l g ∨
      offset size l g + size g ≤ offset size l f := by
  induction l with
  | nil => cases hf
  | cons e l ih =>
      unfold offset
      by_cases hef : e = f
      · subst hef
        rw [if_pos rfl, if_neg hne]
        left
        omega
      · by_cases heg : e = g
        · subst heg
          rw [if_pos rfl, if_neg hef]
          right
          omega
        · rw [if_neg hef, if_neg heg]
          have hf' := (List.mem_cons.1 hf).resolve_left (Ne.symm hef)
          have hg' := (List.mem_cons.1 hg).resolve_left (Ne.symm heg)
          rcases ih hf' hg' with h | h
          · left
            omega
          · right
            omega

end Mem
