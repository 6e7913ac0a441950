/-
**Files made of segments.**

A file is a list of bytes.  A program that builds an image writes a beginning and then one segment
after the other: it sets the length of the file to the offset of the segment, which fills the gap
with zeros, and appends the segment.  When the offsets leave room for everything before them, the
beginning and every segment stay where they were put, and the gaps hold zeros.

The module also has the checksum such images carry.

Main definitions:

* `Image.slice` — a part of a file;
* `Image.place` — writing the segments;
* `Image.Ordered` — the offsets leave room for what is before them;
* `Image.crc32` — the checksum.

Main results:

* `Image.prefix_place`, `Image.slice_place` — **the beginning and the segments are in the file**;
* `Image.getElem?_place_gap`, `Image.length_place_le` — what is between and behind them;
* `Image.crc32_append` — the checksum of two parts, one after the other.
-/

import PseFw.Lib.Memory
import Mathlib.Data.List.Infix

set_option relaxedAutoImplicit false
set_option autoImplicit false

namespace Image

/-! ### Parts of a file -/

/-- The `n` bytes from `a` on. -/
def slice (l : List UInt8) (a n : ℕ) : List UInt8 := (l.drop a).take n

theorem getElem?_slice (l : List UInt8) (a n i : ℕ) :
    (slice l a n)[i]? = if i < n then l[a + i]? else none := by
  unfold slice
  rw [List.getElem?_take, List.getElem?_drop]

theorem length_slice (l : List UInt8) (a n : ℕ) : (slice l a n).length = min n (l.length - a) := by
  unfold slice
  rw [List.length_take, List.length_drop]

theorem slice_append_left {l l' : List UInt8} {a n : ℕ} (h : a + n ≤ l.length) :
    slice (l ++ l') a n = slice l a n := by
  unfold slice
  rw [List.drop_append_of_le_length (by omega),
    List.take_append_of_le_length (by rw [List.length_drop]; omega)]

theorem slice_append_right (l l' : List UInt8) {a n : ℕ} (h : l.length ≤ a) :
    slice (l ++ l') a n = slice l' (a - l.length) n := by
  unfold slice
  rw [List.drop_append, List.drop_eq_nil_of_le h, List.nil_append]

/-- The middle one of three parts. -/
theorem slice_middle (l m r : List UInt8) : slice (l ++ m ++ r) l.length m.length = m := by
  unfold slice
  rw [List.append_assoc, List.drop_left, List.take_left]

/-- A part of a part. -/
theorem slice_slice {l : List UInt8} {a n b k : ℕ} (h : b + k ≤ n) :
    slice (slice l a n) b k = slice l (a + b) k := by
  unfold slice
  rw [List.drop_take, List.take_take, List.drop_drop, Nat.min_eq_left (by omega)]

/-- Two parts, one behind the other. -/
theorem slice_add (l : List UInt8) (a n k : ℕ) :
    slice l a (n + k) = slice l a n ++ slice l (a + n) k := by
  unfold slice
  rw [List.take_add, List.drop_drop]

/-- A part that lies in the beginning of a file. -/
theorem slice_of_isPrefix {l l' : List UInt8} (hp : l <+: l') {a n : ℕ} (h : a + n ≤ l.length) :
    slice l' a n = slice l a n := by
  obtain ⟨r, rfl⟩ := hp
  exact slice_append_left h

/-- One of several pieces of the same length. -/
theorem slice_flatten {ls : List (List UInt8)} {n k : ℕ} {x : List UInt8}
    (hlen : ∀ l ∈ ls, l.length = n) (h : ls[k]? = some x) : slice ls.flatten (n * k) n = x := by
  induction ls generalizing k with
  | nil => cases h
  | cons l ls ih =>
      have hl := hlen l List.mem_cons_self
      rw [List.flatten_cons]
      cases k with
      | zero =>
          rw [List.getElem?_cons_zero] at h
          have hmid := slice_middle [] l ls.flatten
          rw [List.nil_append, hl] at hmid
          exact hmid.trans (Option.some.inj h)
      | succ k =>
          rw [slice_append_right _ _ (by rw [hl]; exact Nat.le_mul_of_pos_right n (Nat.succ_pos k)),
            hl, Nat.mul_succ, Nat.add_sub_cancel]
          exact ih (fun l' hl' => hlen l' (List.mem_cons_of_mem _ hl')) h

/-! ### Segments -/

/-- The offsets leave room for what is before them. -/
def Ordered : ℕ → List (ℕ × List UInt8) → Prop
  | _, [] => True
  | n, s :: segs => n ≤ s.1 ∧ Ordered (s.1 + s.2.length) segs

/-- Writing the segments. -/
def place (image : List UInt8) (segs : List (ℕ × List UInt8)) : List UInt8 :=
  segs.foldl (fun image s => Mem.padTo s.1 image ++ s.2) image

variable {image : List UInt8} {segs : List (ℕ × List UInt8)} {s : ℕ × List UInt8} {n p : ℕ}

theorem Ordered.mono {n' : ℕ} (h : Ordered n segs) (hn : n' ≤ n) : Ordered n' segs := by
  cases segs with
  | nil => trivial
  | cons s segs => exact ⟨hn.trans h.1, h.2⟩

/-- Leaving segments out leaves more room. -/
theorem Ordered.sublist {segs' : List (ℕ × List UInt8)} (h : Ordered n segs)
    (hsub : segs'.Sublist segs) : Ordered n segs' := by
  induction hsub generalizing n with
  | slnil => trivial
  | cons s _ ih => exact (ih h.2).mono (h.1.trans (Nat.le_add_right _ _))
  | cons_cons s _ ih => exact ⟨h.1, ih h.2⟩

theorem Ordered.le (h : Ordered n segs) (hs : s ∈ segs) : n ≤ s.1 := by
  induction segs generalizing n with
  | nil => cases hs
  | cons t segs ih =>
      rcases List.mem_cons.1 hs with rfl | hs
      · exact h.1
      · have hle := ih h.2 hs
        have := h.1
        omega

/-- **Two segments of an ordered list do not overlap.** -/
theorem Ordered.disjoint (h : Ordered n segs) {i j : ℕ} (hij : i < j) {t : ℕ × List UInt8}
    (hs : segs[i]? = some s) (ht : segs[j]? = some t) : s.1 + s.2.length ≤ t.1 := by
  induction segs generalizing n i j with
  | nil => cases hs
  | cons u segs ih =>
      obtain ⟨k, rfl⟩ : ∃ k, j = k + 1 := ⟨j - 1, by omega⟩
      rw [List.getElem?_cons_succ] at ht
      cases i with
      | zero =>
          rw [List.getElem?_cons_zero] at hs
          cases hs
          exact h.2.le (List.mem_of_getElem? ht)
      | succ i =>
          rw [List.getElem?_cons_succ] at hs
          exact ih h.2 (by omega) hs ht

theorem length_pad_append (image : List UInt8) (s : ℕ × List UInt8) :
    (Mem.padTo s.1 image ++ s.2).length = s.1 + s.2.length := by
  rw [List.length_append, Mem.length_padTo]

theorem prefix_pad (h : image.length ≤ n) : image <+: Mem.padTo n image := by
  rw [Mem.padTo_eq_append h]
  exact List.prefix_append _ _

/-- **The beginning stays where it is.** -/
theorem prefix_place (h : Ordered image.length segs) : image <+: place image segs := by
  induction segs generalizing image with
  | nil => exact List.prefix_refl image
  | cons s segs ih =>
      refine ((prefix_pad h.1).trans (List.prefix_append _ s.2)).trans (ih ?_)
      rw [length_pad_append]
      exact h.2

/-- **Every segment is where it was put.** -/
theorem slice_place (h : Ordered image.length segs) (hs : s ∈ segs) :
    slice (place image segs) s.1 s.2.length = s.2 := by
  induction segs generalizing image with
  | nil => cases hs
  | cons t segs ih =>
      have hrest : Ordered (Mem.padTo t.1 image ++ t.2).length segs := by
        rw [length_pad_append]
        exact h.2
      rcases List.mem_cons.1 hs with rfl | hs
      · refine (slice_of_isPrefix (prefix_place hrest) ?_).trans ?_
        · rw [length_pad_append]
        · have hmid := slice_middle (Mem.padTo s.1 image) s.2 []
          rw [List.append_nil, Mem.length_padTo] at hmid
          exact hmid
      · exact ih hrest hs

/-- A place before a later segment and in none of them holds a zero. -/
theorem getElem?_place_gap (h : Ordered image.length segs) (hp : image.length ≤ p)
    (hout : ∀ s ∈ segs, ¬ (s.1 ≤ p ∧ p < s.1 + s.2.length)) (hs : s ∈ segs) (hlt : p < s.1) :
    (place image segs)[p]? = some 0 := by
  induction segs generalizing image with
  | nil => cases hs
  | cons t segs ih =>
      have hlen := length_pad_append image t
      have hrest : Ordered (Mem.padTo t.1 image ++ t.2).length segs := by
        rw [hlen]
        exact h.2
      by_cases hpt : p < t.1
      · -- the gap before the first segment
        obtain ⟨r, hr⟩ := prefix_place hrest
        have hbound : p < (Mem.padTo t.1 image).length := by
          rw [Mem.length_padTo]
          exact hpt
        have hget : (Mem.padTo t.1 image)[p]? = some 0 := by
          rw [Mem.padTo_eq_append h.1, List.getElem?_append_right hp, List.getElem?_replicate,
            if_pos (by omega)]
        show (place (Mem.padTo t.1 image ++ t.2) segs)[p]? = some 0
        rw [← hr, List.append_assoc, List.getElem?_append_left hbound, hget]
      · have hge : t.1 + t.2.length ≤ p := by
          have := hout t List.mem_cons_self
          omega
        rcases List.mem_cons.1 hs with rfl | hs
        · exact absurd hlt hpt
        · refine ih hrest ?_ (fun u hu => hout u (List.mem_cons_of_mem _ hu)) hs
          rw [hlen]
          exact hge

/-- The file ends with its last segment. -/
theorem length_place_le (h : Ordered image.length segs) (hp : image.length ≤ p)
    (hs : ∀ s ∈ segs, s.1 + s.2.length ≤ p) : (place image segs).length ≤ p := by
  induction segs generalizing image with
  | nil => exact hp
  | cons t segs ih =>
      have hlen := length_pad_append image t
      refine ih ?_ ?_ fun u hu => hs u (List.mem_cons_of_mem _ hu)
      · rw [hlen]
        exact h.2
      · rw [hlen]
        exact hs t List.mem_cons_self

/-! ### The checksum -/

/-- One bit. -/
def crcShift (c : BitVec 32) : BitVec 32 :=
  if c.getLsbD 0 then (c >>> 1) ^^^ 0xEDB88320#32 else c >>> 1

/-- One byte. -/
def crcByte (c : BitVec 32) (b : UInt8) : BitVec 32 :=
  crcShift^[8] (c ^^^ b.toBitVec.setWidth 32)

/-- `binascii.crc32`: the checksum of data that continue others with the checksum `value`. -/
def crc32 (data : List UInt8) (value : BitVec 32) : BitVec 32 := ~~~(data.foldl crcByte (~~~value))

/-- **The checksum of two parts** is computed one after the other. -/
theorem crc32_append (l l' : List UInt8) (value : BitVec 32) :
    crc32 (l ++ l') value = crc32 l' (crc32 l value) := by
  unfold crc32
  rw [List.foldl_append, BitVec.not_not]

example : crc32 [49, 50, 51, 52, 53, 54, 55, 56, 57] 0 = 0xCBF43926#32 := by decide +kernel

end Image
