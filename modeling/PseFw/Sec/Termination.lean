/-
**When the parser of a request ends.**

The loop of `sec_hc_process_cmd_data` is advanced by the length field of each header, which counts
the header of four bytes.  If every length is at least four, the loop ends after a quarter of the
length of the request.  But nothing checks this: `sec_hc_process_cmd_data_once` refuses a shorter
length with an error that the loop overwrites.  With a length of zero the loop stays where it is,
for ever; with lengths of one to three it gets on too slowly, unless longer ones make up for it.

Rounds are counted here one by one, without a bound on their number; the loop of
`PseFw.Sec.Request` is shown to make exactly these rounds.

Main definitions:

* `Cursor`, `loopRound`, `EndsAfter` — a round of the loop, and the number of rounds it makes;
* `walked` — the lengths of the first headers, added up.

Main results:

* `endsAfter_iff_processCmdData` — the loop of `secHcProcessCmdData` makes these rounds;
* `endsAfter_enter` — the number of rounds, by the lengths of the headers;
* `endsInTime_iff` — **when the loop ends in time**;
* `le_walked_of_whole`, `not_le_walked_of_zero` — with whole headers it does, and with one of length
  zero it does not.
-/

import PseFw.Sec.Parsing

set_option relaxedAutoImplicit false
set_option autoImplicit false

namespace PseFw.Sec

open Mem

/-! ### Rounds -/

/-- The local variables of `sec_hc_process_cmd_data`, with the state of the client. -/
structure Cursor where
  hdr : ℕ
  len : ℤ
  result : Status
  s : SecState

/-- At the loop: the TLVs stand behind the command header. -/
def Cursor.enter (reqLen : ℤ) (s : SecState) : Cursor where
  hdr := hdrSize
  len := reqLen
  result := .success
  s := s

/-- The body of the loop. -/
def loopRound (env : Env) (rx : ℕ → UInt8) (c : Cursor) : Cursor where
  hdr := c.hdr + hdrLength rx c.hdr
  len := c.len - hdrLength rx c.hdr
  result := (secHcProcessCmdDataOnce env rx c.hdr c.s).1.status
  s := (secHcProcessCmdDataOnce env rx c.hdr c.s).2

/-- **The loop ends after so many rounds.** -/
def EndsAfter (env : Env) (rx : ℕ → UInt8) : ℕ → Cursor → Prop
  | 0, c => c.len ≤ 0
  | k + 1, c => 0 < c.len ∧ EndsAfter env rx k (loopRound env rx c)

/-- **What is expected**: the loop ends, after a quarter of the length of the request, and one
round more. -/
def EndsInTime (env : Env) (rx : ℕ → UInt8) (reqLen : ℤ) (s : SecState) : Prop :=
  ∃ k, EndsAfter env rx k (Cursor.enter reqLen s) ∧ k ≤ reqLen.toNat / 4 + 1

section rounds

variable {env : Env} {rx : ℕ → UInt8}

/-- At a header of length zero the loop stays for ever. -/
theorem not_endsAfter_of_zero {c : Cursor} (h0 : hdrLength rx c.hdr = 0) (hlen : 0 < c.len)
    (k : ℕ) : ¬ EndsAfter env rx k c := by
  induction k generalizing c with
  | zero =>
      intro h
      exact absurd hlen (not_lt.2 h)
  | succ k ih =>
      have hhdr : (loopRound env rx c).hdr = c.hdr := by
        show c.hdr + hdrLength rx c.hdr = c.hdr
        rw [h0, Nat.add_zero]
      have hlen' : (loopRound env rx c).len = c.len := by
        show c.len - (hdrLength rx c.hdr : ℤ) = c.len
        rw [h0, Nat.cast_zero, sub_zero]
      exact fun h => ih (by rw [hhdr, h0]) (by rwa [hlen']) h.2

end rounds

/-! ### The number of rounds -/

/-- **The lengths of the first headers, added up**; each header stands where the lengths before it
lead to. -/
def walked (rx : ℕ → UInt8) : ℕ → ℕ
  | 0 => 0
  | k + 1 => walked rx k + hdrLength rx (hdrSize + walked rx k)

section walk

variable {env : Env} {rx : ℕ → UInt8}

theorem walked_mono (rx : ℕ → UInt8) : Monotone (walked rx) :=
  monotone_nat_of_le_succ fun k => Nat.le_add_right (walked rx k) _

/-- **The number of rounds, by the lengths of the headers.** -/
theorem endsAfter_enter (reqLen : ℤ) (s : SecState) (k : ℕ) :
    EndsAfter env rx k (Cursor.enter reqLen s) ↔
      reqLen ≤ walked rx k ∧ ∀ j < k, (walked rx j : ℤ) < reqLen := by
  -- the same from the `i`-th header on
  have hfrom : ∀ (i : ℕ) (c : Cursor), c.hdr = hdrSize + walked rx i →
      c.len = reqLen - walked rx i → (EndsAfter env rx k c ↔
        reqLen ≤ walked rx (i + k) ∧ ∀ j < k, (walked rx (i + j) : ℤ) < reqLen) := by
    induction k with
    | zero =>
        intro i c _ hlen
        show c.len ≤ 0 ↔ _
        rw [hlen, sub_nonpos]
        exact (and_iff_left fun j hj => absurd hj (Nat.not_lt_zero j)).symm
    | succ k ih =>
        intro i c hhdr hlen
        have hround := ih (i + 1) (loopRound env rx c)
          (by
            show c.hdr + hdrLength rx c.hdr = _
            rw [hhdr, walked, Nat.add_assoc])
          (by
            show c.len - (hdrLength rx c.hdr : ℤ) = _
            rw [hhdr, hlen, walked, Nat.cast_add, sub_sub])
        show 0 < c.len ∧ _ ↔ _
        rw [hround, hlen, sub_pos]
        have hshift : ∀ j, i + 1 + j = i + (j + 1) := fun j => by omega
        simp only [hshift]
        constructor
        · rintro ⟨h0, hend, hj⟩
          refine ⟨hend, fun j hlt => ?_⟩
          cases j with
          | zero => exact h0
          | succ j => exact hj j (by omega)
        · rintro ⟨hend, hj⟩
          exact ⟨hj 0 (Nat.succ_pos k), hend, fun j hlt => hj (j + 1) (by omega)⟩
  have h := hfrom 0 (Cursor.enter reqLen s) rfl (by
    show reqLen = reqLen - ((0 : ℕ) : ℤ)
    rw [Nat.cast_zero, sub_zero])
  simpa only [Nat.zero_add] using h

/-- **When the loop ends in time**: the lengths of the first headers, a quarter of the length of the
request and one more, add up to at least that length. -/
theorem endsInTime_iff (env : Env) (rx : ℕ → UInt8) (reqLen : ℤ) (s : SecState) :
    EndsInTime env rx reqLen s ↔ reqLen ≤ walked rx (reqLen.toNat / 4 + 1) := by
  constructor
  · rintro ⟨k, hk, hle⟩
    exact ((endsAfter_enter reqLen s k).1 hk).1.trans (by exact_mod_cast walked_mono rx hle)
  · intro h
    have hex : ∃ k, reqLen ≤ walked rx k := ⟨_, h⟩
    classical
    refine ⟨Nat.find hex, ?_, Nat.find_min' hex h⟩
    exact (endsAfter_enter reqLen s _).2
      ⟨Nat.find_spec hex, fun j hj => not_le.1 (Nat.find_min hex hj)⟩

/-- Whole headers lead to the end in time. -/
theorem le_walked_of_whole {reqLen : ℤ}
    (h : ∀ k, (walked rx k : ℤ) < reqLen → hdrSize ≤ hdrLength rx (hdrSize + walked rx k)) :
    reqLen ≤ walked rx (reqLen.toNat / 4 + 1) := by
  -- up to the end, every header adds its own size at least
  have hstep : ∀ k, reqLen ≤ walked rx k ∨ hdrSize * k ≤ walked rx k := by
    intro k
    induction k with
    | zero => exact Or.inr (Nat.zero_le _)
    | succ k ih =>
        rcases ih with ih | ih
        · exact Or.inl (ih.trans (by exact_mod_cast walked_mono rx (Nat.le_succ k)))
        · rcases lt_or_ge (walked rx k : ℤ) reqLen with hlt | hge
          · have hwhole := h k hlt
            refine Or.inr ?_
            rw [walked, Nat.mul_succ]
            omega
          · exact Or.inl (hge.trans (by exact_mod_cast walked_mono rx (Nat.le_succ k)))
  rcases hstep (reqLen.toNat / 4 + 1) with hend | hend
  · exact hend
  · simp only [hdrSize] at hend
    omega

/-- A header of length zero, before the end, keeps the loop from the end. -/
theorem not_le_walked_of_zero {reqLen : ℤ} {i : ℕ} (hi : (walked rx i : ℤ) < reqLen)
    (h0 : hdrLength rx (hdrSize + walked rx i) = 0) (k : ℕ) : ¬ reqLen ≤ walked rx k := by
  have hstay : ∀ d, walked rx (i + d) = walked rx i := by
    intro d
    induction d with
    | zero => rfl
    | succ d ih => rw [← Nat.add_assoc, walked, ih, h0, Nat.add_zero]
  have hle : walked rx k ≤ walked rx i := by
    rw [← hstay k]
    exact walked_mono rx (Nat.le_add_left k i)
  omega

end walk

/-! ### Requests that are not parsed in time -/

/-- A request of eight bytes, with a TLV of zeros. -/
def zeroTlv : ℕ → UInt8 := fun i => if i = 1 then 0x80 else 0

/-- TLVs whose lengths are two. -/
def shortTlvs : ℕ → UInt8 := fun i => if i % 2 = 1 then 2 else 0

/-- The loop never gets past a TLV of zeros; with TLVs of two bytes it makes four rounds for eight
bytes. -/
theorem not_endsInTime_zeroTlv :
    (cmdHdr zeroTlv).length - hdrSize = 4 ∧
      (¬ ∃ k, EndsAfter plainEnv zeroTlv k (Cursor.enter 4 (freshState plainCrypto))) ∧
      ¬ EndsInTime plainEnv zeroTlv 4 (freshState plainCrypto) ∧
      EndsAfter plainEnv shortTlvs 4 (Cursor.enter 8 (freshState plainCrypto)) ∧
      ¬ EndsInTime plainEnv shortTlvs 8 (freshState plainCrypto) := by
  have hzero : ¬ ∃ k, EndsAfter plainEnv zeroTlv k (Cursor.enter 4 (freshState plainCrypto)) := by
    rintro ⟨k, hk⟩
    exact not_endsAfter_of_zero (c := Cursor.enter 4 (freshState plainCrypto))
      (by decide +kernel) (by decide) k hk
  have hlen : (cmdHdr zeroTlv).length - hdrSize = 4 := by decide +kernel
  refine ⟨hlen, hzero, ?_, ?_, ?_⟩
  · rintro ⟨k, hk, -⟩
    exact hzero ⟨k, hk⟩
  · rw [endsAfter_enter]
    decide +kernel
  · rintro ⟨k, hk, hle⟩
    have hend : (8 : ℤ) ≤ walked shortTlvs k := ((endsAfter_enter 8 _ k).1 hk).1
    have hmono : walked shortTlvs k ≤ walked shortTlvs 3 := walked_mono shortTlvs hle
    have hthree : walked shortTlvs 3 = 6 := by decide +kernel
    omega

end PseFw.Sec
