/-
**The length check on descriptors in memory.**

The descriptors of a message are linked by pointers, and nothing keeps a caller from linking them in
a circle.  `cal_send_msg_len` follows the pointers and adds up 32-bit lengths in a 32-bit number.

It comes to an end all the same: every descriptor it passes adds at least one byte, and more than
4096 bytes are refused.  And the sum is the true one: a length of more than 4096 is refused too, so
the sum of two numbers of at most 4096 cannot wrap around.

Main definitions:

* `PseFw.Heci.MrdCell` — a descriptor in memory;
* `PseFw.Heci.sumMrdCells`, `PseFw.Heci.calSendMsgLenCells` — the check;
* `PseFw.Heci.Sendable` — the chains that are to pass.

Main results:

* `PseFw.Heci.sumMrdCells_spec` — the loop, from any descriptor on;
* `PseFw.Heci.calSendMsgLen_checks` — **the check ends and is exact**;
* `PseFw.Heci.sumMrdCells_eq_sumMrdLen` — on a chain that ends, it is the check on lists.
-/

import PseFw.Lib.LinkedQueue
import PseFw.Heci.Delivery

set_option relaxedAutoImplicit false
set_option autoImplicit false

namespace PseFw.Heci

open LinkedQueue (Seg)

variable {N : Type*}

/-! ### Descriptors in memory -/

/-- `mrd_t`, with its pointers. -/
structure MrdCell (N : Type*) where
  next : Option N
  len : UInt32
  buf : Option UInt32

/-- The loop of `cal_send_msg_len` with the descriptors in memory, as far as the fuel goes. -/
def sumMrdCells (cells : N → MrdCell N) (maxSize : ℕ) : ℕ → Option N → UInt32 → Option ℤ
  | 0, _, _ => none
  | _ + 1, none, totalLen => some totalLen.toBitVec.toInt
  | fuel + 1, some m, totalLen =>
      if (cells m).len = 0 ∨ (cells m).buf.isNone then some (-1)
      else
        let totalLen := totalLen + (cells m).len
        if totalLen.toNat > maxSize ∨ totalLen.toNat > heciMaxMsgSize ∨
            (cells m).len.toNat > heciMaxMsgSize then some (-1)
        else sumMrdCells cells maxSize fuel (cells m).next totalLen

/-- `cal_send_msg_len` with the descriptors in memory. -/
def calSendMsgLenCells (cells : N → MrdCell N) (fuel : ℕ) (connId : ConnId) (msg : N)
    (s : HeciDev) : Option ℤ :=
  let conn := s.connections connId
  if conn.has connStateOpen = false then some (-1)
  else
    match conn.client with
    | none => none
    | some i => sumMrdCells cells (s.clients i).properties.maxMsgSize fuel (some msg) 0

/-! ### What is wanted -/

/-- The exact sum of the lengths. -/
def lenSum (cells : N → MrdCell N) (l : List N) : ℕ := (l.map fun m => (cells m).len.toNat).sum

/-- **A chain that is to pass**: it ends, all its descriptors describe something, and together with
the bytes before them they are not too many. -/
structure Sendable (cells : N → MrdCell N) (maxSize : ℕ) (m : Option N) (before : ℕ)
    (l : List N) : Prop where
  chain : Seg (fun m => (cells m).next) m l none
  valid : ∀ m ∈ l, (cells m).len ≠ 0 ∧ (cells m).buf.isSome = true
  small : before + lenSum cells l ≤ min maxSize heciMaxMsgSize

/-- **The result of a check is the right one**: it is not negative exactly when the chain is to
pass, and is the sum of the lengths then. -/
structure Checks (cells : N → MrdCell N) (maxSize : ℕ) (m : Option N) (before : ℕ)
    (r : ℤ) : Prop where
  passes : 0 ≤ r ↔ ∃ l, Sendable cells maxSize m before l
  exact : ∀ l, Sendable cells maxSize m before l → r = before + lenSum cells l

variable {cells : N → MrdCell N} {maxSize : ℕ}

/-! ### One descriptor -/

theorem lenSum_cons (cells : N → MrdCell N) (m : N) (l : List N) :
    lenSum cells (m :: l) = (cells m).len.toNat + lenSum cells l := by
  simp [lenSum]

/-- A chain that begins with a descriptor. -/
theorem sendable_some_iff {m : N} {before : ℕ} {l : List N} :
    Sendable cells maxSize (some m) before l ↔
      ∃ l', l = m :: l' ∧ ((cells m).len ≠ 0 ∧ (cells m).buf.isSome = true) ∧
        Sendable cells maxSize (cells m).next (before + (cells m).len.toNat) l' := by
  constructor
  · rintro ⟨hchain, hvalid, hsmall⟩
    cases hchain with
    | @cons _ l' _ hchain =>
        rw [lenSum_cons] at hsmall
        refine ⟨l', rfl, hvalid m List.mem_cons_self, hchain, fun n hn => ?_, by omega⟩
        exact hvalid n (List.mem_cons_of_mem _ hn)
  · rintro ⟨l', rfl, hm, hchain, hvalid, hsmall⟩
    refine ⟨.cons hchain, fun n hn => ?_, by rw [lenSum_cons]; omega⟩
    rcases List.mem_cons.1 hn with rfl | hn
    · exact hm
    · exact hvalid n hn

/-- The chain without descriptors. -/
theorem sendable_none_iff {before : ℕ} {l : List N} :
    Sendable cells maxSize none before l ↔ l = [] ∧ before ≤ min maxSize heciMaxMsgSize := by
  constructor
  · rintro ⟨hchain, -, hsmall⟩
    cases hchain
    exact ⟨rfl, hsmall⟩
  · rintro ⟨rfl, hsmall⟩
    exact ⟨.nil none, fun m hm => by simp at hm, hsmall⟩

/-- A refusal is right when no chain is to pass. -/
theorem checks_refused {m : Option N} {before : ℕ}
    (h : ∀ l, ¬ Sendable cells maxSize m before l) : Checks cells maxSize m before (-1) := by
  constructor
  · exact ⟨fun hr => by omega, fun ⟨l, hl⟩ => absurd hl (h l)⟩
  · exact fun l hl => absurd hl (h l)

/-- The result for the rest of a chain is the result for the chain. -/
theorem Checks.cons {m : N} {before : ℕ} {r : ℤ}
    (hm : (cells m).len ≠ 0 ∧ (cells m).buf.isSome = true)
    (h : Checks cells maxSize (cells m).next (before + (cells m).len.toNat) r) :
    Checks cells maxSize (some m) before r := by
  constructor
  · rw [h.passes]
    constructor
    · rintro ⟨l, hl⟩
      exact ⟨m :: l, sendable_some_iff.2 ⟨l, rfl, hm, hl⟩⟩
    · rintro ⟨l, hl⟩
      obtain ⟨l', -, -, hl'⟩ := sendable_some_iff.1 hl
      exact ⟨l', hl'⟩
  · intro l hl
    obtain ⟨l', rfl, -, hl'⟩ := sendable_some_iff.1 hl
    rw [h.exact l' hl', lenSum_cons]
    push_cast
    omega

/-! ### The loop -/

/-- **The loop ends, and its result is right.**  The fuel and the bytes that are counted together
exceed the limit, and every turn moves one from the fuel to the bytes. -/
theorem sumMrdCells_spec (cells : N → MrdCell N) (maxSize fuel : ℕ) (m : Option N)
    (totalLen : UInt32) (hlen : totalLen.toNat ≤ min maxSize heciMaxMsgSize)
    (hfuel : heciMaxMsgSize < fuel + totalLen.toNat) :
    ∃ r, sumMrdCells cells maxSize fuel m totalLen = some r ∧
      Checks cells maxSize m totalLen.toNat r := by
  induction fuel generalizing m totalLen with
  | zero => omega
  | succ fuel ih =>
      cases m with
      | none =>
          have hint : totalLen.toBitVec.toInt = totalLen.toNat := by
            refine BitVec.toInt_eq_toNat_of_lt ?_
            rw [UInt32.toNat_toBitVec]
            simp only [heciMaxMsgSize] at hlen
            omega
          refine ⟨_, rfl, ?_, fun l hl => ?_⟩
          · rw [hint]
            exact ⟨fun _ => ⟨[], sendable_none_iff.2 ⟨rfl, hlen⟩⟩, fun _ => by omega⟩
          · obtain ⟨rfl, -⟩ := sendable_none_iff.1 hl
            rw [hint]
            simp [lenSum]
      | some m =>
          rw [sumMrdCells]
          by_cases hbad : (cells m).len = 0 ∨ (cells m).buf.isNone
          · rw [if_pos hbad]
            refine ⟨-1, rfl, checks_refused fun l hl => ?_⟩
            obtain ⟨-, -, ⟨hne, hbuf⟩, -⟩ := sendable_some_iff.1 hl
            rcases hbad with h | h
            · exact hne h
            · rw [Option.isNone_iff_eq_none.1 h] at hbuf
              cases hbuf
          rw [if_neg hbad]
          dsimp only
          have hadd := UInt32.toNat_add totalLen (cells m).len
          have hmlt := (cells m).len.toNat_lt
          simp only [heciMaxMsgSize] at hlen hfuel ⊢
          by_cases hbig : (totalLen + (cells m).len).toNat > maxSize ∨
              (totalLen + (cells m).len).toNat > 4096 ∨ (cells m).len.toNat > 4096
          · rw [if_pos hbig]
            refine ⟨-1, rfl, checks_refused fun l hl => ?_⟩
            obtain ⟨l', -, -, hl'⟩ := sendable_some_iff.1 hl
            have hsmall := hl'.small
            simp only [heciMaxMsgSize] at hsmall
            omega
          · rw [if_neg hbig]
            -- both numbers are at most 4096, so nothing wraps around
            have hsum :
                (totalLen + (cells m).len).toNat = totalLen.toNat + (cells m).len.toNat := by
              omega
            have hm : (cells m).len ≠ 0 ∧ (cells m).buf.isSome = true := by
              rw [not_or] at hbad
              exact ⟨hbad.1, Option.isSome_iff_ne_none.2 (by simpa using hbad.2)⟩
            have hpos : (cells m).len.toNat ≠ 0 := fun h =>
              hm.1 (UInt32.toNat_inj.1 (by simpa using h))
            obtain ⟨r, hr, hchecks⟩ := ih (cells m).next (totalLen + (cells m).len)
              (by simp only [heciMaxMsgSize]; omega) (by simp only [heciMaxMsgSize]; omega)
            rw [hsum] at hchecks
            exact ⟨r, hr, hchecks.cons hm⟩

/-! ### The check -/

/-- **The length check ends and is exact**, whatever the descriptors are and however they are
linked: with more fuel than the limit has bytes there is always the same result, and it is not
negative exactly when the connection is open and the chain is to pass. -/
structure LengthCheck (cells : N → MrdCell N) (connId : ConnId) (msg : N) (s : HeciDev)
    (r : ℤ) : Prop where
  ends : ∀ fuel, heciMaxMsgSize < fuel → calSendMsgLenCells cells fuel connId msg s = some r
  passes : 0 ≤ r ↔ (s.connections connId).has connStateOpen = true ∧
    ∃ i ∈ (s.connections connId).client, ∃ l,
      Sendable cells (s.clients i).properties.maxMsgSize (some msg) 0 l
  exact : 0 ≤ r → ∃ l, Seg (fun m => (cells m).next) (some msg) l none ∧ r = lenSum cells l

/-- More fuel does not change the result. -/
theorem sumMrdCells_succ {fuel : ℕ} {m : Option N} {totalLen : UInt32} {r : ℤ}
    (h : sumMrdCells cells maxSize fuel m totalLen = some r) :
    sumMrdCells cells maxSize (fuel + 1) m totalLen = some r := by
  induction fuel generalizing m totalLen with
  | zero => cases h
  | succ fuel ih =>
      cases m with
      | none => exact h
      | some m =>
          rw [sumMrdCells] at h ⊢
          split at h
          · next hbad => rw [if_pos hbad, h]
          · next hbad =>
              rw [if_neg hbad]
              dsimp only at h ⊢
              split at h
              · next hbig => rw [if_pos hbig, h]
              · next hbig =>
                  rw [if_neg hbig]
                  exact ih h

theorem sumMrdCells_le {fuel fuel' : ℕ} {m : Option N} {totalLen : UInt32} {r : ℤ}
    (hle : fuel ≤ fuel') (h : sumMrdCells cells maxSize fuel m totalLen = some r) :
    sumMrdCells cells maxSize fuel' m totalLen = some r := by
  induction hle with
  | refl => exact h
  | step _ ih => exact sumMrdCells_succ ih

/-- **The length check of a reachable device.** -/
theorem calSendMsgLen_checks {P : Platform} {s : HeciDev} (hs : Reachable P s)
    (cells : N → MrdCell N) (connId : ConnId) (msg : N) :
    ∃ r, LengthCheck cells connId msg s r := by
  have hT := tableInv_of_reachable hs
  by_cases hopen : (s.connections connId).has connStateOpen
  · obtain ⟨i, hi, -⟩ := (hT.conns connId).used (hT.used_of_open hopen)
    obtain ⟨r, hr, hchecks⟩ := sumMrdCells_spec cells (s.clients i).properties.maxMsgSize
      (heciMaxMsgSize + 1) (some msg) 0 (Nat.zero_le _) (Nat.lt_succ_self _)
    refine ⟨r, fun fuel hfuel => ?_, ?_, fun hpos => ?_⟩
    · unfold calSendMsgLenCells
      dsimp only
      rw [if_neg (by simp [hopen]), hi]
      exact sumMrdCells_le hfuel hr
    · rw [hi, hchecks.passes]
      constructor
      · rintro ⟨l, hl⟩
        exact ⟨hopen, i, rfl, l, hl⟩
      · rintro ⟨-, j, hj, l, hl⟩
        cases hj
        exact ⟨l, hl⟩
    · obtain ⟨l, hl⟩ := hchecks.passes.1 hpos
      refine ⟨l, hl.chain, ?_⟩
      rw [hchecks.exact l hl]
      simp
  · refine ⟨-1, fun fuel _ => ?_, ?_, fun hneg => by omega⟩
    · unfold calSendMsgLenCells
      rw [if_pos (by simpa using hopen)]
    · exact ⟨fun hneg => by omega, fun h => absurd h.1 hopen⟩

/-- Two descriptors that point to each other. -/
def ringCells : Bool → MrdCell Bool := fun m => ⟨some (!m), 1, some 0x1000⟩

theorem calSendMsgLen_ring :
    ∃ s, Reachable Platform.nominal s ∧ (s.connections 0).state = connStateOpen ∧
      ∃ r, LengthCheck ringCells 0 true s r := by
  obtain ⟨s, hs, hopen⟩ := exists_reachable Platform.nominal
    (connectCalls (plainClient 1 0 4096 1) 7) (fun s => (s.connections 0).state = connStateOpen)
    (by decide +kernel)
  exact ⟨s, hs, hopen, calSendMsgLen_checks hs ringCells 0 true⟩

/-! ### Circles, and chains that end -/

/-- **A circle is refused**: it is no chain that ends. -/
theorem not_sendable_of_circle {m n : N} {before : ℕ} {l l' : List N}
    (h : Seg (fun m => (cells m).next) (some m) (n :: l) (some m)) :
    ¬ Sendable cells maxSize (some m) before l' := by
  rintro ⟨hchain, -, -⟩
  -- going round once more leaves a shorter chain
  induction hk : l'.length using Nat.strong_induction_on generalizing l' with
  | _ k ih =>
      obtain ⟨l₂, rfl, hrest⟩ := h.rest hchain
      exact ih l₂.length (by simp at hk; omega) hrest rfl

/-- **The check on lists** gives the same result on a chain that ends. -/
theorem sumMrdCells_eq_sumMrdLen {m : Option N} {l : List N} {msg : List Mrd}
    (hchain : Seg (fun m => (cells m).next) m l none)
    (hmsg : List.Forall₂ (fun m d => (cells m).len.toNat = d.len ∧
      ((cells m).buf.isNone = d.buf.isNone)) l msg)
    {fuel : ℕ} (hfuel : l.length < fuel) {totalLen : UInt32}
    (hlen : totalLen.toNat ≤ heciMaxMsgSize) :
    sumMrdCells cells maxSize fuel m totalLen = some (sumMrdLen maxSize msg totalLen.toNat) := by
  induction hmsg generalizing m fuel totalLen with
  | nil =>
      obtain rfl := hchain.nil_inv
      cases fuel with
      | zero => simp at hfuel
      | succ fuel =>
          rw [sumMrdCells, sumMrdLen]
          refine congrArg some (BitVec.toInt_eq_toNat_of_lt ?_)
          rw [UInt32.toNat_toBitVec]
          simp only [heciMaxMsgSize] at hlen
          omega
  | @cons n d l msg hd _ ih =>
      obtain ⟨rfl, hrest⟩ := hchain.cons_inv
      cases fuel with
      | zero => simp at hfuel
      | succ fuel =>
          have hbad : ((cells n).len = 0 ∨ (cells n).buf.isNone = true) ↔
              (d.len = 0 ∨ d.buf.isNone = true) := by
            rw [← hd.1, hd.2, ← UInt32.toNat_inj]
            rfl
          have hsum : (totalLen + (cells n).len).toNat = (totalLen.toNat + d.len) % 2 ^ 32 := by
            rw [UInt32.toNat_add, hd.1]
          rw [sumMrdCells, sumMrdLen]
          by_cases hd₀ : d.len = 0 ∨ d.buf.isNone = true
          · rw [if_pos hd₀, if_pos (hbad.2 hd₀)]
          · rw [if_neg hd₀, if_neg (mt hbad.1 hd₀)]
            dsimp only
            rw [hsum, hd.1]
            split
            · rfl
            · next hbig =>
                rw [ih hrest (by simpa using hfuel) (by rw [hsum]; omega), hsum]

end PseFw.Heci
