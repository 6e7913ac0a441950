/-
**The entropy source.**

`mbedtls_hardware_poll` hands random bytes to the cryptographic library.  They come from a hardware
generator (the DRNG), 24 bits with one read over the sideband.  A generator that is stuck gives the
same number again and again, so every number is compared with the one before, across the calls as
well; after a repetition the pass starts over, and the second repetition ends the call.

The attempts are counted from 2 down, and at the label `retry` the count 2 means that the pass went
through.  A pass that goes through after a repetition ends with the count 1, which is neither 2 nor
0.  So the call starts over once more, and again, until a number repeats.  It never succeeds.  And
when a read fails, the function returns at once and leaves `entropy_state` as it was.

The reads are a stream, and the number of attempts is not bounded: the outer loop has fuel.

Main definitions:

* `SidebandRead`, `secIntGetRandNum` — a read of the generator;
* `drngStep`, `byteLoop`, `retryLoop`, `mbedtlsHardwarePoll` — the function, from the inside;
* `passOutcome` — what one pass over the stream comes to;
* `PollOk` — what a call promises.

Main results:

* `drngStep_spec` — what a read does;
* `byteLoop_spec` — **one pass**: it goes through, ends with a repetition, or with a failed read;
* `passOutcome_eq_clean` — when a pass goes through, read by read;
* `not_success_of_attempt_one` — after a repetition the call never succeeds;
* `pollOk_iff` — **when a call keeps its promise**.
-/

import PseFw.Sec.Context

set_option relaxedAutoImplicit false
set_option autoImplicit false

namespace PseFw.Sec

/-! ### A read of the generator -/

/-- How a read over the sideband goes: the results of `sedi_sideband_send` and
`sedi_sideband_wait_ack`, and the value that is read. -/
structure SidebandRead where
  send : ℤ
  waitAck : ℤ
  readVal : UInt32

/-- `SEC_DRNG_EGETDATA24_SIZE_BITS`. -/
def secDrngEgetdata24SizeBits : ℕ := 24

/-- `sec_int_read_iosf_sb`, on the port `SB_DRNG`.  The value is left as the caller had it when the
read fails. -/
def secIntReadIosfSb (r : SidebandRead) (data : UInt32) : Status × UInt32 :=
  if r.send ≠ 0 then (.failed, data)
  else if r.waitAck ≠ 0 then (.failed, data)
  else (.success, r.readVal)

/-- `sec_int_get_rand_num`. -/
def secIntGetRandNum (r : SidebandRead) (data : UInt32) (sizeInBit : ℕ) : Status × UInt32 :=
  if sizeInBit ≠ secDrngEgetdata24SizeBits then (.failed, data)
  else secIntReadIosfSb r data

/-! ### The function -/

/-- `SEC_INT_ENTROPY_T`. -/
structure SecEntropy where
  drngPrev : UInt32
  is1stDrngRd : Bool
  isNot1stHwPoll : Bool
  entropyState : Bool
  deriving DecidableEq

/-- `sec_hc_reset_drng_state`. -/
def secHcResetDrngState (e : SecEntropy) : SecEntropy where
  is1stDrngRd := false
  isNot1stHwPoll := false
  entropyState := false
  drngPrev := e.drngPrev &&& 0x0000

/-- The variables of `mbedtls_hardware_poll`, with the number of reads so far. -/
structure PollVars where
  entropy : SecEntropy
  attempt : ℤ
  hwEntropyBuf : UInt32
  hwEntropyBytePos : ℕ
  output : ℕ → UInt8
  reads : ℕ

/-- `RETRY`. -/
def retry : ℤ := 2

/-- `SEC_BYTE2`. -/
def secByte2 : ℕ := 2

/-- `SEC_BYTE3`. -/
def secByte3 : ℕ := 3

/-- `SEC_BYTE012_SET_MSK`. -/
def secByte012SetMsk : UInt32 := 0x00FFFFFF

/-- Where the control goes after a read: to step F, to the label `retry`, or out of the function
with `SEC_FAILED`. -/
inductive ReadEnd
  | next (s : PollVars)
  | gotoRetry (s : PollVars)
  | failed (s : PollVars)

/-- A number that repeats, in step C and in step E. -/
def drngRepeated (s : PollVars) : ReadEnd :=
  let s := { s with attempt := s.attempt - 1, entropy.is1stDrngRd := false }
  if s.attempt ≤ 0 then .failed { s with entropy.entropyState := false } else .gotoRetry s

/-- Steps B to E. -/
def drngStep (stream : ℕ → SidebandRead) (s : PollVars) : ReadEnd :=
  let q := secIntGetRandNum (stream s.reads) s.hwEntropyBuf secDrngEgetdata24SizeBits
  let s := { s with hwEntropyBytePos := 0, hwEntropyBuf := q.2, reads := s.reads + 1 }
  if q.1 = .failed then .failed s
  else
    let s := { s with hwEntropyBuf := s.hwEntropyBuf &&& secByte012SetMsk }
    -- Step C: the first number of a call against the last number of the call before
    if s.entropy.is1stDrngRd = false ∧ s.entropy.isNot1stHwPoll = true ∧
        s.entropy.drngPrev ^^^ s.hwEntropyBuf = 0 then drngRepeated s
    -- Step D
    else if s.entropy.is1stDrngRd = false then
      .next { s with entropy.drngPrev := s.hwEntropyBuf, entropy.is1stDrngRd := true }
    -- Step E
    else if s.entropy.drngPrev ^^^ s.hwEntropyBuf ≠ 0 then
      .next { s with entropy.drngPrev := s.hwEntropyBuf, entropy.is1stDrngRd := true }
    else drngRepeated s

/-- Step F. -/
def putByte (cnt : ℕ) (s : PollVars) : PollVars :=
  { s with
    output := Function.update s.output cnt s.hwEntropyBuf.toUInt8
    hwEntropyBuf := s.hwEntropyBuf >>> 8
    hwEntropyBytePos := s.hwEntropyBytePos + 1 }

/-- Step A: the loop over the bytes, with the number of bytes that are left.  The result is
`Except.ok` at the label `retry`, and `Except.error` where the function returns `SEC_FAILED`. -/
def byteLoop (stream : ℕ → SidebandRead) : ℕ → ℕ → PollVars → Except PollVars PollVars
  | 0, _, s => .ok s
  | rem + 1, cnt, s =>
      if secByte2 < s.hwEntropyBytePos then
        match drngStep stream s with
        | .failed s => .error s
        | .gotoRetry s => .ok s
        | .next s => byteLoop stream rem (cnt + 1) (putByte cnt s)
      else byteLoop stream rem (cnt + 1) (putByte cnt s)

/-- What a call of `mbedtls_hardware_poll` leaves: `olen` is `none` when nothing is stored in it. -/
structure PollResult where
  ret : Status
  olen : Option ℕ
  output : ℕ → UInt8
  entropy : SecEntropy

/-- The loop over the attempts. -/
def retryLoop (stream : ℕ → SidebandRead) (len : ℕ) : ℕ → PollVars → Option PollResult
  | 0, _ => none
  | fuel + 1, s =>
      match byteLoop stream len 0 { s with hwEntropyBuf := 0, hwEntropyBytePos := secByte3 } with
      | .error s => some ⟨.failed, none, s.output, s.entropy⟩
      | .ok s =>
          let s := if s.attempt = 2 then { s with attempt := 0 } else s
          if 0 < s.attempt then retryLoop stream len fuel s
          else some
            { ret := .success
              olen := some len
              output := s.output
              entropy := { s.entropy with
                entropyState := true, is1stDrngRd := false, isNot1stHwPoll := true } }

/-- `mbedtls_hardware_poll`. -/
def mbedtlsHardwarePoll (stream : ℕ → SidebandRead) (len : ℕ) (e : SecEntropy)
    (output : ℕ → UInt8) (fuel : ℕ) : Option PollResult :=
  retryLoop stream len fuel ⟨e, retry, 0, 0, output, 0⟩

/-! ### What a call promises -/

/-- The number a read delivers. -/
def SidebandRead.drng (r : SidebandRead) : Option UInt32 :=
  if r.send = 0 ∧ r.waitAck = 0 then some (r.readVal &&& secByte012SetMsk) else none

/-- The number the next read is compared with. -/
def SecEntropy.remembered (e : SecEntropy) : Option UInt32 :=
  if e.is1stDrngRd = true ∨ e.isNot1stHwPoll = true then some e.drngPrev else none

/-- What a pass comes to: it goes through, or it ends at a read, with a number that repeats or
with no number. -/
inductive PassOutcome
  | clean
  | repeats (k : ℕ)
  | fails (k : ℕ)
  deriving DecidableEq

/-- A pass of `n` reads from the read `i` on, which remembers a number from before. -/
def passOutcome (stream : ℕ → SidebandRead) : Option UInt32 → ℕ → ℕ → PassOutcome
  | _, _, 0 => .clean
  | prev, i, n + 1 =>
      match (stream i).drng with
      | none => .fails i
      | some v => if prev = some v then .repeats i else passOutcome stream (some v) (i + 1) n

/-- The number of reads for `len` bytes. -/
def readsFor (len : ℕ) : ℕ := (len + 2) / 3

/-- The byte `b` of the numbers from the read `i` on, three bytes from each, low byte first. -/
def splitByte (stream : ℕ → SidebandRead) (i b : ℕ) : UInt8 :=
  (((stream (i + b / 3)).drng.getD 0) >>> (UInt32.ofNat (8 * (b % 3)))).toUInt8

/-- The passes a call may deliver: the first, and the one after a first repetition. -/
inductive IsPass (stream : ℕ → SidebandRead) (len : ℕ) (e : SecEntropy) : Option UInt32 → ℕ → Prop
  | first : IsPass stream len e e.remembered 0
  | second {k : ℕ} : passOutcome stream e.remembered 0 (readsFor len) = .repeats k →
      IsPass stream len e (if e.isNot1stHwPoll then (stream k).drng else none) (k + 1)

/-- **What a call promises.**  It returns.  It succeeds if and only if the first pass, or the one
after a first repetition, goes through, and then it delivers the numbers of such a pass.
Otherwise it returns `SEC_FAILED` with `entropy_state` false. -/
structure PollOk (stream : ℕ → SidebandRead) (len : ℕ) (e : SecEntropy) (output : ℕ → UInt8) :
    Prop where
  returns : ∃ fuel r, mbedtlsHardwarePoll stream len e output fuel = some r
  success_iff : ∀ fuel r, mbedtlsHardwarePoll stream len e output fuel = some r →
    (r.ret = .success ↔
      ∃ prev i, IsPass stream len e prev i ∧ passOutcome stream prev i (readsFor len) = .clean)
  success : ∀ fuel r, mbedtlsHardwarePoll stream len e output fuel = some r → r.ret = .success →
    r.olen = some len ∧ ∃ prev i, IsPass stream len e prev i ∧
      passOutcome stream prev i (readsFor len) = .clean ∧
      ∀ b < len, r.output b = splitByte stream i b
  failed : ∀ fuel r, mbedtlsHardwarePoll stream len e output fuel = some r → r.ret ≠ .success →
    r.ret = .failed ∧ r.entropy.entropyState = false

/-! ### One read -/

theorem getRandNum_eq (r : SidebandRead) (data : UInt32) :
    secIntGetRandNum r data secDrngEgetdata24SizeBits =
      if r.send = 0 ∧ r.waitAck = 0 then (.success, r.readVal) else (.failed, data) := by
  unfold secIntGetRandNum secIntReadIosfSb
  by_cases hs : r.send = 0 <;> by_cases hw : r.waitAck = 0 <;> simp [hs, hw]

/-- **What a read does.**  Steps C and E are one comparison with the number that is remembered. -/
theorem drngStep_spec (stream : ℕ → SidebandRead) (s : PollVars) :
    drngStep stream s =
      match (stream s.reads).drng with
      | none => .failed { s with hwEntropyBytePos := 0, reads := s.reads + 1 }
      | some v =>
          if s.entropy.remembered = some v then
            drngRepeated { s with hwEntropyBytePos := 0, hwEntropyBuf := v, reads := s.reads + 1 }
          else .next { s with
            hwEntropyBytePos := 0
            hwEntropyBuf := v
            reads := s.reads + 1
            entropy.drngPrev := v
            entropy.is1stDrngRd := true } := by
  unfold drngStep SidebandRead.drng
  rw [getRandNum_eq]
  by_cases hr : (stream s.reads).send = 0 ∧ (stream s.reads).waitAck = 0
  · simp only [hr, and_self, if_true, reduceCtorEq, if_false, UInt32.xor_eq_zero_iff, ne_eq]
    cases h1 : s.entropy.is1stDrngRd <;> cases h2 : s.entropy.isNot1stHwPoll <;>
      simp [SecEntropy.remembered, h1, h2]
  · simp only [hr, if_false, if_true]

/-- A number that came just now is remembered. -/
theorem remembered_of_is1st {e : SecEntropy} (h : e.is1stDrngRd = true) :
    e.remembered = some e.drngPrev := if_pos (.inl h)

theorem byteLoop_put {stream : ℕ → SidebandRead} {s : PollVars} (rem cnt : ℕ)
    (h : s.hwEntropyBytePos ≤ secByte2) :
    byteLoop stream (rem + 1) cnt s = byteLoop stream rem (cnt + 1) (putByte cnt s) :=
  if_neg (Nat.not_lt.2 h)

theorem shiftRight_eight (v : UInt32) : v >>> 8 >>> 8 = v >>> 16 := by
  apply UInt32.toNat_inj.1
  rw [UInt32.toNat_shiftRight, UInt32.toNat_shiftRight, UInt32.toNat_shiftRight]
  exact (Nat.shiftRight_add v.toNat 8 8).symm

/-- The bytes of a number go out, three of them or as many as are left. -/
theorem byteLoop_word (stream : ℕ → SidebandRead) (rem cnt : ℕ) (t : PollVars)
    (h : t.hwEntropyBytePos = 0) :
    ∃ t', byteLoop stream rem (cnt + 1) (putByte cnt t) = byteLoop stream (rem - 2) (cnt + 3) t' ∧
      (2 ≤ rem → secByte2 < t'.hwEntropyBytePos) ∧ t'.entropy = t.entropy ∧
      t'.attempt = t.attempt ∧ t'.reads = t.reads ∧ (∀ b < cnt, t'.output b = t.output b) ∧
      ∀ b, b < 3 → b < rem + 1 →
        t'.output (cnt + b) = (t.hwEntropyBuf >>> (UInt32.ofNat (8 * b))).toUInt8 := by
  rcases rem with _ | _ | rem
  · refine ⟨putByte cnt t, rfl, by omega, rfl, rfl, rfl, fun b hb => ?_, fun b _ hb => ?_⟩
    · exact Function.update_of_ne (by omega) _ _
    · obtain rfl : b = 0 := by omega
      simp [putByte]
  · rw [byteLoop_put 0 (cnt + 1) (by simp [putByte, h, secByte2])]
    refine ⟨putByte (cnt + 1) (putByte cnt t), rfl, by omega, rfl, rfl, rfl, fun b hb => ?_,
      fun b _ hb => ?_⟩
    · simp only [putByte]
      rw [Function.update_of_ne (by omega), Function.update_of_ne (by omega)]
    · simp only [putByte]
      obtain rfl | rfl : b = 0 ∨ b = 1 := by omega
      · rw [Function.update_of_ne (by omega)]
        simp
      · simp
  · rw [byteLoop_put (rem + 1) (cnt + 1) (by simp [putByte, h, secByte2]),
      byteLoop_put rem (cnt + 2) (by simp [putByte, h, secByte2])]
    refine ⟨putByte (cnt + 2) (putByte (cnt + 1) (putByte cnt t)), rfl, fun _ => ?_, rfl, rfl, rfl,
      fun b hb => ?_, fun b hb _ => ?_⟩
    · simp [putByte, h, secByte2]
    · simp only [putByte]
      rw [Function.update_of_ne (by omega), Function.update_of_ne (by omega),
        Function.update_of_ne (by omega)]
    · simp only [putByte]
      obtain rfl | rfl | rfl : b = 0 ∨ b = 1 ∨ b = 2 := by omega
      · rw [Function.update_of_ne (by omega), Function.update_of_ne (by omega)]
        simp
      · rw [Function.update_of_ne (by omega)]
        simp
      · rw [Function.update_self, shiftRight_eight]
        rfl

/-! ### One pass -/

/-- What the loop over the bytes leaves, for a pass that comes to `o`. -/
def PassLeaves (stream : ℕ → SidebandRead) (rem cnt : ℕ) (s : PollVars)
    (out : Except PollVars PollVars) : PassOutcome → Prop
  | .clean => ∃ t, out = .ok t ∧ t.attempt = s.attempt ∧ (∀ b < cnt, t.output b = s.output b) ∧
      ∀ b < rem, t.output (cnt + b) = splitByte stream s.reads b
  | .repeats k => ∃ t, t.attempt = s.attempt - 1 ∧ t.reads = k + 1 ∧
      t.entropy.is1stDrngRd = false ∧ t.entropy.isNot1stHwPoll = s.entropy.isNot1stHwPoll ∧
      t.entropy.entropyState = s.entropy.entropyState ∧
      (stream k).drng = some t.entropy.drngPrev ∧
      out = if t.attempt ≤ 0 then .error { t with entropy.entropyState := false } else .ok t
  | .fails _ => ∃ t, out = .error t ∧ t.entropy.entropyState = s.entropy.entropyState

theorem remembered_eq_some {e : SecEntropy} {v : UInt32} (h : e.remembered = some v) :
    e.drngPrev = v := by
  unfold SecEntropy.remembered at h
  split at h
  · exact Option.some.inj h
  · cases h

/-- A pass that ends with its first read. -/
theorem passLeaves_repeated {stream : ℕ → SidebandRead} {rem cnt : ℕ} {s : PollVars} {v : UInt32}
    (hd : (stream s.reads).drng = some v) (hv : s.entropy.drngPrev = v) :
    PassLeaves stream rem cnt s
      (match drngRepeated { s with
          hwEntropyBytePos := 0, hwEntropyBuf := v, reads := s.reads + 1 } with
        | .failed t => .error t
        | .gotoRetry t => .ok t
        | .next t => byteLoop stream (rem - 1) (cnt + 1) (putByte cnt t))
      (.repeats s.reads) := by
  refine ⟨{ s with
    hwEntropyBytePos := 0
    hwEntropyBuf := v
    reads := s.reads + 1
    attempt := s.attempt - 1
    entropy.is1stDrngRd := false }, rfl, rfl, rfl, rfl, rfl, hv ▸ hd, ?_⟩
  unfold drngRepeated
  by_cases h : s.attempt - 1 ≤ 0
  · simp only [h, if_true]
  · simp only [h, if_false]

theorem splitByte_add_three (stream : ℕ → SidebandRead) (i b : ℕ) :
    splitByte stream i (b + 3) = splitByte stream (i + 1) b := by
  unfold splitByte
  rw [Nat.add_div_right _ (by omega), Nat.add_mod_right, Nat.add_right_comm i 1]
  rfl

theorem splitByte_of_lt_three {stream : ℕ → SidebandRead} {i b : ℕ} {v : UInt32}
    (hd : (stream i).drng = some v) (hb : b < 3) :
    splitByte stream i b = (v >>> (UInt32.ofNat (8 * b))).toUInt8 := by
  unfold splitByte
  rw [Nat.div_eq_of_lt hb, Nat.mod_eq_of_lt hb]
  change (((stream i).drng.getD 0) >>> _).toUInt8 = _
  rw [hd]
  rfl

/-- One word more in front of a pass. -/
theorem PassLeaves.word {stream : ℕ → SidebandRead} {rem cnt : ℕ} {s t : PollVars}
    {out : Except PollVars PollVars} {o : PassOutcome}
    (h : PassLeaves stream (rem - 2) (cnt + 3) t out o) (hatt : t.attempt = s.attempt)
    (hnot : t.entropy.isNot1stHwPoll = s.entropy.isNot1stHwPoll)
    (hstate : t.entropy.entropyState = s.entropy.entropyState) (hreads : t.reads = s.reads + 1)
    (hbelow : ∀ b < cnt, t.output b = s.output b)
    (hbytes : ∀ b, b < 3 → b < rem + 1 → t.output (cnt + b) = splitByte stream s.reads b) :
    PassLeaves stream (rem + 1) cnt s out o := by
  cases o with
  | clean =>
      obtain ⟨u, rfl, hu, hub, hus⟩ := h
      refine ⟨u, rfl, hu.trans hatt, fun b hb => ?_, fun b hb => ?_⟩
      · rw [hub b (by omega), hbelow b hb]
      · rcases Nat.lt_or_ge b 3 with hb3 | hb3
        · rw [hub (cnt + b) (by omega), hbytes b hb3 hb]
        · obtain ⟨d, rfl⟩ := Nat.exists_eq_add_of_le' hb3
          have hsum : cnt + (d + 3) = cnt + 3 + d := by omega
          rw [hsum, hus d (by omega), splitByte_add_three, hreads]
  | repeats k =>
      obtain ⟨u, hu, hreads', hfirst, hnot', hstate', hprev, hout⟩ := h
      exact ⟨u, by rw [hu, hatt], hreads', hfirst, hnot'.trans hnot, hstate'.trans hstate, hprev,
        hout⟩
  | fails k =>
      obtain ⟨u, hu, hstate'⟩ := h
      exact ⟨u, hu, hstate'.trans hstate⟩

/-- **One pass.**  By induction on the number of reads; one read is good for three bytes. -/
theorem byteLoop_spec (stream : ℕ → SidebandRead) (n rem cnt : ℕ) (s : PollVars)
    (hn : readsFor rem = n) (hpos : 0 < rem → secByte2 < s.hwEntropyBytePos) :
    PassLeaves stream rem cnt s (byteLoop stream rem cnt s)
      (passOutcome stream s.entropy.remembered s.reads n) := by
  induction n generalizing rem cnt s with
  | zero =>
      obtain rfl : rem = 0 := by unfold readsFor at hn; omega
      exact ⟨s, rfl, rfl, fun _ _ => rfl, fun b hb => absurd hb (Nat.not_lt_zero b)⟩
  | succ n ih =>
      obtain ⟨rem, rfl⟩ : ∃ r, rem = r + 1 := Nat.exists_eq_succ_of_ne_zero (by
        rintro rfl
        simp [readsFor] at hn)
      unfold byteLoop passOutcome
      rw [if_pos (hpos (Nat.succ_pos rem)), drngStep_spec]
      cases hd : (stream s.reads).drng with
      | none => exact ⟨_, rfl, rfl⟩
      | some v =>
          by_cases hr : s.entropy.remembered = some v
          · simp only [hr, if_true]
            exact passLeaves_repeated hd (remembered_eq_some hr)
          · simp only [hr, if_false]
            obtain ⟨t, ht, hpos', hent, hatt, hreads, hbelow, hbytes⟩ :=
              byteLoop_word stream rem cnt { s with
                hwEntropyBytePos := 0
                hwEntropyBuf := v
                reads := s.reads + 1
                entropy.drngPrev := v
                entropy.is1stDrngRd := true } rfl
            rw [ht]
            have h := ih (rem - 2) (cnt + 3) t (by unfold readsFor at hn ⊢; omega)
              fun hlt => hpos' (by omega)
            rw [hent, hreads, remembered_of_is1st rfl] at h
            refine h.word (by rw [hatt]) (by rw [hent]) (by rw [hent]) hreads hbelow
              fun b hb hlt => ?_
            rw [hbytes b hb hlt, splitByte_of_lt_three hd hb]

/-! ### The call -/

variable {stream : ℕ → SidebandRead} {len : ℕ}

/-- The pass of one round. -/
theorem passLeaves_round (stream : ℕ → SidebandRead) (len : ℕ) (s : PollVars) :
    PassLeaves stream len 0 { s with hwEntropyBuf := 0, hwEntropyBytePos := secByte3 }
      (byteLoop stream len 0 { s with hwEntropyBuf := 0, hwEntropyBytePos := secByte3 })
      (passOutcome stream s.entropy.remembered s.reads (readsFor len)) :=
  byteLoop_spec stream (readsFor len) len 0 _ rfl fun _ => Nat.lt_succ_self secByte2

/-- A read that fails ends the call. -/
theorem retryLoop_fails {s : PollVars} {k : ℕ} (fuel : ℕ)
    (ho : passOutcome stream s.entropy.remembered s.reads (readsFor len) = .fails k) :
    ∃ r, retryLoop stream len (fuel + 1) s = some r ∧ r.ret = .failed ∧
      r.entropy.entropyState = s.entropy.entropyState := by
  have h := passLeaves_round stream len s
  rw [ho] at h
  obtain ⟨t, ht, hstate⟩ := h
  refine ⟨⟨.failed, none, t.output, t.entropy⟩, ?_, rfl, hstate⟩
  unfold retryLoop
  rw [ht]

/-- The second repetition ends the call. -/
theorem retryLoop_repeats_last {s : PollVars} {k : ℕ} (fuel : ℕ)
    (ho : passOutcome stream s.entropy.remembered s.reads (readsFor len) = .repeats k)
    (hs : s.attempt = 1) :
    ∃ r, retryLoop stream len (fuel + 1) s = some r ∧ r.ret = .failed ∧
      r.entropy.entropyState = false := by
  have h := passLeaves_round stream len s
  rw [ho] at h
  obtain ⟨t, hatt, -, -, -, -, -, hout⟩ := h
  simp only [hs, Int.sub_self] at hatt
  rw [if_pos (by omega)] at hout
  refine ⟨⟨.failed, none, t.output, { t.entropy with entropyState := false }⟩, ?_, rfl, rfl⟩
  unfold retryLoop
  rw [hout]

/-- The first repetition starts another round. -/
theorem retryLoop_repeats_first {s : PollVars} {k : ℕ} (fuel : ℕ)
    (ho : passOutcome stream s.entropy.remembered s.reads (readsFor len) = .repeats k)
    (hs : s.attempt = 2) :
    ∃ t, retryLoop stream len (fuel + 1) s = retryLoop stream len fuel t ∧ t.attempt = 1 ∧
      t.reads = k + 1 ∧
      t.entropy.remembered = (if s.entropy.isNot1stHwPoll then (stream k).drng else none) ∧
      t.entropy.entropyState = s.entropy.entropyState := by
  have h := passLeaves_round stream len s
  rw [ho] at h
  obtain ⟨t, hatt, hreads, hfirst, hnot, hstate, hprev, hout⟩ := h
  have hone : t.attempt = 1 := by
    rw [hatt]
    simp only [hs]
    norm_num
  rw [if_neg (by omega)] at hout
  refine ⟨t, ?_, hone, hreads, ?_, hstate⟩
  · rw [retryLoop, hout]
    simp [hone]
  · unfold SecEntropy.remembered
    rw [hfirst, hnot, hprev]
    simp

/-- A first pass that goes through is a success. -/
theorem retryLoop_clean_first {s : PollVars} (fuel : ℕ)
    (ho : passOutcome stream s.entropy.remembered s.reads (readsFor len) = .clean)
    (hs : s.attempt = 2) :
    ∃ r, retryLoop stream len (fuel + 1) s = some r ∧ r.ret = .success ∧ r.olen = some len ∧
      ∀ b < len, r.output b = splitByte stream s.reads b := by
  have h := passLeaves_round stream len s
  rw [ho] at h
  obtain ⟨t, hout, hatt, -, hbytes⟩ := h
  have htwo : t.attempt = 2 := hatt.trans hs
  refine ⟨⟨.success, some len, t.output, { t.entropy with
    entropyState := true, is1stDrngRd := false, isNot1stHwPoll := true }⟩, ?_, rfl, rfl,
    fun b hb => ?_⟩
  · rw [retryLoop, hout]
    simp [htwo]
  · have hb' := hbytes b hb
    rwa [Nat.zero_add] at hb'

/-- **A later pass that goes through starts another round.** -/
theorem retryLoop_clean_later {s : PollVars} (fuel : ℕ)
    (ho : passOutcome stream s.entropy.remembered s.reads (readsFor len) = .clean)
    (hs : s.attempt = 1) :
    ∃ t, retryLoop stream len (fuel + 1) s = retryLoop stream len fuel t ∧ t.attempt = 1 := by
  have h := passLeaves_round stream len s
  rw [ho] at h
  obtain ⟨t, hout, hatt, -⟩ := h
  have hone : t.attempt = 1 := hatt.trans hs
  refine ⟨t, ?_, hone⟩
  rw [retryLoop, hout]
  simp [hone]

/-- **After a repetition the call never succeeds.**  By induction on the rounds: with one attempt
left, a pass that goes through leaves one attempt. -/
theorem not_success_of_attempt_one {s : PollVars} {fuel : ℕ} {r : PollResult}
    (hs : s.attempt = 1) (h : retryLoop stream len fuel s = some r) : r.ret ≠ .success := by
  induction fuel generalizing s with
  | zero => cases h
  | succ fuel ih =>
      cases ho : passOutcome stream s.entropy.remembered s.reads (readsFor len) with
      | clean =>
          obtain ⟨t, ht, hone⟩ := retryLoop_clean_later fuel ho hs
          exact ih hone (ht ▸ h)
      | repeats k =>
          obtain ⟨r', hr', hfail, -⟩ := retryLoop_repeats_last fuel ho hs
          cases hr'.symm.trans h
          rw [hfail]
          decide
      | fails k =>
          obtain ⟨r', hr', hfail, -⟩ := retryLoop_fails fuel ho
          cases hr'.symm.trans h
          rw [hfail]
          decide

/-! ### When a call keeps its promise -/

/-- A first pass that goes through or meets no number, and after a repetition a pass that does not
go through.  A read that fails is harmless while `entropy_state` is false. -/
def PollRegular (stream : ℕ → SidebandRead) (len : ℕ) (e : SecEntropy) : Prop :=
  match passOutcome stream e.remembered 0 (readsFor len) with
  | .clean => True
  | .fails _ => e.entropyState = false
  | .repeats k =>
      match passOutcome stream (if e.isNot1stHwPoll then (stream k).drng else none) (k + 1)
          (readsFor len) with
      | .clean => False
      | .repeats _ => True
      | .fails _ => e.entropyState = false

variable {e : SecEntropy} {output : ℕ → UInt8}

/-- A pass that goes through: every read delivers a number, and it is not the one before. -/
theorem passOutcome_eq_clean {prev : Option UInt32} {i n : ℕ} :
    passOutcome stream prev i n = .clean ↔
      ∀ j < n, ∃ v, (stream (i + j)).drng = some v ∧
        (if j = 0 then prev else (stream (i + j - 1)).drng) ≠ some v := by
  induction n generalizing prev i with
  | zero => simp [passOutcome]
  | succ n ih =>
      unfold passOutcome
      cases hd : (stream i).drng with
      | none =>
          simp only [reduceCtorEq, false_iff, not_forall]
          exact ⟨0, Nat.succ_pos n, by simp [hd]⟩
      | some v =>
          simp only
          split
          · rename_i hr
            simp only [reduceCtorEq, false_iff, not_forall]
            exact ⟨0, Nat.succ_pos n, by simp [hd, hr]⟩
          · rename_i hr
            rw [ih]
            constructor
            · intro h j hj
              rcases j with _ | j
              · exact ⟨v, hd, hr⟩
              · obtain ⟨w, hw, hne⟩ := h j (by omega)
                have hj' : i + (j + 1) = i + 1 + j := by omega
                refine ⟨w, by rw [hj', hw], ?_⟩
                rw [if_neg (Nat.succ_ne_zero j), hj']
                rcases j with _ | j
                · rwa [if_pos rfl, ← hd] at hne
                · rwa [if_neg (Nat.succ_ne_zero j)] at hne
            · intro h j hj
              obtain ⟨w, hw, hne⟩ := h (j + 1) (by omega)
              have hj' : i + (j + 1) = i + 1 + j := by omega
              rw [if_neg (Nat.succ_ne_zero j), hj'] at hne
              refine ⟨w, by rw [← hj', hw], ?_⟩
              rcases j with _ | j
              · rwa [if_pos rfl, ← hd]
              · rwa [if_neg (Nat.succ_ne_zero j)]

theorem not_clean_of_fails {k : ℕ}
    (ho : passOutcome stream e.remembered 0 (readsFor len) = .fails k) :
    ¬ ∃ prev i, IsPass stream len e prev i ∧ passOutcome stream prev i (readsFor len) = .clean := by
  rintro ⟨prev, i, hp, hc⟩
  cases hp with
  | first => simp [ho] at hc
  | second hk => simp [ho] at hk

theorem clean_of_repeats {k : ℕ}
    (ho : passOutcome stream e.remembered 0 (readsFor len) = .repeats k)
    (h : ∃ prev i, IsPass stream len e prev i ∧
      passOutcome stream prev i (readsFor len) = .clean) :
    passOutcome stream (if e.isNot1stHwPoll then (stream k).drng else none) (k + 1)
      (readsFor len) = .clean := by
  obtain ⟨prev, i, hp, hc⟩ := h
  cases hp with
  | first => simp [ho] at hc
  | second hk =>
      rw [ho] at hk
      cases hk
      exact hc

theorem poll_clean (output : ℕ → UInt8) (fuel : ℕ)
    (ho : passOutcome stream e.remembered 0 (readsFor len) = .clean) :
    ∃ r, mbedtlsHardwarePoll stream len e output (fuel + 1) = some r ∧ r.ret = .success ∧
      r.olen = some len ∧ ∀ b < len, r.output b = splitByte stream 0 b :=
  retryLoop_clean_first fuel ho rfl

theorem poll_fails {k : ℕ} (output : ℕ → UInt8) (fuel : ℕ)
    (ho : passOutcome stream e.remembered 0 (readsFor len) = .fails k) :
    ∃ r, mbedtlsHardwarePoll stream len e output (fuel + 1) = some r ∧ r.ret = .failed ∧
      r.entropy.entropyState = e.entropyState := retryLoop_fails fuel ho

theorem poll_repeats {k : ℕ} (output : ℕ → UInt8) (fuel : ℕ)
    (ho : passOutcome stream e.remembered 0 (readsFor len) = .repeats k) :
    ∃ t, mbedtlsHardwarePoll stream len e output (fuel + 1) = retryLoop stream len fuel t ∧
      t.attempt = 1 ∧ t.reads = k + 1 ∧
      t.entropy.remembered = (if e.isNot1stHwPoll then (stream k).drng else none) ∧
      t.entropy.entropyState = e.entropyState := retryLoop_repeats_first fuel ho rfl

/-- A call all of whose rounds end the same way. -/
theorem pollOk_of_failed (d : ℕ)
    (hret : ∀ fuel, ∃ r, mbedtlsHardwarePoll stream len e output (fuel + d) = some r ∧
      r.ret = .failed ∧ r.entropy.entropyState = false)
    (hnone : ∀ fuel < d, mbedtlsHardwarePoll stream len e output fuel = none)
    (hno : ¬ ∃ prev i, IsPass stream len e prev i ∧
      passOutcome stream prev i (readsFor len) = .clean) : PollOk stream len e output := by
  have hall : ∀ fuel r, mbedtlsHardwarePoll stream len e output fuel = some r →
      r.ret = .failed ∧ r.entropy.entropyState = false := by
    intro fuel r hr
    rcases Nat.lt_or_ge fuel d with hlt | hge
    · rw [hnone fuel hlt] at hr
      cases hr
    · obtain ⟨fuel, rfl⟩ := Nat.exists_eq_add_of_le' hge
      obtain ⟨r', hr', h⟩ := hret fuel
      cases hr'.symm.trans hr
      exact h
  obtain ⟨r, hr, -⟩ := hret 0
  refine ⟨⟨_, r, hr⟩, fun fuel r hr => ?_, fun fuel r hr hs => ?_,
    fun fuel r hr _ => hall fuel r hr⟩
  · rw [(hall fuel r hr).1]
    exact iff_of_false (by decide) hno
  · rw [(hall fuel r hr).1] at hs
    cases hs

/-- A first pass that goes through. -/
theorem pollOk_of_clean (ho : passOutcome stream e.remembered 0 (readsFor len) = .clean) :
    PollOk stream len e output := by
  have hall : ∀ fuel r, mbedtlsHardwarePoll stream len e output fuel = some r →
      r.ret = .success ∧ r.olen = some len ∧ ∀ b < len, r.output b = splitByte stream 0 b := by
    intro fuel r hr
    rcases fuel with _ | fuel
    · cases hr
    · obtain ⟨r', hr', h⟩ := poll_clean output fuel ho
      cases hr'.symm.trans hr
      exact h
  obtain ⟨r, hr, -⟩ := poll_clean output 0 ho
  refine ⟨⟨1, r, hr⟩, fun fuel r hr => ?_, fun fuel r hr _ => ?_, fun fuel r hr hs => ?_⟩
  · exact iff_of_true (hall fuel r hr).1 ⟨_, _, .first, ho⟩
  · exact ⟨(hall fuel r hr).2.1, _, _, .first, ho, (hall fuel r hr).2.2⟩
  · exact absurd (hall fuel r hr).1 hs

/-- After a repetition a call needs two rounds at least. -/
theorem poll_repeats_eq_none {k fuel : ℕ} (output : ℕ → UInt8)
    (ho : passOutcome stream e.remembered 0 (readsFor len) = .repeats k) (hlt : fuel < 2) :
    mbedtlsHardwarePoll stream len e output fuel = none := by
  obtain rfl | rfl : fuel = 0 ∨ fuel = 1 := by omega
  · rfl
  · obtain ⟨t, ht, -⟩ := poll_repeats output 0 ho
    exact ht

/-- **A repetition, and a pass that goes through**: the call does not succeed. -/
theorem not_pollOk_of_repeats_clean {k : ℕ}
    (ho : passOutcome stream e.remembered 0 (readsFor len) = .repeats k)
    (ho' : passOutcome stream (if e.isNot1stHwPoll then (stream k).drng else none) (k + 1)
      (readsFor len) = .clean) : ¬ PollOk stream len e output := by
  intro h
  obtain ⟨fuel, r, hr⟩ := h.returns
  have hs := (h.success_iff fuel r hr).2 ⟨_, _, .second ho, ho'⟩
  rcases fuel with _ | fuel
  · cases hr
  · obtain ⟨t, ht, hatt, -⟩ := poll_repeats output fuel ho
    exact not_success_of_attempt_one hatt (ht.symm.trans hr) hs

/-- Two repetitions. -/
theorem pollOk_of_repeats_repeats {k j : ℕ}
    (ho : passOutcome stream e.remembered 0 (readsFor len) = .repeats k)
    (ho' : passOutcome stream (if e.isNot1stHwPoll then (stream k).drng else none) (k + 1)
      (readsFor len) = .repeats j) : PollOk stream len e output := by
  refine pollOk_of_failed 2 (fun fuel => ?_) (fun fuel => poll_repeats_eq_none output ho)
    fun hc => ?_
  · obtain ⟨t, ht, hatt, hreads, hrem, -⟩ := poll_repeats output (fuel + 1) ho
    rw [← hrem, ← hreads] at ho'
    obtain ⟨r, hr, h⟩ := retryLoop_repeats_last fuel ho' hatt
    exact ⟨r, ht.trans hr, h⟩
  · rw [clean_of_repeats ho hc] at ho'
    cases ho'

/-- A call that ends with a read that fails has to find `entropy_state` false. -/
theorem pollOk_iff_of_failed (d : ℕ)
    (hret : ∀ fuel, ∃ r, mbedtlsHardwarePoll stream len e output (fuel + d) = some r ∧
      r.ret = .failed ∧ r.entropy.entropyState = e.entropyState)
    (hnone : ∀ fuel < d, mbedtlsHardwarePoll stream len e output fuel = none)
    (hno : ¬ ∃ prev i, IsPass stream len e prev i ∧
      passOutcome stream prev i (readsFor len) = .clean) :
    PollOk stream len e output ↔ e.entropyState = false := by
  constructor
  · intro h
    obtain ⟨r, hr, hfail, hstate⟩ := hret 0
    have hok := (h.failed _ r hr (by rw [hfail]; decide)).2
    rwa [hstate] at hok
  · intro h
    refine pollOk_of_failed d (fun fuel => ?_) hnone hno
    obtain ⟨r, hr, hfail, hstate⟩ := hret fuel
    exact ⟨r, hr, hfail, hstate.trans h⟩

/-- **When a call keeps its promise**: after a repetition it has to fail, and a read that fails has
to find `entropy_state` false. -/
theorem pollOk_iff (stream : ℕ → SidebandRead) (len : ℕ) (e : SecEntropy) (output : ℕ → UInt8) :
    PollOk stream len e output ↔ PollRegular stream len e := by
  unfold PollRegular
  cases ho : passOutcome stream e.remembered 0 (readsFor len) with
  | clean => exact iff_of_true (pollOk_of_clean ho) trivial
  | fails k =>
      refine pollOk_iff_of_failed 1 (fun fuel => poll_fails output fuel ho) (fun fuel hlt => ?_)
        (not_clean_of_fails ho)
      rw [Nat.lt_one_iff.1 hlt]
      rfl
  | repeats k =>
      simp only
      cases ho' : passOutcome stream (if e.isNot1stHwPoll then (stream k).drng else none) (k + 1)
          (readsFor len) with
      | clean => exact iff_of_false (not_pollOk_of_repeats_clean ho ho') id
      | repeats j => exact iff_of_true (pollOk_of_repeats_repeats ho ho') trivial
      | fails j =>
          refine pollOk_iff_of_failed 2 (fun fuel => ?_)
            (fun fuel => poll_repeats_eq_none output ho) fun hc => ?_
          · obtain ⟨t, ht, hatt, hreads, hrem, hstate⟩ := poll_repeats output (fuel + 1) ho
            rw [← hrem, ← hreads] at ho'
            obtain ⟨r, hr, hfail, h⟩ := retryLoop_fails fuel ho'
            exact ⟨r, ht.trans hr, hfail, h.trans hstate⟩
          · rw [clean_of_repeats ho hc] at ho'
            cases ho'

/-- A generator that repeats one number, once. -/
def stuckOnce (i : ℕ) : SidebandRead :=
  ⟨0, 0, if i = 0 then 0 else UInt32.ofNat ((i + 1) % 2)⟩

theorem stuckOnce_drng {i : ℕ} (hi : 1 ≤ i) :
    (stuckOnce i).drng = some (UInt32.ofNat ((i + 1) % 2) &&& secByte012SetMsk) := by
  obtain ⟨i, rfl⟩ := Nat.exists_eq_add_of_le' hi
  rfl

/-- **One repetition is enough**: the pass after it goes through, and the call does not succeed. -/
theorem not_pollOk_stuckOnce : ¬ ∀ (stream : ℕ → SidebandRead) (len : ℕ) (e : SecEntropy)
    (output : ℕ → UInt8), (∃ N, ∀ i ≥ N, (stream i).drng ≠ (stream (i + 1)).drng) →
    PollOk stream len e output := by
  intro h
  have hok := h stuckOnce 6 ⟨0, false, false, false⟩ (fun _ => 0) ⟨1, fun i hi => ?_⟩
  · exact not_pollOk_of_repeats_clean (k := 1) (by decide) (by decide) hok
  · rw [stuckOnce_drng hi, stuckOnce_drng (Nat.le_succ_of_le hi)]
    rcases Nat.mod_two_eq_zero_or_one i with hm | hm
    · have h1 : (i + 1) % 2 = 1 := by omega
      have h2 : (i + 1 + 1) % 2 = 0 := by omega
      rw [h1, h2]
      decide
    · have h1 : (i + 1) % 2 = 0 := by omega
      have h2 : (i + 1 + 1) % 2 = 1 := by omega
      rw [h1, h2]
      decide

end PseFw.Sec
