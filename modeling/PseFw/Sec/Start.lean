/-
**The start of the security service.**

`sec_int_start` waits for the BIOS: in every round it looks at `sec_int_start_init_flag`, and then
it reads the clock again.  The loop goes on while the time that has passed is below the timeout,
and behind it the call has failed if the time is above the timeout.  The two tests leave a gap.
When the loop ends with a reading of the clock that is the timeout to the millisecond, the flag was
not seen, and the result is `SEC_SUCCESS` all the same.  With a timeout of 0 this is so always.

The readings of the clock are a sequence, and so are the values of the flag, one for every round.
Nothing bounds the number of rounds when the clock stands still, so the loop has fuel.

Main definitions:

* `secIntStart` — the function;
* `StartOk` — what a call promises;
* `StartDecides` — the sequences of readings on which the promise is kept.

Main results:

* `startLoop_eq_some`, `startLoop_of_ends` — where the loop ends;
* `startOk_iff` — **when a call keeps its promise**.
-/

import PseFw.Sec.Entropy
import PseFw.Sec.Nonce

set_option relaxedAutoImplicit false
set_option autoImplicit false

namespace PseFw.Sec

/-! ### The function -/

/-- The loop of `sec_int_start`, from round `k` on, where the clock was read `cur`.  The result
says whether the flag was seen, and how the clock was read last. -/
def startLoop (clock : ℕ → ℕ) (flag : ℕ → Bool) (timeout : UInt32) (prev : ℕ) :
    ℕ → ℕ → ℕ → Option (Bool × ℕ)
  | 0, _, _ => none
  | fuel + 1, k, cur =>
      if (cur + 2 ^ 32 - prev) % 2 ^ 32 < timeout.toNat then
        if flag k = true then some (true, cur)
        else startLoop clock flag timeout prev fuel (k + 1) (secIntGetTime (clock (k + 1)))
      else some (false, cur)

/-- What a call of `sec_int_start` leaves, and whether the loop has seen the flag. -/
structure StartResult where
  ret : Status
  entropy : SecEntropy
  seen : Bool

/-- `sec_int_start`.  The mode it is called with is not used. -/
def secIntStart (timeout : UInt32) (clock : ℕ → ℕ) (flag : ℕ → Bool) (e : SecEntropy)
    (fuel : ℕ) : Option StartResult :=
  let e := secHcResetDrngState e
  let prev := secIntGetTime (clock 0)
  (startLoop clock flag timeout prev fuel 0 prev).map fun q =>
    { ret := if timeout.toNat < (q.2 + 2 ^ 32 - prev) % 2 ^ 32 then .failed else .success
      entropy := e
      seen := q.1 }

/-! ### What a call promises -/

/-- **What a call promises.**  It returns, with `SEC_SUCCESS` if and only if it has seen the flag,
and with `SEC_FAILED` otherwise. -/
structure StartOk (timeout : UInt32) (clock : ℕ → ℕ) (flag : ℕ → Bool) (e : SecEntropy) : Prop where
  returns : ∃ fuel r, secIntStart timeout clock flag e fuel = some r
  success_iff : ∀ fuel r, secIntStart timeout clock flag e fuel = some r →
    (r.ret = .success ↔ r.seen = true)
  failed : ∀ fuel r, secIntStart timeout clock flag e fuel = some r → r.seen = false →
    r.ret = .failed

/-- The time that has passed at round `k`. -/
def startElapsed (clock : ℕ → ℕ) (k : ℕ) : ℕ :=
  (secIntGetTime (clock k) + 2 ^ 32 - secIntGetTime (clock 0)) % 2 ^ 32

/-- The loop goes on behind round `k`: there is time left, and the flag is not set. -/
def StartWaits (timeout : UInt32) (clock : ℕ → ℕ) (flag : ℕ → Bool) (k : ℕ) : Prop :=
  startElapsed clock k < timeout.toNat ∧ flag k = false

/-- The first round behind which the loop does not go on: the flag is set in it, with time left, or
the timeout has passed by more than nothing. -/
def StartDecides (timeout : UInt32) (clock : ℕ → ℕ) (flag : ℕ → Bool) : Prop :=
  ∃ k, (∀ j < k, StartWaits timeout clock flag j) ∧
    (startElapsed clock k < timeout.toNat ∧ flag k = true ∨
      timeout.toNat < startElapsed clock k)

variable {timeout : UInt32} {clock : ℕ → ℕ} {flag : ℕ → Bool}

/-! ### Where the loop ends -/

/-- One round of the loop. -/
theorem startLoop_succ (timeout : UInt32) (clock : ℕ → ℕ) (flag : ℕ → Bool) (fuel k : ℕ) :
    startLoop clock flag timeout (secIntGetTime (clock 0)) (fuel + 1) k
        (secIntGetTime (clock k)) =
      if startElapsed clock k < timeout.toNat then
        if flag k = true then some (true, secIntGetTime (clock k))
        else startLoop clock flag timeout (secIntGetTime (clock 0)) fuel (k + 1)
          (secIntGetTime (clock (k + 1)))
      else some (false, secIntGetTime (clock k)) := rfl

theorem startLoop_waits {k : ℕ} (fuel : ℕ) (h : StartWaits timeout clock flag k) :
    startLoop clock flag timeout (secIntGetTime (clock 0)) (fuel + 1) k
        (secIntGetTime (clock k)) =
      startLoop clock flag timeout (secIntGetTime (clock 0)) fuel (k + 1)
        (secIntGetTime (clock (k + 1))) := by
  rw [startLoop_succ, if_pos h.1, h.2]
  rfl

theorem startLoop_ends {k : ℕ} (fuel : ℕ) (h : ¬ StartWaits timeout clock flag k) :
    startLoop clock flag timeout (secIntGetTime (clock 0)) (fuel + 1) k
        (secIntGetTime (clock k)) =
      some (decide (startElapsed clock k < timeout.toNat), secIntGetTime (clock k)) := by
  rw [startLoop_succ]
  by_cases hlt : startElapsed clock k < timeout.toNat
  · have hflag : flag k = true := by
      cases hf : flag k with
      | true => rfl
      | false => exact absurd ⟨hlt, hf⟩ h
    rw [if_pos hlt, if_pos hflag, decide_eq_true hlt]
  · rw [if_neg hlt, decide_eq_false hlt]

/-- With enough fuel the loop comes to the round at which it ends. -/
theorem startLoop_of_ends {i k fuel : ℕ} (hik : i ≤ k) (hfuel : k - i < fuel)
    (hw : ∀ j, i ≤ j → j < k → StartWaits timeout clock flag j)
    (he : ¬ StartWaits timeout clock flag k) :
    startLoop clock flag timeout (secIntGetTime (clock 0)) fuel i (secIntGetTime (clock i)) =
      some (decide (startElapsed clock k < timeout.toNat), secIntGetTime (clock k)) := by
  induction fuel generalizing i with
  | zero => exact absurd hfuel (Nat.not_lt_zero _)
  | succ fuel ih =>
      rcases Nat.eq_or_lt_of_le hik with rfl | hlt
      · exact startLoop_ends fuel he
      · rw [startLoop_waits fuel (hw i (Nat.le_refl i) hlt)]
        exact ih hlt (by omega) fun j hj => hw j (by omega)

/-- A loop that ends has come to such a round. -/
theorem startLoop_eq_some {i fuel : ℕ} {q : Bool × ℕ}
    (h : startLoop clock flag timeout (secIntGetTime (clock 0)) fuel i
      (secIntGetTime (clock i)) = some q) :
    ∃ k, i ≤ k ∧ (∀ j, i ≤ j → j < k → StartWaits timeout clock flag j) ∧
      ¬ StartWaits timeout clock flag k ∧
      q = (decide (startElapsed clock k < timeout.toNat), secIntGetTime (clock k)) := by
  induction fuel generalizing i with
  | zero => cases h
  | succ fuel ih =>
      by_cases hw : StartWaits timeout clock flag i
      · rw [startLoop_waits fuel hw] at h
        obtain ⟨k, hik, hall, hk, hq⟩ := ih h
        refine ⟨k, by omega, fun j hij hjk => ?_, hk, hq⟩
        rcases Nat.eq_or_lt_of_le hij with rfl | hlt
        · exact hw
        · exact hall j hlt hjk
      · rw [startLoop_ends fuel hw] at h
        cases h
        exact ⟨i, Nat.le_refl i, fun j hij hji => absurd hji (Nat.not_lt.2 hij), hw, rfl⟩

/-! ### When a call keeps its promise -/

/-- What a call returns when its loop ends at round `k`. -/
def startResult (timeout : UInt32) (clock : ℕ → ℕ) (e : SecEntropy) (k : ℕ) : StartResult where
  ret := if timeout.toNat < startElapsed clock k then .failed else .success
  entropy := secHcResetDrngState e
  seen := decide (startElapsed clock k < timeout.toNat)

/-- **The calls that return.** -/
theorem secIntStart_eq_some {e : SecEntropy} {fuel : ℕ} {r : StartResult}
    (h : secIntStart timeout clock flag e fuel = some r) :
    ∃ k, (∀ j < k, StartWaits timeout clock flag j) ∧ ¬ StartWaits timeout clock flag k ∧
      r = startResult timeout clock e k := by
  obtain ⟨q, hq, rfl⟩ := Option.map_eq_some_iff.1 h
  obtain ⟨k, -, hall, hk, rfl⟩ := startLoop_eq_some hq
  exact ⟨k, fun j => hall j (Nat.zero_le j), hk, rfl⟩

theorem secIntStart_of_ends {k : ℕ} (e : SecEntropy)
    (hw : ∀ j < k, StartWaits timeout clock flag j) (he : ¬ StartWaits timeout clock flag k) :
    secIntStart timeout clock flag e (k + 1) = some (startResult timeout clock e k) := by
  have hloop := startLoop_of_ends (Nat.zero_le k) (Nat.lt_succ_self k) (fun j _ => hw j) he
  exact congrArg (Option.map _) hloop

/-- The round at which the loop ends is the only one. -/
theorem startEnds_unique {k l : ℕ} (hk : ∀ j < k, StartWaits timeout clock flag j)
    (hk' : ¬ StartWaits timeout clock flag k) (hl : ∀ j < l, StartWaits timeout clock flag j)
    (hl' : ¬ StartWaits timeout clock flag l) : k = l := by
  rcases Nat.lt_trichotomy k l with h | h | h
  · exact absurd (hl k h) hk'
  · exact h
  · exact absurd (hk l h) hl'

/-- **When a call keeps its promise**: the loop has to end, with the flag or strictly past the
timeout. -/
theorem startOk_iff (timeout : UInt32) (clock : ℕ → ℕ) (flag : ℕ → Bool) (e : SecEntropy) :
    StartOk timeout clock flag e ↔ StartDecides timeout clock flag := by
  constructor
  · intro h
    obtain ⟨fuel, r, hr⟩ := h.returns
    obtain ⟨k, hw, he, rfl⟩ := secIntStart_eq_some hr
    refine ⟨k, hw, ?_⟩
    by_cases hlt : startElapsed clock k < timeout.toNat
    · left
      refine ⟨hlt, ?_⟩
      cases hf : flag k with
      | true => rfl
      | false => exact absurd ⟨hlt, hf⟩ he
    · right
      by_contra hnot
      have hfail := h.failed fuel _ hr (decide_eq_false hlt)
      rw [startResult, if_neg hnot] at hfail
      cases hfail
  · rintro ⟨k, hw, hk⟩
    have he : ¬ StartWaits timeout clock flag k := by
      rintro ⟨hlt, hf⟩
      rcases hk with ⟨-, hf'⟩ | hgt
      · rw [hf] at hf'
        cases hf'
      · omega
    have hall : ∀ fuel r, secIntStart timeout clock flag e fuel = some r →
        r = startResult timeout clock e k := by
      intro fuel r hr
      obtain ⟨l, hwl, hel, rfl⟩ := secIntStart_eq_some hr
      rw [startEnds_unique hwl hel hw he]
    refine ⟨⟨k + 1, _, secIntStart_of_ends e hw he⟩, fun fuel r hr => ?_, fun fuel r hr hs => ?_⟩
    · rw [hall fuel r hr]
      unfold startResult
      rcases hk with ⟨hlt, -⟩ | hgt
      · rw [if_neg (by omega), decide_eq_true hlt]
        exact iff_of_true rfl rfl
      · rw [if_pos hgt, decide_eq_false (by omega)]
        exact iff_of_false Status.noConfusion Bool.noConfusion
    · rw [hall fuel r hr] at hs ⊢
      rcases hk with ⟨hlt, -⟩ | hgt
      · exact absurd hlt (of_decide_eq_false hs)
      · exact if_pos hgt

/-- **A timeout of 0** succeeds without the flag. -/
theorem not_startOk_zero : ¬ ∀ (timeout : UInt32) (clock : ℕ → ℕ) (flag : ℕ → Bool)
    (e : SecEntropy), Monotone clock → StartOk timeout clock flag e := by
  intro h
  have hok := h 0 (fun _ => 0) (fun _ => false) ⟨0, false, false, false⟩ fun _ _ _ => Nat.le_refl 0
  have hfail := hok.failed 1 _ rfl rfl
  exact absurd hfail (by decide)

end PseFw.Sec
