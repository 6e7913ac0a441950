/-
**The nonce challenge.**

`sec_int_get_nonce` gives out a random number for a transaction, and `sec_int_check_nonce` takes
the number back, encrypted under the key of the owner.  A reply has to come within 30 seconds
(`SEC_NONCE_DENC_TIMEOUT_IN_S`).

The protocol is broken in three places.  The time is the uptime in milliseconds, so that a reply
is too late after 30 of them.  It is a word of 32 bits, so that a nonce is new again after 2 ^ 32
of them.  And the transaction, the number and the time are stored whether or not the generator of
random numbers has delivered; before the first call they are zero, and zero is accepted.

The mutex around the context is reentrant, and one thread makes the calls.

Main definitions:

* `secIntGetNonce`, `secIntCheckNonce` — the two functions;
* `NonceSys`, `nonceStep` — the context, and the nonce that was given out last;
* `NonceOk` — what a call promises;
* `NonceDiscipline` — the calls that do not come near the defects.

Main results:

* `checkNonce_eq_success` — when a reply is accepted;
* `nonceInv_step` — the context knows the nonce that was given out last;
* `nonceOk_of_disciplined` — **every call keeps its promise**, in every disciplined run.
-/

import PseFw.Lib.Transition
import PseFw.Sec.Parsing

set_option relaxedAutoImplicit false
set_option autoImplicit false

namespace PseFw.Sec

open Mem

/-! ### The two functions -/

/-- `SEC_NONCE_DENC_TIMEOUT_IN_S`. -/
def secNonceDencTimeoutInS : ℕ := 30

/-- `sec_int_get_time`: the uptime in milliseconds, as an `unsigned long`. -/
def secIntGetTime (uptime : ℕ) : ℕ := uptime % 2 ^ 32

/-- `sec_int_get_nonce`.  The random number comes from `sec_int_get_rand_num`, which leaves
`nonceData` as the caller had it when it fails. -/
def secIntGetNonce (m : Ctx) (tranId nonceData : UInt32) (rand : Option UInt32) (uptime : ℕ) :
    Status × UInt32 × Ctx :=
  if tranId.toNat < word m .tranId then (.failedInvalidParam, nonceData, m)
  else
    let m := putWord m .tranId tranId.toNat
    let result := if rand.isSome then Status.success else .failed
    let nonceData := rand.getD nonceData
    let m := putWord m .nonce nonceData.toNat
    (result, nonceData, putWord m .nonceTimeS (secIntGetTime uptime))

/-- A reply: the encrypted nonce with its vector and its tag, and what stands on the stack where
it is decrypted to. -/
structure Reply where
  data : List UInt8
  iv : List UInt8
  tag : List UInt8
  stack : ℕ → UInt8

variable (c : Crypto)

/-- `sec_int_check_nonce`. -/
def secIntCheckNonce (m : Ctx) (r : Reply) (tranId : UInt32) (uptime : ℕ) : Status :=
  if tranId.toNat ≠ word m .tranId then .failedInvalidParam
  else match secIntGetOwnPubKey c m with
    | .error e => e
    | .ok key =>
        if c.gcmSetkey key = false then .failed
        else match c.gcmAuthDecrypt key r.iv r.tag r.data with
          | none => .failed
          | some decrypted =>
              if word m .nonce ≠ ofLe (read (write r.stack 0 decrypted) 0 4) then .failed
              else if (secIntGetTime uptime + 2 ^ 32 - word m .nonceTimeS) % 2 ^ 32 >
                  secNonceDencTimeoutInS then .failedOobTimeout
              else .success

/-- The number in a reply, under the key of the owner. -/
def Reply.nonce (m : Ctx) (r : Reply) : Option ℕ :=
  match secIntGetOwnPubKey c m with
  | .error _ => none
  | .ok key =>
      if c.gcmSetkey key = false then none
      else (c.gcmAuthDecrypt key r.iv r.tag r.data).map fun decrypted =>
        ofLe (read (write r.stack 0 decrypted) 0 4)

/-! ### Runs -/

/-- A nonce that was given out, and when. -/
structure Issue where
  tranId : UInt32
  nonce : UInt32
  time : ℕ
  deriving DecidableEq, Repr

/-- The context, and what the last call of `sec_int_get_nonce` that succeeded gave out. -/
structure NonceSys where
  ctx : Ctx
  issued : Option Issue

/-- A call, with the reading of the clock. -/
inductive NonceCall
  | getNonce (tranId nonceData : UInt32) (rand : Option UInt32) (uptime : ℕ)
  | checkNonce (r : Reply) (tranId : UInt32) (uptime : ℕ)

/-- A call. -/
def nonceStep : NonceCall → NonceSys → Option NonceSys
  | .getNonce tranId nonceData rand uptime, x =>
      let q := secIntGetNonce x.ctx tranId nonceData rand uptime
      some ⟨q.2.2, if q.1 = .success then some ⟨tranId, q.2.1, uptime⟩ else x.issued⟩
  | .checkNonce _ _ _, x => some x

/-- After the start nothing was given out, and the fields are zero. -/
structure NonceBoot (x : NonceSys) : Prop where
  issued : x.issued = none
  tranId : word x.ctx .tranId = 0
  nonce : word x.ctx .nonce = 0
  nonceTimeS : word x.ctx .nonceTimeS = 0

/-- The time a reply has, in milliseconds. -/
def replyTime : ℕ := 1000 * secNonceDencTimeoutInS

/-- **What a call promises.**  The transaction never goes back, and a call of `sec_int_get_nonce`
that fails changes nothing.  A reply is accepted only for the nonce that was given out last, with
its transaction and in time; and such a reply is accepted. -/
def NonceOk (x : NonceSys) : NonceCall → Prop
  | .getNonce tranId nonceData rand uptime =>
      let q := secIntGetNonce x.ctx tranId nonceData rand uptime
      word x.ctx .tranId ≤ word q.2.2 .tranId ∧
        (q.1 ≠ .success → word q.2.2 .tranId = word x.ctx .tranId ∧
          word q.2.2 .nonce = word x.ctx .nonce ∧
          word q.2.2 .nonceTimeS = word x.ctx .nonceTimeS)
  | .checkNonce r tranId uptime =>
      (secIntCheckNonce c x.ctx r tranId uptime = .success → ∃ i, x.issued = some i ∧
        tranId = i.tranId ∧ r.nonce c x.ctx = some i.nonce.toNat ∧
        uptime ≤ i.time + replyTime) ∧
      ∀ i, x.issued = some i → tranId = i.tranId → r.nonce c x.ctx = some i.nonce.toNat →
        i.time ≤ uptime → uptime ≤ i.time + replyTime →
        secIntCheckNonce c x.ctx r tranId uptime = .success

/-- **The discipline.**  The generator delivers; before the first nonce nobody replies with zero for
transaction zero, unless the words of 32 bits say that it is late; and the right reply comes within
30 milliseconds, or after 30 seconds, and then at no time at which the words of 32 bits differ by at
most 30.  A wrong reply may come at any time. -/
def NonceDiscipline (x : NonceSys) : NonceCall → Prop
  | .getNonce tranId _ rand _ => word x.ctx .tranId ≤ tranId.toNat → rand.isSome = true
  | .checkNonce r tranId uptime =>
      match x.issued with
      | none => tranId = 0 → r.nonce c x.ctx = some 0 → secNonceDencTimeoutInS < uptime % 2 ^ 32
      | some i => tranId = i.tranId → r.nonce c x.ctx = some i.nonce.toNat →
          uptime ≤ i.time + secNonceDencTimeoutInS ∨
            i.time + replyTime < uptime ∧ secNonceDencTimeoutInS < (uptime - i.time) % 2 ^ 32

variable {c}

/-! ### One call -/

theorem word_putWord_self {m : Ctx} {f : Field} {n : ℕ} (hf : f.size = 4) (hn : n < 2 ^ 32) :
    word (putWord m f n) f = n := by
  rw [word_eq _ hf, get_putWord_self hf]
  exact ofLe_leBytes (lt_of_lt_of_eq hn (by norm_num))

theorem word_putWord_ne {m : Ctx} {f g : Field} {n : ℕ} (hf : f.size = 4) (hg : g.size = 4)
    (h : f ≠ g) : word (putWord m g n) f = word m f := by
  rw [word_eq _ hf, word_eq _ hf, get_putWord_ne hg h]

/-- The words of the context after a call of `sec_int_get_nonce` that was not turned away. -/
theorem getNonce_words {m : Ctx} {tranId nonceData : UInt32} {rand : Option UInt32} {uptime : ℕ}
    (h : word m .tranId ≤ tranId.toNat) :
    (secIntGetNonce m tranId nonceData rand uptime).1 =
        (if rand.isSome then Status.success else .failed) ∧
      (secIntGetNonce m tranId nonceData rand uptime).2.1 = rand.getD nonceData ∧
      word (secIntGetNonce m tranId nonceData rand uptime).2.2 .tranId = tranId.toNat ∧
      word (secIntGetNonce m tranId nonceData rand uptime).2.2 .nonce =
        (rand.getD nonceData).toNat ∧
      word (secIntGetNonce m tranId nonceData rand uptime).2.2 .nonceTimeS = uptime % 2 ^ 32 := by
  unfold secIntGetNonce
  rw [if_neg (by omega)]
  refine ⟨rfl, rfl, ?_, ?_, ?_⟩
  · simp only
    rw [word_putWord_ne rfl rfl (by decide), word_putWord_ne rfl rfl (by decide),
      word_putWord_self rfl tranId.toNat_lt]
  · simp only
    rw [word_putWord_ne rfl rfl (by decide), word_putWord_self rfl (UInt32.toNat_lt _)]
  · simp only
    unfold secIntGetTime
    exact word_putWord_self rfl (Nat.mod_lt _ (by decide))

theorem getNonce_rejected {m : Ctx} {tranId nonceData : UInt32} {rand : Option UInt32}
    {uptime : ℕ} (h : tranId.toNat < word m .tranId) :
    secIntGetNonce m tranId nonceData rand uptime = (.failedInvalidParam, nonceData, m) := if_pos h

/-- The key of the owner is withheld for one reason. -/
theorem getOwnPubKey_error {m : Ctx} {e : Status} (h : secIntGetOwnPubKey c m = .error e) :
    e = .failedOobHashMismatch := by
  unfold secIntGetOwnPubKey secIntGetByLen at h
  by_cases hv : Verified c m
  · rw [verify_eq_success hv] at h
    cases h
  · rw [verify_eq_mismatch hv] at h
    cases h
    rfl

/-- **When a reply is accepted.** -/
theorem checkNonce_eq_success {m : Ctx} {r : Reply} {tranId : UInt32} {uptime : ℕ} :
    secIntCheckNonce c m r tranId uptime = .success ↔
      tranId.toNat = word m .tranId ∧ r.nonce c m = some (word m .nonce) ∧
        (secIntGetTime uptime + 2 ^ 32 - word m .nonceTimeS) % 2 ^ 32 ≤
          secNonceDencTimeoutInS := by
  unfold secIntCheckNonce Reply.nonce
  by_cases ht : tranId.toNat = word m .tranId
  · rw [if_neg (not_not_intro ht)]
    cases hk : secIntGetOwnPubKey c m with
    | error e =>
        simp [getOwnPubKey_error hk]
    | ok key =>
        simp only
        by_cases hs : c.gcmSetkey key = false
        · rw [if_pos hs, if_pos hs]
          simp
        · rw [if_neg hs, if_neg hs]
          cases hd : c.gcmAuthDecrypt key r.iv r.tag r.data with
          | none => simp
          | some decrypted =>
              simp only [Option.map_some, Option.some.injEq]
              by_cases hn : word m .nonce = ofLe (read (write r.stack 0 decrypted) 0 4)
              · rw [if_neg (not_not_intro hn)]
                split
                · rename_i hlate
                  simp only [reduceCtorEq, false_iff, not_and]
                  omega
                · rename_i hlate
                  simp only [true_iff]
                  exact ⟨ht, hn.symm, by omega⟩
              · rw [if_pos hn]
                simp only [reduceCtorEq, false_iff, not_and]
                exact fun _ h => absurd h.symm hn
  · rw [if_pos ht]
    simp [ht]

/-! ### The invariant -/

/-- **The context knows the nonce that was given out last**, and before the first one it holds
zeros. -/
structure NonceInv (x : NonceSys) : Prop where
  fresh : x.issued = none → word x.ctx .tranId = 0 ∧ word x.ctx .nonce = 0 ∧
    word x.ctx .nonceTimeS = 0
  known : ∀ i, x.issued = some i → word x.ctx .tranId = i.tranId.toNat ∧
    word x.ctx .nonce = i.nonce.toNat ∧ word x.ctx .nonceTimeS = i.time % 2 ^ 32

theorem nonceInv_boot {x : NonceSys} (h : NonceBoot x) : NonceInv x where
  fresh _ := ⟨h.tranId, h.nonce, h.nonceTimeS⟩
  known i hi := by
    rw [h.issued] at hi
    cases hi

/-- **A disciplined call keeps the invariant.** -/
theorem nonceInv_step {x x' : NonceSys} {l : NonceCall} (h : NonceInv x)
    (hc : NonceDiscipline c x l) (hst : nonceStep l x = some x') : NonceInv x' := by
  cases l with
  | getNonce tranId nonceData rand uptime =>
      cases hst
      rcases Nat.lt_or_ge tranId.toNat (word x.ctx .tranId) with hlt | hge
      · rw [getNonce_rejected hlt]
        exact h
      · obtain ⟨h1, h2, h3, h4, h5⟩ := @getNonce_words x.ctx tranId nonceData rand uptime hge
        have hsuc : (secIntGetNonce x.ctx tranId nonceData rand uptime).1 = .success := by
          rw [h1, if_pos (hc hge)]
        simp only [if_pos hsuc]
        refine ⟨fun hn => (nomatch hn), fun i hi => ?_⟩
        cases hi
        exact ⟨h3, by rw [h2]; exact h4, h5⟩
  | checkNonce r tranId uptime =>
      cases hst
      exact h

/-- What the two words of 32 bits say about the time between them. -/
theorem elapsed_eq (now issued : ℕ) (h : issued ≤ now) :
    (now % 2 ^ 32 + 2 ^ 32 - issued % 2 ^ 32) % 2 ^ 32 = (now - issued) % 2 ^ 32 := by
  omega

/-- **A disciplined call keeps its promise.** -/
theorem nonceOk_step {x : NonceSys} {l : NonceCall} (h : NonceInv x) (hc : NonceDiscipline c x l) :
    NonceOk c x l := by
  cases l with
  | getNonce tranId nonceData rand uptime =>
      unfold NonceOk
      simp only
      rcases Nat.lt_or_ge tranId.toNat (word x.ctx .tranId) with hlt | hge
      · rw [getNonce_rejected hlt]
        exact ⟨le_rfl, fun _ => ⟨rfl, rfl, rfl⟩⟩
      · obtain ⟨h1, -, h3, -⟩ := @getNonce_words x.ctx tranId nonceData rand uptime hge
        refine ⟨by rw [h3]; exact hge, fun hf => absurd ?_ hf⟩
        rw [h1, if_pos (hc hge)]
  | checkNonce r tranId uptime =>
      unfold NonceOk
      simp only [checkNonce_eq_success]
      unfold NonceDiscipline at hc
      cases hi : x.issued with
      | none =>
          -- nothing was given out: the zeros of the context are what a reply is compared with
          simp only [hi] at hc
          obtain ⟨h1, h2, h3⟩ := h.fresh hi
          rw [h1, h2, h3, secIntGetTime]
          refine ⟨fun ⟨ht, hn, htime⟩ => ?_, fun i hi' => (nomatch hi')⟩
          have hlate := hc (UInt32.toNat_inj.1 ht) hn
          omega
      | some i =>
          simp only [hi] at hc
          obtain ⟨h1, h2, h3⟩ := h.known i hi
          rw [h1, h2, h3, secIntGetTime]
          constructor
          · rintro ⟨ht, hn, htime⟩
            have htran := UInt32.toNat_inj.1 ht
            refine ⟨i, rfl, htran, hn, ?_⟩
            rcases hc htran hn with hearly | ⟨hlate, hwrap⟩
            · unfold replyTime
              omega
            · rw [elapsed_eq _ _ (by omega)] at htime
              omega
          · intro j hj ht hn hle hlate
            cases hj
            refine ⟨congrArg UInt32.toNat ht, hn, ?_⟩
            rcases hc ht hn with hearly | ⟨hafter, -⟩
            · rw [elapsed_eq _ _ hle]
              exact (Nat.mod_le _ _).trans (by omega)
            · omega

/-- **Every call keeps its promise**, in every disciplined run. -/
theorem nonceOk_of_disciplined (c : Crypto) (x : NonceSys)
    (h : Lts.Reach NonceBoot nonceStep (NonceDiscipline c) x) (l : NonceCall)
    (hc : NonceDiscipline c x l) : NonceOk c x l :=
  nonceOk_step (h.invariant (fun _ => nonceInv_boot) fun _ _ _ => nonceInv_step) hc

/-! ### A reply after 31 milliseconds -/

/-- A device whose owner has a key of 32 bytes, all zero. -/
def ownedSys : NonceSys := ⟨putWord (fun _ => 0) .ownPubKeyLen 32, none⟩

theorem nonceBoot_ownedSys : NonceBoot ownedSys where
  issued := rfl
  tranId := word_putWord_ne rfl rfl (by decide)
  nonce := word_putWord_ne rfl rfl (by decide)
  nonceTimeS := word_putWord_ne rfl rfl (by decide)

/-- The device after it has given out the number 7 for transaction 1, at time 5. -/
def challengedSys : NonceSys :=
  ⟨(secIntGetNonce ownedSys.ctx 1 0 (some 7) 5).2.2, some ⟨1, 7, 5⟩⟩

/-- The reply of the owner. -/
def rightReply : Reply where
  data := [7, 0, 0, 0]
  iv := List.replicate secEncIvSize 0
  tag := List.replicate secEncTagSize 0
  stack _ := 0

theorem nonceStep_ownedSys :
    nonceStep (.getNonce 1 0 (some 7) 5) ownedSys = some challengedSys := by
  obtain ⟨h1, h2, -⟩ := @getNonce_words ownedSys.ctx 1 0 (some 7) 5
    (by rw [nonceBoot_ownedSys.tranId]; exact Nat.zero_le _)
  unfold nonceStep
  simp only [h1, h2]
  rfl

/-- A reply with another number. -/
def wrongReply : Reply := { rightReply with data := [8, 0, 0, 0] }

/-- The right reply is checked after 25 milliseconds, a wrong one after five seconds. -/
theorem nonceOk_challengedSys :
    NonceOk plainCrypto challengedSys (.checkNonce rightReply 1 30) ∧
      NonceOk plainCrypto challengedSys (.checkNonce wrongReply 1 5005) := by
  have hreach : Lts.Reach NonceBoot nonceStep (NonceDiscipline plainCrypto) challengedSys := by
    refine .step (.init nonceBoot_ownedSys) ?_ nonceStep_ownedSys
    exact fun _ => rfl
  refine ⟨nonceOk_of_disciplined _ _ hreach _ ?_, nonceOk_of_disciplined _ _ hreach _ ?_⟩
  · exact fun _ _ => Or.inl (by decide)
  · exact fun _ hn => absurd hn (by decide)

/-- The reply is right and comes in time, and it is refused. -/
theorem not_nonceOk_late : ¬ ∀ (c : Crypto) (x : NonceSys),
    Lts.Reach NonceBoot nonceStep Lts.Free x → ∀ l, NonceOk c x l := by
  intro h
  have h := (h plainCrypto challengedSys
    (.step (.init nonceBoot_ownedSys) trivial nonceStep_ownedSys)
    (.checkNonce rightReply 1 36)).2 _ rfl rfl rfl
      (by decide) (by decide)
  exact absurd h (by decide)

end PseFw.Sec
