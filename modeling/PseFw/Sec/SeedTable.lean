/-
**The seed table.**

The BIOS sends up to four seeds, and each goes to a slot of its own.  The table counts how many it
has.  The search for the seed that decrypts the cloud hash, and the release of the seeds, take that
number for the bound of a loop over the slots.

So they are right when the slots that are filled are the first ones.  When there is a gap, the
search comes to a slot that is `NULL`, and the release leaves the slots behind the bound filled.
Such a slot refuses the seeds of the next cycle, and they are not counted, so that the bound stays
behind the number of slots that are filled, and the search misses the last of them.

The search tries the seeds from slot 0 upward; every trial allocates a buffer, and a trial without
memory fails like one with the wrong seed.

Main definitions:

* `seedDecrypts` — a seed decrypts the cloud hash that is stored;
* `findTried` — the slots a search tries;
* `SeedSys`, `seedStep` — the table, with the memory of the seeds, and the calls;
* `SeedOk` — what a call promises;
* `SeedCond` — the calls that keep the promise.

Main results:

* `trial_spec` — a trial;
* `findLoop_stops`, `findLoop_runs_out` — the search;
* `seedInv_step` — **every seed is freed or held by one slot**;
* `seedOk_iff` — **when a call keeps its promise**, in every run.
-/

import Mathlib.Algebra.BigOperators.Fin
import PseFw.Lib.Transition
import PseFw.Sec.Integrity

set_option relaxedAutoImplicit false
set_option autoImplicit false

namespace PseFw.Sec

open Mem

variable (env : Env)

/-! ### The seeds -/

/-- The salt the keys are derived with. -/
def saltOf (m : Ctx) : List UInt8 :=
  fillBuffer secPseSaltLen (secIntGetHkdf32bPseSalt env.crypto m)

/-- **The seed decrypts the cloud hash that is stored.** -/
def seedDecrypts (m : Ctx) (seed : Seed) : Bool :=
  match env.crypto.hkdf (saltOf env m) seed.val Cred.cldHash.label with
  | none => false
  | some key => env.crypto.gcmSetkey key &&
      (env.crypto.gcmAuthDecrypt key (get m Cred.cldHash.iv) (get m Cred.cldHash.tag)
        (get m Cred.cldHash.enc)).isSome

/-- The slots the loop of `sec_hc_find_cse_seed` tries, with the number of seeds that are left. -/
def findTried : ℕ → ℕ → SecState → List ℕ
  | 0, _, _ => []
  | left + 1, idx, s =>
      idx :: match secHcSetPrefCseSeed idx s with
        | none => []
        | some q =>
            if q.1 ≠ .success then []
            else
              let r := secHcDecryptData env .cldHash q.2
              if r.1 ≠ .success then findTried left (idx + 1) r.2 else []

/-! ### The table and its calls -/

/-- The client, with the memory of the seeds: which block a slot points to, how many blocks have
been allocated, and how often each was freed.  `received` has what the BIOS has sent for a slot: a
seed for a free slot counts whether or not there is memory for it, one for a filled slot is refused
in favour of the seed that is there, and a release ends only what it has released. -/
structure SeedSys where
  s : SecState
  block : Fin 4 → Option ℕ
  received : Fin 4 → Option Seed
  next : ℕ
  frees : ℕ → ℕ

/-- A call that works on the table, or anything else. -/
inductive SeedCall
  | processCseSeed (src : ℕ → UInt8) (idx : Fin 4) (dataLen : ℕ)
  | findCseSeed
  | relCseSeed
  | other (f : SecState → SecState)

/-- A slot points to a block, or it does not. -/
def holds (o : Option ℕ) (id : ℕ) : ℕ := if o = some id then 1 else 0

/-- How many of the slots point to a block. -/
def holders (block : Fin 4 → Option ℕ) (id : ℕ) : ℕ := ∑ i, holds (block i) id

/-- The seeds that are received once one more is sent. -/
def SeedSys.receive (x : SeedSys) (src : ℕ → UInt8) (idx : Fin 4) (dataLen : ℕ) :
    Fin 4 → Option Seed :=
  if dataLen ≤ secCseSeedLen ∧ x.s.seeds idx = none then
    Function.update x.received idx (some (Seed.read src))
  else x.received

/-- A call.  The step is undefined when the search reads through `NULL`. -/
def seedStep : SeedCall → SeedSys → Option SeedSys
  | .processCseSeed src idx dataLen, x =>
      let q := secHcProcessCseSeed env src idx dataLen x.s
      some (if q.1 = .success then
        { s := q.2
          block := Function.update x.block idx (some x.next)
          received := x.receive src idx dataLen
          next := x.next + 1
          frees := x.frees }
      else { x with s := q.2, received := x.receive src idx dataLen })
  | .findCseSeed, x => (secHcFindCseSeed env x.s).map fun q => { x with s := q.2 }
  | .relCseSeed, x => some
      { s := secHcRelCseSeed x.s
        block := fun i => if i.val < x.s.seedNo then none else x.block i
        received := fun i => if (secHcRelCseSeed x.s).seeds i = none then none else x.received i
        next := x.next
        frees := fun id => x.frees id +
          holders (fun i => if i.val < x.s.seedNo then x.block i else none) id }
  | .other f, x => some { x with s := { f x.s with seeds := x.s.seeds, seedNo := x.s.seedNo } }

/-- After the start the table is empty. -/
structure SeedBoot (x : SeedSys) : Prop where
  seeds : x.s.seeds = fun _ => none
  seedNo : x.s.seedNo = 0
  block : x.block = fun _ => none
  received : x.received = fun _ => none
  next : x.next = 0
  frees : x.frees = fun _ => 0

/-! ### What a call promises -/

/-- The seed that was received for a slot decrypts the cloud hash. -/
def SeedSys.hits (x : SeedSys) (i : Fin 4) : Prop :=
  ∃ seed, x.received i = some seed ∧ seedDecrypts env x.s.ctx seed = true

/-- The slots a search has to try: the received ones, up to the first whose seed decrypts. -/
def SeedSys.toTry (x : SeedSys) (i : Fin 4) : Prop :=
  x.received i ≠ none ∧ ∀ j < i, ¬ x.hits env j

/-- **What a search promises**: it tries the received seeds from slot 0 upward, and succeeds if and
only if one of them decrypts the cloud hash. -/
def FindOk (x : SeedSys) : Prop :=
  ∃ q, secHcFindCseSeed env x.s = some q ∧
    (q.1 = .success ↔ ∃ i, x.hits env i) ∧
    (findTried env x.s.seedNo 0 x.s).Pairwise (· < ·) ∧
    ∀ k, k ∈ findTried env x.s.seedNo 0 x.s ↔ ∃ i : Fin 4, i.val = k ∧ x.toTry env i

/-- **What a release promises**: the slots are `NULL`, every seed has been freed exactly once, and
the count is zero. -/
def RelOk (x : SeedSys) : Prop :=
  ∃ x', seedStep env .relCseSeed x = some x' ∧ (∀ i, x'.s.seeds i = none) ∧
    (∀ id < x'.next, x'.frees id = 1) ∧ x'.s.seedNo = 0

/-- What a call promises. -/
def SeedOk (x : SeedSys) : SeedCall → Prop
  | .findCseSeed => FindOk env x
  | .relCseSeed => RelOk env x
  | _ => True

/-- **The calls that keep the promise.**  A slot that has to be tried is filled and counted, below
it there is no gap, and there is memory for the trial that hits; and when the seeds are released, no
slot is filled that is not below the count. -/
def SeedCond (x : SeedSys) : SeedCall → Prop
  | .findCseSeed =>
      (∀ i, x.toTry env i → x.s.seeds i ≠ none ∧ i.val < x.s.seedNo ∧
        ∀ j < i, x.received j ≠ none) ∧
        ∀ i, x.toTry env i → x.hits env i → env.kHeapAlloc (x.s.allocs + i.val) = true
  | .relCseSeed => ∀ i : Fin 4, x.s.seeds i ≠ none → i.val < x.s.seedNo
  | _ => True

variable {env}

/-! ### One trial -/

/-- What a trial that fails leaves of the context: another fuse, and another key. -/
structure Tried (c : Crypto) (m m' : Ctx) : Prop where
  unchanged : Unchanged [.pse32bFuse, .pse32bFuseLen, Cred.cldHash.key] m m'
  verified : Verified c m' ↔ Verified c m

theorem Tried.refl (c : Crypto) (m : Ctx) : Tried c m m := ⟨Unchanged.refl _ m, Iff.rfl⟩

theorem Tried.trans {c : Crypto} {m m' m'' : Ctx} (h : Tried c m m') (h' : Tried c m' m'') :
    Tried c m m'' := ⟨h.unchanged.trans h'.unchanged, h'.verified.trans h.verified⟩

theorem getSalt_congr {c : Crypto} {m m' : Ctx} (h : Tried c m m') :
    secIntGetHkdf32bPseSalt c m' = secIntGetHkdf32bPseSalt c m := by
  have hword : word m' .hkdf32bPseSaltLen = word m .hkdf32bPseSaltLen := by
    rw [word_eq _ rfl, word_eq _ rfl, h.unchanged _ (by decide)]
  unfold secIntGetHkdf32bPseSalt
  rw [hword]
  split
  · rfl
  · rename_i hlen
    have hread : secIntGetContextParam m' .hkdf32bPseSalt .hkdf32bPseSaltLen =
        secIntGetContextParam m .hkdf32bPseSalt .hkdf32bPseSaltLen := by
      unfold secIntGetContextParam
      rw [hword, not_not.1 hlen]
      exact h.unchanged .hkdf32bPseSalt (by decide)
    by_cases hv : Verified c m
    · rw [verify_eq_success hv, verify_eq_success (h.verified.2 hv)]
      simp only [hread]
    · rw [verify_eq_mismatch hv, verify_eq_mismatch (mt h.verified.1 hv)]

/-- A trial that fails does not change what a seed decrypts. -/
theorem seedDecrypts_congr {m m' : Ctx} (h : Tried env.crypto m m') (seed : Seed) :
    seedDecrypts env m' seed = seedDecrypts env m seed := by
  unfold seedDecrypts saltOf
  rw [getSalt_congr h, h.unchanged _ (by decide), h.unchanged _ (by decide),
    h.unchanged _ (by decide)]

/-- The context with a seed in the fuse. -/
def fused (m : Ctx) (seed : Seed) : Ctx :=
  secIntSetContextParam m .pse32bFuse .pse32bFuseLen seed.val

theorem tried_fused (c : Crypto) (m : Ctx) (seed : Seed) : Tried c m (fused m seed) := by
  have hl : seed.val.length = Field.pse32bFuse.size := seed.property
  unfold fused secIntSetContextParam
  refine ⟨?_, (verified_putWord (by decide)).trans (verified_put (by decide))⟩
  exact ((unchanged_put hl.le).mono (by simp)).trans
    ((unchanged_put (le_of_eq (length_leBytes 4 _))).mono (by simp))

theorem getFuse_fused (m : Ctx) (seed : Seed) :
    secIntGetPse32bFuse (fused m seed) secFuseLen = .ok seed.val := by
  have hl : seed.val.length = secFuseLen := seed.property
  have hword : word (fused m seed) .pse32bFuseLen = secFuseLen := by
    rw [word_eq _ rfl]
    unfold fused secIntSetContextParam
    rw [get_putWord_self rfl, hl]
    exact ofLe_leBytes (by decide)
  unfold secIntGetPse32bFuse secIntGetContextParam
  rw [hword, if_neg (not_not_intro rfl)]
  have hget : get (fused m seed) .pse32bFuse = seed.val := by
    unfold fused secIntSetContextParam
    rw [get_putWord_ne rfl (by decide), get_put_self hl]
  exact congrArg Except.ok hget

/-- The key of a seed in the fuse. -/
theorem hkdfKeyGen_fused (m : Ctx) (seed : Seed) (label : List UInt8) (keyField : Field) :
    secHcHkdfKeyGen env label keyField (fused m seed) =
      match env.crypto.hkdf (saltOf env m) seed.val label with
      | none => (.failed, fused m seed)
      | some key => (.success, put (fused m seed) keyField key) := by
  unfold secHcHkdfKeyGen saltOf
  rewrite [getFuse_fused, getSalt_congr (tried_fused _ m seed)]
  rfl

/-- The key of a trial is stored. -/
theorem tried_put_key {m : Ctx} {key : List UInt8} (c : Crypto)
    (h : key.length = Cred.cldHash.key.size) : Tried c m (put m Cred.cldHash.key key) :=
  ⟨(unchanged_put h.le).mono (by simp), verified_put (by decide)⟩

/-- **A trial**: the seed goes to the fuse, and it hits if there is memory and the seed decrypts.
Otherwise only fuse and key are other ones. -/
theorem trial_spec (env : Env) {idx : ℕ} {s : SecState} {seed : Seed}
    (hx : s.seedAt idx = some seed) :
    ∃ q, secHcSetPrefCseSeed idx s = some q ∧ q.1 = .success ∧
      ((secHcDecryptData env .cldHash q.2).1 = .success ↔
        env.kHeapAlloc s.allocs = true ∧ seedDecrypts env s.ctx seed = true) ∧
      (secHcDecryptData env .cldHash q.2).2.seeds = s.seeds ∧
      (secHcDecryptData env .cldHash q.2).2.seedNo = s.seedNo ∧
      (secHcDecryptData env .cldHash q.2).2.allocs = s.allocs + 1 ∧
      ((secHcDecryptData env .cldHash q.2).1 ≠ .success →
        Tried env.crypto s.ctx (secHcDecryptData env .cldHash q.2).2.ctx) := by
  have hl : seed.val.length = secFuseLen := seed.property
  refine ⟨(.success, { s with ctx := fused s.ctx seed }), ?_, rfl, ?_⟩
  · unfold secHcSetPrefCseSeed secIntSetPse32bFuse
    rw [hx, Option.map_some, if_neg (not_not_intro hl)]
    rfl
  · have htried := tried_fused env.crypto s.ctx seed
    unfold secHcDecryptData
    by_cases ha : env.kHeapAlloc s.allocs = false
    · simp only [ha, if_true]
      exact ⟨by simp, trivial, trivial, trivial, fun _ => htried⟩
    · rw [Bool.not_eq_false] at ha
      simp only [ha, Bool.true_eq_false, if_false, hkdfKeyGen_fused]
      unfold seedDecrypts
      cases hk : env.crypto.hkdf (saltOf env s.ctx) seed.val Cred.cldHash.label with
      | none => exact ⟨by simp, rfl, rfl, rfl, fun _ => htried⟩
      | some key =>
          have hkl : key.length = Cred.cldHash.key.size := env.crypto.length_hkdf _ _ _ _ hk
          have hkey := htried.trans (tried_put_key env.crypto hkl)
          simp only
          unfold secHcDecryptDataOnce
          rw [Cred.read_enc, get_put_self hkl, hkey.unchanged _ (by decide),
            hkey.unchanged _ (by decide), hkey.unchanged _ (by decide)]
          cases hs : env.crypto.gcmSetkey key with
          | false => exact ⟨by simp, rfl, rfl, rfl, fun _ => hkey⟩
          | true =>
              simp only [Bool.true_eq_false, if_false, Bool.true_and]
              cases env.crypto.gcmAuthDecrypt key (get s.ctx Cred.cldHash.iv)
                  (get s.ctx Cred.cldHash.tag) (get s.ctx Cred.cldHash.enc) with
              | none => exact ⟨by simp, rfl, rfl, rfl, fun _ => hkey⟩
              | some clear => exact ⟨by simp, rfl, rfl, rfl, fun h => absurd rfl h⟩

/-! ### The search -/

/-- The search ends at slot `k`, if it comes there: the slot is `NULL`, or the trial hits. -/
def Stops (env : Env) (s : SecState) (k : ℕ) : Prop :=
  ∀ seed, s.seedAt k = some seed →
    env.kHeapAlloc (s.allocs + k) = true ∧ seedDecrypts env s.ctx seed = true

/-- The state of a search before it tries slot `k`. -/
structure Searching (c : Crypto) (s : SecState) (k : ℕ) (s' : SecState) : Prop where
  seeds : s'.seeds = s.seeds
  seedNo : s'.seedNo = s.seedNo
  allocs : s'.allocs = s.allocs + k
  tried : Tried c s.ctx s'.ctx

theorem Searching.seedAt {c : Crypto} {s s' : SecState} {k : ℕ} (h : Searching c s k s') (j : ℕ) :
    s'.seedAt j = s.seedAt j := by
  unfold SecState.seedAt
  rw [h.seeds]

/-- A slot at which the search goes on. -/
theorem findLoop_goes_on (left : ℕ) {s s' : SecState} {k : ℕ} (h : Searching env.crypto s k s')
    (hk : ¬ Stops env s k) :
    ∃ s'', Searching env.crypto s (k + 1) s'' ∧
      findCseSeedLoop env (left + 1) k s' = findCseSeedLoop env left (k + 1) s'' ∧
      findTried env (left + 1) k s' = k :: findTried env left (k + 1) s'' := by
  unfold Stops at hk
  push Not at hk
  obtain ⟨seed, hx, hmiss⟩ := hk
  obtain ⟨q, hq, hsuc, hhit, hseeds, hno, hall, htried⟩ :=
    trial_spec env ((h.seedAt k).trans hx)
  have hfail : (secHcDecryptData env .cldHash q.2).1 ≠ .success := by
    rw [ne_eq, hhit, h.allocs, seedDecrypts_congr h.tried]
    exact fun hh => hmiss hh.1 hh.2
  refine ⟨(secHcDecryptData env .cldHash q.2).2, ⟨hseeds.trans h.seeds, hno.trans h.seedNo, ?_,
    h.tried.trans (htried hfail)⟩, ?_, ?_⟩
  · rw [hall, h.allocs, Nat.add_assoc]
  · rw [findCseSeedLoop, hq, Option.bind_some, if_neg (not_not_intro hsuc)]
    simp only
    rw [if_pos hfail]
  · rw [findTried, hq]
    simp only
    rw [if_neg (not_not_intro hsuc), if_pos hfail]

/-- A slot at which the search ends. -/
theorem findLoop_ends (left : ℕ) {s s' : SecState} {k : ℕ} (h : Searching env.crypto s k s')
    (hk : Stops env s k) :
    findTried env (left + 1) k s' = [k] ∧
      (s.seedAt k = none → findCseSeedLoop env (left + 1) k s' = none) ∧
      (s.seedAt k ≠ none → ∃ q, findCseSeedLoop env (left + 1) k s' = some q ∧
        q.1 = .success ∧ q.2.seeds = s.seeds ∧ q.2.seedNo = s.seedNo) := by
  cases hx : s.seedAt k with
  | none =>
      have hset : secHcSetPrefCseSeed k s' = none := by
        unfold secHcSetPrefCseSeed
        rw [h.seedAt, hx, Option.map_none]
      refine ⟨?_, fun _ => ?_, fun hne => absurd rfl hne⟩
      · rw [findTried, hset]
      · rw [findCseSeedLoop, hset, Option.bind_none]
  | some seed =>
      obtain ⟨q, hq, hsuc, hhit, hseeds, hno, -, -⟩ :=
        trial_spec env ((h.seedAt k).trans hx)
      have hdec : (secHcDecryptData env .cldHash q.2).1 = .success := by
        rw [hhit, h.allocs, seedDecrypts_congr h.tried]
        exact hk seed hx
      refine ⟨?_, fun h => absurd h (Option.some_ne_none seed), fun _ => ?_⟩
      · rw [findTried, hq]
        simp only
        rw [if_neg (not_not_intro hsuc), if_neg (not_not_intro hdec)]
      · rw [findCseSeedLoop, hq, Option.bind_some, if_neg (not_not_intro hsuc)]
        simp only
        rw [if_neg (not_not_intro hdec)]
        exact ⟨_, rfl, rfl, hseeds.trans h.seeds, hno.trans h.seedNo⟩

/-- **The search ends at the first slot at which it can.** -/
theorem findLoop_stops (left : ℕ) {s s' : SecState} {i k : ℕ} (h : Searching env.crypto s i s')
    (hik : i ≤ k) (hkl : k < i + left) (hon : ∀ j, i ≤ j → j < k → ¬ Stops env s j)
    (hk : Stops env s k) :
    findTried env left i s' = List.range' i (k + 1 - i) ∧
      (s.seedAt k = none → findCseSeedLoop env left i s' = none) ∧
      (s.seedAt k ≠ none → ∃ q, findCseSeedLoop env left i s' = some q ∧ q.1 = .success ∧
        q.2.seeds = s.seeds ∧ q.2.seedNo = s.seedNo) := by
  induction left generalizing i s' with
  | zero => exact absurd hkl (by omega)
  | succ left ih =>
      rcases Nat.eq_or_lt_of_le hik with rfl | hlt
      · obtain ⟨ht, hn, hs⟩ := findLoop_ends left h hk
        refine ⟨?_, hn, hs⟩
        rw [ht, Nat.add_sub_cancel_left]
        rfl
      · obtain ⟨s'', h'', hloop, htried⟩ := findLoop_goes_on left h (hon i le_rfl hlt)
        obtain ⟨ht, hn, hs⟩ := ih h'' hlt (by omega) fun j hj => hon j (by omega)
        have hlen : k + 1 - i = (k + 1 - (i + 1)) + 1 := by omega
        rw [hloop, htried, ht, hlen, List.range'_succ]
        exact ⟨rfl, hn, hs⟩

/-- **A search that nowhere ends** runs out of seeds. -/
theorem findLoop_runs_out (left : ℕ) {s s' : SecState} {i : ℕ} (h : Searching env.crypto s i s')
    (hon : ∀ j, i ≤ j → j < i + left → ¬ Stops env s j) :
    findTried env left i s' = List.range' i left ∧
      ∃ q, findCseSeedLoop env left i s' = some q ∧ q.1 = .failed ∧ q.2.seeds = s.seeds ∧
        q.2.seedNo = s.seedNo := by
  induction left generalizing i s' with
  | zero => exact ⟨rfl, _, rfl, rfl, h.seeds, h.seedNo⟩
  | succ left ih =>
      obtain ⟨s'', h'', hloop, htried⟩ :=
        findLoop_goes_on left h (hon i le_rfl (by omega))
      obtain ⟨ht, hs⟩ := ih h'' fun j hj hjl => hon j (by omega) (by omega)
      rw [hloop, htried, ht, List.range'_succ]
      exact ⟨rfl, hs⟩

/-- The first number below a bound, if there is one. -/
theorem exists_first (p : ℕ → Prop) (n : ℕ) :
    (∃ k < n, p k ∧ ∀ j < k, ¬ p j) ∨ ∀ j < n, ¬ p j := by
  induction n with
  | zero => exact .inr fun j hj => absurd hj (Nat.not_lt_zero j)
  | succ n ih =>
      rcases ih with ⟨k, hk, hfirst⟩ | hnone
      · exact .inl ⟨k, Nat.lt_succ_of_lt hk, hfirst⟩
      · by_cases hn : p n
        · exact .inl ⟨n, Nat.lt_succ_self n, hn, hnone⟩
        · refine .inr fun j hj => ?_
          rcases Nat.lt_succ_iff_lt_or_eq.1 hj with hlt | rfl
          · exact hnone j hlt
          · exact hn

theorem exists_least_slot {p : Fin 4 → Prop} (h : ∃ i, p i) : ∃ i, p i ∧ ∀ j < i, ¬ p j := by
  rcases exists_first (fun k => ∃ hk : k < 4, p ⟨k, hk⟩) 4 with ⟨k, -, ⟨hk, hp⟩, hfirst⟩ | hnone
  · exact ⟨⟨k, hk⟩, hp, fun j hj hpj => hfirst j.val hj ⟨j.isLt, hpj⟩⟩
  · obtain ⟨i, hi⟩ := h
    exact absurd ⟨i.isLt, hi⟩ (hnone i.val i.isLt)

theorem searching_start (c : Crypto) (s : SecState) : Searching c s 0 s :=
  ⟨rfl, rfl, rfl, Tried.refl c _⟩

/-- A search leaves the table as it is. -/
theorem findCseSeed_keeps {s : SecState} {q : Status × SecState}
    (h : secHcFindCseSeed env s = some q) : q.2.seeds = s.seeds ∧ q.2.seedNo = s.seedNo := by
  rcases exists_first (Stops env s) s.seedNo with ⟨k, hk, hs, hon⟩ | hon
  · obtain ⟨-, hnone, hsome⟩ := findLoop_stops s.seedNo
      (searching_start env.crypto s) (Nat.zero_le k) (by omega) (fun j _ => hon j) hs
    by_cases hx : s.seedAt k = none
    · rw [secHcFindCseSeed, hnone hx] at h
      cases h
    · obtain ⟨q', hq', -, hseeds, hno⟩ := hsome hx
      cases hq'.symm.trans h
      exact ⟨hseeds, hno⟩
  · obtain ⟨-, q', hq', -, hseeds, hno⟩ := findLoop_runs_out s.seedNo
      (searching_start env.crypto s) fun j _ hj => hon j (by omega)
    cases hq'.symm.trans h
    exact ⟨hseeds, hno⟩

/-! ### The slots -/

/-- How many of the slots are filled. -/
def filledNo (seeds : Fin 4 → Option Seed) : ℕ := ∑ i, (seeds i).isSome.toNat

theorem filledNo_eq (r : Fin 4 → Option Seed) :
    filledNo r =
      (r 0).isSome.toNat + (r 1).isSome.toNat + (r 2).isSome.toNat + (r 3).isSome.toNat :=
  Fin.sum_univ_four fun i => (r i).isSome.toNat

theorem slot_cases (i : Fin 4) : i = 0 ∨ i = 1 ∨ i = 2 ∨ i = 3 := by
  revert i
  decide

/-- A free slot is filled. -/
theorem filledNo_update {r : Fin 4 → Option Seed} {idx : Fin 4} (h : r idx = none) (seed : Seed) :
    filledNo (Function.update r idx (some seed)) = filledNo r + 1 := by
  rw [filledNo_eq, filledNo_eq]
  obtain rfl | rfl | rfl | rfl := slot_cases idx
  all_goals
    simp [Function.update, h]
    try omega

theorem filledNo_le (r : Fin 4 → Option Seed) : filledNo r ≤ 4 := by
  have h0 := Bool.toNat_le (r 0).isSome
  have h1 := Bool.toNat_le (r 1).isSome
  have h2 := Bool.toNat_le (r 2).isSome
  have h3 := Bool.toNat_le (r 3).isSome
  rw [filledNo_eq]
  omega

/-- Slots that are free from one on bound the number. -/
theorem filledNo_le_of_empty {r : Fin 4 → Option Seed} {i : Fin 4} (h : ∀ j, i ≤ j → r j = none) :
    filledNo r ≤ i.val := by
  have h0 := Bool.toNat_le (r 0).isSome
  have h1 := Bool.toNat_le (r 1).isSome
  have h2 := Bool.toNat_le (r 2).isSome
  rw [filledNo_eq]
  obtain rfl | rfl | rfl | rfl := slot_cases i
  · simp [h 0 (by decide), h 1 (by decide), h 2 (by decide), h 3 (by decide)]
  · simpa [h 1 (by decide), h 2 (by decide), h 3 (by decide)] using h0
  · simp only [h 2 (by decide), h 3 (by decide), Option.isSome_none, Bool.toNat_false, Nat.add_zero]
    exact Nat.add_le_add h0 h1
  · simp only [h 3 (by decide), Option.isSome_none, Bool.toNat_false, Nat.add_zero]
    exact Nat.add_le_add (Nat.add_le_add h0 h1) h2

/-- If there are no gaps, the slots below the number are filled. -/
theorem filled_of_lt {r : Fin 4 → Option Seed} (h : ∀ i, r i ≠ none → ∀ j < i, r j ≠ none)
    {i : Fin 4} (hi : i.val < filledNo r) : r i ≠ none := by
  intro hn
  refine absurd (filledNo_le_of_empty fun j hij => ?_) (Nat.not_le.2 hi)
  by_contra hj
  rcases Nat.eq_or_lt_of_le hij with heq | hlt
  · exact hj (Fin.ext heq ▸ hn)
  · exact h j hj i hlt hn

theorem holds_split (o : Option ℕ) (p : Prop) [Decidable p] (id : ℕ) :
    holds (if p then o else none) id + holds (if p then none else o) id = holds o id := by
  by_cases h : p <;> simp [h, holds]

theorem holders_split (block : Fin 4 → Option ℕ) (p : Fin 4 → Prop) [DecidablePred p] (id : ℕ) :
    holders (fun i => if p i then block i else none) id +
      holders (fun i => if p i then none else block i) id = holders block id := by
  unfold holders
  rw [← Finset.sum_add_distrib]
  exact Finset.sum_congr rfl fun i _ => holds_split (block i) (p i) id

/-- A slot that was free takes a new block. -/
theorem holders_update {block : Fin 4 → Option ℕ} {idx : Fin 4} (h : block idx = none) (n id : ℕ) :
    holders (Function.update block idx (some n)) id = holders block id + holds (some n) id := by
  unfold holders
  rw [Fin.sum_univ_four, Fin.sum_univ_four]
  have hnone : holds none id = 0 := rfl
  obtain rfl | rfl | rfl | rfl := slot_cases idx
  all_goals
    simp only [Function.update, h, hnone]
    simp
    try omega

/-! ### The invariant -/

/-- **Every seed is freed or held by one slot**, a slot has the seed that was received for it, and
the table counts at most the slots that are filled. -/
structure SeedInv (x : SeedSys) : Prop where
  filled : ∀ i, x.block i = none ↔ x.s.seeds i = none
  received : ∀ i seed, x.s.seeds i = some seed → x.received i = some seed
  number : x.s.seedNo ≤ filledNo x.s.seeds
  counted : ∀ id, x.frees id + holders x.block id = if id < x.next then 1 else 0

theorem seedInv_boot {x : SeedSys} (h : SeedBoot x) : SeedInv x where
  filled i := by simp [h.block, h.seeds]
  received i seed hs := by simp [h.seeds] at hs
  number := by
    rw [h.seedNo]
    exact Nat.zero_le _
  counted id := by
    rw [h.frees, h.block, h.next]
    rfl

/-- A seed that is sent does not touch what a filled slot has received. -/
theorem SeedInv.receive {x : SeedSys} (hi : SeedInv x) (src : ℕ → UInt8) (idx : Fin 4)
    (dataLen : ℕ) {i : Fin 4} {seed : Seed} (hs : x.s.seeds i = some seed) :
    x.receive src idx dataLen i = some seed := by
  unfold SeedSys.receive
  split
  · rename_i hfree
    rw [Function.update_of_ne (by rintro rfl; rw [hs] at hfree; exact nomatch hfree.2)]
    exact hi.received i seed hs
  · exact hi.received i seed hs

/-- A seed that is sent: it is stored, or the table stays as it is. -/
theorem seedInv_processCseSeed {x x' : SeedSys} {src : ℕ → UInt8} {idx : Fin 4} {dataLen : ℕ}
    (hi : SeedInv x) (h : seedStep env (.processCseSeed src idx dataLen) x = some x') :
    SeedInv x' := by
  obtain rfl := Option.some.inj h
  rcases processCseSeed_eq env src idx dataLen x.s with ⟨hf, -, he⟩ | ⟨-, -, he⟩ | ⟨-, he⟩
  · rw [he]
    simp only [if_true]
    have hblock : x.block idx = none := (hi.filled idx).2 hf.2
    refine ⟨fun i => ?_, fun i seed hs => ?_, ?_, fun id => ?_⟩
    · simp only
      by_cases heq : i = idx
      · subst heq
        simp
      · rw [Function.update_of_ne heq, Function.update_of_ne heq]
        exact hi.filled i
    · simp only at hs ⊢
      by_cases heq : i = idx
      · subst heq
        rw [SeedSys.receive, if_pos hf, Function.update_self]
        rwa [Function.update_self] at hs
      · rw [Function.update_of_ne heq] at hs
        exact hi.receive src idx dataLen hs
    · simp only
      rw [filledNo_update hf.2]
      exact Nat.succ_le_succ hi.number
    · have hc := hi.counted id
      simp only
      rw [holders_update hblock, ← Nat.add_assoc, hc]
      unfold holds
      rcases Nat.lt_trichotomy id x.next with hlt | rfl | hgt
      · rw [if_pos hlt, if_neg (by simp; omega), if_pos (by omega)]
      · simp
      · rw [if_neg (by omega), if_neg (by simp; omega), if_neg (by omega)]
  · simp only [he, reduceCtorEq, if_false]
    exact ⟨hi.filled, fun i seed hs => hi.receive src idx dataLen hs, hi.number, hi.counted⟩
  · simp only [he, reduceCtorEq, if_false]
    exact ⟨hi.filled, fun i seed hs => hi.receive src idx dataLen hs, hi.number, hi.counted⟩

/-- The seeds are released. -/
theorem seedInv_relCseSeed (env : Env) {x x' : SeedSys} (hi : SeedInv x)
    (h : seedStep env .relCseSeed x = some x') : SeedInv x' := by
  obtain rfl := Option.some.inj h
  refine ⟨fun i => ?_, fun i seed hs => ?_, Nat.zero_le _, fun id => ?_⟩
  · simp only [secHcRelCseSeed]
    by_cases hlt : i.val < x.s.seedNo
    · rw [if_pos hlt, if_pos hlt]
      exact iff_of_true rfl rfl
    · rw [if_neg hlt, if_neg hlt]
      exact hi.filled i
  · -- what is left in a slot stays received
    simp only at hs ⊢
    rw [if_neg (by rw [hs]; exact Option.some_ne_none seed)]
    simp only [secHcRelCseSeed] at hs
    by_cases hlt : i.val < x.s.seedNo
    · rw [if_pos hlt] at hs
      exact nomatch hs
    · rw [if_neg hlt] at hs
      exact hi.received i seed hs
  · have hc := hi.counted id
    have hs := holders_split x.block (fun i => i.val < x.s.seedNo) id
    simp only
    omega

/-- **Every call keeps the invariant.** -/
theorem seedInv_step {x x' : SeedSys} {l : SeedCall} (hi : SeedInv x)
    (h : seedStep env l x = some x') : SeedInv x' := by
  cases l with
  | processCseSeed src idx dataLen => exact seedInv_processCseSeed hi h
  | findCseSeed =>
      obtain ⟨q, hq, rfl⟩ := Option.map_eq_some_iff.1 h
      obtain ⟨hseeds, hno⟩ := findCseSeed_keeps hq
      refine ⟨fun i => ?_, fun i seed hs => ?_, ?_, hi.counted⟩
      · simp only [hseeds]
        exact hi.filled i
      · simp only [hseeds] at hs
        exact hi.received i seed hs
      · simp only [hseeds, hno]
        exact hi.number
  | relCseSeed => exact seedInv_relCseSeed env hi h
  | other f =>
      obtain rfl := Option.some.inj h
      exact ⟨hi.filled, hi.received, hi.number, hi.counted⟩

/-! ### When a call keeps its promise -/

theorem seedAt_val (s : SecState) (i : Fin 4) : s.seedAt i.val = s.seeds i := dif_pos i.isLt

/-- A search goes on behind a filled slot whose seed, as it was received, does not hit. -/
theorem not_stops {x : SeedSys} (hi : SeedInv x) {j : Fin 4} (hf : x.s.seeds j ≠ none)
    (hn : ¬ x.hits env j) : ¬ Stops env x.s j.val := by
  intro hs
  obtain ⟨seed, hseed⟩ := Option.ne_none_iff_exists'.1 hf
  exact hn ⟨seed, hi.received j seed hseed, (hs seed ((seedAt_val _ j).trans hseed)).2⟩

/-- It ends at a filled slot whose seed hits, if there is memory for the trial. -/
theorem stops_of_hit {x : SeedSys} (hi : SeedInv x) {i : Fin 4} (hhit : x.hits env i)
    (hheap : env.kHeapAlloc (x.s.allocs + i.val) = true) : Stops env x.s i.val := by
  intro seed hseed
  obtain ⟨seed', hseed', hdec⟩ := hhit
  have hsame := hi.received i seed ((seedAt_val _ i).symm.trans hseed)
  cases hsame.symm.trans hseed'
  exact ⟨hheap, hdec⟩

/-- A slot below a first hit that is received has to be tried as well. -/
theorem SeedSys.toTry.below {x : SeedSys} {i j : Fin 4} (h : x.toTry env i) (hj : j < i)
    (hr : x.received j ≠ none) : x.toTry env j :=
  ⟨hr, fun _ hk => h.2 _ (hk.trans hj)⟩

/-- A search that comes to a slot whose seed decrypts: it tries the slots up to this one. -/
theorem findOk_of_hit {x : SeedSys} (hi : SeedInv x) {i : Fin 4} (hhit : x.hits env i)
    (htry : x.toTry env i) (hcond : SeedCond env x .findCseSeed) : FindOk env x := by
  obtain ⟨hfill, hno, hbelow⟩ := hcond.1 i htry
  have hheap := hcond.2 i htry hhit
  obtain ⟨ht, -, hsome⟩ := findLoop_stops x.s.seedNo (searching_start env.crypto x.s)
    (Nat.zero_le i.val) (by omega) (fun j _ hj => not_stops (j := ⟨j, by omega⟩) hi
      (hcond.1 _ (htry.below hj (hbelow _ hj))).1 (htry.2 _ hj)) (stops_of_hit hi hhit hheap)
  obtain ⟨q, hq, hsuc, -⟩ := hsome (by rwa [seedAt_val])
  refine ⟨q, hq, iff_of_true hsuc ⟨i, hhit⟩, ?_, fun k => ?_⟩
  · rw [ht]
    exact List.pairwise_lt_range'
  · rw [ht, List.mem_range'_1]
    constructor
    · intro hk
      refine ⟨⟨k, by omega⟩, rfl, ?_⟩
      rcases Nat.eq_or_lt_of_le (show k ≤ i.val by omega) with rfl | hlt
      · exact htry
      · exact htry.below hlt (hbelow _ hlt)
    · rintro ⟨j, rfl, hj⟩
      refine ⟨Nat.zero_le _, ?_⟩
      by_contra hlt
      exact hj.2 i (by omega) hhit

/-- A search without such a slot: it tries all received slots, which are the first ones. -/
theorem findOk_of_miss {x : SeedSys} (hi : SeedInv x) (hmiss : ∀ i, ¬ x.hits env i)
    (hcond : SeedCond env x .findCseSeed) : FindOk env x := by
  have htry : ∀ i, x.received i ≠ none → x.toTry env i := fun i hr => ⟨hr, fun j _ => hmiss j⟩
  have hrec : ∀ i, x.s.seeds i ≠ none → x.received i ≠ none := fun i hs => by
    obtain ⟨seed, hseed⟩ := Option.ne_none_iff_exists'.1 hs
    rw [hi.received i seed hseed]
    exact Option.some_ne_none seed
  -- the filled slots are the received ones, and the first ones
  have hfill : ∀ i : Fin 4, i.val < x.s.seedNo → x.s.seeds i ≠ none := fun i hlt =>
    filled_of_lt (fun i hs j hj => (hcond.1 j (htry j
      ((hcond.1 i (htry i (hrec i hs))).2.2 j hj))).1) (hlt.trans_le hi.number)
  have hle : x.s.seedNo ≤ 4 := hi.number.trans (filledNo_le _)
  obtain ⟨ht, q, hq, hfail, -⟩ := findLoop_runs_out x.s.seedNo
    (searching_start env.crypto x.s) fun j _ hj =>
      not_stops (j := ⟨j, by omega⟩) hi (hfill _ (by simpa using hj)) (hmiss _)
  refine ⟨q, hq, iff_of_false (by rw [hfail]; decide) fun ⟨i, hh⟩ => hmiss i hh, ?_, fun k => ?_⟩
  · rw [ht]
    exact List.pairwise_lt_range'
  · rw [ht, List.mem_range'_1]
    constructor
    · intro hk
      exact ⟨⟨k, by omega⟩, rfl, htry _ (hrec _ (hfill _ (by simpa using hk.2)))⟩
    · rintro ⟨j, rfl, hj⟩
      refine ⟨Nat.zero_le _, ?_⟩
      rw [Nat.zero_add]
      exact (hcond.1 j hj).2.1

/-- **A search that keeps its promise.** -/
theorem findOk_of_cond {x : SeedSys} (hi : SeedInv x) (h : SeedCond env x .findCseSeed) :
    FindOk env x := by
  by_cases hany : ∃ i, x.hits env i
  · -- the first received slot that hits
    obtain ⟨i, hhit, hfirst⟩ := exists_least_slot hany
    obtain ⟨seed, hseed, -⟩ := id hhit
    exact findOk_of_hit hi hhit ⟨by rw [hseed]; exact Option.some_ne_none seed, hfirst⟩ h
  · exact findOk_of_miss hi (fun i hh => hany ⟨i, hh⟩) h

/-- **How a search ends**: it tries the first slots, as many as the table counts at most, and fails
unless it has tried a slot at which it ends, and none behind it. -/
theorem findTried_cases (env : Env) (s : SecState) :
    ∃ t ≤ s.seedNo, findTried env s.seedNo 0 s = List.range' 0 t ∧
      ((∃ k, t = k + 1 ∧ Stops env s k ∧ (∀ j < k, ¬ Stops env s j) ∧
          (s.seedAt k = none → secHcFindCseSeed env s = none)) ∨
        (∀ j < t, ¬ Stops env s j) ∧ ∃ q, secHcFindCseSeed env s = some q ∧ q.1 = .failed) := by
  rcases exists_first (Stops env s) s.seedNo with ⟨k, hk, hs, hon⟩ | hon
  · obtain ⟨ht, hnone, -⟩ := findLoop_stops s.seedNo (searching_start env.crypto s)
      (Nat.zero_le k) (by omega) (fun j _ => hon j) hs
    exact ⟨k + 1, hk, ht, .inl ⟨k, rfl, hs, hon, hnone⟩⟩
  · obtain ⟨ht, q, hq, hfail, -⟩ := findLoop_runs_out s.seedNo (searching_start env.crypto s)
      fun j _ hj => hon j (by omega)
    exact ⟨s.seedNo, le_rfl, ht, .inr ⟨hon, q, hq, hfail⟩⟩

/-- **A search that breaks its promise**, by a gap, a slot that is not counted, or a trial without
memory. -/
theorem cond_of_findOk {x : SeedSys} (h : FindOk env x) :
    SeedCond env x .findCseSeed := by
  obtain ⟨q, hq, hsuc, -, hmem⟩ := h
  obtain ⟨t, htno, ht, hend⟩ := findTried_cases env x.s
  have htried : ∀ k, k < t ↔ ∃ i : Fin 4, i.val = k ∧ x.toTry env i := fun k => by
    rw [← hmem k, ht, List.mem_range'_1]
    omega
  have hlt : ∀ i, x.toTry env i → i.val < t := fun i htry => (htried _).2 ⟨i, rfl, htry⟩
  have hback : ∀ j : Fin 4, j.val < t → x.toTry env j := fun j hj => by
    obtain ⟨j', hj', htry'⟩ := (htried _).1 hj
    exact Fin.ext hj' ▸ htry'
  have hfill : ∀ i, x.toTry env i → x.s.seeds i ≠ none := fun i htry hnull => by
    -- a slot that is `NULL` ends the search, and with it the client
    have hs : Stops env x.s i.val := fun seed hseed => by
      rw [seedAt_val, hnull] at hseed
      exact nomatch hseed
    rcases hend with ⟨k, rfl, -, hon, hnone⟩ | ⟨hon, -⟩
    · rcases Nat.lt_succ_iff_lt_or_eq.1 (hlt i htry) with hik | rfl
      · exact hon _ hik hs
      · rw [hnone ((seedAt_val _ i).trans hnull)] at hq
        exact nomatch hq
    · exact hon _ (hlt i htry) hs
  refine ⟨fun i htry => ⟨hfill i htry, (hlt i htry).trans_le htno, fun j hj =>
    (hback j (lt_trans (Fin.lt_def.1 hj) (hlt i htry))).1⟩, fun i htry hhit => ?_⟩
  by_contra hheap
  obtain ⟨seed, hseed⟩ := Option.ne_none_iff_exists'.1 (hfill i htry)
  have hgo : ¬ Stops env x.s i.val := fun hs =>
    hheap (hs seed ((seedAt_val _ i).trans hseed)).1
  rcases hend with ⟨k, rfl, hs, -, -⟩ | ⟨-, q', hq', hfail⟩
  · -- the search has gone on behind the slot that hits
    have hik : i.val ≠ k := fun heq => hgo (heq ▸ hs)
    obtain ⟨k', hk', htry'⟩ := (htried k).1 (Nat.lt_succ_self k)
    exact htry'.2 i (Fin.lt_def.2 (by have := hlt i htry; omega)) hhit
  · cases hq'.symm.trans hq
    exact absurd (hfail.symm.trans (hsuc.2 ⟨i, hhit⟩)) (by decide)

/-- **A release keeps its promise** if no slot is filled that is not below the count. -/
theorem relOk_iff {x : SeedSys} (hi : SeedInv x) :
    RelOk env x ↔ SeedCond env x .relCseSeed := by
  constructor
  · rintro ⟨x', hx', hnone, -⟩ i hi'
    obtain rfl := Option.some.inj hx'
    by_contra hlt
    have hsame := hnone i
    simp only [secHcRelCseSeed, if_neg hlt] at hsame
    exact hi' hsame
  · intro h
    have hnone : ∀ i, (secHcRelCseSeed x.s).seeds i = none := by
      intro i
      simp only [secHcRelCseSeed]
      by_cases hlt : i.val < x.s.seedNo
      · rw [if_pos hlt]
      · rw [if_neg hlt]
        by_contra hne
        exact hlt (h i hne)
    refine ⟨_, rfl, hnone, fun id hid => ?_, rfl⟩
    have hinv := seedInv_relCseSeed env hi rfl
    have hc := hinv.counted id
    rw [if_pos hid] at hc
    have hblock : ∀ i : Fin 4, (if i.val < x.s.seedNo then none else x.block i) = none :=
      fun i => (hinv.filled i).2 (hnone i)
    have hzero : holders (fun i => if i.val < x.s.seedNo then none else x.block i) id = 0 := by
      refine Finset.sum_eq_zero fun i _ => ?_
      exact congrArg (fun o => holds o id) (hblock i)
    change _ + holders (fun i => if i.val < x.s.seedNo then none else x.block i) id = 1 at hc
    rw [hzero] at hc
    exact hc

/-- **When a call keeps its promise**, in every run. -/
theorem seedOk_iff (env : Env) {x : SeedSys}
    (h : Lts.Reach SeedBoot (seedStep env) Lts.Free x) (l : SeedCall) :
    SeedOk env x l ↔ SeedCond env x l := by
  have hi : SeedInv x := h.invariant (fun _ => seedInv_boot) fun _ _ _ hi _ => seedInv_step hi
  cases l with
  | findCseSeed => exact ⟨cond_of_findOk, findOk_of_cond hi⟩
  | relCseSeed => exact relOk_iff hi
  | processCseSeed src idx dataLen => exact Iff.rfl
  | other f => exact Iff.rfl

/-! ### The first seed, and the second one alone -/

/-- The table after the start. -/
def emptyTable : SeedSys :=
  ⟨freshState plainCrypto, fun _ => none, fun _ => none, 0, fun _ => 0⟩

theorem seedBoot_emptyTable : SeedBoot emptyTable := ⟨rfl, rfl, rfl, rfl, rfl, rfl⟩

/-- The table after one seed was received. -/
def oneSeed (idx : Fin 4) : SeedSys where
  s := { freshState plainCrypto with
    seeds := Function.update (fun _ => none) idx (some (Seed.read fun _ => 0))
    seedNo := 1
    allocs := 1 }
  block := Function.update (fun _ => none) idx (some 0)
  received := Function.update (fun _ => none) idx (some (Seed.read fun _ => 0))
  next := 1
  frees := fun _ => 0

theorem reach_oneSeed (idx : Fin 4) :
    Lts.Reach SeedBoot (seedStep plainEnv) Lts.Free (oneSeed idx) :=
  .step (.init seedBoot_emptyTable) trivial
    (show seedStep plainEnv (.processCseSeed (fun _ => 0) idx 32) emptyTable = _ from rfl)

/-- The first seed alone is released. -/
theorem seedOk_oneSeed : SeedOk plainEnv (oneSeed 0) .relCseSeed := by
  refine (seedOk_iff plainEnv (reach_oneSeed 0) .relCseSeed).2 fun i hi => ?_
  by_contra hlt
  have hne : i ≠ 0 := by
    rintro rfl
    exact hlt Nat.one_pos
  refine hi ?_
  simp only [oneSeed]
  exact Function.update_of_ne hne _ _

/-- **The second seed alone**: the search reads through `NULL`. -/
theorem not_seedOk_secondSeed : ¬ ∀ (env : Env) (x : SeedSys),
    Lts.Reach SeedBoot (seedStep env) Lts.Free x → ∀ l, SeedOk env x l := by
  intro h
  obtain ⟨q, hq, -⟩ := h plainEnv (oneSeed 1) (reach_oneSeed 1) .findCseSeed
  have hnone : secHcFindCseSeed plainEnv (oneSeed 1).s = none := rfl
  rw [hnone] at hq
  cases hq

end PseFw.Sec
