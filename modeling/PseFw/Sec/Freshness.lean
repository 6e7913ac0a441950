/-
**Keys and vectors of the encryptions.**

AES-GCM must never be used twice with the same key and vector.  A provisioning request draws a new
salt, from which the keys of the four credentials are derived, and a new vector for each of them.
`sec_hc_gen_random_num` seeds a generator and draws from it.  The result of the seeding is
overwritten by that of the drawing; a failure to draw the salt is only logged, and leaves a salt of
zeros; a failure to draw a vector is overwritten by the result of `mbedtls_gcm_setkey`, and leaves
the vector of before; and when there is no entropy, the vector is zero.

The encryptions are recorded here, with what they were given.  When no draw fails, no key is ever
used twice.

Main definitions:

* `Encryption`, `encryption` — the call of `mbedtls_gcm_crypt_and_tag` an encryption comes to;
* `requestLog` — the calls of one request;
* `FreshSys`, `freshStep` — the client with the calls so far;
* `Generated`, `FreshKeys` — values that were really drawn, and the property;
* `FreshDiscipline` — no draw of a provisioning request fails.

Main results:

* `encryptData_success_iff` — an encryption succeeds when the recorded call does;
* `Sealings.encrypt` — one encryption more;
* `freshInv_step` — one request more;
* `fresh_of_disciplined` — **no pair of key and vector is used twice** when no draw fails.
-/

import PseFw.Lib.Transition
import PseFw.Sec.Integrity
import PseFw.Sec.Handling

set_option relaxedAutoImplicit false
set_option autoImplicit false

namespace PseFw.Sec

open Mem

/-! ### The calls of the cipher -/

/-- A call of `mbedtls_gcm_crypt_and_tag`, with the salt its key was derived from. -/
structure Encryption where
  salt : List UInt8
  key : List UInt8
  iv : List UInt8
  plain : List UInt8
  deriving DecidableEq, Repr

variable (env : Env)

/-- The call `sec_hc_encrypt_data` comes to, if it comes to one. -/
def encryption (cr : Cred) (s : SecState) : Option Encryption :=
  if env.kHeapAlloc s.allocs = false then none
  else
    let r := secHcHkdfKeyGen env cr.label cr.key s.ctx
    if r.1 ≠ .success then none
    else
      let s' := encryptIv env cr { s with ctx := r.2, allocs := s.allocs + 1 }
      if env.crypto.gcmSetkey (get s'.ctx cr.key) = false then none
      else some
        { salt := fillBuffer secPseSaltLen (secIntGetHkdf32bPseSalt env.crypto s.ctx)
          key := get s'.ctx cr.key
          iv := get s'.ctx cr.iv
          plain := fillBuffer cr.bufLen (cr.getter env.crypto r.2) }

/-- The calls of one step of `encryptAll`. -/
def encryptLog (cr : Cred) (r : Status × SecState) : List Encryption :=
  if r.1 = .success then (encryption env cr r.2).toList else []

/-- The calls of `encryptAll`. -/
def encryptAllLog (r : Status × SecState) : List Encryption :=
  let r₁ := andThen r (secHcEncryptData env .tok)
  let r₂ := andThen r₁ (secHcEncryptData env .dev)
  let r₃ := andThen r₂ (secHcEncryptData env .mqttId)
  encryptLog env .tok r ++ encryptLog env .dev r₁ ++ encryptLog env .mqttId r₂ ++
    encryptLog env .cldHash r₃

/-- The calls of `provision`. -/
def provisionLog (s : SecState) : List Encryption :=
  ((secHcSetPrefCseSeed 0 (secHcPseSetSalt env s)).map (encryptAllLog env)).getD []

/-- The calls of the part of a command behind its TLVs: only provisioning encrypts. -/
def afterDataLog (cmd : Command) (msgComp : ℕ) (s : SecState) : List Encryption :=
  match cmd with
  | .provInitOob => if msgComp ≠ 1 then [] else provisionLog env (s.reply .provInitOob)
  | .rprovReq => provisionLog env { s.reply .rprovReq with seedUpdated := false }
  | _ => []

/-- The calls of a request. -/
def requestLog (rx : ℕ → UInt8) (s : SecState) : List Encryption :=
  if env.kMalloc = false then []
  else ((Command.ofCode (cmdHdr rx).command).bind fun cmd =>
    (parsed env cmd rx s).map fun q => afterDataLog env cmd (cmdHdr rx).msgComp q.2.2).getD []

/-! ### The system -/

/-- The client, with the calls of the cipher so far. -/
structure FreshSys where
  s : SecState
  log : List Encryption

/-- `SEC_HC_PROV_INIT_OOB` or `SEC_HC_RPROV_REQ`. -/
def isProvisioning (rx : ℕ → UInt8) : Bool :=
  Command.ofCode (cmdHdr rx).command = some .provInitOob ∨
    Command.ofCode (cmdHdr rx).command = some .rprovReq

/-- One request. -/
def freshStep (rx : ℕ → UInt8) (x : FreshSys) : Option FreshSys :=
  if isProvisioning rx = true then
    (secHcProcessCmd env rx x.s).map fun s' => ⟨s', x.log ++ requestLog env rx x.s⟩
  else none

/-- The client after `sec_hc_init`, at a start. -/
structure FreshInit (x : FreshSys) : Prop where
  ctx : ∃ m, x.s.ctx = secIntInitContext env.crypto m
  log : x.log = []

variable (seeded : ℕ → Bool)

/-- The value was really drawn by a call of `sec_hc_gen_random_num`: the generator was seeded, and
the call succeeded.  The code looks at the second result only. -/
def Generated (i n : ℕ) (l : List UInt8) : Prop := seeded i = true ∧ env.random i n = some l

/-- What is drawn is new. -/
def DrawsFresh : Prop :=
  ∀ i j n l, 0 < n → Generated env seeded i n l → Generated env seeded j n l → i = j

/-- Different salts, seeds or labels give different keys. -/
def Crypto.HkdfInjective (c : Crypto) : Prop :=
  ∀ salt fuse label salt' fuse' label' key, c.hkdf salt fuse label = some key →
    c.hkdf salt' fuse' label' = some key → salt = salt' ∧ fuse = fuse' ∧ label = label'

/-- **No pair of key and vector for two texts, and no salt or vector that was not drawn.** -/
structure FreshKeys (x : FreshSys) : Prop where
  distinct : x.log.Pairwise fun e e' => e.plain ≠ e'.plain → ¬(e.key = e'.key ∧ e.iv = e'.iv)
  drawn : ∀ e ∈ x.log, (∃ i, Generated env seeded i secPseSaltLen e.salt) ∧
    ∃ i, Generated env seeded i secEncIvSize e.iv

/-- The request is complete, and has the memory to be handled. -/
def provisions (rx : ℕ → UInt8) : Bool :=
  env.kMalloc && (Command.ofCode (cmdHdr rx).command = some .rprovReq ∨
    (Command.ofCode (cmdHdr rx).command = some .provInitOob ∧ (cmdHdr rx).msgComp = 1))

/-- A draw of so many bytes succeeds. -/
def drawn (i n : ℕ) : Bool := seeded i && (env.random i n).isSome

/-- **No draw fails**: the salt is drawn, there is entropy, and the four vectors are drawn. -/
def FreshDiscipline (x : FreshSys) (rx : ℕ → UInt8) : Prop :=
  provisions env rx = true → drawn env seeded x.s.rands secPseSaltLen = true ∧
    ∀ k < 4, env.entropyState (x.s.rands + 1 + k) = true ∧
      drawn env seeded (x.s.rands + 1 + k) secEncIvSize = true

variable {env seeded}

/-! ### One encryption -/

/-- The encryption, by the key it is done with. -/
theorem encryptData_eq (cr : Cred) {s : SecState} (ha : env.kHeapAlloc s.allocs = true)
    (hk : (secHcHkdfKeyGen env cr.label cr.key s.ctx).1 = .success) :
    secHcEncryptData env cr s = secHcEncryptDataOnce env cr
      (fillBuffer cr.bufLen
        (cr.getter env.crypto (secHcHkdfKeyGen env cr.label cr.key s.ctx).2))
      { s with
        ctx := (secHcHkdfKeyGen env cr.label cr.key s.ctx).2
        allocs := s.allocs + 1 } := by
  unfold secHcEncryptData
  rw [if_neg (by rw [ha]; decide)]
  generalize secHcHkdfKeyGen env cr.label cr.key s.ctx = r at hk ⊢
  obtain ⟨st, m⟩ := r
  cases hk
  rfl

theorem encryption_eq (cr : Cred) {s : SecState} (ha : env.kHeapAlloc s.allocs = true)
    (hk : (secHcHkdfKeyGen env cr.label cr.key s.ctx).1 = .success) :
    encryption env cr s =
      if env.crypto.gcmSetkey (get (encryptIv env cr { s with
        ctx := (secHcHkdfKeyGen env cr.label cr.key s.ctx).2
        allocs := s.allocs + 1 }).ctx cr.key) = false then none
      else some
        { salt := fillBuffer secPseSaltLen (secIntGetHkdf32bPseSalt env.crypto s.ctx)
          key := get (encryptIv env cr { s with
            ctx := (secHcHkdfKeyGen env cr.label cr.key s.ctx).2
            allocs := s.allocs + 1 }).ctx cr.key
          iv := get (encryptIv env cr { s with
            ctx := (secHcHkdfKeyGen env cr.label cr.key s.ctx).2
            allocs := s.allocs + 1 }).ctx cr.iv
          plain := fillBuffer cr.bufLen
            (cr.getter env.crypto (secHcHkdfKeyGen env cr.label cr.key s.ctx).2) } := by
  unfold encryption
  rw [if_neg (by rw [ha]; decide)]
  simp only
  rw [if_neg (not_not_intro hk)]

theorem hkdfKeyGen_failed {label : List UInt8} {keyField : Field} {m : Ctx}
    (h : (secHcHkdfKeyGen env label keyField m).1 ≠ .success) :
    (secHcHkdfKeyGen env label keyField m).2 = m := by
  unfold secHcHkdfKeyGen at h ⊢
  split
  · rfl
  · rename_i fuse hfuse
    simp only [hfuse] at h
    simp only
    split
    · rfl
    · rename_i key hkey
      simp only [hkey] at h
      exact absurd rfl h

/-- Without a key nothing is encrypted. -/
theorem encryptData_no_key (cr : Cred) {s : SecState}
    (h : env.kHeapAlloc s.allocs = false ∨
      (secHcHkdfKeyGen env cr.label cr.key s.ctx).1 ≠ .success) :
    (secHcEncryptData env cr s).1 ≠ .success ∧ encryption env cr s = none ∧
      (secHcEncryptData env cr s).2 = { s with allocs := s.allocs + 1 } := by
  unfold secHcEncryptData encryption
  cases ha : env.kHeapAlloc s.allocs with
  | false => exact ⟨by simp, if_pos rfl, rfl⟩
  | true =>
      have hk := h.resolve_left (by rw [ha]; decide)
      have hm := hkdfKeyGen_failed hk
      generalize secHcHkdfKeyGen env cr.label cr.key s.ctx = r at hk hm ⊢
      obtain ⟨st, m⟩ := r
      cases hm
      simp only [ne_eq] at hk
      simp only [Bool.true_eq_false, if_false, if_pos hk]
      cases st with
      | success => exact absurd rfl hk
      | _ => simp

/-- Either there is no key, or the key is the one of the salt and the fuse. -/
theorem encryptData_key_cases (cr : Cred) {s : SecState} {salt fuse : List UInt8}
    (hk : Keyed env.crypto salt fuse s.ctx) :
    (env.kHeapAlloc s.allocs = false ∨
      (secHcHkdfKeyGen env cr.label cr.key s.ctx).1 ≠ .success) ∨
    ∃ key, env.kHeapAlloc s.allocs = true ∧ env.crypto.hkdf salt fuse cr.label = some key ∧
      secHcHkdfKeyGen env cr.label cr.key s.ctx = (.success, put s.ctx cr.key key) := by
  cases ha : env.kHeapAlloc s.allocs with
  | false => exact Or.inl (Or.inl rfl)
  | true =>
      rw [hkdfKeyGen_eq hk]
      cases hkdf : env.crypto.hkdf salt fuse cr.label with
      | none => exact Or.inl (Or.inr (by simp))
      | some key => exact Or.inr ⟨key, rfl, rfl, rfl⟩

theorem encryptIv_rands (cr : Cred) (s : SecState) : (encryptIv env cr s).rands =
    if env.entropyState s.rands = true then s.rands + 1 else s.rands := by
  unfold encryptIv
  split <;> rfl

theorem encryptDataOnce_rands (cr : Cred) (clearText : List UInt8) (s : SecState) :
    (secHcEncryptDataOnce env cr clearText s).2.rands = (encryptIv env cr s).rands := by
  unfold secHcEncryptDataOnce
  simp only
  split
  · rfl
  · split <;> rfl

/-- An encryption draws at most once, and exactly once when there is entropy and it succeeds. -/
theorem encryptData_rands (cr : Cred) (s : SecState) :
    s.rands ≤ (secHcEncryptData env cr s).2.rands ∧
      ((secHcEncryptData env cr s).1 = .success → env.entropyState s.rands = true →
        (secHcEncryptData env cr s).2.rands = s.rands + 1) := by
  by_cases h : env.kHeapAlloc s.allocs = false ∨
      (secHcHkdfKeyGen env cr.label cr.key s.ctx).1 ≠ .success
  · obtain ⟨hne, -, hr⟩ := encryptData_no_key cr h
    rw [hr]
    exact ⟨le_rfl, fun hs => absurd hs hne⟩
  · rw [not_or, Bool.not_eq_false, not_not] at h
    rw [encryptData_eq cr h.1 h.2, encryptDataOnce_rands, encryptIv_rands]
    constructor
    · split
      · exact Nat.le_succ _
      · exact le_rfl
    · intro _ he
      exact if_pos he

/-- **The record is right**: an encryption succeeds when the call it is recorded with does. -/
theorem encryptData_success_iff (cr : Cred) (s : SecState) :
    (secHcEncryptData env cr s).1 = .success ↔ ∃ e c, encryption env cr s = some e ∧
      env.crypto.gcmCryptAndTag e.key e.iv e.plain = some c := by
  by_cases h : env.kHeapAlloc s.allocs = false ∨
      (secHcHkdfKeyGen env cr.label cr.key s.ctx).1 ≠ .success
  · obtain ⟨hne, hnone, -⟩ := encryptData_no_key cr h
    rw [hnone]
    exact iff_of_false hne fun ⟨e, c, he, _⟩ => nomatch he
  · rw [not_or, Bool.not_eq_false, not_not] at h
    rw [encryptData_eq cr h.1 h.2, encryption_eq cr h.1 h.2]
    unfold secHcEncryptDataOnce
    simp only
    generalize secHcHkdfKeyGen env cr.label cr.key s.ctx = r
    have hlen := length_fillBuffer cr.bufLen (cr.getter env.crypto r.2)
    generalize fillBuffer cr.bufLen (cr.getter env.crypto r.2) = plain at hlen ⊢
    generalize encryptIv env cr { s with ctx := r.2, allocs := s.allocs + 1 } = s'
    obtain ⟨-, -, hiv, hkey⟩ := @Cred.get_putSealed cr (List.replicate plain.length 0)
      (List.replicate secEncTagSize 0) (by rw [List.length_replicate, hlen])
      List.length_replicate s'.ctx
    rw [hiv, hkey]
    by_cases hset : env.crypto.gcmSetkey (get s'.ctx cr.key) = false
    · rw [if_pos hset, if_pos hset]
      exact iff_of_false (by simp) fun ⟨e, c, he, _⟩ => nomatch he
    · rw [if_neg hset, if_neg hset]
      cases hc : env.crypto.gcmCryptAndTag (get s'.ctx cr.key) (get s'.ctx cr.iv) plain with
      | none =>
          refine iff_of_false (by simp) ?_
          rintro ⟨e, c, he, hc'⟩
          cases he
          rw [hc] at hc'
          cases hc'
      | some c => exact iff_of_true rfl ⟨_, c, rfl, hc⟩

/-- An encryption leaves the salt and the fuse. -/
theorem encryptData_keyed (cr : Cred) {s : SecState} {salt fuse : List UInt8}
    (hk : Keyed env.crypto salt fuse s.ctx) :
    Keyed env.crypto salt fuse (secHcEncryptData env cr s).2.ctx := by
  rcases encryptData_key_cases cr hk with h | ⟨key, ha, hkdf, hgen⟩
  · rw [(encryptData_no_key cr h).2.2]
    exact hk
  · have hkl : key.length = cr.key.size :=
      (env.crypto.length_hkdf _ _ _ _ hkdf).trans cr.sizes.2.2.2.symm
    rw [encryptData_eq cr ha (by rw [hgen]), hgen]
    have h0 : Confined env.crypto [cr.key] s
        { s with ctx := put s.ctx cr.key key, allocs := s.allocs + 1 } :=
      confined_put (cr.behind (Or.inl rfl)) (le_of_eq hkl) rfl
        ⟨⟨rfl, rfl, rfl, rfl⟩, rfl, rfl, rfl⟩
    obtain ⟨h1, -⟩ := @encryptDataOnce_spec env cr _ (length_fillBuffer cr.bufLen
      (cr.getter env.crypto (put s.ctx cr.key key)))
      { s with ctx := put s.ctx cr.key key, allocs := s.allocs + 1 }
    have h2 := (h0.mono (show [cr.key] ⊆ cr.key :: cr.sealedFields by simp)).trans
      (h1.mono (by simp))
    exact hk.of_unchanged (h2.verified hk.verified) h2.unchanged cr.key_not_keyed

/-- **What an encryption is done with**: the salt, a key of the salt, and a drawn vector. -/
theorem encryption_spec {cr : Cred} {s : SecState} {salt fuse : List UInt8} {e : Encryption}
    (hk : Keyed env.crypto salt fuse s.ctx) (he : encryption env cr s = some e) :
    e.salt = salt ∧ env.crypto.hkdf salt fuse cr.label = some e.key ∧
      (env.entropyState s.rands = true → ∀ iv, env.random s.rands secEncIvSize = some iv →
        e.iv = iv) := by
  rcases encryptData_key_cases cr hk with h | ⟨key, ha, hkdf, hgen⟩
  · rw [(encryptData_no_key cr h).2.1] at he
    cases he
  · have hkl : key.length = cr.key.size :=
      (env.crypto.length_hkdf _ _ _ _ hkdf).trans cr.sizes.2.2.2.symm
    have hsalt : salt.length = secPseSaltLen := by
      rw [← hk.salt]
      exact length_get _ _
    have hkey := (@encryptIv_confined env cr
      { s with ctx := put s.ctx cr.key key, allocs := s.allocs + 1 }).unchanged cr.key
      (fun hm => cr.fields_ne.1 (List.mem_cons_of_mem _ (List.mem_cons.2
        (Or.inl (List.mem_singleton.1 hm)))))
    rw [encryption_eq cr ha (by rw [hgen]), hgen] at he
    split at he
    · cases he
    · cases he
      refine ⟨?_, ?_, fun hent iv hiv => ?_⟩
      · simp only
        rw [getSalt_of_keyed hk, fillBuffer, padTo_of_length hsalt]
      · simp only
        rw [hkey, get_put_self hkl]
        exact hkdf
      · unfold encryptIv
        simp only
        rw [if_pos hent, hiv]
        simp only [Option.map_some, Option.getD_some]
        rw [get_put_self ((env.length_random _ _ _ hiv).trans cr.sizes.2.1.symm)]

/-! ### The four encryptions of a request -/

theorem Cred.label_inj {cr cr' : Cred} (h : cr.label = cr'.label) : cr = cr' := by
  revert h
  cases cr <;> cases cr' <;> decide

variable (env seeded) in
/-- So many encryptions of a request were tried: what they were done with. -/
structure Sealings (salt fuse : List UInt8) (n : ℕ) (tried : List Cred) (r : Status × SecState)
    (log : List Encryption) : Prop where
  keyed : Keyed env.crypto salt fuse r.2.ctx
  rands_le : n ≤ r.2.rands
  rands : r.1 = .success → r.2.rands = n + tried.length
  key : ∀ e ∈ log, e.salt = salt ∧ ∃ cr ∈ tried, env.crypto.hkdf salt fuse cr.label = some e.key
  iv : ∀ e ∈ log, ∃ i, Generated env seeded i secEncIvSize e.iv
  distinct : log.Pairwise fun e e' => e.key ≠ e'.key

/-- **One encryption more.**  The vector is the next value of the generator, and the key is a new
one, as the label is. -/
theorem Sealings.encrypt {salt fuse : List UInt8} {n : ℕ} {tried : List Cred}
    {r : Status × SecState} {log : List Encryption} (hinj : env.crypto.HkdfInjective)
    (hdraw : ∀ k < 4, env.entropyState (n + k) = true ∧
      drawn env seeded (n + k) secEncIvSize = true)
    (h : Sealings env seeded salt fuse n tried r log) {cr : Cred} (hcr : cr ∉ tried)
    (hlen : tried.length < 4) :
    Sealings env seeded salt fuse n (cr :: tried) (andThen r (secHcEncryptData env cr))
      (log ++ encryptLog env cr r) := by
  have hold : ∀ e ∈ log, e.salt = salt ∧ ∃ cr' ∈ cr :: tried,
      env.crypto.hkdf salt fuse cr'.label = some e.key := by
    intro e he
    obtain ⟨hs, cr', hcr', hk⟩ := h.key e he
    exact ⟨hs, cr', List.mem_cons_of_mem _ hcr', hk⟩
  unfold andThen encryptLog
  by_cases hs : r.1 = .success
  · rw [if_pos hs, if_pos hs]
    obtain ⟨hent, hd⟩ := hdraw _ hlen
    rw [← h.rands hs] at hent hd
    unfold drawn at hd
    rw [Bool.and_eq_true, Option.isSome_iff_exists] at hd
    obtain ⟨hseed, iv, hiv⟩ := hd
    obtain ⟨hle, hone⟩ := @encryptData_rands env cr r.2
    have hnew : ∀ e ∈ (encryption env cr r.2).toList, e.salt = salt ∧
        env.crypto.hkdf salt fuse cr.label = some e.key ∧ e.iv = iv := by
      intro e he
      obtain ⟨h1, h2, h3⟩ := encryption_spec h.keyed (Option.mem_toList.1 he)
      exact ⟨h1, h2, h3 hent iv hiv⟩
    refine ⟨encryptData_keyed cr h.keyed, h.rands_le.trans hle, fun hsucc => ?_, fun e he => ?_,
      fun e he => ?_, ?_⟩
    · rw [hone hsucc hent, h.rands hs, List.length_cons, Nat.add_assoc]
    · rcases List.mem_append.1 he with he | he
      · exact hold e he
      · obtain ⟨h1, h2, -⟩ := hnew e he
        exact ⟨h1, cr, List.mem_cons_self, h2⟩
    · rcases List.mem_append.1 he with he | he
      · exact h.iv e he
      · obtain ⟨-, -, h3⟩ := hnew e he
        exact ⟨r.2.rands, hseed, h3 ▸ hiv⟩
    · refine List.pairwise_append.2 ⟨h.distinct, ?_, fun e he e' he' heq => ?_⟩
      · cases encryption env cr r.2 with
        | none => exact List.Pairwise.nil
        | some e => exact List.pairwise_singleton _ _
      · obtain ⟨-, cr', hcr', hk⟩ := h.key e he
        obtain ⟨-, hk', -⟩ := hnew e' he'
        rw [← heq] at hk'
        obtain ⟨-, -, hlab⟩ := hinj _ _ _ _ _ _ _ hk hk'
        exact hcr (Cred.label_inj hlab ▸ hcr')
  · rw [if_neg hs, if_neg hs, List.append_nil]
    exact ⟨h.keyed, h.rands_le, fun hc => absurd hc hs, hold, h.iv, h.distinct⟩

/-- The salt that was drawn is in place, and the seed. -/
theorem keyed_of_drawn {s : SecState} {q : Status × SecState} {salt : List UInt8}
    (hv : Verified env.crypto s.ctx) (hsalt : env.random s.rands secPseSaltLen = some salt)
    (hq : secHcSetPrefCseSeed 0 (secHcPseSetSalt env s) = some q) :
    ∃ fuse, Keyed env.crypto salt fuse q.2.ctx ∧ q.2.rands = s.rands + 1 := by
  have hlen := env.length_random _ _ _ hsalt
  obtain ⟨hc, hsl⟩ := pseSetSalt_spec hv
  have hput : get (secHcPseSetSalt env s).ctx .hkdf32bPseSalt = salt := by
    unfold secHcPseSetSalt secIntSetHkdf32bPseSalt
    simp only
    rw [hsalt, Option.getD_some, setParam_of_verified _ hv, get_update_ne (by decide),
      secIntSetContextParam, get_putWord_ne rfl (by decide), get_put_self hlen]
  obtain ⟨x, hx, -⟩ := Option.map_eq_some_iff.1 hq
  unfold SecState.seedAt at hx
  rw [dif_pos (by decide)] at hx
  obtain ⟨s', hs', hc', hf, hfl⟩ := setPrefCseSeed_spec env.crypto hx
  obtain ⟨x', -, hrands⟩ := Option.map_eq_some_iff.1 hq
  rw [hs', Option.some.injEq] at hq
  subst hq
  refine ⟨x.val, ⟨hc'.verified (hc.verified hv), ?_, ?_, hf, hfl⟩, ?_⟩
  · rw [hc'.unchanged _ (by decide), hput]
  · rw [hc'.unchanged _ (by decide), hsl]
  · rw [← hrands]
    rfl

theorem rands_responseDataOnce (t : DataType) (pos : ℕ) (data : List UInt8) (s : SecState) :
    (secHcResponseDataOnce env t pos data s).2.rands = s.rands := by
  unfold secHcResponseDataOnce secHcCreateCmdData
  rw [if_neg (Nat.not_lt_zero _)]

theorem rands_responseCred (cr : Cred) (s : SecState) :
    (responseCred env cr s).2.rands = s.rands := by
  unfold responseCred
  refine andThen_same SecState.rands (rands_responseDataOnce _ _ _ s) fun s₁ => ?_
  refine andThen_same SecState.rands (rands_responseDataOnce _ _ _ s₁) fun s₂ => ?_
  simp only
  split <;> exact rands_responseDataOnce _ _ _ s₂

/-- A response draws nothing. -/
theorem rands_responseAll (s : SecState) : (responseAll env s).2.rands = s.rands := by
  have h0 : (responsePseSalt env s).2.rands = s.rands := rands_responseDataOnce _ _ _ s
  have h1 := andThen_same SecState.rands h0 (@rands_responseCred env .tok)
  have h2 := andThen_same SecState.rands h1 (@rands_responseCred env .dev)
  have h3 := andThen_same SecState.rands h2 (@rands_responseCred env .mqttId)
  exact andThen_same SecState.rands h3 (rands_responseCred .cldHash)

@[simp] theorem sendResponse_rands (s : SecState) : (sendResponse s).rands = s.rands := rfl

variable (env seeded) in
/-- The encryptions of one provisioning: what they were done with, and what was drawn for them. -/
structure SealedWith (n : ℕ) (salt fuse : List UInt8) (log : List Encryption) : Prop where
  generated : Generated env seeded n secPseSaltLen salt
  key : ∀ e ∈ log, e.salt = salt ∧ ∃ cr : Cred, env.crypto.hkdf salt fuse cr.label = some e.key
  iv : ∀ e ∈ log, ∃ i, Generated env seeded i secEncIvSize e.iv
  distinct : log.Pairwise fun e e' => e.key ≠ e'.key

/-- **A provisioning without a failing draw.** -/
theorem provision_fresh {s s' : SecState} (hinj : env.crypto.HkdfInjective)
    (hv : Verified env.crypto s.ctx) (hd : drawn env seeded s.rands secPseSaltLen = true)
    (hdraw : ∀ k < 4, env.entropyState (s.rands + 1 + k) = true ∧
      drawn env seeded (s.rands + 1 + k) secEncIvSize = true)
    (h : provision env s = some s') :
    Verified env.crypto s'.ctx ∧ s.rands < s'.rands ∧
      ∃ salt fuse, SealedWith env seeded s.rands salt fuse (provisionLog env s) := by
  unfold drawn at hd
  rw [Bool.and_eq_true, Option.isSome_iff_exists] at hd
  obtain ⟨hseed, salt, hsalt⟩ := hd
  rw [provision_eq] at h
  obtain ⟨r, hr, rfl⟩ := Option.map_eq_some_iff.1 h
  obtain ⟨q, hq, rfl⟩ := Option.map_eq_some_iff.1 hr
  obtain ⟨fuse, hkeyed, hrands⟩ := keyed_of_drawn hv hsalt hq
  have h0 : Sealings env seeded salt fuse (s.rands + 1) [] q [] :=
    ⟨hkeyed, le_of_eq hrands.symm, fun _ => hrands, fun _ he => absurd he List.not_mem_nil,
      fun _ he => absurd he List.not_mem_nil, List.Pairwise.nil⟩
  have h1 := h0.encrypt hinj hdraw (show Cred.tok ∉ [] by decide) (by decide)
  have h2 := h1.encrypt hinj hdraw (show Cred.dev ∉ [Cred.tok] by decide) (by decide)
  have h3 := h2.encrypt hinj hdraw (show Cred.mqttId ∉ [Cred.dev, .tok] by decide) (by decide)
  have h4 := h3.encrypt hinj hdraw (show Cred.cldHash ∉ [Cred.mqttId, .dev, .tok] by decide)
    (by decide)
  have hlog : provisionLog env s = encryptAllLog env q := by
    unfold provisionLog
    rw [hq]
    rfl
  have hall : Sealings env seeded salt fuse (s.rands + 1) [.cldHash, .mqttId, .dev, .tok]
      (encryptAll env q) (encryptAllLog env q) := h4
  rw [hlog]
  refine ⟨?_, ?_, salt, fuse, ⟨hseed, hsalt⟩, fun e he => ?_, hall.iv, hall.distinct⟩
  · split
    · exact hall.keyed.verified
    · rw [sendResponse_ctx, (composes_responseAll env _ le_rfl).2.2.2]
      exact hall.keyed.verified
  · have hle := hall.rands_le
    split
    · exact hle
    · rw [sendResponse_rands, rands_responseAll]
      exact hle
  · obtain ⟨hs, cr, -, hk⟩ := hall.key e he
    exact ⟨hs, cr, hk⟩

/-! ### Runs -/

theorem rands_storeTlv (t : DataType) (src : ℕ → UInt8) (dataLen : ℕ) (s : SecState) :
    (storeTlv env t src dataLen s).2.rands = s.rands := by
  rw [storeTlv_eq]
  cases t.target with
  | param f lenField | simple f | enc f =>
      simp only
      split <;> rfl
  | seed idx =>
      simp only
      split
      · split <;> rfl
      · rfl
  | unsupported => rfl

theorem rands_processCmdDataOnce (rx : ℕ → UInt8) (pos : ℕ) (s : SecState) :
    (secHcProcessCmdDataOnce env rx pos s).2.rands = s.rands := by
  unfold secHcProcessCmdDataOnce
  split
  · rfl
  · split
    · rfl
    · exact rands_storeTlv _ _ _ s

/-- The TLVs of a request keep the hash right, and draw nothing. -/
theorem parsed_quiet {cmd : Command} {rx : ℕ → UInt8} {s : SecState}
    {q : List Visit × Status × SecState} (hv : Verified env.crypto s.ctx)
    (h : parsed env cmd rx s = some q) :
    Verified env.crypto q.2.2.ctx ∧ q.2.2.rands = s.rands := by
  refine parsed_invariant (P := fun s' => Verified env.crypto s'.ctx ∧ s'.rands = s.rands) ?_
    ⟨hv, rfl⟩ h
  rintro pos s' ⟨hv', hr⟩
  exact ⟨(verified_processCmdDataOnce env rx pos s').2 hv',
    (rands_processCmdDataOnce rx pos s').trans hr⟩

variable (env seeded) in
/-- **The invariant**: every key was derived from a salt that was drawn for its request, and no
two keys are the same. -/
structure FreshInv (x : FreshSys) : Prop where
  verified : Verified env.crypto x.s.ctx
  key : ∀ e ∈ x.log, ∃ i < x.s.rands, Generated env seeded i secPseSaltLen e.salt ∧
    ∃ (cr : Cred) (fuse : List UInt8), env.crypto.hkdf e.salt fuse cr.label = some e.key
  iv : ∀ e ∈ x.log, ∃ i, Generated env seeded i secEncIvSize e.iv
  distinct : x.log.Pairwise fun e e' => e.key ≠ e'.key

theorem freshInv_init {x : FreshSys} (h : FreshInit env x) : FreshInv env seeded x := by
  obtain ⟨⟨m, hm⟩, hlog⟩ := h
  refine ⟨?_, ?_, ?_, ?_⟩
  · rw [hm]
    exact verified_init m
  all_goals simp [hlog]

/-- A request that encrypts nothing. -/
theorem FreshInv.idle {x : FreshSys} (h : FreshInv env seeded x) {s' : SecState}
    (hv : Verified env.crypto s'.ctx) (hr : s'.rands = x.s.rands) :
    FreshInv env seeded ⟨s', x.log ++ []⟩ := by
  rw [List.append_nil]
  refine ⟨hv, fun e he => ?_, h.iv, h.distinct⟩
  obtain ⟨i, hi, hk⟩ := h.key e he
  exact ⟨i, hi.trans_eq hr.symm, hk⟩

/-- A provisioning with a new salt: none of its keys was used before. -/
theorem FreshInv.provisioned {x : FreshSys} (h : FreshInv env seeded x)
    (hinj : env.crypto.HkdfInjective) (hfresh : DrawsFresh env seeded) {s' : SecState}
    {salt fuse : List UInt8} {log : List Encryption} (hv : Verified env.crypto s'.ctx)
    (hr : x.s.rands < s'.rands) (hp : SealedWith env seeded x.s.rands salt fuse log) :
    FreshInv env seeded ⟨s', x.log ++ log⟩ := by
  refine ⟨hv, fun e he => ?_, fun e he => ?_, List.pairwise_append.2 ⟨h.distinct, hp.distinct, ?_⟩⟩
  · rcases List.mem_append.1 he with he | he
    · obtain ⟨i, hi, hk⟩ := h.key e he
      exact ⟨i, hi.trans hr, hk⟩
    · obtain ⟨hs, cr, hk⟩ := hp.key e he
      rw [hs]
      exact ⟨x.s.rands, hr, hp.generated, cr, fuse, hk⟩
  · rcases List.mem_append.1 he with he | he
    · exact h.iv e he
    · exact hp.iv e he
  · intro e he e' he' heq
    obtain ⟨i, hi, hgen, cr, fuse', hk⟩ := h.key e he
    obtain ⟨-, cr', hk'⟩ := hp.key e' he'
    rw [← heq] at hk'
    obtain ⟨hsalt, -, -⟩ := hinj _ _ _ _ _ _ _ hk hk'
    rw [hsalt] at hgen
    exact absurd (hfresh _ _ _ _ (by decide) hgen hp.generated) (Nat.ne_of_lt hi)

/-- The calls of a request, behind its TLVs. -/
theorem requestLog_eq {rx : ℕ → UInt8} {cmd : Command} {s : SecState}
    {q : List Visit × Status × SecState} (hm : env.kMalloc = true)
    (hc : Command.ofCode (cmdHdr rx).command = some cmd) (hq : parsed env cmd rx s = some q) :
    requestLog env rx s = afterDataLog env cmd (cmdHdr rx).msgComp q.2.2 := by
  unfold requestLog
  rw [if_neg (by rw [hm]; decide), hc, Option.bind_some, hq]
  rfl

/-- **One request more.** -/
theorem freshInv_step (hinj : env.crypto.HkdfInjective) (hfresh : DrawsFresh env seeded)
    {x x' : FreshSys} {rx : ℕ → UInt8} (h : FreshInv env seeded x)
    (hc : FreshDiscipline env seeded x rx) (hst : freshStep env rx x = some x') :
    FreshInv env seeded x' := by
  unfold freshStep at hst
  split at hst
  · rename_i hprov
    obtain ⟨s', hs', rfl⟩ := Option.map_eq_some_iff.1 hst
    cases hm : env.kMalloc with
    | false =>
        have hlog : requestLog env rx x.s = [] := if_pos hm
        rw [processCmd_no_memory hm, Option.some.injEq] at hs'
        rw [hlog, ← hs']
        exact h.idle h.verified rfl
    | true =>
        have hcmd : Command.ofCode (cmdHdr rx).command = some .provInitOob ∨
            Command.ofCode (cmdHdr rx).command = some .rprovReq := of_decide_eq_true hprov
        -- what a provisioning leaves, in the client behind the TLVs
        have hrun : ∀ {s : SecState}, Verified env.crypto s.ctx → s.rands = x.s.rands →
            provisions env rx = true → provision env s = some s' →
            FreshInv env seeded ⟨s', x.log ++ provisionLog env s⟩ := by
          intro s hv hr hp hs'
          obtain ⟨hd, hdraw⟩ := hc hp
          rw [← hr] at hd hdraw
          obtain ⟨hv', hlt, salt, fuse, hprovd⟩ := provision_fresh hinj hv hd hdraw hs'
          rw [hr] at hlt hprovd
          exact h.provisioned hinj hfresh hv' hlt hprovd
        rcases hcmd with hcmd | hcmd
        · rw [processCmd_eq hm hcmd] at hs'
          obtain ⟨q, hq, hs'⟩ := Option.bind_eq_some_iff.1 hs'
          obtain ⟨hv, hr⟩ := parsed_quiet h.verified hq
          rw [requestLog_eq hm hcmd hq]
          simp only [afterData, afterDataLog] at hs' ⊢
          split at hs'
          · rename_i hpart
            rw [if_pos hpart]
            cases hs'
            exact h.idle hv hr
          · rename_i hpart
            rw [if_neg hpart]
            refine hrun (s := q.2.2.reply .provInitOob) hv hr ?_ hs'
            simp [provisions, hm, hcmd, not_not.1 hpart]
        · rw [processCmd_eq hm hcmd] at hs'
          obtain ⟨q, hq, hs'⟩ := Option.bind_eq_some_iff.1 hs'
          obtain ⟨hv, hr⟩ := parsed_quiet h.verified hq
          rw [requestLog_eq hm hcmd hq]
          refine hrun (s := { q.2.2.reply .rprovReq with seedUpdated := false }) hv hr ?_ hs'
          simp [provisions, hm, hcmd]
  · cases hst

/-- **When no draw of a provisioning request fails, no pair of key and vector is used for two
texts, and every salt and every vector was drawn.** -/
theorem fresh_of_disciplined (env : Env) (seeded : ℕ → Bool) (hinj : env.crypto.HkdfInjective)
    (hfresh : DrawsFresh env seeded) (x : FreshSys)
    (h : Lts.Reach (FreshInit env) (freshStep env) (FreshDiscipline env seeded) x) :
    FreshKeys env seeded x := by
  have hinv : FreshInv env seeded x :=
    h.invariant (fun _ => freshInv_init) fun _ _ _ => freshInv_step hinj hfresh
  refine ⟨hinv.distinct.imp fun hne _ hsame => hne hsame.1, fun e he => ⟨?_, hinv.iv e he⟩⟩
  obtain ⟨i, -, hgen, -⟩ := hinv.key e he
  exact ⟨i, hgen⟩

/-! ### Two runs -/

/-- The labels of the keys. -/
def credLabels : List (List UInt8) := [Cred.tok, .dev, .mqttId, .cldHash].map Cred.label

/-- A derivation for salts and seeds of one repeated byte: the key begins with these bytes and the
first letter of the label. -/
def constHkdf (salt fuse label : List UInt8) : Option (List UInt8) :=
  if salt = List.replicate secPseSaltLen (salt.headD 0) ∧
      fuse = List.replicate secFuseLen (fuse.headD 0) ∧ label ∈ credLabels then
    some ([salt.headD 0, fuse.headD 0, label.headD 0] ++ List.replicate (secFuseLen - 3) 0)
  else none

/-- `plainCrypto` with keys that differ. -/
def constCrypto : Crypto :=
  { plainCrypto with
    hkdf := constHkdf
    length_hkdf := fun salt fuse label key h => by
      unfold constHkdf at h
      split at h
      · cases h
        rw [List.length_append, List.length_replicate]
        rfl
      · cases h }

theorem credLabels_inj : ∀ l ∈ credLabels, ∀ l' ∈ credLabels, l.headD 0 = l'.headD 0 → l = l' := by
  decide

theorem constCrypto_injective : constCrypto.HkdfInjective := by
  intro salt fuse label salt' fuse' label' key h h'
  replace h : constHkdf salt fuse label = some key := h
  replace h' : constHkdf salt' fuse' label' = some key := h'
  unfold constHkdf at h h'
  split at h
  · rename_i hc
    split at h'
    · rename_i hc'
      obtain ⟨hs, hf, hl⟩ := hc
      obtain ⟨hs', hf', hl'⟩ := hc'
      rw [← h] at h'
      simp only [List.cons_append, List.nil_append, Option.some.injEq, List.cons.injEq,
        and_true] at h'
      obtain ⟨h1, h2, h3⟩ := h'
      rw [h1] at hs'
      rw [h2] at hf'
      exact ⟨hs.trans hs'.symm, hf.trans hf'.symm, credLabels_inj _ hl _ hl' h3.symm⟩
    · cases h'
  · cases h

/-- A generator with a new byte at every call. -/
def countingEnv : Env :=
  { plainEnv with
    crypto := constCrypto
    random := fun i n => if i < 256 then some (List.replicate n (UInt8.ofNat i)) else none
    length_random := fun i n l h => by
      split at h
      · cases h
        exact List.length_replicate
      · cases h }

theorem drawsFresh_countingEnv (seeded : ℕ → Bool) : DrawsFresh countingEnv seeded := by
  rintro i j n l hn ⟨-, hi⟩ ⟨-, hj⟩
  replace hi : (if i < 256 then some (List.replicate n (UInt8.ofNat i)) else none) = some l := hi
  replace hj : (if j < 256 then some (List.replicate n (UInt8.ofNat j)) else none) = some l := hj
  split at hi
  · split at hj
    · rename_i hi' hj'
      rw [← hj, Option.some.injEq, List.replicate_inj] at hi
      have hb := congrArg UInt8.toNat (hi.2.resolve_left (Nat.ne_of_gt hn))
      rw [UInt8.toNat_ofNat_of_lt' hi', UInt8.toNat_ofNat_of_lt' hj'] at hb
      exact hb
    · cases hj
  · cases hi

/-- A generator that fails, no entropy, and a heap with room for a seed and one credential at a
time. -/
def failingEnv : Env :=
  { countingEnv with
    kHeapAlloc := fun i => i < 2 || i == 3
    random := fun _ _ => none
    entropyState := fun _ => false
    length_random := fun _ _ _ h => nomatch h }

/-- `SEC_HC_PROV_INIT_OOB` with the first seed. -/
def provisionSeed : ℕ → UInt8 :=
  message ([0x21, 0x81, 0x02, 0x00, 0x12, 0x24, 0x00, 0x00] ++ List.replicate secCseSeedLen 7)

/-- `SEC_HC_PROV_INIT_OOB` with a token of one letter. -/
def provisionToken : ℕ → UInt8 :=
  message [0x21, 0x91, 0x00, 0x00, 0x05, 0x05, 0x00, 0x00, 0x41]

/-- The client after `sec_hc_init`. -/
def unsealedSys : FreshSys := ⟨freshState constCrypto, []⟩

instance (env : Env) (seeded : ℕ → Bool) (x : FreshSys) (rx : ℕ → UInt8) :
    Decidable (FreshDiscipline env seeded x rx) := inferInstanceAs (Decidable (_ → _))

/-- A provisioning with a working generator. -/
theorem freshKeys_provisioned :
    ∃ x : FreshSys, x.log ≠ [] ∧ FreshKeys countingEnv (fun _ => true) x := by
  have hinit : FreshInit countingEnv unsealedSys := ⟨⟨_, rfl⟩, rfl⟩
  obtain ⟨x, hx, hlog⟩ : ∃ x, Lts.Reach (FreshInit countingEnv) (freshStep countingEnv)
      (FreshDiscipline countingEnv fun _ => true) x ∧ x.log ≠ [] :=
    Lts.exists_reach_guarded hinit [provisionSeed] _ (by decide +kernel)
  exact ⟨x, hlog, fresh_of_disciplined _ _ constCrypto_injective
    (drawsFresh_countingEnv _) x hx⟩

/-- The generator fails: two tokens are encrypted with the same key and the same vector. -/
theorem not_freshKeys_failing : ¬ ∀ (env : Env) (seeded : ℕ → Bool), env.crypto.HkdfInjective →
    DrawsFresh env seeded → ∀ x, Lts.Reach (FreshInit env) (freshStep env) Lts.Free x →
      FreshKeys env seeded x := by
  intro h
  have hinit : FreshInit failingEnv unsealedSys := ⟨⟨_, rfl⟩, rfl⟩
  obtain ⟨x, hx, e, he, e', he', hne, hsame⟩ : ∃ x, Lts.Reach (FreshInit failingEnv)
      (freshStep failingEnv) Lts.Free x ∧ ∃ e ∈ x.log[0]?, ∃ e' ∈ x.log[1]?,
        e.plain ≠ e'.plain ∧ e.key = e'.key ∧ e.iv = e'.iv :=
    Lts.exists_reach hinit [provisionSeed, provisionToken] _ (by decide +kernel)
  have hkeys := h failingEnv (fun _ => true) constCrypto_injective
    (fun _ _ _ _ _ hi => nomatch hi.2) x hx
  obtain ⟨hi, rfl⟩ := List.getElem?_eq_some_iff.1 he
  obtain ⟨hj, rfl⟩ := List.getElem?_eq_some_iff.1 he'
  exact List.pairwise_iff_getElem.1 hkeys.distinct 0 1 hi hj (by decide) hne hsame

end PseFw.Sec
