/-
**Sealing and opening credentials.**

A credential is encrypted with the whole length of its field under a key that is derived from a
salt, the fuse and a label; the data, the vector and the tag go into the response as three TLVs.
With the same salt and fuse it is decrypted again, and stored with the length of its field.

Main definitions:

* `Keyed` — salt and fuse are in place;
* `Cred.Holds` — the context holds a credential, with zeros behind it;
* `Sealed` — the encryption of a credential is in place;
* `Confined` — a step changes at most the fields in a list;
* `Composed`, `Appends` — the response, and a part of it;
* `responseTlvs` — what the receiver takes out of a response.

Main results:

* `Cred.Holds.getter` — the getter hands the credential out;
* `encryptData_sealed`, `decryptData_sealed` — **the two directions**;
* `appends_responseAll` — the response carries the salt and the sealed credentials;
* `sendResponse_spec` — **what the receiver takes out of a response is what was composed**.
-/

import PseFw.Sec.Tlv

set_option relaxedAutoImplicit false
set_option autoImplicit false

namespace PseFw.Sec

open Mem

/-! ### Keys -/

/-- The hash of the context is right, and salt and fuse are in place. -/
structure Keyed (c : Crypto) (salt fuse : List UInt8) (m : Ctx) : Prop where
  verified : Verified c m
  salt : get m .hkdf32bPseSalt = salt
  saltLen : get m .hkdf32bPseSaltLen = leBytes 4 secPseSaltLen
  fuse : get m .pse32bFuse = fuse
  fuseLen : get m .pse32bFuseLen = leBytes 4 secFuseLen

theorem word_of_get {m : Ctx} {f : Field} {n : ℕ} (hf : f.size = 4) (hn : n < 256 ^ 4)
    (h : get m f = leBytes 4 n) : word m f = n := by
  rw [word_eq m hf, h, ofLe_leBytes hn]

variable {env : Env} {salt fuse : List UInt8}

theorem getSalt_of_keyed {c : Crypto} {m : Ctx} (h : Keyed c salt fuse m) :
    secIntGetHkdf32bPseSalt c m = .ok salt := by
  have hw : word m .hkdf32bPseSaltLen = secPseSaltLen := word_of_get rfl (by decide) h.saltLen
  unfold secIntGetHkdf32bPseSalt secIntGetContextParam
  rw [if_neg (not_not_intro hw), verify_eq_success h.verified, hw]
  exact congrArg Except.ok h.salt

theorem getFuse_of_keyed {c : Crypto} {m : Ctx} (h : Keyed c salt fuse m) :
    secIntGetPse32bFuse m secFuseLen = .ok fuse := by
  have hw : word m .pse32bFuseLen = secFuseLen := word_of_get rfl (by decide) h.fuseLen
  unfold secIntGetPse32bFuse secIntGetContextParam
  rw [hw, if_neg (not_not_intro rfl)]
  exact congrArg Except.ok h.fuse

/-- The key of a label is the one of the salt and the fuse. -/
theorem hkdfKeyGen_eq {m : Ctx} (h : Keyed env.crypto salt fuse m) (label : List UInt8)
    (keyField : Field) :
    secHcHkdfKeyGen env label keyField m =
      ((env.crypto.hkdf salt fuse label).map fun key => (Status.success, put m keyField key)).getD
        (.failed, m) := by
  have hlen : salt.length = secPseSaltLen := by
    rw [← h.salt]
    exact length_get _ _
  unfold secHcHkdfKeyGen
  rw [getFuse_of_keyed h, getSalt_of_keyed h]
  simp only [fillBuffer]
  rw [padTo_of_length hlen]
  cases env.crypto.hkdf salt fuse label with
  | none => rfl
  | some key => rfl

/-- The keys only depend on the salt and the fuse. -/
theorem Keyed.of_unchanged {c : Crypto} {m m' : Ctx} {fs : List Field} (h : Keyed c salt fuse m)
    (hv : Verified c m') (hu : Unchanged fs m m')
    (hfs : ∀ f ∈ fs, f ∉ [Field.hkdf32bPseSalt, .hkdf32bPseSaltLen, .pse32bFuse, .pse32bFuseLen]) :
    Keyed c salt fuse m' := by
  have hget : ∀ f ∈ [Field.hkdf32bPseSalt, .hkdf32bPseSaltLen, .pse32bFuse, .pse32bFuseLen],
      get m' f = get m f := fun f hf => hu f fun hm => hfs f hm hf
  exact ⟨hv, (hget _ (by simp)).trans h.salt, (hget _ (by simp)).trans h.saltLen,
    (hget _ (by simp)).trans h.fuse, (hget _ (by simp)).trans h.fuseLen⟩

/-! ### Credentials in the context -/

/-- The field of a credential. -/
def Cred.plain : Cred → Field
  | .tok => .tokId
  | .dev => .devId
  | .mqttId => .mqttClientId
  | .cldHash => .cloudHash

/-- The fields a credential is read from. -/
def Cred.plainFields (cr : Cred) : List Field := [cr.plain, .cloudHashLen]

/-- A value of a credential: a string that is shorter than the field, or a hash. -/
def Cred.Valid : Cred → List UInt8 → Prop
  | .cldHash, v => v.length = secCloudHashLen
  | cr, v => 0 ∉ v ∧ v.length < cr.bufLen

/-- The context holds the credential, with zeros behind it. -/
structure Cred.Holds (cr : Cred) (m : Ctx) (v : List UInt8) : Prop where
  valid : cr.Valid v
  value : get m cr.plain = padTo cr.bufLen v
  length : cr = .cldHash → get m .cloudHashLen = leBytes 4 secCloudHashLen

/-- The getter of a string. -/
theorem getString_of_padded {c : Crypto} {m : Ctx} {f : Field} {v : List UInt8}
    (hv : Verified c m) (h0 : 0 ∉ v) (hl : v.length < f.size)
    (hf : f.offset + f.size ≤ sizeofSecContextWrapper) (h : get m f = padTo f.size v) :
    secIntGetString c f m = .ok v := by
  unfold secIntGetString secIntGetContextParamByLen
  rw [verify_eq_success hv]
  simp only
  rw [cString_padded h0 hl (by omega) h]

/-- **The getter hands the credential out.** -/
theorem Cred.Holds.getter {c : Crypto} {cr : Cred} {m : Ctx} {v : List UInt8}
    (h : cr.Holds m v) (hv : Verified c m) : cr.getter c m = .ok v := by
  cases cr with
  | tok => exact getString_of_padded hv h.valid.1 h.valid.2 (by decide) h.value
  | dev => exact getString_of_padded hv h.valid.1 h.valid.2 (by decide) h.value
  | mqttId => exact getString_of_padded hv h.valid.1 h.valid.2 (by decide) h.value
  | cldHash =>
      have hw : word m .cloudHashLen = secCloudHashLen :=
        word_of_get rfl (by decide) (h.length rfl)
      have hval := h.value
      rw [Cred.bufLen, padTo_of_length h.valid] at hval
      unfold Cred.getter secIntGetCloudHash secIntGetContextParam
      simp only
      rw [if_neg (not_not_intro hw), verify_eq_success hv, hw]
      exact congrArg Except.ok hval

theorem Cred.Holds.of_unchanged {cr : Cred} {m m' : Ctx} {v : List UInt8} {fs : List Field}
    (h : cr.Holds m v) (hu : Unchanged fs m m') (hfs : ∀ f ∈ cr.plainFields, f ∉ fs) :
    cr.Holds m' v where
  valid := h.valid
  value := (hu _ (hfs _ (by simp [Cred.plainFields]))).trans h.value
  length he := (hu _ (hfs _ (by simp [Cred.plainFields]))).trans (h.length he)

/-! ### Encryption -/

/-- The vector, the data and the tag are an encryption under the key of the salt and the fuse. -/
def Sealed (c : Crypto) (salt fuse : List UInt8) (cr : Cred) (clearText : List UInt8) (m : Ctx) :
    Prop :=
  ∃ key, c.hkdf salt fuse cr.label = some key ∧ c.gcmSetkey key = true ∧
    c.gcmCryptAndTag key (get m cr.iv) clearText = some (get m cr.enc, get m cr.tag)

/-- The fields of an encrypted credential. -/
def Cred.sealedFields (cr : Cred) : List Field := [cr.enc, cr.iv, cr.tag]

theorem Sealed.of_unchanged {c : Crypto} {cr : Cred} {clearText : List UInt8} {m m' : Ctx}
    {fs : List Field} (h : Sealed c salt fuse cr clearText m) (hu : Unchanged fs m m')
    (hfs : ∀ f ∈ cr.sealedFields, f ∉ fs) : Sealed c salt fuse cr clearText m' := by
  obtain ⟨key, h1, h2, h3⟩ := h
  refine ⟨key, h1, h2, ?_⟩
  rw [hu _ (hfs cr.iv (by simp [Cred.sealedFields])),
    hu _ (hfs cr.enc (by simp [Cred.sealedFields])),
    hu _ (hfs cr.tag (by simp [Cred.sealedFields]))]
  exact h3

/-- The response, the seeds and the flags are as they were. -/
structure Quiet (s s' : SecState) : Prop extends SameRest s s' where
  seeds : s'.seeds = s.seeds
  seedNo : s'.seedNo = s.seedNo
  seedUpdated : s'.seedUpdated = s.seedUpdated

theorem Quiet.refl (s : SecState) : Quiet s s := ⟨SameRest.refl s, rfl, rfl, rfl⟩

theorem Quiet.trans {s s' s'' : SecState} (h : Quiet s s') (h' : Quiet s' s'') : Quiet s s'' :=
  ⟨h.toSameRest.trans h'.toSameRest, h'.seeds.trans h.seeds, h'.seedNo.trans h.seedNo,
    h'.seedUpdated.trans h.seedUpdated⟩

/-- The fields that are used in an encryption stand behind the hash. -/
theorem Cred.behind (cr : Cred) {f : Field} (h : f = cr.key ∨ f ∈ cr.sealedFields) :
    Field.hash.offset + Field.hash.size ≤ f.offset := by
  cases cr <;> simp only [Cred.key, Cred.sealedFields, Cred.enc, Cred.iv, Cred.tag, List.mem_cons,
    List.not_mem_nil, or_false] at h <;> rcases h with rfl | rfl | rfl | rfl <;> decide

/-- A step that changes at most the fields in the list, and keeps the hash right. -/
structure Confined (c : Crypto) (fs : List Field) (s s' : SecState) : Prop where
  quiet : Quiet s s'
  unchanged : Unchanged fs s.ctx s'.ctx
  verified : Verified c s.ctx → Verified c s'.ctx

theorem Confined.trans {c : Crypto} {fs : List Field} {s s' s'' : SecState}
    (h : Confined c fs s s') (h' : Confined c fs s' s'') : Confined c fs s s'' :=
  ⟨h.quiet.trans h'.quiet, h.unchanged.trans h'.unchanged, fun hv => h'.verified (h.verified hv)⟩

theorem Confined.mono {c : Crypto} {fs fs' : List Field} {s s' : SecState}
    (h : Confined c fs s s') (hs : fs ⊆ fs') : Confined c fs' s s' :=
  ⟨h.quiet, h.unchanged.mono hs, h.verified⟩

/-- A write behind the hash. -/
theorem confined_put {c : Crypto} {s s' : SecState} {f : Field} {l : List UInt8}
    (hf : Field.hash.offset + Field.hash.size ≤ f.offset) (hl : l.length ≤ f.size)
    (hc : s'.ctx = put s.ctx f l) (hq : Quiet s s') : Confined c [f] s s' where
  quiet := hq
  unchanged := by
    rw [hc]
    exact unchanged_put hl
  verified hv := by
    rw [hc]
    exact (verified_put hf).2 hv

theorem Cred.sizes (cr : Cred) : cr.enc.size = cr.bufLen ∧ cr.iv.size = secEncIvSize ∧
    cr.tag.size = secEncTagSize ∧ cr.key.size = secFuseLen := by
  cases cr <;> exact ⟨rfl, rfl, rfl, rfl⟩

theorem encryptIv_confined (cr : Cred) (s : SecState) :
    Confined env.crypto [cr.iv] s (encryptIv env cr s) := by
  have hiv : Field.hash.offset + Field.hash.size ≤ cr.iv.offset :=
    cr.behind (Or.inr (by simp [Cred.sealedFields]))
  unfold encryptIv
  split
  · cases hr : env.random s.rands secEncIvSize with
    | none => exact ⟨⟨⟨rfl, rfl, rfl, rfl⟩, rfl, rfl, rfl⟩, Unchanged.refl _ _, id⟩
    | some iv =>
        refine confined_put hiv ?_ rfl ⟨⟨rfl, rfl, rfl, rfl⟩, rfl, rfl, rfl⟩
        rw [env.length_random _ _ _ hr, cr.sizes.2.1]
  · refine confined_put hiv ?_ rfl ⟨⟨rfl, rfl, rfl, rfl⟩, rfl, rfl, rfl⟩
    rw [List.length_replicate, cr.sizes.2.1]

/-- The fields of one credential are different fields. -/
theorem Cred.fields_ne (cr : Cred) : cr.key ∉ cr.sealedFields ∧ cr.enc ≠ cr.iv ∧ cr.enc ≠ cr.tag ∧
    cr.iv ≠ cr.tag := by
  cases cr <;> decide

theorem Cred.confined_putSealed {c : Crypto} {cr : Cred} {data tag : List UInt8}
    (hd : data.length = cr.bufLen) (ht : tag.length = secEncTagSize) (s : SecState) :
    Confined c cr.sealedFields s { s with ctx := cr.putSealed s.ctx data tag } := by
  obtain ⟨hse, -, hst, -⟩ := cr.sizes
  have h1 : Confined c [cr.enc] s { s with ctx := put s.ctx cr.enc data } :=
    confined_put (cr.behind (Or.inr (by simp [Cred.sealedFields]))) (by omega) rfl
      ⟨⟨rfl, rfl, rfl, rfl⟩, rfl, rfl, rfl⟩
  have h2 : Confined c [cr.tag] { s with ctx := put s.ctx cr.enc data }
      { s with ctx := cr.putSealed s.ctx data tag } :=
    confined_put (cr.behind (Or.inr (by simp [Cred.sealedFields]))) (by omega) rfl
      ⟨⟨rfl, rfl, rfl, rfl⟩, rfl, rfl, rfl⟩
  exact (h1.mono (by simp [Cred.sealedFields])).trans (h2.mono (by simp [Cred.sealedFields]))

theorem Cred.get_putSealed {cr : Cred} {data tag : List UInt8} (hd : data.length = cr.bufLen)
    (ht : tag.length = secEncTagSize) (m : Ctx) :
    get (cr.putSealed m data tag) cr.enc = data ∧ get (cr.putSealed m data tag) cr.tag = tag ∧
      get (cr.putSealed m data tag) cr.iv = get m cr.iv ∧
      get (cr.putSealed m data tag) cr.key = get m cr.key := by
  obtain ⟨hse, -, hst, -⟩ := cr.sizes
  obtain ⟨hnk, hei, het, hit⟩ := cr.fields_ne
  simp only [Cred.sealedFields, List.mem_cons, List.not_mem_nil, or_false, not_or] at hnk
  unfold Cred.putSealed
  refine ⟨?_, get_put_self (by omega), ?_, ?_⟩
  · rw [get_put_ne (by omega) het, get_put_self (by omega)]
  · rw [get_put_ne (by omega) hit, get_put_ne (by omega) hei.symm]
  · rw [get_put_ne (by omega) hnk.2.2, get_put_ne (by omega) hnk.1]

/-- One encryption: what it may change, and what it leaves when it succeeds. -/
theorem encryptDataOnce_spec {cr : Cred} {clearText : List UInt8}
    (hlen : clearText.length = cr.bufLen) (s : SecState) :
    Confined env.crypto cr.sealedFields s (secHcEncryptDataOnce env cr clearText s).2 ∧
      ((secHcEncryptDataOnce env cr clearText s).1 = .success →
        env.crypto.gcmSetkey (get s.ctx cr.key) = true ∧
        env.crypto.gcmCryptAndTag (get s.ctx cr.key)
            (get (secHcEncryptDataOnce env cr clearText s).2.ctx cr.iv) clearText =
          some (get (secHcEncryptDataOnce env cr clearText s).2.ctx cr.enc,
            get (secHcEncryptDataOnce env cr clearText s).2.ctx cr.tag)) := by
  have hiv : Confined env.crypto cr.sealedFields s (encryptIv env cr s) :=
    (encryptIv_confined cr s).mono (by simp [Cred.sealedFields])
  have hkey : get (encryptIv env cr s).ctx cr.key = get s.ctx cr.key :=
    hiv.unchanged _ cr.fields_ne.1
  have hz : (List.replicate clearText.length (0 : UInt8)).length = cr.bufLen := by
    rw [List.length_replicate, hlen]
  have ht : (List.replicate secEncTagSize (0 : UInt8)).length = secEncTagSize :=
    List.length_replicate
  -- the two fields are cleared first, and filled when there is something to fill them with
  have hm := hiv.trans (Cred.confined_putSealed hz ht (encryptIv env cr s))
  obtain ⟨-, -, hmiv, hmkey⟩ := Cred.get_putSealed hz ht (encryptIv env cr s).ctx
  rw [hkey] at hmkey
  unfold secHcEncryptDataOnce
  simp only
  generalize cr.putSealed (encryptIv env cr s).ctx (List.replicate clearText.length 0)
    (List.replicate secEncTagSize 0) = m at hm hmiv hmkey ⊢
  rw [hkey, hmkey, hmiv]
  by_cases hset : env.crypto.gcmSetkey (get s.ctx cr.key) = false
  · rw [if_pos hset]
    exact ⟨hiv, fun h => by cases h⟩
  · rw [if_neg hset]
    cases hc : env.crypto.gcmCryptAndTag (get s.ctx cr.key) (get (encryptIv env cr s).ctx cr.iv)
      clearText with
    | none => exact ⟨hm, fun h => by cases h⟩
    | some q =>
        obtain ⟨hq1, hq2⟩ := env.crypto.length_crypt _ _ _ _ hc
        rw [hlen] at hq1
        obtain ⟨he, htag, hi, -⟩ := Cred.get_putSealed hq1 hq2 m
        refine ⟨hm.trans (Cred.confined_putSealed hq1 hq2 { encryptIv env cr s with ctx := m }),
          fun _ => ⟨by simpa using hset, ?_⟩⟩
        simp only
        rw [he, htag, hi, hmiv]
        exact hc

theorem length_padTo_bufLen (cr : Cred) (v : List UInt8) :
    (padTo cr.bufLen v).length = cr.bufLen := length_padTo _ _

theorem Cred.key_not_keyed (cr : Cred) : ∀ f ∈ cr.key :: cr.sealedFields,
    f ∉ [Field.hkdf32bPseSalt, .hkdf32bPseSaltLen, .pse32bFuse, .pse32bFuseLen] := by
  cases cr <;> decide

theorem Cred.plain_not_sealed (cr cr' : Cred) :
    ∀ f ∈ cr.plainFields, f ∉ cr'.key :: cr'.sealedFields := by
  cases cr <;> cases cr' <;> decide

/-- **Encryption**: what it may change, and what it leaves when it succeeds. -/
theorem encryptData_sealed {cr : Cred} {s : SecState} {v : List UInt8}
    (hheap : ∀ i, env.kHeapAlloc i = true) (hk : Keyed env.crypto salt fuse s.ctx)
    (hv : cr.Holds s.ctx v) :
    Confined env.crypto (cr.key :: cr.sealedFields) s (secHcEncryptData env cr s).2 ∧
      ((secHcEncryptData env cr s).1 = .success →
        Sealed env.crypto salt fuse cr (padTo cr.bufLen v) (secHcEncryptData env cr s).2.ctx) := by
  unfold secHcEncryptData
  rw [if_neg (by rw [hheap]; decide), hkdfKeyGen_eq hk]
  cases hkdf : env.crypto.hkdf salt fuse cr.label with
  | none =>
      exact ⟨⟨⟨⟨rfl, rfl, rfl, rfl⟩, rfl, rfl, rfl⟩, Unchanged.refl _ _, id⟩, fun h => by cases h⟩
  | some key =>
      have hkl : key.length = cr.key.size :=
        (env.crypto.length_hkdf _ _ _ _ hkdf).trans cr.sizes.2.2.2.symm
      have h0 : Confined env.crypto [cr.key] s
          { s with ctx := put s.ctx cr.key key, allocs := s.allocs + 1 } :=
        confined_put (cr.behind (Or.inl rfl)) (le_of_eq hkl) rfl
          ⟨⟨rfl, rfl, rfl, rfl⟩, rfl, rfl, rfl⟩
      have h1 := h0.mono (show [cr.key] ⊆ cr.key :: cr.sealedFields by simp)
      have hget : cr.getter env.crypto (put s.ctx cr.key key) = .ok v :=
        (hv.of_unchanged h1.unchanged (cr.plain_not_sealed cr)).getter (h1.verified hk.verified)
      simp only [Option.map_some, Option.getD_some, hget, fillBuffer]
      obtain ⟨h2, hs⟩ := encryptDataOnce_spec (length_padTo_bufLen cr v)
        { s with ctx := put s.ctx cr.key key, allocs := s.allocs + 1 }
      refine ⟨h1.trans (h2.mono (by simp)), fun h => ?_⟩
      obtain ⟨hset, hcrypt⟩ := hs h
      have hkey : get (put s.ctx cr.key key) cr.key = key := get_put_self hkl
      rw [hkey] at hset hcrypt
      exact ⟨key, hkdf, hset, hcrypt⟩

/-! ### Decryption -/

/-- AES-GCM decrypts what it encrypted under the same key and vector. -/
def Crypto.Inverts (c : Crypto) : Prop :=
  ∀ key iv input out tag, c.gcmCryptAndTag key iv input = some (out, tag) →
    c.gcmAuthDecrypt key iv tag out = some input

/-- The field a decrypted credential goes to, and the one of its length. -/
def Cred.target : Cred → Field × Field
  | .tok => (.tokId, .tokIdLen)
  | .dev => (.devId, .devIdLen)
  | .mqttId => (.mqttClientId, .mqttClientIdLen)
  | .cldHash => (.cloudHashDec, .cloudHashLen)

/-- The fields a decryption may change. -/
def Cred.openedFields (cr : Cred) : List Field := [cr.key, cr.target.1, cr.target.2, .hash]

theorem Cred.setter_eq {c : Crypto} {cr : Cred} {m : Ctx} {data : List UInt8}
    (h : data.length = cr.bufLen) :
    cr.setter c m data = secIntSetParam c cr.target.1 cr.target.2 m data := by
  cases cr with
  | tok | dev | mqttId => rfl
  | cldHash => exact if_neg (not_not_intro h)

theorem Cred.target_sizes (cr : Cred) : cr.target.1.size = cr.bufLen ∧ cr.target.2.size = 4 ∧
    cr.target.1 ≠ cr.target.2 ∧ cr.target.1 ≠ .hash ∧ cr.target.2 ≠ .hash := by
  cases cr <;> decide

theorem Cred.read_enc (cr : Cred) (m : Ctx) : read m cr.enc.offset cr.bufLen = get m cr.enc := by
  cases cr <;> rfl

/-- **Decryption** gives back what was encrypted under the same salt and fuse. -/
theorem decryptData_sealed {cr : Cred} {s : SecState} {clearText : List UInt8}
    (hheap : ∀ i, env.kHeapAlloc i = true) (hinv : env.crypto.Inverts)
    (hk : Keyed env.crypto salt fuse s.ctx) (hlen : clearText.length = cr.bufLen)
    (hs : Sealed env.crypto salt fuse cr clearText s.ctx) :
    (secHcDecryptData env cr s).1 = .success ∧
      Confined env.crypto cr.openedFields s (secHcDecryptData env cr s).2 ∧
      get (secHcDecryptData env cr s).2.ctx cr.target.1 = clearText ∧
      get (secHcDecryptData env cr s).2.ctx cr.target.2 = leBytes 4 cr.bufLen := by
  obtain ⟨key, hkdf, hset, hcrypt⟩ := hs
  obtain ⟨ht1, ht2, htne, hth1, hth2⟩ := cr.target_sizes
  have hkl : key.length = cr.key.size :=
    (env.crypto.length_hkdf _ _ _ _ hkdf).trans cr.sizes.2.2.2.symm
  have h1 : Confined env.crypto [cr.key] s
      { s with ctx := put s.ctx cr.key key, allocs := s.allocs + 1 } :=
    confined_put (cr.behind (Or.inl rfl)) (le_of_eq hkl) rfl ⟨⟨rfl, rfl, rfl, rfl⟩, rfl, rfl, rfl⟩
  have hsame : ∀ f ∈ cr.sealedFields, get (put s.ctx cr.key key) f = get s.ctx f := by
    intro f hf
    refine h1.unchanged f fun hm => cr.fields_ne.1 ?_
    rwa [List.mem_singleton.1 hm] at hf
  have honce : secHcDecryptDataOnce env cr (put s.ctx cr.key key) = some clearText := by
    unfold secHcDecryptDataOnce
    rw [cr.read_enc, get_put_self hkl, if_neg (by rw [hset]; decide),
      hsame _ (by simp [Cred.sealedFields]), hsame _ (by simp [Cred.sealedFields]),
      hsame _ (by simp [Cred.sealedFields])]
    exact hinv _ _ _ _ _ hcrypt
  have hver : Verified env.crypto (put s.ctx cr.key key) := h1.verified hk.verified
  have heq : secHcDecryptData env cr s = (.success, { s with
      ctx := secIntUpdateContextHash env.crypto
        (secIntSetContextParam (put s.ctx cr.key key) cr.target.1 cr.target.2 clearText)
      allocs := s.allocs + 1 }) := by
    unfold secHcDecryptData
    rw [if_neg (by rw [hheap]; decide), hkdfKeyGen_eq hk, hkdf]
    simp only [Option.map_some, Option.getD_some, honce]
    rw [Cred.setter_eq hlen, setParam_of_verified _ hver]
  have hset2 : secIntSetParam env.crypto cr.target.1 cr.target.2 (put s.ctx cr.key key) clearText =
      _ := setParam_of_verified clearText hver
  have hu : Unchanged cr.openedFields (put s.ctx cr.key key) (secIntUpdateContextHash env.crypto
      (secIntSetContextParam (put s.ctx cr.key key) cr.target.1 cr.target.2 clearText)) := by
    have := unchanged_setParam (c := env.crypto) (m := put s.ctx cr.key key) ht2
      (le_of_eq (hlen.trans ht1.symm))
    rw [hset2] at this
    exact this.mono (by simp [Cred.openedFields])
  rw [heq]
  refine ⟨rfl, ⟨⟨⟨rfl, rfl, rfl, rfl⟩, rfl, rfl, rfl⟩,
    (h1.unchanged.mono (by simp [Cred.openedFields])).trans hu, fun _ => verify_update _⟩, ?_, ?_⟩
  · simp only
    rw [get_update_ne hth1, secIntSetContextParam, get_putWord_ne ht2 htne,
      get_put_self (hlen.trans ht1.symm)]
  · simp only
    rw [get_update_ne hth2, secIntSetContextParam, get_putWord_self ht2, hlen]

/-! ### Responses -/

/-- What stands in the transmit buffer behind the header, and how it is counted. -/
structure Composed (s : SecState) (ts : List Tlv) : Prop where
  payload : read s.tx hdrSize (payload ts).length = payload ts
  accum : s.accumComposeLen = hdrSize + (Sec.payload ts).length

/-- Only the response was worked on. -/
structure OnlyTx (s s' : SecState) : Prop where
  ctx : s'.ctx = s.ctx
  seeds : s'.seeds = s.seeds
  seedNo : s'.seedNo = s.seedNo
  seedUpdated : s'.seedUpdated = s.seedUpdated
  sent : s'.sent = s.sent

theorem OnlyTx.trans {s s' s'' : SecState} (h : OnlyTx s s') (h' : OnlyTx s' s'') : OnlyTx s s'' :=
  ⟨h'.ctx.trans h.ctx, h'.seeds.trans h.seeds, h'.seedNo.trans h.seedNo,
    h'.seedUpdated.trans h.seedUpdated, h'.sent.trans h.sent⟩

/-- A TLV is never refused: an unsigned number is not less than zero. -/
theorem responseDataOnce_success (t : DataType) (pos : ℕ) (data : List UInt8) (s : SecState) :
    (secHcResponseDataOnce env t pos data s).1 = .success := by
  unfold secHcResponseDataOnce secHcCreateCmdData
  rw [if_neg (Nat.not_lt_zero _)]

/-- The length of a TLV that is not too long: it goes to the header, and all of the data is
copied. -/
theorem tlvLength_eq {data : List UInt8} (hd : hdrSize + data.length < 2 ^ 12) :
    (hdrSize + data.length) % 2 ^ 12 = hdrSize + data.length ∧
      data.take ((hdrSize + data.length + 2 ^ 32 - hdrSize) % 2 ^ 32) = data := by
  refine ⟨Nat.mod_eq_of_lt hd, List.take_of_length_le ?_⟩
  omega

/-- One more TLV is composed behind the others. -/
theorem responseDataOnce_composed (env : Env) {s : SecState} {ts : List Tlv} {pos : ℕ}
    (h : Composed s ts) (hp : pos = hdrSize + (payload ts).length) (t : DataType)
    {data : List UInt8} (hd : hdrSize + data.length < 2 ^ 12) :
    (secHcResponseDataOnce env t pos data s).1 = .success ∧
      Composed (secHcResponseDataOnce env t pos data s).2 (ts ++ [⟨t, env.rsvd pos, data⟩]) ∧
      (secHcResponseDataOnce env t pos data s).2.composeNext =
        hdrSize + (payload (ts ++ [⟨t, env.rsvd pos, data⟩])).length ∧
      OnlyTx s (secHcResponseDataOnce env t pos data s).2 := by
  have hlen : (payload (ts ++ [⟨t, env.rsvd pos, data⟩])).length =
      (payload ts).length + (hdrSize + data.length) := by
    rw [payload_append, List.length_append, length_payload_cons]
    rfl
  obtain ⟨hmod, htake⟩ := tlvLength_eq hd
  unfold secHcResponseDataOnce secHcCreateCmdData
  rw [hmod, htake, if_neg (Nat.not_lt_zero _)]
  refine ⟨rfl, ⟨?_, ?_⟩, ?_, ⟨rfl, rfl, rfl, rfl, rfl⟩⟩
  · let u : Tlv := ⟨t, env.rsvd pos, data⟩
    have hw : write (write s.tx pos (leBytes 4 (tlvWord t.code (hdrSize + data.length)
        (env.rsvd pos)))) (pos + hdrSize) data = write s.tx pos u.bytes := by
      have := write_append s.tx pos (leBytes 4 (tlvWord t.code (hdrSize + data.length)
        (env.rsvd pos))) data
      rwa [length_leBytes] at this
    have hu : payload [u] = u.bytes := List.append_nil _
    simp only
    rw [hw, payload_append, List.length_append, read_add, ← hp, hu,
      read_write_disjoint _ (Or.inl (le_of_eq hp.symm)), h.payload, read_write_self]
  · simp only
    rw [hlen, h.accum, Nat.add_assoc]
  · simp only
    rw [hlen, hp, Nat.add_assoc]

/-- The TLVs of an encrypted credential. -/
def Cred.contents (cr : Cred) (m : Ctx) : List (DataType × List UInt8) :=
  [(cr.types.1, get m cr.enc), (cr.types.2.1, get m cr.iv), (cr.types.2.2, get m cr.tag)]

/-- A response that is being composed, with the place for the next TLV. -/
structure Composing (s : SecState) (ts : List Tlv) : Prop extends Composed s ts where
  next : s.composeNext = hdrSize + (Sec.payload ts).length

/-- A part of the response: it composes TLVs with contents it takes from the context. -/
def Appends (k : SecState → Status × SecState) (f : Ctx → List (DataType × List UInt8)) : Prop :=
  ∀ s ts, Composing s ts → ∃ new, new.map Tlv.content = f s.ctx ∧ (k s).1 = .success ∧
    Composing (k s).2 (ts ++ new) ∧ OnlyTx s (k s).2

theorem appends_once (env : Env) (t : DataType) (data : Ctx → List UInt8)
    (hd : ∀ m, hdrSize + (data m).length < 2 ^ 12) :
    Appends (fun s => secHcResponseDataOnce env t s.composeNext (data s.ctx) s)
      fun m => [(t, data m)] := by
  intro s ts h
  obtain ⟨h1, h2, h3, h4⟩ := responseDataOnce_composed env h.toComposed h.next t (hd s.ctx)
  exact ⟨[⟨t, env.rsvd s.composeNext, data s.ctx⟩], rfl, h1, ⟨h2, h3⟩, h4⟩

theorem Appends.andThen {k k' : SecState → Status × SecState}
    {f f' : Ctx → List (DataType × List UInt8)} (h : Appends k f) (h' : Appends k' f') :
    Appends (fun s => andThen (k s) k') fun m => f m ++ f' m := by
  intro s ts hc
  obtain ⟨new, hn, hs, hc1, ho⟩ := h s ts hc
  obtain ⟨new', hn', hs', hc2, ho'⟩ := h' _ _ hc1
  refine ⟨new ++ new', ?_, ?_⟩
  · rw [List.map_append, hn, hn', ho.ctx]
  · simp only [Sec.andThen, if_pos hs]
    rw [← List.append_assoc]
    exact ⟨hs', hc2, ho.trans ho'⟩

/-- The result of a part may be dropped. -/
theorem Appends.drop {k : SecState → Status × SecState} {f : Ctx → List (DataType × List UInt8)}
    (h : Appends k f) : Appends (fun s => (.success, (k s).2)) f := by
  intro s ts hc
  obtain ⟨new, hn, -, hc1, ho⟩ := h s ts hc
  exact ⟨new, hn, rfl, hc1, ho⟩

/-- The fields of an encrypted credential are short enough for a TLV. -/
theorem Cred.get_short (cr : Cred) {f : Field} (h : f = cr.enc ∨ f = cr.iv ∨ f = cr.tag) (m : Ctx) :
    hdrSize + (get m f).length < 2 ^ 12 := by
  rw [length_get]
  cases cr <;> rcases h with rfl | rfl | rfl <;> decide

theorem appends_responseCred (env : Env) (cr : Cred) :
    Appends (responseCred env cr) cr.contents := by
  have h1 := appends_once env cr.types.1 (fun m => get m cr.enc) (cr.get_short (Or.inl rfl))
  have h2 := appends_once env cr.types.2.1 (fun m => get m cr.iv)
    (cr.get_short (Or.inr (Or.inl rfl)))
  have h3 := appends_once env cr.types.2.2 (fun m => get m cr.tag)
    (cr.get_short (Or.inr (Or.inr rfl)))
  by_cases hc : cr = .tok
  · have := h1.andThen (h2.andThen h3.drop)
    intro s ts hs
    obtain ⟨new, hn⟩ := this s ts hs
    refine ⟨new, ?_⟩
    unfold responseCred
    simp only [if_pos hc]
    exact hn
  · have := h1.andThen (h2.andThen h3)
    intro s ts hs
    obtain ⟨new, hn⟩ := this s ts hs
    refine ⟨new, ?_⟩
    unfold responseCred
    simp only [if_neg hc]
    exact hn

theorem length_fillBuffer (n : ℕ) (r : Except Status (List UInt8)) :
    (fillBuffer n r).length = n := by
  cases r with
  | ok data => exact length_padTo _ _
  | error e => exact length_padTo _ _

/-- The TLVs of the response to a provisioning request. -/
def sealedContents (c : Crypto) (m : Ctx) : List (DataType × List UInt8) :=
  (((([(DataType.hkdf32bPseSalt, fillBuffer secPseSaltLen (secIntGetHkdf32bPseSalt c m))] ++
    Cred.tok.contents m) ++ Cred.dev.contents m) ++ Cred.mqttId.contents m) ++
    Cred.cldHash.contents m)

theorem appends_responseAll (env : Env) :
    Appends (responseAll env) (sealedContents env.crypto) := by
  have hlen : ∀ m, hdrSize +
      (fillBuffer secPseSaltLen (secIntGetHkdf32bPseSalt env.crypto m)).length < 2 ^ 12 := by
    intro m
    rw [length_fillBuffer]
    decide
  have h0 : Appends (responsePseSalt env) fun m =>
      [(.hkdf32bPseSalt, fillBuffer secPseSaltLen (secIntGetHkdf32bPseSalt env.crypto m))] :=
    appends_once env .hkdf32bPseSalt
      (fun m => fillBuffer secPseSaltLen (secIntGetHkdf32bPseSalt env.crypto m)) hlen
  have h1 := h0.andThen (appends_responseCred env .tok)
  have h2 := h1.andThen (appends_responseCred env .dev)
  have h3 := h2.andThen (appends_responseCred env .mqttId)
  have h4 := h3.andThen (appends_responseCred env .cldHash)
  unfold responseAll sealedContents
  exact h4

@[simp] theorem sendResponse_ctx (s : SecState) : (sendResponse s).ctx = s.ctx := rfl

@[simp] theorem sendResponse_seeds (s : SecState) : (sendResponse s).seeds = s.seeds := rfl

@[simp] theorem sendResponse_seedNo (s : SecState) : (sendResponse s).seedNo = s.seedNo := rfl

/-- The message that is sent: the header with its length, and the buffer behind it. -/
theorem sendResponse_sent (s : SecState) : ∃ w : ℕ, w < 256 ^ 4 ∧
    (CmdHdr.ofWord w).length = s.accumComposeLen % 2 ^ 12 ∧
    (sendResponse s).sent = s.sent ++ [leBytes 4 w ++ read s.tx hdrSize s.accumComposeLen] := by
  let h : CmdHdr := { cmdHdr s.tx with length := s.accumComposeLen }
  refine ⟨h.toWord, h.toWord_lt, ?_, ?_⟩
  · rw [CmdHdr.ofWord_toWord]
  · have hl : (leBytes 4 h.toWord).length = hdrSize := length_leBytes _ _
    have hread : read (write s.tx 0 (leBytes 4 h.toWord)) 0 (hdrSize + s.accumComposeLen) =
        leBytes 4 h.toWord ++ read s.tx hdrSize s.accumComposeLen := by
      have hself := read_write_self s.tx 0 (leBytes 4 h.toWord)
      rw [hl] at hself
      rw [read_add, Nat.zero_add, hself,
        read_write_disjoint (b := hdrSize) _ (Or.inr (by rw [hl, Nat.zero_add]))]
    unfold sendResponse SecState.setTxhdr
    simp only
    rw [hread]

/-- The header of a message is the word it starts with. -/
theorem cmdHdr_message {w : ℕ} (hw : w < 256 ^ 4) (l : List UInt8) :
    cmdHdr (message (leBytes 4 w ++ l)) = CmdHdr.ofWord w := by
  unfold cmdHdr message rxBuffer
  have hr := (read_append (read_write_self (fun _ => (0 : UInt8)) 0 (leBytes 4 w ++ l))).1
  rw [length_leBytes] at hr
  rw [show hdrSize = 4 from rfl, hr, ofLe_leBytes hw]

/-- The TLVs of a response, as its header announces them. -/
def responseTlvs (resp : List UInt8) : Option (List Tlv) :=
  decodeTlvs resp.length ((resp.drop hdrSize).take ((cmdHdr (message resp)).length - hdrSize))

/-- Sending a response: what the receiver takes out of it is what was composed. -/
theorem sendResponse_spec {s : SecState} {ts : List Tlv} (h : Composed s ts)
    (hsz : hdrSize + (payload ts).length < 2 ^ 12) :
    ∃ resp, (sendResponse s).sent = s.sent ++ [resp] ∧
      responseTlvs resp = some (ts.map Tlv.sent) := by
  obtain ⟨w, hw, hlen, hsent⟩ := sendResponse_sent s
  have h4 : (leBytes 4 w).length = hdrSize := length_leBytes _ _
  refine ⟨_, hsent, ?_⟩
  unfold responseTlvs
  rw [cmdHdr_message hw, hlen, h.accum, Nat.mod_eq_of_lt hsz, Nat.add_sub_cancel_left,
    List.drop_left' h4, take_read _ _ (Nat.le_add_left _ _), h.payload]
  refine decodeTlvs_payload (fun t ht => ?_) ?_
  · have := size_le_payload ht
    omega
  · have := length_le_payload ts
    rw [List.length_append, length_read]
    omega

end PseFw.Sec
