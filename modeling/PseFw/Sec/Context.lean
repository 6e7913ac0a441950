/-
**The credential store of the OOB security service.**

`sec_ctx` holds the credentials a device is provisioned with.  It is one C structure, and the
functions of `pse_oob_sec_internal.c` copy into its fields without always comparing the length of
the data with the size of the field.  So the store is modelled as what it is, a memory with a
layout: a copy that is too long lands in the fields behind.

The first part of the structure, `struct sec_context`, is protected by a hash.  Every setter
checks the hash, changes its field, and computes the hash again.

The cryptographic library (`mbedtls`) is a parameter: a record of functions with the lengths of
their results.

Main definitions:

* `Field`, `Field.size`, `Field.offset` — the layout of `struct sec_context_wrapper`;
* `Crypto` — the functions of the cryptographic library the service calls;
* `secIntVerifyContextHash`, `secIntUpdateContextHash`, `secIntInitContext` — the hash;
* `secIntSetDevId` and its siblings — the setters;
* `secIntGetDevId` and its siblings — the getters.

Main results:

* `get_put_ne`, `get_putWord_ne` — **a write that stays inside its field leaves the others alone**;
* `put_misses`, `update_misses` — the same for the single bytes of the store;
* `verify_update` — the hash is right after an update;
* `setParam_of_verified` — what a setter does when the hash is right.
-/

import PseFw.Lib.Memory

set_option relaxedAutoImplicit false
set_option autoImplicit false

namespace PseFw.Sec

open Mem

/-! ### Results -/

/-- The results of the functions of the service. -/
inductive Status
  | success
  | failed
  | failedInvalidParam
  | failedInvalidParamLen
  | failedOobHashMismatch
  | failedOobTimeout
  deriving DecidableEq, Repr

/-! ### The layout -/

/-- The fields of `struct sec_context_wrapper`, in the order of the source. -/
inductive Field
  | rootCa
  | rootCaLen
  | ownPubKey
  | ownPubKeyLen
  | hkdf32bPseSalt
  | hkdf32bPseSaltLen
  | devId
  | devIdLen
  | tokId
  | tokIdLen
  | cldAdapter
  | cldAdapterLen
  | cldHostUrl
  | cldHostUrlLen
  | cldHostPort
  | pxyHostUrl
  | pxyHostUrlLen
  | mqttClientId
  | mqttClientIdLen
  | cloudHash
  | cloudHashDec
  | cloudHashLen
  | pxyHostPort
  | provState
  | reprovPend
  -- here `struct sec_context` ends
  | hash
  | tranId
  | nonce
  | nonceTimeS
  | encTokId
  | encTokIdIv
  | encTokIdTag
  | encDevId
  | encDevIdIv
  | encDevIdTag
  | encMqttClientId
  | encMqttClientIdIv
  | encMqttClientIdTag
  | encCloudHashId
  | encCloudHashIdIv
  | encCloudHashIdTag
  | devIdEncKey
  | tokIdEncKey
  | mqttClientIdEncKey
  | cloudHashEncKey
  | pse32bFuse
  | pse32bFuseLen
  deriving DecidableEq, Repr

/-- `SEC_ROOT_CA_LEN`. -/
def secRootCaLen : ℕ := 2048

/-- `SEC_PSE_SALT_LEN`. -/
def secPseSaltLen : ℕ := 32

/-- `SEC_DEV_ID_LEN`. -/
def secDevIdLen : ℕ := 128

/-- `SEC_TOK_ID_LEN`. -/
def secTokIdLen : ℕ := 192

/-- `SEC_MQTT_CLIENT_ID_LEN`. -/
def secMqttClientIdLen : ℕ := 64

/-- `SEC_CLOUD_HASH_LEN`. -/
def secCloudHashLen : ℕ := 48

/-- `SEC_HASH_LEN`. -/
def secHashLen : ℕ := 48

/-- `SEC_FUSE_LEN`. -/
def secFuseLen : ℕ := 32

/-- `SEC_CSE_SEED_LEN`. -/
def secCseSeedLen : ℕ := 32

/-- `SEC_ENC_IV_SIZE`. -/
def secEncIvSize : ℕ := 12

/-- `SEC_ENC_TAG_SIZE`. -/
def secEncTagSize : ℕ := 16

/-- The size of a field in bytes; the fields that are not named here are of type `unsigned int`
or `unsigned long`. -/
def Field.size : Field → ℕ
  | .rootCa => secRootCaLen
  | .ownPubKey => 384
  | .hkdf32bPseSalt => secPseSaltLen
  | .devId | .encDevId => secDevIdLen
  | .tokId | .encTokId => secTokIdLen
  | .cldAdapter => 32
  | .cldHostUrl | .pxyHostUrl => 1024
  | .mqttClientId | .encMqttClientId => secMqttClientIdLen
  | .cloudHash | .cloudHashDec | .encCloudHashId => secCloudHashLen
  | .hash => secHashLen
  | .encTokIdIv | .encDevIdIv | .encMqttClientIdIv | .encCloudHashIdIv => secEncIvSize
  | .encTokIdTag | .encDevIdTag | .encMqttClientIdTag | .encCloudHashIdTag => secEncTagSize
  | .devIdEncKey | .tokIdEncKey | .mqttClientIdEncKey | .cloudHashEncKey | .pse32bFuse =>
      secFuseLen
  | _ => 4

/-- The fields of `struct sec_context`, in the order of the source. -/
def secContextFields : List Field :=
  [.rootCa, .rootCaLen, .ownPubKey, .ownPubKeyLen, .hkdf32bPseSalt, .hkdf32bPseSaltLen, .devId,
    .devIdLen, .tokId, .tokIdLen, .cldAdapter, .cldAdapterLen, .cldHostUrl, .cldHostUrlLen,
    .cldHostPort, .pxyHostUrl, .pxyHostUrlLen, .mqttClientId, .mqttClientIdLen, .cloudHash,
    .cloudHashDec, .cloudHashLen, .pxyHostPort, .provState, .reprovPend]

/-- The fields of `struct sec_context_wrapper`, in the order of the source. -/
def secContextWrapperFields : List Field :=
  secContextFields ++
  [.hash, .tranId, .nonce, .nonceTimeS, .encTokId, .encTokIdIv, .encTokIdTag, .encDevId,
    .encDevIdIv, .encDevIdTag, .encMqttClientId, .encMqttClientIdIv, .encMqttClientIdTag,
    .encCloudHashId, .encCloudHashIdIv, .encCloudHashIdTag, .devIdEncKey, .tokIdEncKey,
    .mqttClientIdEncKey, .cloudHashEncKey, .pse32bFuse, .pse32bFuseLen]

theorem Field.mem_fields (f : Field) : f ∈ secContextWrapperFields := by
  cases f <;> decide

/-- Where a field starts in `sec_ctx`. -/
def Field.offset (f : Field) : ℕ := Mem.offset Field.size secContextWrapperFields f

/-- `sizeof(sec_ctx.sec_ctx)`. -/
def sizeofSecContext : ℕ := (secContextFields.map Field.size).sum

/-- `sizeof(sec_ctx)`. -/
def sizeofSecContextWrapper : ℕ := (secContextWrapperFields.map Field.size).sum

/-- **Two different fields do not overlap.** -/
theorem Field.offset_disjoint {f g : Field} (h : f ≠ g) :
    f.offset + f.size ≤ g.offset ∨ g.offset + g.size ≤ f.offset :=
  Mem.offset_disjoint Field.size f.mem_fields g.mem_fields h

/-- The hash stands right behind the part it protects. -/
theorem offset_hash : Field.hash.offset = sizeofSecContext := by decide

/-- The fields of `struct sec_context`: the ones in front of the hash. -/
def Field.Inside (f : Field) : Prop := f.offset + f.size ≤ sizeofSecContext

instance (f : Field) : Decidable f.Inside := Nat.decLe _ _

/-! ### The memory of `sec_ctx` -/

/-- The bytes of `sec_ctx` and of what stands behind it. -/
abbrev Ctx : Type := ℕ → UInt8

/-- The bytes of a field. -/
def get (m : Ctx) (f : Field) : List UInt8 := read m f.offset f.size

/-- A field of type `unsigned int`. -/
def word (m : Ctx) (f : Field) : ℕ := ofLe (read m f.offset 4)

/-- Copy bytes to a field, whatever their number. -/
def put (m : Ctx) (f : Field) (l : List UInt8) : Ctx := write m f.offset l

/-- Store a field of type `unsigned int`. -/
def putWord (m : Ctx) (f : Field) (n : ℕ) : Ctx := put m f (leBytes 4 n)

@[simp] theorem length_get (m : Ctx) (f : Field) : (get m f).length = f.size := length_read _ _ _

/-- **A write that stays inside its field leaves the other fields alone.** -/
theorem get_put_ne {m : Ctx} {f g : Field} {l : List UInt8} (hl : l.length ≤ g.size)
    (h : f ≠ g) : get (put m g l) f = get m f := by
  refine read_write_disjoint m ?_
  rcases Field.offset_disjoint h with h | h
  · exact Or.inl h
  · exact Or.inr (le_trans (Nat.add_le_add_left hl _) h)

theorem get_put_self {m : Ctx} {f : Field} {l : List UInt8} (h : l.length = f.size) :
    get (put m f l) f = l := by
  unfold get put
  rw [← h]
  exact read_write_self m f.offset l

/-- A write that is shorter than its field leaves the rest of it. -/
theorem get_put_le {m : Ctx} {f : Field} {l : List UInt8} (h : l.length ≤ f.size) :
    get (put m f l) f = l ++ (get m f).drop l.length := read_write_le m f.offset h

theorem word_eq (m : Ctx) {f : Field} (h : f.size = 4) : word m f = ofLe (get m f) := by
  unfold word get
  rw [h]

theorem get_putWord_ne {m : Ctx} {f g : Field} {n : ℕ} (hg : g.size = 4) (h : f ≠ g) :
    get (putWord m g n) f = get m f :=
  get_put_ne (by rw [length_leBytes, hg]) h

theorem get_putWord_self {m : Ctx} {f : Field} {n : ℕ} (h : f.size = 4) :
    get (putWord m f n) f = leBytes 4 n :=
  get_put_self (by rw [length_leBytes, h])

/-- An address outside the field. -/
def Field.Misses (f : Field) (i : ℕ) : Prop := i < f.offset ∨ f.offset + f.size ≤ i

/-- An address inside a field is outside the others. -/
theorem Field.misses_of_ne {f g : Field} (h : f ≠ g) {i : ℕ} (hlo : f.offset ≤ i)
    (hhi : i < f.offset + f.size) : g.Misses i := by
  rcases Field.offset_disjoint h with hd | hd
  · exact Or.inl (by omega)
  · exact Or.inr (by omega)

/-- A write that stays inside its field leaves the bytes outside alone. -/
theorem put_misses {m : Ctx} {f : Field} {l : List UInt8} {i : ℕ} (hl : l.length ≤ f.size)
    (hi : f.Misses i) : put m f l i = m i := by
  rcases hi with hi | hi
  · exact write_of_lt m l hi
  · exact write_of_ge m l (by omega)

/-- The fields outside the list are as they were. -/
def Unchanged (fs : List Field) (m m' : Ctx) : Prop := ∀ g, g ∉ fs → get m' g = get m g

theorem Unchanged.refl (fs : List Field) (m : Ctx) : Unchanged fs m m := fun _ _ => rfl

theorem Unchanged.trans {fs : List Field} {m m' m'' : Ctx} (h : Unchanged fs m m')
    (h' : Unchanged fs m' m'') : Unchanged fs m m'' :=
  fun g hg => (h' g hg).trans (h g hg)

theorem Unchanged.mono {fs fs' : List Field} {m m' : Ctx} (h : Unchanged fs m m')
    (hs : fs ⊆ fs') : Unchanged fs' m m' := fun g hg => h g fun hm => hg (hs hm)

theorem unchanged_put {m : Ctx} {f : Field} {l : List UInt8} (h : l.length ≤ f.size) :
    Unchanged [f] m (put m f l) :=
  fun _ hg => get_put_ne h fun hf => hg (hf ▸ List.mem_singleton_self _)

/-! ### The cryptographic library -/

/-- The functions of `mbedtls` the service calls.  The HKDF takes the salt, the key material and
the label; AES-GCM takes the key, the initialisation vector and the data, and the tag when it
decrypts.  A function that reports an error has no result. -/
structure Crypto where
  sha384 : List UInt8 → List UInt8
  hkdf : List UInt8 → List UInt8 → List UInt8 → Option (List UInt8)
  gcmSetkey : List UInt8 → Bool
  gcmCryptAndTag : List UInt8 → List UInt8 → List UInt8 → Option (List UInt8 × List UInt8)
  gcmAuthDecrypt : List UInt8 → List UInt8 → List UInt8 → List UInt8 → Option (List UInt8)
  length_sha384 : ∀ l, (sha384 l).length = secHashLen
  length_hkdf : ∀ salt ikm info key, hkdf salt ikm info = some key → key.length = secFuseLen
  length_crypt : ∀ key iv input c, gcmCryptAndTag key iv input = some c →
    c.1.length = input.length ∧ c.2.length = secEncTagSize
  length_decrypt : ∀ key iv tag input out, gcmAuthDecrypt key iv tag input = some out →
    out.length = input.length

variable (c : Crypto)

/-! ### The hash over the context -/

/-- `sec_int_verify_context_hash`. -/
def secIntVerifyContextHash (m : Ctx) : Status :=
  if c.sha384 (read m 0 sizeofSecContext) = get m .hash then .success
  else .failedOobHashMismatch

/-- `sec_int_update_context_hash`. -/
def secIntUpdateContextHash (m : Ctx) : Ctx :=
  put m .hash (c.sha384 (read m 0 sizeofSecContext))

/-- `sec_int_init_context`: everything zero, `SEC_PEND` and `SEC_REPROV_NONE`. -/
def secIntInitContext (m : Ctx) : Ctx :=
  secIntUpdateContextHash c
    (putWord (putWord (write m 0 (List.replicate sizeofSecContext 0)) .provState 3)
      .reprovPend 0)

/-- `sec_int_sec_decommission`. -/
def secIntSecDecommission (m : Ctx) : Ctx := write m 0 (List.replicate sizeofSecContextWrapper 0)

/-- The hash is right. -/
def Verified (m : Ctx) : Prop := c.sha384 (read m 0 sizeofSecContext) = get m .hash

instance (m : Ctx) : Decidable (Verified c m) := inferInstanceAs (Decidable (_ = _))

variable {c}

theorem verify_eq_success {m : Ctx} (h : Verified c m) :
    secIntVerifyContextHash c m = .success := if_pos h

theorem verify_eq_mismatch {m : Ctx} (h : ¬ Verified c m) :
    secIntVerifyContextHash c m = .failedOobHashMismatch := if_neg h

/-- The hash does not change what it protects. -/
theorem read_update (m : Ctx) :
    read (secIntUpdateContextHash c m) 0 sizeofSecContext = read m 0 sizeofSecContext := by
  refine read_write_disjoint m (Or.inl ?_)
  rw [offset_hash, Nat.zero_add]

/-- **The hash is right after an update.** -/
theorem verify_update (m : Ctx) : Verified c (secIntUpdateContextHash c m) := by
  unfold Verified
  rw [read_update]
  exact (get_put_self (c.length_sha384 _)).symm

theorem get_update_ne {m : Ctx} {f : Field} (h : f ≠ .hash) :
    get (secIntUpdateContextHash c m) f = get m f :=
  get_put_ne (le_of_eq (c.length_sha384 _)) h

theorem update_misses {m : Ctx} {i : ℕ} (hi : Field.hash.Misses i) :
    secIntUpdateContextHash c m i = m i :=
  put_misses (le_of_eq (c.length_sha384 _)) hi

theorem verified_init (m : Ctx) : Verified c (secIntInitContext c m) := verify_update _

/-- A write behind the hash touches neither the hash nor what it protects. -/
theorem verified_put {m : Ctx} {f : Field} {l : List UInt8}
    (hf : Field.hash.offset + Field.hash.size ≤ f.offset) :
    Verified c (put m f l) ↔ Verified c m := by
  unfold Verified get put
  rw [read_write_disjoint m (Or.inl (by rw [offset_hash] at hf; omega)),
    read_write_disjoint m (Or.inl hf)]

/-! ### Setters -/

variable (c)

/-- `sec_int_set_context_param`: the data, then its length. -/
def secIntSetContextParam (m : Ctx) (f lenField : Field) (data : List UInt8) : Ctx :=
  putWord (put m f data) lenField data.length

/-- What most setters do: check the hash, store the data and its length, compute the hash. -/
def secIntSetParam (f lenField : Field) (m : Ctx) (data : List UInt8) : Status × Ctx :=
  match secIntVerifyContextHash c m with
  | .success => (.success, secIntUpdateContextHash c (secIntSetContextParam m f lenField data))
  | e => (e, m)

/-- The same for a field of type `unsigned int`: `sec_int_set_context_param_simple` copies four
bytes. -/
def secIntSetParamSimple (f : Field) (m : Ctx) (data : List UInt8) : Status × Ctx :=
  match secIntVerifyContextHash c m with
  | .success => (.success, secIntUpdateContextHash c (put m f data))
  | e => (e, m)

/-- `sec_int_set_mqtt_client_id`. -/
def secIntSetMqttClientId : Ctx → List UInt8 → Status × Ctx :=
  secIntSetParam c .mqttClientId .mqttClientIdLen

/-- `sec_int_set_own_pub_key`. -/
def secIntSetOwnPubKey : Ctx → List UInt8 → Status × Ctx :=
  secIntSetParam c .ownPubKey .ownPubKeyLen

/-- `sec_int_set_hkdf_32b_pse_salt`. -/
def secIntSetHkdf32bPseSalt : Ctx → List UInt8 → Status × Ctx :=
  secIntSetParam c .hkdf32bPseSalt .hkdf32bPseSaltLen

/-- `sec_int_set_dev_id`. -/
def secIntSetDevId : Ctx → List UInt8 → Status × Ctx := secIntSetParam c .devId .devIdLen

/-- `sec_int_set_tok_id`. -/
def secIntSetTokId : Ctx → List UInt8 → Status × Ctx := secIntSetParam c .tokId .tokIdLen

/-- `sec_int_set_cld_adapter`. -/
def secIntSetCldAdapter : Ctx → List UInt8 → Status × Ctx :=
  secIntSetParam c .cldAdapter .cldAdapterLen

/-- `sec_int_set_cld_host_url`. -/
def secIntSetCldHostUrl : Ctx → List UInt8 → Status × Ctx :=
  secIntSetParam c .cldHostUrl .cldHostUrlLen

/-- `sec_int_set_pxy_host_url`. -/
def secIntSetPxyHostUrl : Ctx → List UInt8 → Status × Ctx :=
  secIntSetParam c .pxyHostUrl .pxyHostUrlLen

/-- `sec_int_set_root_ca`: the one setter that compares the length with the size. -/
def secIntSetRootCa (m : Ctx) (data : List UInt8) : Status × Ctx :=
  if data.length > secRootCaLen then (.failedInvalidParam, m)
  else secIntSetParam c .rootCa .rootCaLen m data

/-- `sec_int_set_cloud_hash`. -/
def secIntSetCloudHash (m : Ctx) (data : List UInt8) : Status × Ctx :=
  if data.length ≠ secCloudHashLen then (.failedInvalidParamLen, m)
  else secIntSetParam c .cloudHash .cloudHashLen m data

/-- `sec_int_set_cloud_hash_dec`. -/
def secIntSetCloudHashDec (m : Ctx) (data : List UInt8) : Status × Ctx :=
  if data.length ≠ secCloudHashLen then (.failedInvalidParamLen, m)
  else secIntSetParam c .cloudHashDec .cloudHashLen m data

/-- `sec_int_set_cld_host_port`. -/
def secIntSetCldHostPort : Ctx → List UInt8 → Status × Ctx := secIntSetParamSimple c .cldHostPort

/-- `sec_int_set_pxy_host_port`. -/
def secIntSetPxyHostPort : Ctx → List UInt8 → Status × Ctx := secIntSetParamSimple c .pxyHostPort

/-- `sec_int_set_prov_state`. -/
def secIntSetProvState : Ctx → List UInt8 → Status × Ctx := secIntSetParamSimple c .provState

/-- `sec_int_set_reprov_pend`. -/
def secIntSetReprovPend : Ctx → List UInt8 → Status × Ctx := secIntSetParamSimple c .reprovPend

/-- `sec_int_set_pse_32b_fuse`: outside the part the hash protects. -/
def secIntSetPse32bFuse (m : Ctx) (data : List UInt8) : Status × Ctx :=
  if data.length ≠ secFuseLen then (.failed, m)
  else (.success, secIntSetContextParam m .pse32bFuse .pse32bFuseLen data)

variable {c}

theorem setParam_of_verified {f lenField : Field} {m : Ctx} (data : List UInt8)
    (h : Verified c m) : secIntSetParam c f lenField m data =
      (.success, secIntUpdateContextHash c (secIntSetContextParam m f lenField data)) := by
  unfold secIntSetParam
  rw [verify_eq_success h]

theorem setParam_of_not_verified {f lenField : Field} {m : Ctx} (data : List UInt8)
    (h : ¬ Verified c m) :
    secIntSetParam c f lenField m data = (.failedOobHashMismatch, m) := by
  unfold secIntSetParam
  rw [verify_eq_mismatch h]

theorem setParamSimple_of_verified {f : Field} {m : Ctx} (data : List UInt8)
    (h : Verified c m) : secIntSetParamSimple c f m data =
      (.success, secIntUpdateContextHash c (put m f data)) := by
  unfold secIntSetParamSimple
  rw [verify_eq_success h]

theorem setParamSimple_of_not_verified {f : Field} {m : Ctx} (data : List UInt8)
    (h : ¬ Verified c m) :
    secIntSetParamSimple c f m data = (.failedOobHashMismatch, m) := by
  unfold secIntSetParamSimple
  rw [verify_eq_mismatch h]

theorem unchanged_update (m : Ctx) : Unchanged [.hash] m (secIntUpdateContextHash c m) :=
  unchanged_put (le_of_eq (c.length_sha384 _))

/-- A setter whose data fits changes its two fields and the hash. -/
theorem unchanged_setParam {f lenField : Field} {m : Ctx} {data : List UInt8}
    (hl : lenField.size = 4) (h : data.length ≤ f.size) :
    Unchanged [f, lenField, .hash] m (secIntSetParam c f lenField m data).2 := by
  by_cases hv : Verified c m
  · rw [setParam_of_verified data hv]
    have h1 : Unchanged [f, lenField, .hash] m (put m f data) :=
      (unchanged_put h).mono (by simp)
    have h2 : Unchanged [f, lenField, .hash] (put m f data)
        (putWord (put m f data) lenField data.length) :=
      (unchanged_put (by rw [length_leBytes, hl])).mono (by simp)
    exact (h1.trans h2).trans ((unchanged_update _).mono (by simp))
  · rw [setParam_of_not_verified data hv]
    exact Unchanged.refl _ _

theorem unchanged_setParamSimple {f : Field} {m : Ctx} {data : List UInt8}
    (h : data.length ≤ f.size) :
    Unchanged [f, .hash] m (secIntSetParamSimple c f m data).2 := by
  by_cases hv : Verified c m
  · rw [setParamSimple_of_verified data hv]
    exact ((unchanged_put h).mono (by simp)).trans ((unchanged_update _).mono (by simp))
  · rw [setParamSimple_of_not_verified data hv]
    exact Unchanged.refl _ _

/-! ### Getters -/

variable (c)

/-- `sec_int_get_context_param_by_len`: the string that starts at the field.  `strlen` looks for
the end of it inside `sec_ctx`. -/
def secIntGetContextParamByLen (m : Ctx) (f : Field) : List UInt8 :=
  cString m f.offset (sizeofSecContextWrapper - f.offset)

/-- `sec_int_get_context_param`: as many bytes as the length field says. -/
def secIntGetContextParam (m : Ctx) (f lenField : Field) : List UInt8 :=
  read m f.offset (word m lenField)

/-- What most getters do: check the hash, then hand out the string. -/
def secIntGetString (f : Field) (m : Ctx) : Except Status (List UInt8) :=
  match secIntVerifyContextHash c m with
  | .success => .ok (secIntGetContextParamByLen m f)
  | e => .error e

/-- `sec_int_get_dev_id`. -/
def secIntGetDevId : Ctx → Except Status (List UInt8) := secIntGetString c .devId

/-- `sec_int_get_tok_id`. -/
def secIntGetTokId : Ctx → Except Status (List UInt8) := secIntGetString c .tokId

/-- `sec_int_get_mqtt_client_id`. -/
def secIntGetMqttClientId : Ctx → Except Status (List UInt8) := secIntGetString c .mqttClientId

/-- `sec_int_get_cld_adapter`. -/
def secIntGetCldAdapter : Ctx → Except Status (List UInt8) := secIntGetString c .cldAdapter

/-- `sec_int_get_root_ca`: the one getter that looks at the length before the hash. -/
def secIntGetRootCa (m : Ctx) : Except Status (List UInt8) :=
  if word m .rootCaLen > secRootCaLen then .error .failedInvalidParam
  else secIntGetString c .rootCa m

/-- The getters that go by the length field: check the hash, then hand out as many bytes. -/
def secIntGetByLen (f lenField : Field) (m : Ctx) : Except Status (List UInt8) :=
  match secIntVerifyContextHash c m with
  | .success => .ok (secIntGetContextParam m f lenField)
  | e => .error e

/-- `sec_int_get_own_pub_key`. -/
def secIntGetOwnPubKey : Ctx → Except Status (List UInt8) :=
  secIntGetByLen c .ownPubKey .ownPubKeyLen

/-- `sec_int_get_cld_host_url`. -/
def secIntGetCldHostUrl : Ctx → Except Status (List UInt8) :=
  secIntGetByLen c .cldHostUrl .cldHostUrlLen

/-- `sec_int_get_pxy_host_url`. -/
def secIntGetPxyHostUrl : Ctx → Except Status (List UInt8) :=
  secIntGetByLen c .pxyHostUrl .pxyHostUrlLen

/-- The getters of a field of type `unsigned int` (`sec_int_get_context_param_simple`). -/
def secIntGetSimple (f : Field) (m : Ctx) : Except Status (List UInt8) :=
  match secIntVerifyContextHash c m with
  | .success => .ok (get m f)
  | e => .error e

/-- `sec_int_get_cld_host_port`. -/
def secIntGetCldHostPort : Ctx → Except Status (List UInt8) := secIntGetSimple c .cldHostPort

/-- `sec_int_get_pxy_host_port`. -/
def secIntGetPxyHostPort : Ctx → Except Status (List UInt8) := secIntGetSimple c .pxyHostPort

/-- `sec_int_get_reprov_pend`. -/
def secIntGetReprovPend : Ctx → Except Status (List UInt8) := secIntGetSimple c .reprovPend

/-- `sec_int_get_hkdf_32b_pse_salt`. -/
def secIntGetHkdf32bPseSalt (m : Ctx) : Except Status (List UInt8) :=
  if word m .hkdf32bPseSaltLen ≠ secPseSaltLen then .error .failed
  else match secIntVerifyContextHash c m with
    | .success => .ok (secIntGetContextParam m .hkdf32bPseSalt .hkdf32bPseSaltLen)
    | e => .error e

/-- `sec_int_get_cloud_hash`. -/
def secIntGetCloudHash (m : Ctx) : Except Status (List UInt8) :=
  if word m .cloudHashLen ≠ secCloudHashLen then .error .failed
  else match secIntVerifyContextHash c m with
    | .success => .ok (secIntGetContextParam m .cloudHash .cloudHashLen)
    | e => .error e

/-- `sec_int_get_pse_32b_fuse`: the caller says how many bytes it expects. -/
def secIntGetPse32bFuse (m : Ctx) (len : ℕ) : Except Status (List UInt8) :=
  if len ≠ word m .pse32bFuseLen then .error .failed
  else .ok (secIntGetContextParam m .pse32bFuse .pse32bFuseLen)

/-- `sec_int_get_prov_state`. -/
def secIntGetProvState (m : Ctx) : Except Status (List UInt8) :=
  match secIntVerifyContextHash c m with
  | .success => .ok (get m .provState)
  | e => .error e

/-- `sec_hc_int_hash_check`: the hash that was sent against the one that was decrypted. -/
def secHcIntHashCheck (m : Ctx) : Status :=
  match secIntVerifyContextHash c m with
  | .success =>
      if get m .cloudHash = get m .cloudHashDec then .success else .failedOobHashMismatch
  | e => e

end PseFw.Sec
