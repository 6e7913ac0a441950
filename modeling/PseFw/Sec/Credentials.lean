/-
**What comes back of a stored value.**

The context stores ten credentials of variable length, each in a field of its own with the length in
the word behind.  The setters copy the value to the start of the field and leave what stands behind
it.  Three of the getters go by the length word, two more insist on one length, and five look for
the end with `strlen`.  For these five the value comes back only if it holds no zero and the byte
behind it is one; in a shorter value that byte is what an earlier one left there, and behind a value
that fills the field it is the lowest byte of its own length.

Main definitions:

* `Credential`, `Credential.set`, `Credential.get` — the credentials, their setters and getters;
* `Received`, `ComesBack` — what a getter does to the buffer of its caller, and what is expected;
* `Credential.Survives` — when a value comes back.

Main results:

* `Credential.set_of_success`, `Credential.get_stored` — setters and getters, by the kind of the
  getter;
* `Credential.comesBack_iff` — **the values that come back**.
-/

import PseFw.Sec.Frame
import PseFw.Sec.Sealing

set_option relaxedAutoImplicit false
set_option autoImplicit false

namespace PseFw.Sec

open Mem

/-! ### The credentials -/

/-- The credentials of variable length. -/
inductive Credential
  | rootCa
  | ownPubKey
  | hkdf32bPseSalt
  | devId
  | tokId
  | cldAdapter
  | cldHostUrl
  | pxyHostUrl
  | mqttClientId
  | cloudHash
  deriving DecidableEq, Repr

namespace Credential

/-- The field of a credential. -/
def field : Credential → Field
  | .rootCa => .rootCa
  | .ownPubKey => .ownPubKey
  | .hkdf32bPseSalt => .hkdf32bPseSalt
  | .devId => .devId
  | .tokId => .tokId
  | .cldAdapter => .cldAdapter
  | .cldHostUrl => .cldHostUrl
  | .pxyHostUrl => .pxyHostUrl
  | .mqttClientId => .mqttClientId
  | .cloudHash => .cloudHash

/-- The word with its length. -/
def lenField : Credential → Field
  | .rootCa => .rootCaLen
  | .ownPubKey => .ownPubKeyLen
  | .hkdf32bPseSalt => .hkdf32bPseSaltLen
  | .devId => .devIdLen
  | .tokId => .tokIdLen
  | .cldAdapter => .cldAdapterLen
  | .cldHostUrl => .cldHostUrlLen
  | .pxyHostUrl => .pxyHostUrlLen
  | .mqttClientId => .mqttClientIdLen
  | .cloudHash => .cloudHashLen

/-- `sec_int_set_…`. -/
def set (c : Crypto) : Credential → Ctx → List UInt8 → Status × Ctx
  | .rootCa => secIntSetRootCa c
  | .ownPubKey => secIntSetOwnPubKey c
  | .hkdf32bPseSalt => secIntSetHkdf32bPseSalt c
  | .devId => secIntSetDevId c
  | .tokId => secIntSetTokId c
  | .cldAdapter => secIntSetCldAdapter c
  | .cldHostUrl => secIntSetCldHostUrl c
  | .pxyHostUrl => secIntSetPxyHostUrl c
  | .mqttClientId => secIntSetMqttClientId c
  | .cloudHash => secIntSetCloudHash c

/-- `sec_int_get_…`. -/
def get (c : Crypto) : Credential → Ctx → Except Status (List UInt8)
  | .rootCa => secIntGetRootCa c
  | .ownPubKey => secIntGetOwnPubKey c
  | .hkdf32bPseSalt => secIntGetHkdf32bPseSalt c
  | .devId => secIntGetDevId c
  | .tokId => secIntGetTokId c
  | .cldAdapter => secIntGetCldAdapter c
  | .cldHostUrl => secIntGetCldHostUrl c
  | .pxyHostUrl => secIntGetPxyHostUrl c
  | .mqttClientId => secIntGetMqttClientId c
  | .cloudHash => secIntGetCloudHash c

end Credential

/-! ### What is expected -/

/-- **What a getter does**: it copies what it finds to the buffer of its caller, and stores the
length. -/
def Received (r : Except Status (List UInt8)) (buf buf' : ℕ → UInt8) (len : ℕ) : Prop :=
  ∃ l, r = .ok l ∧ buf' = write buf 0 l ∧ len = l.length

/-- **The value comes back**: whatever the buffer, it holds the value and nothing else of it is
changed, and the length is that of the value. -/
def ComesBack (r : Except Status (List UInt8)) (d : List UInt8) : Prop :=
  ∀ buf, ∃ buf', Received r buf buf' d.length ∧ read buf' 0 d.length = d ∧
    ∀ i, d.length ≤ i → buf' i = buf i

theorem comesBack_iff_ok {r : Except Status (List UInt8)} {d : List UInt8} :
    ComesBack r d ↔ r = .ok d := by
  constructor
  · intro h
    obtain ⟨buf', ⟨l, rfl, rfl, hlen⟩, hread, -⟩ := h fun _ => 0
    rw [hlen, read_write_self] at hread
    rw [hread]
  · rintro rfl buf
    refine ⟨_, ⟨d, rfl, rfl, rfl⟩, read_write_self buf 0 d, fun i hi => ?_⟩
    exact write_of_ge buf d (by omega)

/-- How a getter finds the end of the value. -/
inductive GetterKind
  /-- By the first zero. -/
  | string
  /-- By the length word. -/
  | byLen
  /-- By the length word, which must be the given one. -/
  | exact (n : ℕ)
  deriving DecidableEq, Repr

/-- The getter of a credential. -/
def Credential.getterKind : Credential → GetterKind
  | .rootCa | .devId | .tokId | .cldAdapter | .mqttClientId => .string
  | .ownPubKey | .cldHostUrl | .pxyHostUrl => .byLen
  | .hkdf32bPseSalt => .exact secPseSaltLen
  | .cloudHash => .exact secCloudHashLen

/-- The byte behind a value, once it is stored: the one that is there already, or, if the value
fills the field, the lowest byte of its length. -/
def byteBehind (X : Credential) (m : Ctx) (d : List UInt8) : UInt8 :=
  if d.length < X.field.size then m (X.field.offset + d.length) else UInt8.ofNat d.length

/-- The values a getter reads as they are, with the byte that stands behind them. -/
def GetterKind.Reads (d : List UInt8) (behind : UInt8) : GetterKind → Prop
  | .string => 0 ∉ d ∧ behind = 0
  | .byLen => True
  | .exact n => d.length = n

instance (d : List UInt8) (behind : UInt8) (g : GetterKind) : Decidable (g.Reads d behind) :=
  match g with
  | .string => inferInstanceAs (Decidable (_ ∧ _))
  | .byLen => isTrue trivial
  | .exact _ => inferInstanceAs (Decidable (_ = _))

/-- **When a value comes back.** -/
def Credential.Survives (X : Credential) (m : Ctx) (d : List UInt8) : Prop :=
  X.getterKind.Reads d (byteBehind X m d)

instance (X : Credential) (m : Ctx) (d : List UInt8) : Decidable (X.Survives m d) :=
  inferInstanceAs (Decidable (GetterKind.Reads _ _ _))

/-! ### Setters and getters -/

namespace Credential

variable {c : Crypto} {X : Credential} {m : Ctx} {d : List UInt8}

/-- The context with the value. -/
def stored (c : Crypto) (X : Credential) (m : Ctx) (d : List UInt8) : Ctx :=
  secIntUpdateContextHash c (secIntSetContextParam m X.field X.lenField d)

/-- **A setter that succeeds has stored the value.** -/
theorem set_of_success (h : (X.set c m d).1 = .success) : (X.set c m d).2 = stored c X m d := by
  have hparam : ∀ {f lenField : Field}, (secIntSetParam c f lenField m d).1 = .success →
      (secIntSetParam c f lenField m d).2 =
        secIntUpdateContextHash c (secIntSetContextParam m f lenField d) := by
    intro f lenField hs
    by_cases hv : Verified c m
    · rw [setParam_of_verified d hv]
    · rw [setParam_of_not_verified d hv] at hs
      cases hs
  cases X with
  | rootCa =>
      simp only [set, secIntSetRootCa] at h ⊢
      split at h
      · cases h
      · next hlen =>
          rw [if_neg hlen]
          exact hparam h
  | cloudHash =>
      simp only [set, secIntSetCloudHash] at h ⊢
      split at h
      · cases h
      · next hlen =>
          rw [if_neg hlen]
          exact hparam h
  | _ => exact hparam h

/-- The length stands right behind the field, except for the cloud hash. -/
theorem offset_lenField (h : X ≠ .cloudHash) :
    X.lenField.offset = X.field.offset + X.field.size := by
  cases X with
  | cloudHash => exact absurd rfl h
  | _ => decide

theorem field_ne (X : Credential) :
    X.field ≠ X.lenField ∧ X.field ≠ .hash ∧ X.lenField ≠ .hash ∧ X.lenField.size = 4 ∧
      X.field.size < 2 ^ 32 := by
  cases X with
  | _ => decide

/-- The value stands at the start of the field. -/
theorem read_stored (hd : d.length ≤ X.field.size) :
    read (stored c X m d) X.field.offset d.length = d := by
  obtain ⟨hne, hhash, -, hword, -⟩ := field_ne X
  have hfield : Sec.get (stored c X m d) X.field = d ++ (Sec.get m X.field).drop d.length := by
    rw [stored, get_update_ne hhash, secIntSetContextParam, get_putWord_ne hword hne,
      get_put_le hd]
  have htake := congrArg (List.take d.length) hfield
  rwa [Sec.get, take_read _ _ hd, List.take_left] at htake

/-- The length word holds the length. -/
theorem word_stored (hd : d.length ≤ X.field.size) :
    word (stored c X m d) X.lenField = d.length := by
  obtain ⟨-, -, hhash, hword, hlt⟩ := field_ne X
  refine word_of_get hword (lt_of_le_of_lt hd hlt) ?_
  rw [stored, get_update_ne hhash, secIntSetContextParam, get_putWord_self hword]

/-- The byte behind the value. -/
theorem stored_behind (hX : X ≠ .cloudHash) (hd : d.length ≤ X.field.size) :
    stored c X m d (X.field.offset + d.length) = byteBehind X m d := by
  obtain ⟨hne, hhash, hlhash, hword, -⟩ := field_ne X
  have hoff := offset_lenField hX
  have hlen : (leBytes 4 d.length).length ≤ X.lenField.size := by rw [length_leBytes, hword]
  unfold stored secIntSetContextParam putWord byteBehind
  split
  · next hlt =>
      -- the byte is inside the field, where nothing was written
      have hmisses : ∀ {g : Field}, X.field ≠ g → g.Misses (X.field.offset + d.length) :=
        fun hg => Field.misses_of_ne hg (Nat.le_add_right _ _) (by omega)
      rw [update_misses (hmisses hhash), put_misses hlen (hmisses hne)]
      exact write_of_ge m d le_rfl
  · next hge =>
      -- the byte is the first one of the length word
      have heq : X.field.offset + d.length = X.lenField.offset := by omega
      have hmisses : Field.hash.Misses X.lenField.offset :=
        Field.misses_of_ne hlhash le_rfl (by omega)
      rw [heq, update_misses hmisses, leBytes_succ]
      exact write_add _ X.lenField.offset (l := _ :: _) (i := 0) (Nat.succ_pos _)

theorem getString_of_verified {f : Field} (hv : Verified c m) :
    secIntGetString c f m = .ok (secIntGetContextParamByLen m f) := by
  unfold secIntGetString
  rw [verify_eq_success hv]

theorem getByLen_of_verified {f lenField : Field} (hv : Verified c m) :
    secIntGetByLen c f lenField m = .ok (read m f.offset (word m lenField)) := by
  unfold secIntGetByLen
  rw [verify_eq_success hv]
  rfl

/-- **What the getter finds**, by its kind. -/
theorem get_stored (hd : d.length ≤ X.field.size) :
    X.get c (stored c X m d) = match X.getterKind with
      | .string => .ok (secIntGetContextParamByLen (stored c X m d) X.field)
      | .byLen => .ok d
      | .exact n => if d.length = n then .ok d else .error .failed := by
  have hv : Verified c (stored c X m d) := verify_update _
  have hvalue : read (stored c X m d) X.field.offset (word (stored c X m d) X.lenField) = d := by
    rw [word_stored hd, read_stored hd]
  have hword : word (stored c X m d) X.lenField = d.length := word_stored hd
  cases X with
  | rootCa =>
      have hle : ¬ word (stored c .rootCa m d) .rootCaLen > secRootCaLen := by
        show ¬ word (stored c .rootCa m d) Credential.rootCa.lenField > secRootCaLen
        rw [hword]
        exact not_lt.2 hd
      exact (if_neg hle).trans (getString_of_verified hv)
  | devId | tokId | cldAdapter | mqttClientId => exact getString_of_verified hv
  | ownPubKey | cldHostUrl | pxyHostUrl =>
      exact (getByLen_of_verified hv).trans (congrArg Except.ok hvalue)
  | hkdf32bPseSalt =>
      show secIntGetHkdf32bPseSalt c _ = if d.length = secPseSaltLen then _ else _
      rw [← hword]
      unfold secIntGetHkdf32bPseSalt
      split
      · next hne => exact (if_neg hne).symm
      · next heq =>
          rw [verify_eq_success hv]
          exact (congrArg Except.ok hvalue).trans (if_pos (not_not.1 heq)).symm
  | cloudHash =>
      show secIntGetCloudHash c _ = if d.length = secCloudHashLen then _ else _
      rw [← hword]
      unfold secIntGetCloudHash
      split
      · next hne => exact (if_neg hne).symm
      · next heq =>
          rw [verify_eq_success hv]
          exact (congrArg Except.ok hvalue).trans (if_pos (not_not.1 heq)).symm

/-- There is room behind every field. -/
theorem size_lt_limit (X : Credential) :
    X.field.size < sizeofSecContextWrapper - X.field.offset := by
  cases X with
  | _ => decide

/-- **The values that come back.** -/
theorem comesBack_iff (hd : d.length ≤ X.field.size) (hs : (X.set c m d).1 = .success) :
    ComesBack (X.get c (X.set c m d).2) d ↔ X.Survives m d := by
  rw [comesBack_iff_ok, set_of_success hs, get_stored hd]
  unfold Survives
  cases hX : X.getterKind with
  | string =>
      -- the end is the first zero behind the value
      have hne : X ≠ .cloudHash := by
        rintro rfl
        cases hX
      dsimp only
      rw [Except.ok.injEq, secIntGetContextParamByLen,
        cString_eq_iff (read_stored hd) (lt_of_le_of_lt hd (size_lt_limit X)),
        stored_behind hne hd]
      exact Iff.rfl
  | byLen => exact iff_of_true rfl trivial
  | exact n =>
      dsimp only
      split
      · next heq => exact iff_of_true rfl heq
      · next hne =>
          refine iff_of_false (fun h => ?_) hne
          cases h

end Credential

/-! ### A value behind an earlier one -/

/-- A device id of two bytes, in a context that has none, comes back. -/
theorem Credential.comesBack_devId : ComesBack (Credential.devId.get plainCrypto
    (Credential.devId.set plainCrypto (freshState plainCrypto).ctx [0x41, 0x42]).2) [0x41, 0x42] :=
  (Credential.comesBack_iff (by decide) (by decide +kernel)).2 (by decide +kernel)

/-- A device id of three bytes is stored, and then one of two. -/
def laterCtx : Ctx :=
  (Credential.devId.set plainCrypto (freshState plainCrypto).ctx [0x61, 0x62, 0x63]).2

/-- The last byte of the earlier one comes back with it. -/
theorem Credential.not_comesBack_shorter :
    (Credential.devId.set plainCrypto laterCtx [0x41, 0x42]).1 = .success ∧
      Credential.devId.get plainCrypto
        (Credential.devId.set plainCrypto laterCtx [0x41, 0x42]).2 = .ok [0x41, 0x42, 0x63] ∧
      ¬ ComesBack (Credential.devId.get plainCrypto
        (Credential.devId.set plainCrypto laterCtx [0x41, 0x42]).2) [0x41, 0x42] := by
  have hget : Credential.devId.get plainCrypto
      (Credential.devId.set plainCrypto laterCtx [0x41, 0x42]).2 = .ok [0x41, 0x42, 0x63] := by
    decide +kernel
  refine ⟨by decide +kernel, hget, fun h => ?_⟩
  rw [comesBack_iff_ok, hget] at h
  cases h

end PseFw.Sec
