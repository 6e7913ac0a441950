/-
**The integrity of the credential store.**

`struct sec_context` is protected by a hash that stands behind it.  A getter or a setter looks at
the hash first, and a setter computes it again when it is done; the parser of the TLVs, the search
for the seed and the reprovisioning go through the setters, and everything else writes behind the
hash.  So the hash is right until `sec_int_sec_decommission` clears the structure together with
its hash.  From then on it is wrong, and the store is closed.

Main definitions:

* `Setter`, `Getter` — the functions that look at the hash;
* `secIntSetReprovision` — a setter, and the flag that a reprovisioning is pending;
* `CtxCall`, `ctxStep` — the calls that work on the context;
* `Open`, `Closed` — what the functions do before and after the decommissioning.

Main results:

* `Setter.verified_run` — a setter keeps the hash as right, or as wrong, as it was;
* `verified_ctxCall` — so does every call except the decommissioning;
* `open_until_decommission` — **the store is open until it is decommissioned**, and closed after.
-/

import PseFw.Sec.Provision
import PseFw.Sec.Nonce

set_option relaxedAutoImplicit false
set_option autoImplicit false

namespace PseFw.Sec

open Mem

/-! ### Setters and getters -/

/-- The setters that look at the hash. -/
inductive Setter
  | mqttClientId
  | rootCa
  | ownPubKey
  | hkdf32bPseSalt
  | devId
  | tokId
  | cldAdapter
  | cldHostUrl
  | cldHostPort
  | pxyHostUrl
  | pxyHostPort
  | cloudHash
  | cloudHashDec
  | provState
  | reprovPend
  deriving DecidableEq, Repr

/-- The getters that look at the hash. -/
inductive Getter
  | rootCa
  | mqttClientId
  | ownPubKey
  | hkdf32bPseSalt
  | devId
  | tokId
  | cldAdapter
  | cldHostUrl
  | cldHostPort
  | pxyHostUrl
  | pxyHostPort
  | cloudHash
  | provState
  | reprovPend
  deriving DecidableEq, Repr

variable (c : Crypto)

/-- The function of a setter. -/
def Setter.run : Setter → Ctx → List UInt8 → Status × Ctx
  | .mqttClientId => secIntSetMqttClientId c
  | .rootCa => secIntSetRootCa c
  | .ownPubKey => secIntSetOwnPubKey c
  | .hkdf32bPseSalt => secIntSetHkdf32bPseSalt c
  | .devId => secIntSetDevId c
  | .tokId => secIntSetTokId c
  | .cldAdapter => secIntSetCldAdapter c
  | .cldHostUrl => secIntSetCldHostUrl c
  | .cldHostPort => secIntSetCldHostPort c
  | .pxyHostUrl => secIntSetPxyHostUrl c
  | .pxyHostPort => secIntSetPxyHostPort c
  | .cloudHash => secIntSetCloudHash c
  | .cloudHashDec => secIntSetCloudHashDec c
  | .provState => secIntSetProvState c
  | .reprovPend => secIntSetReprovPend c

/-- The function of a getter. -/
def Getter.run : Getter → Ctx → Except Status (List UInt8)
  | .rootCa => secIntGetRootCa c
  | .mqttClientId => secIntGetMqttClientId c
  | .ownPubKey => secIntGetOwnPubKey c
  | .hkdf32bPseSalt => secIntGetHkdf32bPseSalt c
  | .devId => secIntGetDevId c
  | .tokId => secIntGetTokId c
  | .cldAdapter => secIntGetCldAdapter c
  | .cldHostUrl => secIntGetCldHostUrl c
  | .cldHostPort => secIntGetCldHostPort c
  | .pxyHostUrl => secIntGetPxyHostUrl c
  | .pxyHostPort => secIntGetPxyHostPort c
  | .cloudHash => secIntGetCloudHash c
  | .provState => secIntGetProvState c
  | .reprovPend => secIntGetReprovPend c

/-- The field a setter writes. -/
def Setter.field : Setter → Field
  | .mqttClientId => .mqttClientId
  | .rootCa => .rootCa
  | .ownPubKey => .ownPubKey
  | .hkdf32bPseSalt => .hkdf32bPseSalt
  | .devId => .devId
  | .tokId => .tokId
  | .cldAdapter => .cldAdapter
  | .cldHostUrl => .cldHostUrl
  | .cldHostPort => .cldHostPort
  | .pxyHostUrl => .pxyHostUrl
  | .pxyHostPort => .pxyHostPort
  | .cloudHash => .cloudHash
  | .cloudHashDec => .cloudHashDec
  | .provState => .provState
  | .reprovPend => .reprovPend

/-! ### Reprovisioning -/

/-- `enum sec_info_type`. -/
inductive SecInfoType
  | devId
  | tokId
  | cldHostUrl
  | cldHostPort
  | pxyHostUrl
  | pxyHostPort
  | provState
  deriving DecidableEq, Repr

/-- The type of a number. -/
def SecInfoType.ofCode : ℕ → Option SecInfoType
  | 0 => some .devId
  | 1 => some .tokId
  | 2 => some .cldHostUrl
  | 3 => some .cldHostPort
  | 4 => some .pxyHostUrl
  | 5 => some .pxyHostPort
  | 6 => some .provState
  | _ => none

/-- The setter of a type. -/
def SecInfoType.setter : SecInfoType → Setter
  | .devId => .devId
  | .tokId => .tokId
  | .cldHostUrl => .cldHostUrl
  | .cldHostPort => .cldHostPort
  | .pxyHostUrl => .pxyHostUrl
  | .pxyHostPort => .pxyHostPort
  | .provState => .provState

/-- The number of bytes the setter of a type takes: the ports and the state are copied as an
`unsigned int`, whatever the length is. -/
def SecInfoType.dataLen (t : SecInfoType) (secLen : ℕ) : ℕ :=
  match t with
  | .cldHostPort | .pxyHostPort | .provState => 4
  | _ => secLen

/-- `SEC_REPROV_PEND`. -/
def secReprovPend : ℕ := 1

/-- `sec_int_set_reprovision`.  Nobody looks at what the two setters return. -/
def secIntSetReprovision (m : Ctx) (src : ℕ → UInt8) (secLen type : ℕ) : Status × Ctx :=
  match SecInfoType.ofCode type with
  | none => (.failedInvalidParam, m)
  | some t =>
      let m := (t.setter.run c m (read src 0 (t.dataLen secLen))).2
      (.success, (secIntSetReprovPend c m (leBytes 4 secReprovPend)).2)

/-! ### Calls -/

/-- The calls that work on the context. -/
inductive CtxCall
  | set (x : Setter) (data : List UInt8)
  | get (x : Getter)
  | setReprovision (src : ℕ → UInt8) (secLen type : ℕ)
  /-- `sec_hc_process_cmd_data_once`, on the TLV at an address of the receive buffer. -/
  | processCmdDataOnce (rx : ℕ → UInt8) (pos : ℕ)
  | getNonce (tranId nonceData : UInt32) (rand : Option UInt32) (uptime : ℕ)
  | checkNonce (r : Reply) (tranId : UInt32) (uptime : ℕ)
  | setPse32bFuse (data : List UInt8)
  | getPse32bFuse (len : ℕ)
  | setPrefCseSeed (idx : ℕ)
  | findCseSeed
  | relCseSeed
  | intHashCheck
  | secDecommission

/-- The client, and whether it was decommissioned. -/
structure CtxSys where
  s : SecState
  decommissioned : Bool

variable (env : Env)

/-- A call on the client.  The getters and the two checks change nothing. -/
def ctxCall (l : CtxCall) (s : SecState) : Option SecState :=
  match l with
  | .set x data => some { s with ctx := (x.run env.crypto s.ctx data).2 }
  | .setReprovision src secLen type =>
      some { s with ctx := (secIntSetReprovision env.crypto s.ctx src secLen type).2 }
  | .processCmdDataOnce rx pos => some (secHcProcessCmdDataOnce env rx pos s).2
  | .getNonce tranId nonceData rand uptime =>
      some { s with ctx := (secIntGetNonce s.ctx tranId nonceData rand uptime).2.2 }
  | .setPse32bFuse data => some { s with ctx := (secIntSetPse32bFuse s.ctx data).2 }
  | .setPrefCseSeed idx => (secHcSetPrefCseSeed idx s).map Prod.snd
  | .findCseSeed => (secHcFindCseSeed env s).map Prod.snd
  | .relCseSeed => some (secHcRelCseSeed s)
  | .secDecommission => some { s with ctx := secIntSecDecommission s.ctx }
  | .get _ | .checkNonce _ _ _ | .getPse32bFuse _ | .intHashCheck => some s

/-- The call that closes the store. -/
def CtxCall.decommissions : CtxCall → Bool
  | .secDecommission => true
  | _ => false

/-- A call. -/
def ctxStep (l : CtxCall) (x : CtxSys) : Option CtxSys :=
  (ctxCall env l x.s).map fun s => ⟨s, x.decommissioned || l.decommissions⟩

/-- After `sec_int_init_context`. -/
structure CtxInit (x : CtxSys) : Prop where
  ctx : ∃ m, x.s.ctx = secIntInitContext env.crypto m
  commissioned : x.decommissioned = false

/-- The data of a call is no longer than its field. -/
def CallFits (_ : CtxSys) : CtxCall → Prop
  | .set x data => data.length ≤ x.field.size
  | .setReprovision _ secLen type =>
      ∀ t, SecInfoType.ofCode type = some t → t.dataLen secLen ≤ t.setter.field.size
  | _ => True

/-- **The store is open**: the hash is right, and no function finds it wrong. -/
structure Open (m : Ctx) : Prop where
  verified : Verified c m
  getter : ∀ x : Getter, x.run c m ≠ .error .failedOobHashMismatch
  setter : ∀ (x : Setter) data, (x.run c m data).1 ≠ .failedOobHashMismatch

/-- **The store is closed**: every getter and every setter fails, and the context stays. -/
structure Closed (m : Ctx) : Prop where
  getter : ∀ x : Getter, ∃ e, x.run c m = .error e
  setter : ∀ (x : Setter) data, (x.run c m data).1 ≠ .success ∧ (x.run c m data).2 = m
  setReprovision : ∀ src secLen type, (secIntSetReprovision c m src secLen type).2 = m

variable {c}

/-! ### The hash, setter by setter -/

/-- What a setter does, by the hash. -/
structure SetterSpec (run : Ctx → List UInt8 → Status × Ctx) (c : Crypto) : Prop where
  verified : ∀ m data, Verified c m →
    (run m data).1 ≠ .failedOobHashMismatch ∧ Verified c (run m data).2
  mismatch : ∀ m data, ¬ Verified c m → (run m data).1 ≠ .success ∧ (run m data).2 = m

theorem setterSpec_setParam (f lenField : Field) : SetterSpec (secIntSetParam c f lenField) c where
  verified m data h := by
    rw [setParam_of_verified data h]
    exact ⟨fun h => (nomatch h), verify_update _⟩
  mismatch m data h := by
    rw [setParam_of_not_verified data h]
    exact ⟨fun h => (nomatch h), rfl⟩

theorem setterSpec_setParamSimple (f : Field) : SetterSpec (secIntSetParamSimple c f) c where
  verified m data h := by
    rw [setParamSimple_of_verified data h]
    exact ⟨fun h => (nomatch h), verify_update _⟩
  mismatch m data h := by
    rw [setParamSimple_of_not_verified data h]
    exact ⟨fun h => (nomatch h), rfl⟩

/-- A setter that looks at the length first. -/
theorem SetterSpec.guard {run : Ctx → List UInt8 → Status × Ctx} (h : SetterSpec run c)
    (p : List UInt8 → Prop) [DecidablePred p] {e : Status} (he : e ≠ .success)
    (he' : e ≠ .failedOobHashMismatch) :
    SetterSpec (fun m data => if p data then (e, m) else run m data) c where
  verified m data hv := by
    by_cases hp : p data
    · simp only [if_pos hp]
      exact ⟨he', hv⟩
    · simp only [if_neg hp]
      exact h.verified m data hv
  mismatch m data hv := by
    by_cases hp : p data
    · simp only [if_pos hp]
      exact ⟨he, trivial⟩
    · simp only [if_neg hp]
      exact h.mismatch m data hv

/-- **What a setter does, by the hash.** -/
theorem Setter.spec (x : Setter) : SetterSpec (x.run c) c := by
  cases x with
  | rootCa => exact (setterSpec_setParam _ _).guard _ (by decide) (by decide)
  | cloudHash | cloudHashDec =>
      exact (setterSpec_setParam _ _).guard _ (by decide) (by decide)
  | cldHostPort | pxyHostPort | provState | reprovPend => exact setterSpec_setParamSimple _
  | _ => exact setterSpec_setParam _ _

/-- **A setter keeps the hash as right, or as wrong, as it was.** -/
theorem Setter.verified_run (x : Setter) (m : Ctx) (data : List UInt8) :
    Verified c (x.run c m data).2 ↔ Verified c m := by
  by_cases h : Verified c m
  · exact iff_of_true (x.spec.verified m data h).2 h
  · rw [(x.spec.mismatch m data h).2]

/-- What a getter does, by the hash. -/
structure GetterSpec (run : Ctx → Except Status (List UInt8)) (c : Crypto) : Prop where
  verified : ∀ m, Verified c m → run m ≠ .error .failedOobHashMismatch
  mismatch : ∀ m, ¬ Verified c m → ∃ e, run m = .error e

/-- A getter that hands something out when the hash is right. -/
theorem getterSpec_of_eq {run : Ctx → Except Status (List UInt8)} (out : Ctx → List UInt8)
    (h : ∀ m, run m = match secIntVerifyContextHash c m with
      | .success => .ok (out m)
      | e => .error e) : GetterSpec run c where
  verified m hv := by
    rw [h m, verify_eq_success hv]
    exact fun h => nomatch h
  mismatch m hv := by
    rw [h m, verify_eq_mismatch hv]
    exact ⟨_, rfl⟩

/-- A getter that looks at the length first. -/
theorem GetterSpec.guard {run : Ctx → Except Status (List UInt8)} (h : GetterSpec run c)
    (p : Ctx → Prop) [DecidablePred p] {e : Status} (he : e ≠ .failedOobHashMismatch) :
    GetterSpec (fun m => if p m then .error e else run m) c where
  verified m hv := by
    by_cases hp : p m
    · simp only [if_pos hp]
      exact fun h => he (Except.error.inj h)
    · simp only [if_neg hp]
      exact h.verified m hv
  mismatch m hv := by
    by_cases hp : p m
    · simp only [if_pos hp]
      exact ⟨_, rfl⟩
    · simp only [if_neg hp]
      exact h.mismatch m hv

/-- **What a getter does, by the hash.** -/
theorem Getter.spec (x : Getter) : GetterSpec (x.run c) c := by
  cases x with
  | rootCa => exact (getterSpec_of_eq _ fun _ => rfl).guard _ (by decide)
  | hkdf32bPseSalt | cloudHash => exact (getterSpec_of_eq _ fun _ => rfl).guard _ (by decide)
  | _ => exact getterSpec_of_eq _ fun _ => rfl

theorem open_of_verified {m : Ctx} (h : Verified c m) : Open c m where
  verified := h
  getter x := x.spec.verified m h
  setter x data := (x.spec.verified m data h).1

theorem closed_of_not_verified {m : Ctx} (h : ¬ Verified c m) : Closed c m where
  getter x := x.spec.mismatch m h
  setter x data := x.spec.mismatch m data h
  setReprovision src secLen type := by
    unfold secIntSetReprovision
    cases SecInfoType.ofCode type with
    | none => rfl
    | some t =>
        simp only
        rw [(t.setter.spec.mismatch m _ h).2]
        exact (Setter.reprovPend.spec.mismatch m _ h).2

/-! ### The hash, call by call -/

theorem verified_putWord {m : Ctx} {f : Field} {n : ℕ}
    (hf : Field.hash.offset + Field.hash.size ≤ f.offset) :
    Verified c (putWord m f n) ↔ Verified c m := verified_put hf

theorem verified_setReprovision (m : Ctx) (src : ℕ → UInt8) (secLen type : ℕ) :
    Verified c (secIntSetReprovision c m src secLen type).2 ↔ Verified c m := by
  unfold secIntSetReprovision
  cases SecInfoType.ofCode type with
  | none => rfl
  | some t => exact (Setter.reprovPend.verified_run _ _).trans (t.setter.verified_run _ _)

theorem verified_getNonce (m : Ctx) (tranId nonceData : UInt32) (rand : Option UInt32)
    (uptime : ℕ) : Verified c (secIntGetNonce m tranId nonceData rand uptime).2.2 ↔
      Verified c m := by
  unfold secIntGetNonce
  split
  · rfl
  · simp only
    rw [verified_putWord (by decide), verified_putWord (by decide), verified_putWord (by decide)]

theorem verified_setPse32bFuse (m : Ctx) (data : List UInt8) :
    Verified c (secIntSetPse32bFuse m data).2 ↔ Verified c m := by
  unfold secIntSetPse32bFuse secIntSetContextParam
  split
  · rfl
  · simp only
    rw [verified_putWord (by decide), verified_put (by decide)]

variable {env}

theorem verified_setPrefCseSeed (env : Env) {idx : ℕ} {s : SecState} {q : Status × SecState}
    (h : secHcSetPrefCseSeed idx s = some q) :
    Verified env.crypto q.2.ctx ↔ Verified env.crypto s.ctx := by
  unfold secHcSetPrefCseSeed at h
  obtain ⟨seed, -, rfl⟩ := Option.map_eq_some_iff.1 h
  exact verified_setPse32bFuse _ _

/-- The setter a decrypted credential is stored with. -/
def Cred.opened : Cred → Setter
  | .tok => .tokId
  | .dev => .devId
  | .mqttId => .mqttClientId
  | .cldHash => .cloudHashDec

theorem Cred.setter_eq_run (cr : Cred) (c : Crypto) : cr.setter c = cr.opened.run c := by
  cases cr <;> rfl

theorem verified_hkdfKeyGen (env : Env) (cr : Cred) (m : Ctx) :
    Verified env.crypto (secHcHkdfKeyGen env cr.label cr.key m).2 ↔ Verified env.crypto m := by
  unfold secHcHkdfKeyGen
  split
  · rfl
  · simp only
    split
    · rfl
    · exact verified_put (cr.behind (Or.inl rfl))

theorem verified_decryptData (env : Env) (cr : Cred) (s : SecState) :
    Verified env.crypto (secHcDecryptData env cr s).2.ctx ↔ Verified env.crypto s.ctx := by
  have hk := verified_hkdfKeyGen env cr s.ctx
  unfold secHcDecryptData
  split
  · rfl
  · split
    · rename_i m hm
      rw [hm] at hk
      split
      · exact hk
      · simp only [cr.setter_eq_run]
        exact (cr.opened.verified_run _ _).trans hk
    · rename_i m _ hm
      rw [hm] at hk
      exact hk

theorem verified_findCseSeedLoop {left idx : ℕ} {s : SecState} {q : Status × SecState}
    (h : findCseSeedLoop env left idx s = some q) :
    Verified env.crypto q.2.ctx ↔ Verified env.crypto s.ctx := by
  induction left generalizing idx s with
  | zero =>
      cases h
      rfl
  | succ left ih =>
      obtain ⟨p, hp, h⟩ := Option.bind_eq_some_iff.1 h
      have hset := verified_setPrefCseSeed env hp
      have hdec := (verified_decryptData env .cldHash p.2).trans hset
      split at h
      · cases h
        exact hset
      · simp only at h
        split at h
        · exact (ih h).trans hdec
        · cases h
          exact hdec

/-- **Every call except the decommissioning keeps the hash as right, or as wrong, as it was.** -/
theorem verified_ctxCall {l : CtxCall} {s s' : SecState} (hl : l ≠ .secDecommission)
    (h : ctxCall env l s = some s') :
    Verified env.crypto s'.ctx ↔ Verified env.crypto s.ctx := by
  cases l with
  | set x data =>
      cases h
      exact x.verified_run _ _
  | setReprovision src secLen type =>
      cases h
      exact verified_setReprovision _ _ _ _
  | processCmdDataOnce rx pos =>
      cases h
      exact verified_processCmdDataOnce _ _ _ _
  | getNonce tranId nonceData rand uptime =>
      cases h
      exact verified_getNonce _ _ _ _ _
  | setPse32bFuse data =>
      cases h
      exact verified_setPse32bFuse _ _
  | setPrefCseSeed idx =>
      obtain ⟨q, hq, rfl⟩ := Option.map_eq_some_iff.1 h
      exact verified_setPrefCseSeed env hq
  | findCseSeed =>
      obtain ⟨q, hq, rfl⟩ := Option.map_eq_some_iff.1 h
      exact verified_findCseSeedLoop hq
  | relCseSeed | get _ | checkNonce _ _ _ | getPse32bFuse _ | intHashCheck =>
      cases h
      rfl
  | secDecommission => exact absurd rfl hl

/-! ### Runs -/

/-- The hash of a structure of zeros. -/
theorem verified_decommission (m : Ctx) : Verified c (secIntSecDecommission m) ↔
    c.sha384 (List.replicate sizeofSecContext 0) = List.replicate secHashLen 0 := by
  unfold Verified secIntSecDecommission get
  rw [read_write_replicate m 0 (le_refl 0) (by decide),
    read_write_replicate m 0 (Nat.zero_le _) (by decide)]
  rfl

/-- The hash is right until the decommissioning, and wrong after it. -/
structure IntegrityInv (c : Crypto) (x : CtxSys) : Prop where
  before : x.decommissioned = false → Verified c x.s.ctx
  after : x.decommissioned = true →
    c.sha384 (List.replicate sizeofSecContext 0) ≠ List.replicate secHashLen 0 →
      ¬ Verified c x.s.ctx

theorem integrityInv_init {x : CtxSys} (h : CtxInit env x) : IntegrityInv env.crypto x where
  before _ := by
    obtain ⟨m, hm⟩ := h.ctx
    rw [hm]
    exact verified_init m
  after hd := by
    rw [h.commissioned] at hd
    cases hd

theorem integrityInv_step {x x' : CtxSys} {l : CtxCall} (h : IntegrityInv env.crypto x)
    (hst : ctxStep env l x = some x') : IntegrityInv env.crypto x' := by
  obtain ⟨s', hs', rfl⟩ := Option.map_eq_some_iff.1 hst
  by_cases hl : l = .secDecommission
  · subst hl
    cases hs'
    refine ⟨fun hd => ?_, fun _ hz hv => hz ((verified_decommission _).1 hv)⟩
    simp only [CtxCall.decommissions, Bool.or_true, Bool.true_eq_false] at hd
  · have hv := verified_ctxCall hl hs'
    have hd : (x.decommissioned || l.decommissions) = x.decommissioned := by
      cases l with
      | secDecommission => exact absurd rfl hl
      | _ => exact Bool.or_false _
    rw [hd]
    exact ⟨fun h0 => hv.2 (h.before h0), fun h1 hz hh => h.after h1 hz (hv.1 hh)⟩

/-- **The store is open until it is decommissioned, and closed after**, if the hash of zeros is
not zero. -/
theorem open_until_decommission (env : Env) (x : CtxSys)
    (h : Lts.Reach (CtxInit env) (ctxStep env) CallFits x) :
    (x.decommissioned = false → Open env.crypto x.s.ctx) ∧
      (x.decommissioned = true →
        env.crypto.sha384 (List.replicate sizeofSecContext 0) ≠ List.replicate secHashLen 0 →
          Closed env.crypto x.s.ctx) := by
  have hi : IntegrityInv env.crypto x :=
    h.invariant (fun _ => integrityInv_init) fun _ _ _ hi _ => integrityInv_step hi
  exact ⟨fun h0 => open_of_verified (hi.before h0), fun h1 hz =>
    closed_of_not_verified (hi.after h1 hz)⟩

/-- Surroundings in which the hash of zeros is not zero. -/
def onesEnv : Env :=
  { plainEnv with
    crypto := { plainCrypto with
      sha384 := fun _ => List.replicate secHashLen 1
      length_sha384 := fun _ => List.length_replicate } }

/-- The client after the start. -/
def freshSys : CtxSys := ⟨freshState onesEnv.crypto, false⟩

theorem ctxInit_freshSys : CtxInit onesEnv freshSys := ⟨⟨_, rfl⟩, rfl⟩

/-- A device is given its name, and then decommissioned. -/
theorem closed_freshSys :
    Open onesEnv.crypto freshSys.s.ctx ∧ ∃ x : CtxSys, x.decommissioned = true ∧
      Closed onesEnv.crypto x.s.ctx := by
  have h0 : Lts.Reach (CtxInit onesEnv) (ctxStep onesEnv) CallFits freshSys :=
    .init ctxInit_freshSys
  have h1 := h0.step (show CallFits _ (.set .devId [0x64]) from Nat.le_of_ble_eq_true rfl) rfl
  have h2 := h1.step (show CallFits _ .secDecommission from trivial) rfl
  exact ⟨(open_until_decommission _ _ h0).1 rfl, _, rfl,
    (open_until_decommission _ _ h2).2 rfl (by decide)⟩

end PseFw.Sec
