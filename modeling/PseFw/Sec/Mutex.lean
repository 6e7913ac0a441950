/-
**The mutex around the context.**

Two threads work on the context, and the functions on it take `sec_ctx_mutex` and give it back.
There are more than thirty of them, with returns between the two.  The mutex is reentrant, so a
thread that forgets to give it back notices nothing; the other one stops for ever.

One return is wrong.  `sec_int_get_nonce` turns away a transaction that is older than the one it
knows, and it does so with the mutex in its hands.

The functions are written here once more, with what they do to the mutex.  That they are the same
functions otherwise is a theorem for each of them.

Main definitions:

* `Locked`, `ctxLock`, `ctxUnlock` — a computation with its operations on the mutex;
* `Setter.locked`, `Getter.locked` and the others — the functions;
* `SecIntOp`, `SecIntOp.run` — a call;
* `LockOk` — what a run of calls promises.

Main results:

* `Setter.locked_snd`, `Getter.locked_snd` and the others — the functions are the ones of the model;
* `SecIntOp.balanced`, `SecIntOp.leaves` — **what a call does to the mutex**;
* `lockOk_iff` — **when a run keeps its promise**.
-/

import PseFw.Lib.Brackets
import PseFw.Sec.Integrity

set_option relaxedAutoImplicit false
set_option autoImplicit false

namespace PseFw.Sec

open Mem Brackets

/-! ### Operations on the mutex -/

/-- `sec_ctx_mutex`. -/
inductive CtxMutex
  | secCtxMutex
  deriving DecidableEq, Repr

/-- A computation, with the operations on the mutex it makes. -/
abbrev Locked (α : Type) : Type := List (Mark CtxMutex) × α

variable {α β : Type}

/-- Nothing is done to the mutex. -/
def ctxRet (a : α) : Locked α := ([], a)

/-- `sec_int_lock_ctx_mutex`, and then the rest. -/
def ctxLock (x : Locked α) : Locked α := (.take .secCtxMutex :: x.1, x.2)

/-- `sec_int_unlock_ctx_mutex`, and then the rest. -/
def ctxUnlock (x : Locked α) : Locked α := (.give .secCtxMutex :: x.1, x.2)

/-- A call of another function, and then the rest. -/
def Locked.call (x : Locked α) (k : α → Locked β) : Locked β := (x.1 ++ (k x.2).1, (k x.2).2)

variable (c : Crypto)

/-! ### Setters -/

/-- What most setters do: under the mutex they check the hash, store the data and compute the
hash. -/
def lockedSet (store : Ctx → Ctx) (m : Ctx) : Locked (Status × Ctx) :=
  ctxLock (match secIntVerifyContextHash c m with
    | .success => ctxUnlock (ctxRet (.success, secIntUpdateContextHash c (store m)))
    | e => ctxUnlock (ctxRet (e, m)))

/-- `sec_int_set_root_ca`: the length is looked at under the mutex. -/
def lockedSetRootCa (m : Ctx) (data : List UInt8) : Locked (Status × Ctx) :=
  ctxLock (if data.length > secRootCaLen then ctxUnlock (ctxRet (.failedInvalidParam, m))
    else match secIntVerifyContextHash c m with
    | .success => ctxUnlock (ctxRet (.success,
        secIntUpdateContextHash c (secIntSetContextParam m .rootCa .rootCaLen data)))
    | e => ctxUnlock (ctxRet (e, m)))

/-- `sec_int_set_cloud_hash` and `sec_int_set_cloud_hash_dec`: the length is looked at before. -/
def lockedSetCloudHash (f : Field) (m : Ctx) (data : List UInt8) : Locked (Status × Ctx) :=
  if data.length ≠ secCloudHashLen then ctxRet (.failedInvalidParamLen, m)
  else lockedSet c (fun m => secIntSetContextParam m f .cloudHashLen data) m

/-- The setters, with the mutex. -/
def Setter.locked (x : Setter) (m : Ctx) (data : List UInt8) : Locked (Status × Ctx) :=
  match x with
  | .mqttClientId =>
      lockedSet c (fun m => secIntSetContextParam m .mqttClientId .mqttClientIdLen data) m
  | .rootCa => lockedSetRootCa c m data
  | .ownPubKey => lockedSet c (fun m => secIntSetContextParam m .ownPubKey .ownPubKeyLen data) m
  | .hkdf32bPseSalt =>
      lockedSet c (fun m => secIntSetContextParam m .hkdf32bPseSalt .hkdf32bPseSaltLen data) m
  | .devId => lockedSet c (fun m => secIntSetContextParam m .devId .devIdLen data) m
  | .tokId => lockedSet c (fun m => secIntSetContextParam m .tokId .tokIdLen data) m
  | .cldAdapter => lockedSet c (fun m => secIntSetContextParam m .cldAdapter .cldAdapterLen data) m
  | .cldHostUrl => lockedSet c (fun m => secIntSetContextParam m .cldHostUrl .cldHostUrlLen data) m
  | .cldHostPort => lockedSet c (fun m => put m .cldHostPort data) m
  | .pxyHostUrl => lockedSet c (fun m => secIntSetContextParam m .pxyHostUrl .pxyHostUrlLen data) m
  | .pxyHostPort => lockedSet c (fun m => put m .pxyHostPort data) m
  | .cloudHash => lockedSetCloudHash c .cloudHash m data
  | .cloudHashDec => lockedSetCloudHash c .cloudHashDec m data
  | .provState => lockedSet c (fun m => put m .provState data) m
  | .reprovPend => lockedSet c (fun m => put m .reprovPend data) m

/-- `sec_int_set_pse_32b_fuse`, with the mutex. -/
def lockedSetPse32bFuse (m : Ctx) (data : List UInt8) : Locked (Status × Ctx) :=
  if data.length ≠ secFuseLen then ctxRet (.failed, m)
  else ctxLock (ctxUnlock (ctxRet
    (.success, secIntSetContextParam m .pse32bFuse .pse32bFuseLen data)))

/-- `sec_int_set_reprovision`: two setters, one after the other. -/
def lockedSetReprovision (m : Ctx) (src : ℕ → UInt8) (secLen type : ℕ) : Locked (Status × Ctx) :=
  match SecInfoType.ofCode type with
  | none => ctxRet (.failedInvalidParam, m)
  | some t =>
      (t.setter.locked c m (read src 0 (t.dataLen secLen))).call fun q =>
        (Setter.locked c .reprovPend q.2 (leBytes 4 secReprovPend)).call fun q =>
          ctxRet (.success, q.2)

/-! ### Getters -/

/-- What most getters do: under the mutex they check the hash and copy the data. -/
def lockedGet (out : Ctx → List UInt8) (m : Ctx) : Locked (Except Status (List UInt8)) :=
  ctxLock (match secIntVerifyContextHash c m with
    | .success => ctxUnlock (ctxRet (.ok (out m)))
    | e => ctxUnlock (ctxRet (.error e)))

/-- `sec_int_get_root_ca`: the length is looked at under the mutex. -/
def lockedGetRootCa (m : Ctx) : Locked (Except Status (List UInt8)) :=
  ctxLock (if word m .rootCaLen > secRootCaLen then ctxUnlock (ctxRet (.error .failedInvalidParam))
    else match secIntVerifyContextHash c m with
    | .success => ctxUnlock (ctxRet (.ok (secIntGetContextParamByLen m .rootCa)))
    | e => ctxUnlock (ctxRet (.error e)))

/-- `sec_int_get_hkdf_32b_pse_salt` and `sec_int_get_cloud_hash`: the length is looked at before. -/
def lockedGetSized (f lenField : Field) (len : ℕ) (m : Ctx) :
    Locked (Except Status (List UInt8)) :=
  if word m lenField ≠ len then ctxRet (.error .failed)
  else lockedGet c (fun m => secIntGetContextParam m f lenField) m

/-- The getters, with the mutex. -/
def Getter.locked (x : Getter) (m : Ctx) : Locked (Except Status (List UInt8)) :=
  match x with
  | .rootCa => lockedGetRootCa c m
  | .mqttClientId => lockedGet c (fun m => secIntGetContextParamByLen m .mqttClientId) m
  | .ownPubKey => lockedGet c (fun m => secIntGetContextParam m .ownPubKey .ownPubKeyLen) m
  | .hkdf32bPseSalt => lockedGetSized c .hkdf32bPseSalt .hkdf32bPseSaltLen secPseSaltLen m
  | .devId => lockedGet c (fun m => secIntGetContextParamByLen m .devId) m
  | .tokId => lockedGet c (fun m => secIntGetContextParamByLen m .tokId) m
  | .cldAdapter => lockedGet c (fun m => secIntGetContextParamByLen m .cldAdapter) m
  | .cldHostUrl => lockedGet c (fun m => secIntGetContextParam m .cldHostUrl .cldHostUrlLen) m
  | .cldHostPort => lockedGet c (fun m => get m .cldHostPort) m
  | .pxyHostUrl => lockedGet c (fun m => secIntGetContextParam m .pxyHostUrl .pxyHostUrlLen) m
  | .pxyHostPort => lockedGet c (fun m => get m .pxyHostPort) m
  | .cloudHash => lockedGetSized c .cloudHash .cloudHashLen secCloudHashLen m
  | .provState => lockedGet c (fun m => get m .provState) m
  | .reprovPend => lockedGet c (fun m => get m .reprovPend) m

/-- `sec_int_get_pse_32b_fuse`, with the mutex. -/
def lockedGetPse32bFuse (m : Ctx) (len : ℕ) : Locked (Except Status (List UInt8)) :=
  if len ≠ word m .pse32bFuseLen then ctxRet (.error .failed)
  else ctxLock (ctxUnlock (ctxRet (.ok (secIntGetContextParam m .pse32bFuse .pse32bFuseLen))))

/-- `sec_hc_int_hash_check`, with the mutex. -/
def lockedIntHashCheck (m : Ctx) : Locked Status :=
  ctxLock (match secIntVerifyContextHash c m with
    | .success =>
        if get m .cloudHash = get m .cloudHashDec then ctxUnlock (ctxRet .success)
        else ctxUnlock (ctxRet .failedOobHashMismatch)
    | e => ctxUnlock (ctxRet e))

/-! ### The nonce -/

/-- `sec_int_get_nonce`, with the mutex.  The first return does not give it back. -/
def lockedGetNonce (m : Ctx) (tranId nonceData : UInt32) (rand : Option UInt32) (uptime : ℕ) :
    Locked (Status × UInt32 × Ctx) :=
  ctxLock (if tranId.toNat < word m .tranId then ctxRet (.failedInvalidParam, nonceData, m)
    else
      let m := putWord m .tranId tranId.toNat
      let result := if rand.isSome then Status.success else .failed
      let nonceData := rand.getD nonceData
      let m := putWord m .nonce nonceData.toNat
      ctxUnlock (ctxRet (result, nonceData, putWord m .nonceTimeS (secIntGetTime uptime))))

/-- `sec_int_check_nonce`, with the mutex, which is taken a first time for the transaction and a
second time for the number. -/
def lockedCheckNonce (m : Ctx) (r : Reply) (tranId : UInt32) (uptime : ℕ) : Locked Status :=
  ctxLock (if tranId.toNat ≠ word m .tranId then ctxUnlock (ctxRet .failedInvalidParam)
    else ctxUnlock ((Getter.locked c .ownPubKey m).call fun q => match q with
      | .error e => ctxRet e
      | .ok key =>
          if c.gcmSetkey key = false then ctxRet .failed
          else match c.gcmAuthDecrypt key r.iv r.tag r.data with
            | none => ctxRet .failed
            | some decrypted =>
                ctxLock (if word m .nonce ≠ ofLe (read (write r.stack 0 decrypted) 0 4) then
                    ctxUnlock (ctxRet .failed)
                  else if (secIntGetTime uptime + 2 ^ 32 - word m .nonceTimeS) % 2 ^ 32 >
                      secNonceDencTimeoutInS then ctxUnlock (ctxRet .failedOobTimeout)
                  else ctxUnlock (ctxRet .success))))

/-! ### The same functions -/

variable {c}

@[simp] theorem ctxRet_snd (a : α) : (ctxRet a).2 = a := rfl

@[simp] theorem ctxLock_snd (x : Locked α) : (ctxLock x).2 = x.2 := rfl

@[simp] theorem ctxUnlock_snd (x : Locked α) : (ctxUnlock x).2 = x.2 := rfl

@[simp] theorem call_snd (x : Locked α) (k : α → Locked β) : (x.call k).2 = (k x.2).2 := rfl

theorem lockedSet_param (f lenField : Field) (m : Ctx) (data : List UInt8) :
    (lockedSet c (fun m => secIntSetContextParam m f lenField data) m).2 =
      secIntSetParam c f lenField m data := by
  unfold lockedSet secIntSetParam
  cases secIntVerifyContextHash c m <;> rfl

theorem lockedSet_paramSimple (f : Field) (m : Ctx) (data : List UInt8) :
    (lockedSet c (fun m => put m f data) m).2 = secIntSetParamSimple c f m data := by
  unfold lockedSet secIntSetParamSimple
  cases secIntVerifyContextHash c m <;> rfl

theorem lockedSetCloudHash_snd (f : Field) (m : Ctx) (data : List UInt8) :
    (lockedSetCloudHash c f m data).2 =
      if data.length ≠ secCloudHashLen then (.failedInvalidParamLen, m)
      else secIntSetParam c f .cloudHashLen m data := by
  unfold lockedSetCloudHash
  split
  · rfl
  · exact lockedSet_param f .cloudHashLen m data

/-- **The setters are the setters.** -/
theorem Setter.locked_snd (x : Setter) (m : Ctx) (data : List UInt8) :
    (x.locked c m data).2 = x.run c m data := by
  cases x with
  | rootCa =>
      unfold Setter.locked lockedSetRootCa Setter.run secIntSetRootCa secIntSetParam
      simp only [ctxLock_snd]
      split
      · rfl
      · cases secIntVerifyContextHash c m <;> rfl
  | cloudHash => exact lockedSetCloudHash_snd .cloudHash m data
  | cloudHashDec => exact lockedSetCloudHash_snd .cloudHashDec m data
  | cldHostPort | pxyHostPort | provState | reprovPend => exact lockedSet_paramSimple _ m data
  | _ => exact lockedSet_param _ _ m data

theorem lockedSetPse32bFuse_snd (m : Ctx) (data : List UInt8) :
    (lockedSetPse32bFuse m data).2 = secIntSetPse32bFuse m data := by
  unfold lockedSetPse32bFuse secIntSetPse32bFuse
  split <;> rfl

theorem lockedSetReprovision_snd (m : Ctx) (src : ℕ → UInt8) (secLen type : ℕ) :
    (lockedSetReprovision c m src secLen type).2 = secIntSetReprovision c m src secLen type := by
  unfold lockedSetReprovision secIntSetReprovision
  cases SecInfoType.ofCode type with
  | none => rfl
  | some t =>
      simp only [call_snd, ctxRet_snd, Setter.locked_snd]
      rfl

theorem lockedGet_string (f : Field) (m : Ctx) :
    (lockedGet c (fun m => secIntGetContextParamByLen m f) m).2 = secIntGetString c f m := by
  unfold lockedGet secIntGetString
  cases secIntVerifyContextHash c m <;> rfl

theorem lockedGet_byLen (f lenField : Field) (m : Ctx) :
    (lockedGet c (fun m => secIntGetContextParam m f lenField) m).2 =
      secIntGetByLen c f lenField m := by
  unfold lockedGet secIntGetByLen
  cases secIntVerifyContextHash c m <;> rfl

theorem lockedGet_simple (f : Field) (m : Ctx) :
    (lockedGet c (fun m => get m f) m).2 = secIntGetSimple c f m := by
  unfold lockedGet secIntGetSimple
  cases secIntVerifyContextHash c m <;> rfl

theorem lockedGetSized_snd (f lenField : Field) (len : ℕ) (m : Ctx) :
    (lockedGetSized c f lenField len m).2 =
      if word m lenField ≠ len then .error .failed else secIntGetByLen c f lenField m := by
  unfold lockedGetSized
  split
  · rfl
  · exact lockedGet_byLen f lenField m

/-- **The getters are the getters.** -/
theorem Getter.locked_snd (x : Getter) (m : Ctx) : (x.locked c m).2 = x.run c m := by
  cases x with
  | rootCa =>
      unfold Getter.locked lockedGetRootCa Getter.run secIntGetRootCa secIntGetString
      simp only [ctxLock_snd]
      split
      · rfl
      · cases secIntVerifyContextHash c m <;> rfl
  | hkdf32bPseSalt => exact lockedGetSized_snd .hkdf32bPseSalt .hkdf32bPseSaltLen secPseSaltLen m
  | cloudHash => exact lockedGetSized_snd .cloudHash .cloudHashLen secCloudHashLen m
  | mqttClientId | devId | tokId | cldAdapter => exact lockedGet_string _ m
  | ownPubKey | cldHostUrl | pxyHostUrl => exact lockedGet_byLen _ _ m
  | cldHostPort | pxyHostPort | provState | reprovPend => exact lockedGet_simple _ m

theorem lockedGetPse32bFuse_snd (m : Ctx) (len : ℕ) :
    (lockedGetPse32bFuse m len).2 = secIntGetPse32bFuse m len := by
  unfold lockedGetPse32bFuse secIntGetPse32bFuse
  split <;> rfl

theorem lockedIntHashCheck_snd (m : Ctx) : (lockedIntHashCheck c m).2 = secHcIntHashCheck c m := by
  unfold lockedIntHashCheck secHcIntHashCheck
  cases secIntVerifyContextHash c m with
  | success => by_cases h : get m .cloudHash = get m .cloudHashDec <;> simp [h]
  | _ => rfl

theorem lockedGetNonce_snd (m : Ctx) (tranId nonceData : UInt32) (rand : Option UInt32)
    (uptime : ℕ) : (lockedGetNonce m tranId nonceData rand uptime).2 =
      secIntGetNonce m tranId nonceData rand uptime := by
  unfold lockedGetNonce secIntGetNonce
  simp only [ctxLock_snd]
  split <;> rfl

theorem lockedCheckNonce_snd (m : Ctx) (r : Reply) (tranId : UInt32) (uptime : ℕ) :
    (lockedCheckNonce c m r tranId uptime).2 = secIntCheckNonce c m r tranId uptime := by
  unfold lockedCheckNonce secIntCheckNonce
  simp only [ctxLock_snd]
  by_cases ht : tranId.toNat ≠ word m .tranId
  · simp only [if_pos ht, ctxUnlock_snd, ctxRet_snd]
  · simp only [if_neg ht, ctxUnlock_snd, call_snd, Getter.locked_snd, Getter.run]
    cases secIntGetOwnPubKey c m with
    | error e => rfl
    | ok key =>
        simp only
        by_cases hs : c.gcmSetkey key = false
        · simp only [if_pos hs, ctxRet_snd]
        · simp only [if_neg hs]
          cases c.gcmAuthDecrypt key r.iv r.tag r.data with
          | none => rfl
          | some decrypted =>
              simp only [ctxLock_snd]
              split
              · rfl
              · split <;> rfl

/-! ### Calls -/

/-- The functions that touch neither the mutex nor the context. -/
inductive SecIntAside
  | openIosfSb
  | checkIosfSbReady
  | readIosfSb
  | closeIosfSb
  | start
  | getRandNum
  | getRandNumByMbed
  | waitTimeoutAsync
  | waitTimeoutSync
  | getTime
  deriving DecidableEq, Repr

/-- A call of a function of the context, or of one that has nothing to do with it. -/
inductive SecIntOp
  | verifyContextHash
  | updateContextHash
  | initContext
  | secDecommission
  | getContextParamByLen (f : Field)
  | getContextParam (f lenField : Field)
  | setContextParam (f lenField : Field) (data : List UInt8)
  | getContextParamSimple (f : Field)
  | setContextParamSimple (f : Field) (data : List UInt8)
  | getContext
  | set (x : Setter) (data : List UInt8)
  | get (x : Getter)
  | setPse32bFuse (data : List UInt8)
  | getPse32bFuse (len : ℕ)
  | intHashCheck
  | setReprovision (src : ℕ → UInt8) (secLen type : ℕ)
  | getNonce (tranId nonceData : UInt32) (rand : Option UInt32) (uptime : ℕ)
  | checkNonce (r : Reply) (tranId : UInt32) (uptime : ℕ)
  | aside (x : SecIntAside)

variable (c)

/-- What a call does to the mutex, and the context it leaves. -/
def SecIntOp.run (op : SecIntOp) (m : Ctx) : Locked Ctx :=
  match op with
  | .updateContextHash => ctxRet (secIntUpdateContextHash c m)
  | .initContext => ctxRet (secIntInitContext c m)
  | .secDecommission => ctxRet (secIntSecDecommission m)
  | .setContextParam f lenField data => ctxRet (secIntSetContextParam m f lenField data)
  | .setContextParamSimple f data => ctxRet (put m f data)
  | .set x data => (x.locked c m data).call fun q => ctxRet q.2
  | .get x => (x.locked c m).call fun _ => ctxRet m
  | .setPse32bFuse data => (lockedSetPse32bFuse m data).call fun q => ctxRet q.2
  | .getPse32bFuse len => (lockedGetPse32bFuse m len).call fun _ => ctxRet m
  | .intHashCheck => (lockedIntHashCheck c m).call fun _ => ctxRet m
  | .setReprovision src secLen type =>
      (lockedSetReprovision c m src secLen type).call fun q => ctxRet q.2
  | .getNonce tranId nonceData rand uptime =>
      (lockedGetNonce m tranId nonceData rand uptime).call fun q => ctxRet q.2.2
  | .checkNonce r tranId uptime => (lockedCheckNonce c m r tranId uptime).call fun _ => ctxRet m
  | .verifyContextHash | .getContextParamByLen _ | .getContextParam _ _ | .getContextParamSimple _
  | .getContext | .aside _ => ctxRet m

/-- The calls of a run, each with the context it finds. -/
def callsOf : List SecIntOp → Ctx → List (SecIntOp × Ctx)
  | [], _ => []
  | op :: ops, m => (op, m) :: callsOf ops (op.run c m).2

/-- The operations on the mutex of a run. -/
def traceOf (ops : List SecIntOp) (m : Ctx) : List (Mark CtxMutex) :=
  ((callsOf c ops m).map fun q => (q.1.run c q.2).1).flatten

/-- **What a run promises**: every call takes the mutex as often as it gives it back, and after the
run the mutex is free. -/
structure LockOk (ops : List SecIntOp) (m : Ctx) : Prop where
  balanced : ∀ q ∈ callsOf c ops m, takes (q.1.run c q.2).1 = gives (q.1.run c q.2).1
  free : held [] (traceOf c ops m) = some []

/-- A call of `sec_int_get_nonce` for a transaction that is older than the one the context knows. -/
def SecIntOp.Stale (m : Ctx) : SecIntOp → Prop
  | .getNonce tranId _ _ _ => tranId.toNat < word m .tranId
  | _ => False

variable {c}

/-! ### What a call does to the mutex -/

theorem balanced_ctxRet (a : α) : Balanced (ctxRet a).1 := balanced_nil

/-- The mutex is taken and given back. -/
theorem balanced_lock_unlock {x : Locked α} (h : Balanced x.1) :
    Balanced (ctxLock (ctxUnlock x)).1 := by
  intro hs
  have hx := h hs
  simpa [ctxLock, ctxUnlock, held] using hx

theorem balanced_call {x : Locked α} {k : α → Locked β} (h : Balanced x.1)
    (hk : Balanced (k x.2).1) : Balanced (x.call k).1 := h.append hk

theorem balanced_lockedSet (store : Ctx → Ctx) (m : Ctx) : Balanced (lockedSet c store m).1 := by
  unfold lockedSet
  cases secIntVerifyContextHash c m <;> exact balanced_lock_unlock (balanced_ctxRet _)

theorem balanced_lockedSetCloudHash (f : Field) (m : Ctx) (data : List UInt8) :
    Balanced (lockedSetCloudHash c f m data).1 := by
  unfold lockedSetCloudHash
  split
  · exact balanced_ctxRet _
  · exact balanced_lockedSet _ m

theorem balanced_lockedSetRootCa (m : Ctx) (data : List UInt8) :
    Balanced (lockedSetRootCa c m data).1 := by
  unfold lockedSetRootCa
  split
  · exact balanced_lock_unlock (balanced_ctxRet _)
  · cases secIntVerifyContextHash c m <;> exact balanced_lock_unlock (balanced_ctxRet _)

theorem Setter.balanced (x : Setter) (m : Ctx) (data : List UInt8) :
    Balanced (x.locked c m data).1 := by
  unfold Setter.locked
  cases x with
  | rootCa => exact balanced_lockedSetRootCa m data
  | cloudHash => exact balanced_lockedSetCloudHash .cloudHash m data
  | cloudHashDec => exact balanced_lockedSetCloudHash .cloudHashDec m data
  | _ => exact balanced_lockedSet _ m

theorem balanced_lockedSetReprovision (m : Ctx) (src : ℕ → UInt8) (secLen type : ℕ) :
    Balanced (lockedSetReprovision c m src secLen type).1 := by
  unfold lockedSetReprovision
  cases SecInfoType.ofCode type with
  | none => exact balanced_ctxRet _
  | some t =>
      exact balanced_call (t.setter.balanced m _)
        (balanced_call (Setter.balanced .reprovPend _ _) (balanced_ctxRet _))

theorem balanced_lockedGet (out : Ctx → List UInt8) (m : Ctx) :
    Balanced (lockedGet c out m).1 := by
  unfold lockedGet
  cases secIntVerifyContextHash c m <;> exact balanced_lock_unlock (balanced_ctxRet _)

theorem balanced_lockedGetSized (f lenField : Field) (len : ℕ) (m : Ctx) :
    Balanced (lockedGetSized c f lenField len m).1 := by
  unfold lockedGetSized
  split
  · exact balanced_ctxRet _
  · exact balanced_lockedGet _ m

theorem balanced_lockedGetRootCa (m : Ctx) : Balanced (lockedGetRootCa c m).1 := by
  unfold lockedGetRootCa
  split
  · exact balanced_lock_unlock (balanced_ctxRet _)
  · cases secIntVerifyContextHash c m <;> exact balanced_lock_unlock (balanced_ctxRet _)

theorem Getter.balanced (x : Getter) (m : Ctx) : Balanced (x.locked c m).1 := by
  unfold Getter.locked
  cases x with
  | rootCa => exact balanced_lockedGetRootCa m
  | hkdf32bPseSalt => exact balanced_lockedGetSized .hkdf32bPseSalt .hkdf32bPseSaltLen _ m
  | cloudHash => exact balanced_lockedGetSized .cloudHash .cloudHashLen _ m
  | _ => exact balanced_lockedGet _ m

theorem balanced_lockedIntHashCheck (m : Ctx) : Balanced (lockedIntHashCheck c m).1 := by
  unfold lockedIntHashCheck
  cases secIntVerifyContextHash c m with
  | success =>
      simp only
      split <;> exact balanced_lock_unlock (balanced_ctxRet _)
  | _ => exact balanced_lock_unlock (balanced_ctxRet _)

theorem balanced_lockedGetNonce {m : Ctx} {tranId : UInt32} (nonceData : UInt32)
    (rand : Option UInt32) (uptime : ℕ) (h : ¬ tranId.toNat < word m .tranId) :
    Balanced (lockedGetNonce m tranId nonceData rand uptime).1 := by
  unfold lockedGetNonce
  rw [if_neg h]
  exact balanced_lock_unlock (balanced_ctxRet _)

/-- **A call that is turned away keeps the mutex.** -/
theorem leaves_lockedGetNonce {m : Ctx} {tranId : UInt32} (nonceData : UInt32)
    (rand : Option UInt32) (uptime : ℕ) (h : tranId.toNat < word m .tranId) :
    Leaves .secCtxMutex (lockedGetNonce m tranId nonceData rand uptime).1 := by
  unfold lockedGetNonce
  rw [if_pos h]
  exact leaves_take _

theorem balanced_lockedCheckNonce (m : Ctx) (r : Reply) (tranId : UInt32) (uptime : ℕ) :
    Balanced (lockedCheckNonce c m r tranId uptime).1 := by
  unfold lockedCheckNonce
  split
  · exact balanced_lock_unlock (balanced_ctxRet _)
  · refine balanced_lock_unlock (balanced_call (Getter.balanced .ownPubKey m) ?_)
    cases (Getter.locked c .ownPubKey m).2 with
    | error e => exact balanced_ctxRet _
    | ok key =>
        simp only
        split
        · exact balanced_ctxRet _
        · cases c.gcmAuthDecrypt key r.iv r.tag r.data with
          | none => exact balanced_ctxRet _
          | some decrypted =>
              simp only
              split
              · exact balanced_lock_unlock (balanced_ctxRet _)
              · split <;> exact balanced_lock_unlock (balanced_ctxRet _)

/-- **A call gives back what it takes**, unless it is turned away. -/
theorem SecIntOp.balanced {op : SecIntOp} {m : Ctx} (h : ¬ op.Stale m) :
    Balanced (op.run c m).1 := by
  cases op with
  | set x data => exact balanced_call (x.balanced m data) (balanced_ctxRet _)
  | get x => exact balanced_call (x.balanced m) (balanced_ctxRet _)
  | setPse32bFuse data =>
      refine balanced_call ?_ (balanced_ctxRet _)
      unfold lockedSetPse32bFuse
      split
      · exact balanced_ctxRet _
      · exact balanced_lock_unlock (balanced_ctxRet _)
  | getPse32bFuse len =>
      refine balanced_call ?_ (balanced_ctxRet _)
      unfold lockedGetPse32bFuse
      split
      · exact balanced_ctxRet _
      · exact balanced_lock_unlock (balanced_ctxRet _)
  | intHashCheck => exact balanced_call (balanced_lockedIntHashCheck m) (balanced_ctxRet _)
  | setReprovision src secLen type =>
      exact balanced_call (balanced_lockedSetReprovision m src secLen type) (balanced_ctxRet _)
  | getNonce tranId nonceData rand uptime =>
      show Balanced ((lockedGetNonce m tranId nonceData rand uptime).call fun q => ctxRet q.2.2).1
      exact balanced_call (balanced_lockedGetNonce nonceData rand uptime h) (balanced_ctxRet _)
  | checkNonce r tranId uptime =>
      exact balanced_call (balanced_lockedCheckNonce m r tranId uptime) (balanced_ctxRet _)
  | _ => exact balanced_ctxRet _

/-- A call that is turned away leaves the mutex taken. -/
theorem SecIntOp.leaves {op : SecIntOp} {m : Ctx} (h : op.Stale m) :
    Leaves .secCtxMutex (op.run c m).1 := by
  cases op with
  | getNonce tranId nonceData rand uptime =>
      have hl := leaves_lockedGetNonce nonceData rand uptime h
      intro hs
      rw [SecIntOp.run, Locked.call, ctxRet, List.append_nil]
      exact hl hs
  | _ => exact absurd h id

/-! ### Runs -/

/-- A run whose calls give back what they take. -/
theorem balanced_traceOf {ops : List SecIntOp} {m : Ctx}
    (h : ∀ q ∈ callsOf c ops m, ¬ q.1.Stale q.2) : Balanced (traceOf c ops m) := by
  induction ops generalizing m with
  | nil => exact balanced_nil
  | cons op ops ih =>
      have hop := SecIntOp.balanced (c := c) (h (op, m) List.mem_cons_self)
      exact hop.append (ih fun q hq => h q (List.mem_cons_of_mem _ hq))

/-- **When a run keeps its promise**: no call of it is turned away by `sec_int_get_nonce`. -/
theorem lockOk_iff (c : Crypto) (ops : List SecIntOp) (m : Ctx) :
    LockOk c ops m ↔ ∀ q ∈ callsOf c ops m, ¬ q.1.Stale q.2 := by
  constructor
  · intro h q hq hs
    exact (SecIntOp.leaves hs).takes_ne_gives (h.balanced q hq)
  · intro h
    exact ⟨fun q hq => (SecIntOp.balanced (h q hq)).takes_eq_gives, (balanced_traceOf h).paired⟩

/-- **Two challenges, the second one for an older transaction.** -/
theorem not_lockOk_olderTransaction : ¬ ∀ (c : Crypto) (ops : List SecIntOp) (m : Ctx),
    LockOk c ops m := by
  intro h
  have hok := h plainCrypto [.getNonce 1 0 (some 7) 5, .getNonce 0 0 (some 8) 6] ownedSys.ctx
  have hstale : (SecIntOp.getNonce 0 0 (some 8) 6).Stale challengedSys.ctx := by
    obtain ⟨-, -, ht, -⟩ := @getNonce_words ownedSys.ctx 1 0 (some 7) 5
      (by rw [nonceBoot_ownedSys.tranId]; exact Nat.zero_le _)
    have hword : word challengedSys.ctx .tranId = 1 := ht
    change (0 : UInt32).toNat < word challengedSys.ctx .tranId
    rw [hword]
    decide
  have hnext : (SecIntOp.run plainCrypto (.getNonce 1 0 (some 7) 5) ownedSys.ctx).2 =
      challengedSys.ctx :=
    congrArg (fun q => q.2.2) (lockedGetNonce_snd ownedSys.ctx 1 0 (some 7) 5)
  rw [← hnext] at hstale
  exact (SecIntOp.leaves (c := plainCrypto) hstale).takes_ne_gives
    (hok.balanced (_, _) (List.mem_cons_of_mem _ List.mem_cons_self))

end PseFw.Sec
