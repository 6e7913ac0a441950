/-
**The reprovisioning of one item.**

`sec_int_set_reprovision` stores one of seven items and then sets the flag that a reprovisioning is
pending.  Both stores look at the hash first, and both may fail; nobody looks at what they return,
and the result is `SEC_SUCCESS` for each of the seven types.  And nobody looks at the length.

So `SEC_SUCCESS` means nothing when the hash is wrong, as it is from a decommissioning on, and it
means nothing when the item is longer than its field.

Main definitions:

* `SecInfoType.lenField` — where the length of an item is kept;
* `HoldsItem`, `ReprovPending` — the field holds the value, and the flag is set;
* `ReprovOk` — what a call promises;
* `ReprovRegular` — the calls that keep the promise.

Main results:

* `setReprovision_of_verified`, `setReprovision_of_not_verified` — what a call does;
* `holds_stored` — the item is stored;
* `reprovOk_iff` — **when a call keeps its promise**.
-/

import PseFw.Sec.Integrity

set_option relaxedAutoImplicit false
set_option autoImplicit false

namespace PseFw.Sec

open Mem

/-! ### What a call promises -/

/-- Where the length of an item is kept; the ports and the state have no length. -/
def SecInfoType.lenField : SecInfoType → Option Field
  | .devId => some .devIdLen
  | .tokId => some .tokIdLen
  | .cldHostUrl => some .cldHostUrlLen
  | .pxyHostUrl => some .pxyHostUrlLen
  | .cldHostPort | .pxyHostPort | .provState => none

/-- The field of the item holds the value: all of it, and its length. -/
def HoldsItem (m : Ctx) (t : SecInfoType) (data : List UInt8) : Prop :=
  data.length ≤ t.setter.field.size ∧ (get m t.setter.field).take data.length = data ∧
    ∀ l, t.lenField = some l → word m l = data.length

/-- The flag is set. -/
def ReprovPending (m : Ctx) : Prop := word m .reprovPend = secReprovPend

variable (c : Crypto)

/-- **What a call promises.**  It succeeds if and only if the named field now holds the value and
the flag is set, and a call that fails leaves the context as it was. -/
structure ReprovOk (m : Ctx) (src : ℕ → UInt8) (secLen type : ℕ) : Prop where
  success_iff : (secIntSetReprovision c m src secLen type).1 = .success ↔
    ∃ t, SecInfoType.ofCode type = some t ∧
      HoldsItem (secIntSetReprovision c m src secLen type).2 t (read src 0 (t.dataLen secLen)) ∧
      ReprovPending (secIntSetReprovision c m src secLen type).2
  failed : (secIntSetReprovision c m src secLen type).1 ≠ .success →
    (secIntSetReprovision c m src secLen type).2 = m

/-- The type is none of the seven; or the item fits its field, and the hash is right or there is
nothing to change. -/
def ReprovRegular (m : Ctx) (src : ℕ → UInt8) (secLen type : ℕ) : Prop :=
  ∀ t, SecInfoType.ofCode type = some t → t.dataLen secLen ≤ t.setter.field.size ∧
    (Verified c m ∨ HoldsItem m t (read src 0 (t.dataLen secLen)) ∧ ReprovPending m)

variable {c}

/-! ### What a call does -/

/-- The context after an item is stored. -/
def storeItem (m : Ctx) (t : SecInfoType) (data : List UInt8) : Ctx :=
  match t.lenField with
  | some l => secIntSetContextParam m t.setter.field l data
  | none => put m t.setter.field data

theorem SecInfoType.run_of_verified (t : SecInfoType) {m : Ctx} (data : List UInt8)
    (h : Verified c m) :
    t.setter.run c m data = (.success, secIntUpdateContextHash c (storeItem m t data)) := by
  cases t with
  | cldHostPort | pxyHostPort | provState => exact setParamSimple_of_verified data h
  | _ => exact setParam_of_verified data h

/-- The context after both stores. -/
def reprovItem (c : Crypto) (m : Ctx) (t : SecInfoType) (data : List UInt8) : Ctx :=
  secIntUpdateContextHash c
    (put (secIntUpdateContextHash c (storeItem m t data)) .reprovPend (leBytes 4 secReprovPend))

/-- **The hash is right**: both stores are made. -/
theorem setReprovision_of_verified {m : Ctx} {type : ℕ} {t : SecInfoType} (src : ℕ → UInt8)
    (secLen : ℕ) (ht : SecInfoType.ofCode type = some t) (h : Verified c m) :
    secIntSetReprovision c m src secLen type =
      (.success, reprovItem c m t (read src 0 (t.dataLen secLen))) := by
  unfold secIntSetReprovision
  rw [ht]
  simp only
  rw [t.run_of_verified _ h]
  exact congrArg (fun q => (Status.success, q.2))
    (setParamSimple_of_verified (f := .reprovPend) (leBytes 4 secReprovPend) (verify_update _))

/-- **The hash is wrong**: none of them is made, and the call succeeds. -/
theorem setReprovision_of_not_verified {m : Ctx} {t : SecInfoType} (src : ℕ → UInt8)
    (secLen type : ℕ) (ht : SecInfoType.ofCode type = some t) (h : ¬ Verified c m) :
    secIntSetReprovision c m src secLen type = (.success, m) := by
  refine Prod.ext ?_ ((closed_of_not_verified h).setReprovision src secLen type)
  unfold secIntSetReprovision
  rw [ht]

theorem setReprovision_of_none {m : Ctx} {type : ℕ} (src : ℕ → UInt8) (secLen : ℕ)
    (ht : SecInfoType.ofCode type = none) :
    secIntSetReprovision c m src secLen type = (.failedInvalidParam, m) := by
  unfold secIntSetReprovision
  rw [ht]

/-! ### The item is stored -/

theorem SecInfoType.field_ne (t : SecInfoType) :
    t.setter.field ≠ .hash ∧ t.setter.field ≠ .reprovPend := by
  cases t <;> decide

theorem SecInfoType.lenField_spec {t : SecInfoType} {l : Field} (h : t.lenField = some l) :
    l.size = 4 ∧ l ≠ t.setter.field ∧ l ≠ .hash ∧ l ≠ .reprovPend := by
  cases t <;> cases h <;> decide

/-- What stands in the other fields of `sec_ctx` after both stores. -/
theorem get_reprovItem {m : Ctx} {t : SecInfoType} {data : List UInt8} {f : Field}
    (hh : f ≠ .hash) (hr : f ≠ .reprovPend) :
    get (reprovItem c m t data) f = get (storeItem m t data) f := by
  unfold reprovItem
  rw [get_update_ne hh, get_put_ne (le_of_eq (length_leBytes 4 _)) hr, get_update_ne hh]

theorem get_storeItem {m : Ctx} {t : SecInfoType} {data : List UInt8}
    (h : data.length ≤ t.setter.field.size) :
    get (storeItem m t data) t.setter.field =
      data ++ (get m t.setter.field).drop data.length := by
  unfold storeItem
  cases hl : t.lenField with
  | none => exact get_put_le h
  | some l =>
      obtain ⟨hsize, hne, -, -⟩ := SecInfoType.lenField_spec hl
      exact (get_putWord_ne hsize hne.symm).trans (get_put_le h)

theorem SecInfoType.size_lt (t : SecInfoType) : t.setter.field.size < 256 ^ 4 := by
  cases t <;> decide

/-- **The item is stored**, if it fits. -/
theorem holds_stored (m : Ctx) (t : SecInfoType) {data : List UInt8}
    (h : data.length ≤ t.setter.field.size) : HoldsItem (reprovItem c m t data) t data := by
  refine ⟨h, ?_, fun l hl => ?_⟩
  · rw [get_reprovItem t.field_ne.1 t.field_ne.2, get_storeItem h]
    exact List.take_left' rfl
  · obtain ⟨hsize, -, hh, hr⟩ := SecInfoType.lenField_spec hl
    rw [word_eq _ hsize, get_reprovItem hh hr]
    unfold storeItem secIntSetContextParam
    rw [hl]
    simp only
    rw [get_putWord_self hsize]
    exact ofLe_leBytes (lt_of_le_of_lt h t.size_lt)

theorem pending_stored (m : Ctx) (t : SecInfoType) (data : List UInt8) :
    ReprovPending (reprovItem c m t data) := by
  unfold ReprovPending reprovItem
  rw [word_eq _ rfl, get_update_ne (by decide), get_put_self (length_leBytes 4 _)]
  exact ofLe_leBytes (by decide)

/-! ### When a call keeps its promise -/

/-- **When a call keeps its promise.** -/
theorem reprovOk_iff (c : Crypto) (m : Ctx) (src : ℕ → UInt8) (secLen type : ℕ) :
    ReprovOk c m src secLen type ↔ ReprovRegular c m src secLen type := by
  cases ht : SecInfoType.ofCode type with
  | none =>
      refine iff_of_true ⟨?_, fun _ => ?_⟩ fun t ht' => ?_
      · rw [setReprovision_of_none src secLen ht]
        refine iff_of_false Status.noConfusion ?_
        rintro ⟨t, ht', -⟩
        rw [ht] at ht'
        cases ht'
      · rw [setReprovision_of_none src secLen ht]
      · rw [ht] at ht'
        cases ht'
  | some t =>
      have hlen : (read src 0 (t.dataLen secLen)).length = t.dataLen secLen := length_read _ _ _
      by_cases hv : Verified c m
      · have hrun := setReprovision_of_verified src secLen ht hv
        constructor
        · intro h t' ht'
          obtain ⟨t'', ht'', hitem, -⟩ := h.success_iff.1 (by rw [hrun])
          rw [ht] at ht' ht''
          cases ht'
          cases ht''
          exact ⟨hlen ▸ hitem.1, .inl hv⟩
        · intro h
          have hfits := (h t ht).1
          refine ⟨?_, fun hne => absurd (by rw [hrun]) hne⟩
          rw [hrun]
          exact iff_of_true rfl
            ⟨t, ht, holds_stored m t (hlen.symm ▸ hfits), pending_stored m t _⟩
      · have hrun := setReprovision_of_not_verified src secLen type ht hv
        constructor
        · intro h t' ht'
          obtain ⟨t'', ht'', hitem, hpend⟩ := h.success_iff.1 (by rw [hrun])
          rw [hrun] at hitem hpend
          rw [ht] at ht' ht''
          cases ht'
          cases ht''
          exact ⟨hlen ▸ hitem.1, .inr ⟨hitem, hpend⟩⟩
        · intro h
          obtain ⟨hitem, hpend⟩ := (h t ht).2.resolve_left hv
          refine ⟨?_, fun hne => absurd (by rw [hrun]) hne⟩
          rw [hrun]
          exact iff_of_true rfl ⟨t, ht, hitem, hpend⟩

/-- The hash of zeros is not zero. -/
theorem not_verified_zero : ¬ Verified onesEnv.crypto fun _ => 0 := by
  unfold Verified
  decide

/-- **A decommissioned device** takes a name, and has none. -/
theorem not_reprovOk_decommissioned : ¬ ∀ (c : Crypto) (m : Ctx) (src : ℕ → UInt8)
    (secLen type : ℕ), ReprovOk c m src secLen type := by
  intro h
  have hrun := setReprovision_of_not_verified (fun _ => 0x64) 1 0 rfl not_verified_zero
  obtain ⟨t, -, -, hpend⟩ :=
    (h onesEnv.crypto (fun _ => 0) (fun _ => 0x64) 1 0).success_iff.1 (by rw [hrun])
  rw [hrun] at hpend
  revert hpend
  unfold ReprovPending
  decide

end PseFw.Sec
