/-
**The contexts the setters produce.**

The context starts initialised, and then setters that succeed store values in it, in any order and
as often as they like.  What holds of every such context: the hash is right, every value stands at
the start of its field with its length in the word behind, and the numbers are as they were stored.
What stands behind a value depends on the earlier ones.

Main definitions:

* `Setter.Fits` — values for a setter;
* `StoredCtx` — the contexts, with the value each setter stored last;
* `Holds` — what holds of them.

Main results:

* `Setter.unchanged_run` — a setter leaves the other fields alone;
* `Holds.set` — **a setter keeps what holds**;
* `StoredCtx.holds` — **what holds of every context**;
* `Holds.get_string`, `Holds.get_byLen`, `Holds.get_number` — what the getters find in it.
-/

import PseFw.Sec.Credentials
import PseFw.Sec.Integrity
import PseFw.Sec.RoundTrip

set_option relaxedAutoImplicit false
set_option autoImplicit false

namespace PseFw.Sec

open Mem

/-! ### Contexts and values -/

/-- The word with the length of what a setter stores, if there is one. -/
def Setter.lenField : Setter → Option Field
  | .mqttClientId => some .mqttClientIdLen
  | .rootCa => some .rootCaLen
  | .ownPubKey => some .ownPubKeyLen
  | .hkdf32bPseSalt => some .hkdf32bPseSaltLen
  | .devId => some .devIdLen
  | .tokId => some .tokIdLen
  | .cldAdapter => some .cldAdapterLen
  | .cldHostUrl => some .cldHostUrlLen
  | .pxyHostUrl => some .pxyHostUrlLen
  | .cloudHash | .cloudHashDec => some .cloudHashLen
  | .cldHostPort | .pxyHostPort | .provState | .reprovPend => none

/-- A value for a setter: no longer than its field, and as long as that if it is a number. -/
def Setter.Fits (x : Setter) (d : List UInt8) : Prop :=
  d.length ≤ x.field.size ∧ (x.lenField = none → d.length = 4)

instance (x : Setter) (d : List UInt8) : Decidable (x.Fits d) :=
  inferInstanceAs (Decidable (_ ∧ _))

/-- The values in an initialised context. -/
def initialValue (x : Setter) : List UInt8 :=
  match x.lenField with
  | some _ => []
  | none => leBytes 4 (if x = .provState then 3 else 0)

/-- **The contexts the setters produce**, with the values stored last. -/
inductive StoredCtx (c : Crypto) : Ctx → (Setter → List UInt8) → Prop
  | init (m : Ctx) : StoredCtx c (secIntInitContext c m) initialValue
  | set {m : Ctx} {v : Setter → List UInt8} (x : Setter) (d : List UInt8) :
      StoredCtx c m v → x.Fits d → (x.run c m d).1 = .success →
      StoredCtx c (x.run c m d).2 (Function.update v x d)

/-- The setter of a credential. -/
def Credential.setter : Credential → Setter
  | .rootCa => .rootCa
  | .ownPubKey => .ownPubKey
  | .hkdf32bPseSalt => .hkdf32bPseSalt
  | .devId => .devId
  | .tokId => .tokId
  | .cldAdapter => .cldAdapter
  | .cldHostUrl => .cldHostUrl
  | .pxyHostUrl => .pxyHostUrl
  | .mqttClientId => .mqttClientId
  | .cloudHash => .cloudHash

/-- **What holds of the contexts.**  The two hashes of the cloud share one length word, which is
that of neither. -/
structure Holds (c : Crypto) (m : Ctx) (v : Setter → List UInt8) : Prop where
  verified : Verified c m
  fits : ∀ x : Setter, x.Fits (v x)
  text : ∀ X : Credential, read m X.field.offset (v X.setter).length = v X.setter
  length : ∀ X : Credential, X ≠ .cloudHash → word m X.lenField = (v X.setter).length
  number : ∀ x : Setter, x.lenField = none → get m x.field = v x

variable {c : Crypto} {m : Ctx} {v : Setter → List UInt8}

/-! ### Setters -/

theorem Credential.set_eq_run (X : Credential) : X.set c = X.setter.run c := by
  cases X <;> rfl

theorem Credential.field_setter (X : Credential) : X.setter.field = X.field := by
  cases X <;> rfl

/-- What a setter changes. -/
def Setter.touched (x : Setter) : List Field := x.field :: .hash :: x.lenField.toList

/-- Another setter touches neither the field of a credential nor its length word. -/
theorem Credential.not_touched {X : Credential} {x : Setter} (h : x ≠ X.setter) :
    X.field ∉ x.touched ∧ (X ≠ .cloudHash → X.lenField ∉ x.touched) := by
  revert h
  cases X <;> cases x <;> decide

theorem Setter.not_touched {x y : Setter} (hx : x.lenField = none) (h : y ≠ x) :
    x.field ∉ y.touched := by
  revert hx h
  cases x <;> cases y <;> decide

/-- **A setter changes its own field**, the length word and the hash. -/
theorem Setter.unchanged_run (x : Setter) {d : List UInt8} (h : x.Fits d) :
    Unchanged x.touched m (x.run c m d).2 := by
  have hparam : ∀ {f lenField : Field}, lenField.size = 4 → d.length ≤ f.size →
      Unchanged [f, .hash, lenField] m (secIntSetParam c f lenField m d).2 := by
    intro f lenField hl hle
    refine (unchanged_setParam hl hle).mono fun g hg => ?_
    simp only [List.mem_cons, List.not_mem_nil, or_false] at hg ⊢
    rcases hg with rfl | rfl | rfl
    · exact .inl rfl
    · exact .inr (.inr rfl)
    · exact .inr (.inl rfl)
  have hle := h.1
  cases x with
  | cldHostPort | pxyHostPort | provState | reprovPend => exact unchanged_setParamSimple hle
  | rootCa | cloudHash | cloudHashDec =>
      simp only [run, secIntSetRootCa, secIntSetCloudHash, secIntSetCloudHashDec]
      split
      · exact Unchanged.refl _ _
      · exact hparam rfl hle
  | _ => exact hparam rfl hle

/-! ### What holds -/

/-- A field that is not touched holds what it held. -/
theorem read_of_unchanged {fs : List Field} {m' : Ctx} (h : Unchanged fs m m') {f : Field}
    (hf : f ∉ fs) {n : ℕ} (hn : n ≤ f.size) : read m' f.offset n = read m f.offset n := by
  have hget := congrArg (List.take n) (h f hf)
  rwa [Sec.get, Sec.get, take_read _ _ hn, take_read _ _ hn] at hget

theorem Credential.lenField_size (X : Credential) : X.lenField.size = 4 := (field_ne X).2.2.2.1

/-- A setter of a number that succeeds has stored it. -/
theorem Setter.get_run {x : Setter} (hx : x.lenField = none) {d : List UInt8} (h : x.Fits d)
    (hs : (x.run c m d).1 = .success) : get (x.run c m d).2 x.field = d := by
  have hsimple : ∀ {f : Field}, f ≠ .hash → d.length = f.size →
      (secIntSetParamSimple c f m d).1 = .success →
      get (secIntSetParamSimple c f m d).2 f = d := by
    intro f hf hlen hs
    by_cases hv : Verified c m
    · rw [setParamSimple_of_verified d hv]
      exact (get_update_ne hf).trans (get_put_self hlen)
    · rw [setParamSimple_of_not_verified d hv] at hs
      cases hs
  cases x with
  | cldHostPort | pxyHostPort | provState | reprovPend =>
      exact hsimple (by decide) (h.2 hx) hs
  | _ => cases hx

/-- **A setter keeps what holds.** -/
theorem Holds.set (h : Holds c m v) {x : Setter} {d : List UInt8} (hd : x.Fits d)
    (hs : (x.run c m d).1 = .success) :
    Holds c (x.run c m d).2 (Function.update v x d) := by
  have hunch := x.unchanged_run (c := c) (m := m) hd
  refine ⟨(x.verified_run m d).2 h.verified, fun y => ?_, fun X => ?_, fun X hX => ?_,
    fun y hy => ?_⟩
  · by_cases hy : y = x
    · rw [hy, Function.update_self]
      exact hd
    · rw [Function.update_of_ne hy]
      exact h.fits y
  · by_cases hX : x = X.setter
    · subst hX
      rw [Function.update_self]
      rw [← X.set_eq_run] at hs ⊢
      rw [Credential.set_of_success hs]
      exact Credential.read_stored (X.field_setter ▸ hd.1)
    · rw [Function.update_of_ne (Ne.symm hX)]
      have hle : (v X.setter).length ≤ X.field.size := X.field_setter ▸ (h.fits X.setter).1
      rw [read_of_unchanged hunch (Credential.not_touched hX).1 hle]
      exact h.text X
  · by_cases hXx : x = X.setter
    · subst hXx
      rw [Function.update_self]
      rw [← X.set_eq_run] at hs ⊢
      rw [Credential.set_of_success hs]
      exact Credential.word_stored (X.field_setter ▸ hd.1)
    · rw [Function.update_of_ne (Ne.symm hXx), word_eq _ X.lenField_size,
        hunch _ ((Credential.not_touched hXx).2 hX), ← word_eq _ X.lenField_size]
      exact h.length X hX
  · by_cases hyx : x = y
    · subst hyx
      rw [Function.update_self]
      exact Setter.get_run hy hd hs
    · rw [Function.update_of_ne (Ne.symm hyx), hunch _ (Setter.not_touched hy hyx)]
      exact h.number y hy

theorem holds_init (m : Ctx) : Holds c (secIntInitContext c m) initialValue := by
  refine ⟨verified_init m, fun x => ?_, fun X => ?_, fun X hX => ?_, fun x hx => ?_⟩
  · cases x <;> decide
  · have hnil : initialValue X.setter = [] := by cases X <;> rfl
    rw [hnil]
    rfl
  · have hnil : initialValue X.setter = [] := by cases X <;> rfl
    have hzero : get (secIntInitContext c m) X.lenField = List.replicate X.lenField.size 0 :=
      get_init (by cases X <;> decide) (by cases X <;> decide) (by cases X <;> decide)
        (by cases X <;> decide)
    rw [hnil, word_eq _ X.lenField_size, hzero, X.lenField_size]
    rfl
  · cases x with
    | cldHostPort | pxyHostPort =>
        exact get_init (by decide) (by decide) (by decide) (by decide)
    | provState =>
        show get (secIntInitContext c m) .provState = leBytes 4 3
        unfold secIntInitContext
        rw [get_update_ne (by decide), get_putWord_ne rfl (by decide), get_putWord_self rfl]
    | reprovPend =>
        show get (secIntInitContext c m) .reprovPend = leBytes 4 0
        unfold secIntInitContext
        rw [get_update_ne (by decide), get_putWord_self rfl]
    | _ => cases hx

/-- **What holds of every context.** -/
theorem StoredCtx.holds (h : StoredCtx c m v) : Holds c m v := by
  induction h with
  | init m => exact holds_init m
  | set x d _ hd hs ih => exact ih.set hd hs

/-! ### Getters -/

variable {X : Credential}

/-- The getters that look for the end of the value. -/
theorem Holds.get_string (h : Holds c m v) (hX : X.getterKind = .string) :
    X.get c m = .ok (secIntGetContextParamByLen m X.field) := by
  cases X with
  | rootCa =>
      have hle : ¬ word m .rootCaLen > secRootCaLen := by
        have hlen := h.length .rootCa (by decide)
        have hfits := (h.fits .rootCa).1
        show ¬ word m Credential.rootCa.lenField > secRootCaLen
        rw [hlen]
        exact not_lt.2 hfits
      exact (if_neg hle).trans (Credential.getString_of_verified h.verified)
  | devId | tokId | cldAdapter | mqttClientId => exact Credential.getString_of_verified h.verified
  | _ => cases hX

/-- The getters that go by the length word. -/
theorem Holds.get_byLen (h : Holds c m v) (hX : X.getterKind = .byLen) :
    X.get c m = .ok (v X.setter) := by
  have hvalue : X ≠ .cloudHash → read m X.field.offset (word m X.lenField) = v X.setter := by
    intro hne
    rw [h.length X hne, h.text X]
  cases X with
  | ownPubKey | cldHostUrl | pxyHostUrl =>
      exact (Credential.getByLen_of_verified h.verified).trans
        (congrArg Except.ok (hvalue (by decide)))
  | _ => cases hX

/-- The getters of numbers. -/
theorem Holds.get_number (h : Holds c m v) {x : Setter} (hx : x.lenField = none) :
    secIntGetSimple c x.field m = .ok (v x) := by
  unfold secIntGetSimple
  rw [verify_eq_success h.verified]
  exact congrArg Except.ok (h.number x hx)

theorem Holds.length_le (h : Holds c m v) (X : Credential) :
    (v X.setter).length ≤ X.field.size := X.field_setter ▸ (h.fits X.setter).1

/-- **When a string is the value**: it holds no zero, and one stands behind it. -/
theorem Holds.string_eq_iff (h : Holds c m v) (X : Credential) :
    secIntGetContextParamByLen m X.field = v X.setter ↔
      0 ∉ v X.setter ∧ m (X.field.offset + (v X.setter).length) = 0 :=
  cString_eq_iff (h.text X) (lt_of_le_of_lt (h.length_le X) X.size_lt_limit)

/-- A string goes at most one byte into the length word, when the length fits in one. -/
theorem Holds.length_string_le (h : Holds c m v) (hX : X ≠ .cloudHash)
    (hsize : X.field.size < 256) :
    (secIntGetContextParamByLen m X.field).length ≤ X.field.size + 1 := by
  have hoff := Credential.offset_lenField hX
  -- the second byte of a length below 256
  have hbyte : m (X.lenField.offset + 1) = 0 := by
    have hword : ofLe (read m X.lenField.offset 4) < 256 := by
      have hlen := h.length X hX
      have hle := h.length_le X
      unfold word at hlen
      omega
    have hread : read m X.lenField.offset 4 = m X.lenField.offset :: m (X.lenField.offset + 1) ::
        read m (X.lenField.offset + 2) 2 := rfl
    rw [hread, ofLe, ofLe] at hword
    exact UInt8.toNat_inj.1 (by rw [UInt8.toNat_zero]; omega)
  refine length_cString_le ?_
  rw [← Nat.add_assoc, ← hoff]
  exact hbyte

end PseFw.Sec
