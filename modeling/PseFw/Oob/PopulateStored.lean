/-
**Populating from what is stored.**

The fetches are the getters of the security service, on a context that its setters have produced;
any of them may fail.  This module says when `populate_credentials` does what it is for: every value
is written inside its field, success is reported if and only if all nine fetches succeed, and then
every field holds the value that was stored, with a zero behind it.

A URL may be as long as its field in the context, and the field of the credentials is shorter.  The
certificate may fill its field, which leaves no room for the zero.  Five of the values come back as
strings, which end at the first zero, wherever it is.

Main definitions:

* `Fetch.getter`, `fetchFrom` — the fetches;
* `Fetch.storedText`, `CredentialsPopulated` — what is expected;
* `Provisioned` — a context that the setters have produced;
* `Populatable` — when the credentials are populated.

Main results:

* `Fetch.getter_eq` — what a getter finds;
* `allFit_populate_iff`, `populate_success_iff` — the two parts about any fetches;
* `credentialsPopulated_iff` — **when the credentials are populated**.
-/

import PseFw.Oob.Populate
import PseFw.Sec.Stored

set_option relaxedAutoImplicit false
set_option autoImplicit false

namespace PseFw.Oob

open CStr Mem

/-! ### The fetches -/

/-- The setter that stored what is fetched. -/
def Fetch.setter : Fetch → Sec.Setter
  | .cldAdapter => .cldAdapter
  | .tokId => .tokId
  | .devId => .devId
  | .mqttClientId => .mqttClientId
  | .cldHostUrl => .cldHostUrl
  | .cldHostPort => .cldHostPort
  | .pxyHostUrl => .pxyHostUrl
  | .pxyHostPort => .pxyHostPort
  | .rootCa => .rootCa

/-- The function that is called for a fetch; `sec_get_…` is `sec_int_get_…`. -/
def Fetch.getter (c : Sec.Crypto) : Fetch → Sec.Ctx → Except Sec.Status (List UInt8)
  | .cldAdapter => Sec.secIntGetCldAdapter c
  | .tokId => Sec.secIntGetTokId c
  | .devId => Sec.secIntGetDevId c
  | .mqttClientId => Sec.secIntGetMqttClientId c
  | .cldHostUrl => Sec.secIntGetCldHostUrl c
  | .cldHostPort => Sec.secIntGetCldHostPort c
  | .pxyHostUrl => Sec.secIntGetPxyHostUrl c
  | .pxyHostPort => Sec.secIntGetPxyHostPort c
  | .rootCa => Sec.secIntGetRootCa c

/-- The result of a fetch; some fetches may fail. -/
def fetchFrom (c : Sec.Crypto) (m : Sec.Ctx) (fails : Fetch → Bool) (f : Fetch) :
    Option (List UInt8) :=
  if fails f = true then none else (f.getter c m).toOption

/-! ### What is expected -/

/-- What the field of a fetch is to hold: the value that was stored, or, for a port, its digits. -/
def Fetch.storedText (v : Sec.Setter → List UInt8) : Fetch → List UInt8
  | .cldHostPort => printInt (intOfLe (v .cldHostPort))
  | .pxyHostPort => printInt (intOfLe (v .pxyHostPort))
  | f => v f.setter

/-- **The credentials are populated**: every value is written inside its field, success is that all
fetches succeed, and then every field holds the value that was stored, with a zero behind it,
whatever was in the structure before. -/
def CredentialsPopulated (fetch : Fetch → Option (List UInt8)) (stack : ℕ → UInt8)
    (v : Sec.Setter → List UInt8) : Prop :=
  AllFit (populateCredentials fetch stack).2 ∧
  ((populateCredentials fetch stack).1 = .success ↔ ∀ f, fetch f ≠ none) ∧
  ((∀ f, fetch f ≠ none) → ∀ (creds : ℕ → UInt8) (f : Fetch),
    f.storedText v ++ [0] <+:
      read (credMem creds (populateCredentials fetch stack).2) f.dest.offset f.dest.size)

/-- A context that the setters have produced, with the values that are stored in it. -/
structure Provisioned (c : Sec.Crypto) where
  ctx : Sec.Ctx
  value : Sec.Setter → List UInt8
  stored : Sec.StoredCtx c ctx value

/-- No fetch before the given one gives up. -/
def FetchReached (fails : Fetch → Bool) (f : Fetch) : Prop :=
  ∃ before after, fetches = before ++ f :: after ∧
    ∀ g ∈ before, g ≠ .pxyHostPort → fails g = false

/-- The values that come back as strings. -/
def stringCredentials : List Sec.Credential :=
  [.cldAdapter, .tokId, .devId, .mqttClientId, .rootCa]

/-- **When the credentials are populated.** -/
structure Populatable (m : Sec.Ctx) (v : Sec.Setter → List UInt8) (fails : Fetch → Bool) :
    Prop where
  /-- The URLs that are fetched are shorter than their fields. -/
  cldHostUrl : FetchReached fails .cldHostUrl → fails .cldHostUrl = false →
    (v .cldHostUrl).length < maxArrLen
  pxyHostUrl : FetchReached fails .pxyHostUrl → fails .pxyHostUrl = false →
    (v .pxyHostUrl).length < maxArrLen
  /-- So is the string at the start of the certificate. -/
  rootCa : FetchReached fails .rootCa → fails .rootCa = false →
    (Sec.secIntGetContextParamByLen m .rootCa).length < maxCertLen
  /-- The port of the proxy is not the only value that cannot be fetched. -/
  pxyHostPort : (∀ f, f ≠ .pxyHostPort → fails f = false) → fails .pxyHostPort = false
  /-- When everything is fetched, the strings hold no zero, and one stands behind each. -/
  strings : (∀ f, fails f = false) → ∀ X ∈ stringCredentials,
    0 ∉ v X.setter ∧ m (X.field.offset + (v X.setter).length) = 0

/-! ### Any fetches -/

variable {fetch : Fetch → Option (List UInt8)} {stack : ℕ → UInt8}

/-- **Every write stays inside** if and only if there is room for what is fetched. -/
theorem allFit_populate_iff : AllFit (populateCredentials fetch stack).2 ↔
    ∀ f u, Stages.Reached (stageFetch fetch) fetches f → stageFetch fetch f = some u →
      (f.text u).length < f.dest.size := by
  rw [populateCredentials_eq]
  constructor
  · intro h f u hf hu
    exact allFit_stageWrites_iff.1 fun w hw => h w (Stages.mem_run_iff.2 ⟨f, u, hf, hu, hw⟩)
  · intro h w hw
    obtain ⟨f, u, hf, hu, hw⟩ := Stages.mem_run_iff.1 hw
    exact allFit_stageWrites_iff.2 (h f u hf hu) w hw

theorem stageFetch_ne_none_iff {f : Fetch} :
    stageFetch fetch f ≠ none ↔ (f ≠ .pxyHostPort → fetch f ≠ none) := by
  cases f with
  | pxyHostPort => exact iff_of_true (Option.some_ne_none _) fun h => absurd rfl h
  | _ => exact ⟨fun h _ => h, fun h => h (fun heq => by cases heq)⟩

/-- **Success is that nothing fails**, but for the port of the proxy. -/
theorem populate_success_iff : (populateCredentials fetch stack).1 = .success ↔
    ∀ f, f ≠ .pxyHostPort → fetch f ≠ none := by
  have herror : ∀ f : Fetch, f.error ≠ .success := by
    intro f
    cases f <;> decide
  rw [populateCredentials_eq, Stages.run_fst_eq_iff herror]
  exact ⟨fun h f => stageFetch_ne_none_iff.1 (h f f.mem_fetches),
    fun h f _ => stageFetch_ne_none_iff.2 (h f)⟩

/-- What the fields hold when nothing fails and everything fits. -/
theorem read_populate {u : Fetch → List UInt8} (hu : ∀ f, fetch f = some (u f))
    (hfit : AllFit (populateCredentials fetch stack).2) (creds : ℕ → UInt8) (f : Fetch) :
    read (credMem creds (populateCredentials fetch stack).2) f.dest.offset f.dest.size =
      f.text (u f) ++ 0 ::
        (read creds f.dest.offset f.dest.size).drop ((f.text (u f)).length + 1) := by
  have hstage : ∀ f ∈ fetches, stageFetch fetch f = some (u f) := by
    intro f _
    cases f with
    | pxyHostPort => exact congrArg (fun r : Option (List UInt8) => some (r.getD _)) (hu _)
    | _ => exact hu _
  rw [populateCredentials_eq, Stages.run_of_forall hstage] at hfit ⊢
  exact read_dest hfit creds f

/-- **A text that is there whatever was before** is the one that was copied. -/
theorem eq_of_prefix_all {s t : List UInt8} (size : ℕ) (ht : 0 ∉ t)
    (h : ∀ old : List UInt8, old.length = size →
      s ++ [0] <+: t ++ 0 :: old.drop (t.length + 1)) : t = s := by
  have hzeros := h (List.replicate size 0) List.length_replicate
  rcases Nat.lt_trichotomy s.length t.length with hlt | heq | hgt
  · -- the zero would stand inside the text
    have hpre : s ++ [0] <+: t := List.prefix_of_prefix_length_le hzeros (List.prefix_append _ _)
      (by rw [List.length_append]; exact hlt)
    exact absurd (hpre.subset (List.mem_append_right _ (List.mem_singleton_self 0))) ht
  · have hpre : s <+: t := List.prefix_of_prefix_length_le
      ((List.prefix_append s [0]).trans hzeros) (List.prefix_append _ _) heq.le
    exact (hpre.eq_of_length heq).symm
  · -- behind the text stands what was there before
    obtain ⟨b, l, hb⟩ : ∃ b l, (s ++ [0]).drop (t.length + 1) = b :: l := by
      refine List.exists_cons_of_ne_nil fun hnil => ?_
      have hlen := List.drop_eq_nil_iff.1 hnil
      rw [List.length_append, List.length_singleton] at hlen
      omega
    have hold : ∀ x : UInt8, b = x := by
      intro x
      have hpre := (h (List.replicate size x) List.length_replicate).drop (t.length + 1)
      have hbehind : (t ++ 0 :: (List.replicate size x).drop (t.length + 1)).drop (t.length + 1) =
          (List.replicate size x).drop (t.length + 1) := by
        rw [List.drop_append, List.drop_eq_nil_of_le (Nat.le_succ _), Nat.add_sub_cancel_left]
        rfl
      rw [hb, hbehind] at hpre
      exact List.eq_of_mem_replicate (List.mem_of_mem_drop (hpre.subset List.mem_cons_self))
    exact absurd ((hold 0).symm.trans (hold 1)) (by decide)

/-! ### What is stored -/

variable {c : Sec.Crypto} {m : Sec.Ctx} {v : Sec.Setter → List UInt8} {fails : Fetch → Bool}

/-- What a getter finds. -/
def Fetch.found (m : Sec.Ctx) (v : Sec.Setter → List UInt8) : Fetch → List UInt8
  | .cldHostUrl => v .cldHostUrl
  | .cldHostPort => v .cldHostPort
  | .pxyHostUrl => v .pxyHostUrl
  | .pxyHostPort => v .pxyHostPort
  | f => Sec.secIntGetContextParamByLen m f.setter.field

/-- **What a getter finds** in a context of the setters. -/
theorem Fetch.getter_eq (h : Sec.Holds c m v) (f : Fetch) : f.getter c m = .ok (f.found m v) := by
  cases f with
  | cldAdapter => exact h.get_string (rfl : Sec.Credential.cldAdapter.getterKind = .string)
  | tokId => exact h.get_string (rfl : Sec.Credential.tokId.getterKind = .string)
  | devId => exact h.get_string (rfl : Sec.Credential.devId.getterKind = .string)
  | mqttClientId => exact h.get_string (rfl : Sec.Credential.mqttClientId.getterKind = .string)
  | rootCa => exact h.get_string (rfl : Sec.Credential.rootCa.getterKind = .string)
  | cldHostUrl => exact h.get_byLen (rfl : Sec.Credential.cldHostUrl.getterKind = .byLen)
  | pxyHostUrl => exact h.get_byLen (rfl : Sec.Credential.pxyHostUrl.getterKind = .byLen)
  | cldHostPort => exact h.get_number (rfl : Sec.Setter.cldHostPort.lenField = none)
  | pxyHostPort => exact h.get_number (rfl : Sec.Setter.pxyHostPort.lenField = none)

theorem fetchFrom_eq (h : Sec.Holds c m v) (f : Fetch) :
    fetchFrom c m fails f = if fails f = true then none else some (f.found m v) := by
  unfold fetchFrom
  rw [f.getter_eq h]
  rfl

theorem fetchFrom_ne_none_iff (h : Sec.Holds c m v) (f : Fetch) :
    fetchFrom c m fails f ≠ none ↔ fails f = false := by
  rw [fetchFrom_eq h]
  cases fails f with
  | false => exact iff_of_true (Option.some_ne_none _) rfl
  | true => exact iff_of_false (fun hne => hne rfl) (fun heq => by cases heq)

theorem fetchFrom_eq_some_iff (h : Sec.Holds c m v) (f : Fetch) (u : List UInt8) :
    fetchFrom c m fails f = some u ↔ fails f = false ∧ f.found m v = u := by
  rw [fetchFrom_eq h]
  cases fails f with
  | false => exact Option.some_inj.trans (and_iff_right rfl).symm
  | true => exact iff_of_false (fun heq => by cases heq) (fun heq => by cases heq.1)

theorem reached_iff (h : Sec.Holds c m v) {f : Fetch} :
    Stages.Reached (stageFetch (fetchFrom c m fails)) fetches f ↔ FetchReached fails f := by
  unfold Stages.Reached FetchReached
  simp only [stageFetch_ne_none_iff, fetchFrom_ne_none_iff h]

/-- There is always room for the texts of these fetches. -/
theorem Fetch.length_text_lt (h : Sec.Holds c m v) {f : Fetch} (hhost : f ≠ .cldHostUrl)
    (hproxy : f ≠ .pxyHostUrl) (hca : f ≠ .rootCa) :
    (f.text (f.found m v)).length < f.dest.size := by
  have hstring : ∀ (X : Sec.Credential) (k : ℕ), X ≠ .cloudHash → X.field.size < 256 →
      X.field.size + 1 < k → (Sec.secIntGetContextParamByLen m X.field).length < k :=
    fun X k hX hsize hk => lt_of_le_of_lt (h.length_string_le hX hsize) hk
  cases f with
  | cldAdapter => exact hstring .cldAdapter maxArrLen (by decide) (by decide) (by decide)
  | tokId => exact hstring .tokId maxIdLen (by decide) (by decide) (by decide)
  | devId => exact hstring .devId maxIdLen (by decide) (by decide) (by decide)
  | mqttClientId => exact hstring .mqttClientId maxIdLen (by decide) (by decide) (by decide)
  | cldHostPort | pxyHostPort => exact lt_of_le_of_lt (length_portText_le _) (by decide)
  | cldHostUrl => exact absurd rfl hhost
  | pxyHostUrl => exact absurd rfl hproxy
  | rootCa => exact absurd rfl hca

/-- The text that is found is the stored one, or holds no zero. -/
theorem Fetch.text_found (f : Fetch) :
    f.text (f.found m v) = f.storedText v ∨ 0 ∉ f.text (f.found m v) := by
  have hstring : ∀ g : Sec.Field, 0 ∉ Sec.secIntGetContextParamByLen m g := fun g h =>
    absurd (List.mem_takeWhile_imp h) (by decide)
  cases f with
  | cldHostUrl | pxyHostUrl => exact .inl rfl
  | cldHostPort | pxyHostPort => exact .inl (portText_eq _)
  | _ => exact .inr (hstring _)

/-- **When what is found is what was stored.** -/
theorem text_found_iff (h : Sec.Holds c m v) :
    (∀ f : Fetch, f.text (f.found m v) = f.storedText v) ↔
      ∀ X ∈ stringCredentials, 0 ∉ v X.setter ∧ m (X.field.offset + (v X.setter).length) = 0 := by
  have hiff : ∀ X : Sec.Credential, Sec.secIntGetContextParamByLen m X.field = v X.setter ↔
      0 ∉ v X.setter ∧ m (X.field.offset + (v X.setter).length) = 0 := h.string_eq_iff
  constructor
  · intro hall X hX
    refine (hiff X).1 ?_
    simp only [stringCredentials, List.mem_cons, List.not_mem_nil, or_false] at hX
    rcases hX with rfl | rfl | rfl | rfl | rfl
    · exact hall .cldAdapter
    · exact hall .tokId
    · exact hall .devId
    · exact hall .mqttClientId
    · exact hall .rootCa
  · intro hall f
    cases f with
    | cldHostUrl | pxyHostUrl => rfl
    | cldHostPort | pxyHostPort => exact portText_eq _
    | cldAdapter => exact (hiff .cldAdapter).2 (hall _ (by decide))
    | tokId => exact (hiff .tokId).2 (hall _ (by decide))
    | devId => exact (hiff .devId).2 (hall _ (by decide))
    | mqttClientId => exact (hiff .mqttClientId).2 (hall _ (by decide))
    | rootCa => exact (hiff .rootCa).2 (hall _ (by decide))

/-! ### When the credentials are populated -/

/-- The first part: there is room for the URLs and the certificate. -/
theorem allFit_stored_iff (h : Sec.Holds c m v) :
    AllFit (populateCredentials (fetchFrom c m fails) stack).2 ↔
      (FetchReached fails .cldHostUrl → fails .cldHostUrl = false →
        (v .cldHostUrl).length < maxArrLen) ∧
      (FetchReached fails .pxyHostUrl → fails .pxyHostUrl = false →
        (v .pxyHostUrl).length < maxArrLen) ∧
      (FetchReached fails .rootCa → fails .rootCa = false →
        (Sec.secIntGetContextParamByLen m .rootCa).length < maxCertLen) := by
  rw [allFit_populate_iff]
  constructor
  · intro hall
    have hroom : ∀ f : Fetch, stageFetch (fetchFrom c m fails) f = fetchFrom c m fails f →
        FetchReached fails f → fails f = false → (f.text (f.found m v)).length < f.dest.size :=
      fun f hf hr hs => hall f _ ((reached_iff h).2 hr)
        (hf.trans ((fetchFrom_eq_some_iff h f _).2 ⟨hs, rfl⟩))
    exact ⟨hroom .cldHostUrl rfl, hroom .pxyHostUrl rfl, hroom .rootCa rfl⟩
  · rintro ⟨hhost, hproxy, hca⟩ f u hf hu
    have hr := (reached_iff h).1 hf
    cases f with
    | pxyHostPort => exact lt_of_le_of_lt (length_portText_le u) (by decide)
    | cldHostUrl =>
        obtain ⟨hs, rfl⟩ := (fetchFrom_eq_some_iff h _ _).1 hu
        exact hhost hr hs
    | pxyHostUrl =>
        obtain ⟨hs, rfl⟩ := (fetchFrom_eq_some_iff h _ _).1 hu
        exact hproxy hr hs
    | rootCa =>
        obtain ⟨hs, rfl⟩ := (fetchFrom_eq_some_iff h _ _).1 hu
        exact hca hr hs
    | cldAdapter | tokId | devId | mqttClientId | cldHostPort =>
        obtain ⟨-, rfl⟩ := (fetchFrom_eq_some_iff h _ _).1 hu
        exact Fetch.length_text_lt h (by decide) (by decide) (by decide)

/-- The second part: the port of the proxy is not the only value that cannot be fetched. -/
theorem success_stored_iff (h : Sec.Holds c m v) :
    ((populateCredentials (fetchFrom c m fails) stack).1 = .success ↔
        ∀ f, fetchFrom c m fails f ≠ none) ↔
      ((∀ f, f ≠ .pxyHostPort → fails f = false) → fails .pxyHostPort = false) := by
  rw [populate_success_iff]
  simp only [fetchFrom_ne_none_iff h]
  constructor
  · intro hiff hothers
    exact hiff.1 hothers .pxyHostPort
  · intro hport
    refine ⟨fun hothers f => ?_, fun hall f _ => hall f⟩
    by_cases hf : f = .pxyHostPort
    · rw [hf]
      exact hport hothers
    · exact hothers f hf

/-- The third part: what is found is what was stored. -/
theorem holds_stored_iff (h : Sec.Holds c m v) (hall : ∀ f, fails f = false)
    (hfit : AllFit (populateCredentials (fetchFrom c m fails) stack).2) :
    (∀ (creds : ℕ → UInt8) (f : Fetch), f.storedText v ++ [0] <+:
        read (credMem creds (populateCredentials (fetchFrom c m fails) stack).2) f.dest.offset
          f.dest.size) ↔
      ∀ X ∈ stringCredentials, 0 ∉ v X.setter ∧ m (X.field.offset + (v X.setter).length) = 0 := by
  have hread := read_populate (fun f => (fetchFrom_eq_some_iff h f _).2 ⟨hall f, rfl⟩) hfit
  rw [← text_found_iff h]
  simp only [hread]
  constructor
  · intro hprefix f
    rcases f.text_found (m := m) (v := v) with heq | h0
    · exact heq
    · refine eq_of_prefix_all f.dest.size h0 fun old hold => ?_
      have hcreds := hprefix (write (fun _ => 0) f.dest.offset old) f
      rw [← hold, read_write_self] at hcreds
      exact hcreds
  · intro heq creds f
    rw [heq f]
    exact ⟨_, List.append_assoc _ _ _⟩

/-- **When the credentials are populated.** -/
theorem credentialsPopulated_iff (s : Provisioned c) (fails : Fetch → Bool) (stack : ℕ → UInt8) :
    CredentialsPopulated (fetchFrom c s.ctx fails) stack s.value ↔
      Populatable s.ctx s.value fails := by
  have h := s.stored.holds
  unfold CredentialsPopulated
  rw [success_stored_iff h]
  simp only [fetchFrom_ne_none_iff h]
  constructor
  · rintro ⟨hfit, hport, hholds⟩
    obtain ⟨hhost, hproxy, hca⟩ := (allFit_stored_iff h).1 hfit
    exact ⟨hhost, hproxy, hca, hport, fun hall => (holds_stored_iff h hall hfit).1 (hholds hall)⟩
  · rintro ⟨hhost, hproxy, hca, hport, hstrings⟩
    have hfit : AllFit (populateCredentials (fetchFrom c s.ctx fails) stack).2 :=
      (allFit_stored_iff h).2 ⟨hhost, hproxy, hca⟩
    exact ⟨hfit, hport, fun hall => (holds_stored_iff h hall hfit).2 (hstrings hall)⟩

/-- A URL of 64 bytes in a context without anything else. -/
def longUrl : Provisioned Sec.plainCrypto where
  ctx := (Sec.Setter.cldHostUrl.run Sec.plainCrypto
    (Sec.secIntInitContext Sec.plainCrypto fun _ => 0) (List.replicate 64 97)).2
  value := Function.update Sec.initialValue .cldHostUrl (List.replicate 64 97)
  stored := .set .cldHostUrl _ (.init _) (by decide) (congrArg Prod.fst
    (Sec.setParam_of_verified (List.replicate 64 97) (Sec.verified_init _)))

/-- The zero behind it does not fit. -/
theorem not_credentialsPopulated_longUrl : ¬ CredentialsPopulated
    (fetchFrom Sec.plainCrypto longUrl.ctx fun _ => false) (fun _ => 0) longUrl.value := by
  intro h
  have hroom := ((allFit_stored_iff longUrl.stored.holds).1 h.1).1
    ⟨[.cldAdapter, .tokId, .devId, .mqttClientId], _, rfl, fun _ _ _ => rfl⟩ rfl
  have hlen : longUrl.value .cldHostUrl = List.replicate 64 97 := by
    unfold longUrl
    exact Function.update_self Sec.Setter.cldHostUrl _ Sec.initialValue
  rw [hlen] at hroom
  exact absurd hroom (by decide)

end PseFw.Oob
