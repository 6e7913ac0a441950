/-
**Populating the credentials.**

`populate_credentials` fetches nine values from the security service, one after the other, and
copies each of them to a field of `struct cloud_credentials`.  When a fetch fails it returns an
error of its own; the result of the fetch of the proxy's port is not looked at.

The adapter of the cloud is chosen by the type of the cloud, a text.  The comparison goes over the
length of that text and not of the name, so every beginning of a name is taken for it, and the
empty text for the first one.

Main definitions:

* `Fetch`, `CredField` — what is fetched, and the fields of the credentials;
* `extractAdapter`, `AdapterSelected` — the adapter, and the one that is expected;
* `populateCredentials` — the result, and what is written.

Main results:

* `adapterSelected_iff` — **the types of clouds for which the adapter is the right one**;
* `populateCredentials_eq` — populating goes in stages;
* `mem_populate_adapter` — the adapter that is stored;
* `read_dest` — what a field holds when all stages are done.
-/

import Mathlib.Data.Nat.Digits.Lemmas
import PseFw.Lib.Memory
import PseFw.Lib.Stages
import PseFw.Oob.Adapter

set_option relaxedAutoImplicit false
set_option autoImplicit false

namespace PseFw.Oob

open CStr Mem

/-! ### The adapter -/

/-- `extract_adapter`; `none` is `NOADAPTER`. -/
def extractAdapter (cloudType : List UInt8) : Option CloudAdapter :=
  if strncmpEq cloudType (bytes "Telit") (str cloudType).length then some .telit
  else if strncmpEq cloudType (bytes "ThingsBoard") (str cloudType).length then some .thingsboard
  else if strncmpEq cloudType (bytes "Azure") (str cloudType).length then some .azure
  else none

/-- The adapter with a name. -/
def namedAdapter (name : List UInt8) : Option CloudAdapter :=
  if name = bytes "Telit" then some .telit
  else if name = bytes "ThingsBoard" then some .thingsboard
  else if name = bytes "Azure" then some .azure
  else none

/-- The names. -/
def adapterNames : List (List UInt8) := [bytes "Telit", bytes "ThingsBoard", bytes "Azure"]

/-- **The adapter is the right one** for what is fetched as the type of the cloud; the text ends
with a zero when it is compared. -/
def AdapterSelected (cloudType : List UInt8) : Prop :=
  extractAdapter (cloudType ++ [0]) = namedAdapter (str cloudType)

instance (cloudType : List UInt8) : Decidable (AdapterSelected cloudType) :=
  inferInstanceAs (Decidable (_ = _))

/-- The comparison finds no difference if and only if the text is the beginning of the name. -/
theorem strncmpEq_str_iff {m name : List UInt8} :
    strncmpEq m name (str m).length = true ↔ str m <+: name := by
  unfold strncmpEq
  rw [decide_eq_true_eq, List.take_length, List.prefix_iff_eq_take]

theorem extractAdapter_eq (m : List UInt8) : extractAdapter m =
    if str m <+: bytes "Telit" then some .telit
    else if str m <+: bytes "ThingsBoard" then some .thingsboard
    else if str m <+: bytes "Azure" then some .azure
    else none := by
  unfold extractAdapter
  simp only [strncmpEq_str_iff]

/-- No name is the beginning of another one. -/
theorem eq_of_prefix_adapterNames :
    ∀ a ∈ adapterNames, ∀ b ∈ adapterNames, a <+: b → a = b := by
  decide

theorem mem_adapterNames_of_named {s : List UInt8} (h : namedAdapter s ≠ none) :
    s ∈ adapterNames := by
  unfold namedAdapter at h
  simp only [adapterNames, List.mem_cons, List.not_mem_nil, or_false]
  split at h
  · next hs => exact .inl hs
  · split at h
    · next hs => exact .inr (.inl hs)
    · split at h
      · next hs => exact .inr (.inr hs)
      · exact absurd rfl h

theorem extractAdapter_ne_none {m name : List UInt8} (hname : name ∈ adapterNames)
    (h : str m <+: name) : extractAdapter m ≠ none := by
  rw [extractAdapter_eq]
  intro hnone
  simp only [adapterNames, List.mem_cons, List.not_mem_nil, or_false] at hname
  split at hnone
  · cases hnone
  · next h₁ =>
      split at hnone
      · cases hnone
      · next h₂ =>
          split at hnone
          · cases hnone
          · next h₃ =>
              rcases hname with rfl | rfl | rfl
              · exact h₁ h
              · exact h₂ h
              · exact h₃ h

/-- **When the adapter is the right one**: the type of the cloud is not the beginning of a name
without being that name. -/
theorem adapterSelected_iff (cloudType : List UInt8) : AdapterSelected cloudType ↔
    ∀ name ∈ adapterNames, str cloudType <+: name → str cloudType = name := by
  have hstr := str_concat_zero cloudType
  unfold AdapterSelected
  constructor
  · intro heq name hname hpre
    have hsome : namedAdapter (str cloudType) ≠ none :=
      heq ▸ extractAdapter_ne_none hname (hstr.symm ▸ hpre)
    exact eq_of_prefix_adapterNames _ (mem_adapterNames_of_named hsome) name hname hpre
  · intro h
    have hiff : ∀ name ∈ adapterNames, str cloudType <+: name ↔ str cloudType = name :=
      fun name hname => ⟨h name hname, fun heq => heq ▸ List.prefix_rfl⟩
    rw [extractAdapter_eq, hstr]
    unfold namedAdapter
    simp only [hiff (bytes "Telit") (by decide), hiff (bytes "ThingsBoard") (by decide),
      hiff (bytes "Azure") (by decide)]

/-- The empty type is taken for the first adapter. -/
theorem not_adapterSelected_empty : ¬ AdapterSelected [] := by
  decide

/-! ### What is fetched, and where it goes -/

/-- The fetches, in the order of `populate_credentials`. -/
inductive Fetch
  | cldAdapter
  | tokId
  | devId
  | mqttClientId
  | cldHostUrl
  | cldHostPort
  | pxyHostUrl
  | pxyHostPort
  | rootCa
  deriving DecidableEq, Repr

/-- The fields of `struct cloud_credentials`, in the order of the source. -/
inductive CredField
  | cloudType
  | cloudHost
  | cloudPort
  | token
  | tokenSize
  | username
  | usernameSize
  | mqttClientId
  | mqttClientIdSize
  | proxyUrl
  | proxyPort
  | trustedCa
  | trustedCaSize
  | cloudAdapter
  | cloudTlsSni
  deriving DecidableEq, Repr

/-- `MAX_ARR_LEN`. -/
abbrev maxArrLen : ℕ := 64

/-- `MAX_ID_LEN`. -/
abbrev maxIdLen : ℕ := 512

/-- `MAX_CERT_LEN`. -/
abbrev maxCertLen : ℕ := 2048

/-- `SEC_URL_LEN`. -/
abbrev secUrlLen : ℕ := 1024

/-- The size of a field; the fields that are not named here are numbers. -/
def CredField.size : CredField → ℕ
  | .cloudType | .cloudHost | .cloudPort | .proxyUrl | .proxyPort | .cloudTlsSni => maxArrLen
  | .token | .username | .mqttClientId => maxIdLen
  | .trustedCa => maxCertLen
  | _ => 4

def credFields : List CredField :=
  [.cloudType, .cloudHost, .cloudPort, .token, .tokenSize, .username, .usernameSize,
    .mqttClientId, .mqttClientIdSize, .proxyUrl, .proxyPort, .trustedCa, .trustedCaSize,
    .cloudAdapter, .cloudTlsSni]

/-- Where a field starts in the structure. -/
def CredField.offset (f : CredField) : ℕ := Mem.offset CredField.size credFields f

/-- The results of `populate_credentials`. -/
inductive PopulateResult
  | success
  | errFetchCloudAdapter
  | errFetchCloudUsername
  | errFetchCloudPassword
  | errFetchCloudHostUrl
  | errFetchCloudHostPort
  | errFetchProxyHostUrl
  | errFetchProxyHostPort
  | errFetchRootCa
  | errFetchCloudMqttClientId
  deriving DecidableEq, Repr

/-- Bytes that are copied to a field, from its start. -/
abbrev CredWrite : Type := CredField × List UInt8

/-! ### Numbers -/

/-- The digits of a number. -/
def decimal (n : ℕ) : List UInt8 :=
  if n = 0 then [48] else (Nat.digits 10 n).reverse.map fun d => UInt8.ofNat (48 + d)

/-- `sprintf(buffer, "%d", n)`. -/
def printInt (n : ℤ) : List UInt8 :=
  if n < 0 then 45 :: decimal n.natAbs else decimal n.natAbs

/-- The number in a variable of type `int`. -/
def intOfLe (l : List UInt8) : ℤ := (BitVec.ofNat 32 (ofLe l)).toInt

/-- The text of a port, as far as `strlen` finds it. -/
def portText (port : List UInt8) : List UInt8 := str (printInt (intOfLe port) ++ [0])

/-! ### `populate_credentials` -/

/-- What is copied for a text: its length and one byte more are cleared before. -/
def copyText (f : CredField) (buffer : List UInt8) : List CredWrite :=
  [(f, List.replicate (buffer.length + 1) 0), (f, buffer)]

/-- A length is stored. -/
def setSize (f : CredField) (size : ℕ) : CredWrite := (f, leBytes 4 size)

/-- The value of `enum cloud_adapter`. -/
def adapterBytes : Option CloudAdapter → List UInt8
  | none => leBytes 4 (2 ^ 32 - 1)
  | some .telit => leBytes 4 0
  | some .azure => leBytes 4 1
  | some .thingsboard => leBytes 4 2

/-- The host name for the handshake; `strncpy` fills the field up with zeros. -/
def sniHostname : Option CloudAdapter → List CredWrite
  | none => []
  | some .telit => [(.cloudTlsSni, padTo maxArrLen (bytes "*.devicewise.com"))]
  | some .thingsboard => [(.cloudTlsSni, padTo maxArrLen (bytes "portal.thingsboard.com"))]
  | some .azure => [(.cloudTlsSni, padTo maxArrLen (bytes "*.azure-devices.net"))]

/-- What is copied for the certificate: one byte more than was fetched, from the buffer on the
stack, which is cleared as a whole before. -/
def copyRootCa (stack : ℕ → UInt8) (ca : List UInt8) : List CredWrite :=
  let buffer := write (write stack 0 (List.replicate (secUrlLen * 2) 0)) 0 ca
  let size := ca.length + 1
  [setSize .trustedCaSize size, (.trustedCa, List.replicate size 0),
    (.trustedCa, read buffer 0 size)]

/-- Give up if a fetch fails. -/
def fetched (r : Option (List UInt8)) (error : PopulateResult)
    (next : List UInt8 → PopulateResult × List CredWrite) : PopulateResult × List CredWrite :=
  match r with
  | none => (error, [])
  | some buffer => next buffer

/-- Write, and go on. -/
def store (ws : List CredWrite) (next : PopulateResult × List CredWrite) :
    PopulateResult × List CredWrite :=
  (next.1, ws ++ next.2)

/-- `populate_credentials`: its result and what it writes, for the results of the fetches and the
memory from the buffer on. -/
def populateCredentials (fetch : Fetch → Option (List UInt8)) (stack : ℕ → UInt8) :
    PopulateResult × List CredWrite :=
  fetched (fetch .cldAdapter) .errFetchCloudAdapter fun cloudType =>
  store (copyText .cloudType cloudType ++
    [(.cloudAdapter, adapterBytes (extractAdapter (cloudType ++ [0])))]) <|
  fetched (fetch .tokId) .errFetchCloudPassword fun token =>
  store (copyText .token token ++ [setSize .tokenSize token.length]) <|
  fetched (fetch .devId) .errFetchCloudUsername fun username =>
  store (copyText .username username ++ [setSize .usernameSize username.length]) <|
  fetched (fetch .mqttClientId) .errFetchCloudMqttClientId fun clientId =>
  store (copyText .mqttClientId clientId ++ [setSize .mqttClientIdSize clientId.length]) <|
  fetched (fetch .cldHostUrl) .errFetchCloudHostUrl fun url =>
  store (copyText .cloudHost url) <|
  fetched (fetch .cldHostPort) .errFetchCloudHostPort fun port =>
  store (copyText .cloudPort (portText port)) <|
  fetched (fetch .pxyHostUrl) .errFetchProxyHostUrl fun url =>
  store (copyText .proxyUrl url) <|
  -- what is tested here is the result of the fetch before; the port stays zero
  store (copyText .proxyPort (portText ((fetch .pxyHostPort).getD (leBytes 4 0)))) <|
  fetched (fetch .rootCa) .errFetchRootCa fun ca =>
  store (sniHostname (extractAdapter (cloudType ++ [0])) ++ copyRootCa stack ca) (.success, [])

/-! ### The stages -/

/-- The order of the fetches. -/
def fetches : List Fetch :=
  [.cldAdapter, .tokId, .devId, .mqttClientId, .cldHostUrl, .cldHostPort, .pxyHostUrl,
    .pxyHostPort, .rootCa]

theorem Fetch.mem_fetches (f : Fetch) : f ∈ fetches := by
  cases f <;> decide

/-- What a stage goes on with: the fetch of the proxy's port cannot fail. -/
def stageFetch (fetch : Fetch → Option (List UInt8)) : Fetch → Option (List UInt8)
  | .pxyHostPort => some ((fetch .pxyHostPort).getD (leBytes 4 0))
  | f => fetch f

/-- The error of a stage. -/
def Fetch.error : Fetch → PopulateResult
  | .cldAdapter => .errFetchCloudAdapter
  | .tokId => .errFetchCloudPassword
  | .devId => .errFetchCloudUsername
  | .mqttClientId => .errFetchCloudMqttClientId
  | .cldHostUrl => .errFetchCloudHostUrl
  | .cldHostPort => .errFetchCloudHostPort
  | .pxyHostUrl => .errFetchProxyHostUrl
  | .pxyHostPort => .errFetchProxyHostPort
  | .rootCa => .errFetchRootCa

/-- The field a value is fetched for. -/
def Fetch.dest : Fetch → CredField
  | .cldAdapter => .cloudType
  | .tokId => .token
  | .devId => .username
  | .mqttClientId => .mqttClientId
  | .cldHostUrl => .cloudHost
  | .cldHostPort => .cloudPort
  | .pxyHostUrl => .proxyUrl
  | .pxyHostPort => .proxyPort
  | .rootCa => .trustedCa

/-- What a stage writes; the host name depends on the adapter. -/
def stageWrites (adapter : Option CloudAdapter) (stack : ℕ → UInt8) :
    Fetch → List UInt8 → List CredWrite
  | .cldAdapter, v => copyText .cloudType v ++
      [(.cloudAdapter, adapterBytes (extractAdapter (v ++ [0])))]
  | .tokId, v => copyText .token v ++ [setSize .tokenSize v.length]
  | .devId, v => copyText .username v ++ [setSize .usernameSize v.length]
  | .mqttClientId, v => copyText .mqttClientId v ++ [setSize .mqttClientIdSize v.length]
  | .cldHostUrl, v => copyText .cloudHost v
  | .cldHostPort, v => copyText .cloudPort (portText v)
  | .pxyHostUrl, v => copyText .proxyUrl v
  | .pxyHostPort, v => copyText .proxyPort (portText v)
  | .rootCa, v => sniHostname adapter ++ copyRootCa stack v

variable {fetch : Fetch → Option (List UInt8)} {stack : ℕ → UInt8}

/-- One stage of the function. -/
theorem fetched_eq {adapter : Option CloudAdapter} {f : Fetch} {fs : List Fetch}
    {next : List UInt8 → PopulateResult × List CredWrite} (hf : stageFetch fetch f = fetch f)
    (h : ∀ v, fetch f = some v → next v = store (stageWrites adapter stack f v)
      (Stages.run (stageFetch fetch) (stageWrites adapter stack) Fetch.error .success fs)) :
    fetched (fetch f) f.error next =
      Stages.run (stageFetch fetch) (stageWrites adapter stack) Fetch.error .success
        (f :: fs) := by
  cases hv : fetch f with
  | none => exact (Stages.run_cons_none (hf.trans hv)).symm
  | some v => exact (h v hv).trans (Stages.run_cons_some (hf.trans hv)).symm

theorem store_eq {adapter : Option CloudAdapter} {f : Fetch} {fs : List Fetch} {v : List UInt8}
    {next : PopulateResult × List CredWrite} (hv : stageFetch fetch f = some v)
    (h : next =
      Stages.run (stageFetch fetch) (stageWrites adapter stack) Fetch.error .success fs) :
    store (stageWrites adapter stack f v) next =
      Stages.run (stageFetch fetch) (stageWrites adapter stack) Fetch.error .success
        (f :: fs) := by
  rw [h]
  exact (Stages.run_cons_some hv).symm

/-- **Populating goes in stages.** -/
theorem populateCredentials_eq (fetch : Fetch → Option (List UInt8)) (stack : ℕ → UInt8) :
    populateCredentials fetch stack =
      Stages.run (stageFetch fetch)
        (stageWrites (extractAdapter ((fetch .cldAdapter).getD [] ++ [0])) stack)
        Fetch.error .success fetches := by
  refine fetched_eq rfl fun cloudType htype => congrArg (store _) ?_
  refine fetched_eq rfl fun token _ => congrArg (store _) ?_
  refine fetched_eq rfl fun username _ => congrArg (store _) ?_
  refine fetched_eq rfl fun clientId _ => congrArg (store _) ?_
  refine fetched_eq rfl fun url _ => congrArg (store _) ?_
  refine fetched_eq rfl fun port _ => congrArg (store _) ?_
  refine fetched_eq rfl fun url _ => congrArg (store _) ?_
  have hport : stageFetch fetch .pxyHostPort =
      some ((fetch .pxyHostPort).getD (leBytes 4 0)) := rfl
  refine store_eq hport ?_
  refine fetched_eq rfl fun ca _ => ?_
  rw [htype]
  rfl

/-- **The adapter that is stored** is the one for the type of the cloud. -/
theorem mem_populate_adapter {cloudType : List UInt8} (h : fetch .cldAdapter = some cloudType) :
    (.cloudAdapter, adapterBytes (extractAdapter (cloudType ++ [0]))) ∈
      (populateCredentials fetch stack).2 := by
  unfold populateCredentials
  rw [h]
  exact List.mem_append_left _ (List.mem_append_right _ (List.mem_singleton_self _))

/-! ### What a stage writes -/

/-- The text that belongs to what is fetched. -/
def Fetch.text : Fetch → List UInt8 → List UInt8
  | .cldHostPort, v | .pxyHostPort, v => portText v
  | _, v => v

theorem zero_not_mem_decimal (n : ℕ) : 0 ∉ decimal n := by
  unfold decimal
  split
  · decide
  · intro h
    obtain ⟨d, hd, hzero⟩ := List.mem_map.1 h
    have hlt : d < 10 := Nat.digits_lt_base (by decide) (List.mem_reverse.1 hd)
    have hnat := congrArg UInt8.toNat hzero
    rw [UInt8.toNat_ofNat', UInt8.toNat_zero] at hnat
    omega

theorem length_decimal_le {n : ℕ} (h : n < 10 ^ 10) : (decimal n).length ≤ 10 := by
  unfold decimal
  split
  · exact Nat.le_of_ble_eq_true rfl
  · rw [List.length_map, List.length_reverse]
    exact (Nat.digits_length_le_iff (by decide) n).2 h

theorem portText_eq (port : List UInt8) : portText port = printInt (intOfLe port) := by
  have h0 : 0 ∉ printInt (intOfLe port) := by
    unfold printInt
    split
    · intro h
      rcases List.mem_cons.1 h with h | h
      · exact absurd h (by decide)
      · exact zero_not_mem_decimal _ h
    · exact zero_not_mem_decimal _
  unfold portText
  rw [str_concat_zero, str_of_not_mem h0]

/-- A number of 32 bits has at most ten digits and a sign. -/
theorem length_portText_le (port : List UInt8) : (portText port).length ≤ 11 := by
  have habs : (intOfLe port).natAbs < 10 ^ 10 := by
    have hle := BitVec.toInt_lt (x := BitVec.ofNat 32 (ofLe port))
    have hge := BitVec.le_toInt (BitVec.ofNat 32 (ofLe port))
    unfold intOfLe
    omega
  have hdec := length_decimal_le habs
  rw [portText_eq]
  unfold printInt
  split
  · exact Nat.succ_le_succ hdec
  · exact hdec.trans (Nat.le_succ 10)

/-- Every write of a list stays inside its field. -/
def AllFit (ws : List CredWrite) : Prop := ∀ w ∈ ws, w.2.length ≤ w.1.size

theorem allFit_append {ws ws' : List CredWrite} : AllFit (ws ++ ws') ↔ AllFit ws ∧ AllFit ws' :=
  List.forall_mem_append

theorem allFit_copyText {f : CredField} {v : List UInt8} :
    AllFit (copyText f v) ↔ v.length < f.size := by
  unfold AllFit copyText
  rw [List.forall_mem_cons, List.forall_mem_singleton, List.length_replicate]
  exact ⟨fun h => h.1, fun h => ⟨h, h.le⟩⟩

theorem allFit_setSize {f : CredField} (h : f.size = 4) (n : ℕ) : AllFit [setSize f n] := by
  unfold AllFit
  rw [List.forall_mem_singleton, setSize, length_leBytes, h]

theorem allFit_adapter (adapter : Option CloudAdapter) :
    AllFit [(.cloudAdapter, adapterBytes adapter)] := by
  refine List.forall_mem_singleton.2 (le_of_eq ?_)
  cases adapter with
  | none => exact length_leBytes 4 _
  | some a => cases a <;> exact length_leBytes 4 _

theorem allFit_sniHostname (adapter : Option CloudAdapter) : AllFit (sniHostname adapter) := by
  cases adapter with
  | none => exact List.forall_mem_nil _
  | some a => cases a <;> exact List.forall_mem_singleton.2 (length_padTo _ _).le

theorem allFit_copyRootCa {ca : List UInt8} :
    AllFit (copyRootCa stack ca) ↔ ca.length < maxCertLen := by
  unfold AllFit copyRootCa
  rw [List.forall_mem_cons, List.forall_mem_cons, List.forall_mem_singleton,
    List.length_replicate, length_read]
  exact ⟨fun h => h.2.1, fun h => ⟨(length_leBytes _ _).le, h, h⟩⟩

/-- **A stage writes inside the fields** if and only if there is room for its text and a zero. -/
theorem allFit_stageWrites_iff {adapter : Option CloudAdapter} {f : Fetch} {v : List UInt8} :
    AllFit (stageWrites adapter stack f v) ↔ (f.text v).length < f.dest.size := by
  cases f with
  | cldAdapter =>
      exact allFit_append.trans ((and_iff_left (allFit_adapter _)).trans allFit_copyText)
  | tokId | devId | mqttClientId =>
      exact allFit_append.trans ((and_iff_left (allFit_setSize rfl _)).trans allFit_copyText)
  | cldHostUrl | cldHostPort | pxyHostUrl | pxyHostPort => exact allFit_copyText
  | rootCa =>
      exact allFit_append.trans ((and_iff_right (allFit_sniHostname _)).trans allFit_copyRootCa)

/-! ### What the fields hold afterwards -/

/-- The memory of the structure after some writes. -/
def credMem (creds : ℕ → UInt8) (ws : List CredWrite) : ℕ → UInt8 :=
  Mem.writes creds (ws.map fun w => (w.1.offset, w.2))

/-- The fields a stage writes. -/
def Fetch.fields : Fetch → List CredField
  | .cldAdapter => [.cloudType, .cloudAdapter]
  | .tokId => [.token, .tokenSize]
  | .devId => [.username, .usernameSize]
  | .mqttClientId => [.mqttClientId, .mqttClientIdSize]
  | .cldHostUrl => [.cloudHost]
  | .cldHostPort => [.cloudPort]
  | .pxyHostUrl => [.proxyUrl]
  | .pxyHostPort => [.proxyPort]
  | .rootCa => [.cloudTlsSni, .trustedCaSize, .trustedCa]

theorem Fetch.dest_not_mem_fields {f g : Fetch} (h : f ≠ g) : f.dest ∉ g.fields := by
  revert h
  cases f <;> cases g <;> decide

theorem CredField.mem_credFields (f : CredField) : f ∈ credFields := by
  cases f <;> decide

theorem mem_fields_of_copyText {f : CredField} {v : List UInt8} {w : CredWrite}
    (h : w ∈ copyText f v) : w.1 = f := by
  unfold copyText at h
  rcases List.mem_cons.1 h with rfl | h
  · rfl
  · rw [List.mem_singleton.1 h]

theorem mem_sniHostname {adapter : Option CloudAdapter} {w : CredWrite}
    (h : w ∈ sniHostname adapter) : w.1 = .cloudTlsSni := by
  cases adapter with
  | none => cases h
  | some a => cases a <;> rw [List.mem_singleton.1 h]

theorem mem_fields {adapter : Option CloudAdapter} {f : Fetch} {v : List UInt8} {w : CredWrite}
    (h : w ∈ stageWrites adapter stack f v) : w.1 ∈ f.fields := by
  cases f with
  | cldAdapter | tokId | devId | mqttClientId =>
      rcases List.mem_append.1 h with h | h
      · rw [mem_fields_of_copyText h]
        exact List.mem_cons_self
      · rw [List.mem_singleton.1 h]
        exact List.mem_cons_of_mem _ List.mem_cons_self
  | cldHostUrl | cldHostPort | pxyHostUrl | pxyHostPort =>
      rw [mem_fields_of_copyText h]
      exact List.mem_cons_self
  | rootCa =>
      rcases List.mem_append.1 h with h | h
      · rw [mem_sniHostname h]
        decide
      · unfold copyRootCa at h
        simp only [List.mem_cons, List.not_mem_nil, or_false] at h
        rcases h with rfl | rfl | rfl
        · exact List.mem_cons_of_mem _ List.mem_cons_self
        · exact List.mem_cons_of_mem _ (List.mem_cons_of_mem _ List.mem_cons_self)
        · exact List.mem_cons_of_mem _ (List.mem_cons_of_mem _ List.mem_cons_self)

/-- A field is as before when the writes go to other ones. -/
theorem read_credMem_of_ne {creds : ℕ → UInt8} {ws : List CredWrite} {f : CredField} {n : ℕ}
    (hfit : AllFit ws) (hne : ∀ w ∈ ws, w.1 ≠ f) (hn : n ≤ f.size) :
    read (credMem creds ws) f.offset n = read creds f.offset n := by
  refine read_congr fun i hlo hhi => writes_of_untouched (fun w hw => ?_) creds
  obtain ⟨u, hu, rfl⟩ := List.mem_map.1 hw
  have hlen := hfit u hu
  rcases Mem.offset_disjoint CredField.size u.1.mem_credFields f.mem_credFields (hne u hu) with
    hd | hd
  · right
    show u.1.offset + u.2.length ≤ i
    have hd' : u.1.offset + u.1.size ≤ f.offset := hd
    omega
  · left
    show i < u.1.offset
    have hd' : f.offset + f.size ≤ u.1.offset := hd
    omega

/-- The only writes to a field: it is cleared, and a text is copied, with or without its zero. -/
def Copies (f : CredField) (text : List UInt8) (ws : List CredWrite) : Prop :=
  ∃ before l after,
    ws = before ++ ([(f, List.replicate (text.length + 1) 0), (f, l)] ++ after) ∧
    (l = text ∨ l = text ++ [0]) ∧ (∀ w ∈ before, w.1 ≠ f) ∧ ∀ w ∈ after, w.1 ≠ f

theorem credMem_append (creds : ℕ → UInt8) (ws ws' : List CredWrite) :
    credMem creds (ws ++ ws') = credMem (credMem creds ws) ws' := by
  unfold credMem
  rw [List.map_append, writes_append]

/-- **What a field holds** after a text was copied to it: the text, a zero, and behind them what
was there before. -/
theorem read_of_copies {creds : ℕ → UInt8} {f : CredField} {text : List UInt8}
    {ws : List CredWrite} (h : Copies f text ws) (hfit : AllFit ws) :
    read (credMem creds ws) f.offset f.size =
      text ++ 0 :: (read creds f.offset f.size).drop (text.length + 1) := by
  obtain ⟨before, l, after, rfl, hl, hbefore, hafter⟩ := h
  rw [allFit_append, allFit_append] at hfit
  obtain ⟨hfirst, hcopy, hrest⟩ := hfit
  have hroom : text.length + 1 ≤ f.size := by
    have := hcopy _ List.mem_cons_self
    rwa [List.length_replicate] at this
  have hold : read (credMem creds before) f.offset f.size = read creds f.offset f.size :=
    read_credMem_of_ne hfirst hbefore le_rfl
  rw [credMem_append, credMem_append, read_credMem_of_ne hrest hafter le_rfl, ← hold]
  generalize credMem creds before = m
  have hlen : (List.replicate (text.length + 1) (0 : UInt8)).length = text.length + 1 :=
    List.length_replicate
  show read (write (write m f.offset (List.replicate (text.length + 1) 0)) f.offset l) _ _ = _
  rcases hl with rfl | rfl
  · rw [read_write_le _ _ ((Nat.le_succ _).trans hroom),
      read_write_le m f.offset (by rw [hlen]; exact hroom), hlen, List.drop_append_of_le_length
        (by rw [hlen]; exact Nat.le_succ _), List.drop_replicate, Nat.add_sub_cancel_left]
    rfl
  · have hl : (text ++ [(0 : UInt8)]).length = text.length + 1 := by
      rw [List.length_append, List.length_singleton]
    rw [read_write_le _ _ (by rw [hl]; exact hroom),
      read_write_le m f.offset (by rw [hlen]; exact hroom), hlen, hl,
      List.drop_left' hlen, List.append_assoc]
    rfl

/-- A stage ends with the copy of its text, up to writes to other fields. -/
theorem copies_stageWrites {adapter : Option CloudAdapter} {f : Fetch} {v : List UInt8}
    (h : (f.text v).length < f.dest.size) :
    Copies f.dest (f.text v) (stageWrites adapter stack f v) := by
  cases f with
  | cldAdapter | tokId | devId | mqttClientId =>
      refine ⟨[], _, _, rfl, .inl rfl, List.forall_mem_nil _,
        List.forall_mem_singleton.2 fun heq => ?_⟩
      cases heq
  | cldHostUrl | cldHostPort | pxyHostUrl | pxyHostPort =>
      exact ⟨[], _, [], rfl, .inl rfl, List.forall_mem_nil _, List.forall_mem_nil _⟩
  | rootCa =>
      refine ⟨sniHostname adapter ++ [setSize .trustedCaSize (v.length + 1)], v ++ [0], [], ?_,
        .inr rfl, fun w hw heq => ?_, List.forall_mem_nil _⟩
      · have hread : read (write (write stack 0 (List.replicate (secUrlLen * 2) 0)) 0 v) 0
            (v.length + 1) = v ++ [0] := by
          have hlt : v.length < secUrlLen * 2 := h
          rw [read_write_le _ _ (Nat.le_add_right _ 1),
            read_write_replicate _ _ le_rfl (by omega), List.drop_replicate,
            Nat.add_sub_cancel_left]
          rfl
        rw [List.append_assoc]
        show sniHostname adapter ++ copyRootCa stack v = _
        unfold copyRootCa
        rw [← hread]
        rfl
      · rcases List.mem_append.1 hw with hw | hw
        · rw [mem_sniHostname hw] at heq
          cases heq
        · rw [List.mem_singleton.1 hw] at heq
          cases heq

/-- **What the field of a fetch holds** when nothing fails and everything fits. -/
theorem read_dest {adapter : Option CloudAdapter} {v : Fetch → List UInt8}
    (hfit : AllFit (fetches.flatMap fun f => stageWrites adapter stack f (v f)))
    (creds : ℕ → UInt8) (f : Fetch) :
    read (credMem creds (fetches.flatMap fun f => stageWrites adapter stack f (v f)))
        f.dest.offset f.dest.size =
      f.text (v f) ++ 0 ::
        (read creds f.dest.offset f.dest.size).drop ((f.text (v f)).length + 1) := by
  refine read_of_copies ?_ hfit
  obtain ⟨before, after, horder⟩ := List.append_of_mem f.mem_fetches
  have hother : ∀ fs : List Fetch, f ∉ fs →
      ∀ w ∈ fs.flatMap fun f => stageWrites adapter stack f (v f), w.1 ≠ f.dest := by
    intro fs hfs w hw heq
    obtain ⟨g, hg, hwg⟩ := List.mem_flatMap.1 hw
    have hne : f ≠ g := fun h => hfs (h ▸ hg)
    exact Fetch.dest_not_mem_fields hne (heq ▸ mem_fields hwg)
  have hnodup : fetches.Nodup := by decide
  rw [horder] at hnodup
  have hafter : f ∉ after := (List.nodup_cons.1 (List.nodup_append.1 hnodup).2.1).1
  have hbefore : f ∉ before := fun h =>
    (List.nodup_append.1 hnodup).2.2 f h f List.mem_cons_self rfl
  rw [horder, List.flatMap_append, List.flatMap_cons] at hfit ⊢
  rw [allFit_append, allFit_append] at hfit
  obtain ⟨bef, l, aft, hsplit, hl, hbef, haft⟩ :=
    copies_stageWrites (allFit_stageWrites_iff.1 hfit.2.1)
  refine ⟨before.flatMap (fun f => stageWrites adapter stack f (v f)) ++ bef, l,
    aft ++ after.flatMap fun f => stageWrites adapter stack f (v f), ?_, hl, fun w hw => ?_,
    fun w hw => ?_⟩
  · rw [hsplit]
    simp only [List.append_assoc]
  · exact (List.mem_append.1 hw).elim (hother before hbefore w) (hbef w)
  · exact (List.mem_append.1 hw).elim (haft w) (hother after hafter w)

end PseFw.Oob
