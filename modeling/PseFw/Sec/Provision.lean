/-
**Provisioning and the next start.**

A device is provisioned with a device id, a token id and an MQTT client id.  The response carries
a salt and the encrypted credentials; the BIOS keeps them and sends them back at the next start.
This module follows the credentials through the two commands: as strings into buffers of zeros,
encrypted with the length of their fields, as three TLVs each into the response; and, once they
stand in the context again, decrypted, and out of the getters.

Main definitions:

* `Credentials` — what a device is provisioned with;
* `Sealing`, `Opening` — where the encryptions and the decryptions have got to;
* `Answered` — what a provisioning request leaves;
* `Loaded` — what the request of a next start has put into the context.

Main results:

* `provision_run`, `provision_spec` — **the response to a provisioning request**;
* `findCseSeed_spec` — the first seed is found;
* `initOob2_spec` — **the next start**.
-/

import PseFw.Sec.Sealing

set_option relaxedAutoImplicit false
set_option autoImplicit false

namespace PseFw.Sec

open Mem

/-! ### Credentials -/

/-- What a device is provisioned with: strings that are shorter than their fields, and a hash. -/
structure Credentials where
  dev : List UInt8
  tok : List UInt8
  mqtt : List UInt8
  hash : List UInt8
  dev_zero : 0 ∉ dev
  tok_zero : 0 ∉ tok
  mqtt_zero : 0 ∉ mqtt
  dev_length : dev.length < secDevIdLen
  tok_length : tok.length < secTokIdLen
  mqtt_length : mqtt.length < secMqttClientIdLen
  hash_length : hash.length = secCloudHashLen

/-- The response says that the hash check was passed. -/
def HashCheckPassed (resp : List UInt8) : Prop :=
  ∃ t, responseTlvs resp = some [t] ∧
    (t.type = .normalFlwSuccess ∨ t.type = .normalFlwReprovReq)

/-! ### Salt and seed -/

variable {env : Env} {salt fuse : List UInt8}

/-- A setter of the service, as a step. -/
theorem confined_setParam {c : Crypto} {f lenField : Field} {s s' : SecState} {data : List UInt8}
    (hl : lenField.size = 4) (h : data.length ≤ f.size)
    (hc : s'.ctx = (secIntSetParam c f lenField s.ctx data).2) (hq : Quiet s s') :
    Confined c [f, lenField, .hash] s s' where
  quiet := hq
  unchanged := by
    rw [hc]
    exact unchanged_setParam hl h
  verified hv := by
    rw [hc, setParam_of_verified _ hv]
    exact verify_update _

theorem confined_setParamSimple {c : Crypto} {f : Field} {s s' : SecState} {data : List UInt8}
    (h : data.length ≤ f.size) (hc : s'.ctx = (secIntSetParamSimple c f s.ctx data).2)
    (hq : Quiet s s') : Confined c [f, .hash] s s' where
  quiet := hq
  unchanged := by
    rw [hc]
    exact unchanged_setParamSimple h
  verified hv := by
    rw [hc, setParamSimple_of_verified _ hv]
    exact verify_update _

/-- The salt is in place after `sec_hc_pse_set_salt`. -/
theorem pseSetSalt_spec {s : SecState} (hv : Verified env.crypto s.ctx) :
    Confined env.crypto [.hkdf32bPseSalt, .hkdf32bPseSaltLen, .hash] s (secHcPseSetSalt env s) ∧
      get (secHcPseSetSalt env s).ctx .hkdf32bPseSaltLen = leBytes 4 secPseSaltLen := by
  have hlen : ((env.random s.rands secPseSaltLen).getD (List.replicate secPseSaltLen 0)).length =
      secPseSaltLen := by
    cases hr : env.random s.rands secPseSaltLen with
    | none => exact List.length_replicate
    | some l => exact env.length_random _ _ _ hr
  refine ⟨confined_setParam rfl (le_of_eq hlen) rfl ⟨⟨rfl, rfl, rfl, rfl⟩, rfl, rfl, rfl⟩, ?_⟩
  unfold secHcPseSetSalt secIntSetHkdf32bPseSalt
  simp only
  rw [setParam_of_verified _ hv, get_update_ne (by decide), secIntSetContextParam,
    get_putWord_self rfl, hlen]

/-- The seed goes to the fuse. -/
theorem setPrefCseSeed_spec (c : Crypto) {s : SecState} {x : Seed} (hx : s.seeds 0 = some x) :
    ∃ s', secHcSetPrefCseSeed 0 s = some (.success, s') ∧
      Confined c [.pse32bFuse, .pse32bFuseLen] s s' ∧ get s'.ctx .pse32bFuse = x.val ∧
      get s'.ctx .pse32bFuseLen = leBytes 4 secFuseLen := by
  have hl : x.val.length = secFuseLen := x.property
  refine ⟨{ s with ctx := secIntSetContextParam s.ctx .pse32bFuse .pse32bFuseLen x.val }, ?_,
    ?_, ?_, ?_⟩
  · unfold secHcSetPrefCseSeed SecState.seedAt
    rw [dif_pos (by decide), show s.seeds ⟨0, _⟩ = some x from hx]
    simp only [Option.map_some, secIntSetPse32bFuse]
    rw [if_neg (not_not_intro hl)]
  · have h1 : Confined c [.pse32bFuse] s
        { s with ctx := put s.ctx .pse32bFuse x.val } :=
      confined_put (by decide) (le_of_eq hl) rfl ⟨⟨rfl, rfl, rfl, rfl⟩, rfl, rfl, rfl⟩
    have h2 : Confined c [.pse32bFuseLen] { s with ctx := put s.ctx .pse32bFuse x.val }
        { s with ctx := secIntSetContextParam s.ctx .pse32bFuse .pse32bFuseLen x.val } :=
      confined_put (by decide) (le_of_eq (length_leBytes _ _)) rfl
        ⟨⟨rfl, rfl, rfl, rfl⟩, rfl, rfl, rfl⟩
    exact (h1.mono (by simp)).trans (h2.mono (by simp))
  · simp only
    rw [secIntSetContextParam, get_putWord_ne rfl (by decide), get_put_self hl]
  · simp only
    rw [secIntSetContextParam, get_putWord_self rfl, hl]

/-! ### The four encryptions -/

/-- The values of the credentials. -/
def Credentials.value (cs : Credentials) : Cred → List UInt8
  | .tok => cs.tok
  | .dev => cs.dev
  | .mqttId => cs.mqtt
  | .cldHash => cs.hash

/-- The text that is encrypted: the value, filled up with zeros. -/
def Credentials.clearText (cs : Credentials) (cr : Cred) : List UInt8 :=
  padTo cr.bufLen (cs.value cr)

/-- Where the encryptions have got to: keys and credentials are in place, and the credentials in
the list are sealed, unless something failed. -/
structure Sealing (c : Crypto) (salt fuse : List UInt8) (cs : Credentials) (done : List Cred)
    (s₀ : SecState) (r : Status × SecState) : Prop where
  keyed : Keyed c salt fuse r.2.ctx
  holds : ∀ cr : Cred, cr.Holds r.2.ctx (cs.value cr)
  quiet : Quiet s₀ r.2
  isSealed : r.1 = .success → ∀ cr ∈ done, Sealed c salt fuse cr (cs.clearText cr) r.2.ctx

theorem Cred.sealed_disjoint {cr cr' : Cred} (h : cr ≠ cr') :
    ∀ f ∈ cr.sealedFields, f ∉ cr'.key :: cr'.sealedFields := by
  cases cr <;> cases cr' <;> first | exact absurd rfl h | decide

/-- One more encryption. -/
theorem Sealing.encrypt {cs : Credentials} {done : List Cred} {s₀ : SecState}
    {r : Status × SecState} (hheap : ∀ i, env.kHeapAlloc i = true)
    (h : Sealing env.crypto salt fuse cs done s₀ r) (cr : Cred) (hcr : cr ∉ done) :
    Sealing env.crypto salt fuse cs (cr :: done) s₀ (andThen r (secHcEncryptData env cr)) := by
  unfold andThen
  split
  · rename_i hr
    obtain ⟨hc, hs⟩ := encryptData_sealed hheap h.keyed (h.holds cr)
    refine ⟨h.keyed.of_unchanged (hc.verified h.keyed.verified) hc.unchanged cr.key_not_keyed,
      fun cr' => (h.holds cr').of_unchanged hc.unchanged (cr'.plain_not_sealed cr),
      h.quiet.trans hc.quiet, fun hsuc cr' hmem => ?_⟩
    rcases List.mem_cons.1 hmem with rfl | hdone
    · exact hs hsuc
    · refine (h.isSealed hr cr' hdone).of_unchanged hc.unchanged (Cred.sealed_disjoint ?_)
      rintro rfl
      exact hcr hdone
  · rename_i hr
    exact ⟨h.keyed, h.holds, h.quiet, fun hsuc => absurd hsuc hr⟩

/-- All four credentials, in the order of the source. -/
theorem Sealing.all {cs : Credentials} {s₀ : SecState} {r : Status × SecState}
    (hheap : ∀ i, env.kHeapAlloc i = true) (h : Sealing env.crypto salt fuse cs [] s₀ r) :
    Sealing env.crypto salt fuse cs [.cldHash, .mqttId, .dev, .tok] s₀ (encryptAll env r) :=
  (((h.encrypt hheap .tok (by decide)).encrypt hheap .dev (by decide)).encrypt hheap .mqttId
    (by decide)).encrypt hheap .cldHash (by decide)

/-- The length of a sequence, by its contents. -/
theorem length_payload_eq (ts : List Tlv) : (payload ts).length =
    ((ts.map Tlv.content).map fun q => hdrSize + q.2.length).sum := by
  induction ts with
  | nil => rfl
  | cons t ts ih =>
      rw [length_payload_cons, ih]
      rfl

/-- The response of a provisioning request has its fixed length. -/
theorem length_sealedContents (c : Crypto) (m : Ctx) :
    ((sealedContents c m).map fun q => hdrSize + q.2.length).sum = 628 := by
  simp only [sealedContents, Cred.contents, List.map_append, List.map_cons, List.map_nil,
    length_get, length_fillBuffer]
  decide

/-- What a provisioning request leaves when everything succeeds: the sealed credentials are in the
response, and the seeds are as they were. -/
structure Answered (c : Crypto) (salt fuse : List UInt8) (cs : Credentials) (s s' : SecState)
    (resp : List UInt8) (m : Ctx) (rts : List Tlv) : Prop where
  sent : s'.sent = s.sent ++ [resp]
  keyed : Keyed c salt fuse m
  isSealed : ∀ cr, Sealed c salt fuse cr (cs.clearText cr) m
  tlvs : responseTlvs resp = some rts
  contents : rts.map Tlv.content = sealedContents c m
  seeds : s'.seeds = s.seeds
  seedNo : s'.seedNo = s.seedNo

/-- **A provisioning request**, up to the encryptions and by their outcome. -/
theorem provision_run {cs : Credentials} {s : SecState} {x : Seed}
    (hheap : ∀ i, env.kHeapAlloc i = true) (hv : Verified env.crypto s.ctx)
    (hh : ∀ cr : Cred, cr.Holds s.ctx (cs.value cr)) (hx : s.seeds 0 = some x)
    (hacc : s.accumComposeLen = hdrSize) :
    ∃ salt s₂, Sealing env.crypto salt x.val cs [] s (.success, s₂) ∧
      ((encryptAll env (.success, s₂)).1 ≠ .success →
        ∃ s', provision env s = some s' ∧ s'.sent = s.sent) ∧
      ((encryptAll env (.success, s₂)).1 = .success → ∃ s' resp m rts,
        provision env s = some s' ∧ Answered env.crypto salt x.val cs s s' resp m rts) := by
  obtain ⟨h1, hsl⟩ := pseSetSalt_spec hv
  have hx1 : (secHcPseSetSalt env s).seeds 0 = some x := by
    rw [h1.quiet.seeds]
    exact hx
  obtain ⟨s2, hq, h2, hf, hfl⟩ := setPrefCseSeed_spec env.crypto hx1
  have hkeyed : Keyed env.crypto (get s2.ctx .hkdf32bPseSalt) x.val s2.ctx :=
    ⟨h2.verified (h1.verified hv), rfl, (h2.unchanged _ (by decide)).trans hsl, hf, hfl⟩
  have hholds : ∀ cr : Cred, cr.Holds s2.ctx (cs.value cr) := fun cr =>
    ((hh cr).of_unchanged h1.unchanged (by cases cr <;> decide)).of_unchanged h2.unchanged
      (by cases cr <;> decide)
  have hstart : Sealing env.crypto _ x.val cs [] s (.success, s2) :=
    ⟨hkeyed, hholds, h1.quiet.trans h2.quiet, fun _ cr h => absurd h List.not_mem_nil⟩
  have hall := Sealing.all hheap hstart
  refine ⟨_, s2, hstart, fun hr => ?_, fun hr => ?_⟩
  · unfold provision
    rw [hq, Option.map_some]
    simp only
    rw [if_pos hr]
    exact ⟨_, rfl, hall.quiet.sent⟩
  · unfold provision
    rw [hq, Option.map_some]
    simp only
    rw [if_neg (not_not_intro hr)]
    generalize encryptAll env (.success, s2) = r at hr hall
    have hcomp : Composing { r.2 with composeNext := bufCompose } [] :=
      ⟨⟨rfl, hall.quiet.accumComposeLen.trans hacc⟩, rfl⟩
    obtain ⟨new, hn, hs, hc, ho⟩ := appends_responseAll env _ _ hcomp
    rw [if_neg (not_not_intro hs)]
    generalize responseAll env { r.2 with composeNext := bufCompose } = r' at hs hc ho
    have hsz : hdrSize + (payload ([] ++ new)).length < 2 ^ 12 := by
      rw [List.nil_append, length_payload_eq, hn, length_sealedContents]
      decide
    obtain ⟨resp, hsent, hdec⟩ := sendResponse_spec hc.toComposed hsz
    refine ⟨_, resp, r.2.ctx, ([] ++ new).map Tlv.sent, rfl, ?_, hall.keyed,
      fun cr => hall.isSealed hr cr (by cases cr <;> decide), hdec, ?_, ?_, ?_⟩
    · rw [hsent, ho.sent, hall.quiet.sent]
    · rw [List.nil_append, List.map_map]
      exact hn
    · rw [sendResponse_seeds, ho.seeds, hall.quiet.seeds]
    · rw [sendResponse_seedNo, ho.seedNo, hall.quiet.seedNo]

/-- **The response to a provisioning request.**  If there is one, the salt and the sealed
credentials can be taken out of it. -/
theorem provision_spec {cs : Credentials} {s s' : SecState} {x : Seed} {resp : List UInt8}
    (hheap : ∀ i, env.kHeapAlloc i = true) (hv : Verified env.crypto s.ctx)
    (hh : ∀ cr : Cred, cr.Holds s.ctx (cs.value cr)) (hx : s.seeds 0 = some x)
    (hacc : s.accumComposeLen = hdrSize) (hrun : provision env s = some s')
    (hsent : s'.sent = s.sent ++ [resp]) :
    ∃ salt m rts, Answered env.crypto salt x.val cs s s' resp m rts := by
  obtain ⟨salt, s2, -, hfail, hok⟩ := provision_run hheap hv hh hx hacc
  by_cases hr : (encryptAll env (.success, s2)).1 = .success
  · obtain ⟨s'', resp', m, rts, hrun', ha⟩ := hok hr
    obtain rfl : s'' = s' := Option.some.inj (hrun'.symm.trans hrun)
    obtain rfl : resp' = resp := by simpa using ha.sent.symm.trans hsent
    exact ⟨salt, m, rts, ha⟩
  · obtain ⟨s'', hrun', hsame⟩ := hfail hr
    obtain rfl : s'' = s' := Option.some.inj (hrun'.symm.trans hrun)
    exact absurd (hsame.symm.trans hsent) (by simp)

/-! ### The next start -/

theorem Cred.opened_not_keyed (cr : Cred) : ∀ f ∈ cr.openedFields,
    f ∉ [Field.hkdf32bPseSalt, .hkdf32bPseSaltLen, .pse32bFuse, .pse32bFuseLen] := by
  cases cr <;> decide

theorem Cred.opened_disjoint (cr cr' : Cred) : ∀ f ∈ cr.sealedFields, f ∉ cr'.openedFields := by
  cases cr <;> cases cr' <;> decide

theorem Cred.target_disjoint {cr cr' : Cred} (h : cr ≠ cr') : cr.target.1 ∉ cr'.openedFields := by
  cases cr <;> cases cr' <;> first | exact absurd rfl h | decide

/-- Where the decryptions have got to: keys and sealed credentials are in place, the credentials
in the list are open, and the hash that was sent is still there. -/
structure Opening (c : Crypto) (salt fuse : List UInt8) (cs : Credentials) (done : List Cred)
    (s : SecState) : Prop where
  keyed : Keyed c salt fuse s.ctx
  isSealed : ∀ cr : Cred, Sealed c salt fuse cr (cs.clearText cr) s.ctx
  opened : ∀ cr ∈ done, get s.ctx cr.target.1 = cs.clearText cr
  hash : get s.ctx .cloudHash = cs.hash

theorem Opening.of_confined {c : Crypto} {cs : Credentials} {done : List Cred} {s s' : SecState}
    {fs : List Field} (h : Opening c salt fuse cs done s) (hc : Confined c fs s s')
    (hk : ∀ f ∈ fs, f ∉ [Field.hkdf32bPseSalt, .hkdf32bPseSaltLen, .pse32bFuse, .pse32bFuseLen])
    (hs : ∀ cr : Cred, ∀ f ∈ cr.sealedFields, f ∉ fs) (ht : ∀ cr ∈ done, cr.target.1 ∉ fs)
    (hh : Field.cloudHash ∉ fs) : Opening c salt fuse cs done s' where
  keyed := h.keyed.of_unchanged (hc.verified h.keyed.verified) hc.unchanged hk
  isSealed cr := (h.isSealed cr).of_unchanged hc.unchanged (hs cr)
  opened cr hcr := (hc.unchanged _ (ht cr hcr)).trans (h.opened cr hcr)
  hash := (hc.unchanged _ hh).trans h.hash

theorem Cred.cloudHash_not_opened (cr : Cred) : Field.cloudHash ∉ cr.openedFields := by
  cases cr <;> decide

/-- One more decryption. -/
theorem Opening.decrypt {cs : Credentials} {done : List Cred} {s : SecState}
    (h : Opening env.crypto salt fuse cs done s) (hheap : ∀ i, env.kHeapAlloc i = true)
    (hinv : env.crypto.Inverts) (cr : Cred) (hcr : cr ∉ done) :
    (secHcDecryptData env cr s).1 = .success ∧ Quiet s (secHcDecryptData env cr s).2 ∧
      Opening env.crypto salt fuse cs (cr :: done) (secHcDecryptData env cr s).2 := by
  obtain ⟨hsuc, hc, hget, -⟩ := decryptData_sealed hheap hinv h.keyed
    (length_padTo_bufLen cr (cs.value cr)) (h.isSealed cr)
  have hne : ∀ cr' ∈ done, cr' ≠ cr := by
    rintro cr' hm rfl
    exact hcr hm
  have h' := h.of_confined hc cr.opened_not_keyed (fun cr' => cr'.opened_disjoint cr)
    (fun cr' hm => Cred.target_disjoint (hne cr' hm)) cr.cloudHash_not_opened
  refine ⟨hsuc, hc.quiet, h'.keyed, h'.isSealed, fun cr' hm => ?_, h'.hash⟩
  rcases List.mem_cons.1 hm with rfl | hdone
  · exact hget
  · exact h'.opened cr' hdone

theorem Opening.hashCheck {c : Crypto} {cs : Credentials} {done : List Cred} {s : SecState}
    (h : Opening c salt fuse cs done s) (hd : .cldHash ∈ done) :
    secHcIntHashCheck c s.ctx = .success := by
  have hdec : get s.ctx .cloudHashDec = cs.hash :=
    (h.opened _ hd).trans (padTo_of_length cs.hash_length)
  unfold secHcIntHashCheck
  rw [verify_eq_success h.keyed.verified]
  simp only
  rw [if_pos (h.hash.trans hdec.symm)]

/-- With everything open, the getters hand out the credentials. -/
theorem Opening.getters {c : Crypto} {cs : Credentials} {s : SecState}
    (h : Opening c salt fuse cs [.mqttId, .dev, .tok, .cldHash] s) :
    secIntGetDevId c s.ctx = .ok cs.dev ∧ secIntGetTokId c s.ctx = .ok cs.tok ∧
      secIntGetMqttClientId c s.ctx = .ok cs.mqtt := by
  refine ⟨?_, ?_, ?_⟩
  · exact getString_of_padded h.keyed.verified cs.dev_zero cs.dev_length (by decide)
      (h.opened .dev (by decide))
  · exact getString_of_padded h.keyed.verified cs.tok_zero cs.tok_length (by decide)
      (h.opened .tok (by decide))
  · exact getString_of_padded h.keyed.verified cs.mqtt_zero cs.mqtt_length (by decide)
      (h.opened .mqttId (by decide))

/-- What a request of a next start has put into the context. -/
structure Loaded (c : Crypto) (salt fuse : List UInt8) (cs : Credentials) (s : SecState) :
    Prop where
  verified : Verified c s.ctx
  salt_eq : get s.ctx .hkdf32bPseSalt = salt
  saltLen : get s.ctx .hkdf32bPseSaltLen = leBytes 4 secPseSaltLen
  isSealed : ∀ cr : Cred, Sealed c salt fuse cr (cs.clearText cr) s.ctx
  hash : get s.ctx .cloudHash = cs.hash

/-- **The first seed is found.** -/
theorem findCseSeed_spec {cs : Credentials} {s : SecState} {x : Seed}
    (hheap : ∀ i, env.kHeapAlloc i = true) (hinv : env.crypto.Inverts)
    (h : Loaded env.crypto salt x.val cs s) (hx : s.seeds 0 = some x) (hno : s.seedNo = 1) :
    ∃ s', secHcFindCseSeed env s = some (.success, s') ∧ SameRest s s' ∧
      Opening env.crypto salt x.val cs [.cldHash] s' := by
  obtain ⟨s1, hq, hc, hf, hfl⟩ := setPrefCseSeed_spec env.crypto hx
  have h1 : Opening env.crypto salt x.val cs [] s1 :=
    ⟨⟨hc.verified h.verified, (hc.unchanged _ (by decide)).trans h.salt_eq,
      (hc.unchanged _ (by decide)).trans h.saltLen, hf, hfl⟩,
      fun cr => (h.isSealed cr).of_unchanged hc.unchanged (by cases cr <;> decide),
      fun cr hm => absurd hm List.not_mem_nil, (hc.unchanged _ (by decide)).trans h.hash⟩
  obtain ⟨hsuc, hquiet, h2⟩ := h1.decrypt hheap hinv .cldHash List.not_mem_nil
  refine ⟨{ (secHcDecryptData env .cldHash s1).2 with
    seedUpdated := (secHcDecryptData env .cldHash s1).2.seedUpdated || false }, ?_, ?_, ?_⟩
  · unfold secHcFindCseSeed
    rw [hno]
    unfold findCseSeedLoop
    rw [hq, Option.bind_some]
    simp only
    rw [if_neg (by decide), if_neg (not_not_intro hsuc)]
    rfl
  · have := hc.quiet.toSameRest.trans hquiet.toSameRest
    exact ⟨this.tx, this.composeNext, this.accumComposeLen, this.sent⟩
  · exact ⟨h2.keyed, h2.isSealed, h2.opened, h2.hash⟩

theorem Composed.of_sameRest {s s' : SecState} {ts : List Tlv} (h : Composed s ts)
    (hs : SameRest s s') : Composed s' ts :=
  ⟨by rw [hs.tx]; exact h.payload, hs.accumComposeLen.trans h.accum⟩

/-- The three decryptions, and the response. -/
theorem decryptAll_spec {cs : Credentials} {s : SecState} {ts : List Tlv}
    (hheap : ∀ i, env.kHeapAlloc i = true) (hinv : env.crypto.Inverts)
    (h : Opening env.crypto salt fuse cs [.cldHash] s) (hc : Composed s ts)
    (hsz : hdrSize + (payload ts).length < 2 ^ 12) :
    ∃ resp, (decryptAll env s).sent = s.sent ++ [resp] ∧
      responseTlvs resp = some (ts.map Tlv.sent) ∧
      Opening env.crypto salt fuse cs [.mqttId, .dev, .tok, .cldHash] (decryptAll env s) := by
  obtain ⟨a1, q1, o1⟩ := h.decrypt hheap hinv .tok (by decide)
  obtain ⟨a2, q2, o2⟩ := o1.decrypt hheap hinv .dev (by decide)
  obtain ⟨a3, q3, o3⟩ := o2.decrypt hheap hinv .mqttId (by decide)
  have hq := (q1.trans q2).trans q3
  unfold decryptAll
  simp only [andThen, if_pos a1, if_pos a2]
  rw [if_neg (not_not_intro a3)]
  obtain ⟨resp, hsent, hdec⟩ := sendResponse_spec (hc.of_sameRest hq.toSameRest) hsz
  refine ⟨resp, ?_, hdec, ⟨o3.keyed, o3.isSealed, o3.opened, o3.hash⟩⟩
  rw [hsent, hq.sent]

/-- A response with a message type stands in the buffer. -/
theorem responseMsgType_spec (env : Env) {s : SecState} (h : Composed s []) (t : DataType) :
    (secHcResponseMsgType env t s).1 = .success ∧
      (∃ u : Tlv, u.type = t ∧ u.data.length = 4 ∧
        Composed (secHcResponseMsgType env t s).2 [u]) ∧
      OnlyTx s (secHcResponseMsgType env t s).2 := by
  have hlen : (provStateData env s).length = 4 := by
    unfold provStateData secIntGetProvState
    by_cases hv : Verified env.crypto s.ctx
    · rw [verify_eq_success hv]
      exact length_get _ _
    · rw [verify_eq_mismatch hv]
      exact length_leBytes _ _
  obtain ⟨h1, h2, -, h4⟩ := responseDataOnce_composed env h (show bufCompose = _ from rfl) t
    (show hdrSize + (provStateData env s).length < 2 ^ 12 by rw [hlen]; decide)
  exact ⟨h1, ⟨_, rfl, hlen, h2⟩, h4⟩

theorem Opening.of_onlyTx {c : Crypto} {cs : Credentials} {done : List Cred} {s s' : SecState}
    (h : Opening c salt fuse cs done s) (ho : OnlyTx s s') : Opening c salt fuse cs done s' := by
  obtain ⟨h1, h2, h3, h4⟩ := h
  exact ⟨by rwa [ho.ctx], by rwa [ho.ctx], by rwa [ho.ctx], by rwa [ho.ctx]⟩

/-- **The next start**: the hash check is passed, and the credentials are open. -/
theorem initOob2_spec {cs : Credentials} {s : SecState} {x : Seed}
    (hheap : ∀ i, env.kHeapAlloc i = true) (hinv : env.crypto.Inverts)
    (h : Loaded env.crypto salt x.val cs s) (hx : s.seeds 0 = some x) (hno : s.seedNo = 1)
    (hacc : s.accumComposeLen = hdrSize) :
    ∃ s' resp, initOob2 env s = some s' ∧ s'.sent = s.sent ++ [resp] ∧ HashCheckPassed resp ∧
      Opening env.crypto salt x.val cs [.mqttId, .dev, .tok, .cldHash] s' := by
  obtain ⟨q, hq, hrest, hopen⟩ := findCseSeed_spec hheap hinv h hx hno
  have hcheck := hopen.hashCheck (by decide)
  -- the response, its type and what is behind it do not depend on the way through
  have key : ∀ (t : DataType) (s₁ : SecState), t = .normalFlwSuccess ∨ t = .normalFlwReprovReq →
      SameRest s s₁ → Opening env.crypto salt x.val cs [.cldHash] s₁ →
      (secHcResponseMsgType env t s₁).1 = .success ∧
      ∃ resp, (decryptAll env (secHcResponseMsgType env t s₁).2).sent = s.sent ++ [resp] ∧
        HashCheckPassed resp ∧
        Opening env.crypto salt x.val cs [.mqttId, .dev, .tok, .cldHash]
          (decryptAll env (secHcResponseMsgType env t s₁).2) := by
    intro t s₁ ht hr ho
    have hc : Composed s₁ [] := ⟨rfl, hr.accumComposeLen.trans hacc⟩
    obtain ⟨hsuc, ⟨u, hu, hul, hcomp⟩, htx⟩ := responseMsgType_spec env hc t
    have hsz : hdrSize + (payload [u]).length < 2 ^ 12 := by
      rw [length_payload_cons, Tlv.size, hul]
      decide
    obtain ⟨resp, hsent, hdec, hend⟩ := decryptAll_spec hheap hinv (ho.of_onlyTx htx) hcomp hsz
    refine ⟨hsuc, resp, ?_, ⟨u.sent, hdec, ?_⟩, hend⟩
    · rw [hsent, htx.sent, hr.sent]
    · rw [← hu] at ht
      exact ht
  unfold initOob2
  rw [hq, Option.map_some]
  simp only
  rw [if_neg (by decide), if_neg (not_not_intro hcheck)]
  by_cases hup : q.seedUpdated = true
  · have hconf : Confined env.crypto [.provState, .hash] q
        { q with ctx := (secIntSetProvState env.crypto q.ctx (leBytes 4 2)).2 } :=
      confined_setParamSimple (le_of_eq (length_leBytes _ _)) rfl
        ⟨⟨rfl, rfl, rfl, rfl⟩, rfl, rfl, rfl⟩
    obtain ⟨hsuc, resp, hsent, hpass, hend⟩ := key .normalFlwReprovReq _ (Or.inr rfl)
      (hrest.trans hconf.quiet.toSameRest)
      (hopen.of_confined hconf (by decide) (by intro cr; cases cr <;> decide) (by decide)
        (by decide))
    rw [if_pos hup, if_neg (not_not_intro hsuc)]
    exact ⟨_, resp, rfl, hsent, hpass, hend⟩
  · obtain ⟨hsuc, resp, hsent, hpass, hend⟩ := key .normalFlwSuccess q (Or.inl rfl) hrest hopen
    rw [if_neg hup, if_neg (not_not_intro hsuc)]
    exact ⟨_, resp, rfl, hsent, hpass, hend⟩

end PseFw.Sec
