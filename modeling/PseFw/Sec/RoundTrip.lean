/-
**The round trip of the credentials.**

A device is provisioned in a fresh context; the TLVs of the response are sent back at the next
start, in whatever order, with the same seed and the same cloud hash, after the context was
initialised again.  This module follows a credential from the first request to the getter: through
the parser into its field, into the response, back through the parser, and out.

The seed takes part with 32 bytes, whatever the length of its TLV.  When the TLV is shorter, the
bytes behind it belong to the seed of the first request, and other bytes to the seed of the
second: the keys differ.

Main definitions:

* `RoundTrips` — provisioning, a new context, the next start: the credentials are back.

Main results:

* `holds_of_request`, `loaded_of_request` — what the two requests leave in the context;
* `provisioned_spec`, `returned_spec` — the two commands, with a whole seed;
* `initOob2_wrong` — the next start with the wrong seed;
* `roundTrips_iff` — **the credentials come back exactly when the seed is not a short one**.
-/

import PseFw.Sec.Provision

set_option relaxedAutoImplicit false
set_option autoImplicit false

namespace PseFw.Sec

open Mem

/-! ### The round trip -/

/-- The TLVs of a provisioning request. -/
def Credentials.contents (cs : Credentials) (seed : List UInt8) : List (DataType × List UInt8) :=
  [(.dencDevId, cs.dev), (.dencTokId, cs.tok), (.dencMqttClientId, cs.mqtt),
    (.dencCloudHashId, cs.hash), (.firstSeed, seed)]

/-- The allocations and the random generator succeed. -/
structure Env.Succeeds (env : Env) : Prop where
  malloc : env.kMalloc = true
  heap : ∀ i, env.kHeapAlloc i = true
  random : ∀ i n, (env.random i n).isSome = true

/-- The context has been initialised, and there are no seeds. -/
structure Fresh (c : Crypto) (s : SecState) : Prop where
  ctx : ∃ m, s.ctx = secIntInitContext c m
  seeds : ∀ i, s.seeds i = none
  seedNo : s.seedNo = 0

/-- A provisioning request, with its TLVs in any order, was handled in a fresh context, and
answered. -/
def Provisioned (env : Env) (cs : Credentials) (seed : List UInt8) (s' : SecState)
    (resp : List UInt8) : Prop :=
  ∃ s h ts old, Fresh env.crypto s ∧ (ts.map Tlv.content).Perm (cs.contents seed) ∧
    hdrSize + (payload ts).length < 2 ^ 12 ∧
    secHcProcessCmd env (rxBuffer (request h 0x00 ts) old) s = some s' ∧
    s'.sent = s.sent ++ [resp]

/-- The context has been initialised again; the seed table is empty, or still the one of before. -/
structure Restarted (c : Crypto) (before s : SecState) : Prop where
  ctx : ∃ m, s.ctx = secIntInitContext c m
  seeds : (∀ i, s.seeds i = none) ∧ s.seedNo = 0 ∨
    s.seeds = before.seeds ∧ s.seedNo = before.seedNo

/-- The request of a next start was handled: the hash check was passed, and the getters hand out
the credentials. -/
def Returned (env : Env) (cs : Credentials) (s : SecState) (rx : ℕ → UInt8) : Prop :=
  ∃ s' resp, secHcProcessCmd env rx s = some s' ∧ s'.sent = s.sent ++ [resp] ∧
    HashCheckPassed resp ∧ secHcIntHashCheck env.crypto s'.ctx = .success ∧
    secIntGetDevId env.crypto s'.ctx = .ok cs.dev ∧
    secIntGetTokId env.crypto s'.ctx = .ok cs.tok ∧
    secIntGetMqttClientId env.crypto s'.ctx = .ok cs.mqtt

/-- **The credentials come back.**  Provision a device, and send the TLVs of the response back in
any order, with the same seed and the same cloud hash, after the context was initialised again. -/
def RoundTrips (cs : Credentials) (seed : List UInt8) : Prop :=
  ∀ (env₁ env₂ : Env), env₁.crypto = env₂.crypto → env₁.Succeeds → env₂.Succeeds →
    env₁.crypto.Inverts → ∀ s₁ resp, Provisioned env₁ cs seed s₁ resp →
    ∃ rts, responseTlvs resp = some rts ∧
      ∀ s₂ h ts old, Restarted env₂.crypto s₁ s₂ →
        (ts.map Tlv.content).Perm
          (rts.map Tlv.content ++ [(.firstSeed, seed), (.dencCloudHashId, cs.hash)]) →
        Returned env₂ cs s₂ (rxBuffer (request h 0x12 ts) old)

variable {env : Env} {salt fuse : List UInt8}

/-! ### What the requests leave in the context -/

/-- The types that carry the credentials in the clear. -/
def Cred.denc : Cred → DataType
  | .tok => .dencTokId
  | .dev => .dencDevId
  | .mqttId => .dencMqttClientId
  | .cldHash => .dencCloudHashId

/-- A field of a new context is zero. -/
theorem get_init {c : Crypto} {m : Ctx} {f : Field} (hin : f.Inside) (hp : f ≠ .provState)
    (hr : f ≠ .reprovPend) (hh : f ≠ .hash) :
    get (secIntInitContext c m) f = List.replicate f.size 0 := by
  unfold secIntInitContext
  rw [get_update_ne hh, get_putWord_ne rfl hr, get_putWord_ne rfl hp]
  exact read_write_replicate m 0 (Nat.zero_le _) (hin.trans (Nat.zero_add _).ge)

/-- The TLV of a request with given contents. -/
theorem exists_tlv {ts : List Tlv} {l : List (DataType × List UInt8)}
    (h : (ts.map Tlv.content).Perm l) {t : DataType} {data : List UInt8} (hm : (t, data) ∈ l) :
    ∃ u ∈ ts, u.type = t ∧ u.data = data := by
  obtain ⟨u, hu, he⟩ := List.mem_map.1 (h.mem_iff.2 hm)
  exact ⟨u, hu, congrArg Prod.fst he, congrArg Prod.snd he⟩

theorem types_nodup {ts : List Tlv} {l : List (DataType × List UInt8)}
    (h : (ts.map Tlv.content).Perm l) (hl : (l.map Prod.fst).Nodup) :
    (ts.map Tlv.type).Nodup := by
  have := (h.map Prod.fst).nodup_iff.2 hl
  rwa [List.map_map] at this

theorem length_payload_of_perm {ts : List Tlv} {l : List (DataType × List UInt8)}
    (h : (ts.map Tlv.content).Perm l) :
    (payload ts).length = (l.map fun q => hdrSize + q.2.length).sum := by
  rw [length_payload_eq]
  exact (h.map _).sum_nat

/-- What holds of the contents holds of the TLVs. -/
theorem forall_tlv {ts : List Tlv} {l : List (DataType × List UInt8)}
    (h : (ts.map Tlv.content).Perm l) {P : DataType → List UInt8 → Prop}
    (hl : ∀ q ∈ l, P q.1 q.2) : ∀ u ∈ ts, P u.type u.data :=
  fun _ hu => hl _ (h.mem_iff.1 (List.mem_map_of_mem hu))

/-- A whole seed is stored as it is, wherever it stands. -/
theorem runTlvs_whole_seed {rx : ℕ → UInt8} {pos : ℕ} {s : SecState} {ts : List Tlv} {u : Tlv}
    (hk : ∀ i, env.kHeapAlloc i = true) (hmem : u ∈ ts) (hnd : (ts.map Tlv.type).Nodup)
    (hread : read rx pos (payload ts).length = payload ts) (hu : u.type = .pseSeed 0)
    (hseeds : ∀ t ∈ ts, ∀ i, t.type.target = .seed i → t.type = .pseSeed 0)
    (hlen : u.data.length = secCseSeedLen) (hfree : s.seeds 0 = none) :
    (runTlvs env rx pos s ts).seeds 0 = some ⟨u.data, hlen⟩ ∧
      (runTlvs env rx pos s ts).seedNo = s.seedNo + 1 := by
  obtain ⟨pre, post, rfl, hpre, hpost, hdata⟩ := exists_place hmem hnd hread
  have hne : u.data ≠ [] := List.ne_nil_of_length_pos (by rw [hlen]; decide)
  have hadm : u.type.admits u.data.length = true := by
    rw [hu, hlen]
    rfl
  have htarget : u.type.target = .seed 0 := by
    rw [hu]
    rfl
  obtain ⟨h1, h2⟩ := runTlvs_seed rx pos htarget
    (fun t ht i hi => hpre t ht
      ((hseeds t (List.mem_append_left _ ht) i hi).trans hu.symm))
    (fun t ht i hi => hpost t ht
      ((hseeds t (List.mem_append_right _ (List.mem_cons_of_mem _ ht)) i hi).trans hu.symm))
    hne hadm hk hfree
  refine ⟨h1.trans (congrArg some (Subtype.ext ?_)), h2⟩
  rw [hlen] at hdata
  exact read_src hdata

/-- The field of the length of a credential. -/
def Cred.plainLen : Cred → Field
  | .tok => .tokIdLen
  | .dev => .devIdLen
  | .mqttId => .mqttClientIdLen
  | .cldHash => .cloudHashLen

theorem Credentials.valid (cs : Credentials) (cr : Cred) : cr.Valid (cs.value cr) := by
  cases cr with
  | tok => exact ⟨cs.tok_zero, cs.tok_length⟩
  | dev => exact ⟨cs.dev_zero, cs.dev_length⟩
  | mqttId => exact ⟨cs.mqtt_zero, cs.mqtt_length⟩
  | cldHash => exact cs.hash_length

theorem Credentials.value_length_le (cs : Credentials) (cr : Cred) :
    (cs.value cr).length ≤ cr.bufLen := by
  cases cr with
  | tok => exact cs.tok_length.le
  | dev => exact cs.dev_length.le
  | mqttId => exact cs.mqtt_length.le
  | cldHash => exact cs.hash_length.le

/-- The contents of a provisioning request fit, and are admitted. -/
theorem Credentials.fits_contents (cs : Credentials) (seed : List UInt8) :
    ∀ q ∈ cs.contents seed, q.1.Fits q.2.length := by
  intro q hq
  simp only [Credentials.contents, List.mem_cons, List.not_mem_nil, or_false] at hq
  rcases hq with rfl | rfl | rfl | rfl | rfl
  · exact cs.value_length_le .dev
  · exact cs.value_length_le .tok
  · exact cs.value_length_le .mqttId
  · exact cs.value_length_le .cldHash
  · exact trivial

/-- **A provisioning request leaves the credentials in the context**, with zeros behind them. -/
theorem holds_of_request {cs : Credentials} {seed : List UInt8} {rx : ℕ → UInt8} {pos : ℕ}
    {s : SecState} {ts : List Tlv} (hctx : ∃ m, s.ctx = secIntInitContext env.crypto m)
    (hts : (ts.map Tlv.content).Perm (cs.contents seed))
    (hread : read rx pos (payload ts).length = payload ts) (cr : Cred) :
    cr.Holds (runTlvs env rx pos s ts).ctx (cs.value cr) := by
  obtain ⟨m, hm⟩ := hctx
  obtain ⟨u, hu, htype, hdata⟩ := exists_tlv hts
    (show (cr.denc, cs.value cr) ∈ cs.contents seed by
      cases cr <;> simp [Credentials.contents, Cred.denc, Credentials.value])
  have hadm : u.data ≠ [] → u.type.admits u.data.length = true := by
    rw [htype, hdata]
    cases cr with
    | tok | dev | mqttId => exact fun _ => rfl
    | cldHash => exact fun _ => decide_eq_true cs.hash_length
  have hnd := types_nodup hts (by simp [Credentials.contents])
  have htarget : u.type.target = .param cr.plain cr.plainLen := by
    rw [htype]
    cases cr <;> rfl
  obtain ⟨hval, hlen⟩ := runTlvs_param hu hnd
    (forall_tlv (P := fun t d => t.Fits d.length) hts (cs.fits_contents seed)) hread htarget hadm
    (show Verified env.crypto s.ctx from hm ▸ verified_init m)
  refine ⟨cs.valid cr, ?_, ?_⟩
  · have hzero : get s.ctx cr.plain = List.replicate cr.bufLen 0 := by
      rw [hm]
      cases cr <;> exact get_init (by decide) (by decide) (by decide) (by decide)
    rw [hval, hdata, hzero, List.drop_replicate, padTo_eq_append (cs.value_length_le cr)]
  · rintro rfl
    have hl : u.data.length = secCloudHashLen := by
      rw [hdata]
      exact cs.hash_length
    rw [show Field.cloudHashLen = Cred.cldHash.plainLen from rfl,
      hlen (List.ne_nil_of_length_pos (by rw [hl]; decide)), hl]

theorem Field.size_pos (f : Field) : 0 < f.size := by
  cases f <;> decide

/-- An encrypted value that fits its field is admitted. -/
theorem admits_of_enc {t : DataType} {f : Field} {n : ℕ} (h : t.target = .enc f)
    (hn : n ≤ f.size) : t.admits n = true := by
  cases t <;> simp only [DataType.target, reduceCtorEq, Target.enc.injEq] at h <;> subst h <;>
    first | rfl | exact decide_eq_true hn

/-- The TLVs of the next start. -/
def nextContents (c : Crypto) (m : Ctx) (cs : Credentials) (seed : List UInt8) :
    List (DataType × List UInt8) :=
  sealedContents c m ++ [(.firstSeed, seed), (.dencCloudHashId, cs.hash)]

/-- The contents of a response are fields, whole. -/
theorem mem_sealedContents {c : Crypto} {m : Ctx} {q : DataType × List UInt8}
    (h : q ∈ sealedContents c m) :
    q = (.hkdf32bPseSalt, fillBuffer secPseSaltLen (secIntGetHkdf32bPseSalt c m)) ∨
      ∃ f, q.1.target = .enc f ∧ q.2.length = f.size := by
  simp only [sealedContents, List.mem_append, List.mem_singleton] at h
  rcases h with (((h | h) | h) | h) | h
  · exact Or.inl h
  all_goals
    simp only [Cred.contents, List.mem_cons, List.not_mem_nil, or_false] at h
    rcases h with rfl | rfl | rfl <;> exact Or.inr ⟨_, rfl, length_get _ _⟩

theorem fits_nextContents (c : Crypto) (m : Ctx) (cs : Credentials) (seed : List UInt8) :
    ∀ q ∈ nextContents c m cs seed, q.1.Fits q.2.length := by
  intro q hq
  simp only [nextContents, List.mem_append, List.mem_cons, List.not_mem_nil, or_false] at hq
  rcases hq with hq | rfl | rfl
  · rcases mem_sealedContents hq with rfl | ⟨f, hf, hl⟩
    · exact (length_fillBuffer _ _).le
    · unfold DataType.Fits
      rw [hf]
      exact hl.le
  · exact trivial
  · exact cs.hash_length.le

theorem types_nextContents (c : Crypto) (m : Ctx) (cs : Credentials) (seed : List UInt8) :
    ((nextContents c m cs seed).map Prod.fst).Nodup := by
  simp only [nextContents, sealedContents, Cred.contents, List.map_append, List.map_cons,
    List.map_nil]
  decide

/-- **The request of a next start loads the context.** -/
theorem loaded_of_request {cs : Credentials} {seed : List UInt8} {m : Ctx} {rx : ℕ → UInt8}
    {pos : ℕ} {s : SecState} {ts : List Tlv} (hk : Keyed env.crypto salt fuse m)
    (hs : ∀ cr, Sealed env.crypto salt fuse cr (cs.clearText cr) m)
    (hv : Verified env.crypto s.ctx)
    (hts : (ts.map Tlv.content).Perm (nextContents env.crypto m cs seed))
    (hread : read rx pos (payload ts).length = payload ts) :
    Loaded env.crypto salt fuse cs (runTlvs env rx pos s ts) := by
  have hnd := types_nodup hts (types_nextContents _ _ _ _)
  have hfit := forall_tlv (P := fun t d => t.Fits d.length) hts (fits_nextContents _ _ _ _)
  have hsalt : fillBuffer secPseSaltLen (secIntGetHkdf32bPseSalt env.crypto m) = salt := by
    rw [getSalt_of_keyed hk]
    exact padTo_of_length (hk.salt ▸ length_get _ _)
  have hsl : salt.length = secPseSaltLen := hk.salt ▸ length_get _ _
  -- the encrypted credentials
  have henc : ∀ t f, t.target = .enc f → (t, get m f) ∈ sealedContents env.crypto m →
      get (runTlvs env rx pos s ts).ctx f = get m f := by
    intro t f ht hmem
    obtain ⟨u, hu, htype, hdata⟩ := exists_tlv hts
      (List.mem_append_left _ hmem : _ ∈ nextContents env.crypto m cs seed)
    have hlen : u.data.length = f.size := by rw [hdata, length_get]
    rw [← htype] at ht
    rw [runTlvs_enc hu hnd hfit hread ht (admits_of_enc ht hlen.le) hlen
      (List.ne_nil_of_length_pos (by rw [hlen]; exact f.size_pos)), hdata]
  -- the salt and the hash
  have hparam : ∀ t f lenField data, t.target = .param f lenField → data.length = f.size →
      t.admits data.length = true → (t, data) ∈ nextContents env.crypto m cs seed →
      get (runTlvs env rx pos s ts).ctx f = data ∧
        get (runTlvs env rx pos s ts).ctx lenField = leBytes 4 data.length := by
    intro t f lenField data ht hl hadm hmem
    obtain ⟨u, hu, htype, hdata⟩ := exists_tlv hts hmem
    subst htype hdata
    obtain ⟨h1, h2⟩ := runTlvs_param hu hnd hfit hread ht (fun _ => hadm) hv
    refine ⟨?_, h2 (List.ne_nil_of_length_pos (by rw [hl]; exact f.size_pos))⟩
    rw [h1, List.drop_eq_nil_of_le (by rw [length_get, hl]), List.append_nil]
  obtain ⟨h1, h2⟩ := hparam .hkdf32bPseSalt _ _ salt rfl hsl rfl (by
    rw [← hsalt]
    simp [nextContents, sealedContents])
  obtain ⟨h3, -⟩ := hparam .dencCloudHashId _ _ cs.hash rfl cs.hash_length
    (decide_eq_true cs.hash_length) (by simp [nextContents])
  refine ⟨runTlvs_verified.2 hv, h1, hsl ▸ h2, fun cr => ?_, h3⟩
  obtain ⟨key, hkdf, hset, hcrypt⟩ := hs cr
  refine ⟨key, hkdf, hset, ?_⟩
  have hmem : ∀ q ∈ cr.contents m, q ∈ sealedContents env.crypto m := by
    intro q hq
    cases cr <;> simp [sealedContents, hq]
  rw [henc cr.types.1 cr.enc (by cases cr <;> rfl) (hmem _ (by simp [Cred.contents])),
    henc cr.types.2.1 cr.iv (by cases cr <;> rfl) (hmem _ (by simp [Cred.contents])),
    henc cr.types.2.2 cr.tag (by cases cr <;> rfl) (hmem _ (by simp [Cred.contents]))]
  exact hcrypt

/-! ### There and back -/

/-- The seeds of the contents of a request. -/
theorem seed_of_contents {cs : Credentials} {seed : List UInt8} :
    ∀ q ∈ cs.contents seed, ∀ i, q.1.target = .seed i → q = (.pseSeed 0, seed) := by
  intro q hq i hi
  simp only [Credentials.contents, List.mem_cons, List.not_mem_nil, or_false] at hq
  rcases hq with rfl | rfl | rfl | rfl | rfl
  all_goals first | exact rfl | cases hi

theorem seed_of_nextContents {c : Crypto} {m : Ctx} {cs : Credentials} {seed : List UInt8} :
    ∀ q ∈ nextContents c m cs seed, ∀ i, q.1.target = .seed i → q = (.pseSeed 0, seed) := by
  intro q hq i hi
  simp only [nextContents, List.mem_append, List.mem_cons, List.not_mem_nil, or_false] at hq
  rcases hq with hq | rfl | rfl
  · rcases mem_sealedContents hq with rfl | ⟨f, hf, -⟩
    · cases hi
    · rw [hf] at hi
      cases hi
  · rfl
  · cases hi

theorem seed_of_perm {ts : List Tlv} {l : List (DataType × List UInt8)} {seed : List UInt8}
    (h : (ts.map Tlv.content).Perm l)
    (hl : ∀ q ∈ l, ∀ i, q.1.target = .seed i → q = (.pseSeed 0, seed)) :
    ∀ u ∈ ts, ∀ i, u.type.target = .seed i → u.type = .pseSeed 0 ∧ u.data = seed := by
  intro u hu i hi
  have := hl _ (h.mem_iff.1 (List.mem_map_of_mem hu)) i hi
  exact ⟨congrArg Prod.fst this, congrArg Prod.snd this⟩

/-- **A provisioning request with a whole seed**, its response and the seed table behind it. -/
theorem provisioned_spec {cs : Credentials} {seed : List UInt8} {s' : SecState}
    {resp : List UInt8} (hsuc : env.Succeeds) (hlen : seed.length = secCseSeedLen)
    (h : Provisioned env cs seed s' resp) :
    ∃ salt m rts s, Answered env.crypto salt seed cs s s' resp m rts ∧
      s'.seeds 0 = some ⟨seed, hlen⟩ ∧ s'.seedNo = 1 := by
  obtain ⟨s, h, ts, old, hfresh, hts, hsz, hrun, hsent⟩ := h
  have hne : ts ≠ [] := by
    rintro rfl
    exact absurd hts.length_eq (by simp [Credentials.contents])
  have hread := (rxBuffer_request h 0x00 (by decide) hsz old).2.2.2
  obtain ⟨s0, h0, heq⟩ := processCmd_request env h 0x00 hsuc.malloc (by decide) rfl rfl hne hsz
    old s
  rw [heq] at hrun
  generalize rxBuffer (request h 0x00 ts) old = rx at hrun hread
  obtain ⟨u, hu, htype, hdata⟩ := exists_tlv hts
    (show (DataType.pseSeed 0, seed) ∈ cs.contents seed by simp [Credentials.contents])
  subst hdata
  obtain ⟨hx, hno⟩ := runTlvs_whole_seed hsuc.heap hu
    (types_nodup hts (by simp [Credentials.contents])) hread htype
    (fun t ht i hi => (seed_of_perm hts seed_of_contents t ht i hi).1) hlen
    (show s0.seeds 0 = none by rw [h0.seeds]; exact hfresh.seeds 0)
  have hrest : SameRest s0 (runTlvs env rx hdrSize s0 ts) := runTlvs_sameRest rx hdrSize s0 ts
  have hctx : ∃ m, s0.ctx = secIntInitContext env.crypto m := h0.ctx ▸ hfresh.ctx
  have hv : Verified env.crypto (runTlvs env rx hdrSize s0 ts).ctx := by
    obtain ⟨m, hm⟩ := hctx
    rw [runTlvs_verified, hm]
    exact verified_init m
  have hh := holds_of_request hctx hts hread
  generalize runTlvs env rx hdrSize s0 ts = s1 at hrun hx hno hrest hv hh
  unfold afterData at hrun
  simp only at hrun
  rw [if_neg (by decide)] at hrun
  obtain ⟨salt, m, rts, ha⟩ := provision_spec (s := s1.setTxhdr _)
    (x := ⟨u.data, hlen⟩) hsuc.heap hv hh hx (hrest.accumComposeLen.trans h0.accumComposeLen) hrun
    (hsent.trans (by rw [← h0.sent, ← hrest.sent]; rfl))
  refine ⟨salt, m, rts, _, ha, ?_, ?_⟩
  · rw [ha.seeds]
    exact hx
  · rw [ha.seedNo]
    exact hno.trans (by rw [h0.seedNo, hfresh.seedNo])

/-- A seed that is not stored: the response is never sent. -/
theorem not_provisioned {cs : Credentials} {seed : List UInt8} {s' : SecState} {resp : List UInt8}
    (hsuc : env.Succeeds) (hseed : seed = [] ∨ secCseSeedLen < seed.length) :
    ¬ Provisioned env cs seed s' resp := by
  rintro ⟨s, h, ts, old, hfresh, hts, hsz, hrun, -⟩
  have hne : ts ≠ [] := by
    rintro rfl
    exact absurd hts.length_eq (by simp [Credentials.contents])
  obtain ⟨s0, h0, heq⟩ := processCmd_request env h 0x00 hsuc.malloc (by decide) rfl rfl hne hsz
    old s
  rw [heq] at hrun
  generalize rxBuffer (request h 0x00 ts) old = rx at hrun
  have hnone : (runTlvs env rx hdrSize s0 ts).seeds 0 = none := by
    have := (@runTlvs_seeds env rx hdrSize s0 ts fun u hu i hi => ?_).1
    · rw [this, h0.seeds]
      exact hfresh.seeds 0
    · obtain ⟨htype, rfl⟩ := seed_of_perm hts seed_of_contents u hu i hi
      refine hseed.imp id fun hlong => Or.inl ?_
      rw [htype]
      exact decide_eq_false (by omega)
  generalize runTlvs env rx hdrSize s0 ts = s1 at hrun hnone
  unfold afterData at hrun
  simp only at hrun
  rw [if_neg (by decide)] at hrun
  unfold provision secHcSetPrefCseSeed SecState.seedAt at hrun
  rw [dif_pos (by decide),
    show (secHcPseSetSalt env (s1.setTxhdr _)).seeds ⟨0, _⟩ = none from hnone] at hrun
  cases hrun

/-- The request of a next start is short enough. -/
theorem length_next_request {c : Crypto} {m : Ctx} {cs : Credentials} {seed : List UInt8}
    {ts : List Tlv} (hts : (ts.map Tlv.content).Perm (nextContents c m cs seed))
    (hlen : seed.length ≤ secCseSeedLen) : hdrSize + (payload ts).length < 2 ^ 12 := by
  have h32 : seed.length ≤ 32 := hlen
  have h48 : cs.hash.length = 48 := cs.hash_length
  rw [length_payload_of_perm hts, nextContents, List.map_append, List.sum_append,
    length_sealedContents]
  simp only [List.map_cons, List.map_nil, List.sum_cons, List.sum_nil, h48, hdrSize]
  omega

theorem next_request_ne_nil {c : Crypto} {m : Ctx} {cs : Credentials} {seed : List UInt8}
    {ts : List Tlv} (hts : (ts.map Tlv.content).Perm (nextContents c m cs seed)) : ts ≠ [] := by
  rintro rfl
  exact absurd hts.length_eq (by simp [nextContents])

/-- **The next start, with a whole seed.** -/
theorem returned_spec {cs : Credentials} {seed : List UInt8} {m : Ctx} {before s : SecState}
    {ts : List Tlv} (hsuc : env.Succeeds) (hinv : env.crypto.Inverts)
    (hlen : seed.length = secCseSeedLen) (hk : Keyed env.crypto salt seed m)
    (hs : ∀ cr, Sealed env.crypto salt seed cr (cs.clearText cr) m)
    (hx : before.seeds 0 = some ⟨seed, hlen⟩) (hno : before.seedNo = 1)
    (hr : Restarted env.crypto before s)
    (hts : (ts.map Tlv.content).Perm (nextContents env.crypto m cs seed)) (h : CmdHdr)
    (old : ℕ → UInt8) : Returned env cs s (rxBuffer (request h 0x12 ts) old) := by
  have hsz := length_next_request hts hlen.le
  obtain ⟨s0, h0, heq⟩ := processCmd_request env h 0x12 hsuc.malloc (by decide) rfl rfl
    (next_request_ne_nil hts) hsz old s
  have hread := (rxBuffer_request h 0x12 (by decide) hsz old).2.2.2
  unfold Returned
  rw [heq]
  generalize rxBuffer (request h 0x12 ts) old = rx at hread
  have hv : Verified env.crypto s0.ctx := by
    obtain ⟨m', hm'⟩ := hr.ctx
    rw [h0.ctx, hm']
    exact verified_init m'
  have hload := loaded_of_request hk hs hv hts hread
  have hrest : SameRest s0 (runTlvs env rx hdrSize s0 ts) := runTlvs_sameRest rx hdrSize s0 ts
  -- the seed of the request, or the one that is still there
  have hseed : (runTlvs env rx hdrSize s0 ts).seeds 0 = some ⟨seed, hlen⟩ ∧
      (runTlvs env rx hdrSize s0 ts).seedNo = 1 := by
    obtain ⟨u, hu, htype, hdata⟩ := exists_tlv hts
      (show (DataType.pseSeed 0, seed) ∈ nextContents env.crypto m cs seed by
        simp [nextContents])
    rcases hr.seeds with ⟨hnone, hz⟩ | ⟨hsame, hsn⟩
    · subst hdata
      have := runTlvs_whole_seed hsuc.heap hu (types_nodup hts (types_nextContents _ _ _ _)) hread
        htype (fun t ht i hi => (seed_of_perm hts seed_of_nextContents t ht i hi).1) hlen
        (show s0.seeds 0 = none by rw [h0.seeds]; exact hnone 0)
      rwa [h0.seedNo, hz] at this
    · have htaken : s0.seeds 0 = some ⟨seed, hlen⟩ := by
        rw [h0.seeds, hsame]
        exact hx
      have := @runTlvs_seeds env rx hdrSize s0 ts fun u hu i hi => by
        obtain rfl : i = 0 := by
          have := (seed_of_perm hts seed_of_nextContents u hu i hi).1
          rw [this] at hi
          cases hi
          rfl
        rw [htaken]
        exact Or.inr (Or.inr (by simp))
      rw [this.1, this.2, htaken, h0.seedNo, hsn, hno]
      exact ⟨rfl, rfl⟩
  generalize runTlvs env rx hdrSize s0 ts = s1 at hload hrest hseed
  obtain ⟨s', resp, hrun, hsent, hpass, hopen⟩ := initOob2_spec
    (s := s1.setTxhdr fun h => { h with command := Command.response .initOob2 })
    (x := ⟨seed, hlen⟩) hsuc.heap hinv ⟨hload.verified, hload.salt_eq, hload.saltLen,
      hload.isSealed, hload.hash⟩ hseed.1 hseed.2
    (hrest.accumComposeLen.trans h0.accumComposeLen)
  refine ⟨s', resp, hrun, ?_, hpass, hopen.hashCheck (by decide), hopen.getters⟩
  rw [hsent]
  exact congrArg (· ++ [resp]) (hrest.sent.trans h0.sent)

/-! ### A seed that is too short -/

/-- A decryption under the wrong key. -/
theorem decryptData_wrong (cr : Cred) {s : SecState} (hk : Keyed env.crypto salt fuse s.ctx)
    (hwrong : ∀ key, env.crypto.hkdf salt fuse cr.label = some key →
      env.crypto.gcmAuthDecrypt key (get s.ctx cr.iv) (get s.ctx cr.tag) (get s.ctx cr.enc) =
        none) :
    (secHcDecryptData env cr s).1 ≠ .success ∧ SameRest s (secHcDecryptData env cr s).2 := by
  unfold secHcDecryptData
  split
  · exact ⟨by simp, ⟨rfl, rfl, rfl, rfl⟩⟩
  · rw [hkdfKeyGen_eq hk]
    cases hkdf : env.crypto.hkdf salt fuse cr.label with
    | none => exact ⟨by simp, ⟨rfl, rfl, rfl, rfl⟩⟩
    | some key =>
        have hkl : key.length = cr.key.size :=
          (env.crypto.length_hkdf _ _ _ _ hkdf).trans cr.sizes.2.2.2.symm
        have hsame : ∀ f ∈ cr.sealedFields, get (put s.ctx cr.key key) f = get s.ctx f := by
          intro f hf
          refine get_put_ne hkl.le ?_
          rintro rfl
          exact cr.fields_ne.1 hf
        have honce : secHcDecryptDataOnce env cr (put s.ctx cr.key key) = none := by
          unfold secHcDecryptDataOnce
          split
          · rfl
          · rw [cr.read_enc, get_put_self hkl, hsame _ (by simp [Cred.sealedFields]),
              hsame _ (by simp [Cred.sealedFields]), hsame _ (by simp [Cred.sealedFields])]
            exact hwrong key hkdf
        simp only [Option.map_some, Option.getD_some, honce]
        exact ⟨by simp, ⟨rfl, rfl, rfl, rfl⟩⟩

/-- **The next start with one seed, and the wrong one**: the response says so. -/
theorem initOob2_wrong {cs : Credentials} {s : SecState} {x : Seed}
    (h : Loaded env.crypto salt fuse cs s) (hx : s.seeds 0 = some x) (hno : s.seedNo = 1)
    (hacc : s.accumComposeLen = hdrSize)
    (hwrong : ∀ key, env.crypto.hkdf salt x.val Cred.cldHash.label = some key →
      env.crypto.gcmAuthDecrypt key (get s.ctx Cred.cldHash.iv) (get s.ctx Cred.cldHash.tag)
        (get s.ctx Cred.cldHash.enc) = none) :
    ∃ s' resp u, initOob2 env s = some s' ∧ s'.sent = s.sent ++ [resp] ∧
      responseTlvs resp = some [u] ∧ u.type = .normalFlwDataErr := by
  obtain ⟨s1, hq, hc, hf, hfl⟩ := setPrefCseSeed_spec env.crypto hx
  have hk : Keyed env.crypto salt x.val s1.ctx :=
    ⟨hc.verified h.verified, (hc.unchanged _ (by decide)).trans h.salt_eq,
      (hc.unchanged _ (by decide)).trans h.saltLen, hf, hfl⟩
  obtain ⟨hfail, hrest⟩ := decryptData_wrong .cldHash hk fun key hkey => by
    rw [hc.unchanged _ (by decide), hc.unchanged _ (by decide), hc.unchanged _ (by decide)]
    exact hwrong key hkey
  generalize hd : secHcDecryptData env .cldHash s1 = d at hfail hrest
  have hfind : secHcFindCseSeed env s = some (.failed, d.2) := by
    unfold secHcFindCseSeed
    rw [hno]
    unfold findCseSeedLoop
    rw [hq, Option.bind_some]
    simp only
    rw [if_neg (by decide), hd, if_pos hfail]
    rfl
  have hall := hc.quiet.toSameRest.trans hrest
  obtain ⟨hsuc, ⟨u, hu, hul, hcomp⟩, htx⟩ := responseMsgType_spec env
    (⟨rfl, hall.accumComposeLen.trans hacc⟩ : Composed d.2 []) .normalFlwDataErr
  have hsz : hdrSize + (payload [u]).length < 2 ^ 12 := by
    rw [length_payload_cons, Tlv.size, hul]
    decide
  obtain ⟨resp, hsent, hdec⟩ := sendResponse_spec hcomp hsz
  refine ⟨sendResponse (secHcResponseMsgType env .normalFlwDataErr d.2).2, resp, u.sent, ?_, ?_,
    hdec, hu⟩
  · unfold initOob2 respondMsgType
    rw [hfind, Option.map_some]
    simp only
    rw [if_pos (by decide), if_neg (not_not_intro hsuc)]
  · rw [hsent, htx.sent, hall.sent]

/-- What is copied for a seed at the end of a request: the seed, and what stood behind the
message. -/
theorem seed_at_end (h : CmdHdr) (command : ℕ) (pre : List Tlv) (u : Tlv) (b : UInt8)
    (hlen : u.data.length ≤ secCseSeedLen) :
    (Seed.read fun i => rxBuffer (request h command (pre ++ [u])) (fun _ => b)
      (hdrSize + (payload pre).length + hdrSize + i)).val =
      u.data ++ List.replicate (secCseSeedLen - u.data.length) b := by
  let r := request h command (pre ++ [u])
  have hr := (read_append (read_write_self (fun _ => b) 0 r)).2
  rw [length_leBytes, Nat.zero_add, payload_append] at hr
  have hu := (read_append hr).2
  rw [show payload [u] = leBytes 4 (tlvWord u.type.code u.size u.rsvd) ++ u.data from
    List.append_nil _] at hu
  have hdata := (read_append hu).2
  rw [length_leBytes] at hdata
  have hrlen : r.length = hdrSize + (payload pre).length + hdrSize + u.data.length := by
    show (request h command (pre ++ [u])).length = _
    rw [request, List.length_append, length_leBytes, payload_append, List.length_append,
      length_payload_cons, payload_nil, List.length_nil, Tlv.size]
    unfold hdrSize
    omega
  have hbehind : read (write (fun _ => b) 0 r) r.length (secCseSeedLen - u.data.length) =
      List.replicate (secCseSeedLen - u.data.length) b := by
    rw [read_write_disjoint _ (Or.inr (Nat.zero_add _).le)]
    unfold Mem.read
    rw [List.map_const', List.length_range]
  have h32 : secCseSeedLen = u.data.length + (secCseSeedLen - u.data.length) := by omega
  unfold Seed.read
  simp only
  rw [read_src (p := hdrSize + (payload pre).length + hdrSize) rfl]
  conv_lhs => rw [h32]
  rw [read_add, ← hrlen]
  exact congrArg₂ (· ++ ·) hdata hbehind

theorem plainEnv_succeeds : plainEnv.Succeeds := ⟨rfl, fun _ => rfl, fun _ _ => rfl⟩

theorem plainCrypto_inverts : plainCrypto.Inverts := by
  intro key iv input out tag h
  cases h
  exact if_pos rfl

/-- In the surroundings where every call succeeds, every encryption does. -/
theorem plain_encrypt {r : Status × SecState} {cs : Credentials} {done : List Cred}
    {s₀ : SecState} (h : Sealing plainEnv.crypto salt fuse cs done s₀ r) (hr : r.1 = .success)
    (cr : Cred) : (andThen r (secHcEncryptData plainEnv cr)).1 = .success := by
  unfold andThen
  rw [if_pos hr]
  unfold secHcEncryptData
  rw [if_neg (show ¬ plainEnv.kHeapAlloc _ = false from nofun), hkdfKeyGen_eq h.keyed]
  rfl

theorem plain_encryptAll {r : Status × SecState} {cs : Credentials} {s₀ : SecState}
    (h : Sealing plainEnv.crypto salt fuse cs [] s₀ r) (hr : r.1 = .success) :
    (encryptAll plainEnv r).1 = .success := by
  have hheap : ∀ i, plainEnv.kHeapAlloc i = true := fun _ => rfl
  have h1 := h.encrypt hheap .tok (by decide)
  have h2 := h1.encrypt hheap .dev (by decide)
  have h3 := h2.encrypt hheap .mqttId (by decide)
  exact plain_encrypt h3 (plain_encrypt h2 (plain_encrypt h1 (plain_encrypt h hr _) _) _) _

/-- The tag of the plain library tells two fuses apart by their last byte. -/
theorem plain_tag_ne {seed : List UInt8} (h : seed.length < secCseSeedLen) :
    padTo secEncTagSize ((padTo secFuseLen
      (seed ++ List.replicate (secCseSeedLen - seed.length) 0)).drop 16) ≠
    padTo secEncTagSize ((padTo secFuseLen
      (seed ++ List.replicate (secCseSeedLen - seed.length) 1)).drop 16) := by
  have hlen : ∀ b : UInt8, (seed ++ List.replicate (secCseSeedLen - seed.length) b).length =
      secFuseLen := by
    intro b
    unfold secCseSeedLen at h ⊢
    simp only [List.length_append, List.length_replicate]
    unfold secFuseLen
    omega
  have hlast : ∀ b : UInt8, (padTo secEncTagSize ((padTo secFuseLen
      (seed ++ List.replicate (secCseSeedLen - seed.length) b)).drop 16))[15]? = some b := by
    intro b
    rw [padTo_of_length (hlen b), padTo_of_length (by rw [List.length_drop, hlen]; rfl),
      List.getElem?_drop, List.getElem?_append_right (by unfold secCseSeedLen at h; omega),
      List.getElem?_replicate, if_pos (by unfold secCseSeedLen at h ⊢; omega)]
  intro he
  have := (hlast 0).symm.trans ((congrArg (·[15]?) he).trans (hlast 1))
  cases this

/-- A short seed at the end of a request is stored. -/
theorem plain_last_seed (rx : ℕ → UInt8) {s : SecState} {pre : List Tlv} {seed : List UInt8}
    (hpre : ∀ t ∈ pre, ∀ i, t.type.target ≠ .seed i) (h0 : 0 < seed.length)
    (h1 : seed.length ≤ secCseSeedLen) (hfree : s.seeds 0 = none) :
    (runTlvs plainEnv rx hdrSize s (pre ++ [⟨.pseSeed 0, 0, seed⟩])).seeds 0 =
        some (Seed.read fun i => rx (hdrSize + (payload pre).length + hdrSize + i)) ∧
      (runTlvs plainEnv rx hdrSize s (pre ++ [⟨.pseSeed 0, 0, seed⟩])).seedNo = s.seedNo + 1 :=
  runTlvs_seed rx hdrSize rfl hpre (fun _ ht => absurd ht List.not_mem_nil)
    (List.ne_nil_of_length_pos h0) (decide_eq_true h1) (fun _ => rfl) hfree

/-- The TLVs of the provisioning request that ends with the seed. -/
def Credentials.tlvs (cs : Credentials) : List Tlv :=
  [⟨.dencDevId, 0, cs.dev⟩, ⟨.dencTokId, 0, cs.tok⟩, ⟨.dencMqttClientId, 0, cs.mqtt⟩,
    ⟨.dencCloudHashId, 0, cs.hash⟩]

/-- A new context, and a request that ends with a short seed: zeros are appended to it. -/
theorem provisioned_short (cs : Credentials) {seed : List UInt8} (h0 : 0 < seed.length)
    (h1 : seed.length < secCseSeedLen) :
    ∃ salt s s' resp m rts, Provisioned plainEnv cs seed s' resp ∧
      Answered plainEnv.crypto salt (seed ++ List.replicate (secCseSeedLen - seed.length) 0) cs s s'
        resp m rts := by
  let u : Tlv := ⟨.pseSeed 0, 0, seed⟩
  let h : CmdHdr := ⟨1, 0, 0, 2, 1, 0, 0⟩
  have hcont : ((cs.tlvs ++ [u]).map Tlv.content).Perm (cs.contents seed) := List.Perm.refl _
  have hsz : hdrSize + (payload (cs.tlvs ++ [u])).length < 2 ^ 12 := by
    have := cs.dev_length
    have := cs.tok_length
    have := cs.mqtt_length
    have := cs.hash_length
    rw [length_payload_of_perm hcont]
    simp only [Credentials.contents, List.map_cons, List.map_nil, List.sum_cons, List.sum_nil,
      hdrSize]
    unfold secDevIdLen secTokIdLen secMqttClientIdLen secCloudHashLen secCseSeedLen at *
    omega
  obtain ⟨s0, hs0, heq⟩ := processCmd_request plainEnv h 0x00 rfl (by decide) rfl rfl
    (List.append_ne_nil_of_right_ne_nil _ (List.cons_ne_nil _ _)) hsz (fun _ => 0)
    (freshState plainCrypto)
  have hread := (rxBuffer_request h 0x00 (by decide) hsz fun _ => 0).2.2.2
  have hseed := seed_at_end h 0x00 cs.tlvs u 0 h1.le
  generalize hrx : rxBuffer (request h 0x00 (cs.tlvs ++ [u])) (fun _ => 0) = rx at heq hread hseed
  have hpre : ∀ t ∈ cs.tlvs, ∀ i, t.type.target ≠ .seed i := by
    intro t ht i hi
    simp only [Credentials.tlvs, List.mem_cons, List.not_mem_nil, or_false] at ht
    rcases ht with rfl | rfl | rfl | rfl <;> cases hi
  obtain ⟨hx, -⟩ := plain_last_seed rx hpre h0 h1.le (show s0.seeds 0 = none by rw [hs0.seeds]; rfl)
  have hrest : SameRest s0 (runTlvs plainEnv rx hdrSize s0 (cs.tlvs ++ [u])) :=
    runTlvs_sameRest rx hdrSize s0 _
  have hctx : s0.ctx = secIntInitContext plainEnv.crypto fun _ => 0 := hs0.ctx
  have hv : Verified plainEnv.crypto (runTlvs plainEnv rx hdrSize s0 (cs.tlvs ++ [u])).ctx := by
    rw [runTlvs_verified, hctx]
    exact verified_init _
  have hh := holds_of_request ⟨_, hctx⟩ hcont hread
  generalize runTlvs plainEnv rx hdrSize s0 (cs.tlvs ++ [u]) = s1 at heq hx hrest hv hh
  obtain ⟨salt, s2, hsealing, -, hdone⟩ := provision_run
    (s := s1.setTxhdr fun h => { h with command := Command.response .provInitOob })
    (fun _ => rfl) hv hh hx (hrest.accumComposeLen.trans hs0.accumComposeLen)
  obtain ⟨s', resp, m, rts, hrun, ha⟩ := hdone (plain_encryptAll hsealing rfl)
  rw [hseed] at ha
  refine ⟨salt, _, s', resp, m, rts, ⟨freshState plainCrypto, h, cs.tlvs ++ [u], fun _ => 0,
    ⟨⟨_, rfl⟩, fun _ => rfl, rfl⟩, hcont, hsz, ?_, ?_⟩, ha⟩
  · rw [hrx, heq]
    exact hrun
  · rw [ha.sent]
    exact congrArg (· ++ [resp]) (hrest.sent.trans hs0.sent)

/-- Among the TLVs of a response there is no seed. -/
theorem not_seed_of_sealed {c : Crypto} {m : Ctx} {rts : List Tlv}
    (h : rts.map Tlv.content = sealedContents c m) {t : Tlv} (ht : t ∈ rts) :
    ∀ i, t.type.target ≠ .seed i := by
  have hmem : t.content ∈ sealedContents c m := h ▸ List.mem_map_of_mem ht
  intro i hi
  rcases mem_sealedContents hmem with hsalt | ⟨f, hf, -⟩
  · rw [show t.type = .hkdf32bPseSalt from congrArg Prod.fst hsalt] at hi
    cases hi
  · exact absurd (hi.symm.trans hf) (by simp)

/-- What was encrypted with zeros behind the seed is not decrypted with ones behind it. -/
theorem plain_wrong_seed {salt : List UInt8} {cs : Credentials} {s : SecState} {x : Seed}
    {seed : List UInt8} (h1 : seed.length < secCseSeedLen)
    (h : Loaded plainEnv.crypto salt (seed ++ List.replicate (secCseSeedLen - seed.length) 0) cs s)
    (hx : x.val = seed ++ List.replicate (secCseSeedLen - seed.length) 1) (key : List UInt8)
    (hkey : plainEnv.crypto.hkdf salt x.val Cred.cldHash.label = some key) :
    plainEnv.crypto.gcmAuthDecrypt key (get s.ctx Cred.cldHash.iv) (get s.ctx Cred.cldHash.tag)
      (get s.ctx Cred.cldHash.enc) = none := by
  obtain ⟨key', hk', -, hcrypt⟩ := h.isSealed .cldHash
  cases hkey
  cases hk'
  have htag := congrArg Prod.snd (Option.some.inj hcrypt)
  refine if_neg fun he => plain_tag_ne h1 (htag.trans (he.trans ?_))
  rw [hx]

/-- **A seed that is too short**: the second request finds other bytes behind it, and the
credentials do not come back. -/
theorem not_roundTrips_of_short (cs : Credentials) {seed : List UInt8} (h0 : 0 < seed.length)
    (h1 : seed.length < secCseSeedLen) : ¬ RoundTrips cs seed := by
  intro hrt
  obtain ⟨salt, sB, s', resp, m, rts, hprov, ha⟩ := provisioned_short cs h0 h1
  obtain ⟨rts', hdec, hback⟩ := hrt plainEnv plainEnv rfl plainEnv_succeeds plainEnv_succeeds
    plainCrypto_inverts s' resp hprov
  obtain rfl : rts = rts' := Option.some.inj (ha.tlvs.symm.trans hdec)
  let v : Tlv := ⟨.dencCloudHashId, 0, cs.hash⟩
  let u : Tlv := ⟨.pseSeed 0, 0, seed⟩
  let h : CmdHdr := ⟨1, 0, 0, 2, 1, 0, 0⟩
  have hperm : (((rts ++ [v]) ++ [u]).map Tlv.content).Perm
      (rts.map Tlv.content ++ [(.pseSeed 0, seed), (.dencCloudHashId, cs.hash)]) := by
    rw [List.append_assoc, List.map_append]
    exact (List.Perm.swap _ _ _).append_left _
  have hts : (((rts ++ [v]) ++ [u]).map Tlv.content).Perm
      (nextContents plainEnv.crypto m cs seed) := by
    rw [ha.contents] at hperm
    exact hperm
  have hsz := length_next_request hts h1.le
  obtain ⟨s'', resp'', hrun, hsent, ⟨w, hw, hwt⟩, -⟩ := hback (freshState plainCrypto) h _
    (fun _ => 1) ⟨⟨_, rfl⟩, Or.inl ⟨fun _ => rfl, rfl⟩⟩ hperm
  obtain ⟨s0, hs0, heq⟩ := processCmd_request plainEnv h 0x12 rfl (by decide) rfl rfl
    (next_request_ne_nil hts) hsz (fun _ => 1) (freshState plainCrypto)
  have hread := (rxBuffer_request h 0x12 (by decide) hsz fun _ => 1).2.2.2
  have hseed := seed_at_end h 0x12 (rts ++ [v]) u 1 h1.le
  rw [heq] at hrun
  generalize rxBuffer (request h 0x12 ((rts ++ [v]) ++ [u])) (fun _ => 1) = rx at hrun hread hseed
  have hv : Verified plainEnv.crypto s0.ctx := by
    rw [hs0.ctx]
    exact verified_init _
  have hload := loaded_of_request ha.keyed ha.isSealed hv hts hread
  have hrest : SameRest s0 (runTlvs plainEnv rx hdrSize s0 ((rts ++ [v]) ++ [u])) :=
    runTlvs_sameRest rx hdrSize s0 _
  have hpre : ∀ t ∈ rts ++ [v], ∀ i, t.type.target ≠ .seed i := by
    intro t ht i hi
    rcases List.mem_append.1 ht with ht | ht
    · exact not_seed_of_sealed ha.contents ht i hi
    · rw [List.mem_singleton.1 ht] at hi
      cases hi
  obtain ⟨hx, hno⟩ := plain_last_seed rx hpre h0 h1.le
    (show s0.seeds 0 = none by rw [hs0.seeds]; rfl)
  rw [hs0.seedNo] at hno
  generalize runTlvs plainEnv rx hdrSize s0 ((rts ++ [v]) ++ [u]) = s1 at hrun hload hrest hx hno
  have hload : Loaded plainEnv.crypto salt (seed ++ List.replicate (secCseSeedLen - seed.length) 0)
      cs (s1.setTxhdr fun h => { h with command := Command.response .initOob2 }) :=
    ⟨hload.verified, hload.salt_eq, hload.saltLen, hload.isSealed, hload.hash⟩
  obtain ⟨e, eresp, eu, herun, hesent, hetlv, hety⟩ := initOob2_wrong hload hx hno
    (hrest.accumComposeLen.trans hs0.accumComposeLen) (plain_wrong_seed h1 hload hseed)
  obtain rfl : e = s'' := Option.some.inj (herun.symm.trans hrun)
  have hsent' : (s1.setTxhdr fun h => { h with command := Command.response .initOob2 }).sent =
      (freshState plainCrypto).sent := hrest.sent.trans hs0.sent
  rw [hesent, hsent'] at hsent
  obtain rfl : eresp = resp'' := by simpa using hsent
  rw [hetlv] at hw
  cases hw
  rw [hety] at hwt
  rcases hwt with h | h <;> cases h

/-- **The credentials come back exactly when the seed is not a short one.** -/
theorem roundTrips_iff (cs : Credentials) (seed : List UInt8) :
    RoundTrips cs seed ↔ ¬ (0 < seed.length ∧ seed.length < secCseSeedLen) := by
  constructor
  · intro hrt ⟨h0, h1⟩
    exact not_roundTrips_of_short cs h0 h1 hrt
  · intro hlen env₁ env₂ hc hs₁ hs₂ hinv s₁ resp hprov
    rcases Nat.lt_trichotomy seed.length secCseSeedLen with h | h | h
    · have : seed = [] := List.eq_nil_of_length_eq_zero (by omega)
      exact absurd hprov (not_provisioned hs₁ (Or.inl this))
    · obtain ⟨salt, m, rts, s, ha, hx, hno⟩ := provisioned_spec hs₁ h hprov
      obtain ⟨-, hk, hseal, hdec, hcont, -, -⟩ := ha
      refine ⟨rts, hdec, fun s₂ hd ts old hr hts => ?_⟩
      rw [hcont, hc] at hts
      rw [hc] at hk hseal hinv
      exact returned_spec hs₂ hinv h hk hseal hx hno hr hts hd old
    · exact absurd hprov (not_provisioned hs₁ (Or.inr h))

/-- A device with the shortest of seeds. -/
theorem not_roundTrips_one_byte :
    ¬ RoundTrips ⟨[0x64], [0x74], [0x6D], List.replicate secCloudHashLen 0, by decide, by decide,
      by decide, by decide, by decide, by decide, List.length_replicate⟩ [0x2A] :=
  not_roundTrips_of_short _ (by decide) (by decide)

end PseFw.Sec
