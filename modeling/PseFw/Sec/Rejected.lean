/-
**Requests with a bad header.**

`sec_hc_txhdr_config` looks at the header of a request: the reserved bits, the version, the source
and the length.  What it finds goes to the status of the response; the switch over the commands
runs all the same.  So a request that is reported as an error has its effect like any other.

Whether a request has an effect can be read off the request: off its command and, for the
commands that only store TLVs, off the types and the lengths in their headers.

Main definitions:

* `Unaffected` — the context, the seeds and the flag are as they were;
* `Inert` — a request that has no effect, in whatever state it arrives;
* `noneStorable` — the TLVs come to an end, and none of them could be stored;
* `Harmless` — the requests without an effect.

Main results:

* `inert_of_harmless`, `harmless_of_inert` — **these are all of them**;
* `rejected_inert_iff` — a request with a bad header has no effect exactly when it is harmless.
-/

import PseFw.Sec.Gating

set_option relaxedAutoImplicit false
set_option autoImplicit false

namespace PseFw.Sec

open Mem

/-! ### Requests without an effect -/

/-- The context, the seeds and the flag are as they were. -/
structure Unaffected (s s' : SecState) : Prop where
  ctx : s'.ctx = s.ctx
  seeds : s'.seeds = s.seeds
  seedNo : s'.seedNo = s.seedNo
  startInitFlag : s'.startInitFlag = s.startInitFlag

/-- **A request that has no effect**, in whatever state it arrives. -/
def Inert (rx : ℕ → UInt8) : Prop :=
  ∀ env s, ∃ s', secHcProcessCmd env rx s = some s' ∧ Unaffected s s'

/-- A TLV of this type and length can be stored. -/
def storable (type length : ℕ) : Bool :=
  decide (hdrSize < length) && (DataType.ofCode type).any fun t =>
    decide (t.target ≠ .unsupported) && t.admits (length - hdrSize)

/-- The TLVs come to an end, and none of them can be stored. -/
def noneStorable (rx : ℕ → UInt8) : ℕ → ℕ → ℕ → Bool
  | _, _, 0 => true
  | 0, _, _ + 1 => false
  | fuel + 1, pos, len + 1 =>
      decide (hdrLength rx pos ≠ 0) && !storable (hdrType rx pos) (hdrLength rx pos) &&
        noneStorable rx fuel (pos + hdrLength rx pos) (len + 1 - hdrLength rx pos)

/-- **The requests without an effect**: an unknown command; the one that asks for the status; and a
request, or a part of one, that only has TLVs to store, none of which can be stored. -/
def Harmless (rx : ℕ → UInt8) : Prop :=
  match Command.ofCode (cmdHdr rx).command with
  | none | some .statusOob => True
  | some .provInitAck | some .initOob =>
      noneStorable rx ((cmdHdr rx).length - hdrSize) hdrSize ((cmdHdr rx).length - hdrSize) = true
  | some .provInitOob | some .initOob2 => (cmdHdr rx).msgComp ≠ 1 ∧
      noneStorable rx ((cmdHdr rx).length - hdrSize) hdrSize ((cmdHdr rx).length - hdrSize) = true
  | _ => False

variable {env : Env}

/-! ### Harmless requests -/

/-- A TLV that cannot be stored changes nothing at all. -/
theorem once_not_storable {rx : ℕ → UInt8} {pos : ℕ}
    (h : storable (hdrType rx pos) (hdrLength rx pos) = false) (s : SecState) :
    (secHcProcessCmdDataOnce env rx pos s).2 = s := by
  unfold secHcProcessCmdDataOnce
  split
  · rfl
  · rename_i hl
    cases ht : DataType.ofCode (hdrType rx pos) with
    | none => rfl
    | some t =>
        simp only [storable, ht, Option.any_some, Bool.and_eq_false_iff, decide_eq_false_iff_not,
          not_not] at h
        simp only
        rw [storeTlv_eq]
        rcases h with h | h | h
        · omega
        · rw [h]
        · rw [h]
          cases htar : t.target with
          | simple f =>
              exfalso
              cases t <;> simp only [DataType.target, reduceCtorEq] at htar <;>
                simp only [DataType.admits, DataType.target, reduceCtorEq] at h
          | param f lenField => simp
          | enc f => simp
          | seed idx => simp
          | unsupported => rfl

theorem processLoop_harmless {rx : ℕ → UInt8} {fuel pos len : ℕ}
    (h : noneStorable rx fuel pos len = true) (st : Status) (s : SecState) :
    ∃ vs st', processLoop env rx fuel pos len st s = some (vs, st', s) := by
  induction fuel generalizing pos len st s with
  | zero =>
      cases len with
      | zero => exact ⟨[], st, rfl⟩
      | succ len => cases h
  | succ fuel ih =>
      cases len with
      | zero => exact ⟨[], st, rfl⟩
      | succ len =>
          simp only [noneStorable, Bool.and_eq_true, decide_eq_true_eq, Bool.not_eq_true'] at h
          obtain ⟨⟨hl, hst⟩, hrest⟩ := h
          obtain ⟨vs, st', hrun⟩ := ih hrest (secHcProcessCmdDataOnce env rx pos s).1.status s
          rw [processLoop_succ, if_neg hl, once_not_storable hst, hrun]
          exact ⟨_, st', rfl⟩

theorem parsed_harmless {cmd : Command} {rx : ℕ → UInt8} (hd : cmd.hasData = true)
    (h : noneStorable rx ((cmdHdr rx).length - hdrSize) hdrSize ((cmdHdr rx).length - hdrSize) =
      true) (s : SecState) : ∃ vs st, parsed env cmd rx s = some (vs, st, started rx s) := by
  unfold parsed
  rw [if_pos hd]
  rcases Nat.lt_or_ge hdrSize (cmdHdr rx).length with hlt | hge
  · rw [parseRequest_loop hlt]
    exact processLoop_harmless h _ _
  · rw [parseRequest_empty hge]
    exact ⟨_, _, rfl⟩

theorem unaffected_started (rx : ℕ → UInt8) (s : SecState) : Unaffected s (started rx s) :=
  ⟨rfl, rfl, rfl, rfl⟩

theorem unaffected_respondMsgType (env : Env) (t : DataType) (s : SecState) :
    Unaffected s (respondMsgType env t s) := by
  unfold respondMsgType secHcResponseMsgType secHcResponseDataOnce secHcCreateCmdData
  simp only [Nat.not_lt_zero, if_false, ne_eq, not_true_eq_false]
  exact ⟨rfl, rfl, rfl, rfl⟩

/-- A request that only has TLVs to store. -/
theorem inert_of_noneStorable {rx : ℕ → UInt8} {cmd : Command}
    (hc : Command.ofCode (cmdHdr rx).command = some cmd) (hd : cmd.hasData = true)
    (h : noneStorable rx ((cmdHdr rx).length - hdrSize) hdrSize ((cmdHdr rx).length - hdrSize) =
      true)
    (hafter : ∀ env s, ∃ s', afterData env cmd (cmdHdr rx).msgComp s = some s' ∧
      Unaffected s s') : Inert rx := by
  intro env s
  cases hm : env.kMalloc with
  | false => exact ⟨s, processCmd_no_memory hm rx s, ⟨rfl, rfl, rfl, rfl⟩⟩
  | true =>
      obtain ⟨vs, st, hp⟩ := @parsed_harmless env cmd rx hd h s
      obtain ⟨s', hs', hu⟩ := hafter env (started rx s)
      refine ⟨s', ?_, ⟨hu.ctx, hu.seeds, hu.seedNo, hu.startInitFlag⟩⟩
      rw [processCmd_eq hm hc, hp]
      exact hs'

/-- **A harmless request has no effect.** -/
theorem inert_of_harmless {rx : ℕ → UInt8} (h : Harmless rx) : Inert rx := by
  unfold Harmless at h
  cases hc : Command.ofCode (cmdHdr rx).command with
  | none =>
      intro env s
      cases hm : env.kMalloc with
      | false => exact ⟨s, processCmd_no_memory hm rx s, ⟨rfl, rfl, rfl, rfl⟩⟩
      | true => exact ⟨_, processCmd_unknown hm hc s, unaffected_started rx s⟩
  | some cmd =>
      simp only [hc] at h
      cases cmd with
      | statusOob =>
          intro env s
          cases hm : env.kMalloc with
          | false => exact ⟨s, processCmd_no_memory hm rx s, ⟨rfl, rfl, rfl, rfl⟩⟩
          | true =>
              have hu := unaffected_respondMsgType env .oobStatus ((started rx s).reply .statusOob)
              exact ⟨_, processCmd_eq hm hc s, ⟨hu.ctx, hu.seeds, hu.seedNo, hu.startInitFlag⟩⟩
      | provInitAck | initOob =>
          refine inert_of_noneStorable hc rfl h fun env s => ?_
          by_cases hm : (cmdHdr rx).msgComp = 1
          · rw [hm]
            exact ⟨_, rfl, ⟨rfl, rfl, rfl, rfl⟩⟩
          · exact ⟨_, (afterData_part env rfl hm s).1, ⟨rfl, rfl, rfl, rfl⟩⟩
      | provInitOob | initOob2 =>
          refine inert_of_noneStorable hc rfl h.2 fun env s => ?_
          exact ⟨_, (afterData_part env rfl h.1 s).1, ⟨rfl, rfl, rfl, rfl⟩⟩
      | initAck2 | rprovReq | rprovAck | decommAck => exact h.elim

/-! ### TLVs that can be stored

Two clients that differ in every byte of the context go through the same TLVs.  Once a TLV is
stored, they agree in its first byte, and they never differ in it again; so one of them was
changed. -/

/-- A context of one byte, with the hash of the library for examples. -/
def constCtx (b : UInt8) : Ctx := fun i =>
  if Field.hash.offset ≤ i ∧ i < Field.hash.offset + Field.hash.size then 0 else b

theorem verified_constCtx (b : UInt8) : Verified plainEnv.crypto (constCtx b) := by
  unfold Verified get
  rw [show plainEnv.crypto.sha384 _ = List.replicate Field.hash.size 0 from rfl]
  refine (List.eq_replicate_iff.2 ⟨length_read _ _ _, fun x hx => ?_⟩).symm
  obtain ⟨i, hi, rfl⟩ := List.mem_map.1 hx
  have := List.mem_range.1 hi
  exact if_pos ⟨Nat.le_add_right _ _, by omega⟩

theorem constCtx_offset (b : UInt8) {f : Field} (h : f ≠ .hash) (hs : 0 < f.size) :
    constCtx b f.offset = b := by
  refine if_neg fun hc => ?_
  rcases Field.offset_disjoint h with hd | hd <;> omega

/-- What a TLV does to the context, when its hash is right. -/
def tlvCtx (c : Crypto) (t : DataType) (src : ℕ → UInt8) (dataLen : ℕ) (m : Ctx) : Ctx :=
  match t.target with
  | .param f lenField =>
      if t.admits dataLen = true then
        secIntUpdateContextHash c (secIntSetContextParam m f lenField (read src 0 dataLen))
      else m
  | .simple f => secIntUpdateContextHash c (put m f (read src 0 4))
  | .enc f => if t.admits dataLen = true then put m f (read src 0 dataLen) else m
  | _ => m

theorem storeTlv_ctx {t : DataType} {src : ℕ → UInt8} {dataLen : ℕ} {s : SecState}
    (hv : Verified env.crypto s.ctx) :
    (storeTlv env t src dataLen s).2.ctx = tlvCtx env.crypto t src dataLen s.ctx := by
  rw [storeTlv_eq]
  unfold tlvCtx
  cases t.target with
  | param f lenField =>
      simp only [hv, and_true]
      split <;> rfl
  | simple f => simp only [if_pos hv]
  | enc f =>
      simp only
      split <;> rfl
  | seed idx =>
      simp only
      split
      · split <;> rfl
      · rfl
  | unsupported => rfl

/-- Two contexts that agree in a byte still do after the same TLV: the hash of the library for
examples is a constant. -/
theorem tlvCtx_agree {m m' : Ctx} {i : ℕ} (h : m i = m' i) (t : DataType) (src : ℕ → UInt8)
    (dataLen : ℕ) :
    tlvCtx plainCrypto t src dataLen m i = tlvCtx plainCrypto t src dataLen m' i := by
  unfold tlvCtx
  cases t.target with
  | param f lenField =>
      simp only
      split
      · exact write_congr (write_congr (write_congr h _ _) _ _) _ _
      · exact h
  | simple f => exact write_congr (write_congr h _ _) _ _
  | enc f =>
      simp only
      split
      · exact write_congr h _ _
      · exact h
  | _ => exact h

/-- The first byte of a field that is written. -/
theorem put_offset_self (m : Ctx) (f : Field) {l : List UInt8} (h : 0 < l.length) :
    put m f l f.offset = l[0] := write_add m f.offset h

theorem put_offset_ne {m : Ctx} {f g : Field} {l : List UInt8} (hs : 0 < f.size) (h : f ≠ g)
    (hl : l.length ≤ g.size) : put m g l f.offset = m f.offset :=
  put_misses hl (Field.misses_of_ne h le_rfl (by omega))

theorem target_param {t : DataType} {f lenField : Field} (h : t.target = .param f lenField) :
    f ≠ .hash ∧ 0 < f.size ∧ f ≠ lenField ∧ lenField.size = 4 := by
  cases t <;> simp only [DataType.target, reduceCtorEq, Target.param.injEq] at h <;>
    obtain ⟨rfl, rfl⟩ := h <;> decide

theorem target_field {t : DataType} {f : Field} (h : t.target = .simple f ∨ t.target = .enc f) :
    f ≠ .hash ∧ 0 < f.size := by
  cases t <;> simp only [DataType.target, reduceCtorEq, Target.simple.injEq, Target.enc.injEq,
    or_false, false_or] at h <;> subst h <;> decide

/-- **A TLV that is stored leaves its first byte in the context.** -/
theorem tlvCtx_stored (c : Crypto) {t : DataType} (src : ℕ → UInt8) {dataLen : ℕ}
    (ht : t.target ≠ .unsupported) (hseed : ∀ i, t.target ≠ .seed i)
    (ha : t.admits dataLen = true) (hd : 0 < dataLen) :
    ∃ f : Field, f ≠ .hash ∧ 0 < f.size ∧ ∀ m, tlvCtx c t src dataLen m f.offset = src 0 := by
  have hbyte : ∀ (m : Ctx) (f : Field) {n : ℕ}, 0 < n →
      put m f (read src 0 n) f.offset = src 0 := by
    intro m f n hn
    rw [put_offset_self m f (by rwa [length_read]), getElem_read]
  have hhash : ∀ (m : Ctx) (f : Field), f ≠ .hash → 0 < f.size →
      secIntUpdateContextHash c m f.offset = m f.offset := fun m f hf hs =>
    put_offset_ne hs hf (le_of_eq (c.length_sha384 _))
  cases htar : t.target with
  | param f lenField =>
      obtain ⟨h1, h2, h3, h4⟩ := target_param htar
      refine ⟨f, h1, h2, fun m => ?_⟩
      simp only [tlvCtx, htar, if_pos ha]
      rw [hhash _ f h1 h2, secIntSetContextParam, putWord,
        put_offset_ne h2 h3 (by rw [length_leBytes, h4]), hbyte m f hd]
  | simple f =>
      obtain ⟨h1, h2⟩ := target_field (Or.inl htar)
      refine ⟨f, h1, h2, fun m => ?_⟩
      simp only [tlvCtx, htar]
      rw [hhash _ f h1 h2, hbyte m f (by decide)]
  | enc f =>
      obtain ⟨h1, h2⟩ := target_field (Or.inr htar)
      refine ⟨f, h1, h2, fun m => ?_⟩
      simp only [tlvCtx, htar, if_pos ha]
      exact hbyte m f hd
  | seed i => exact absurd htar (hseed i)
  | unsupported => exact absurd htar ht

/-- Two clients go through the same TLV. -/
theorem once_agree {rx : ℕ → UInt8} {pos : ℕ} {s s' : SecState} {i : ℕ}
    (hv : Verified plainEnv.crypto s.ctx) (hv' : Verified plainEnv.crypto s'.ctx)
    (h : s.ctx i = s'.ctx i) :
    (secHcProcessCmdDataOnce plainEnv rx pos s).2.ctx i =
      (secHcProcessCmdDataOnce plainEnv rx pos s').2.ctx i := by
  unfold secHcProcessCmdDataOnce
  split
  · exact h
  · cases DataType.ofCode (hdrType rx pos) with
    | none => exact h
    | some t =>
        simp only
        rw [storeTlv_ctx hv, storeTlv_ctx hv']
        exact tlvCtx_agree h t _ _

theorem processLoop_agree {rx : ℕ → UInt8} {fuel pos len : ℕ} {st st' : Status} {s s' : SecState}
    {q q' : List Visit × Status × SecState} {i : ℕ} (hv : Verified plainEnv.crypto s.ctx)
    (hv' : Verified plainEnv.crypto s'.ctx) (h : s.ctx i = s'.ctx i)
    (hq : processLoop plainEnv rx fuel pos len st s = some q)
    (hq' : processLoop plainEnv rx fuel pos len st' s' = some q') :
    q.2.2.ctx i = q'.2.2.ctx i := by
  induction fuel generalizing pos len st st' s s' q q' with
  | zero =>
      cases len with
      | zero =>
          cases hq
          cases hq'
          exact h
      | succ len => cases hq
  | succ fuel ih =>
      cases len with
      | zero =>
          cases hq
          cases hq'
          exact h
      | succ len =>
          rw [processLoop_succ] at hq hq'
          split at hq
          · cases hq
          · rename_i hl
            rw [if_neg hl] at hq'
            obtain ⟨p, hp, rfl⟩ := Option.map_eq_some_iff.1 hq
            obtain ⟨p', hp', rfl⟩ := Option.map_eq_some_iff.1 hq'
            have hrest := ih ((verified_processCmdDataOnce _ _ _ _).2 hv)
              ((verified_processCmdDataOnce _ _ _ _).2 hv') (once_agree hv hv' h) hp hp'
            exact hrest

/-- A slot of the seed table that is taken stays taken. -/
theorem storeTlv_taken {t : DataType} {src : ℕ → UInt8} {dataLen : ℕ} {s : SecState} {i : Fin 4}
    (h : s.seeds i ≠ none) : (storeTlv env t src dataLen s).2.seeds i ≠ none := by
  rw [storeTlv_eq]
  cases t.target with
  | param f lenField | simple f | enc f =>
      simp only
      split <;> exact h
  | seed idx =>
      simp only
      split
      · split
        · by_cases hi : i = idx
          · simp [hi]
          · simpa [Function.update_of_ne hi] using h
        · exact h
      · exact h
  | unsupported => exact h

theorem once_taken {rx : ℕ → UInt8} {pos : ℕ} {s : SecState} {i : Fin 4} (h : s.seeds i ≠ none) :
    (secHcProcessCmdDataOnce env rx pos s).2.seeds i ≠ none := by
  unfold secHcProcessCmdDataOnce
  split
  · exact h
  · cases DataType.ofCode (hdrType rx pos) with
    | none => exact h
    | some t => exact storeTlv_taken h

/-- **A TLV that can be stored leaves a trace**: a slot of the seed table is taken, or two clients
agree in a byte of the context. -/
theorem once_trace {rx : ℕ → UInt8} {pos : ℕ} {s s' : SecState}
    (hst : storable (hdrType rx pos) (hdrLength rx pos) = true)
    (hv : Verified plainEnv.crypto s.ctx) (hv' : Verified plainEnv.crypto s'.ctx)
    (hfree : ∀ i, s.seeds i = none) :
    (∃ i, (secHcProcessCmdDataOnce plainEnv rx pos s).2.seeds i ≠ none) ∨
      ∃ f : Field, f ≠ .hash ∧ 0 < f.size ∧
        (secHcProcessCmdDataOnce plainEnv rx pos s).2.ctx f.offset =
          (secHcProcessCmdDataOnce plainEnv rx pos s').2.ctx f.offset := by
  simp only [storable, Bool.and_eq_true, decide_eq_true_eq, Option.any_eq_true] at hst
  obtain ⟨hlen, t, htype, ht, ha⟩ := hst
  have honce : ∀ s, secHcProcessCmdDataOnce plainEnv rx pos s =
      storeTlv plainEnv t (fun i => rx (pos + hdrSize + i)) (hdrLength rx pos - hdrSize) s := by
    intro s
    unfold secHcProcessCmdDataOnce
    rw [if_neg (by omega), htype]
  by_cases hseed : ∃ i, t.target = .seed i
  · obtain ⟨i, hi⟩ := hseed
    refine Or.inl ⟨i, ?_⟩
    rw [honce, storeTlv_eq]
    simp only [hi]
    rw [if_pos ⟨ha, hfree i⟩, if_pos (show plainEnv.kHeapAlloc s.allocs = true from rfl)]
    simp
  · obtain ⟨f, hf, hsize, hbyte⟩ := tlvCtx_stored plainCrypto
      (fun i => rx (pos + hdrSize + i)) ht (fun i hi => hseed ⟨i, hi⟩) ha
      (show 0 < hdrLength rx pos - hdrSize by omega)
    refine Or.inr ⟨f, hf, hsize, ?_⟩
    rw [honce, honce, storeTlv_ctx hv, storeTlv_ctx hv']
    exact (hbyte _).trans (hbyte _).symm

/-- The trace is still there at the end of the request. -/
theorem processLoop_trace {rx : ℕ → UInt8} {fuel pos len : ℕ} {st st' : Status} {s s' : SecState}
    {q q' : List Visit × Status × SecState} (hn : noneStorable rx fuel pos len = false)
    (hv : Verified plainEnv.crypto s.ctx) (hv' : Verified plainEnv.crypto s'.ctx)
    (hfree : ∀ i, s.seeds i = none)
    (hq : processLoop plainEnv rx fuel pos len st s = some q)
    (hq' : processLoop plainEnv rx fuel pos len st' s' = some q') :
    (∃ i, q.2.2.seeds i ≠ none) ∨ ∃ f : Field, f ≠ .hash ∧ 0 < f.size ∧
      q.2.2.ctx f.offset = q'.2.2.ctx f.offset := by
  induction fuel generalizing pos len st st' s s' q q' with
  | zero =>
      cases len with
      | zero => cases hn
      | succ len => cases hq
  | succ fuel ih =>
      cases len with
      | zero => cases hn
      | succ len =>
          rw [processLoop_succ] at hq hq'
          split at hq
          · cases hq
          rename_i hl
          rw [if_neg hl] at hq'
          obtain ⟨p, hp, rfl⟩ := Option.map_eq_some_iff.1 hq
          obtain ⟨p', hp', rfl⟩ := Option.map_eq_some_iff.1 hq'
          cases hst : storable (hdrType rx pos) (hdrLength rx pos) with
          | false =>
              have hrest : noneStorable rx fuel (pos + hdrLength rx pos)
                  (len + 1 - hdrLength rx pos) = false := by
                simpa [noneStorable, hst, hl] using hn
              rw [once_not_storable hst] at hp hp'
              have htrace := ih hrest hv hv' hfree hp hp'
              exact htrace
          | true =>
              rcases once_trace hst hv hv' hfree with ⟨i, htaken⟩ | ⟨f, hf, hsize, hagree⟩
              · have hrest := processLoop_invariant (P := fun s => s.seeds i ≠ none)
                  (fun _ _ => once_taken) htaken hp
                exact Or.inl ⟨i, hrest⟩
              · have hrest := processLoop_agree ((verified_processCmdDataOnce _ _ _ _).2 hv)
                  ((verified_processCmdDataOnce _ _ _ _).2 hv') hagree hp hp'
                exact Or.inr ⟨f, hf, hsize, hrest⟩

/-! ### Commands with an effect of their own -/

/-- A full seed table stays as it is. -/
theorem once_full {rx : ℕ → UInt8} {pos : ℕ} {s : SecState} (h : ∀ i, s.seeds i ≠ none) :
    (secHcProcessCmdDataOnce env rx pos s).2.seeds = s.seeds ∧
      (secHcProcessCmdDataOnce env rx pos s).2.seedNo = s.seedNo := by
  unfold secHcProcessCmdDataOnce
  split
  · exact ⟨rfl, rfl⟩
  · cases DataType.ofCode (hdrType rx pos) with
    | none => exact ⟨rfl, rfl⟩
    | some t =>
        by_cases hseed : ∃ i, t.target = .seed i
        · obtain ⟨i, hi⟩ := hseed
          simp only
          rw [storeTlv_eq]
          simp only [hi]
          rw [if_neg fun hc => h i hc.2]
          exact ⟨rfl, rfl⟩
        · exact storeTlv_seeds (fun i hi => hseed ⟨i, hi⟩) _ _ s

theorem parsed_full {cmd : Command} {rx : ℕ → UInt8} {s : SecState}
    {q : List Visit × Status × SecState} (h : ∀ i, s.seeds i ≠ none)
    (hq : parsed env cmd rx s = some q) :
    q.2.2.seeds = s.seeds ∧ q.2.2.seedNo = s.seedNo := by
  refine parsed_invariant (P := fun s' => s'.seeds = s.seeds ∧ s'.seedNo = s.seedNo) ?_
    ⟨rfl, rfl⟩ hq
  rintro pos s' ⟨hseeds, hno⟩
  obtain ⟨h1, h2⟩ := @once_full env rx pos s' fun i => by
    rw [hseeds]
    exact h i
  exact ⟨h1.trans hseeds, h2.trans hno⟩

/-- The fuse, which holds the seed a request works with. -/
abbrev fuseOf (s : SecState) : List UInt8 := get s.ctx .pse32bFuse

theorem fuse_setPrefCseSeed {idx : ℕ} {s : SecState} {x : Seed} {q : Status × SecState}
    (hx : ∀ i, s.seeds i = some x) (h : secHcSetPrefCseSeed idx s = some q) :
    fuseOf q.2 = x.val ∧ q.2.seeds = s.seeds := by
  obtain ⟨seed, hseed, rfl⟩ := Option.map_eq_some_iff.1 h
  have hval : seed = x := by
    unfold SecState.seedAt at hseed
    split at hseed
    · rw [hx, Option.some.injEq] at hseed
      exact hseed.symm
    · cases hseed
  subst hval
  have hlen : seed.val.length = secFuseLen := seed.property
  refine ⟨?_, rfl⟩
  unfold secIntSetPse32bFuse fuseOf secIntSetContextParam
  rw [if_neg (not_not_intro hlen)]
  simp only
  rw [get_putWord_ne rfl (by decide), get_put_self hlen]

/-- Surroundings in which the heap is full: the first encryption and the first decryption fail, and
the seed is in the fuse by then. -/
def fullHeapEnv : Env := { plainEnv with kHeapAlloc := fun _ => false }

theorem encryptAll_fullHeap (q : Status × SecState) :
    (encryptAll fullHeapEnv q).1 ≠ .success ∧ fuseOf (encryptAll fullHeapEnv q).2 = fuseOf q.2 := by
  have henc : ∀ cr s, secHcEncryptData fullHeapEnv cr s =
      (.failed, { s with allocs := s.allocs + 1 }) := fun _ _ => if_pos rfl
  unfold encryptAll andThen
  by_cases h : q.1 = .success
  · simp [henc, h]
  · simp [h]

theorem provision_fullHeap {s s' : SecState} {x : Seed} (hx : ∀ i, s.seeds i = some x)
    (h : provision fullHeapEnv s = some s') : fuseOf s' = x.val := by
  obtain ⟨q, hq, rfl⟩ := Option.map_eq_some_iff.1 h
  obtain ⟨hfuse, -⟩ := fuse_setPrefCseSeed
    (show ∀ i, (secHcPseSetSalt fullHeapEnv s).seeds i = some x from hx) hq
  obtain ⟨hne, henc⟩ := encryptAll_fullHeap q
  simp only
  rw [if_pos hne, henc, hfuse]

theorem findCseSeedLoop_fullHeap {left idx : ℕ} {s : SecState} {x : Seed}
    {q : Status × SecState} (hx : ∀ i, s.seeds i = some x) (hl : 0 < left ∨ fuseOf s = x.val)
    (h : findCseSeedLoop fullHeapEnv left idx s = some q) :
    q.1 = .failed ∧ fuseOf q.2 = x.val := by
  have hdec : ∀ s, secHcDecryptData fullHeapEnv .cldHash s =
      (.failed, { s with allocs := s.allocs + 1 }) := fun _ => if_pos rfl
  induction left generalizing idx s with
  | zero =>
      cases h
      exact ⟨rfl, hl.resolve_left (lt_irrefl 0)⟩
  | succ left ih =>
      obtain ⟨p, hp, h⟩ := Option.bind_eq_some_iff.1 h
      obtain ⟨hfuse, hseeds⟩ := fuse_setPrefCseSeed hx hp
      split at h
      · cases h
        exact ⟨rfl, hfuse⟩
      · simp only [hdec, ne_eq, reduceCtorEq, not_false_eq_true, if_true] at h
        refine ih (fun i => ?_) (Or.inr ?_) h
        · exact (congrFun hseeds i).trans (hx i)
        · exact hfuse

theorem initOob2_fullHeap {s s' : SecState} {x : Seed} (hx : ∀ i, s.seeds i = some x)
    (hn : 0 < s.seedNo) (h : initOob2 fullHeapEnv s = some s') : fuseOf s' = x.val := by
  obtain ⟨q, hq, rfl⟩ := Option.map_eq_some_iff.1 h
  obtain ⟨hfail, hfuse⟩ := findCseSeedLoop_fullHeap hx (Or.inl hn) hq
  have hctx := (unaffected_respondMsgType fullHeapEnv .normalFlwDataErr q.2).ctx
  rw [if_pos (by rw [hfail]; decide), fuseOf, hctx]
  exact hfuse

/-! ### All the requests without an effect -/

/-- A client with a given byte all over the context. -/
def filledState (b : UInt8) : SecState := { freshState plainCrypto with ctx := constCtx b }

/-- A seed of zeros. -/
def zeroSeed : Seed := ⟨List.replicate secCseSeedLen 0, List.length_replicate⟩

/-- A client with the same seed four times, and another one in the fuse. -/
def seededState : SecState :=
  { filledState 1 with seeds := fun _ => some zeroSeed, seedNo := 4 }

/-- The two halves of a request that returns. -/
theorem processCmd_halves {rx : ℕ → UInt8} {cmd : Command} {s s' : SecState}
    (hm : env.kMalloc = true) (hc : Command.ofCode (cmdHdr rx).command = some cmd)
    (h : secHcProcessCmd env rx s = some s') : ∃ q, parsed env cmd rx s = some q ∧
      afterData env cmd (cmdHdr rx).msgComp q.2.2 = some s' := by
  rw [processCmd_eq hm hc] at h
  exact Option.bind_eq_some_iff.1 h

/-- A request that only has TLVs to store is inert when none of them can be stored, and only
then. -/
theorem noneStorable_of_inert {rx : ℕ → UInt8} {cmd : Command}
    (hc : Command.ofCode (cmdHdr rx).command = some cmd) (hd : cmd.hasData = true)
    (hafter : ∀ s s', afterData plainEnv cmd (cmdHdr rx).msgComp s = some s' →
      s'.ctx = s.ctx ∧ s'.seeds = s.seeds) (h : Inert rx) :
    noneStorable rx ((cmdHdr rx).length - hdrSize) hdrSize ((cmdHdr rx).length - hdrSize) =
      true := by
  by_contra hn
  rw [Bool.not_eq_true] at hn
  have hlen : hdrSize < (cmdHdr rx).length := by
    by_contra hle
    rw [Nat.sub_eq_zero_of_le (Nat.le_of_not_lt hle)] at hn
    cases hn
  have hrun : ∀ b, ∃ q, processLoop plainEnv rx ((cmdHdr rx).length - hdrSize) hdrSize
      ((cmdHdr rx).length - hdrSize) .success (started rx (filledState b)) = some q ∧
      q.2.2.ctx = constCtx b ∧ ∀ i, q.2.2.seeds i = none := by
    intro b
    obtain ⟨s', hs', hu⟩ := h plainEnv (filledState b)
    obtain ⟨q, hq, haft⟩ := processCmd_halves rfl hc hs'
    unfold parsed at hq
    rw [if_pos hd, parseRequest_loop hlen] at hq
    obtain ⟨hctx, hseeds⟩ := hafter _ _ haft
    refine ⟨q, hq, hctx.symm.trans hu.ctx, fun i => ?_⟩
    rw [← hseeds, hu.seeds]
    rfl
  obtain ⟨q, hq, hctx, hseeds⟩ := hrun 0
  obtain ⟨q', hq', hctx', -⟩ := hrun 1
  have hv : ∀ b, Verified plainEnv.crypto (started rx (filledState b)).ctx := verified_constCtx
  have hfree : ∀ i, (started rx (filledState 0)).seeds i = none := fun _ => rfl
  rcases processLoop_trace hn (hv 0) (hv 1) hfree hq hq'
    with ⟨i, hi⟩ | ⟨f, hf, hsize, heq⟩
  · exact hi (hseeds i)
  · rw [hctx, hctx', constCtx_offset 0 hf hsize, constCtx_offset 1 hf hsize] at heq
    exact absurd heq (by decide)

theorem decommission_first (m : Ctx) : secIntSecDecommission m 0 = 0 := by
  have hlen : 0 < (List.replicate sizeofSecContextWrapper (0 : UInt8)).length := by
    rw [List.length_replicate]
    decide
  exact (write_add m 0 hlen).trans (List.getElem_replicate _)

/-- A request that takes up a seed is not inert. -/
theorem not_inert_of_seed {rx : ℕ → UInt8} {cmd : Command}
    (hc : Command.ofCode (cmdHdr rx).command = some cmd)
    (hafter : ∀ s s', s.seeds = seededState.seeds → s.seedNo = 4 →
      afterData fullHeapEnv cmd (cmdHdr rx).msgComp s = some s' →
      fuseOf s' = zeroSeed.val) : ¬ Inert rx := by
  intro h
  obtain ⟨s', hs', hu⟩ := h fullHeapEnv seededState
  obtain ⟨q, hq, haft⟩ := processCmd_halves rfl hc hs'
  obtain ⟨hseeds, hno⟩ := parsed_full (fun _ => Option.some_ne_none _) hq
  have hfuse := hafter _ _ hseeds hno haft
  rw [fuseOf, hu.ctx] at hfuse
  have hone : (get seededState.ctx .pse32bFuse)[0]? = some (1 : UInt8) := by
    unfold get
    rw [List.getElem?_eq_getElem (by rw [length_read]; decide), getElem_read]
    have hb := constCtx_offset 1 (show Field.pse32bFuse ≠ .hash by decide) (by decide)
    exact congrArg some hb
  rw [hfuse] at hone
  exact absurd hone (by decide)

/-- **A request without an effect is harmless.** -/
theorem harmless_of_inert {rx : ℕ → UInt8} (h : Inert rx) : Harmless rx := by
  have hpart : ∀ {cmd : Command}, cmd.inParts = true → (cmdHdr rx).msgComp ≠ 1 →
      ∀ s s', afterData plainEnv cmd (cmdHdr rx).msgComp s = some s' →
      s'.ctx = s.ctx ∧ s'.seeds = s.seeds := by
    intro cmd hin hm s s' hs'
    rw [(afterData_part plainEnv hin hm s).1] at hs'
    cases hs'
    exact ⟨rfl, rfl⟩
  unfold Harmless
  cases hc : Command.ofCode (cmdHdr rx).command with
  | none => trivial
  | some cmd =>
      cases cmd with
      | statusOob => trivial
      | provInitAck | initOob =>
          refine noneStorable_of_inert hc rfl (fun s s' hs' => ?_) h
          by_cases hm : (cmdHdr rx).msgComp = 1
          · rw [hm] at hs'
            cases hs'
            exact ⟨rfl, rfl⟩
          · exact hpart rfl hm s s' hs'
      | provInitOob =>
          by_cases hm : (cmdHdr rx).msgComp = 1
          · refine absurd h (not_inert_of_seed hc fun s s' hs hno hs' => ?_)
            rw [hm] at hs'
            refine provision_fullHeap ?_
              (show provision fullHeapEnv (s.reply .provInitOob) = some s' from hs')
            exact fun i => congrFun hs i
          · exact ⟨hm, noneStorable_of_inert hc rfl (hpart rfl hm) h⟩
      | initOob2 =>
          by_cases hm : (cmdHdr rx).msgComp = 1
          · refine absurd h (not_inert_of_seed hc fun s s' hs hno hs' => ?_)
            rw [hm] at hs'
            refine initOob2_fullHeap ?_ (show 0 < (s.reply .initOob2).seedNo from ?_)
              (show initOob2 fullHeapEnv (s.reply .initOob2) = some s' from hs')
            · exact fun i => congrFun hs i
            · exact hno ▸ Nat.succ_pos 3
          · exact ⟨hm, noneStorable_of_inert hc rfl (hpart rfl hm) h⟩
      | rprovReq =>
          refine absurd h (not_inert_of_seed hc fun s s' hs hno hs' => ?_)
          refine provision_fullHeap ?_ (show provision fullHeapEnv
            { s.reply .rprovReq with seedUpdated := false } = some s' from hs')
          exact fun i => congrFun hs i
      | initAck2 | rprovAck =>
          obtain ⟨s', hs', hu⟩ := h plainEnv (filledState 0)
          obtain ⟨q, -, haft⟩ := processCmd_halves rfl hc hs'
          cases haft
          exact (nomatch (show true = false from hu.startInitFlag))
      | decommAck =>
          obtain ⟨s', hs', hu⟩ := h plainEnv (filledState 1)
          obtain ⟨q, -, haft⟩ := processCmd_halves rfl hc hs'
          cases haft
          have hone := constCtx_offset 1 (show Field.rootCa ≠ .hash by decide) (by decide)
          have hbyte : secIntSecDecommission (sendResponse (q.2.2.reply .decommAck)).ctx 0 = 1 :=
            (congrFun hu.ctx 0).trans hone
          rw [decommission_first] at hbyte
          exact absurd hbyte (by decide)

/-- **A request with a bad header has no effect exactly when it is harmless.** -/
theorem rejected_inert_iff (rx : ℕ → UInt8) :
    (¬ (cmdHdr rx).Ok → Inert rx) ↔ ((cmdHdr rx).Ok ∨ Harmless rx) := by
  constructor
  · intro h
    by_cases hok : (cmdHdr rx).Ok
    · exact Or.inl hok
    · exact Or.inr (harmless_of_inert (h hok))
  · rintro (hok | hharm) hbad
    · exact absurd hok hbad
    · exact inert_of_harmless hharm

/-- An acknowledgement with a reserved bit set: the response would be an error, and the flag is
set. -/
theorem not_inert_rejected_ack :
    ¬ ∀ rx : ℕ → UInt8, ¬ (cmdHdr rx).Ok → Inert rx := by
  intro h
  have hbad : ¬ (cmdHdr (message [0x23, 0x41, 0x00, 0x14])).Ok := fun hok => by
    have := hok.rsvd
    revert this
    decide
  obtain ⟨s', hs', hu⟩ := h _ hbad plainEnv (freshState plainCrypto)
  have hflag : (secHcProcessCmd plainEnv (message [0x23, 0x41, 0x00, 0x14])
      (freshState plainCrypto)).map SecState.startInitFlag = some true := rfl
  rw [hs', Option.map_some, hu.startInitFlag] at hflag
  exact absurd hflag (by decide)

end PseFw.Sec
