/-
**What a TLV may change.**

The fields of `sec_ctx` stand one behind the other, and a TLV is copied to the field of its type.
For the encrypted values and the seeds the length is compared with the size of the field before; for
the tag of the encrypted device id the comparison is commented out.  The other types go through
setters.  Only two of these look at the length, their result is dropped, and so are the lengths of
the ports and of the state: an error is reported for none of them.

A TLV is taken apart here at the level of the memory: the bytes that change are those of its own
field, of the length of this field and of the hash, or those of one seed.

Main definitions:

* `DataType.capacity`, `DataType.guarded` — the size of the field, and the types that are checked;
* `FrameOk` — only the field of the type changes, and data that is too long is refused.

Main results:

* `storeTlv_of_guarded`, `status_of_not_guarded` — the types that refuse, and those that never do;
* `frameOk_iff` — **the TLVs that keep to their field**.
-/

import PseFw.Sec.Tlv

set_option relaxedAutoImplicit false
set_option autoImplicit false

namespace PseFw.Sec

open Mem

/-! ### Capacities -/

/-- The size of what the data of a type goes to. -/
def DataType.capacity (t : DataType) : Option ℕ :=
  match t.target with
  | .param f _ | .simple f | .enc f => some f.size
  | .seed _ => some secCseSeedLen
  | .unsupported => none

/-- The types whose data is refused when it is too long. -/
def DataType.guarded (t : DataType) : Bool :=
  match t.target with
  | .param _ _ | .simple _ => false
  | .enc _ => t ≠ .encDevIdTag
  | .seed _ | .unsupported => true

/-- The slot of the seed table that belongs to a type. -/
def DataType.slot (t : DataType) : Option (Fin 4) :=
  match t.target with
  | .seed idx => some idx
  | _ => none

/-- The type of the TLV at an address. -/
def typeAt (rx : ℕ → UInt8) (pos : ℕ) : Option DataType := DataType.ofCode (hdrType rx pos)

/-- The number of bytes of data of the TLV at an address. -/
def dataLenAt (rx : ℕ → UInt8) (pos : ℕ) : ℕ := hdrLength rx pos - hdrSize

/-- **What is expected of a TLV**: it changes only the bytes of its field, of its length and of the
hash, or only its slot of the seed table; and data that is too long is refused and changes
nothing. -/
structure FrameOk (env : Env) (rx : ℕ → UInt8) (pos : ℕ) (s : SecState) : Prop where
  memory : ∀ i, (∀ t ∈ typeAt rx pos, ∀ f ∈ t.touches, f.Misses i) →
    (secHcProcessCmdDataOnce env rx pos s).2.ctx i = s.ctx i
  slots : ∀ idx, (typeAt rx pos).bind DataType.slot ≠ some idx →
    (secHcProcessCmdDataOnce env rx pos s).2.seeds idx = s.seeds idx
  seedNo : (typeAt rx pos).bind DataType.slot = none →
    (secHcProcessCmdDataOnce env rx pos s).2.seedNo = s.seedNo
  rest : { (secHcProcessCmdDataOnce env rx pos s).2 with
    ctx := s.ctx, seeds := s.seeds, seedNo := s.seedNo, allocs := s.allocs } = s
  refused : ∀ t ∈ typeAt rx pos, ∀ n ∈ t.capacity, n < dataLenAt rx pos →
    (secHcProcessCmdDataOnce env rx pos s).1.status = .failed ∧
      (secHcProcessCmdDataOnce env rx pos s).2 = s

/-! ### The types that refuse -/

section types

variable {env : Env} {t : DataType} {src : ℕ → UInt8} {dataLen : ℕ} {s : SecState}

/-- A copy that is checked is one of at most the size of the field. -/
theorem admits_enc {f : Field} (ht : t.target = .enc f) (hg : t.guarded = true) :
    t.admits dataLen = decide (dataLen ≤ f.size) := by
  cases t <;> simp only [DataType.target, reduceCtorEq, Target.enc.injEq] at ht <;> subst ht <;>
    first | rfl | exact absurd hg (by decide)

theorem eq_encDevIdTag {f : Field} (ht : t.target = .enc f) (hg : t.guarded = false) :
    t = .encDevIdTag := by
  unfold DataType.guarded at hg
  rw [ht] at hg
  exact not_not.1 (of_decide_eq_false hg)

/-- **The types that are checked refuse what is too long.** -/
theorem storeTlv_of_guarded (hg : t.guarded = true) {n : ℕ} (hn : n ∈ t.capacity)
    (hlong : n < dataLen) : storeTlv env t src dataLen s = (.refused, s) := by
  rw [storeTlv_eq]
  unfold DataType.capacity at hn
  cases ht : t.target with
  | param f lenField | simple f =>
      unfold DataType.guarded at hg
      rw [ht] at hg
      cases hg
  | enc f =>
      rw [ht] at hn
      cases hn
      have hadm : t.admits dataLen = decide (dataLen ≤ f.size) := admits_enc ht hg
      rw [decide_eq_false (not_le.2 hlong)] at hadm
      dsimp only
      rw [hadm]
      rfl
  | seed idx =>
      rw [ht] at hn
      cases hn
      have hadm : t.admits dataLen = decide (dataLen ≤ secCseSeedLen) := by
        cases t <;> simp only [DataType.target, reduceCtorEq] at ht
        rfl
      rw [decide_eq_false (not_le.2 hlong)] at hadm
      dsimp only
      rw [hadm]
      rfl
  | unsupported => rfl

/-- **The other types never report an error.** -/
theorem status_of_not_guarded (hg : t.guarded = false) :
    (storeTlv env t src dataLen s).1.status = .success := by
  rw [storeTlv_eq]
  cases ht : t.target with
  | param f lenField | simple f =>
      dsimp only
      split
      · rfl
      · rfl
  | enc f =>
      rw [eq_encDevIdTag ht hg]
      rfl
  | seed idx | unsupported =>
      unfold DataType.guarded at hg
      rw [ht] at hg
      cases hg

/-- The data fits, or is checked. -/
def KeepsToField (t : DataType) (dataLen : ℕ) : Prop :=
  t.guarded = false → ∀ n ∈ t.capacity, dataLen ≤ n

/-- What is admitted of such data fits. -/
theorem KeepsToField.fits (hk : KeepsToField t dataLen) (hadm : t.admits dataLen = true) :
    t.Fits dataLen := by
  unfold KeepsToField DataType.capacity at hk
  unfold DataType.Fits
  cases ht : t.target with
  | param f lenField =>
      have hg : t.guarded = false := by
        unfold DataType.guarded
        rw [ht]
      rw [ht] at hk
      exact hk hg f.size rfl
  | enc f =>
      rw [ht] at hk
      cases hg : t.guarded with
      | true =>
          -- the length was compared with the size
          rw [admits_enc ht hg] at hadm
          exact of_decide_eq_true hadm
      | false => exact hk hg f.size rfl
  | simple f | seed idx | unsupported => trivial

/-- Only a seed changes the seed table, and only in its slot. -/
theorem storeTlv_slots {idx : Fin 4} (h : t.slot ≠ some idx) :
    (storeTlv env t src dataLen s).2.seeds idx = s.seeds idx := by
  unfold DataType.slot at h
  cases ht : t.target with
  | seed i =>
      rw [ht] at h
      have hne : idx ≠ i := fun heq => h (congrArg some heq.symm)
      rw [storeTlv_eq, ht]
      dsimp only
      split
      · split
        · exact Function.update_of_ne hne _ _
        · rfl
      · rfl
  | param f lenField | simple f | enc f | unsupported =>
      rw [(storeTlv_seeds (fun i hi => Target.noConfusion (ht.symm.trans hi)) src dataLen s).1]

theorem storeTlv_seedNo (h : t.slot = none) :
    (storeTlv env t src dataLen s).2.seedNo = s.seedNo := by
  refine (storeTlv_seeds (fun i hi => ?_) src dataLen s).2
  unfold DataType.slot at h
  rw [hi] at h
  cases h

/-- Nothing else changes. -/
theorem storeTlv_rest : { (storeTlv env t src dataLen s).2 with
    ctx := s.ctx, seeds := s.seeds, seedNo := s.seedNo, allocs := s.allocs } = s := by
  rw [storeTlv_eq]
  cases t.target with
  | param f lenField | simple f | enc f =>
      dsimp only
      split
      · rfl
      · rfl
  | seed idx =>
      dsimp only
      split
      · split
        · rfl
        · rfl
      · rfl
  | unsupported => rfl

end types

/-! ### One TLV -/

/-- **The TLVs that keep to their field**: those of a type that is checked, and those that are not
longer than the field. -/
theorem frameOk_iff (env : Env) (rx : ℕ → UInt8) (pos : ℕ) (s : SecState) :
    FrameOk env rx pos s ↔ ∀ t ∈ typeAt rx pos, KeepsToField t (dataLenAt rx pos) := by
  constructor
  · intro h t ht hg n hn
    by_contra hlong
    -- the type would have to report an error
    have hst := (h.refused t ht n hn (not_le.1 hlong)).1
    have hlen : ¬ hdrLength rx pos ≤ hdrSize := by
      unfold dataLenAt at hlong
      omega
    have ht' : DataType.ofCode (hdrType rx pos) = some t := ht
    unfold secHcProcessCmdDataOnce at hst
    rw [if_neg hlen, ht'] at hst
    exact absurd hst (by rw [status_of_not_guarded hg]; exact Status.noConfusion)
  · intro h
    -- a TLV that is refused before the switch changes nothing
    have hrefused : ∀ {o : Outcome × SecState}, secHcProcessCmdDataOnce env rx pos s = o →
        o = (.refused, s) → FrameOk env rx pos s := by
      rintro o ho rfl
      exact ⟨by rw [ho]; exact fun _ _ => rfl, by rw [ho]; exact fun _ _ => rfl,
        by rw [ho]; exact fun _ => rfl, by rw [ho],
        by rw [ho]; exact fun _ _ _ _ _ => ⟨rfl, rfl⟩⟩
    by_cases hlen : hdrLength rx pos ≤ hdrSize
    · exact hrefused (if_pos hlen) rfl
    · cases ht : DataType.ofCode (hdrType rx pos) with
      | none =>
          refine hrefused ?_ rfl
          unfold secHcProcessCmdDataOnce
          rw [if_neg hlen, ht]
      | some t =>
          have hty : typeAt rx pos = some t := ht
          have honce : secHcProcessCmdDataOnce env rx pos s = storeTlv env t
              (fun i => rx (pos + hdrSize + i)) (dataLenAt rx pos) s := by
            unfold secHcProcessCmdDataOnce
            rw [if_neg hlen, ht]
            rfl
          have hk : KeepsToField t (dataLenAt rx pos) := h t hty
          refine ⟨fun i hi => ?_, fun idx hidx => ?_, fun hnone => ?_, ?_,
            fun t' ht' n hn hlong => ?_⟩
          · rw [honce]
            exact storeTlv_memory hk.fits (hi t hty)
          · rw [hty] at hidx
            rw [honce]
            exact storeTlv_slots hidx
          · rw [hty] at hnone
            rw [honce]
            exact storeTlv_seedNo hnone
          · rw [honce]
            exact storeTlv_rest
          · rw [hty] at ht'
            cases ht'
            have hg : t.guarded = true := by
              by_contra hg
              exact absurd (hk (Bool.not_eq_true _ ▸ hg) n hn) (not_le.2 hlong)
            rw [honce, storeTlv_of_guarded hg hn hlong]
            exact ⟨rfl, rfl⟩

/-! ### A tag that is too long -/

/-- A tag of the encrypted device id, of seventeen bytes. -/
def longTag : ℕ → UInt8 := fun i =>
  if i = 0 then 0x0B else if i = 1 then 21 else if i < 4 then 0 else 0xFF

/-- The seventeenth byte goes to the encrypted client id, and no error is reported. -/
theorem not_frameOk_longTag :
    typeAt longTag 0 = some .encDevIdTag ∧ dataLenAt longTag 0 = 17 ∧
      (secHcProcessCmdDataOnce plainEnv longTag 0 (freshState plainCrypto)).1.status = .success ∧
      (freshState plainCrypto).ctx Field.encMqttClientId.offset = 0 ∧
      (secHcProcessCmdDataOnce plainEnv longTag 0 (freshState plainCrypto)).2.ctx
        Field.encMqttClientId.offset = 0xFF ∧
      ¬ FrameOk plainEnv longTag 0 (freshState plainCrypto) := by
  have hty : typeAt longTag 0 = some .encDevIdTag := by decide +kernel
  have hst : (secHcProcessCmdDataOnce plainEnv longTag 0 (freshState plainCrypto)).1.status =
      .success := by decide +kernel
  refine ⟨hty, by decide +kernel, hst, by decide +kernel, by decide +kernel, fun h => ?_⟩
  have hfail := (h.refused _ hty 16 rfl (by decide +kernel)).1
  rw [hst] at hfail
  cases hfail

end PseFw.Sec
