/-
**Messages made of TLVs.**

The sender's side of the format: a TLV with its type, its data and the reserved bits nobody looks
at, the bytes of a sequence of TLVs, and how to take such a sequence apart again.  A request that
is made this way leads the parser from one TLV to the next, and a TLV changes only the fields
that belong to its type.

Main definitions:

* `Tlv`, `Tlv.bytes`, `payload`, `request` — a TLV, a sequence of them, and a request;
* `decodeTlvs` — a sequence taken apart;
* `runTlvs` — the parser's way through a sequence;
* `DataType.touches` — the fields a type may change.

Main results:

* `decodeTlvs_payload` — **a sequence is taken apart into what it was made of**;
* `processLoop_payload` — **the parser goes from one TLV to the next**;
* `storeTlv_memory`, `storeTlv_frame` — the bytes and the fields a TLV may change;
* `runTlvs_frame` — the fields that belong to none of the types stay as they are;
* `runTlvs_param`, `runTlvs_enc`, `runTlvs_seed` — what a TLV of the sequence leaves behind,
  wherever it stands.
-/

import PseFw.Sec.Parsing

set_option relaxedAutoImplicit false
set_option autoImplicit false

namespace PseFw.Sec

open Mem

/-! ### Sequences of TLVs -/

/-- A TLV as its sender makes it. -/
structure Tlv where
  type : DataType
  rsvd : ℕ
  data : List UInt8
  deriving DecidableEq, Repr

/-- The length of a TLV, with its header. -/
def Tlv.size (t : Tlv) : ℕ := hdrSize + t.data.length

/-- The bytes of a TLV. -/
def Tlv.bytes (t : Tlv) : List UInt8 :=
  leBytes 4 (tlvWord t.type.code t.size t.rsvd) ++ t.data

/-- What a TLV says: its type and its data. -/
def Tlv.content (t : Tlv) : DataType × List UInt8 := (t.type, t.data)

/-- The bytes of a sequence of TLVs. -/
def payload (ts : List Tlv) : List UInt8 := ts.flatMap Tlv.bytes

/-- The bytes of a request that is complete. -/
def request (h : CmdHdr) (command : ℕ) (ts : List Tlv) : List UInt8 :=
  leBytes 4 { h with
    msgComp := 1
    length := hdrSize + (payload ts).length
    command := command : CmdHdr }.toWord ++ payload ts

@[simp] theorem Tlv.length_bytes (t : Tlv) : t.bytes.length = t.size := by
  rw [Tlv.bytes, List.length_append, length_leBytes]
  rfl

theorem payload_nil : payload [] = [] := rfl

theorem payload_cons (t : Tlv) (ts : List Tlv) : payload (t :: ts) = t.bytes ++ payload ts := rfl

theorem length_payload_cons (t : Tlv) (ts : List Tlv) :
    (payload (t :: ts)).length = t.size + (payload ts).length := by
  rw [payload_cons, List.length_append, Tlv.length_bytes]

theorem payload_append (ts ts' : List Tlv) : payload (ts ++ ts') = payload ts ++ payload ts' :=
  List.flatMap_append

theorem Tlv.size_pos (t : Tlv) : 0 < t.size := Nat.lt_of_lt_of_le (by decide) (Nat.le_add_right _ _)

theorem size_le_payload {t : Tlv} {ts : List Tlv} (h : t ∈ ts) : t.size ≤ (payload ts).length := by
  obtain ⟨pre, post, rfl⟩ := List.append_of_mem h
  rw [payload_append, List.length_append, length_payload_cons]
  omega

theorem length_le_payload (ts : List Tlv) : ts.length ≤ (payload ts).length := by
  induction ts with
  | nil => exact Nat.zero_le _
  | cons t ts ih =>
      have := t.size_pos
      rw [length_payload_cons, List.length_cons]
      omega

/-! ### Words -/

theorem tlvWord_lt (type length rsvd : ℕ) : tlvWord type length rsvd < 256 ^ 4 := by
  unfold tlvWord
  norm_num
  omega

theorem tlvWord_type (type length rsvd : ℕ) : tlvWord type length rsvd % 2 ^ 8 = type % 2 ^ 8 := by
  unfold tlvWord
  norm_num
  omega

theorem tlvWord_length (type length rsvd : ℕ) :
    tlvWord type length rsvd / 2 ^ 8 % 2 ^ 12 = length % 2 ^ 12 := by
  unfold tlvWord
  norm_num
  omega

theorem CmdHdr.toWord_lt (h : CmdHdr) : h.toWord < 256 ^ 4 := by
  unfold CmdHdr.toWord
  norm_num
  omega

/-- The bit fields of a word that was put together. -/
theorem CmdHdr.ofWord_toWord (h : CmdHdr) : CmdHdr.ofWord h.toWord =
    ⟨h.msgComp % 2, h.rsvd % 2 ^ 2, h.status % 2, h.protocolVer % 2 ^ 4, h.source % 2 ^ 4,
      h.length % 2 ^ 12, h.command % 2 ^ 8⟩ := by
  unfold CmdHdr.ofWord CmdHdr.toWord
  norm_num
  omega

theorem hdrType_of_read {rx : ℕ → UInt8} {pos : ℕ} {t : Tlv}
    (h : read rx pos hdrSize = leBytes 4 (tlvWord t.type.code t.size t.rsvd)) :
    hdrType rx pos = t.type.code := by
  unfold hdrType
  rw [h, ofLe_leBytes (tlvWord_lt _ _ _), tlvWord_type, Nat.mod_eq_of_lt t.type.code_lt]

theorem hdrLength_of_read {rx : ℕ → UInt8} {pos : ℕ} {t : Tlv}
    (h : read rx pos hdrSize = leBytes 4 (tlvWord t.type.code t.size t.rsvd))
    (ht : t.size < 2 ^ 12) : hdrLength rx pos = t.size := by
  unfold hdrLength
  rw [h, ofLe_leBytes (tlvWord_lt _ _ _), tlvWord_length, Nat.mod_eq_of_lt ht]

/-! ### Taking a sequence apart -/

/-- Take a sequence of TLVs apart; there must be nothing left over.  Every TLV is at least a
header long, so the number of bytes is enough fuel. -/
def decodeTlvs : ℕ → List UInt8 → Option (List Tlv)
  | _, [] => some []
  | 0, _ :: _ => none
  | fuel + 1, b :: l =>
      let w := ofLe ((b :: l).take hdrSize)
      let size := w / 2 ^ 8 % 2 ^ 12
      match DataType.ofCode (w % 2 ^ 8) with
      | none => none
      | some t =>
          if size < hdrSize ∨ (b :: l).length < size then none
          else (decodeTlvs fuel ((b :: l).drop size)).map
            (⟨t, w / 2 ^ 20, ((b :: l).take size).drop hdrSize⟩ :: ·)

/-- The reserved bits as they are sent. -/
def Tlv.sent (t : Tlv) : Tlv := { t with rsvd := t.rsvd % 2 ^ 12 }

theorem tlvWord_rsvd (type length rsvd : ℕ) :
    tlvWord type length rsvd / 2 ^ 20 = rsvd % 2 ^ 12 := by
  unfold tlvWord
  norm_num
  omega

/-- **A sequence is taken apart into what it was made of.** -/
theorem decodeTlvs_payload {ts : List Tlv} (hsz : ∀ t ∈ ts, t.size < 2 ^ 12) {fuel : ℕ}
    (hf : ts.length ≤ fuel) : decodeTlvs fuel (payload ts) = some (ts.map Tlv.sent) := by
  induction ts generalizing fuel with
  | nil =>
      cases fuel with
      | zero => rfl
      | succ fuel => rfl
  | cons t ts ih =>
      obtain ⟨fuel, rfl⟩ : ∃ k, fuel = k + 1 :=
        Nat.exists_eq_add_one_of_ne_zero (Nat.ne_zero_of_lt hf)
      have hl := length_payload_cons t ts
      have h4 : (leBytes 4 (tlvWord t.type.code t.size t.rsvd)).length = hdrSize :=
        length_leBytes _ _
      have hw : ofLe ((payload (t :: ts)).take hdrSize) = tlvWord t.type.code t.size t.rsvd := by
        rw [payload_cons, Tlv.bytes, List.append_assoc, List.take_left' h4,
          ofLe_leBytes (tlvWord_lt _ _ _)]
      have htake : (payload (t :: ts)).take t.size = t.bytes :=
        List.take_left' t.length_bytes
      have hdrop : (payload (t :: ts)).drop t.size = payload ts :=
        List.drop_left' t.length_bytes
      have hdata : t.bytes.drop hdrSize = t.data := List.drop_left' h4
      have hlt := hsz t (List.mem_cons_self ..)
      cases hp : payload (t :: ts) with
      | nil =>
          have := t.size_pos
          rw [hp, List.length_nil] at hl
          omega
      | cons b l =>
          rw [hp] at hw htake hdrop hl
          unfold decodeTlvs
          simp only [hw, tlvWord_type, tlvWord_length, tlvWord_rsvd]
          rw [Nat.mod_eq_of_lt t.type.code_lt, Nat.mod_eq_of_lt hlt, DataType.ofCode_code]
          simp only
          rw [if_neg (by rw [hl]; unfold Tlv.size; omega), htake, hdrop, hdata,
            ih (fun u hu => hsz u (List.mem_cons_of_mem _ hu)) (by simpa using hf)]
          rfl

/-! ### The parser's way through a sequence -/

variable (env : Env)

/-- What the parser does with the TLV at an address. -/
def stepTlv (rx : ℕ → UInt8) (pos : ℕ) (t : Tlv) (s : SecState) : SecState :=
  if t.data = [] then s
  else (storeTlv env t.type (fun i => rx (pos + hdrSize + i)) t.data.length s).2

/-- What the parser does with a sequence of TLVs. -/
def runTlvs (rx : ℕ → UInt8) : ℕ → SecState → List Tlv → SecState
  | _, s, [] => s
  | pos, s, t :: ts => runTlvs rx (pos + t.size) (stepTlv env rx pos t s) ts

variable {env}

theorem once_of_read {rx : ℕ → UInt8} {pos : ℕ} {t : Tlv}
    (h : read rx pos hdrSize = leBytes 4 (tlvWord t.type.code t.size t.rsvd))
    (ht : t.size < 2 ^ 12) (s : SecState) :
    (secHcProcessCmdDataOnce env rx pos s).2 = stepTlv env rx pos t s := by
  unfold secHcProcessCmdDataOnce stepTlv
  rw [hdrType_of_read h, hdrLength_of_read h ht, DataType.ofCode_code]
  have hsize : t.size - hdrSize = t.data.length := Nat.add_sub_cancel_left _ _
  by_cases hd : t.data = []
  · rw [if_pos hd, if_pos (by rw [Tlv.size, hd]; exact le_rfl)]
  · have hpos := List.length_pos_of_ne_nil hd
    rw [if_neg hd, if_neg (by unfold Tlv.size; omega), hsize]

/-- **The parser goes from one TLV to the next.** -/
theorem processLoop_payload {rx : ℕ → UInt8} {ts : List Tlv} (hsz : ∀ t ∈ ts, t.size < 2 ^ 12)
    {pos fuel : ℕ} (h : read rx pos (payload ts).length = payload ts)
    (hf : (payload ts).length ≤ fuel) (st : Status) (s : SecState) :
    ∃ vs st', processLoop env rx fuel pos (payload ts).length st s =
      some (vs, st', runTlvs env rx pos s ts) := by
  induction ts generalizing pos fuel st s with
  | nil =>
      refine ⟨[], st, ?_⟩
      cases fuel <;> rfl
  | cons t ts ih =>
      rw [payload_cons] at h
      obtain ⟨hbytes, hrest⟩ := read_append h
      rw [Tlv.length_bytes] at hrest
      have hhdr : read rx pos hdrSize = leBytes 4 (tlvWord t.type.code t.size t.rsvd) := by
        have := (read_append (show read rx pos (_ ++ t.data).length = _ ++ t.data from hbytes)).1
        rwa [length_leBytes] at this
      have ht := hsz t (List.mem_cons_self ..)
      have hpos := t.size_pos
      rw [length_payload_cons] at hf ⊢
      obtain ⟨fuel, rfl⟩ : ∃ k, fuel = k + 1 := Nat.exists_eq_add_one_of_ne_zero (by omega)
      obtain ⟨len, hlen⟩ : ∃ k, t.size + (payload ts).length = k + 1 :=
        Nat.exists_eq_add_one_of_ne_zero (by omega)
      obtain ⟨vs, st', hrun⟩ := ih (fun u hu => hsz u (List.mem_cons_of_mem _ hu)) hrest
        (show (payload ts).length ≤ fuel by omega) (secHcProcessCmdDataOnce env rx pos s).1.status
        (stepTlv env rx pos t s)
      rw [hlen, processLoop_succ, hdrLength_of_read hhdr ht, if_neg (by omega), ← hlen,
        Nat.add_sub_cancel_left, once_of_read hhdr ht, hrun]
      exact ⟨_, st', rfl⟩

/-! ### What a type may change -/

/-- The fields a type may change. -/
def DataType.touches (t : DataType) : List Field :=
  match t.target with
  | .param f lenField => [f, lenField, .hash]
  | .simple f => [f, .hash]
  | .enc f => [f]
  | _ => []

/-- The data is not longer than the field it goes to. -/
def DataType.Fits (t : DataType) (dataLen : ℕ) : Prop :=
  match t.target with
  | .param f _ => dataLen ≤ f.size
  | .enc f => dataLen ≤ f.size
  | _ => True

/-- The type a field belongs to; the hash belongs to none. -/
def Field.owner : Field → Option DataType
  | .rootCa | .rootCaLen => some .rootca
  | .ownPubKey | .ownPubKeyLen => some .ownPubKey
  | .hkdf32bPseSalt | .hkdf32bPseSaltLen => some .hkdf32bPseSalt
  | .devId | .devIdLen => some .dencDevId
  | .tokId | .tokIdLen => some .dencTokId
  | .mqttClientId | .mqttClientIdLen => some .dencMqttClientId
  | .cloudHash | .cloudHashLen => some .dencCloudHashId
  | .cldHostUrl | .cldHostUrlLen => some .cldUrl
  | .pxyHostUrl | .pxyHostUrlLen => some .pxyUrl
  | .cldAdapter | .cldAdapterLen => some .cldAdapter
  | .cldHostPort => some .cldPort
  | .pxyHostPort => some .pxyPort
  | .provState => some .provState
  | .encTokId => some .encTokId
  | .encTokIdTag => some .encTokIdTag
  | .encTokIdIv => some .encTokIdIv
  | .encDevId => some .encDevId
  | .encDevIdTag => some .encDevIdTag
  | .encDevIdIv => some .encDevIdIv
  | .encMqttClientId => some .encMqttClientId
  | .encMqttClientIdTag => some .encMqttClientIdTag
  | .encMqttClientIdIv => some .encMqttClientIdIv
  | .encCloudHashId => some .encCloudHashId
  | .encCloudHashIdTag => some .encCloudHashIdTag
  | .encCloudHashIdIv => some .encCloudHashIdIv
  | _ => none

/-- A field that a type may change belongs to the type, or is the hash. -/
theorem owner_of_mem_touches {t : DataType} {f : Field} (h : f ∈ t.touches) :
    f = .hash ∨ f.owner = some t := by
  cases t <;>
    simp only [DataType.touches, DataType.target, List.mem_cons, List.not_mem_nil,
      or_false] at h <;>
    rcases h with rfl | rfl | rfl <;> first | exact Or.inr rfl | exact Or.inl rfl

theorem not_mem_touches {t : DataType} {f : Field} (hf : f ≠ .hash) (h : f.owner ≠ some t) :
    f ∉ t.touches :=
  fun hm => (owner_of_mem_touches hm).elim hf h

/-- The fields of lengths and the ports are words. -/
theorem size_of_target {t : DataType} :
    (∀ f lenField, t.target = .param f lenField → lenField.size = 4 ∧ f ≠ lenField) ∧
      ∀ f, t.target = .simple f → f.size = 4 := by
  constructor
  · intro f lenField h
    cases t <;> simp only [DataType.target, reduceCtorEq, Target.param.injEq] at h <;>
      obtain ⟨rfl, rfl⟩ := h <;> decide
  · intro f h
    cases t <;> simp only [DataType.target, reduceCtorEq, Target.simple.injEq] at h <;>
      subst h <;> rfl

/-- **The bytes a TLV does not change**, if what is admitted fits. -/
theorem storeTlv_memory {t : DataType} {src : ℕ → UInt8} {dataLen : ℕ} {s : SecState} {i : ℕ}
    (hfit : t.admits dataLen = true → t.Fits dataLen) (hi : ∀ f ∈ t.touches, f.Misses i) :
    (storeTlv env t src dataLen s).2.ctx i = s.ctx i := by
  rw [storeTlv_eq]
  unfold DataType.Fits at hfit
  unfold DataType.touches at hi
  cases ht : t.target with
  | param f lenField =>
      simp only [ht, List.forall_mem_cons] at hfit hi ⊢
      split
      · next h =>
          -- the data, then its length, then the hash
          have hdata : (read src 0 dataLen).length ≤ f.size := by
            rw [length_read]
            exact hfit h.1
          have hlen : (leBytes 4 (read src 0 dataLen).length).length ≤ lenField.size := by
            rw [length_leBytes, (size_of_target.1 f lenField ht).1]
          show secIntUpdateContextHash env.crypto _ i = _
          rw [update_misses hi.2.2.1, secIntSetContextParam, putWord, put_misses hlen hi.2.1,
            put_misses hdata hi.1]
      · rfl
  | simple f =>
      simp only [ht, List.forall_mem_cons] at hi ⊢
      split
      · have hdata : (read src 0 4).length ≤ f.size := by rw [length_read, size_of_target.2 f ht]
        show secIntUpdateContextHash env.crypto _ i = _
        rw [update_misses hi.2.1, put_misses hdata hi.1]
      · rfl
  | enc f =>
      simp only [ht, List.forall_mem_cons] at hfit hi ⊢
      split
      · next h => exact put_misses (by rw [length_read]; exact hfit h) hi.1
      · rfl
  | seed idx =>
      simp only
      split
      · split <;> rfl
      · rfl
  | unsupported => rfl

/-- **A TLV that fits changes only the fields of its type.** -/
theorem storeTlv_frame {t : DataType} {src : ℕ → UInt8} {dataLen : ℕ} {s : SecState} {g : Field}
    (hfit : t.Fits dataLen) (hg : g ∉ t.touches) :
    get (storeTlv env t src dataLen s).2.ctx g = get s.ctx g := by
  refine read_congr fun i hlo hhi => storeTlv_memory (fun _ => hfit) fun f hf => ?_
  have hne : g ≠ f := by
    rintro rfl
    exact hg hf
  exact Field.misses_of_ne hne hlo hhi

/-- What a sequence leaves alone besides the fields: the response and the flags. -/
structure SameRest (s s' : SecState) : Prop where
  tx : s'.tx = s.tx
  composeNext : s'.composeNext = s.composeNext
  accumComposeLen : s'.accumComposeLen = s.accumComposeLen
  sent : s'.sent = s.sent

theorem SameRest.refl (s : SecState) : SameRest s s := ⟨rfl, rfl, rfl, rfl⟩

theorem SameRest.trans {s s' s'' : SecState} (h : SameRest s s') (h' : SameRest s' s'') :
    SameRest s s'' :=
  ⟨h'.tx.trans h.tx, h'.composeNext.trans h.composeNext,
    h'.accumComposeLen.trans h.accumComposeLen, h'.sent.trans h.sent⟩

theorem storeTlv_sameRest (t : DataType) (src : ℕ → UInt8) (dataLen : ℕ) (s : SecState) :
    SameRest s (storeTlv env t src dataLen s).2 := by
  rw [storeTlv_eq]
  cases t.target with
  | param f lenField | simple f | enc f =>
      simp only
      split <;> exact ⟨rfl, rfl, rfl, rfl⟩
  | seed idx =>
      simp only
      split
      · split <;> exact ⟨rfl, rfl, rfl, rfl⟩
      · exact ⟨rfl, rfl, rfl, rfl⟩
  | unsupported => exact ⟨rfl, rfl, rfl, rfl⟩

/-- Only a seed changes the seed table. -/
theorem storeTlv_seeds {t : DataType} (h : ∀ idx, t.target ≠ .seed idx) (src : ℕ → UInt8)
    (dataLen : ℕ) (s : SecState) :
    (storeTlv env t src dataLen s).2.seeds = s.seeds ∧
      (storeTlv env t src dataLen s).2.seedNo = s.seedNo := by
  rw [storeTlv_eq]
  cases ht : t.target with
  | param f lenField | simple f | enc f =>
      simp only
      split <;> exact ⟨rfl, rfl⟩
  | seed idx => exact absurd ht (h idx)
  | unsupported => exact ⟨rfl, rfl⟩

/-! ### What a sequence leaves behind -/

theorem runTlvs_append (rx : ℕ → UInt8) (pos : ℕ) (s : SecState) (ts ts' : List Tlv) :
    runTlvs env rx pos s (ts ++ ts') =
      runTlvs env rx (pos + (payload ts).length) (runTlvs env rx pos s ts) ts' := by
  induction ts generalizing pos s with
  | nil => rfl
  | cons t ts ih =>
      rw [List.cons_append, runTlvs, ih, length_payload_cons, Nat.add_assoc]
      rfl

theorem runTlvs_sameRest (rx : ℕ → UInt8) (pos : ℕ) (s : SecState) (ts : List Tlv) :
    SameRest s (runTlvs env rx pos s ts) := by
  induction ts generalizing pos s with
  | nil => exact SameRest.refl s
  | cons t ts ih =>
      refine SameRest.trans ?_ (ih _ _)
      unfold stepTlv
      split
      · exact SameRest.refl s
      · exact storeTlv_sameRest _ _ _ s

theorem runTlvs_verified {rx : ℕ → UInt8} {pos : ℕ} {s : SecState} {ts : List Tlv} :
    Verified env.crypto (runTlvs env rx pos s ts).ctx ↔ Verified env.crypto s.ctx := by
  induction ts generalizing pos s with
  | nil => rfl
  | cons t ts ih =>
      refine ih.trans ?_
      unfold stepTlv
      split
      · rfl
      · exact verified_storeTlv

/-- The fields that belong to none of the types stay as they are. -/
theorem runTlvs_frame {rx : ℕ → UInt8} {pos : ℕ} {s : SecState} {ts : List Tlv} {g : Field}
    (hfit : ∀ t ∈ ts, t.type.Fits t.data.length) (hg : ∀ t ∈ ts, g ∉ t.type.touches) :
    get (runTlvs env rx pos s ts).ctx g = get s.ctx g := by
  induction ts generalizing pos s with
  | nil => rfl
  | cons t ts ih =>
      refine (ih (fun u hu => hfit u (List.mem_cons_of_mem _ hu))
        fun u hu => hg u (List.mem_cons_of_mem _ hu)).trans ?_
      unfold stepTlv
      split
      · rfl
      · exact storeTlv_frame (hfit t (List.mem_cons_self ..)) (hg t (List.mem_cons_self ..))

/-- A seed that is not stored leaves the seed table alone: there is no data, it is too long, or
the slot is taken. -/
theorem stepTlv_seeds {rx : ℕ → UInt8} {pos : ℕ} {s : SecState} {t : Tlv}
    (h : ∀ idx, t.type.target = .seed idx →
      t.data = [] ∨ t.type.admits t.data.length = false ∨ s.seeds idx ≠ none) :
    (stepTlv env rx pos t s).seeds = s.seeds ∧ (stepTlv env rx pos t s).seedNo = s.seedNo := by
  unfold stepTlv
  split
  · exact ⟨rfl, rfl⟩
  · rename_i hd
    by_cases hseed : ∃ i, t.type.target = .seed i
    · obtain ⟨i, hi⟩ := hseed
      rw [storeTlv_eq]
      simp only [hi]
      rw [if_neg fun hc => ?_]
      · exact ⟨rfl, rfl⟩
      · rcases h i hi with h | h | h
        · exact hd h
        · rw [h] at hc
          cases hc.1
        · exact h hc.2
    · exact storeTlv_seeds (fun i hi => hseed ⟨i, hi⟩) _ _ s

/-- A sequence that stores no seed leaves the seed table alone. -/
theorem runTlvs_seeds {rx : ℕ → UInt8} {pos : ℕ} {s : SecState} {ts : List Tlv}
    (h : ∀ t ∈ ts, ∀ idx, t.type.target = .seed idx →
      t.data = [] ∨ t.type.admits t.data.length = false ∨ s.seeds idx ≠ none) :
    (runTlvs env rx pos s ts).seeds = s.seeds ∧ (runTlvs env rx pos s ts).seedNo = s.seedNo := by
  induction ts generalizing pos s with
  | nil => exact ⟨rfl, rfl⟩
  | cons t ts ih =>
      have hstep : (stepTlv env rx pos t s).seeds = s.seeds ∧
          (stepTlv env rx pos t s).seedNo = s.seedNo := stepTlv_seeds (h t (List.mem_cons_self ..))
      obtain ⟨h1, h2⟩ := @ih (pos + t.size) (stepTlv env rx pos t s) fun u hu i hi => by
        rw [hstep.1]
        exact h u (List.mem_cons_of_mem _ hu) i hi
      exact ⟨h1.trans hstep.1, h2.trans hstep.2⟩

/-- The place of a TLV in a sequence without repetitions: what is in front of it, what is behind
it, and where its data stands. -/
theorem exists_place {rx : ℕ → UInt8} {pos : ℕ} {ts : List Tlv} {t : Tlv} (hmem : t ∈ ts)
    (hnd : (ts.map Tlv.type).Nodup) (h : read rx pos (payload ts).length = payload ts) :
    ∃ pre post, ts = pre ++ t :: post ∧ (∀ u ∈ pre, u.type ≠ t.type) ∧
      (∀ u ∈ post, u.type ≠ t.type) ∧
      read rx (pos + (payload pre).length + hdrSize) t.data.length = t.data := by
  obtain ⟨pre, post, rfl⟩ := List.append_of_mem hmem
  rw [List.map_append, List.map_cons, List.nodup_append] at hnd
  obtain ⟨-, hpost, hdisj⟩ := hnd
  refine ⟨pre, post, rfl, fun u hu => ?_, fun u hu he => ?_, ?_⟩
  · exact hdisj _ (List.mem_map_of_mem hu) _ (List.mem_cons_self ..)
  · exact (List.nodup_cons.1 hpost).1 (he ▸ List.mem_map_of_mem hu)
  · rw [payload_append, payload_cons] at h
    obtain ⟨hb, -⟩ := read_append (read_append h).2
    have hd := (read_append (show read rx _ (_ ++ t.data).length = _ ++ t.data from hb)).2
    rwa [length_leBytes] at hd

/-- The fields of a type belong to it. -/
theorem owner_of_target {t : DataType} :
    (∀ f lenField, t.target = .param f lenField → f.owner = some t ∧ lenField.owner = some t) ∧
      ∀ f, t.target = .enc f → f.owner = some t := by
  constructor
  · intro f lenField h
    cases t <;> simp only [DataType.target, reduceCtorEq, Target.param.injEq] at h <;>
      obtain ⟨rfl, rfl⟩ := h <;> exact ⟨rfl, rfl⟩
  · intro f h
    cases t <;> simp only [DataType.target, reduceCtorEq, Target.enc.injEq] at h <;>
      subst h <;> rfl

theorem ne_hash_of_owner {t : DataType} {f : Field} (h : f.owner = some t) : f ≠ .hash := by
  rintro rfl
  cases h

theorem not_touches_of_owner {t u : DataType} {f : Field} (h : f.owner = some t) (hne : u ≠ t) :
    f ∉ u.touches :=
  not_mem_touches (ne_hash_of_owner h) fun hu => hne (Option.some.inj (hu.symm.trans h))

/-- A field of one TLV of a sequence is changed by that TLV alone. -/
theorem get_runTlvs_place (env : Env) (rx : ℕ → UInt8) (pos : ℕ) (s : SecState)
    {pre post : List Tlv} {t : Tlv} {f : Field}
    (hfit : ∀ u ∈ pre ++ t :: post, u.type.Fits u.data.length)
    (hpre : ∀ u ∈ pre, u.type ≠ t.type) (hpost : ∀ u ∈ post, u.type ≠ t.type)
    (hf : f.owner = some t.type) :
    get (runTlvs env rx pos s (pre ++ t :: post)).ctx f =
      get (stepTlv env rx (pos + (payload pre).length) t (runTlvs env rx pos s pre)).ctx f ∧
    get (runTlvs env rx pos s pre).ctx f = get s.ctx f := by
  constructor
  · rw [runTlvs_append]
    exact runTlvs_frame
      (fun u hu => hfit u (List.mem_append_right _ (List.mem_cons_of_mem _ hu)))
      fun u hu => not_touches_of_owner hf (hpost u hu)
  · exact runTlvs_frame (fun u hu => hfit u (List.mem_append_left _ hu))
      fun u hu => not_touches_of_owner hf (hpre u hu)

/-- The data a TLV step sees is the data of the TLV. -/
theorem read_src {rx : ℕ → UInt8} {p n : ℕ} {l : List UInt8} (h : read rx p n = l) :
    read (fun i => rx (p + i)) 0 n = l := by
  rw [← h]
  refine List.map_congr_left fun i _ => ?_
  show rx (p + (0 + i)) = rx (p + i)
  rw [Nat.zero_add]

/-- What a setter leaves behind: the data over what was there, and its length. -/
theorem stepTlv_param {rx : ℕ → UInt8} {pos : ℕ} {s : SecState} {t : Tlv} {f lenField : Field}
    (ht : t.type.target = .param f lenField) (hfit : t.data.length ≤ f.size)
    (hadm : t.data ≠ [] → t.type.admits t.data.length = true) (hv : Verified env.crypto s.ctx)
    (hdata : read rx (pos + hdrSize) t.data.length = t.data) :
    get (stepTlv env rx pos t s).ctx f = t.data ++ (get s.ctx f).drop t.data.length ∧
      (t.data ≠ [] → get (stepTlv env rx pos t s).ctx lenField = leBytes 4 t.data.length) := by
  obtain ⟨hof, hol⟩ := owner_of_target.1 f lenField ht
  obtain ⟨hsize, hne⟩ := size_of_target.1 f lenField ht
  unfold stepTlv
  by_cases hd : t.data = []
  · rw [if_pos hd, hd]
    exact ⟨rfl, fun h => absurd rfl h⟩
  · rw [if_neg hd, storeTlv_eq]
    simp only [ht]
    rw [if_pos ⟨hadm hd, hv⟩, read_src hdata]
    refine ⟨?_, fun _ => ?_⟩
    · rw [get_update_ne (ne_hash_of_owner hof), secIntSetContextParam, get_putWord_ne hsize hne,
        get_put_le hfit]
    · rw [get_update_ne (ne_hash_of_owner hol), secIntSetContextParam, get_putWord_self hsize]

/-- **What a TLV for a setter leaves behind**, wherever it stands in the sequence. -/
theorem runTlvs_param {rx : ℕ → UInt8} {pos : ℕ} {s : SecState} {ts : List Tlv} {t : Tlv}
    {f lenField : Field} (hmem : t ∈ ts) (hnd : (ts.map Tlv.type).Nodup)
    (hfit : ∀ u ∈ ts, u.type.Fits u.data.length)
    (h : read rx pos (payload ts).length = payload ts) (ht : t.type.target = .param f lenField)
    (hadm : t.data ≠ [] → t.type.admits t.data.length = true) (hv : Verified env.crypto s.ctx) :
    get (runTlvs env rx pos s ts).ctx f = t.data ++ (get s.ctx f).drop t.data.length ∧
      (t.data ≠ [] → get (runTlvs env rx pos s ts).ctx lenField = leBytes 4 t.data.length) := by
  obtain ⟨pre, post, rfl, hpre, hpost, hdata⟩ := exists_place hmem hnd h
  obtain ⟨hof, hol⟩ := owner_of_target.1 f lenField ht
  have hfitt : t.data.length ≤ f.size := by
    have := hfit t hmem
    unfold DataType.Fits at this
    rwa [ht] at this
  obtain ⟨hf1, hf2⟩ := get_runTlvs_place env rx pos s hfit hpre hpost hof
  obtain ⟨hl1, -⟩ := get_runTlvs_place env rx pos s hfit hpre hpost hol
  obtain ⟨hs1, hs2⟩ := stepTlv_param (s := runTlvs env rx pos s pre) ht hfitt hadm
    (runTlvs_verified.2 hv) hdata
  rw [hf1, hl1, ← hf2]
  exact ⟨hs1, hs2⟩

/-- **What an encrypted value leaves behind**, wherever it stands in the sequence. -/
theorem runTlvs_enc {rx : ℕ → UInt8} {pos : ℕ} {s : SecState} {ts : List Tlv} {t : Tlv}
    {f : Field} (hmem : t ∈ ts) (hnd : (ts.map Tlv.type).Nodup)
    (hfit : ∀ u ∈ ts, u.type.Fits u.data.length)
    (h : read rx pos (payload ts).length = payload ts) (ht : t.type.target = .enc f)
    (hadm : t.type.admits t.data.length = true) (hlen : t.data.length = f.size)
    (hd : t.data ≠ []) : get (runTlvs env rx pos s ts).ctx f = t.data := by
  obtain ⟨pre, post, rfl, hpre, hpost, hdata⟩ := exists_place hmem hnd h
  have hof := owner_of_target.2 f ht
  rw [(get_runTlvs_place env rx pos s hfit hpre hpost hof).1]
  unfold stepTlv
  rw [if_neg hd, storeTlv_eq]
  simp only [ht]
  rw [if_pos hadm, read_src hdata]
  exact get_put_self hlen

/-- **What a seed leaves behind**: the bytes that stand behind its header, at the place it has in
the sequence. -/
theorem runTlvs_seed (rx : ℕ → UInt8) (pos : ℕ) {s : SecState} {pre post : List Tlv} {t : Tlv}
    {idx : Fin 4} (ht : t.type.target = .seed idx)
    (hpre : ∀ u ∈ pre, ∀ i, u.type.target ≠ .seed i)
    (hpost : ∀ u ∈ post, ∀ i, u.type.target ≠ .seed i) (hd : t.data ≠ [])
    (hadm : t.type.admits t.data.length = true) (hk : ∀ i, env.kHeapAlloc i = true)
    (hfree : s.seeds idx = none) :
    (runTlvs env rx pos s (pre ++ t :: post)).seeds idx =
        some (Seed.read fun i => rx (pos + (payload pre).length + hdrSize + i)) ∧
      (runTlvs env rx pos s (pre ++ t :: post)).seedNo = s.seedNo + 1 := by
  obtain ⟨h1, h2⟩ : (runTlvs env rx pos s pre).seeds = s.seeds ∧
      (runTlvs env rx pos s pre).seedNo = s.seedNo :=
    runTlvs_seeds fun u hu i hi => absurd hi (hpre u hu i)
  rw [runTlvs_append, runTlvs]
  have hend := fun p s' => @runTlvs_seeds env rx p s' post
    fun u hu i hi => absurd hi (hpost u hu i)
  rw [(hend _ _).1, (hend _ _).2]
  unfold stepTlv
  rw [if_neg hd, storeTlv_eq]
  simp only [ht]
  rw [if_pos ⟨hadm, by rw [h1]; exact hfree⟩, if_pos (hk _)]
  simp only [Function.update_self, h2]
  exact ⟨trivial, trivial⟩

/-! ### A request made of TLVs -/

/-- What stands in the receive buffer after a request: its header, and its TLVs behind it. -/
theorem rxBuffer_request (h : CmdHdr) (command : ℕ) {ts : List Tlv} (hc : command < 2 ^ 8)
    (hsz : hdrSize + (payload ts).length < 2 ^ 12) (old : ℕ → UInt8) :
    (cmdHdr (rxBuffer (request h command ts) old)).msgComp = 1 ∧
      (cmdHdr (rxBuffer (request h command ts) old)).length = hdrSize + (payload ts).length ∧
      (cmdHdr (rxBuffer (request h command ts) old)).command = command ∧
      read (rxBuffer (request h command ts) old) hdrSize (payload ts).length = payload ts := by
  obtain ⟨h1, h2⟩ := read_append (read_write_self old 0 (request h command ts))
  rw [length_leBytes] at h1 h2
  rw [Nat.zero_add] at h2
  have hhdr : cmdHdr (rxBuffer (request h command ts) old) = CmdHdr.ofWord _ :=
    congrArg (fun l => CmdHdr.ofWord (ofLe l)) h1
  rw [ofLe_leBytes (CmdHdr.toWord_lt _), CmdHdr.ofWord_toWord] at hhdr
  rw [hhdr]
  exact ⟨rfl, Nat.mod_eq_of_lt hsz, Nat.mod_eq_of_lt hc, h2⟩

/-- A request is about to be handled: there is a new response, and nothing else has changed. -/
structure Started (s s' : SecState) : Prop where
  ctx : s'.ctx = s.ctx
  seeds : s'.seeds = s.seeds
  seedNo : s'.seedNo = s.seedNo
  seedUpdated : s'.seedUpdated = s.seedUpdated
  sent : s'.sent = s.sent
  accumComposeLen : s'.accumComposeLen = hdrSize

/-- **A request that is made of TLVs**: they are stored one after the other, then the command
does its work. -/
theorem processCmd_request (env : Env) (h : CmdHdr) (command : ℕ) {cmd : Command} {ts : List Tlv}
    (hm : env.kMalloc = true) (hc : command < 2 ^ 8) (hcmd : Command.ofCode command = some cmd)
    (hdata : cmd.hasData = true) (hne : ts ≠ [])
    (hsz : hdrSize + (payload ts).length < 2 ^ 12) (old : ℕ → UInt8) (s : SecState) :
    ∃ s₀, Started s s₀ ∧ secHcProcessCmd env (rxBuffer (request h command ts) old) s =
      afterData env cmd 1
        (runTlvs env (rxBuffer (request h command ts) old) hdrSize s₀ ts) := by
  obtain ⟨hmc, hlen, hcode, hread⟩ := rxBuffer_request h command hc hsz old
  obtain ⟨cmd', hcmd', hrun⟩ := processCmd_of_carriesData hm
    (show CarriesData (rxBuffer (request h command ts) old) by
      unfold CarriesData
      rw [hcode, hcmd]
      exact hdata) s
  rw [hcode, hcmd] at hcmd'
  cases hcmd'
  have hpos : 0 < (payload ts).length := by
    obtain ⟨t, ts', rfl⟩ := List.exists_cons_of_ne_nil hne
    have := t.size_pos
    rw [length_payload_cons]
    omega
  obtain ⟨vs, st, hloop⟩ := @processLoop_payload env _ ts
    (fun t ht => lt_of_le_of_lt (size_le_payload ht) (by omega)) _ _ hread le_rfl .success
    (secHcRespDataInt (secHcTxhdrConfig (cmdHdr (rxBuffer (request h command ts) old)) s))
  refine ⟨secHcRespDataInt (secHcTxhdrConfig (cmdHdr (rxBuffer (request h command ts) old)) s),
    ⟨rfl, rfl, rfl, rfl, rfl, rfl⟩, ?_⟩
  rw [hrun, hmc, parseRequest_loop (by omega), hlen, Nat.add_sub_cancel_left, hloop]
  rfl

end PseFw.Sec
