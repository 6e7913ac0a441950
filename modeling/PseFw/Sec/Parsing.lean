/-
**What the parser reads.**

A request is parsed in the receive buffer, where the bytes of the message are followed by
whatever an earlier message left behind.  This module says exactly for which messages the parser
stays inside what was received, and inside the length the command header announces.

Which TLVs are stored does not depend on their data, only on their headers and on three things
of the state: whether the hash of the context is right, which slots of the seed table are taken,
and how the allocations turn out.  So the run of the parser can be planned from the headers
alone (`plan`), and the plan is compared with the run.

Main definitions:

* `rxBuffer` — the buffer after a message, with what was left behind it;
* `StaysInside` — the parser reads inside the message, stores only whole TLVs, reports every
  failure, and does not depend on the bytes behind the message;
* `headers`, `Ctl`, `plan` — the headers of a message, and what becomes of them;
* `WellFramed` — the condition on the message and on the state before it.

Main results:

* `processLoop_plan` — the run of the parser is the planned one;
* `processLoop_leftover` — it does not depend on the bytes behind the message;
* `staysInside_iff_wellFramed` — **the parser stays inside exactly the well-framed messages**.
-/

import PseFw.Sec.Command

set_option relaxedAutoImplicit false
set_option autoImplicit false

namespace PseFw.Sec

open Mem

/-! ### The property -/

/-- The receive buffer after a message: its bytes, and behind them what stood there before. -/
def rxBuffer (r : List UInt8) (old : ℕ → UInt8) : ℕ → UInt8 := write old 0 r

/-- How many bytes behind the header of a TLV are read when it is stored. -/
def readLen (type dataLen : ℕ) : ℕ := ((DataType.ofCode type).map (fetchLen · dataLen)).getD 0

/-- The TLVs of a run stay inside `limit`: every header; every TLV that is stored, and the bytes
that are read for it; and one that is stored does not begin inside one in front of it. -/
structure Inside (limit : ℕ) (vs : List Visit) : Prop where
  header : ∀ v ∈ vs, v.pos + hdrSize ≤ limit
  tlv : ∀ v ∈ vs, v.outcome = .stored → v.pos + v.length ≤ limit
  data : ∀ v ∈ vs, v.outcome = .stored →
    v.pos + hdrSize + readLen v.type (v.length - hdrSize) ≤ limit
  apart : vs.Pairwise fun v w => w.outcome = .stored → v.pos + max hdrSize v.length ≤ w.pos

variable (env : Env)

/-- The call of the parser for a request, with the state `sec_hc_process_cmd` makes it in. -/
def parseRequest (rx : ℕ → UInt8) (s : SecState) : Option (List Visit × Status × SecState) :=
  secHcProcessCmdData env rx ((cmdHdr rx).length - hdrSize)
    (secHcRespDataInt (secHcTxhdrConfig (cmdHdr rx) s))

/-- The request in a buffer has a command with TLVs. -/
def CarriesData (rx : ℕ → UInt8) : Prop :=
  (Command.ofCode (cmdHdr rx).command).any Command.hasData = true

/-- **The parser stays inside the message.**  Whatever stands behind the received bytes: when the
request is looked at, the command header was received; the parser comes to an end and stays inside
both lengths, and its result is `SEC_SUCCESS` exactly when every TLV was stored; and the context
after the command is always the same. -/
structure StaysInside (s : SecState) (r : List UInt8) : Prop where
  header : env.kMalloc = true → hdrSize ≤ r.length
  parse : env.kMalloc = true → ∀ old, CarriesData (rxBuffer r old) →
    ∃ vs result s', parseRequest env (rxBuffer r old) s = some (vs, result, s') ∧
      Inside (min (cmdHdr (rxBuffer r old)).length r.length) vs ∧
      (result = .success ↔ ∀ v ∈ vs, v.outcome = .stored)
  leftover : ∀ old old', (secHcProcessCmd env (rxBuffer r old) s).map SecState.ctx =
    (secHcProcessCmd env (rxBuffer r old') s).map SecState.ctx

/-! ### The headers of a message -/

/-- The message as a memory. -/
def message (r : List UInt8) : ℕ → UInt8 := rxBuffer r fun _ => 0

/-- A TLV header and where it stands. -/
structure TlvHdr where
  pos : ℕ
  type : ℕ
  length : ℕ
  deriving DecidableEq, Repr

/-- The TLV headers of a message from an address on, until `len` bytes are used up.  Each one
must stand inside `limit` and lead on. -/
def headers (r : List UInt8) (limit : ℕ) : ℕ → ℕ → ℕ → Option (List TlvHdr)
  | _, _, 0 => some []
  | 0, _, _ + 1 => none
  | fuel + 1, pos, len + 1 =>
      let l := hdrLength (message r) pos
      if pos + hdrSize ≤ limit ∧ l ≠ 0 then
        (headers r limit fuel (pos + l) (len + 1 - l)).map (⟨pos, hdrType (message r) pos, l⟩ :: ·)
      else none

/-! ### What becomes of them -/

/-- What decides whether a TLV is stored: the hash of the context, the slots of the seed table,
and the number of allocations so far. -/
structure Ctl where
  verified : Bool
  taken : Fin 4 → Bool
  allocs : ℕ

/-- The part of the state that decides. -/
def SecState.ctl (s : SecState) : Ctl where
  verified := decide (Verified env.crypto s.ctx)
  taken i := (s.seeds i).isSome
  allocs := s.allocs

/-- What becomes of the data of a type. -/
def Ctl.outcome (k : Ctl) (t : DataType) (dataLen : ℕ) : Outcome :=
  match t.target with
  | .param _ _ => if t.admits dataLen && k.verified then .stored else .ignored
  | .simple _ => if k.verified then .stored else .ignored
  | .enc _ => if t.admits dataLen then .stored else .refused
  | .seed idx =>
      if t.admits dataLen && !k.taken idx && env.kHeapAlloc k.allocs then .stored else .refused
  | .unsupported => .refused

/-- What the next TLV finds. -/
def Ctl.next (k : Ctl) (t : DataType) (dataLen : ℕ) : Ctl :=
  match t.target with
  | .seed idx =>
      if t.admits dataLen && !k.taken idx then
        { k with
          taken := Function.update k.taken idx (env.kHeapAlloc k.allocs)
          allocs := k.allocs + 1 }
      else k
  | _ => k

/-- The type a header asks for; none when there is no data or the number is not in use. -/
def TlvHdr.type? (h : TlvHdr) : Option DataType :=
  if h.length ≤ hdrSize then none else DataType.ofCode h.type

/-- What becomes of the TLV behind a header. -/
def TlvHdr.outcome (k : Ctl) (h : TlvHdr) : Outcome :=
  match h.type? with
  | none => .refused
  | some t => k.outcome env t (h.length - hdrSize)

/-- What the next TLV finds. -/
def TlvHdr.next (k : Ctl) (h : TlvHdr) : Ctl :=
  match h.type? with
  | none => k
  | some t => k.next env t (h.length - hdrSize)

/-- What becomes of a list of TLVs. -/
def plan : Ctl → List TlvHdr → List Visit
  | _, [] => []
  | k, h :: hs => ⟨h.pos, h.type, h.length, h.outcome env k⟩ :: plan (h.next env k) hs

/-- **The well-framed messages.**  Unless there is no memory to look at the request: the command
header is there; and if the command carries TLVs, there is at least one, their headers lead from
one to the next inside both lengths, those that will be stored lie inside both lengths with
everything that is read for them and do not begin inside the one in front, and the last one is
refused unless all of them will be stored. -/
structure WellFramed (s : SecState) (r : List UInt8) : Prop where
  header : env.kMalloc = true → hdrSize ≤ r.length
  tlvs : env.kMalloc = true → CarriesData (message r) → ∃ hs,
    headers r (min (cmdHdr (message r)).length r.length) ((cmdHdr (message r)).length - hdrSize)
      hdrSize ((cmdHdr (message r)).length - hdrSize) = some hs ∧ hs ≠ [] ∧
    Inside (min (cmdHdr (message r)).length r.length) (plan env (s.ctl env) hs) ∧
    ((∀ v ∈ plan env (s.ctl env) hs, v.outcome = .stored) ∨
      (plan env (s.ctl env) hs).getLast?.map Visit.outcome = some .refused)

variable {env}

/-! ### The bytes of the message -/

theorem rxBuffer_of_lt {r : List UInt8} (old old' : ℕ → UInt8) {i : ℕ} (h : i < r.length) :
    rxBuffer r old i = rxBuffer r old' i := by
  have hw : ∀ m : ℕ → UInt8, write m 0 r i = r[i] := by
    intro m
    have := write_add m 0 h
    rwa [Nat.zero_add] at this
  exact (hw old).trans (hw old').symm

/-- A block inside the message does not depend on what is behind it. -/
theorem read_rxBuffer {r : List UInt8} (old old' : ℕ → UInt8) {p k : ℕ} (h : p + k ≤ r.length) :
    read (rxBuffer r old) p k = read (rxBuffer r old') p k :=
  read_congr fun i _ hi => rxBuffer_of_lt old old' (by omega)

theorem hdrType_rxBuffer {r : List UInt8} (old old' : ℕ → UInt8) {p : ℕ}
    (h : p + hdrSize ≤ r.length) :
    hdrType (rxBuffer r old) p = hdrType (rxBuffer r old') p := by
  unfold hdrType
  rw [read_rxBuffer old old' h]

theorem hdrLength_rxBuffer {r : List UInt8} (old old' : ℕ → UInt8) {p : ℕ}
    (h : p + hdrSize ≤ r.length) :
    hdrLength (rxBuffer r old) p = hdrLength (rxBuffer r old') p := by
  unfold hdrLength
  rw [read_rxBuffer old old' h]

theorem cmdHdr_rxBuffer {r : List UInt8} (old old' : ℕ → UInt8) (h : hdrSize ≤ r.length) :
    cmdHdr (rxBuffer r old) = cmdHdr (rxBuffer r old') := by
  unfold cmdHdr
  rw [read_rxBuffer old old' (by omega)]

/-! ### The run is the planned one -/

/-- The outcome of a TLV is the planned one. -/
theorem storeTlv_outcome (t : DataType) (src : ℕ → UInt8) (dataLen : ℕ) (s : SecState) :
    (storeTlv env t src dataLen s).1 = (s.ctl env).outcome env t dataLen := by
  rw [storeTlv_eq]
  unfold Ctl.outcome
  cases t.target with
  | param f lenField =>
      simp only [SecState.ctl, Bool.and_eq_true, decide_eq_true_eq]
      split <;> rfl
  | simple f =>
      simp only [SecState.ctl, decide_eq_true_eq]
      split <;> rfl
  | enc f =>
      simp only
      split <;> rfl
  | seed idx =>
      simp only [SecState.ctl, Bool.and_eq_true, Bool.not_eq_true', Option.isSome_eq_false_iff,
        Option.isNone_iff_eq_none]
      split
      · rename_i h
        split
        · rename_i hk
          rw [if_pos ⟨h, hk⟩]
        · rename_i hk
          rw [if_neg fun hh => hk hh.2]
      · rename_i h
        rw [if_neg fun hh => h hh.1]
  | unsupported => rfl

/-- What the next TLV finds is as planned. -/
theorem storeTlv_ctl (t : DataType) (src : ℕ → UInt8) (dataLen : ℕ) (s : SecState) :
    (storeTlv env t src dataLen s).2.ctl env = (s.ctl env).next env t dataLen := by
  have hv : decide (Verified env.crypto (storeTlv env t src dataLen s).2.ctx) =
      decide (Verified env.crypto s.ctx) := decide_eq_decide.2 verified_storeTlv
  unfold SecState.ctl Ctl.next
  rw [hv, storeTlv_eq]
  cases ht : t.target with
  | param f lenField | simple f | enc f =>
      simp only
      split <;> rfl
  | seed idx =>
      simp only [Bool.and_eq_true, Bool.not_eq_true', Option.isSome_eq_false_iff,
        Option.isNone_iff_eq_none]
      split
      · rename_i h
        congr 1
        · funext i
          by_cases hi : i = idx
          · subst hi
            cases hk : env.kHeapAlloc s.allocs <;> simp [h.2]
          · cases hk : env.kHeapAlloc s.allocs <;> simp [hi]
        · cases hk : env.kHeapAlloc s.allocs <;> rfl
      · rfl
  | unsupported => rfl

theorem once_eq {rx : ℕ → UInt8} {h : TlvHdr} (ht : hdrType rx h.pos = h.type)
    (hl : hdrLength rx h.pos = h.length) (s : SecState) :
    secHcProcessCmdDataOnce env rx h.pos s = h.type?.elim (.refused, s) fun t =>
      storeTlv env t (fun i => rx (h.pos + hdrSize + i)) (h.length - hdrSize) s := by
  unfold secHcProcessCmdDataOnce TlvHdr.type?
  rw [ht, hl]
  by_cases h4 : h.length ≤ hdrSize
  · rw [if_pos h4, if_pos h4]
    rfl
  · rw [if_neg h4, if_neg h4]
    cases DataType.ofCode h.type with
    | none => rfl
    | some t => rfl

theorem once_outcome {rx : ℕ → UInt8} {h : TlvHdr} (ht : hdrType rx h.pos = h.type)
    (hl : hdrLength rx h.pos = h.length) (s : SecState) :
    (secHcProcessCmdDataOnce env rx h.pos s).1 = h.outcome env (s.ctl env) := by
  rw [once_eq ht hl]
  unfold TlvHdr.outcome
  cases h.type? with
  | none => rfl
  | some t => exact storeTlv_outcome _ _ _ _

theorem once_ctl {rx : ℕ → UInt8} {h : TlvHdr} (ht : hdrType rx h.pos = h.type)
    (hl : hdrLength rx h.pos = h.length) (s : SecState) :
    (secHcProcessCmdDataOnce env rx h.pos s).2.ctl env = h.next env (s.ctl env) := by
  rw [once_eq ht hl]
  unfold TlvHdr.next
  cases h.type? with
  | none => rfl
  | some t => exact storeTlv_ctl _ _ _ _

/-- The result of the loop: the one of the last TLV. -/
def lastStatus (st : Status) (vs : List Visit) : Status :=
  (vs.getLast?.map fun v => v.outcome.status).getD st

theorem lastStatus_cons (st : Status) (v : Visit) (vs : List Visit) :
    lastStatus st (v :: vs) = lastStatus v.outcome.status vs := by
  unfold lastStatus
  rw [List.getLast?_cons]
  cases vs.getLast? with
  | none => rfl
  | some w => rfl

/-- One round of the planned headers. -/
theorem headers_succ {r : List UInt8} {limit fuel pos len : ℕ} {hs : List TlvHdr}
    (h : headers r limit (fuel + 1) pos (len + 1) = some hs) :
    ∃ hs', hs = ⟨pos, hdrType (message r) pos, hdrLength (message r) pos⟩ :: hs' ∧
      pos + hdrSize ≤ limit ∧ hdrLength (message r) pos ≠ 0 ∧
      headers r limit fuel (pos + hdrLength (message r) pos)
        (len + 1 - hdrLength (message r) pos) = some hs' := by
  unfold headers at h
  simp only at h
  split at h
  · rename_i hc
    obtain ⟨hs', h', rfl⟩ := Option.map_eq_some_iff.1 h
    exact ⟨hs', rfl, hc.1, hc.2, h'⟩
  · cases h

/-- **The run of the parser is the planned one.** -/
theorem processLoop_plan (env : Env) {r : List UInt8} {limit : ℕ} (hlim : limit ≤ r.length)
    (old : ℕ → UInt8) {fuel pos len : ℕ} {hs : List TlvHdr}
    (h : headers r limit fuel pos len = some hs) (st : Status) (s : SecState) :
    ∃ s', processLoop env (rxBuffer r old) fuel pos len st s =
      some (plan env (s.ctl env) hs, lastStatus st (plan env (s.ctl env) hs), s') := by
  induction fuel generalizing pos len hs st s with
  | zero =>
      cases len with
      | zero =>
          cases h
          exact ⟨s, rfl⟩
      | succ len => cases h
  | succ fuel ih =>
      cases len with
      | zero =>
          cases h
          exact ⟨s, rfl⟩
      | succ len =>
          obtain ⟨hs', rfl, hin, h0, h'⟩ := headers_succ h
          have ht : hdrType (rxBuffer r old) pos = hdrType (message r) pos :=
            hdrType_rxBuffer _ _ (hin.trans hlim)
          have hl : hdrLength (rxBuffer r old) pos = hdrLength (message r) pos :=
            hdrLength_rxBuffer _ _ (hin.trans hlim)
          let d : TlvHdr := ⟨pos, hdrType (message r) pos, hdrLength (message r) pos⟩
          have ho : (secHcProcessCmdDataOnce env (rxBuffer r old) pos s).1 =
              d.outcome env (s.ctl env) := once_outcome (h := d) ht hl s
          have hc : (secHcProcessCmdDataOnce env (rxBuffer r old) pos s).2.ctl env =
              d.next env (s.ctl env) := once_ctl (h := d) ht hl s
          obtain ⟨s', hs'⟩ := ih h' (d.outcome env (s.ctl env)).status
            (secHcProcessCmdDataOnce env (rxBuffer r old) pos s).2
          refine ⟨s', ?_⟩
          rw [processLoop_succ, hl, ht, if_neg h0, ho, hs', hc, plan, lastStatus_cons]
          rfl

/-- One TLV does not depend on the bytes behind the message, if what is read for it is inside. -/
theorem once_leftover {r : List UInt8} {limit : ℕ} (hlim : limit ≤ r.length) (old old' : ℕ → UInt8)
    {h : TlvHdr} (ht : hdrType (message r) h.pos = h.type)
    (hl : hdrLength (message r) h.pos = h.length) (hin : h.pos + hdrSize ≤ limit) (s : SecState)
    (hd : h.outcome env (s.ctl env) = .stored →
      h.pos + hdrSize + readLen h.type (h.length - hdrSize) ≤ limit) :
    secHcProcessCmdDataOnce env (rxBuffer r old) h.pos s =
      secHcProcessCmdDataOnce env (rxBuffer r old') h.pos s := by
  have ht' : ∀ o, hdrType (rxBuffer r o) h.pos = h.type := fun o =>
    (hdrType_rxBuffer _ _ (hin.trans hlim)).trans ht
  have hl' : ∀ o, hdrLength (rxBuffer r o) h.pos = h.length := fun o =>
    (hdrLength_rxBuffer _ _ (hin.trans hlim)).trans hl
  rw [once_eq (ht' old) (hl' old), once_eq (ht' old') (hl' old')]
  cases hty : h.type? with
  | none => rw [Option.elim_none, Option.elim_none]
  | some t =>
      rw [Option.elim_some, Option.elim_some]
      refine storeTlv_congr s fun hs => ?_
      have hstored : h.outcome env (s.ctl env) = .stored := by
        unfold TlvHdr.outcome
        rw [hty, ← hs]
        exact (storeTlv_outcome _ _ _ _).symm
      have hcode : DataType.ofCode h.type = some t := by
        unfold TlvHdr.type? at hty
        split at hty
        · cases hty
        · exact hty
      have hr := hd hstored
      rw [readLen, hcode, Option.map_some, Option.getD_some] at hr
      refine read_congr fun i _ hi => rxBuffer_of_lt old old' ?_
      exact lt_of_lt_of_le (Nat.add_lt_add_left (by omega) _) (hr.trans hlim)

/-- **The run does not depend on the bytes behind the message.** -/
theorem processLoop_leftover {r : List UInt8} {limit : ℕ} (hlim : limit ≤ r.length)
    (old old' : ℕ → UInt8) {fuel pos len : ℕ} {hs : List TlvHdr}
    (h : headers r limit fuel pos len = some hs) (st : Status) (s : SecState)
    (hd : ∀ v ∈ plan env (s.ctl env) hs, v.outcome = .stored →
      v.pos + hdrSize + readLen v.type (v.length - hdrSize) ≤ limit) :
    processLoop env (rxBuffer r old) fuel pos len st s =
      processLoop env (rxBuffer r old') fuel pos len st s := by
  induction fuel generalizing pos len hs st s with
  | zero =>
      cases len with
      | zero => rfl
      | succ len => cases h
  | succ fuel ih =>
      cases len with
      | zero => rfl
      | succ len =>
          obtain ⟨hs', rfl, hin, h0, h'⟩ := headers_succ h
          let d : TlvHdr := ⟨pos, hdrType (message r) pos, hdrLength (message r) pos⟩
          have honce : secHcProcessCmdDataOnce env (rxBuffer r old) pos s =
              secHcProcessCmdDataOnce env (rxBuffer r old') pos s :=
            once_leftover (h := d) hlim old old' rfl rfl hin s
              (hd _ (List.mem_cons_self ..))
          have ht : hdrType (rxBuffer r old') pos = hdrType (message r) pos :=
            hdrType_rxBuffer _ _ (hin.trans hlim)
          have hl : hdrLength (rxBuffer r old') pos = hdrLength (message r) pos :=
            hdrLength_rxBuffer _ _ (hin.trans hlim)
          have hc : (secHcProcessCmdDataOnce env (rxBuffer r old') pos s).2.ctl env =
              d.next env (s.ctl env) := once_ctl (h := d) ht hl s
          rw [processLoop_succ, processLoop_succ, honce,
            hdrType_rxBuffer old old' (hin.trans hlim),
            hdrLength_rxBuffer old old' (hin.trans hlim), hl,
            ih h' _ _ fun v hv => hd v (List.mem_cons_of_mem _ (by rwa [hc] at hv))]

/-- A run whose headers are all inside goes along the headers of the message. -/
theorem headers_of_processLoop {r : List UInt8} {limit : ℕ} (hlim : limit ≤ r.length)
    {old : ℕ → UInt8} {fuel pos len : ℕ} {st : Status} {s : SecState}
    {q : List Visit × Status × SecState}
    (h : processLoop env (rxBuffer r old) fuel pos len st s = some q)
    (hin : ∀ v ∈ q.1, v.pos + hdrSize ≤ limit) :
    ∃ hs, headers r limit fuel pos len = some hs := by
  induction fuel generalizing pos len st s q with
  | zero =>
      cases len with
      | zero => exact ⟨[], rfl⟩
      | succ len => cases h
  | succ fuel ih =>
      cases len with
      | zero => exact ⟨[], rfl⟩
      | succ len =>
          rw [processLoop_succ] at h
          split at h
          · cases h
          · rename_i h0
            obtain ⟨q', hq', rfl⟩ := Option.map_eq_some_iff.1 h
            have hpos : pos + hdrSize ≤ limit := hin _ (List.mem_cons_self ..)
            have hl : hdrLength (rxBuffer r old) pos = hdrLength (message r) pos :=
              hdrLength_rxBuffer _ _ (hpos.trans hlim)
            rw [hl] at hq' h0
            obtain ⟨hs, hhs⟩ := ih hq' fun v hv => hin v (List.mem_cons_of_mem _ hv)
            refine ⟨⟨pos, hdrType (message r) pos, hdrLength (message r) pos⟩ :: hs, ?_⟩
            unfold headers
            simp only
            rw [if_pos ⟨hpos, h0⟩, hhs]
            rfl

theorem headers_ne_nil {r : List UInt8} {limit fuel pos len : ℕ} {hs : List TlvHdr}
    (hlen : 0 < len) (h : headers r limit fuel pos len = some hs) : hs ≠ [] := by
  cases len with
  | zero => cases hlen
  | succ len =>
      cases fuel with
      | zero => cases h
      | succ fuel =>
          obtain ⟨hs', rfl, _⟩ := headers_succ h
          exact List.cons_ne_nil _ _

theorem plan_ne_nil {k : Ctl} {hs : List TlvHdr} (h : hs ≠ []) : plan env k hs ≠ [] := by
  cases hs with
  | nil => exact absurd rfl h
  | cons d hs => exact List.cons_ne_nil _ _

/-! ### The call of the parser -/

theorem parseRequest_empty {rx : ℕ → UInt8} (h : (cmdHdr rx).length ≤ hdrSize) (s : SecState) :
    parseRequest env rx s =
      some ([], .failed, secHcRespDataInt (secHcTxhdrConfig (cmdHdr rx) s)) :=
  if_pos (by omega)

theorem parseRequest_loop {rx : ℕ → UInt8} (h : hdrSize < (cmdHdr rx).length) (s : SecState) :
    parseRequest env rx s =
      processLoop env rx ((cmdHdr rx).length - hdrSize) hdrSize ((cmdHdr rx).length - hdrSize)
        .success (secHcRespDataInt (secHcTxhdrConfig (cmdHdr rx) s)) := by
  have ht : (((cmdHdr rx).length : ℤ) - hdrSize).toNat = (cmdHdr rx).length - hdrSize := by omega
  unfold parseRequest secHcProcessCmdData
  rw [if_neg (by omega), ht]

/-- `sec_hc_process_cmd`, for a request with TLVs. -/
theorem processCmd_of_carriesData {rx : ℕ → UInt8} (hm : env.kMalloc = true)
    (h : CarriesData rx) (s : SecState) :
    ∃ cmd, Command.ofCode (cmdHdr rx).command = some cmd ∧
      secHcProcessCmd env rx s = (parseRequest env rx s).bind fun q =>
        afterData env cmd (cmdHdr rx).msgComp q.2.2 := by
  unfold CarriesData at h
  cases hc : Command.ofCode (cmdHdr rx).command with
  | none =>
      rw [hc] at h
      cases h
  | some cmd =>
      rw [hc] at h
      refine ⟨cmd, rfl, ?_⟩
      unfold secHcProcessCmd
      rw [if_neg (by rw [hm]; decide)]
      simp only [hc]
      rw [if_pos (show cmd.hasData = true from h)]
      rfl

/-- A request without TLVs is handled by its command header alone. -/
theorem processCmd_congr {rx rx' : ℕ → UInt8} (hh : cmdHdr rx = cmdHdr rx')
    (h : ¬ CarriesData rx) (s : SecState) :
    secHcProcessCmd env rx s = secHcProcessCmd env rx' s := by
  unfold CarriesData at h
  unfold secHcProcessCmd
  rw [← hh]
  cases hc : Command.ofCode (cmdHdr rx).command with
  | none => simp only [hc]
  | some cmd =>
      rw [hc] at h
      have hd : ¬ cmd.hasData = true := h
      simp only [hc, if_neg hd]

/-! ### The condition -/

/-- The result reports every failure exactly when the last TLV is refused or all are stored. -/
theorem lastStatus_success_iff {vs : List Visit} (hne : vs ≠ []) :
    (lastStatus .success vs = .success ↔ ∀ v ∈ vs, v.outcome = .stored) ↔
      ((∀ v ∈ vs, v.outcome = .stored) ∨ vs.getLast?.map Visit.outcome = some .refused) := by
  have hl := List.getLast?_eq_some_getLast hne
  unfold lastStatus
  rw [hl, Option.map_some, Option.map_some, Option.getD_some]
  cases ho : (vs.getLast hne).outcome with
  | refused =>
      refine iff_of_true (iff_of_false (by decide) fun h => ?_) (Or.inr rfl)
      have := h _ (List.getLast_mem hne)
      rw [ho] at this
      cases this
  | stored | ignored =>
      constructor
      · intro h
        exact Or.inl (h.1 rfl)
      · rintro (h | h)
        · exact iff_of_true rfl h
        · cases h

theorem carriesData_rxBuffer {r : List UInt8} (old old' : ℕ → UInt8) (h : hdrSize ≤ r.length) :
    CarriesData (rxBuffer r old) ↔ CarriesData (rxBuffer r old') := by
  unfold CarriesData
  rw [cmdHdr_rxBuffer old old' h]

/-- A run that stays inside and reports every failure comes from a well-framed message. -/
theorem StaysInside.wellFramed {s : SecState} {r : List UInt8} (h : StaysInside env s r) :
    WellFramed env s r := by
  have hlim : min (cmdHdr (message r)).length r.length ≤ r.length := Nat.min_le_right _ _
  refine ⟨h.header, fun hm hcd => ?_⟩
  obtain ⟨vs, result, s', hrun, hin, hres⟩ := h.parse hm _ hcd
  change parseRequest env (message r) s = _ at hrun
  rcases Nat.lt_or_ge hdrSize (cmdHdr (message r)).length with hH | hH
  · rw [parseRequest_loop hH] at hrun
    obtain ⟨hs, hhs⟩ := headers_of_processLoop hlim hrun hin.header
    obtain ⟨s'', hplan⟩ := processLoop_plan env hlim (fun _ => 0) hhs .success
      (secHcRespDataInt (secHcTxhdrConfig (cmdHdr (message r)) s))
    have heq := Option.some.inj (hrun.symm.trans hplan)
    obtain ⟨rfl, rfl, -⟩ : vs = _ ∧ result = _ ∧ s' = _ := by
      simpa only [Prod.mk.injEq] using heq
    have hne := headers_ne_nil (by omega) hhs
    exact ⟨hs, hhs, hne, hin, (lastStatus_success_iff (plan_ne_nil hne)).1 hres⟩
  · -- without TLVs the result is a failure, and there is nothing that failed
    rw [parseRequest_empty hH] at hrun
    cases hrun
    exact absurd (hres.2 fun v hv => absurd hv List.not_mem_nil) (by decide)

/-- The parser on a well-framed message. -/
theorem WellFramed.parse {s : SecState} {r : List UInt8} (h : WellFramed env s r)
    (hm : env.kMalloc = true) (old : ℕ → UInt8) (hcd : CarriesData (rxBuffer r old)) :
    (∃ vs result s', parseRequest env (rxBuffer r old) s = some (vs, result, s') ∧
      Inside (min (cmdHdr (rxBuffer r old)).length r.length) vs ∧
      (result = .success ↔ ∀ v ∈ vs, v.outcome = .stored)) ∧
    ∀ old', parseRequest env (rxBuffer r old) s = parseRequest env (rxBuffer r old') s := by
  have hlim : min (cmdHdr (message r)).length r.length ≤ r.length := Nat.min_le_right _ _
  have hhdr : ∀ o, cmdHdr (rxBuffer r o) = cmdHdr (message r) :=
    fun o => cmdHdr_rxBuffer _ _ (h.header hm)
  obtain ⟨hs, hhs, hne, hin, hlast⟩ :=
    h.tlvs hm ((carriesData_rxBuffer old _ (h.header hm)).1 hcd)
  have hH : ∀ o, hdrSize < (cmdHdr (rxBuffer r o)).length := by
    intro o
    rw [hhdr o]
    by_contra hc
    rw [show (cmdHdr (message r)).length - hdrSize = 0 by omega] at hhs
    cases hhs
    exact hne rfl
  obtain ⟨s', hplan⟩ := processLoop_plan env hlim old hhs .success
    (secHcRespDataInt (secHcTxhdrConfig (cmdHdr (message r)) s))
  refine ⟨⟨plan env (s.ctl env) hs, lastStatus .success (plan env (s.ctl env) hs), s', ?_, ?_, ?_⟩,
    fun old' => ?_⟩
  · rw [parseRequest_loop (hH old), hhdr old]
    exact hplan
  · rw [hhdr old]
    exact hin
  · exact (lastStatus_success_iff (plan_ne_nil hne)).2 hlast
  · rw [parseRequest_loop (hH old), parseRequest_loop (hH old'), hhdr old, hhdr old']
    exact processLoop_leftover hlim old old' hhs .success _ hin.data

/-- **The parser stays inside exactly the well-framed messages.** -/
theorem staysInside_iff_wellFramed (env : Env) (s : SecState) (r : List UInt8) :
    StaysInside env s r ↔ WellFramed env s r := by
  refine ⟨StaysInside.wellFramed, fun h => ⟨h.header, fun hm old hcd => (h.parse hm old hcd).1, ?_⟩⟩
  intro old old'
  cases hm : env.kMalloc with
  | false =>
      unfold secHcProcessCmd
      rw [if_pos hm, if_pos hm]
  | true =>
      have hhdr : cmdHdr (rxBuffer r old) = cmdHdr (rxBuffer r old') :=
        cmdHdr_rxBuffer _ _ (h.header hm)
      by_cases hcd : CarriesData (rxBuffer r old)
      · obtain ⟨cmd, hcmd, hrun⟩ := processCmd_of_carriesData hm hcd s
        obtain ⟨cmd', hcmd', hrun'⟩ := processCmd_of_carriesData hm
          ((carriesData_rxBuffer old old' (h.header hm)).1 hcd) s
        rw [← hhdr, hcmd] at hcmd'
        cases hcmd'
        rw [hrun, hrun', (h.parse hm old hcd).2 old', hhdr]
      · rw [processCmd_congr hhdr hcd]

/-! ### A message that is cut off -/

/-- A library for examples: a constant hash, the key material as the key, the text unchanged, and
the end of the key as the tag. -/
def plainCrypto : Crypto where
  sha384 _ := List.replicate secHashLen 0
  hkdf _ ikm _ := some (padTo secFuseLen ikm)
  gcmSetkey _ := true
  gcmCryptAndTag key _ input := some (input, padTo secEncTagSize (key.drop 16))
  gcmAuthDecrypt key _ tag input :=
    if tag = padTo secEncTagSize (key.drop 16) then some input else none
  length_sha384 _ := List.length_replicate
  length_hkdf _ _ _ key h := by
    cases h
    exact length_padTo _ _
  length_crypt _ _ _ c h := by
    cases h
    exact ⟨rfl, length_padTo _ _⟩
  length_decrypt _ _ _ _ out h := by
    split at h
    · cases h
      rfl
    · cases h

/-- Surroundings in which every call succeeds. -/
def plainEnv : Env where
  crypto := plainCrypto
  kMalloc := true
  kHeapAlloc _ := true
  random _ n := some (List.replicate n 0)
  entropyState _ := true
  rsvd _ := 0
  stackData := 0
  length_random _ n l h := by
    cases h
    exact List.length_replicate

/-- The client after `sec_hc_init`. -/
def freshState (c : Crypto) : SecState where
  ctx := secIntInitContext c fun _ => 0
  seeds _ := none
  seedNo := 0
  seedUpdated := false
  startInitFlag := false
  abortSet := false
  tx _ := 0
  composeNext := 0
  accumComposeLen := 0
  sent := []
  allocs := 0
  rands := 0

/-- A token of four bytes is announced and none of them sent: what stood in the buffer is copied
into the context. -/
theorem not_staysInside_truncated : ¬ StaysInside plainEnv (freshState plainCrypto)
    [0x21, 0xC1, 0x00, 0x10, 0x07, 0x08, 0x00, 0x00] := by
  intro h
  obtain ⟨vs, result, s', hrun, hin, -⟩ := h.parse rfl (fun _ => 0) (by unfold CarriesData; decide)
  have hvs : (parseRequest plainEnv
      (rxBuffer [0x21, 0xC1, 0x00, 0x10, 0x07, 0x08, 0x00, 0x00] fun _ => 0)
      (freshState plainCrypto)).map Prod.fst = some [⟨4, 7, 8, .stored⟩] := by rfl
  rw [hrun] at hvs
  cases hvs
  exact absurd (hin.tlv _ (List.mem_singleton_self _) rfl) (by decide)

end PseFw.Sec
