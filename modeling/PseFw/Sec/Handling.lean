/-
**How a request is handled, and what goes out.**

`sec_hc_process_cmd` notes the faults of the command header in the header of the response, takes
the TLVs apart, and does the work of the command.  Whatever it does in between, that header stays
as it is until the response is sent; and a request has at most one response.

Main definitions:

* `CmdHdr.Ok` — the checks of `sec_hc_txhdr_config`;
* `started`, `parsed` — the client before and behind the TLVs;
* `Keeps` — a step that sends nothing and leaves the header of the response;
* `Answers` — a step that sends one response, with the header that was prepared;
* `sealAll`, `openAll` — the steps a provisioning request and a next start wait for.

Main results:

* `processCmd_eq` — the way of a request;
* `keeps_parsed` — the TLVs keep the header;
* `provision_answers`, `initOob2_answers` — **when a response is sent, and what it says**.
-/

import PseFw.Sec.Provision

set_option relaxedAutoImplicit false
set_option autoImplicit false

namespace PseFw.Sec

open Mem

/-! ### The way of a request -/

/-- The checks of `sec_hc_txhdr_config`. -/
structure CmdHdr.Ok (h : CmdHdr) : Prop where
  rsvd : h.rsvd = 0
  protocolVer : secHcMajorMinorVersion ≤ h.protocolVer
  source : h.source = secHcSourceBios
  length : 3 ≤ h.length

variable (env : Env)

/-- The client when a request is taken up. -/
def started (rx : ℕ → UInt8) (s : SecState) : SecState :=
  secHcRespDataInt (secHcTxhdrConfig (cmdHdr rx) s)

/-- The client behind the TLVs of a request, if there are any. -/
def parsed (cmd : Command) (rx : ℕ → UInt8) (s : SecState) :
    Option (List Visit × Status × SecState) :=
  if cmd.hasData = true then parseRequest env rx s else some ([], .success, started rx s)

variable {env}

/-- **The way of a request.** -/
theorem processCmd_eq {rx : ℕ → UInt8} {cmd : Command} (hm : env.kMalloc = true)
    (hc : Command.ofCode (cmdHdr rx).command = some cmd) (s : SecState) :
    secHcProcessCmd env rx s = (parsed env cmd rx s).bind fun q =>
      afterData env cmd (cmdHdr rx).msgComp q.2.2 := by
  unfold secHcProcessCmd parsed
  rw [if_neg (by rw [hm]; decide)]
  simp only [hc]
  split
  · rfl
  · rfl

theorem processCmd_unknown {rx : ℕ → UInt8} (hm : env.kMalloc = true)
    (hc : Command.ofCode (cmdHdr rx).command = none) (s : SecState) :
    secHcProcessCmd env rx s = some (started rx s) := by
  unfold secHcProcessCmd
  rw [if_neg (by rw [hm]; decide)]
  simp only [hc]
  rfl

theorem processCmd_no_memory (hm : env.kMalloc = false) (rx : ℕ → UInt8) (s : SecState) :
    secHcProcessCmd env rx s = some s := if_pos hm

/-! ### The header of the response -/

theorem cmdHdr_write_ge (m : ℕ → UInt8) {pos : ℕ} (l : List UInt8) (h : hdrSize ≤ pos) :
    cmdHdr (write m pos l) = cmdHdr m := by
  unfold cmdHdr
  rw [read_write_disjoint m (Or.inl (by omega))]

/-- The fields of the header after a change; each keeps as many bits as it has. -/
theorem cmdHdr_setTxhdr (s : SecState) (f : CmdHdr → CmdHdr) :
    cmdHdr (s.setTxhdr f).tx = CmdHdr.ofWord (f (cmdHdr s.tx)).toWord := by
  unfold SecState.setTxhdr
  generalize f (cmdHdr s.tx) = h
  have hr := read_write_self s.tx 0 (leBytes 4 h.toWord)
  rw [length_leBytes] at hr
  unfold cmdHdr
  simp only
  rw [show hdrSize = 4 from rfl, hr, ofLe_leBytes h.toWord_lt]

theorem cmdHdr_bounds (m : ℕ → UInt8) : (cmdHdr m).status < 2 ∧ (cmdHdr m).command < 2 ^ 8 := by
  unfold cmdHdr CmdHdr.ofWord
  exact ⟨Nat.mod_lt _ (by decide), Nat.mod_lt _ (by decide)⟩

theorem Command.response_lt (cmd : Command) : cmd.response < 2 ^ 8 := by
  cases cmd <;> decide

/-- The response gets the number of its command, and keeps its status. -/
theorem cmdHdr_setCommand (s : SecState) (cmd : Command) :
    (cmdHdr (s.setTxhdr fun h => { h with command := cmd.response }).tx).status =
        (cmdHdr s.tx).status ∧
      (cmdHdr (s.setTxhdr fun h => { h with command := cmd.response }).tx).command =
        cmd.response := by
  rw [cmdHdr_setTxhdr, CmdHdr.ofWord_toWord]
  exact ⟨Nat.mod_eq_of_lt (cmdHdr_bounds _).1, Nat.mod_eq_of_lt cmd.response_lt⟩

/-! ### Steps that send nothing -/

/-- A step that sends nothing, leaves the header of the response, and does not touch the flag. -/
structure Keeps (s s' : SecState) : Prop where
  hdr : cmdHdr s'.tx = cmdHdr s.tx
  sent : s'.sent = s.sent
  startInitFlag : s'.startInitFlag = s.startInitFlag
  accum : s.accumComposeLen ≤ s'.accumComposeLen

theorem Keeps.refl (s : SecState) : Keeps s s := ⟨rfl, rfl, rfl, le_rfl⟩

theorem Keeps.trans {s s' s'' : SecState} (h : Keeps s s') (h' : Keeps s' s'') : Keeps s s'' :=
  ⟨h'.hdr.trans h.hdr, h'.sent.trans h.sent, h'.startInitFlag.trans h.startInitFlag,
    h.accum.trans h'.accum⟩

theorem keeps_storeTlv (t : DataType) (src : ℕ → UInt8) (dataLen : ℕ) (s : SecState) :
    Keeps s (storeTlv env t src dataLen s).2 := by
  rw [storeTlv_eq]
  cases t.target with
  | param f lenField | simple f | enc f =>
      simp only
      split <;> exact ⟨rfl, rfl, rfl, le_rfl⟩
  | seed idx =>
      simp only
      split
      · split <;> exact ⟨rfl, rfl, rfl, le_rfl⟩
      · exact ⟨rfl, rfl, rfl, le_rfl⟩
  | unsupported => exact ⟨rfl, rfl, rfl, le_rfl⟩

theorem keeps_processCmdDataOnce (rx : ℕ → UInt8) (pos : ℕ) (s : SecState) :
    Keeps s (secHcProcessCmdDataOnce env rx pos s).2 := by
  unfold secHcProcessCmdDataOnce
  split
  · exact Keeps.refl s
  · split
    · exact Keeps.refl s
    · exact keeps_storeTlv _ _ _ s

/-- What every TLV keeps holds behind the TLVs of a request. -/
theorem parsed_invariant {cmd : Command} {rx : ℕ → UInt8} {P : SecState → Prop}
    (hP : ∀ pos s, P s → P (secHcProcessCmdDataOnce env rx pos s).2) {s : SecState}
    {q : List Visit × Status × SecState} (hs : P (started rx s))
    (h : parsed env cmd rx s = some q) : P q.2.2 := by
  unfold parsed at h
  split at h
  · unfold parseRequest secHcProcessCmdData at h
    split at h
    · cases h
      exact hs
    · exact processLoop_invariant hP hs h
  · cases h
    exact hs

/-- **The TLVs keep the header**, and send nothing. -/
theorem keeps_parsed {cmd : Command} {rx : ℕ → UInt8} {s : SecState}
    {q : List Visit × Status × SecState} (h : parsed env cmd rx s = some q) :
    Keeps (started rx s) q.2.2 :=
  parsed_invariant (fun pos s' hs' => hs'.trans (keeps_processCmdDataOnce rx pos s'))
    (Keeps.refl _) h

theorem keeps_pseSetSalt (s : SecState) : Keeps s (secHcPseSetSalt env s) := ⟨rfl, rfl, rfl, le_rfl⟩

theorem keeps_setPrefCseSeed {idx : ℕ} {s : SecState} {q : Status × SecState}
    (h : secHcSetPrefCseSeed idx s = some q) : Keeps s q.2 := by
  obtain ⟨seed, -, rfl⟩ := Option.map_eq_some_iff.1 h
  exact ⟨rfl, rfl, rfl, le_rfl⟩

theorem keeps_encryptIv (env : Env) (cr : Cred) (s : SecState) : Keeps s (encryptIv env cr s) := by
  unfold encryptIv
  split <;> exact ⟨rfl, rfl, rfl, le_rfl⟩

theorem keeps_encryptData (cr : Cred) (s : SecState) : Keeps s (secHcEncryptData env cr s).2 := by
  unfold secHcEncryptData
  split
  · exact ⟨rfl, rfl, rfl, le_rfl⟩
  · split
    · rename_i m _
      unfold secHcEncryptDataOnce
      have hiv := keeps_encryptIv env cr { s with ctx := m, allocs := s.allocs + 1 }
      simp only
      split
      · exact ⟨hiv.hdr, hiv.sent, hiv.startInitFlag, hiv.accum⟩
      · split <;> exact ⟨hiv.hdr, hiv.sent, hiv.startInitFlag, hiv.accum⟩
    · exact ⟨rfl, rfl, rfl, le_rfl⟩

theorem keeps_decryptData (env : Env) (cr : Cred) (s : SecState) :
    Keeps s (secHcDecryptData env cr s).2 := by
  unfold secHcDecryptData
  split
  · exact ⟨rfl, rfl, rfl, le_rfl⟩
  · split
    · split <;> exact ⟨rfl, rfl, rfl, le_rfl⟩
    · exact ⟨rfl, rfl, rfl, le_rfl⟩

theorem Keeps.andThen {s : SecState} {r : Status × SecState} {k : SecState → Status × SecState}
    (h : Keeps s r.2) (hk : ∀ s', Keeps s' (k s').2) : Keeps s (Sec.andThen r k).2 := by
  unfold Sec.andThen
  split
  · exact h.trans (hk r.2)
  · exact h

theorem keeps_findCseSeedLoop {left idx : ℕ} {s : SecState} {q : Status × SecState}
    (h : findCseSeedLoop env left idx s = some q) : Keeps s q.2 := by
  induction left generalizing idx s with
  | zero =>
      cases h
      exact Keeps.refl s
  | succ left ih =>
      obtain ⟨p, hp, h⟩ := Option.bind_eq_some_iff.1 h
      have hset := keeps_setPrefCseSeed hp
      have hdec := hset.trans (keeps_decryptData env .cldHash p.2)
      split at h
      · cases h
        exact hset
      · simp only at h
        split at h
        · exact hdec.trans (ih h)
        · cases h
          exact ⟨hdec.hdr, hdec.sent, hdec.startInitFlag, hdec.accum⟩

/-! ### Composing -/

/-- A TLV is composed behind the header. -/
theorem keeps_responseDataOnce (env : Env) (t : DataType) {pos : ℕ} (data : List UInt8)
    (s : SecState) (hp : hdrSize ≤ pos) :
    Keeps s (secHcResponseDataOnce env t pos data s).2 ∧
      hdrSize ≤ (secHcResponseDataOnce env t pos data s).2.composeNext ∧
      (secHcResponseDataOnce env t pos data s).2.ctx = s.ctx := by
  unfold secHcResponseDataOnce secHcCreateCmdData
  rw [if_neg (Nat.not_lt_zero _)]
  refine ⟨⟨?_, rfl, rfl, Nat.le_add_right _ _⟩, hp.trans (Nat.le_add_right _ _), rfl⟩
  simp only
  rw [cmdHdr_write_ge _ _ (hp.trans (Nat.le_add_right _ _)), cmdHdr_write_ge _ _ hp]

/-- A part of a response: it never fails, and stays behind the header. -/
def Composes (k : SecState → Status × SecState) : Prop :=
  ∀ s, hdrSize ≤ s.composeNext → (k s).1 = .success ∧ Keeps s (k s).2 ∧
    hdrSize ≤ (k s).2.composeNext ∧ (k s).2.ctx = s.ctx

theorem composes_once (env : Env) (t : DataType) (data : SecState → List UInt8) :
    Composes fun s => secHcResponseDataOnce env t s.composeNext (data s) s :=
  fun s hs => ⟨responseDataOnce_success _ _ _ _, keeps_responseDataOnce env t (data s) s hs⟩

theorem Composes.andThen {k k' : SecState → Status × SecState} (h : Composes k)
    (h' : Composes k') : Composes fun s => andThen (k s) k' := by
  intro s hs
  obtain ⟨h1, h2, h3, hctx⟩ := h s hs
  obtain ⟨h4, h5, h6, hctx'⟩ := h' _ h3
  simp only [Sec.andThen, if_pos h1]
  exact ⟨h4, h2.trans h5, h6, hctx'.trans hctx⟩

theorem Composes.drop {k : SecState → Status × SecState} (h : Composes k) :
    Composes fun s => (.success, (k s).2) :=
  fun s hs => ⟨rfl, (h s hs).2⟩

theorem composes_responseCred (env : Env) (cr : Cred) : Composes (responseCred env cr) := by
  have h1 := composes_once env cr.types.1 fun s => get s.ctx cr.enc
  have h2 := composes_once env cr.types.2.1 fun s => get s.ctx cr.iv
  have h3 := composes_once env cr.types.2.2 fun s => get s.ctx cr.tag
  unfold responseCred
  by_cases hc : cr = .tok
  · simp only [if_pos hc]
    exact h1.andThen (h2.andThen h3.drop)
  · simp only [if_neg hc]
    exact h1.andThen (h2.andThen h3)

theorem composes_responseAll (env : Env) : Composes (responseAll env) := by
  have h0 : Composes (responsePseSalt env) := composes_once env _ _
  unfold responseAll
  exact (((h0.andThen (composes_responseCred env .tok)).andThen
    (composes_responseCred env .dev)).andThen (composes_responseCred env .mqttId)).andThen
      (composes_responseCred env .cldHash)

/-! ### Sending -/

/-- A step that sends one response: it has the header that was prepared, and satisfies `p`. -/
def Answers (s s' : SecState) (p : List UInt8 → Prop) : Prop :=
  ∃ resp, s'.sent = s.sent ++ [resp] ∧
    (cmdHdr (message resp)).status = (cmdHdr s.tx).status ∧
    (cmdHdr (message resp)).command = (cmdHdr s.tx).command ∧ p resp ∧
    s'.startInitFlag = s.startInitFlag

theorem Keeps.answers {s s₁ s' : SecState} {p : List UInt8 → Prop} (h : Keeps s s₁)
    (h' : Answers s₁ s' p) : Answers s s' p := by
  obtain ⟨resp, h1, h2, h3, h4, h5⟩ := h'
  rw [h.sent] at h1
  rw [h.hdr] at h2 h3
  exact ⟨resp, h1, h2, h3, h4, h5.trans h.startInitFlag⟩

/-- The type of the first TLV of a message is the one in the buffer. -/
theorem hdrType_message {w : ℕ} {m : ℕ → UInt8} {n : ℕ} (hn : hdrSize ≤ n) :
    hdrType (message (leBytes 4 w ++ read m hdrSize n)) hdrSize = hdrType m hdrSize := by
  have hr := (read_append (read_write_self (fun _ => (0 : UInt8)) 0
    (leBytes 4 w ++ read m hdrSize n))).2
  rw [length_leBytes, Nat.zero_add, length_read] at hr
  unfold hdrType message rxBuffer
  have ht := congrArg (List.take hdrSize) hr
  rw [take_read _ _ hn, take_read _ _ hn] at ht
  rw [show hdrSize = 4 from rfl] at ht ⊢
  rw [ht]

theorem answers_sendResponse {s : SecState} (h : hdrSize ≤ s.accumComposeLen) :
    Answers s (sendResponse s) fun resp =>
      hdrType (message resp) hdrSize = hdrType s.tx hdrSize := by
  let hdr : CmdHdr := { cmdHdr s.tx with length := s.accumComposeLen }
  have hr := read_write_self s.tx 0 (leBytes 4 hdr.toWord)
  rw [length_leBytes] at hr
  have hread : read (write s.tx 0 (leBytes 4 hdr.toWord)) 0 (hdrSize + s.accumComposeLen) =
      leBytes 4 hdr.toWord ++ read s.tx hdrSize s.accumComposeLen := by
    rw [read_add, Nat.zero_add, show hdrSize = 4 from rfl, hr,
      read_write_disjoint _ (Or.inr (by rw [length_leBytes]))]
  refine ⟨leBytes 4 hdr.toWord ++ read s.tx hdrSize s.accumComposeLen, ?_, ?_, ?_, ?_, rfl⟩
  · unfold sendResponse SecState.setTxhdr
    simp only
    rw [hread]
  · rw [cmdHdr_message hdr.toWord_lt, CmdHdr.ofWord_toWord]
    exact Nat.mod_eq_of_lt (cmdHdr_bounds _).1
  · rw [cmdHdr_message hdr.toWord_lt, CmdHdr.ofWord_toWord]
    exact Nat.mod_eq_of_lt (cmdHdr_bounds _).2
  · exact hdrType_message h

/-- A message type is composed at the start of the payload. -/
theorem responseMsgType_eq (env : Env) (t : DataType) (s : SecState) :
    (secHcResponseMsgType env t s).1 = .success ∧ Keeps s (secHcResponseMsgType env t s).2 ∧
      hdrType (secHcResponseMsgType env t s).2.tx hdrSize = t.code := by
  refine ⟨responseDataOnce_success _ _ _ _,
    (keeps_responseDataOnce env t (provStateData env s) s le_rfl).1, ?_⟩
  unfold secHcResponseMsgType secHcResponseDataOnce secHcCreateCmdData
  rw [if_neg (Nat.not_lt_zero _)]
  generalize (hdrSize + (provStateData env s).length) % 2 ^ 12 = n
  unfold bufCompose
  have hr := read_write_self s.tx hdrSize (leBytes 4 (tlvWord t.code n (env.rsvd hdrSize)))
  rw [length_leBytes, show 4 = hdrSize from rfl] at hr
  simp only [hdrType]
  rw [read_write_disjoint _ (Or.inl le_rfl), show 4 = hdrSize from rfl, hr]
  rw [show hdrSize = 4 from rfl, ofLe_leBytes (tlvWord_lt _ _ _), tlvWord_type,
    Nat.mod_eq_of_lt t.code_lt]

/-! ### Provisioning -/

variable (env)

/-- **The steps a provisioning request waits for**: the seed is copied, and the four credentials
are encrypted. -/
def sealAll (s : SecState) : Option (Status × SecState) :=
  (secHcSetPrefCseSeed 0 (secHcPseSetSalt env s)).map (encryptAll env)

variable {env}

theorem keeps_sealAll {s : SecState} {q : Status × SecState} (h : sealAll env s = some q) :
    Keeps s q.2 := by
  obtain ⟨p, hp, rfl⟩ := Option.map_eq_some_iff.1 h
  have h0 := (keeps_pseSetSalt s).trans (keeps_setPrefCseSeed hp)
  unfold encryptAll
  exact (((h0.andThen (keeps_encryptData .tok)).andThen (keeps_encryptData .dev)).andThen
    (keeps_encryptData .mqttId)).andThen (keeps_encryptData .cldHash)

/-- A provisioning request, by the steps it waits for. -/
theorem provision_eq (env : Env) (s : SecState) : provision env s = (sealAll env s).map fun q =>
    if q.1 ≠ .success then q.2
    else sendResponse (responseAll env { q.2 with composeNext := bufCompose }).2 := by
  unfold provision sealAll
  rw [Option.map_map]
  refine congrFun (congrArg Option.map ?_) _
  funext q
  simp only [Function.comp]
  have hs := (composes_responseAll env { (encryptAll env q).2 with composeNext := bufCompose }
    le_rfl).1
  rw [if_neg (not_not_intro hs)]

/-- **When a provisioning request is answered.** -/
theorem provision_answers {s : SecState} {q : Status × SecState} (hq : sealAll env s = some q)
    (hacc : hdrSize ≤ s.accumComposeLen) :
    ∃ s', provision env s = some s' ∧
      (q.1 = .success → Answers s s' fun _ => True) ∧ (q.1 ≠ .success → Keeps s s') := by
  have hk := keeps_sealAll hq
  rw [provision_eq, hq, Option.map_some]
  by_cases hs : q.1 = .success
  · rw [if_neg (not_not_intro hs)]
    refine ⟨_, rfl, fun _ => ?_, fun h => absurd hs h⟩
    have h0 : Keeps q.2 { q.2 with composeNext := bufCompose } := ⟨rfl, rfl, rfl, le_rfl⟩
    obtain ⟨-, h1, -⟩ := composes_responseAll env { q.2 with composeNext := bufCompose } le_rfl
    have h2 := (hk.trans h0).trans h1
    obtain ⟨resp, a, b, c, -, d⟩ := answers_sendResponse (hacc.trans h2.accum)
    exact h2.answers ⟨resp, a, b, c, trivial, d⟩
  · rw [if_pos hs]
    exact ⟨_, rfl, fun h => absurd h hs, fun _ => hk⟩

/-! ### The next start -/

variable (env)

/-- The seed is found and the hash check is passed. -/
def Recognised (q : Status × SecState) : Prop :=
  q.1 = .success ∧ secHcIntHashCheck env.crypto q.2.ctx = .success

instance (q : Status × SecState) : Decidable (Recognised env q) :=
  inferInstanceAs (Decidable (_ ∧ _))

/-- The message type of the response, and the client that composes it. -/
def normalFlow (q : Status × SecState) : DataType × SecState :=
  if q.1 ≠ .success then (.normalFlwDataErr, q.2)
  else if secHcIntHashCheck env.crypto q.2.ctx ≠ .success then (.normalFlwHashErr, q.2)
  else if q.2.seedUpdated = true then
    (.normalFlwReprovReq,
      { q.2 with ctx := (secIntSetProvState env.crypto q.2.ctx (leBytes 4 2)).2 })
  else (.normalFlwSuccess, q.2)

/-- The three decryptions, until one fails. -/
def openAll (q : Status × SecState) : Status × SecState :=
  andThen (andThen (secHcDecryptData env .tok
    (secHcResponseMsgType env (normalFlow env q).1 (normalFlow env q).2).2)
      (secHcDecryptData env .dev)) (secHcDecryptData env .mqttId)

variable {env}

theorem initOob2_eq (env : Env) (s : SecState) :
    initOob2 env s = (secHcFindCseSeed env s).map fun q =>
    if Recognised env q then
      if (openAll env q).1 ≠ .success then (openAll env q).2 else sendResponse (openAll env q).2
    else sendResponse
      (secHcResponseMsgType env (normalFlow env q).1 (normalFlow env q).2).2 := by
  unfold initOob2
  refine congrFun (congrArg Option.map ?_) _
  funext q
  have hmsg := fun t s => (responseMsgType_eq env t s).1
  by_cases h1 : q.1 = .success
  · by_cases h2 : secHcIntHashCheck env.crypto q.2.ctx = .success
    · have hrec : Recognised env q := ⟨h1, h2⟩
      rw [if_pos hrec]
      unfold openAll normalFlow decryptAll
      simp only [if_neg (not_not_intro h1), if_neg (not_not_intro h2), hmsg]
      by_cases hu : q.2.seedUpdated = true
      · simp only [if_pos hu, ne_eq, not_true_eq_false, if_false]
      · simp only [if_neg hu, ne_eq, not_true_eq_false, if_false]
    · have hrec : ¬ Recognised env q := fun h => h2 h.2
      rw [if_neg hrec]
      unfold normalFlow respondMsgType
      simp only [if_neg (not_not_intro h1), if_pos h2, hmsg, ne_eq, not_true_eq_false, if_false]
  · have hrec : ¬ Recognised env q := fun h => h1 h.1
    rw [if_neg hrec]
    unfold normalFlow respondMsgType
    simp only [if_pos h1, hmsg, ne_eq, not_true_eq_false, if_false]

theorem keeps_normalFlow (q : Status × SecState) : Keeps q.2 (normalFlow env q).2 := by
  unfold normalFlow
  split
  · exact Keeps.refl _
  · split
    · exact Keeps.refl _
    · split
      · exact ⟨rfl, rfl, rfl, le_rfl⟩
      · exact Keeps.refl _

theorem normalFlow_type (q : Status × SecState) :
    (Recognised env q → (normalFlow env q).1.code = 0x21 ∨ (normalFlow env q).1.code = 0x23) ∧
      (¬ Recognised env q →
        (normalFlow env q).1.code = 0x22 ∨ (normalFlow env q).1.code = 0x24) := by
  unfold normalFlow Recognised
  by_cases h1 : q.1 = .success
  · by_cases h2 : secHcIntHashCheck env.crypto q.2.ctx = .success
    · rw [if_neg (not_not_intro h1), if_neg (not_not_intro h2)]
      refine ⟨fun _ => ?_, fun h => absurd ⟨h1, h2⟩ h⟩
      split
      · exact Or.inr rfl
      · exact Or.inl rfl
    · rw [if_neg (not_not_intro h1), if_pos h2]
      exact ⟨fun h => absurd h.2 h2, fun _ => Or.inl rfl⟩
  · rw [if_pos h1]
    exact ⟨fun h => absurd h.1 h1, fun _ => Or.inr rfl⟩

theorem decryptData_tx (cr : Cred) (s : SecState) : (secHcDecryptData env cr s).2.tx = s.tx := by
  unfold secHcDecryptData
  split
  · rfl
  · split
    · split <;> rfl
    · rfl

/-- What both calls leave as it was. -/
theorem andThen_same {α : Type} (f : SecState → α) {r : Status × SecState}
    {k : SecState → Status × SecState} {a : α} (h : f r.2 = a) (hk : ∀ s, f (k s).2 = f s) :
    f (andThen r k).2 = a := by
  unfold andThen
  split
  · exact (hk r.2).trans h
  · exact h

/-- The decryptions do not touch the response. -/
theorem keeps_openAll (env : Env) (q : Status × SecState) :
    Keeps (secHcResponseMsgType env (normalFlow env q).1 (normalFlow env q).2).2
        (openAll env q).2 ∧
      (openAll env q).2.tx =
        (secHcResponseMsgType env (normalFlow env q).1 (normalFlow env q).2).2.tx := by
  unfold openAll
  refine ⟨((keeps_decryptData env .tok _).andThen (keeps_decryptData env .dev)).andThen
    (keeps_decryptData env .mqttId), ?_⟩
  exact andThen_same SecState.tx (andThen_same SecState.tx (decryptData_tx _ _)
    (decryptData_tx _)) (decryptData_tx _)

/-- A message type a response may begin with. -/
def BeginsWith (a b : ℕ) (resp : List UInt8) : Prop :=
  hdrType (message resp) hdrSize = a ∨ hdrType (message resp) hdrSize = b

/-- **When a next start is answered, and what the answer says.** -/
theorem initOob2_answers {s : SecState} {q : Status × SecState}
    (hq : secHcFindCseSeed env s = some q) (hacc : hdrSize ≤ s.accumComposeLen) :
    ∃ s', initOob2 env s = some s' ∧
      (Recognised env q → (openAll env q).1 = .success → Answers s s' (BeginsWith 0x21 0x23)) ∧
      (Recognised env q → (openAll env q).1 ≠ .success → Keeps s s') ∧
      (¬ Recognised env q → Answers s s' (BeginsWith 0x22 0x24)) := by
  obtain ⟨-, hmsg, htype⟩ := responseMsgType_eq env (normalFlow env q).1 (normalFlow env q).2
  obtain ⟨hopen, htx⟩ := keeps_openAll env q
  have hk := ((keeps_findCseSeedLoop hq).trans (keeps_normalFlow q)).trans hmsg
  rw [initOob2_eq, hq, Option.map_some]
  refine ⟨_, rfl, fun hrec hop => ?_, fun hrec hop => ?_, fun hrec => ?_⟩
  · rw [if_pos hrec, if_neg (not_not_intro hop)]
    obtain ⟨resp, a, b, c, d, e⟩ := answers_sendResponse (hacc.trans (hk.trans hopen).accum)
    rw [htx, htype] at d
    refine (hk.trans hopen).answers ⟨resp, a, b, c, ?_, e⟩
    unfold BeginsWith
    rw [d]
    exact (normalFlow_type q).1 hrec
  · rw [if_pos hrec, if_pos hop]
    exact hk.trans hopen
  · rw [if_neg hrec]
    obtain ⟨resp, a, b, c, d, e⟩ := answers_sendResponse (hacc.trans hk.accum)
    rw [htype] at d
    refine hk.answers ⟨resp, a, b, c, ?_, e⟩
    unfold BeginsWith
    rw [d]
    exact (normalFlow_type q).2 hrec

/-! ### The commands -/

/-- The response is given the number of its command. -/
def SecState.reply (s : SecState) (cmd : Command) : SecState :=
  s.setTxhdr fun h => { h with command := cmd.response }

variable (env)

/-- **The condition for a response**, in the client behind the TLVs. -/
def Responds (cmd : Command) (msgComp : ℕ) (s : SecState) : Prop :=
  match cmd with
  | .provInitOob => msgComp = 1 ∧ ∃ q, sealAll env (s.reply cmd) = some q ∧ q.1 = .success
  | .rprovReq =>
      ∃ q, sealAll env { s.reply cmd with seedUpdated := false } = some q ∧ q.1 = .success
  | .provInitAck | .initOob => msgComp = 1
  | .initOob2 => msgComp = 1 ∧ ∃ q, secHcFindCseSeed env (s.reply cmd) = some q ∧
      (Recognised env q → (openAll env q).1 = .success)
  | .initAck2 => False
  | .statusOob | .rprovAck | .decommAck => True

/-- The response to a command. -/
structure Replied (cmd : Command) (s s' : SecState) (resp : List UInt8) : Prop where
  sent : s'.sent = s.sent ++ [resp]
  status : (cmdHdr (message resp)).status = (cmdHdr s.tx).status
  command : (cmdHdr (message resp)).command = cmd.response
  positive : cmd = .initOob2 → BeginsWith 0x21 0x23 resp →
    ∃ q, secHcFindCseSeed env (s.reply cmd) = some q ∧ Recognised env q ∧
      (openAll env q).1 = .success

variable {env}

theorem replied_of_answers {cmd : Command} {s s₁ s' : SecState} {p : List UInt8 → Prop}
    (hk : Keeps (s.reply cmd) s₁) (h : Answers s₁ s' p)
    (hp : cmd = .initOob2 → ∀ resp, p resp → BeginsWith 0x21 0x23 resp →
      ∃ q, secHcFindCseSeed env (s.reply cmd) = some q ∧ Recognised env q ∧
        (openAll env q).1 = .success) : ∃ resp, Replied env cmd s s' resp := by
  obtain ⟨resp, h1, h2, h3, h4, -⟩ := hk.answers h
  obtain ⟨hst, hcm⟩ := cmdHdr_setCommand s cmd
  exact ⟨resp, h1, h2.trans hst, h3.trans hcm, fun hc => hp hc resp h4⟩

theorem answers_respondMsgType (env : Env) (t : DataType) {s : SecState}
    (hacc : hdrSize ≤ s.accumComposeLen) :
    Answers s (respondMsgType env t s) fun _ => True := by
  obtain ⟨h1, h2, -⟩ := responseMsgType_eq env t s
  unfold respondMsgType
  simp only
  rw [if_neg (not_not_intro h1)]
  obtain ⟨resp, a, b, c, -, d⟩ := answers_sendResponse (hacc.trans h2.accum)
  exact h2.answers ⟨resp, a, b, c, trivial, d⟩

theorem not_beginsWith {resp : List UInt8} (h : BeginsWith 0x22 0x24 resp) :
    ¬ BeginsWith 0x21 0x23 resp := by
  unfold BeginsWith at h ⊢
  omega

/-- The response of a command that composes nothing. -/
theorem replied_sendResponse {cmd : Command} {s s₁ : SecState} (hk : Keeps (s.reply cmd) s₁)
    (hacc : hdrSize ≤ s.accumComposeLen) (hc : cmd ≠ .initOob2) :
    ∃ resp, Replied env cmd s (sendResponse s₁) resp :=
  replied_of_answers hk (answers_sendResponse (hacc.trans hk.accum)) fun h => absurd h hc

theorem provision_replied {cmd : Command} {s s₁ s' : SecState} (hk : Keeps (s.reply cmd) s₁)
    (h : provision env s₁ = some s') (hacc : hdrSize ≤ s.accumComposeLen) (hc : cmd ≠ .initOob2) :
    ((∃ q, sealAll env s₁ = some q ∧ q.1 = .success) → ∃ resp, Replied env cmd s s' resp) ∧
      (¬ (∃ q, sealAll env s₁ = some q ∧ q.1 = .success) → s'.sent = s.sent) := by
  have hq : ∃ q, sealAll env s₁ = some q := by
    rw [provision_eq] at h
    obtain ⟨q, hq, -⟩ := Option.map_eq_some_iff.1 h
    exact ⟨q, hq⟩
  obtain ⟨q, hq⟩ := hq
  obtain ⟨s₂, hs₂, hyes, hno⟩ := provision_answers hq (hacc.trans hk.accum)
  rw [h, Option.some.injEq] at hs₂
  subst hs₂
  constructor
  · rintro ⟨q', hq', hsuc⟩
    rw [hq, Option.some.injEq] at hq'
    subst hq'
    exact replied_of_answers hk (hyes hsuc) fun hh => absurd hh hc
  · intro hnot
    exact (hk.trans (hno fun hsuc => hnot ⟨q, hq, hsuc⟩)).sent

theorem initOob2_replied {s s' : SecState} (h : initOob2 env (s.reply .initOob2) = some s')
    (hacc : hdrSize ≤ s.accumComposeLen) :
    ((∃ q, secHcFindCseSeed env (s.reply .initOob2) = some q ∧
        (Recognised env q → (openAll env q).1 = .success)) →
      ∃ resp, Replied env .initOob2 s s' resp) ∧
    (¬ (∃ q, secHcFindCseSeed env (s.reply .initOob2) = some q ∧
        (Recognised env q → (openAll env q).1 = .success)) → s'.sent = s.sent) := by
  have hq : ∃ q, secHcFindCseSeed env (s.reply .initOob2) = some q := by
    rw [initOob2_eq] at h
    obtain ⟨q, hq, -⟩ := Option.map_eq_some_iff.1 h
    exact ⟨q, hq⟩
  obtain ⟨q, hq⟩ := hq
  obtain ⟨s₂, hs₂, hyes, hfail, hno⟩ := initOob2_answers hq
    (show hdrSize ≤ (s.reply .initOob2).accumComposeLen from hacc)
  rw [h, Option.some.injEq] at hs₂
  subst hs₂
  constructor
  · rintro ⟨q', hq', hopen⟩
    rw [hq, Option.some.injEq] at hq'
    subst hq'
    by_cases hrec : Recognised env q
    · exact replied_of_answers (Keeps.refl _) (hyes hrec (hopen hrec))
        fun _ _ _ _ => ⟨q, hq, hrec, hopen hrec⟩
    · exact replied_of_answers (Keeps.refl _) (hno hrec)
        fun _ _ hn hp => absurd hp (not_beginsWith hn)
  · intro hnot
    have hrec : Recognised env q := by
      by_contra hrec
      exact hnot ⟨q, hq, fun h => absurd h hrec⟩
    exact (hfail hrec fun hopen => hnot ⟨q, hq, fun _ => hopen⟩).sent

/-- The commands that come in parts. -/
def Command.inParts : Command → Bool
  | .provInitOob | .provInitAck | .initOob | .initOob2 => true
  | _ => false

/-- A part that is not the last one is taken apart, and that is all. -/
theorem afterData_part (env : Env) {cmd : Command} {msgComp : ℕ} (hc : cmd.inParts = true)
    (hm : msgComp ≠ 1) (s : SecState) :
    afterData env cmd msgComp s = some (s.reply cmd) ∧ ¬ Responds env cmd msgComp s := by
  cases cmd with
  | provInitOob | initOob2 => exact ⟨if_pos hm, fun h => hm h.1⟩
  | provInitAck | initOob => exact ⟨if_pos hm, hm⟩
  | _ => cases hc

/-- **What a command sends**: one response when the condition holds, and nothing otherwise. -/
theorem afterData_sent {cmd : Command} {msgComp : ℕ} {s s' : SecState}
    (h : afterData env cmd msgComp s = some s') (hacc : hdrSize ≤ s.accumComposeLen) :
    (Responds env cmd msgComp s → ∃ resp, Replied env cmd s s' resp) ∧
      (¬ Responds env cmd msgComp s → s'.sent = s.sent) := by
  by_cases hpart : cmd.inParts = true ∧ msgComp ≠ 1
  · obtain ⟨heq, hno⟩ := afterData_part env hpart.1 hpart.2 s
    rw [heq] at h
    cases h
    exact ⟨fun hr => absurd hr hno, fun _ => rfl⟩
  · have hm : cmd.inParts = true → msgComp = 1 := fun hc => by
      by_contra hm
      exact hpart ⟨hc, hm⟩
    cases cmd with
    | provInitOob =>
        obtain rfl := hm rfl
        obtain ⟨hyes, hno⟩ := provision_replied (Keeps.refl _) h hacc (by decide)
        exact ⟨fun hr => hyes hr.2, fun hr => hno fun hq => hr ⟨rfl, hq⟩⟩
    | provInitAck | initOob =>
        obtain rfl := hm rfl
        cases h
        exact ⟨fun _ => replied_sendResponse (Keeps.refl _) hacc (by decide),
          fun hr => absurd rfl hr⟩
    | initOob2 =>
        obtain rfl := hm rfl
        obtain ⟨hyes, hno⟩ := initOob2_replied h hacc
        exact ⟨fun hr => hyes hr.2, fun hr => hno fun hq => hr ⟨rfl, hq⟩⟩
    | initAck2 =>
        cases h
        exact ⟨fun hr => hr.elim, fun _ => rfl⟩
    | statusOob =>
        cases h
        exact ⟨fun _ => replied_of_answers (Keeps.refl _)
          (answers_respondMsgType env .oobStatus hacc) fun hc => (nomatch hc),
          fun hr => absurd trivial hr⟩
    | rprovReq => exact provision_replied ⟨rfl, rfl, rfl, le_rfl⟩ h hacc (by decide)
    | rprovAck =>
        cases h
        refine ⟨fun _ => ?_, fun hr => absurd trivial hr⟩
        obtain ⟨resp, hresp⟩ := @replied_sendResponse env .rprovAck s _ ⟨rfl, rfl, rfl, le_rfl⟩
          hacc (by decide)
        exact ⟨resp, hresp.sent, hresp.status, hresp.command, hresp.positive⟩
    | decommAck =>
        cases h
        refine ⟨fun _ => ?_, fun hr => absurd trivial hr⟩
        obtain ⟨resp, hresp⟩ := @replied_sendResponse env .decommAck s _ (Keeps.refl _)
          hacc (by decide)
        exact ⟨resp, hresp.sent, hresp.status, hresp.command, hresp.positive⟩

theorem Answers.startInitFlag {s s' : SecState} {p : List UInt8 → Prop} (h : Answers s s' p) :
    s'.startInitFlag = s.startInitFlag := by
  obtain ⟨-, -, -, -, -, h⟩ := h
  exact h

theorem provision_flag {s s' : SecState} (h : provision env s = some s')
    (hacc : hdrSize ≤ s.accumComposeLen) : s'.startInitFlag = s.startInitFlag := by
  have hq := h
  rw [provision_eq] at hq
  obtain ⟨q, hq, -⟩ := Option.map_eq_some_iff.1 hq
  obtain ⟨s₂, hs₂, hyes, hno⟩ := provision_answers hq hacc
  rw [h, Option.some.injEq] at hs₂
  subst hs₂
  by_cases hs : q.1 = .success
  · exact (hyes hs).startInitFlag
  · exact (hno hs).startInitFlag

theorem initOob2_flag {s s' : SecState} (h : initOob2 env s = some s')
    (hacc : hdrSize ≤ s.accumComposeLen) : s'.startInitFlag = s.startInitFlag := by
  have hq := h
  rw [initOob2_eq] at hq
  obtain ⟨q, hq, -⟩ := Option.map_eq_some_iff.1 hq
  obtain ⟨s₂, hs₂, hyes, hfail, hno⟩ := initOob2_answers hq hacc
  rw [h, Option.some.injEq] at hs₂
  subst hs₂
  by_cases hrec : Recognised env q
  · by_cases hop : (openAll env q).1 = .success
    · exact (hyes hrec hop).startInitFlag
    · exact (hfail hrec hop).startInitFlag
  · exact (hno hrec).startInitFlag

/-- **Two commands set the flag.** -/
theorem afterData_flag {cmd : Command} {msgComp : ℕ} {s s' : SecState}
    (h : afterData env cmd msgComp s = some s') (hacc : hdrSize ≤ s.accumComposeLen)
    (hi : cmd ≠ .initAck2) (hr : cmd ≠ .rprovAck) : s'.startInitFlag = s.startInitFlag := by
  by_cases hpart : cmd.inParts = true ∧ msgComp ≠ 1
  · rw [(afterData_part env hpart.1 hpart.2 s).1] at h
    cases h
    rfl
  · have hm : cmd.inParts = true → msgComp = 1 := fun hc => by
      by_contra hm
      exact hpart ⟨hc, hm⟩
    cases cmd with
    | provInitOob =>
        obtain rfl := hm rfl
        have hf := provision_flag (show provision env (s.reply .provInitOob) = some s' from h) hacc
        exact hf
    | provInitAck | initOob =>
        obtain rfl := hm rfl
        cases h
        rfl
    | initOob2 =>
        obtain rfl := hm rfl
        have hf := initOob2_flag (show initOob2 env (s.reply .initOob2) = some s' from h) hacc
        exact hf
    | statusOob =>
        cases h
        exact (answers_respondMsgType env .oobStatus
          (show hdrSize ≤ (s.reply .statusOob).accumComposeLen from hacc)).startInitFlag
    | rprovReq =>
        have hf := provision_flag (show provision env
          { s.reply .rprovReq with seedUpdated := false } = some s' from h) hacc
        exact hf
    | decommAck =>
        cases h
        rfl
    | initAck2 => exact absurd rfl hi
    | rprovAck => exact absurd rfl hr

end PseFw.Sec
