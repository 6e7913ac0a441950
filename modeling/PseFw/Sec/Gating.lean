/-
**When the service may start.**

`sec_int_start` waits for `sec_int_start_init_flag`, which says that the init flow is complete:
the credentials were decrypted after the hash check, or a reprovisioning was answered.  The
commands that set the flag, `SEC_HC_INIT_ACK2` and `SEC_HC_RPROV_ACK`, do not look at what came
before them.  `sec_hc_prev_command_id` is written by every command and read by none.

So the flag means what it says only as long as the BIOS keeps to the protocol: it acknowledges
what it was told.

Main definitions:

* `Handles` — the command of a request, and the client behind its TLVs;
* `CompletesInit`, `CompletesRprov` — the two ways through the init flow;
* `GateSys`, `gateStep` — the client, and which of the two ways was gone;
* `GateDiscipline` — the BIOS acknowledges what it was told.

Main results:

* `processCmd_cases` — **what a request can do** to the flag and to the messages that went out;
* `gateInv_step` — what was sent was true;
* `gated_of_disciplined` — **the flag is set only after the init flow**, in a disciplined run.
-/

import PseFw.Lib.Transition
import PseFw.Sec.Handling

set_option relaxedAutoImplicit false
set_option autoImplicit false

namespace PseFw.Sec

open Mem

/-! ### The init flow -/

/-- A request is handled: its command, and the client behind its TLVs. -/
def Handles (env : Env) (rx : ℕ → UInt8) (s : SecState) (cmd : Command) (s₁ : SecState) : Prop :=
  env.kMalloc = true ∧ Command.ofCode (cmdHdr rx).command = some cmd ∧
    ∃ vs st, parsed env cmd rx s = some (vs, st, s₁)

/-- The request is the last part of an `SEC_HC_INIT_OOB2`, the hash check is passed, and token,
device and client are decrypted. -/
def CompletesInit (env : Env) (rx : ℕ → UInt8) (s : SecState) : Prop :=
  ∃ s₁ q, Handles env rx s .initOob2 s₁ ∧ (cmdHdr rx).msgComp = 1 ∧
    secHcFindCseSeed env (s₁.reply .initOob2) = some q ∧ Recognised env q ∧
    (openAll env q).1 = .success

/-- The request is an `SEC_HC_RPROV_REQ`, and its response is complete. -/
def CompletesRprov (env : Env) (rx : ℕ → UInt8) (s : SecState) : Prop :=
  ∃ s₁ q, Handles env rx s .rprovReq s₁ ∧
    sealAll env { s₁.reply .rprovReq with seedUpdated := false } = some q ∧ q.1 = .success

/-! ### What a request can do -/

variable {env : Env}

/-- What a request sent. -/
structure Sends (env : Env) (rx : ℕ → UInt8) (s s' : SecState) (cmd : Command)
    (resp : List UInt8) : Prop where
  sent : s'.sent = s.sent ++ [resp]
  command : (cmdHdr (message resp)).command = cmd.response
  initOob2 : cmd = .initOob2 → BeginsWith 0x21 0x23 resp → CompletesInit env rx s
  rprovReq : cmd = .rprovReq → CompletesRprov env rx s

/-- **What a request can do** to the messages that went out, and to the flag. -/
theorem processCmd_cases {rx : ℕ → UInt8} {s s' : SecState}
    (h : secHcProcessCmd env rx s = some s') :
    (s'.sent = s.sent ∨ ∃ cmd resp, Sends env rx s s' cmd resp) ∧
      (s'.startInitFlag = s.startInitFlag ∨
        Command.ofCode (cmdHdr rx).command = some .initAck2 ∨
        Command.ofCode (cmdHdr rx).command = some .rprovAck) := by
  cases hm : env.kMalloc with
  | false =>
      rw [processCmd_no_memory hm, Option.some.injEq] at h
      subst h
      exact ⟨Or.inl rfl, Or.inl rfl⟩
  | true =>
      cases hc : Command.ofCode (cmdHdr rx).command with
      | none =>
          rw [processCmd_unknown hm hc, Option.some.injEq] at h
          subst h
          exact ⟨Or.inl rfl, Or.inl rfl⟩
      | some cmd =>
          rw [processCmd_eq hm hc] at h
          obtain ⟨⟨vs, st, s₁⟩, hp, h⟩ := Option.bind_eq_some_iff.1 h
          have hk := keeps_parsed hp
          have hacc : hdrSize ≤ s₁.accumComposeLen := hk.accum
          have hh : Handles env rx s cmd s₁ := ⟨hm, hc, vs, st, hp⟩
          obtain ⟨hyes, hno⟩ := afterData_sent h hacc
          constructor
          · by_cases hr : Responds env cmd (cmdHdr rx).msgComp s₁
            · obtain ⟨resp, hresp⟩ := hyes hr
              refine Or.inr ⟨cmd, resp, ?_, hresp.command, ?_, ?_⟩
              · rw [hresp.sent, hk.sent]
                rfl
              · rintro rfl hb
                obtain ⟨q, hq, hrec, hop⟩ := hresp.positive rfl hb
                exact ⟨s₁, q, hh, hr.1, hq, hrec, hop⟩
              · rintro rfl
                obtain ⟨q, hq, hs⟩ := hr
                exact ⟨s₁, q, hh, hq, hs⟩
            · exact Or.inl ((hno hr).trans hk.sent)
          · by_cases hi : cmd = .initAck2
            · exact Or.inr (Or.inl (congrArg some hi))
            · by_cases hr : cmd = .rprovAck
              · exact Or.inr (Or.inr (congrArg some hr))
              · exact Or.inl ((afterData_flag h hacc hi hr).trans hk.startInitFlag)

/-! ### Runs -/

/-- The client, and which way through the init flow was gone: an `SEC_HC_INIT_OOB2` was completed;
an `SEC_HC_RPROV_REQ` was completed; and an `SEC_HC_RPROV_ACK` came after that. -/
structure GateSys where
  s : SecState
  initDone : Prop
  rprovDone : Prop
  rprovAcked : Prop

/-- A request. -/
def gateStep (env : Env) (rx : ℕ → UInt8) (x : GateSys) : Option GateSys :=
  (secHcProcessCmd env rx x.s).map fun s' =>
    { s := s'
      initDone := x.initDone ∨ CompletesInit env rx x.s
      rprovDone := x.rprovDone ∨ CompletesRprov env rx x.s
      rprovAcked := x.rprovAcked ∨
        x.rprovDone ∧ Command.ofCode (cmdHdr rx).command = some .rprovAck }

/-- After `sec_hc_init`. -/
structure GateInit (x : GateSys) : Prop where
  startInitFlag : x.s.startInitFlag = false
  sent : x.s.sent = []
  initDone : ¬ x.initDone
  rprovDone : ¬ x.rprovDone
  rprovAcked : ¬ x.rprovAcked

/-- **The flag means what it says.** -/
def Gated (x : GateSys) : Prop := x.s.startInitFlag = true → x.initDone ∨ x.rprovAcked

/-- The response that tells the BIOS that the credentials are decrypted. -/
def InitAcked (m : List UInt8) : Prop :=
  (cmdHdr (message m)).command = Command.initOob2.response ∧ BeginsWith 0x21 0x23 m

/-- The response that carries the credentials of a reprovisioning. -/
def RprovAnswered (m : List UInt8) : Prop :=
  (cmdHdr (message m)).command = Command.rprovReq.response

/-- **The discipline.**  The BIOS acknowledges what it was told. -/
def GateDiscipline (x : GateSys) (rx : ℕ → UInt8) : Prop :=
  (Command.ofCode (cmdHdr rx).command = some .initAck2 → ∃ m ∈ x.s.sent, InitAcked m) ∧
    (Command.ofCode (cmdHdr rx).command = some .rprovAck →
      ∃ m ∈ x.s.sent, InitAcked m ∨ RprovAnswered m)

/-- **What was sent was true.** -/
structure GateInv (x : GateSys) : Prop where
  initAcked : ∀ m ∈ x.s.sent, InitAcked m → x.initDone
  rprovAnswered : ∀ m ∈ x.s.sent, RprovAnswered m → x.rprovDone
  gated : Gated x

theorem gateInv_init {x : GateSys} (h : GateInit x) : GateInv x where
  initAcked m hm := by
    rw [h.sent] at hm
    exact absurd hm List.not_mem_nil
  rprovAnswered m hm := by
    rw [h.sent] at hm
    exact absurd hm List.not_mem_nil
  gated hf := by
    rw [h.startInitFlag] at hf
    cases hf

theorem Command.response_inj {a b : Command} (h : a.response = b.response) : a = b := by
  cases a <;> cases b <;> first | rfl | cases h

/-- **A disciplined request keeps the invariant.** -/
theorem gateInv_step {x x' : GateSys} {rx : ℕ → UInt8} (h : GateInv x)
    (hc : GateDiscipline x rx) (hst : gateStep env rx x = some x') : GateInv x' := by
  obtain ⟨s', hs', rfl⟩ := Option.map_eq_some_iff.1 hst
  obtain ⟨hsent, hflag⟩ := processCmd_cases hs'
  refine ⟨fun m hm ha => ?_, fun m hm ha => ?_, fun hf => ?_⟩
  · rcases hsent with hsent | ⟨cmd, resp, hsent⟩
    · rw [hsent] at hm
      exact Or.inl (h.initAcked m hm ha)
    · rw [hsent.sent] at hm
      rcases List.mem_append.1 hm with hm | hm
      · exact Or.inl (h.initAcked m hm ha)
      · obtain rfl := List.mem_singleton.1 hm
        exact Or.inr (hsent.initOob2
          (Command.response_inj (hsent.command.symm.trans ha.1)) ha.2)
  · rcases hsent with hsent | ⟨cmd, resp, hsent⟩
    · rw [hsent] at hm
      exact Or.inl (h.rprovAnswered m hm ha)
    · rw [hsent.sent] at hm
      rcases List.mem_append.1 hm with hm | hm
      · exact Or.inl (h.rprovAnswered m hm ha)
      · obtain rfl := List.mem_singleton.1 hm
        exact Or.inr (hsent.rprovReq (Command.response_inj (hsent.command.symm.trans ha)))
  · rcases hflag with hflag | hcmd | hcmd
    · rcases h.gated (hflag ▸ hf) with hd | hd
      · exact Or.inl (Or.inl hd)
      · exact Or.inr (Or.inl hd)
    · obtain ⟨m, hm, ha⟩ := hc.1 hcmd
      exact Or.inl (Or.inl (h.initAcked m hm ha))
    · obtain ⟨m, hm, ha | ha⟩ := hc.2 hcmd
      · exact Or.inl (Or.inl (h.initAcked m hm ha))
      · exact Or.inr (Or.inr ⟨h.rprovAnswered m hm ha, hcmd⟩)

/-- **The flag is set only after the init flow**, in every disciplined run. -/
theorem gated_of_disciplined (env : Env) (x : GateSys)
    (h : Lts.Reach GateInit (gateStep env) GateDiscipline x) : Gated x :=
  (h.invariant (fun _ => gateInv_init) fun _ _ _ => gateInv_step).gated

/-! ### Two runs -/

/-- A request without TLVs. -/
def bareRequest (command : UInt8) : ℕ → UInt8 := message [0x21, 0x41, 0x00, command]

/-- A request with a seed. -/
def seedRequest : ℕ → UInt8 :=
  message ([0x21, 0x81, 0x02, 0x10, 0x12, 0x24, 0x00, 0x00] ++ List.replicate secCseSeedLen 7)

/-- The client after `sec_hc_init`. -/
def bootSys : GateSys := ⟨freshState plainCrypto, False, False, False⟩

theorem gateInit_bootSys : GateInit bootSys := ⟨rfl, rfl, id, id, id⟩

/-- The client with a seed. -/
def seededSys : GateSys := (gateStep plainEnv seedRequest bootSys).getD bootSys

theorem gateStep_seed : gateStep plainEnv seedRequest bootSys = some seededSys := rfl

theorem responds_seededSys :
    Responds plainEnv .rprovReq 1 (started (bareRequest 0x20) seededSys.s) := by
  refine ⟨_, rfl, ?_⟩
  decide +kernel

/-- The reprovisioning is answered. -/
theorem exists_rprovAnswered : ∃ s₁, secHcProcessCmd plainEnv (bareRequest 0x20) seededSys.s =
    some s₁ ∧ ∃ m ∈ s₁.sent, RprovAnswered m := by
  obtain ⟨q, hq, hs⟩ := responds_seededSys
  obtain ⟨s₁, hs₁, -⟩ := provision_answers hq (show hdrSize ≤ hdrSize from le_rfl)
  have hrun : afterData plainEnv .rprovReq 1 (started (bareRequest 0x20) seededSys.s) = some s₁ :=
    hs₁
  obtain ⟨resp, hresp⟩ := (afterData_sent hrun (show hdrSize ≤ hdrSize from le_rfl)).1
    responds_seededSys
  refine ⟨s₁, hrun, resp, ?_, hresp.command⟩
  rw [hresp.sent]
  exact List.mem_append_right _ (List.mem_singleton_self _)

/-- A reprovisioning is answered and acknowledged, and the service may start. -/
theorem gated_reprovisioned :
    ∃ x : GateSys, x.s.startInitFlag = true ∧ (x.initDone ∨ x.rprovAcked) := by
  obtain ⟨s₁, hrun, hm⟩ := exists_rprovAnswered
  obtain ⟨m, hm, ha⟩ := hm
  have h0 : Lts.Reach GateInit (gateStep plainEnv) GateDiscipline seededSys :=
    (Lts.Reach.init gateInit_bootSys).step (show GateDiscipline _ seedRequest from
      ⟨fun h => (nomatch h), fun h => (nomatch h)⟩) gateStep_seed
  have h1 := h0.step (show GateDiscipline _ (bareRequest 0x20) from
    ⟨fun h => (nomatch h), fun h => (nomatch h)⟩) (congrArg (Option.map _) hrun)
  have h2 := h1.step (show GateDiscipline _ (bareRequest 0x22) from
    ⟨fun h => (nomatch h), fun _ => ⟨m, hm, Or.inr ha⟩⟩) rfl
  exact ⟨_, rfl, gated_of_disciplined _ _ h2 rfl⟩

/-- The first request after the start is an acknowledgement. -/
theorem not_gated_acknowledged : ¬ ∀ (env : Env) (x : GateSys),
    Lts.Reach GateInit (gateStep env) Lts.Free x → Gated x := by
  intro h
  have h1 := (Lts.Reach.init gateInit_bootSys).step
    (show Lts.Free bootSys (bareRequest 0x14) from trivial)
    (show gateStep plainEnv (bareRequest 0x14) bootSys = some _ from rfl)
  rcases h plainEnv _ h1 rfl with (hd | hd) | (hd | hd)
  · exact hd
  · obtain ⟨s₁, q, hh, -⟩ := hd
    exact nomatch hh.2.1
  · exact hd
  · exact hd.1

end PseFw.Sec
