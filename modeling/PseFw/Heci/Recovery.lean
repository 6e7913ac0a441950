/-
**The link after a reset.**

`heci_reset` only marks the connections: each client is told, and has to complete the disconnection
of its own.  Until all of them have done so, and in any order, everything else goes on: clients
register, send and give back buffers, the host sends frames and resets once more.  As long as the
host does not connect again, the marked connections can only be completed, and a completed one stays
unused; so when every client has answered, the connection table is empty, and every client that
answers connect requests can be connected again.

Main definitions:

* `PseFw.Heci.NoneOpen` — every connection is closed, or about to be;
* `PseFw.Heci.IsConnect` — the host asks for a connection.

Main results:

* `PseFw.Heci.noneOpen_heciReset`, `PseFw.Heci.onlyCloses_step` — a reset closes every connection,
  and only a connect request opens one;
* `PseFw.Heci.reset_recovers` — **the link is free when every client has answered the reset.**
-/

import PseFw.Heci.Addresses
import PseFw.Heci.Enumerate

set_option relaxedAutoImplicit false
set_option autoImplicit false

namespace PseFw.Heci

variable {P : Platform} {s s' : HeciDev} {l : Call}

/-! ### Connections that are about to be closed -/

/-- **Every connection is closed**, or about to be. -/
def NoneOpen (s : HeciDev) : Prop := ∀ c, ¬ IsOpen (s.connections c)

/-- The host asks for a connection. -/
def IsConnect (l : Call) : Prop :=
  ∃ msg, l = .op (.recv msg) ∧ IsBusMsg busMsgClientConnectReq 4 msg

/-- A step that opens nothing, and leaves alone what is unused. -/
structure OnlyCloses (s s' : HeciDev) : Prop where
  noneOpen : NoneOpen s'
  unused : ∀ c, (s.connections c).state = connStateUnused →
    (s'.connections c).state = connStateUnused

theorem OnlyCloses.trans {s₁ : HeciDev} (h : OnlyCloses s s₁) (h' : OnlyCloses s₁ s') :
    OnlyCloses s s' :=
  ⟨h'.noneOpen, fun c hc => h'.unused c (h.unused c hc)⟩

theorem onlyCloses_tame (h : NoneOpen s) (ht : Tame s s') : OnlyCloses s s' where
  noneOpen c hc := h c ((ht.connections c).isOpen_iff.1 hc)
  unused c hc := ((ht.connections c).state_iff (by decide)).2 hc

/-- **A reset closes every connection.** -/
theorem noneOpen_heciReset (hT : TableInv s) : NoneOpen (heciReset s) := by
  intro c hc
  have hnot := not_open_resetEntry (s.connections c)
  rw [heciReset_eq hT] at hc
  have hopen : (resetEntry (s.connections c)).has connStateOpen = true := by
    unfold HeciConn.has
    rcases hc with hst | hst <;> rw [hst] <;> decide
  rw [hnot] at hopen
  cases hopen

/-- A reset leaves alone what is unused. -/
theorem onlyCloses_heciReset (hT : TableInv s) : OnlyCloses s (heciReset s) := by
  refine ⟨noneOpen_heciReset hT, fun c hc => ?_⟩
  have hclosed : (s.connections c).has connStateOpen = false ∧
      (s.connections c).has connStateDisconnecting = false := by
    unfold HeciConn.has
    rw [hc]
    decide
  rw [heciReset_eq hT]
  change (resetEntry (s.connections c)).state = connStateUnused
  rw [resetEntry, hclosed.1, hclosed.2]
  exact hc

/-- One connection is cleared. -/
theorem onlyCloses_setConn_zero (h : NoneOpen s) (c : ConnId) :
    OnlyCloses s (s.setConn c HeciConn.zero) := by
  have hzero : ¬ IsOpen HeciConn.zero := by
    rintro (hst | hst) <;> exact absurd hst (by decide)
  have hconn : ∀ d, (s.setConn c HeciConn.zero).connections d = HeciConn.zero ∨
      (s.setConn c HeciConn.zero).connections d = s.connections d := by
    intro d
    rw [HeciDev.setConn_connections]
    by_cases hdc : d = c
    · exact Or.inl (hdc ▸ Function.update_self ..)
    · exact Or.inr (Function.update_of_ne hdc ..)
  refine ⟨fun d => ?_, fun d hd => ?_⟩
  · rcases hconn d with hx | hx <;> rw [hx]
    · exact hzero
    · exact h d
  · rcases hconn d with hx | hx <;> rw [hx]
    · rfl
    · exact hd

/-- **Only a connect request opens a connection.** -/
theorem onlyCloses_step (hT : TableInv s) (h : NoneOpen s) (hl : ¬ IsConnect l)
    (hst : step P l s = some s') : OnlyCloses s s' := by
  have henter : (enter l s).connections = s.connections := by
    unfold enter
    split <;> rfl
  have hE : NoneOpen (enter l s) := by
    intro c
    rw [henter]
    exact h c
  have hmain : OnlyCloses (enter l s) s' := by
    cases step_effect hT hst with
    | tame _ ht => exact onlyCloses_tame hE ht
    | reset _ ht hT₁ ht' =>
        have h₁ := onlyCloses_tame hE ht
        have h₂ := onlyCloses_heciReset hT₁
        exact (h₁.trans h₂).trans (onlyCloses_tame h₂.noneOpen ht')
    | opened msg i c p he hm _ _ _ _ _ _ _ _ => exact absurd ⟨msg, he, hm⟩ hl
    | closed msg c _ _ hopen _ => exact absurd hopen (hE c)
    | unknown msg _ _ =>
        refine ⟨fun c => ?_, fun c hc => ?_⟩ <;> rw [busReply_eq, HeciDev.emit_connections]
        · exact hE c
        · exact hc
    | @freed s₁ _ c i _ _ _ ht _ ht' =>
        have h₁ := onlyCloses_tame hE ht
        have hio := ioStep_respondDisconnect P c s₁
        have h₂ : NoneOpen (respondDisconnect P c s₁) := by
          intro d
          rw [hio.connections]
          exact h₁.noneOpen d
        have h₃ : OnlyCloses s₁ (respondDisconnect P c s₁) :=
          ⟨h₂, fun d hd => by rw [hio.connections]; exact hd⟩
        have h₄ := onlyCloses_setConn_zero h₂ c
        have h₅ := onlyCloses_tame
          (s := ((respondDisconnect P c s₁).setConn c HeciConn.zero).log (.freed c))
          h₄.noneOpen ht'
        exact ((h₁.trans h₃).trans h₄).trans ⟨h₅.noneOpen, h₅.unused⟩
  refine ⟨hmain.noneOpen, fun c hc => hmain.unused c ?_⟩
  rw [henter]
  exact hc

/-! ### Completing the disconnections -/

/-- **A client that answers the reset** frees its connection. -/
theorem unused_completeDisconnect (hT : TableInv s) (h : NoneOpen s) {c : ConnId}
    (hst : step P (.op (.completeDisconnect c)) s = some s') :
    (s'.connections c).state = connStateUnused := by
  obtain ⟨r, hr, rfl⟩ := Option.map_eq_some_iff.1 hst
  unfold heciCompleteDisconnect at hr
  rw [dif_pos c.isLt] at hr
  dsimp only at hr
  split at hr
  · next hdis =>
      cases hr
      -- what is neither open nor disconnecting is unused
      rcases (hT.conns c).state_cases with h₀ | h₁ | h₃ | h₄ | h₂₀
      · exact h₀
      · exact absurd (Or.inl h₁) (h c)
      · exact absurd (Or.inr h₃) (h c)
      · rw [(hT.conns c).disconnecting_iff.2 (Or.inl h₄)] at hdis
        cases hdis
      · rw [(hT.conns c).disconnecting_iff.2 (Or.inr h₂₀)] at hdis
        cases hdis
  · split at hr
    · cases hr
    · cases hr
      change (((_ : HeciDev).setConn c HeciConn.zero).connections c).state = connStateUnused
      rw [HeciDev.setConn_connections, Function.update_self]
      rfl

/-- What happens until every client has answered. -/
theorem onlyCloses_run {ls : List Call} (hT : TableInv s) (h : NoneOpen s)
    (hno : ∀ l ∈ ls, ¬ IsConnect l) (hr : Lts.run (step P) s ls = some s') :
    OnlyCloses s s' ∧ ∀ c : ConnId, .op (.completeDisconnect c) ∈ ls →
      (s'.connections c).state = connStateUnused := by
  induction ls generalizing s with
  | nil =>
      obtain rfl := Option.some.inj hr
      exact ⟨⟨h, fun _ hc => hc⟩, fun c hc => absurd hc List.not_mem_nil⟩
  | cons l ls ih =>
      rw [Lts.run_cons] at hr
      obtain ⟨s₁, hs₁, hr⟩ := Option.bind_eq_some_iff.1 hr
      have h₁ := onlyCloses_step hT h (hno l List.mem_cons_self) hs₁
      obtain ⟨h₂, hfreed⟩ := ih ((keeps_tableInv P).step hT hs₁) h₁.noneOpen
        (fun l' hl' => hno l' (List.mem_cons_of_mem _ hl')) hr
      refine ⟨h₁.trans h₂, fun c hc => ?_⟩
      rcases List.mem_cons.1 hc with rfl | hc
      · exact h₂.unused c (unused_completeDisconnect hT h hs₁)
      · exact hfreed c hc

/-- **The link is free when every client has answered the reset**: whatever else happens after the
reset, as long as the host does not connect again, the connection table is empty when the
disconnection of every connection was completed, and each active client whose buffer is free has
room for a connection. -/
theorem reset_recovers {ls : List Call} (h : Reachable P s)
    (hr : Lts.run (step P) (heciReset s) ls = some s') (hno : ∀ l ∈ ls, ¬ IsConnect l)
    (hall : ∀ c : ConnId, .op (.completeDisconnect c) ∈ ls) :
    (∀ c, (s'.connections c).state = connStateUnused) ∧
      (∀ i, (s'.clients i).nOfConns = 0) ∧
      ∀ i, (s'.clients i).active = true → (s'.clients i).properties.maxNOfConnections ≠ 0 →
        rxFree s' i = true → HasRoom s' i := by
  have hT := tableInv_of_reachable h
  have hT₁ : TableInv (heciReset s) := hT.heciReset
  have hunused : ∀ c, (s'.connections c).state = connStateUnused := fun c =>
    (onlyCloses_run hT₁ (noneOpen_heciReset hT) hno hr).2 c (hall c)
  have hT' : TableInv s' := keeps_run (keeps_tableInv P) hT₁ hr
  have hcount : ∀ i, (s'.clients i).nOfConns = 0 := by
    intro i
    have htally : (s'.clients i).nOfConns.toNat = 0 := by
      rw [hT'.count i]
      exact Table.tally_eq_zero fun c => TableInv.ownedBy_unused (hunused c)
    exact UInt8.toNat_inj.1 htally
  refine ⟨hunused, hcount, fun i hact hmax hrx => ⟨hact, ?_, ?_, hrx⟩⟩
  · rw [hcount i]
    exact hmax.symm
  · have hidle : findIdleConn s' ≠ none := by
      intro hnone
      exact List.find?_eq_none.1 hnone 0 (List.mem_finRange _) (by simpa using hunused 0)
    exact Option.isSome_iff_ne_none.2 hidle

/-- A client is connected, the link is reset, and the client answers. -/
theorem reset_recovers_connected : ∃ s s', Reachable Platform.nominal s ∧
    (s.connections 0).state = connStateOpen ∧
    Lts.run (step Platform.nominal) (heciReset s)
      ((List.finRange 8).map fun c : ConnId => .op (.completeDisconnect c)) = some s' ∧
    ∀ c, (s'.connections c).state = connStateUnused := by
  obtain ⟨s, hs, hopen, hrun⟩ := exists_reachable Platform.nominal
    (connectCalls (plainClient 1 0 4096 1) 7)
    (fun s => (s.connections 0).state = connStateOpen ∧
      (Lts.run (step Platform.nominal) (heciReset s)
        ((List.finRange 8).map fun c : ConnId => .op (.completeDisconnect c))).isSome = true)
    (by decide +kernel)
  obtain ⟨s', hs'⟩ := Option.isSome_iff_exists.1 hrun
  have hno : ∀ l ∈ (List.finRange 8).map fun c : ConnId => Call.op (.completeDisconnect c),
      ¬ IsConnect l := by
    rintro l hl ⟨msg, rfl, -⟩
    obtain ⟨c, -, hc⟩ := List.mem_map.1 hl
    cases hc
  exact ⟨s, s', hs, hopen, hs', (reset_recovers hs hs' hno fun c =>
    List.mem_map_of_mem (List.mem_finRange c)).1⟩

end PseFw.Heci
