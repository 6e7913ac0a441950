/-
**The addresses of the connections.**

Frames carry a pair of addresses, and the handlers take the first connection that has it.  That is
the connection that was meant only if no two connections in use have the same pair.  The connect
request announces to look among the existing connections in order to validate the request, but only
looks for an unused one; so the pair stays unique exactly as long as no request for a pair in use
reaches a client that has room for another connection.

Main definitions:

* `PseFw.Heci.AddrUnique` — no two connections in use have the same pair of addresses;
* `PseFw.Heci.HasRoom` — the client would be given another connection;
* `PseFw.Heci.NoDuplicate` — the discipline of the host.

Main results:

* `PseFw.Heci.addrUnique_step_iff` — a step keeps the addresses unique exactly when it keeps the
  discipline;
* `PseFw.Heci.noDuplicate_of_single` — a client with at most one connection needs no discipline;
* `PseFw.Heci.addrUnique_of_disciplined` — **the addresses are unique in every disciplined run**.
-/

import PseFw.Heci.ConnLife

set_option relaxedAutoImplicit false
set_option autoImplicit false

namespace PseFw.Heci

open Table

/-! ### Unique addresses -/

/-- **No two connections in use have the same pair of addresses.** -/
def AddrUnique (s : HeciDev) : Prop :=
  ∀ c d, (s.connections c).state ≠ connStateUnused → (s.connections d).state ≠ connStateUnused →
    Between (s.connections d) (s.connections c).fwAddr (s.connections c).hostAddr → c = d

instance (s : HeciDev) : Decidable (AddrUnique s) := Nat.decidableForallFin _

/-- The entry is in use in both states or in none, with the same addresses. -/
def SameAddr (x y : HeciConn) : Prop :=
  y.state ≠ connStateUnused → x.state ≠ connStateUnused ∧ Between y x.fwAddr x.hostAddr

theorem SameLife.sameAddr {x y : HeciConn} (h : SameLife x y) : SameAddr x y := fun hy =>
  ⟨fun hx => hy ((h.state_iff (by decide)).2 hx), h.fwAddr, h.hostAddr⟩

theorem sameAddr_resetEntry {x : HeciConn}
    (hx : x.state = connStateUnused → x.has connStateOpen = false ∧
      x.has connStateDisconnecting = false) : SameAddr x (resetEntry x) := by
  unfold resetEntry
  split
  · next h =>
      refine fun _ => ⟨fun hu => ?_, rfl, rfl⟩
      rw [(hx hu).1, (hx hu).2] at h
      cases h
  · exact fun h => ⟨h, rfl, rfl⟩

namespace AddrUnique

variable {s s' : HeciDev}

/-- Connections in use keep their addresses, and none comes into use. -/
theorem of_sameAddr (h : AddrUnique s)
    (hco : ∀ c, SameAddr (s.connections c) (s'.connections c)) : AddrUnique s' := by
  intro c d hc hd hb
  obtain ⟨hc', hbc⟩ := hco c hc
  obtain ⟨hd', hbd⟩ := hco d hd
  refine h c d hc' hd' ⟨?_, ?_⟩
  · rw [← hbd.1, hb.1, hbc.1]
  · rw [← hbd.2, hb.2, hbc.2]

theorem tame (h : AddrUnique s) (ht : Tame s s') : AddrUnique s' :=
  h.of_sameAddr fun c => (ht.connections c).sameAddr

theorem log {e : Event} (h : AddrUnique s) : AddrUnique (s.log e) := h

/-- One connection changes, and keeps its addresses if it stays in use. -/
theorem setConn (h : AddrUnique s) {c : ConnId} {x : HeciConn}
    (hx : SameAddr (s.connections c) x) : AddrUnique (s.setConn c x) := by
  refine h.of_sameAddr fun d => ?_
  rw [HeciDev.setConn_connections]
  by_cases hd : d = c
  · subst hd
    rw [Function.update_self]
    exact hx
  · rw [Function.update_of_ne hd]
    exact (SameLife.refl _).sameAddr

/-- A connection comes into use, with addresses no other one has. -/
theorem opened (h : AddrUnique s) {c : ConnId} {x : HeciConn}
    (hx : ∀ d, (s.connections d).state ≠ connStateUnused →
      ¬ Between (s.connections d) x.fwAddr x.hostAddr) : AddrUnique (s.setConn c x) := by
  intro a b ha hb hab
  rw [HeciDev.setConn_connections] at ha hb hab
  by_cases hac : a = c
  · by_cases hbc : b = c
    · rw [hac, hbc]
    · subst hac
      rw [Function.update_of_ne hbc] at hb hab
      rw [Function.update_self] at hab
      exact absurd hab (hx b hb)
  · by_cases hbc : b = c
    · subst hbc
      rw [Function.update_of_ne hac] at ha hab
      rw [Function.update_self] at hab
      exact absurd ⟨hab.1.symm, hab.2.symm⟩ (hx a ha)
    · rw [Function.update_of_ne hac] at ha hab
      rw [Function.update_of_ne hbc] at hb hab
      exact h a b ha hb hab

theorem reset (h : AddrUnique s) (hT : TableInv s) : AddrUnique (heciReset s) := by
  refine h.of_sameAddr fun c => ?_
  rw [heciReset_eq hT]
  refine sameAddr_resetEntry fun hu => ?_
  unfold HeciConn.has
  rw [hu]
  decide

/-- **The search finds the one connection that is meant.** -/
theorem heciFindConn_eq (h : AddrUnique s) {c : ConnId} {bits : UInt8}
    (hbits : (s.connections c).has bits = true) :
    heciFindConn (s.connections c).fwAddr (s.connections c).hostAddr bits s = some c := by
  have hused : ∀ d, (s.connections d).has bits = true →
      (s.connections d).state ≠ connStateUnused := by
    intro d hd hu
    rw [HeciConn.has, hu] at hd
    simp at hd
  cases hf : heciFindConn (s.connections c).fwAddr (s.connections c).hostAddr bits s with
  | none => exact absurd rfl (heciFindConn_none hf c hbits rfl)
  | some d =>
      obtain ⟨hd, hb⟩ := heciFindConn_some hf
      rw [h c d (hused c hbits) (hused d hd) hb]

end AddrUnique

/-! ### The discipline -/

/-- The buffer of the client is free. -/
def rxFree (s : HeciDev) (i : ClientId) : Bool :=
  (s.clients i).properties.rxMsg.any fun p => !(s.rxMsgs p).msgLock

theorem rxFree_iff {s : HeciDev} {i : ClientId} : rxFree s i = true ↔
    ∃ p, (s.clients i).properties.rxMsg = some p ∧ (s.rxMsgs p).msgLock = false := by
  unfold rxFree
  cases (s.clients i).properties.rxMsg <;> simp

/-- The client would be given another connection. -/
def HasRoom (s : HeciDev) (i : ClientId) : Prop :=
  (s.clients i).active = true ∧
    (s.clients i).nOfConns ≠ (s.clients i).properties.maxNOfConnections ∧
    (findIdleConn s).isSome ∧ rxFree s i = true

instance (s : HeciDev) (i : ClientId) : Decidable (HasRoom s i) :=
  inferInstanceAs (Decidable (_ ∧ _ ∧ _ ∧ _))

/-- **The discipline**: no connect request for the addresses of a connection in use comes while the
client of that connection has room for another one. -/
def NoDuplicate (s : HeciDev) : Call → Prop
  | .op (.recv msg) => IsBusMsg busMsgClientConnectReq 4 msg → msg.byte 2 ≠ 0 →
      ∀ c i, (s.connections c).state ≠ connStateUnused →
        Between (s.connections c) (msg.byte 1) (msg.byte 2) → (s.connections c).client = some i →
        ¬ HasRoom s i
  | _ => True

instance (s : HeciDev) (l : Call) : Decidable (NoDuplicate s l) :=
  match l with
  | .op (.recv _) => inferInstanceAs (Decidable (_ → _ → ∀ _ _, _ → _ → _ → ¬ _))
  | .op (.register _) | .op (.sendFlowControl _) | .op (.completeDisconnect _) | .op .reset
  | .send _ _ => isTrue trivial

/-- The client a connect request finds is the one whose connections have its address. -/
theorem TableInv.findClient_eq {s : HeciDev} (hT : TableInv s) {c : ConnId} {i j : ClientId}
    (hused : (s.connections c).state ≠ connStateUnused) (hi : (s.connections c).client = some i)
    (hj : findClient (s.connections c).fwAddr s = some j) : j = i := by
  obtain ⟨k, hk, hne, hfw, -⟩ := (hT.conns c).used hused
  rw [hi] at hk
  cases hk
  exact (hT.clientAddr_inj hne (hfw.symm.trans (findClient_some hj).symm)).symm

/-- **A client with at most one connection needs no discipline.** -/
theorem noDuplicate_of_single {s : HeciDev} (hT : TableInv s)
    (h : ∀ i, (s.clients i).properties.maxNOfConnections ≤ 1) (l : Call) : NoDuplicate s l := by
  unfold NoDuplicate
  split
  case h_2 => trivial
  intro _ _ c i hused _ hi hroom
  have hown : ownedBy i (s.connections c) = true := by simp [ownedBy, hused, hi]
  have hpos : 0 < (s.clients i).nOfConns.toNat := by
    rw [hT.count i]
    exact tally_pos hown
  have hle := hT.limit i
  have hone : (s.clients i).properties.maxNOfConnections.toNat ≤ 1 := UInt8.le_iff_toNat_le.1 (h i)
  exact hroom.2.1 (UInt8.toNat_inj.1 (by omega))

/-! ### Connect requests -/

section connect

variable {P : Platform} {msg : HeciBusMsg} {s s' : HeciDev}

/-- A client that has room is given another connection. -/
theorem heciConnectHost_of_room {i : ClientId} (hlen : msg.hdr.len = 4)
    (hi : findClient (msg.byte 1) s = some i) (hhost : msg.byte 2 ≠ 0) (hroom : HasRoom s i) :
    ∃ c p, findIdleConn s = some c ∧ heciConnectHost P msg s =
      some (busReply P (connRespBytes (msg.byte 1) (msg.byte 2) .success)
        (openConn c i p (msg.byte 1) (msg.byte 2) (lockRx p s))) := by
  obtain ⟨hact, hn, hidle, hrx⟩ := hroom
  obtain ⟨p, hp, hl⟩ := rxFree_iff.1 hrx
  obtain ⟨c, hc⟩ := Option.isSome_iff_exists.1 hidle
  refine ⟨c, p, hc, ?_⟩
  have hpool : heciGetBufferFromPool (some i) s = some (some p, lockRx p s) := by
    simp [heciGetBufferFromPool, hp, hl]
  unfold heciConnectHost
  simp [hlen, hi, hhost, hact, hn, hc, hpool]

/-- **The request is refused**: the host is told so, and no connection changes. -/
def ConnectRefused (P : Platform) (msg : HeciBusMsg) (s s' : HeciDev) : Prop :=
  (∀ c, SameLife (s.connections c) (s'.connections c)) ∧
    ∃ st, st ≠ BusMsgStatus.success ∧ s'.events = s.events ++
      protoEvents P (busFrame (connRespBytes (msg.byte 1) (msg.byte 2) st)) s.events.length

/-- A well-formed connect request is refused, or the client had room. -/
theorem connect_refused_or_room (hm : IsBusMsg busMsgClientConnectReq 4 msg)
    (h : heciConnectHost P msg s = some s') :
    ConnectRefused P msg s s' ∨
      ∃ i, findClient (msg.byte 1) s = some i ∧ msg.byte 2 ≠ 0 ∧ HasRoom s i := by
  cases heciConnectHost_cases h with
  | ignored hlen => exact absurd hm.2.1 hlen
  | refused st hst =>
      left
      refine ⟨fun c => ?_, st, hst, ?_⟩
      · rw [busReply_eq, HeciDev.emit_connections]
        exact SameLife.refl _
      · rw [busReply_eq, HeciDev.emit_events]
  | noBuffer c hc =>
      left
      have ht : Tame s (s.setConn c { s.connections c with
          connectionId := UInt8.ofNat c
          rxBuffer := none }) :=
        Tame.setConn (Tame.refl s) (SameLife.mk rfl rfl rfl rfl rfl (Or.inl rfl))
      refine ⟨fun d => ?_, .rejected, by decide, ?_⟩
      · rw [busReply_eq, HeciDev.emit_connections]
        exact ht.connections d
      · rw [busReply_eq, HeciDev.emit_events, HeciDev.setConn_events]
  | opened i c p _ hi hhost hact hroom hc hp hl =>
      right
      exact ⟨i, hi, hhost, hact, hroom, by rw [hc]; rfl, rxFree_iff.2 ⟨p, hp, hl⟩⟩

end connect

/-! ### Runs -/

theorem addrUnique_effect {P : Platform} {l : Call} {s s' : HeciDev} (hT : TableInv s)
    (h : AddrUnique s) (hd : NoDuplicate s l) (he : Effect P l s s') : AddrUnique s' := by
  cases he with
  | tame _ ht => exact h.tame ht
  | reset _ ht hT₁ ht' => exact ((h.tame ht).reset hT₁).tame ht'
  | opened msg i c p hl hm hi hhost hact hroom hc hp hlock ht =>
      refine AddrUnique.tame (AddrUnique.log (h.opened fun d hused hb => ?_)) ht
      -- the client of the other connection is the one that has room
      obtain ⟨j, hj, -⟩ := (hT.conns d).used hused
      have hij : i = j := hT.findClient_eq hused hj (hb.1 ▸ hi)
      subst hij hl
      exact hd hm hhost d i hused hb hj ⟨hact, hroom, by rw [hc]; rfl, rxFree_iff.2 ⟨p, hp, hlock⟩⟩
  | closed msg c _ _ hopen _ =>
      exact AddrUnique.log (AddrUnique.setConn h fun _ => ⟨hopen.ne_unused, rfl, rfl⟩)
  | unknown msg _ _ =>
      refine h.of_sameAddr fun c => ?_
      rw [busReply_eq, HeciDev.emit_connections]
      exact (SameLife.refl _).sameAddr
  | @freed s₁ _ c i _ _ _ ht _ ht' =>
      refine AddrUnique.tame ?_ ht'
      have hio := ioStep_respondDisconnect P c s₁
      have h₂ : AddrUnique (respondDisconnect P c s₁) := by
        refine (h.tame ht).of_sameAddr fun d => ?_
        rw [hio.connections]
        exact (SameLife.refl _).sameAddr
      exact AddrUnique.log (AddrUnique.setConn h₂ fun hu => absurd rfl hu)

theorem noDuplicate_enter {s : HeciDev} {l : Call} :
    NoDuplicate (enter l s) l ↔ NoDuplicate s l := by
  cases l with
  | send _ _ => exact Iff.rfl
  | op o => cases o <;> exact Iff.rfl

theorem addrUnique_enter {s : HeciDev} {l : Call} (h : AddrUnique s) : AddrUnique (enter l s) := by
  cases l with
  | send _ _ => exact h
  | op o => cases o <;> exact h

/-- A request that breaks the discipline opens a second connection with the addresses of the
first. -/
theorem not_addrUnique_of_duplicate {P : Platform} {l : Call} {s s' : HeciDev} (hT : TableInv s)
    (hd : ¬ NoDuplicate s l) (hst : step P l s = some s') : ¬ AddrUnique s' := by
  unfold NoDuplicate at hd
  split at hd
  case h_2 => exact absurd trivial hd
  next msg =>
  push Not at hd
  obtain ⟨hm, hhost, c, i, hused, hb, hi, hroom⟩ := hd
  have hfind : findClient (msg.byte 1) s = some i := by
    cases hf : findClient (msg.byte 1) s with
    | none =>
        obtain ⟨j, -, -, hfw, -⟩ := (hT.conns c).used hused
        exact absurd (hfw.symm.trans hb.1) (findClient_none hf j)
    | some j =>
        have hji : j = i := hT.findClient_eq hused hi (hb.1 ▸ hf)
        rw [hji]
  rw [step_connect hm] at hst
  obtain ⟨d, p, hidle, hopen⟩ := heciConnectHost_of_room (P := P) (s := s.log (.recv msg)) hm.2.1
    hfind hhost hroom
  rw [hopen] at hst
  cases hst
  have hdc : c ≠ d := fun he => hused (he ▸ findIdleConn_some hidle)
  have hconn : (busReply P (connRespBytes (msg.byte 1) (msg.byte 2) .success)
      (openConn d i p (msg.byte 1) (msg.byte 2) (lockRx p (s.log (.recv msg))))).connections =
      Function.update s.connections d (connectedConn (s.connections d) d i (s.clients i).properties
        (msg.byte 1) (msg.byte 2) p) := by
    rw [busReply_eq]
    rfl
  intro hu
  refine hdc (hu c d ?_ ?_ ?_)
  · rw [hconn, Function.update_of_ne hdc]
    exact hused
  · rw [hconn, Function.update_self]
    show connStateOpen ≠ connStateUnused
    decide
  · rw [hconn, Function.update_self, Function.update_of_ne hdc, hb.1, hb.2]
    exact ⟨rfl, rfl⟩

/-- **A step keeps the addresses unique exactly when it keeps the discipline.** -/
theorem addrUnique_step_iff {P : Platform} {l : Call} {s s' : HeciDev} (hT : TableInv s)
    (h : AddrUnique s) (hst : step P l s = some s') : AddrUnique s' ↔ NoDuplicate s l := by
  constructor
  · intro hu
    by_contra hd
    exact not_addrUnique_of_duplicate hT hd hst hu
  · intro hd
    exact addrUnique_effect (hT.enter l) (addrUnique_enter h) (noDuplicate_enter.2 hd)
      (step_effect hT hst)

/-- **In every disciplined run the addresses are unique**: a search finds the connection that is
meant, and a request for addresses in use is refused; and the first step that breaks the discipline
breaks the uniqueness. -/
theorem addrUnique_of_disciplined {P : Platform} {s : HeciDev}
    (h : Lts.Reach HeciDev.Initial (step P) NoDuplicate s) :
    AddrUnique s ∧
      (∀ c bits, (s.connections c).has bits = true →
        heciFindConn (s.connections c).fwAddr (s.connections c).hostAddr bits s = some c) ∧
      (∀ msg s' c, IsBusMsg busMsgClientConnectReq 4 msg → NoDuplicate s (.op (.recv msg)) →
        (s.connections c).state ≠ connStateUnused →
        Between (s.connections c) (msg.byte 1) (msg.byte 2) →
        step P (.op (.recv msg)) s = some s' → ConnectRefused P msg (s.log (.recv msg)) s') ∧
      ∀ l s', step P l s = some s' → (AddrUnique s' ↔ NoDuplicate s l) := by
  have hI : TableInv s ∧ AddrUnique s := by
    refine h.invariant (I := fun s => TableInv s ∧ AddrUnique s) ?_ ?_
    · intro s hs
      refine ⟨tableInv_initial hs, fun c d hc => ?_⟩
      rw [hs.connections c] at hc
      exact absurd rfl hc
    · intro s l s' hs hd hst
      exact ⟨(keeps_tableInv P).step hs.1 hst, (addrUnique_step_iff hs.1 hs.2 hst).2 hd⟩
  refine ⟨hI.2, fun c bits hbits => hI.2.heciFindConn_eq hbits, ?_,
    fun l s' hst => addrUnique_step_iff hI.1 hI.2 hst⟩
  intro msg s' c hm hd hused hb hst
  rw [step_connect hm] at hst
  rcases connect_refused_or_room hm hst with href | ⟨i, hi, hhost, hroom⟩
  · exact href
  · obtain ⟨j, hj, -⟩ := (hI.1.conns c).used hused
    have hij : i = j := hI.1.findClient_eq hused hj (hb.1 ▸ hi)
    subst hij
    exact absurd hroom (hd hm hhost c i hused hb hj)

/-- A client with two connections that is connected twice, with different addresses. -/
theorem addrUnique_two_hosts :
    ∃ s, Lts.Reach HeciDev.Initial (step Platform.nominal) NoDuplicate s ∧
      (s.connections 0).hostAddr = 7 ∧ (s.connections 1).hostAddr = 8 ∧ AddrUnique s := by
  obtain ⟨s, hs, h₀, h₁⟩ := exists_disciplined Platform.nominal NoDuplicate
    (connectCalls (plainClient 1 0 4096 2) 7 ++ ([.op (.sendFlowControl 0),
      busCall [busMsgClientConnectReq, 32, 8, 0]] : List Call))
    (fun s => (s.connections 0).hostAddr = 7 ∧ (s.connections 1).hostAddr = 8) (by decide +kernel)
  exact ⟨s, hs, h₀, h₁, (addrUnique_of_disciplined hs).1⟩

/-- A client with two connections is connected twice with the same addresses, as soon as it has
given back the buffer of the first connection. -/
theorem not_addrUnique_double :
    ∃ s, Reachable Platform.nominal s ∧ (s.connections 0).state = connStateOpen ∧
      (s.connections 1).state = connStateOpen ∧ ¬ AddrUnique s := by
  obtain ⟨s, hs, h⟩ := exists_reachable Platform.nominal
    (connectCalls (plainClient 1 0 4096 2) 7 ++ ([.op (.sendFlowControl 0),
      busCall [busMsgClientConnectReq, 32, 7, 0]] : List Call))
    (fun s => (s.connections 0).state = connStateOpen ∧ (s.connections 1).state = connStateOpen ∧
      ¬ AddrUnique s) (by decide +kernel)
  exact ⟨s, hs, h⟩

end PseFw.Heci
