/-
**The effect of a call on the lives of the connections.**

Most of what the layer does leaves every connection where it was in its life: fragments are copied,
buffers change hands, credit comes and goes.  Such a step is called *tame* here.  What remains are
five effects: a reset, the opening of a connection, a disconnect request for a known and for an
unknown connection, and the end of a disconnection.

Main definitions:

* `PseFw.Heci.SameLife` — two entries at the same point of the same life;
* `PseFw.Heci.Tame` — a step that leaves every connection at its point, and says nothing to the
  trace that matters for it;
* `PseFw.Heci.Effect` — the effects.

Main results:

* `PseFw.Heci.step_effect` — **every call has one of the effects**.
-/

import PseFw.Heci.Cases

set_option relaxedAutoImplicit false
set_option autoImplicit false

namespace PseFw.Heci

/-! ### Tame steps -/

/-- The two entries are at the same point of the same life. -/
structure SameLife (x y : HeciConn) : Prop where
  client : y.client = x.client
  fwAddr : y.fwAddr = x.fwAddr
  hostAddr : y.hostAddr = x.hostAddr
  eventCb : y.eventCb = x.eventCb
  param : y.param = x.param
  state : y.state = x.state ∨ IsOpen x ∧ IsOpen y

namespace SameLife

variable {x y z : HeciConn}

theorem refl (x : HeciConn) : SameLife x x := ⟨rfl, rfl, rfl, rfl, rfl, Or.inl rfl⟩

theorem isOpen_iff (h : SameLife x y) : IsOpen y ↔ IsOpen x := by
  rcases h.state with hs | ⟨hx, hy⟩
  · unfold IsOpen
    rw [hs]
  · exact ⟨fun _ => hx, fun _ => hy⟩

theorem trans (h : SameLife x y) (h' : SameLife y z) : SameLife x z := by
  refine ⟨h'.client.trans h.client, h'.fwAddr.trans h.fwAddr, h'.hostAddr.trans h.hostAddr,
    h'.eventCb.trans h.eventCb, h'.param.trans h.param, ?_⟩
  rcases h'.state with hs' | ⟨hy, hz⟩
  · rcases h.state with hs | ⟨hx, hy⟩
    · exact Or.inl (hs'.trans hs)
    · refine Or.inr ⟨hx, ?_⟩
      unfold IsOpen
      rw [hs']
      exact hy
  · exact Or.inr ⟨h.isOpen_iff.1 hy, hz⟩

/-- Outside the two open states the state is the same. -/
theorem state_iff (h : SameLife x y) {n : UInt8} (hn : n ≠ 1 ∧ n ≠ 3) :
    y.state = n ↔ x.state = n := by
  rcases h.state with hs | ⟨hx, hy⟩
  · rw [hs]
  · constructor
    · intro hy'
      rcases hy with h1 | h1
      · exact absurd (hy'.symm.trans h1) hn.1
      · exact absurd (hy'.symm.trans h1) hn.2
    · intro hx'
      rcases hx with h1 | h1
      · exact absurd (hx'.symm.trans h1) hn.1
      · exact absurd (hx'.symm.trans h1) hn.2

end SameLife

/-- No state is shown by two kinds of lives. -/
theorem state_disjoint {x : HeciConn} (h : x.state = 4 ∨ x.state = 20) :
    ¬ IsOpen x ∧ x.state ≠ connStateUnused := by
  unfold IsOpen
  rcases h with hs | hs <;> rw [hs] <;> decide

theorem IsOpen.ne_unused {x : HeciConn} (h : IsOpen x) : x.state ≠ connStateUnused := by
  rcases h with hs | hs <;> rw [hs] <;> decide

/-- The events that say nothing about the life of a connection. -/
def Event.Quiet : Event → Prop
  | .recv _ | .reset | .opened _ _ | .freed _ => False
  | .notify _ _ _ event => event = .newMsg
  | .ipcWrite _ msg _ _ => NotDisconnResp msg
  | _ => True

/-- **A step that leaves every connection at its point of its life.** -/
structure Tame (s s' : HeciDev) : Prop where
  clients : ∀ i, (s.clients i).clientAddr ≠ 0 →
    (s'.clients i).clientAddr = (s.clients i).clientAddr ∧
    (s'.clients i).properties = (s.clients i).properties
  connections : ∀ c, SameLife (s.connections c) (s'.connections c)
  events : ∃ evs, s'.events = s.events ++ evs ∧ ∀ e ∈ evs, e.Quiet

namespace Tame

variable {s s' s'' : HeciDev}

theorem refl (s : HeciDev) : Tame s s :=
  ⟨fun _ _ => ⟨rfl, rfl⟩, fun _ => SameLife.refl _, [], by simp, by simp⟩

theorem trans (h : Tame s s') (h' : Tame s' s'') : Tame s s'' := by
  refine ⟨?_, fun c => (h.connections c).trans (h'.connections c), ?_⟩
  · intro i hi
    obtain ⟨ha, hp⟩ := h.clients i hi
    obtain ⟨ha', hp'⟩ := h'.clients i (by rw [ha]; exact hi)
    exact ⟨ha'.trans ha, hp'.trans hp⟩
  · obtain ⟨evs, he, hev⟩ := h.events
    obtain ⟨evs', he', hev'⟩ := h'.events
    refine ⟨evs ++ evs', by rw [he', he, List.append_assoc], ?_⟩
    intro e hmem
    rcases List.mem_append.1 hmem with hmem | hmem
    · exact hev e hmem
    · exact hev' e hmem

/-- The tables hardly change and the trace not at all. -/
theorem of_eq (hcl : ∀ i, (s.clients i).clientAddr ≠ 0 →
      (s'.clients i).clientAddr = (s.clients i).clientAddr ∧
      (s'.clients i).properties = (s.clients i).properties)
    (hco : ∀ c, SameLife (s.connections c) (s'.connections c)) (hev : s'.events = s.events) :
    Tame s s' :=
  ⟨hcl, hco, [], by simp [hev], by simp⟩

theorem log {e : Event} (h : Tame s s') (he : e.Quiet) : Tame s (s'.log e) :=
  h.trans ⟨fun _ _ => ⟨rfl, rfl⟩, fun _ => SameLife.refl _, [e], rfl, by simpa using he⟩

theorem io (h : Tame s s') (hio : IoStep NotDisconnResp s' s'') : Tame s s'' := by
  obtain ⟨evs, he, hev⟩ := hio.events
  refine h.trans ⟨fun i _ => by rw [hio.clients]; exact ⟨rfl, rfl⟩,
    fun c => by rw [hio.connections]; exact SameLife.refl _, evs, he, fun e hmem => ?_⟩
  cases hev e hmem with
  | hostAccessReq r => exact trivial
  | hostAccessDereq r => exact trivial
  | write r hf => exact hf

theorem setConn {c : ConnId} {x : HeciConn} (h : Tame s s')
    (hx : SameLife (s'.connections c) x) : Tame s (s'.setConn c x) := by
  refine h.trans (of_eq (fun _ _ => ⟨rfl, rfl⟩) (fun d => ?_) rfl)
  rw [HeciDev.setConn_connections]
  by_cases hd : d = c
  · subst hd
    rw [Function.update_self]
    exact hx
  · rw [Function.update_of_ne hd]
    exact SameLife.refl _

theorem setClient {i : ClientId} {x : HeciClientCtrl} (h : Tame s s')
    (ha : x.clientAddr = (s'.clients i).clientAddr)
    (hp : x.properties = (s'.clients i).properties) : Tame s (s'.setClient i x) := by
  refine h.trans (of_eq (fun j _ => ?_) (fun _ => SameLife.refl _) rfl)
  rw [HeciDev.setClient_clients]
  by_cases hj : j = i
  · subst hj
    rw [Function.update_self]
    exact ⟨ha, hp⟩
  · rw [Function.update_of_ne hj]
    exact ⟨rfl, rfl⟩

theorem setRx {p : RxPtr} {x : HeciRxMsg} (h : Tame s s') : Tame s (s'.setRx p x) :=
  h.trans (of_eq (fun _ _ => ⟨rfl, rfl⟩) (fun _ => SameLife.refl _) rfl)

theorem setSem {c : ConnId} {n : ℕ} (h : Tame s s') : Tame s (s'.setSem c n) :=
  h.trans (of_eq (fun _ _ => ⟨rfl, rfl⟩) (fun _ => SameLife.refl _) rfl)

end Tame

/-! ### Registered clients -/

/-- The client was registered. -/
def Registered (s : HeciDev) (i : ClientId) : Prop := (s.clients i).clientAddr ≠ 0

/-- What the registered clients look like does not change. -/
def KeepsClients (s s' : HeciDev) : Prop :=
  ∀ i, Registered s i → Registered s' i ∧ (s'.clients i).properties = (s.clients i).properties

theorem Tame.keepsClients {s s' : HeciDev} (h : Tame s s') : KeepsClients s s' := by
  intro i hi
  obtain ⟨ha, hp⟩ := h.clients i hi
  exact ⟨fun h0 => hi (ha ▸ h0), hp⟩

theorem keepsClients_of_eq {s s' : HeciDev} (h : s'.clients = s.clients) : KeepsClients s s' := by
  intro i hi
  unfold Registered
  rw [h]
  exact ⟨hi, rfl⟩

theorem keepsClients_update {s s' : HeciDev} {i : ClientId} {n : UInt8}
    (h : s'.clients = Function.update s.clients i { s.clients i with nOfConns := n }) :
    KeepsClients s s' := by
  intro j hj
  unfold Registered
  rw [h]
  by_cases hji : j = i
  · subst hji
    rw [Function.update_self]
    exact ⟨hj, rfl⟩
  · rw [Function.update_of_ne hji]
    exact ⟨hj, rfl⟩

theorem registered_of_room {s : HeciDev} (hT : TableInv s) {i : ClientId}
    (hroom : (s.clients i).nOfConns ≠ (s.clients i).properties.maxNOfConnections) :
    Registered s i :=
  hT.clientAddr_ne_zero hroom

/-! ### Tame operations -/

/-- A connection moves between its open states, and its buffer changes. -/
theorem SameLife.of_open {x : HeciConn} {st : UInt8} (hx : IsOpen x) (hst : st = 1 ∨ st = 3)
    (rx : Option RxPtr) : SameLife x { x with state := st, rxBuffer := rx } :=
  ⟨rfl, rfl, rfl, rfl, rfl, Or.inr ⟨hx, hst⟩⟩

theorem tame_accept {s s₁ : HeciDev} {c : ConnId} {i : ClientId} {p : RxPtr}
    (h : AcceptCase s c i p s₁) : Tame s s₁ ∧ (s₁.connections c).state = 3 := by
  cases h with
  | first hst _ _ =>
      refine ⟨Tame.setRx (Tame.setConn (Tame.refl s) ?_), by simp⟩
      exact SameLife.of_open (Or.inl hst) (Or.inr rfl) _
  | next hst _ => exact ⟨Tame.refl s, hst⟩

theorem tame_copy {P : Platform} {s s₂ : HeciDev} {c : ConnId} {i : ClientId} {p : RxPtr}
    {data : List UInt8} (hst : (s.connections c).state = 3) (h : CopyCase P s c i p data s₂) :
    Tame s s₂ ∧ IsOpen (s₂.connections c) := by
  cases h with
  | oversize _ =>
      have herr : Tame s (heciConnectionError P c s) :=
        Tame.io (Tame.refl s) (ioStep_busReply P (by decide) s)
      have hconn : (heciConnectionError P c s).connections = s.connections := by
        simp [heciConnectionError]
      refine ⟨Tame.setConn (Tame.setRx herr) ?_, by simp [IsOpen]⟩
      rw [HeciDev.setRx_connections, hconn]
      exact SameLife.of_open (Or.inr hst) (Or.inl rfl) _
  | copied b _ _ => exact ⟨Tame.setRx (Tame.refl s), Or.inr hst⟩

theorem tame_finish {s : HeciDev} {c : ConnId} (h : IsOpen (s.connections c)) :
    Tame s (finishFragment c s) := by
  have hst : (s.connections c).state &&& ~~~ connStateProcessingMsg = 1 := by
    rcases h with h | h <;> rw [h] <;> decide
  unfold finishFragment heciNotifyClient
  rw [hst]
  exact Tame.log (Tame.setConn (Tame.refl s) (SameLife.of_open h (Or.inl rfl) _)) rfl

/-- Fragments are tame. -/
theorem tame_fragment {P : Platform} {msg : HeciBusMsg} {s s' : HeciDev} {c : ConnId}
    (h : FragmentCase P msg s c s') : Tame s s' := by
  have hlog : Tame s (s.log (.fragment c msg.payload msg.hdr.lastFrag)) :=
    Tame.log (Tame.refl s) trivial
  cases h with
  | refused i p hst _ _ _ =>
      exact Tame.setConn hlog (SameLife.mk rfl rfl rfl rfl rfl (Or.inl rfl))
  | taken i p s₁ s₂ _ hacc hcopy =>
      obtain ⟨h₁, hst₁⟩ := tame_accept hacc
      obtain ⟨h₂, hopen₂⟩ := tame_copy hst₁ hcopy
      have h₁₂ := (hlog.trans h₁).trans h₂
      split
      · exact h₁₂.trans (tame_finish hopen₂)
      · exact h₁₂

/-- A registration fills a free entry. -/
theorem tame_register {s : HeciDev} {i : ClientId} (hi : findClient 0 s = some i)
    (client : HeciClient) :
    Tame s ({ s with registeredClients := s.registeredClients + 1 }.setClient i
      (registeredClient i client)) := by
  refine Tame.of_eq (fun j hj => ?_) (fun _ => SameLife.refl _) rfl
  have hji : j ≠ i := fun he => hj (he ▸ findClient_some hi)
  simp [Function.update_of_ne hji]

/-- Once the entry is filled in, the rest of a connect request is tame. -/
theorem tame_openConn (c : ConnId) (i : ClientId) (p : RxPtr) (f h : UInt8) (s : HeciDev) :
    Tame ((s.setConn c (connectedConn (s.connections c) c i (s.clients i).properties f h p)).log
      (.opened c i)) (openConn c i p f h (lockRx p s)) := by
  unfold openConn heciNotifyClient
  dsimp only
  refine Tame.log (Tame.of_eq (fun j _ => ?_) (fun d => ?_) rfl) rfl
  · by_cases hj : j = i
    · subst hj
      simp [lockRx]
    · simp [lockRx, hj]
  · exact SameLife.refl _

/-- Sending is tame. -/
theorem tame_send {s s' : HeciDev} {c : ConnId} (h : SendCase s c s') : Tame s s' := by
  cases h with
  | refused => exact Tame.refl s
  | timedOut n _ _ =>
      exact Tame.setSem (Tame.setConn (Tame.refl s) (SameLife.mk rfl rfl rfl rfl rfl (Or.inl rfl)))
  | written s₁ s₂ sent _ _ hs₁ hio =>
      have h₁ : Tame s s₁ := by
        rcases hs₁ with rfl | rfl
        · exact Tame.refl _
        · exact Tame.log (Tame.refl s) trivial
      have h₂ := Tame.io h₁ hio
      cases sent with
      | false => exact h₂
      | true =>
          exact Tame.setConn (Tame.log h₂ trivial) (SameLife.mk rfl rfl rfl rfl rfl (Or.inl rfl))

/-! ### The effects -/

/-- The call hands over a well-formed disconnect request. -/
def IsRequest (l : Call) : Prop := ∃ msg, l = .op (.recv msg) ∧ IsDisconnReq msg

/-- The state in which a call starts: a frame is in the trace first. -/
def enter (l : Call) (s : HeciDev) : HeciDev :=
  match l with
  | .op (.recv msg) => s.log (.recv msg)
  | _ => s

theorem TableInv.enter {s : HeciDev} (h : TableInv s) (l : Call) : TableInv (enter l s) := by
  unfold Heci.enter
  split
  · exact h.log _
  · exact h

/-- **The effects of a call.** -/
inductive Effect (P : Platform) (l : Call) (s : HeciDev) : HeciDev → Prop
  | tame {s' : HeciDev} : ¬ IsRequest l → Tame s s' → Effect P l s s'
  | reset {s₁ s' : HeciDev} : ¬ IsRequest l → Tame s s₁ → TableInv s₁ → Tame (heciReset s₁) s' →
      Effect P l s s'
  | opened {s' : HeciDev} (msg : HeciBusMsg) (i : ClientId) (c : ConnId) (p : RxPtr) :
      l = .op (.recv msg) → IsBusMsg busMsgClientConnectReq 4 msg →
      findClient (msg.byte 1) s = some i → msg.byte 2 ≠ 0 → (s.clients i).active = true →
      (s.clients i).nOfConns ≠ (s.clients i).properties.maxNOfConnections →
      findIdleConn s = some c → (s.clients i).properties.rxMsg = some p →
      (s.rxMsgs p).msgLock = false →
      Tame ((s.setConn c (connectedConn (s.connections c) c i (s.clients i).properties (msg.byte 1)
        (msg.byte 2) p)).log (.opened c i)) s' → Effect P l s s'
  | closed (msg : HeciBusMsg) (c : ConnId) : l = .op (.recv msg) → IsDisconnReq msg →
      IsOpen (s.connections c) → Between (s.connections c) (msg.byte 1) (msg.byte 2) →
      Effect P l s ((s.setConn c { s.connections c with
        state := connStateDisconnecting ||| connStateSendDisconnectResp }).log
          (disconnEvent s.connections c))
  | unknown (msg : HeciBusMsg) : l = .op (.recv msg) → IsDisconnReq msg →
      Effect P l s (busReply P (disconnRespBytes (msg.byte 1) (msg.byte 2) .clientNotFound) s)
  | freed {s₁ s' : HeciDev} (c : ConnId) (i : ClientId) : l = .op (.completeDisconnect c) →
      ((s.connections c).state = 4 ∨ (s.connections c).state = 20) →
      (s.connections c).client = some i → Tame s s₁ → s₁.connections = s.connections →
      Tame (((respondDisconnect P c s₁).setConn c HeciConn.zero).log (.freed c)) s' →
      Effect P l s s'

theorem effect_recv {P : Platform} {msg : HeciBusMsg} {s s' : HeciDev} (hT : TableInv s)
    (h : RecvCase P msg s s') : Effect P (.op (.recv msg)) s s' := by
  have hreq : ¬ IsDisconnReq msg → ¬ IsRequest (.op (.recv msg)) := by
    rintro hm ⟨msg', he, hm'⟩
    cases he
    exact hm hm'
  cases h with
  | quiet hm hio => exact Effect.tame (hreq hm) (Tame.io (Tame.refl s) hio)
  | stop hm _ _ =>
      exact Effect.reset (hreq hm) (Tame.log (e := .fwstIlupHost false) (Tame.refl s) trivial)
        (hT.log _) (Tame.io (Tame.refl _) (ioStep_busReply P (by decide) _))
  | flags act b hm hio =>
      refine Effect.tame (hreq hm) (Tame.io ?_ hio)
      exact Tame.of_eq (fun _ _ => ⟨rfl, rfl⟩) (fun _ => SameLife.refl _) rfl
  | noBuffer c hm _ hio =>
      refine Effect.tame (hreq hm) (Tame.io (Tame.setConn (Tame.refl s) ?_) hio)
      exact SameLife.mk rfl rfl rfl rfl rfl (Or.inl rfl)
  | opened i c p hm hi hhost hact hroom hc hp hl =>
      refine Effect.opened msg i c p rfl hm hi hhost hact hroom hc hp hl ?_
      refine Tame.io (tame_openConn c i p _ _ s) (ioStep_busReply P (by decide) _)
  | closed c hm _ hopen hbetween =>
      have he : ∀ st,
          heciNotifyClient c .disconn (s.setConn c { s.connections c with state := st }) =
          (s.setConn c { s.connections c with state := st }).log
            (disconnEvent s.connections c) := by
        intro st
        simp [heciNotifyClient, disconnEvent]
      rw [he]
      exact Effect.closed msg c rfl hm hopen hbetween
  | unknown hm => exact Effect.unknown msg rfl hm
  | granted c n hm _ _ _ =>
      refine Effect.tame (hreq (not_isDisconnReq hm.2.2 (by decide))) ?_
      exact Tame.setSem (Tame.log (Tame.setConn (Tame.refl s)
        (SameLife.mk rfl rfl rfl rfl rfl (Or.inl rfl))) trivial)
  | creditReset c hm _ _ _ =>
      refine Effect.tame (hreq (not_isDisconnReq hm.2.2 (by decide))) ?_
      refine Tame.io ?_ (ioStep_busReply P (by decide) _)
      exact Tame.log (Tame.setConn (Tame.refl s) (SameLife.mk rfl rfl rfl rfl rfl (Or.inl rfl)))
        trivial
  | fragment c hfw _ hcase => exact Effect.tame (hreq fun hm => hfw hm.1) (tame_fragment hcase)

theorem not_isRequest {l : Call} (h : ∀ msg, l ≠ .op (.recv msg)) : ¬ IsRequest l := by
  rintro ⟨msg, he, -⟩
  exact h msg he

/-- Once the entry is cleared, the rest of a completion is tame. -/
theorem tame_freeConn (c : ConnId) (i : ClientId) (s : HeciDev) :
    Tame ((s.setConn c HeciConn.zero).log (.freed c)) (freeConn c i s) := by
  have h : Tame ((s.setConn c HeciConn.zero).log (.freed c))
      ((((s.setConn c HeciConn.zero).log (.freed c)).setClient i { s.clients i with
        nOfConns := (s.clients i).nOfConns - 1 }).log (.creditReset c)) :=
    Tame.log (Tame.setClient (Tame.refl _) rfl rfl) trivial
  have he : freeConn c i s =
      (((s.setConn c HeciConn.zero).log (.freed c)).setClient i { s.clients i with
        nOfConns := (s.clients i).nOfConns - 1 }).log (.creditReset c) := by
    simp [freeConn, HeciDev.emit, HeciDev.log, HeciDev.setClient, HeciDev.setConn]
  rw [he]
  exact h

theorem effect_op {P : Platform} {o : Op} {s s' : HeciDev} (hT : TableInv s)
    (h : OpCase P s o s') : Effect P (.op o) (enter (.op o) s) s' := by
  cases h with
  | recv hr => exact effect_recv (hT.log _) hr
  | refused ho =>
      have henter : enter (.op o) s = s := by
        unfold enter
        split
        · next msg he =>
            cases he
            exact absurd rfl (ho msg)
        · rfl
      rw [henter]
      refine Effect.tame (not_isRequest fun msg he => ?_) (Tame.refl s)
      cases he
      exact ho msg rfl
  | registered i client p ho hi _ _ _ _ hio =>
      subst ho
      exact Effect.tame (not_isRequest nofun) (Tame.io (tame_register hi client) hio)
  | reset => exact Effect.reset (not_isRequest nofun) (Tame.refl s) hT (Tame.refl _)
  | flowControl c ho _ _ hio =>
      subst ho
      exact Effect.tame (not_isRequest nofun) (Tame.io (Tame.refl s) hio)
  | release c p ho _ _ hio =>
      subst ho
      refine Effect.tame (not_isRequest nofun) (Tame.io ?_ hio)
      exact Tame.setConn (Tame.setRx (Tame.refl s)) (SameLife.mk rfl rfl rfl rfl rfl (Or.inl rfl))
  | freed c i ho hst hi =>
      subst ho
      have hrel : Tame s (releaseRx c s) := by
        unfold releaseRx
        split
        · exact Tame.refl s
        · exact Tame.setRx (Tame.refl s)
      exact Effect.freed c i rfl hst hi hrel (releaseRx_connections c s) (tame_freeConn c i _)

/-- **Every call has one of the effects.** -/
theorem step_effect {P : Platform} {l : Call} {s s' : HeciDev} (hT : TableInv s)
    (h : step P l s = some s') : Effect P l (enter l s) s' := by
  cases l with
  | op o => exact effect_op hT (opStep_cases hT h)
  | send c msg =>
      obtain ⟨r, hr, rfl⟩ := Option.map_eq_some_iff.1 h
      exact Effect.tame (not_isRequest nofun) (tame_send (heciSend_cases hT hr))

end PseFw.Heci
