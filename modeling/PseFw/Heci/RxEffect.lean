/-
**The effect of a call on the receive buffers.**

A client lends the layer one receive buffer.  It is locked when a connection is opened and when the
first fragment of a message arrives; the connection then points to it, and flow control or the end
of a disconnection unlock it again.  Everything else leaves the buffers, the pointers to them, and
the connections in use alone.

Main definitions:

* `PseFw.Heci.RxQuiet` — a step that leaves the receive buffers and the pointers to them alone;
* `PseFw.Heci.RxEffect` — the effects.

Main results:

* `PseFw.Heci.step_rxEffect` — **every call has one of the effects**.
-/

import PseFw.Heci.Effect

set_option relaxedAutoImplicit false
set_option autoImplicit false

namespace PseFw.Heci

/-! ### Quiet steps -/

/-- The connection is in use. -/
abbrev Used (x : HeciConn) : Prop := x.state ≠ connStateUnused

/-- The events that have nothing to do with messages to a client. -/
def Event.Silent : Event → Prop
  | .fragment _ _ _ | .opened _ _ => False
  | .notify _ _ _ event => event = .disconn
  | _ => True

/-- What a step may do to a connection without touching its buffer: a connection in use stays in use
and keeps its client and its pointer, and does not begin a message. -/
structure SameRx (x y : HeciConn) : Prop where
  used : Used y ↔ Used x
  client : Used x → y.client = x.client
  rxBuffer : Used x → y.rxBuffer = x.rxBuffer
  processing : y.state = 3 → x.state = 3

theorem SameRx.refl (x : HeciConn) : SameRx x x := ⟨Iff.rfl, fun _ => rfl, fun _ => rfl, id⟩

theorem SameRx.trans {x y z : HeciConn} (h : SameRx x y) (h' : SameRx y z) : SameRx x z :=
  ⟨h'.used.trans h.used, fun hx => (h'.client (h.used.2 hx)).trans (h.client hx),
    fun hx => (h'.rxBuffer (h.used.2 hx)).trans (h.rxBuffer hx),
    fun hz => h.processing (h'.processing hz)⟩

/-- **A step that leaves the receive buffers and the pointers to them alone.** -/
structure RxQuiet (s s' : HeciDev) : Prop where
  rxMsgs : s'.rxMsgs = s.rxMsgs
  clients : KeepsClients s s'
  connections : ∀ c, SameRx (s.connections c) (s'.connections c)
  events : ∃ evs, s'.events = s.events ++ evs ∧ ∀ e ∈ evs, e.Silent

namespace RxQuiet

variable {s s' s'' : HeciDev}

theorem refl (s : HeciDev) : RxQuiet s s :=
  ⟨rfl, fun _ hi => ⟨hi, rfl⟩, fun _ => SameRx.refl _, [], by simp, by simp⟩

theorem trans (h : RxQuiet s s') (h' : RxQuiet s' s'') : RxQuiet s s'' := by
  refine ⟨h'.rxMsgs.trans h.rxMsgs, fun i hi => ?_,
    fun c => (h.connections c).trans (h'.connections c), ?_⟩
  · obtain ⟨hr, hp⟩ := h.clients i hi
    obtain ⟨hr', hp'⟩ := h'.clients i hr
    exact ⟨hr', hp'.trans hp⟩
  · obtain ⟨evs, he, hev⟩ := h.events
    obtain ⟨evs', he', hev'⟩ := h'.events
    refine ⟨evs ++ evs', by rw [he', he, List.append_assoc], ?_⟩
    intro e hmem
    rcases List.mem_append.1 hmem with hmem | hmem
    · exact hev e hmem
    · exact hev' e hmem

/-- Only fields change that have nothing to do with the buffers. -/
theorem of_eq (hrx : s'.rxMsgs = s.rxMsgs) (hcl : KeepsClients s s')
    (hco : ∀ c, SameRx (s.connections c) (s'.connections c)) (hev : s'.events = s.events) :
    RxQuiet s s' :=
  ⟨hrx, hcl, hco, [], by simp [hev], by simp⟩

theorem log {e : Event} (h : RxQuiet s s') (he : e.Silent) : RxQuiet s (s'.log e) :=
  h.trans ⟨rfl, fun _ hi => ⟨hi, rfl⟩, fun _ => SameRx.refl _, [e], rfl, by simpa using he⟩

theorem io {W : HeciBusMsg → Prop} (h : RxQuiet s s') (hio : IoStep W s' s'') : RxQuiet s s'' := by
  obtain ⟨evs, he, hev⟩ := hio.events
  refine h.trans ⟨hio.rxMsgs, keepsClients_of_eq hio.clients,
    fun c => by rw [hio.connections]; exact SameRx.refl _, evs, he, fun e hmem => ?_⟩
  cases hev e hmem <;> exact trivial

theorem setConn {c : ConnId} {x : HeciConn} (h : RxQuiet s s') (hx : SameRx (s'.connections c) x) :
    RxQuiet s (s'.setConn c x) := by
  refine h.trans (of_eq rfl (fun _ hi => ⟨hi, rfl⟩) (fun d => ?_) rfl)
  rw [HeciDev.setConn_connections]
  by_cases hd : d = c
  · subst hd
    rw [Function.update_self]
    exact hx
  · rw [Function.update_of_ne hd]
    exact SameRx.refl _

theorem setSem {c : ConnId} {n : ℕ} (h : RxQuiet s s') : RxQuiet s (s'.setSem c n) :=
  h.trans (of_eq rfl (fun _ hi => ⟨hi, rfl⟩) (fun _ => SameRx.refl _) rfl)

end RxQuiet

/-- The state, the client and the pointer stay. -/
theorem SameRx.of_eq {x y : HeciConn} (hst : y.state = x.state) (hcl : y.client = x.client)
    (hrx : y.rxBuffer = x.rxBuffer) : SameRx x y := by
  refine ⟨?_, fun _ => hcl, fun _ => hrx, ?_⟩
  · unfold Used
    rw [hst]
  · rw [hst]
    exact id

/-- A connection in use is closed. -/
theorem SameRx.closed {x : HeciConn} (hx : Used x) {n : UInt8} (hn : n = 4 ∨ n = 20) :
    SameRx x { x with state := n } := by
  have hused : Used { x with state := n } := by
    rcases hn with rfl | rfl
    · show (4 : UInt8) ≠ 0
      decide
    · show (20 : UInt8) ≠ 0
      decide
  refine ⟨iff_of_true hused hx, fun _ => rfl, fun _ => rfl, fun h3 => ?_⟩
  have h3' : n = 3 := h3
  rcases hn with rfl | rfl
  · exact absurd h3' (by decide)
  · exact absurd h3' (by decide)

theorem rxQuiet_reset {s : HeciDev} (hT : TableInv s) : RxQuiet s (heciReset s) := by
  rw [heciReset_eq hT]
  refine ⟨rfl, fun _ hi => ⟨hi, rfl⟩, fun c => ?_, _, rfl, ?_⟩
  · show SameRx (s.connections c) (resetEntry (s.connections c))
    unfold resetEntry
    split
    · next h =>
        refine SameRx.closed ?_ (Or.inl rfl)
        rcases Bool.or_eq_true_iff.1 h with ho | hd
        · exact hT.used_of_open ho
        · exact (state_disjoint ((hT.conns c).disconnecting_iff.1 hd)).2
    · exact SameRx.refl _
  · intro e he
    rcases List.mem_cons.1 he with rfl | he
    · exact trivial
    · obtain ⟨c, -, rfl⟩ := List.mem_map.1 he
      exact rfl

/-! ### The effects -/

/-- The buffer of an open connection is given back. -/
def releaseOpen (c : ConnId) (p : RxPtr) (s : HeciDev) : HeciDev :=
  (s.setRx p { s.rxMsgs p with
    length := 0
    type := .request
    msgLock := false }).setConn c { s.connections c with rxBuffer := none }

/-- **The effects of a call on the receive buffers.** -/
inductive RxEffect (P : Platform) (l : Call) (s : HeciDev) : HeciDev → Prop
  | quiet {s' : HeciDev} : RxQuiet s s' → RxEffect P l s s'
  | opened {s' : HeciDev} (i : ClientId) (c : ConnId) (p : RxPtr) (f h : UInt8) :
      Registered s i → (s.connections c).state = connStateUnused →
      (s.clients i).properties.rxMsg = some p → (s.rxMsgs p).msgLock = false →
      RxQuiet (openConn c i p f h (lockRx p s)) s' → RxEffect P l s s'
  | fragment {s' : HeciDev} (msg : HeciBusMsg) (c : ConnId) : l = .op (.recv msg) →
      msg.hdr.fwAddr ≠ heciDriverAddress → fragmentConn msg s = some c →
      FragmentCase P msg s c s' → RxEffect P l s s'
  | release {s' : HeciDev} (c : ConnId) (p : RxPtr) : l = .op (.sendFlowControl c) →
      IsOpen (s.connections c) → (s.connections c).rxBuffer = some p →
      RxQuiet (releaseOpen c p s) s' → RxEffect P l s s'
  | freed (c : ConnId) (i : ClientId) : l = .op (.completeDisconnect c) →
      ((s.connections c).state = 4 ∨ (s.connections c).state = 20) →
      (s.connections c).client = some i →
      RxEffect P l s (freeConn c i (respondDisconnect P c (releaseRx c s)))

theorem rxEffect_recv {P : Platform} {msg : HeciBusMsg} {s s' : HeciDev} (hT : TableInv s)
    (h : RecvCase P msg s s') : RxEffect P (.op (.recv msg)) s s' := by
  have hquiet := RxQuiet.refl s
  cases h with
  | quiet _ hio => exact RxEffect.quiet (hquiet.io hio)
  | stop _ _ _ =>
      refine RxEffect.quiet (RxQuiet.io ?_ (IoStep.sendProtoMsg (W := fun _ => True) P trivial _))
      exact (RxQuiet.log (e := .fwstIlupHost false) hquiet trivial).trans (rxQuiet_reset (hT.log _))
  | flags act b _ hio =>
      refine RxEffect.quiet (RxQuiet.io ?_ hio)
      exact RxQuiet.of_eq rfl (fun _ hi => ⟨hi, rfl⟩) (fun _ => SameRx.refl _) rfl
  | noBuffer c _ hst hio =>
      refine RxEffect.quiet (RxQuiet.io (RxQuiet.setConn hquiet ?_) hio)
      refine ⟨Iff.rfl, fun hu => absurd hst hu, fun hu => absurd hst hu, fun h3 => h3⟩
  | opened i c p _ _ _ _ hroom hc hp hl =>
      refine RxEffect.opened i c p (msg.byte 1) (msg.byte 2) (registered_of_room hT hroom)
        (findIdleConn_some hc) hp hl ?_
      exact RxQuiet.io (RxQuiet.refl _) (ioStep_busReply P (by decide) _)
  | closed c _ _ hopen _ =>
      refine RxEffect.quiet (RxQuiet.log (RxQuiet.setConn hquiet ?_) rfl)
      exact SameRx.closed hopen.ne_unused (Or.inr rfl)
  | unknown _ =>
      exact RxEffect.quiet (hquiet.io (IoStep.sendProtoMsg (W := fun _ => True) P trivial s))
  | granted c n _ _ _ _ =>
      exact RxEffect.quiet (RxQuiet.setSem (RxQuiet.log (RxQuiet.setConn hquiet
        (SameRx.of_eq rfl rfl rfl)) trivial))
  | creditReset c _ _ _ _ =>
      refine RxEffect.quiet (RxQuiet.io ?_ (ioStep_busReply P (by decide) _))
      exact RxQuiet.log (RxQuiet.setConn hquiet (SameRx.of_eq rfl rfl rfl)) trivial
  | fragment c hfw hc hcase => exact RxEffect.fragment msg c rfl hfw hc hcase

theorem rxQuiet_register {s : HeciDev} {i : ClientId} (hi : findClient 0 s = some i)
    (client : HeciClient) :
    RxQuiet s ({ s with registeredClients := s.registeredClients + 1 }.setClient i
      (registeredClient i client)) :=
  RxQuiet.of_eq rfl (tame_register hi client).keepsClients (fun _ => SameRx.refl _) rfl

theorem rxQuiet_send {s s' : HeciDev} {c : ConnId} (h : SendCase s c s') : RxQuiet s s' := by
  cases h with
  | refused => exact RxQuiet.refl s
  | timedOut n _ _ =>
      exact RxQuiet.setSem (RxQuiet.setConn (RxQuiet.refl s) (SameRx.of_eq rfl rfl rfl))
  | written s₁ s₂ sent _ _ hs₁ hio =>
      have h₁ : RxQuiet s s₁ := by
        rcases hs₁ with rfl | rfl
        · exact RxQuiet.refl _
        · exact RxQuiet.log (RxQuiet.refl s) trivial
      have h₂ := h₁.io hio
      cases sent with
      | false => exact h₂
      | true =>
          exact RxQuiet.setConn (RxQuiet.log h₂ trivial) (SameRx.of_eq rfl rfl rfl)

/-- Taking the frame into the trace is no effect of its own. -/
theorem rxQuiet_enter (l : Call) (s : HeciDev) : RxQuiet s (enter l s) := by
  cases l with
  | send _ _ => exact RxQuiet.refl s
  | op o =>
      cases o with
      | recv msg => exact RxQuiet.log (RxQuiet.refl s) trivial
      | _ => exact RxQuiet.refl s

/-- **Every call has one of the effects on the receive buffers.** -/
theorem step_rxEffect {P : Platform} {l : Call} {s s' : HeciDev} (hT : TableInv s)
    (h : step P l s = some s') : RxEffect P l (enter l s) s' := by
  cases l with
  | send c msg =>
      obtain ⟨r, hr, rfl⟩ := Option.map_eq_some_iff.1 h
      exact RxEffect.quiet (rxQuiet_send (heciSend_cases hT hr))
  | op o =>
      cases opStep_cases hT h with
      | recv hr => exact rxEffect_recv (hT.log _) hr
      | refused ho =>
          cases o with
          | recv msg => exact absurd rfl (ho msg)
          | register _ => exact RxEffect.quiet (RxQuiet.refl s)
          | sendFlowControl _ => exact RxEffect.quiet (RxQuiet.refl s)
          | completeDisconnect _ => exact RxEffect.quiet (RxQuiet.refl s)
          | reset => exact RxEffect.quiet (RxQuiet.refl s)
      | registered i client p ho hi _ _ _ _ hio =>
          subst ho
          exact RxEffect.quiet ((rxQuiet_register hi client).io hio)
      | reset => exact RxEffect.quiet (rxQuiet_reset hT)
      | flowControl c ho _ _ hio =>
          subst ho
          exact RxEffect.quiet ((RxQuiet.refl s).io hio)
      | release c p ho hopen hp hio =>
          subst ho
          exact RxEffect.release c p rfl hopen hp ((RxQuiet.refl _).io hio)
      | freed c i ho hst hi =>
          subst ho
          exact RxEffect.freed c i rfl hst hi

end PseFw.Heci
