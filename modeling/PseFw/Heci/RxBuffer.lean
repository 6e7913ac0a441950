/-
**Who owns a receive buffer.**

A locked buffer is unlocked by the connection that points to it, when its client gives flow control
or completes the disconnection; so a locked buffer that no connection points to stays locked, and
its client is deaf.  And a connection in the middle of a message writes through its pointer, which
has to be there and to be locked.

Neither holds of all runs.  A fragment for a connection whose client has not yet given its buffer
back is refused, but the pointer is lost on the way; and flow control or the end of a disconnection
take the buffer away from a message that is being received.  The invariant is kept exactly when
these two things do not happen.

Main definitions:

* `PseFw.Heci.RxOwned` — what is wanted of the buffers;
* `PseFw.Heci.RxCore`, `PseFw.Heci.LocksOwned` — the invariants that carry it;
* `PseFw.Heci.MayRelease`, `PseFw.Heci.KeepsPointers`, `PseFw.Heci.RxDiscipline` — the discipline.

Main results:

* `PseFw.Heci.rxCore_step`, `PseFw.Heci.locksOwned_step` — every disciplined step keeps them;
* `PseFw.Heci.rxOwned_of_disciplined` — **buffers are owned in every disciplined run**, and the
  first step that breaks the discipline loses one.
-/

import PseFw.Heci.RxEffect

set_option relaxedAutoImplicit false
set_option autoImplicit false

namespace PseFw.Heci

/-! ### What is wanted -/

/-- A connection in use points to the buffer. -/
def Points (s : HeciDev) (c : ConnId) (p : RxPtr) : Prop :=
  Used (s.connections c) ∧ (s.connections c).rxBuffer = some p

instance (s : HeciDev) (c : ConnId) (p : RxPtr) : Decidable (Points s c p) :=
  inferInstanceAs (Decidable (_ ∧ _))

/-- The connection is in the middle of a message. -/
abbrev Processing (s : HeciDev) (c : ConnId) : Prop :=
  (s.connections c).has connStateProcessingMsg = true

/-- **Buffers are owned**: a locked buffer of a client has a connection that points to it, of a
client with that buffer; and a connection in the middle of a message points to a locked buffer. -/
structure RxOwned (s : HeciDev) : Prop where
  locked : ∀ i p, (s.clients i).properties.rxMsg = some p → (s.rxMsgs p).msgLock = true →
    ∃ c j, Points s c p ∧ (s.connections c).client = some j ∧
      (s.clients j).properties.rxMsg = some p
  processing : ∀ c, Processing s c →
    ∃ p, (s.connections c).rxBuffer = some p ∧ (s.rxMsgs p).msgLock = true

/-! ### The invariant -/

/-- **The messages and their buffers**: a connection points to the buffer of its client, to a locked
one in the middle of a message, and no two messages are received into one buffer. -/
structure RxCore (s : HeciDev) : Prop where
  pointer : ∀ c p, Points s c p → ∃ i, (s.connections c).client = some i ∧ Registered s i ∧
    (s.clients i).properties.rxMsg = some p
  processing : ∀ c, (s.connections c).state = 3 →
    ∃ p, (s.connections c).rxBuffer = some p ∧ (s.rxMsgs p).msgLock = true
  unique : ∀ c d p, (s.connections c).state = 3 → (s.connections d).state = 3 →
    (s.connections c).rxBuffer = some p → (s.connections d).rxBuffer = some p → c = d

/-- **Every locked buffer has a connection that points to it.** -/
def LocksOwned (s : HeciDev) : Prop :=
  ∀ p, (s.rxMsgs p).msgLock = true → ∃ c, Points s c p

theorem RxCore.rxOwned {s : HeciDev} (h : RxCore s) (hl : LocksOwned s) (hT : TableInv s) :
    RxOwned s := by
  constructor
  · intro i p _ hlock
    obtain ⟨c, hc⟩ := hl p hlock
    obtain ⟨j, hj, -, hp⟩ := h.pointer c p hc
    exact ⟨c, j, hc, hj, hp⟩
  · intro c hc
    exact h.processing c ((hT.conns c).processing_iff.1 hc)

theorem Points.of_sameRx {s s' : HeciDev} {c : ConnId} {p : RxPtr}
    (h : SameRx (s.connections c) (s'.connections c)) : Points s' c p ↔ Points s c p := by
  unfold Points
  constructor
  · rintro ⟨hu, hp⟩
    exact ⟨h.used.1 hu, (h.rxBuffer (h.used.1 hu)).symm.trans hp⟩
  · rintro ⟨hu, hp⟩
    exact ⟨h.used.2 hu, (h.rxBuffer hu).trans hp⟩

theorem used_of_processing {x : HeciConn} (h : x.state = 3) : Used x := by
  unfold Used
  rw [h]
  decide

/-- **One connection and the lock of one buffer change**, to `x` and to `b`. -/
structure RxWrite (s s' : HeciDev) (c : ConnId) (x : HeciConn) (p : RxPtr) (b : Bool) : Prop where
  connections : s'.connections = Function.update s.connections c x
  lock : (s'.rxMsgs p).msgLock = b
  locks : ∀ q, q ≠ p → (s'.rxMsgs q).msgLock = (s.rxMsgs q).msgLock
  clients : KeepsClients s s'

namespace RxCore

variable {s s' : HeciDev}

/-- The locks, the pointers and the connections in use are as before. -/
theorem frame (h : RxCore s) (hlock : ∀ p, (s'.rxMsgs p).msgLock = (s.rxMsgs p).msgLock)
    (hcl : KeepsClients s s') (hco : ∀ c, SameRx (s.connections c) (s'.connections c)) :
    RxCore s' := by
  -- a connection in the middle of a message was so before, with the same pointer
  have hproc : ∀ c, (s'.connections c).state = 3 → (s.connections c).state = 3 ∧
      (s'.connections c).rxBuffer = (s.connections c).rxBuffer := by
    intro c hc
    have hc' := (hco c).processing hc
    exact ⟨hc', (hco c).rxBuffer (used_of_processing hc')⟩
  constructor
  · intro c p hc
    have hc' := (Points.of_sameRx (hco c)).1 hc
    obtain ⟨i, hi, hreg, hp⟩ := h.pointer c p hc'
    obtain ⟨hreg', hprop⟩ := hcl i hreg
    exact ⟨i, ((hco c).client hc'.1).trans hi, hreg', by rw [hprop]; exact hp⟩
  · intro c hc
    obtain ⟨hc', hrx⟩ := hproc c hc
    obtain ⟨p, hp, hl⟩ := h.processing c hc'
    exact ⟨p, hrx.trans hp, by rw [hlock]; exact hl⟩
  · intro c d p hc hd hcp hdp
    obtain ⟨hc', hrxc⟩ := hproc c hc
    obtain ⟨hd', hrxd⟩ := hproc d hd
    exact h.unique c d p hc' hd' (hrxc.symm.trans hcp) (hrxd.symm.trans hdp)

theorem quiet (h : RxCore s) (hq : RxQuiet s s') : RxCore s' :=
  h.frame (fun p => by rw [hq.rxMsgs]) hq.clients hq.connections

/-- No message is received into an unlocked buffer. -/
theorem not_processing (h : RxCore s) {p : RxPtr} (hl : (s.rxMsgs p).msgLock = false) {c : ConnId}
    (hc : (s.connections c).state = 3) : (s.connections c).rxBuffer ≠ some p := by
  intro hp
  obtain ⟨q, hq, hlq⟩ := h.processing c hc
  rw [hp] at hq
  cases hq
  rw [hl] at hlq
  cases hlq

/-- The buffer a connection points to is the one of its client. -/
theorem pointer_eq (h : RxCore s) {c : ConnId} {i : ClientId} {p q : RxPtr}
    (hi : (s.connections c).client = some i) (hp : (s.clients i).properties.rxMsg = some p)
    (hq : Points s c q) : q = p := by
  obtain ⟨j, hj, -, hjq⟩ := h.pointer c q hq
  rw [hi] at hj
  cases hj
  rw [hp] at hjq
  exact (Option.some.inj hjq).symm

theorem update (h : RxCore s) {c : ConnId} {x : HeciConn} {p : RxPtr} {b : Bool}
    (w : RxWrite s s' c x p b)
    (hx : ∀ q, Used x → x.rxBuffer = some q → ∃ i, x.client = some i ∧ Registered s i ∧
      (s.clients i).properties.rxMsg = some q)
    (hproc : x.state = 3 → x.rxBuffer = some p ∧ b = true)
    -- nobody else is in the middle of a message to a buffer that is unlocked or taken
    (hother : b = false ∨ x.state = 3 → ∀ d, d ≠ c → (s.connections d).state = 3 →
      (s.connections d).rxBuffer ≠ some p) :
    RxCore s' := by
  have hself : s'.connections c = x := by rw [w.connections, Function.update_self]
  have hne : ∀ d, d ≠ c → s'.connections d = s.connections d := by
    intro d hd
    rw [w.connections, Function.update_of_ne hd]
  constructor
  · intro d q hd
    have hlift : ∀ i, Registered s i → (s.clients i).properties.rxMsg = some q →
        Registered s' i ∧ (s'.clients i).properties.rxMsg = some q := by
      intro i hreg hq
      obtain ⟨hreg', hprop⟩ := w.clients i hreg
      exact ⟨hreg', by rw [hprop]; exact hq⟩
    by_cases hdc : d = c
    · subst hdc
      rw [Points, hself] at hd
      obtain ⟨i, hi, hreg, hq⟩ := hx q hd.1 hd.2
      exact ⟨i, by rw [hself]; exact hi, hlift i hreg hq⟩
    · rw [Points, hne d hdc] at hd
      obtain ⟨i, hi, hreg, hq⟩ := h.pointer d q hd
      exact ⟨i, by rw [hne d hdc]; exact hi, hlift i hreg hq⟩
  · intro d hd
    by_cases hdc : d = c
    · subst hdc
      rw [hself] at hd ⊢
      obtain ⟨hxp, hb⟩ := hproc hd
      exact ⟨p, hxp, w.lock.trans hb⟩
    · rw [hne d hdc] at hd ⊢
      obtain ⟨q, hq, hl⟩ := h.processing d hd
      refine ⟨q, hq, ?_⟩
      by_cases hqp : q = p
      · subst hqp
        rw [w.lock]
        by_contra hb
        exact hother (Or.inl (by simpa using hb)) d hdc hd hq
      · rw [w.locks q hqp]
        exact hl
  · have hcases : ∀ d q, d ≠ c → (s'.connections c).state = 3 → (s'.connections d).state = 3 →
        (s'.connections c).rxBuffer = some q → (s'.connections d).rxBuffer ≠ some q := by
      intro d q hdc hc hd hcq hdq
      rw [hself] at hc hcq
      rw [hne d hdc] at hd hdq
      rw [(hproc hc).1] at hcq
      cases hcq
      exact hother (Or.inr hc) d hdc hd hdq
    intro d e q hd he hdq heq
    by_cases hdc : d = c
    · by_cases hec : e = c
      · rw [hdc, hec]
      · subst hdc
        exact absurd heq (hcases e q hec hd he hdq)
    · by_cases hec : e = c
      · subst hec
        exact absurd hdq (hcases d q hdc he hd heq)
      · rw [hne d hdc] at hd hdq
        rw [hne e hec] at he heq
        exact h.unique d e q hd he hdq heq

end RxCore

namespace LocksOwned

variable {s s' : HeciDev}

theorem frame (h : LocksOwned s) (hlock : ∀ p, (s'.rxMsgs p).msgLock = (s.rxMsgs p).msgLock)
    (hco : ∀ c, SameRx (s.connections c) (s'.connections c)) : LocksOwned s' := by
  intro p hl
  rw [hlock] at hl
  obtain ⟨c, hc⟩ := h p hl
  exact ⟨c, (Points.of_sameRx (hco c)).2 hc⟩

theorem quiet (h : LocksOwned s) (hq : RxQuiet s s') : LocksOwned s' :=
  h.frame (fun p => by rw [hq.rxMsgs]) hq.connections

theorem update (h : LocksOwned s) {c : ConnId} {x : HeciConn} {p : RxPtr} {b : Bool}
    (w : RxWrite s s' c x p b)
    -- the buffer is unlocked, or somebody points to it
    (hown : b = true → (Used x ∧ x.rxBuffer = some p) ∨ ∃ d, d ≠ c ∧ Points s d p)
    -- the connection did not point to another buffer
    (hlost : ∀ q, Points s c q → q = p) : LocksOwned s' := by
  have hne : ∀ d q, d ≠ c → Points s d q → Points s' d q := by
    intro d q hd hp
    rw [Points, w.connections, Function.update_of_ne hd]
    exact hp
  intro q hl
  by_cases hqp : q = p
  · subst hqp
    rw [w.lock] at hl
    rcases hown hl with hc | ⟨d, hdc, hd⟩
    · refine ⟨c, ?_⟩
      rw [Points, w.connections, Function.update_self]
      exact hc
    · exact ⟨d, hne d q hdc hd⟩
  · rw [w.locks q hqp] at hl
    obtain ⟨d, hd⟩ := h q hl
    exact ⟨d, hne d q (fun he => hqp (hlost q (he ▸ hd))) hd⟩

end LocksOwned

/-! ### The discipline -/

/-- No message is being received into the buffer the connection points to. -/
def NoMessageOn (s : HeciDev) (c : ConnId) : Prop :=
  ∀ p ∈ (s.connections c).rxBuffer, ∀ d, Processing s d → (s.connections d).rxBuffer ≠ some p

/-- No buffer is given back while a message is received into it. -/
def MayRelease (s : HeciDev) : Call → Prop
  | .op (.sendFlowControl n) => ∀ h : n < heciMaxNumOfConnections,
      (s.connections ⟨n, h⟩).has connStateOpen = true → NoMessageOn s ⟨n, h⟩
  | .op (.completeDisconnect n) => ∀ h : n < heciMaxNumOfConnections,
      (s.connections ⟨n, h⟩).has connStateDisconnecting = true → NoMessageOn s ⟨n, h⟩
  | _ => True

/-- A fragment that is refused does not cost a locked buffer its last pointer: the connection is in
the middle of a message, or it points to no locked buffer, or another connection does so too. -/
def KeepsPointer (s : HeciDev) (c : ConnId) : Prop :=
  ¬ Processing s c → ∀ p ∈ (s.connections c).rxBuffer, (s.rxMsgs p).msgLock = true →
    ∃ d, d ≠ c ∧ Points s d p

/-- Fragments do not cost a locked buffer its last pointer. -/
def KeepsPointers (s : HeciDev) : Call → Prop
  | .op (.recv msg) => ∀ c ∈ fragmentConn msg s, KeepsPointer s c
  | _ => True

/-- **The discipline.** -/
def RxDiscipline (s : HeciDev) (l : Call) : Prop := MayRelease s l ∧ KeepsPointers s l

instance (s : HeciDev) (c : ConnId) : Decidable (NoMessageOn s c) :=
  inferInstanceAs (Decidable (∀ _ ∈ (s.connections c).rxBuffer, _))

instance (s : HeciDev) (c : ConnId) : Decidable (KeepsPointer s c) :=
  inferInstanceAs (Decidable (_ → ∀ _ ∈ (s.connections c).rxBuffer, _ → _))

instance (s : HeciDev) (l : Call) : Decidable (MayRelease s l) :=
  match l with
  | .op (.sendFlowControl _) => inferInstanceAs (Decidable (∀ _ : _, _ → _))
  | .op (.completeDisconnect _) => inferInstanceAs (Decidable (∀ _ : _, _ → _))
  | .op (.register _) | .op (.recv _) | .op .reset | .send _ _ => isTrue trivial

instance (s : HeciDev) (l : Call) : Decidable (KeepsPointers s l) :=
  match l with
  | .op (.recv msg) => inferInstanceAs (Decidable (∀ c ∈ fragmentConn msg s, KeepsPointer s c))
  | .op (.register _) | .op (.sendFlowControl _) | .op (.completeDisconnect _) | .op .reset
  | .send _ _ => isTrue trivial

instance (s : HeciDev) (l : Call) : Decidable (RxDiscipline s l) :=
  inferInstanceAs (Decidable (_ ∧ _))

/-! ### Steps -/

/-- A connection a fragment was found for is open. -/
theorem TableInv.fragmentConn {s : HeciDev} (hT : TableInv s) {msg : HeciBusMsg} {c : ConnId}
    (h : fragmentConn msg s = some c) : IsOpen (s.connections c) :=
  (hT.conns c).active_iff.1 (heciFindConn_some h).1

/-- The client of a connection in use is registered. -/
theorem TableInv.registered_owner {s : HeciDev} (hT : TableInv s) {c : ConnId} {i : ClientId}
    (hused : Used (s.connections c)) (hi : (s.connections c).client = some i) : Registered s i := by
  obtain ⟨j, hj, hne, -⟩ := (hT.conns c).used hused
  rw [hi] at hj
  cases hj
  exact hne

theorem rxWrite_opened {s : HeciDev} (i : ClientId) (c : ConnId) (p : RxPtr) (f k : UInt8) :
    RxWrite s (openConn c i p f k (lockRx p s)) c
      (connectedConn (s.connections c) c i (s.clients i).properties f k p) p true := by
  refine ⟨rfl, ?_, fun q hq => ?_, fun j hj => (tame_openConn c i p f k s).keepsClients j hj⟩
  · simp [openConn, lockRx, heciNotifyClient]
  · simp [openConn, lockRx, heciNotifyClient, Function.update_of_ne hq]

/-- The first fragment of a message locks the buffer. -/
theorem rxWrite_first (s : HeciDev) (c : ConnId) (p : RxPtr) (n : UInt8) :
    RxWrite s ((s.setConn c { s.connections c with rxBuffer := some p, state := 3 }).setRx p
      { s.rxMsgs p with
        msgLock := true
        type := .request
        connectionId := n
        length := 0 }) c { s.connections c with rxBuffer := some p, state := 3 } p true :=
  ⟨rfl, by simp, fun q hq => by simp [Function.update_of_ne hq], fun _ hj => ⟨hj, rfl⟩⟩

/-- A message that is too long for the client is given up. -/
theorem rxWrite_oversize (P : Platform) (s : HeciDev) (c : ConnId) (p : RxPtr) :
    RxWrite s (((heciConnectionError P c s).setRx p { s.rxMsgs p with
      msgLock := false }).setConn c { s.connections c with state := 1 }) c
      { s.connections c with state := 1 } p false := by
  refine ⟨?_, ?_, fun q hq => ?_, keepsClients_of_eq ?_⟩
  · simp [heciConnectionError]
  · simp [heciConnectionError]
  · simp [heciConnectionError, Function.update_of_ne hq]
  · simp [heciConnectionError]

/-- A fragment is refused, and the pointer of the connection is lost. -/
theorem rxWrite_refused {s : HeciDev} {p : RxPtr} (hl : (s.rxMsgs p).msgLock = true) (e : Event)
    (c : ConnId) :
    RxWrite s ((s.log e).setConn c { s.connections c with rxBuffer := none }) c
      { s.connections c with rxBuffer := none } p true :=
  ⟨rfl, hl, fun _ _ => rfl, fun _ hi => ⟨hi, rfl⟩⟩

theorem rxWrite_release (s : HeciDev) (c : ConnId) (p : RxPtr) :
    RxWrite s (releaseOpen c p s) c { s.connections c with rxBuffer := none } p false :=
  ⟨rfl, by simp [releaseOpen], fun q hq => by simp [releaseOpen, Function.update_of_ne hq],
    fun _ hi => ⟨hi, rfl⟩⟩

/-- What the end of a disconnection does to the connections. -/
theorem completed_connections (P : Platform) (c : ConnId) (i : ClientId) (s : HeciDev) :
    (freeConn c i (respondDisconnect P c (releaseRx c s))).connections =
      Function.update s.connections c HeciConn.zero := by
  rw [freeConn, HeciDev.emit_connections, HeciDev.setConn_connections,
    HeciDev.setClient_connections, (ioStep_respondDisconnect P c _).connections,
    releaseRx_connections]

/-- What the end of a disconnection does to the buffers. -/
theorem completed_rxMsgs (P : Platform) (c : ConnId) (i : ClientId) (s : HeciDev) :
    (freeConn c i (respondDisconnect P c (releaseRx c s))).rxMsgs = (releaseRx c s).rxMsgs := by
  rw [freeConn, HeciDev.emit_rxMsgs, HeciDev.setConn_rxMsgs, HeciDev.setClient_rxMsgs,
    (ioStep_respondDisconnect P c _).rxMsgs]

theorem completed_keepsClients (P : Platform) (c : ConnId) (i : ClientId) (s : HeciDev) :
    KeepsClients s (freeConn c i (respondDisconnect P c (releaseRx c s))) := by
  refine keepsClients_update (i := i) (n := (s.clients i).nOfConns - 1) ?_
  rw [freeConn, HeciDev.emit_clients, HeciDev.setConn_clients, HeciDev.setClient_clients,
    (ioStep_respondDisconnect P c _).clients, releaseRx_clients]

theorem releaseRx_of_some {c : ConnId} {p : RxPtr} {s : HeciDev}
    (hp : (s.connections c).rxBuffer = some p) :
    (releaseRx c s).rxMsgs = Function.update s.rxMsgs p { s.rxMsgs p with
      type := .request
      length := 0
      connectionId := 0
      msgLock := false } := by
  rw [releaseRx, hp]
  rfl

/-- A connection with a buffer is freed. -/
theorem rxWrite_freed (P : Platform) {s : HeciDev} {c : ConnId} (i : ClientId) {p : RxPtr}
    (hp : (s.connections c).rxBuffer = some p) :
    RxWrite s (freeConn c i (respondDisconnect P c (releaseRx c s))) c HeciConn.zero p false := by
  have hrx := (completed_rxMsgs P c i s).trans (releaseRx_of_some hp)
  refine ⟨completed_connections P c i s, by rw [hrx]; simp, fun q hq => ?_,
    completed_keepsClients P c i s⟩
  rw [hrx, Function.update_of_ne hq]

/-- A connection without a buffer is freed: no lock changes. -/
theorem rxWrite_freed_none (P : Platform) {s : HeciDev} {c : ConnId} (i : ClientId)
    (hp : (s.connections c).rxBuffer = none) (p : RxPtr) :
    RxWrite s (freeConn c i (respondDisconnect P c (releaseRx c s))) c HeciConn.zero p
      (s.rxMsgs p).msgLock := by
  have hrx : (freeConn c i (respondDisconnect P c (releaseRx c s))).rxMsgs = s.rxMsgs := by
    rw [completed_rxMsgs, releaseRx, hp]
  exact ⟨completed_connections P c i s, by rw [hrx], fun q _ => by rw [hrx],
    completed_keepsClients P c i s⟩

/-! ### The messages and their buffers -/

namespace RxCore

variable {P : Platform} {s : HeciDev}

theorem log (h : RxCore s) (e : Event) : RxCore (s.log e) :=
  h.frame (fun _ => rfl) (fun _ hi => ⟨hi, rfl⟩) fun _ => SameRx.refl _

/-- **A connection is opened**, and locks the buffer of its client. -/
theorem opened (h : RxCore s) {i : ClientId} (c : ConnId) {p : RxPtr} (f k : UInt8)
    (hreg : Registered s i) (hp : (s.clients i).properties.rxMsg = some p)
    (hl : (s.rxMsgs p).msgLock = false) : RxCore (openConn c i p f k (lockRx p s)) := by
  refine h.update (rxWrite_opened i c p f k) ?_ ?_ ?_
  · intro q _ hq
    cases hq
    exact ⟨i, rfl, hreg, hp⟩
  · intro h3
    exact absurd (show connStateOpen = 3 from h3) (by decide)
  · exact fun _ d _ hd => h.not_processing hl hd

/-- **The first fragment of a message locks the buffer.** -/
theorem accept (h : RxCore s) {c : ConnId} {i : ClientId} {p : RxPtr} {s₁ : HeciDev}
    (hcl : (s.connections c).client = some i) (hreg : Registered s i)
    (hacc : AcceptCase s c i p s₁) : RxCore s₁ := by
  cases hacc with
  | next _ _ => exact h
  | first hst hp hl =>
      refine h.update (rxWrite_first s c p _) ?_ (fun _ => ⟨rfl, rfl⟩) ?_
      · intro q _ hq
        cases hq
        exact ⟨i, hcl, hreg, hp⟩
      · exact fun _ d _ hd => h.not_processing hl hd

/-- **A fragment is copied, or its message is given up.** -/
theorem copy (h : RxCore s) {c : ConnId} {i : ClientId} {p : RxPtr} {data : List UInt8}
    {s₂ : HeciDev} (hst : (s.connections c).state = 3) (hrx : (s.connections c).rxBuffer = some p)
    (hcopy : CopyCase P s c i p data s₂) : RxCore s₂ := by
  cases hcopy with
  | copied b _ _ =>
      refine h.frame (fun q => ?_) (fun j hj => ⟨hj, rfl⟩) fun _ => SameRx.refl _
      by_cases hq : q = p
      · subst hq
        simp
      · simp [Function.update_of_ne hq]
  | oversize _ =>
      refine h.update (rxWrite_oversize P s c p) ?_ ?_ ?_
      · exact fun q _ hq => h.pointer c q ⟨used_of_processing hst, hq⟩
      · intro h3
        exact absurd (show (1 : UInt8) = 3 from h3) (by decide)
      · exact fun _ d hd hd3 hdp => hd (h.unique d c p hd3 hst hdp hrx)

end RxCore

/-- The last fragment of a message takes its connection out of the middle of it. -/
theorem finish_connections {s : HeciDev} {c : ConnId} (hopen : IsOpen (s.connections c)) :
    (finishFragment c s).connections =
      Function.update s.connections c { s.connections c with state := 1 } := by
  have hst : (s.connections c).state &&& ~~~ connStateProcessingMsg = 1 := by
    rcases hopen with hs | hs <;> rw [hs] <;> decide
  show Function.update s.connections c { s.connections c with
    state := (s.connections c).state &&& ~~~ connStateProcessingMsg } = _
  rw [hst]

/-- The last fragment leaves the buffers and the pointers alone. -/
theorem sameRx_finish {s : HeciDev} {c : ConnId} (hopen : IsOpen (s.connections c)) (d : ConnId) :
    SameRx (s.connections d) ((finishFragment c s).connections d) := by
  rw [finish_connections hopen]
  by_cases hd : d = c
  · subst hd
    rw [Function.update_self]
    refine ⟨iff_of_true ?_ hopen.ne_unused, fun _ => rfl, fun _ => rfl, fun h3 => ?_⟩
    · show (1 : UInt8) ≠ 0
      decide
    · exact absurd (show (1 : UInt8) = 3 from h3) (by decide)
  · rw [Function.update_of_ne hd]
    exact SameRx.refl _

/-- A fragment keeps the messages apart. -/
theorem rxCore_fragment {P : Platform} {msg : HeciBusMsg} {s s' : HeciDev} {c : ConnId}
    (hT : TableInv s) (h : RxCore s) (hc : fragmentConn msg s = some c)
    (hcase : FragmentCase P msg s c s') : RxCore s' := by
  have hopen := hT.fragmentConn hc
  cases hcase with
  | taken i p s₁ s₂ hi hacc hcopy =>
      have h₁ := (h.log _).accept hi (hT.registered_owner hopen.ne_unused hi) hacc
      obtain ⟨hst₁, hrx₁⟩ := accept_state hacc
      have h₂ := h₁.copy hst₁ hrx₁ hcopy
      split
      · exact h₂.frame (fun _ => rfl) (fun _ hj => ⟨hj, rfl⟩)
          (sameRx_finish (tame_copy hst₁ hcopy).2)
      · exact h₂
  | refused i p hst _ _ hl =>
      have hne3 : ({ s.connections c with rxBuffer := none } : HeciConn).state ≠ 3 := by
        intro h3
        exact absurd (hst.symm.trans h3) (by decide)
      refine h.update (rxWrite_refused hl _ c) nofun (fun h3 => absurd h3 hne3) ?_
      rintro (hb | h3)
      · cases hb
      · exact absurd h3 hne3

theorem NoMessageOn.state {s : HeciDev} {c : ConnId} {p : RxPtr} (h : NoMessageOn s c)
    (hT : TableInv s) (hp : (s.connections c).rxBuffer = some p) (d : ConnId)
    (hd : (s.connections d).state = 3) : (s.connections d).rxBuffer ≠ some p :=
  h p hp d ((hT.conns d).processing_iff.2 hd)

/-- **Every step that gives no buffer back in the middle of a message keeps the messages apart.** -/
theorem rxCore_effect {P : Platform} {l : Call} {s s' : HeciDev} (hT : TableInv s) (h : RxCore s)
    (hd : MayRelease s l) (he : RxEffect P l s s') : RxCore s' := by
  cases he with
  | quiet hq => exact h.quiet hq
  | opened i c p f k hreg _ hp hl hq => exact (h.opened c f k hreg hp hl).quiet hq
  | fragment msg c hl _ hc hcase => exact rxCore_fragment hT h hc hcase
  | release c p hl hopen hp hq =>
      subst hl
      have hno := (hd c.isLt ((hT.conns c).open_iff.2 hopen)).state hT hp
      refine RxCore.quiet (h.update (rxWrite_release s c p) nofun ?_ ?_) hq
      · exact fun h3 => absurd hp (hno c h3)
      · exact fun _ d _ hd3 => hno d hd3
  | freed c i hl hst _ =>
      subst hl
      have hno := hd c.isLt ((hT.conns c).disconnecting_iff.2 hst)
      have hne3 : HeciConn.zero.state ≠ 3 := by decide
      have hzero : ∀ q, Used HeciConn.zero → HeciConn.zero.rxBuffer = some q → ∃ i,
          HeciConn.zero.client = some i ∧ Registered s i ∧
            (s.clients i).properties.rxMsg = some q := fun q hu => absurd rfl hu
      cases hp : (s.connections c).rxBuffer with
      | some p =>
          exact h.update (rxWrite_freed P i hp) hzero (fun h3 => absurd h3 hne3)
            fun _ d _ hd3 => hno.state hT hp d hd3
      | none =>
          refine h.update (rxWrite_freed_none P i hp 0) hzero (fun h3 => absurd h3 hne3) ?_
          rintro (hl | h3)
          · exact fun d _ hd3 => h.not_processing hl hd3
          · exact absurd h3 hne3

/-! ### The locked buffers -/

/-- A fragment that keeps the pointers leaves no locked buffer behind. -/
theorem locksOwned_fragment {P : Platform} {msg : HeciBusMsg} {s s' : HeciDev} {c : ConnId}
    (hT : TableInv s) (h : RxCore s) (hown : LocksOwned s) (hd : KeepsPointer s c)
    (hcase : FragmentCase P msg s c s') : LocksOwned s' := by
  have hlog : LocksOwned (s.log (.fragment c msg.payload msg.hdr.lastFrag)) := hown
  cases hcase with
  | taken i p s₁ s₂ hi hacc hcopy =>
      obtain ⟨hst₁, hrx₁⟩ := accept_state hacc
      have h₁ : LocksOwned s₁ := by
        cases hacc with
        | next _ _ => exact hlog
        | first _ hp _ =>
            refine hlog.update (rxWrite_first _ c p _) (fun _ => Or.inl ⟨?_, rfl⟩) ?_
            · exact used_of_processing rfl
            · exact fun q hq => (h.log _).pointer_eq hi hp hq
      have h₂ : LocksOwned s₂ := by
        cases hcopy with
        | copied b _ _ =>
            refine h₁.frame (fun q => ?_) fun _ => SameRx.refl _
            by_cases hq : q = p
            · subst hq
              simp
            · simp [Function.update_of_ne hq]
        | oversize _ =>
            refine h₁.update (rxWrite_oversize P s₁ c p) nofun fun q hq => ?_
            exact Option.some.inj (hq.2.symm.trans hrx₁)
      split
      · exact h₂.frame (fun _ => rfl) (sameRx_finish (tame_copy hst₁ hcopy).2)
      · exact h₂
  | refused i p hst hi hp hl =>
      have hnot : ¬ Processing s c := by
        intro hproc
        have := (hT.conns c).processing_iff.1 hproc
        rw [hst] at this
        exact absurd this (by decide)
      refine hown.update (rxWrite_refused hl _ c) (fun _ => Or.inr ?_) ?_
      · by_cases hcp : (s.connections c).rxBuffer = some p
        · exact hd hnot p hcp hl
        · obtain ⟨d, hdp⟩ := hown p hl
          exact ⟨d, fun he => hcp (he ▸ hdp).2, hdp⟩
      · exact fun q hq => h.pointer_eq hi hp hq

/-- **Every disciplined step leaves every locked buffer with an owner.** -/
theorem locksOwned_effect {P : Platform} {l : Call} {s s' : HeciDev} (hT : TableInv s)
    (h : RxCore s) (hown : LocksOwned s) (hd : KeepsPointers s l) (he : RxEffect P l s s') :
    LocksOwned s' := by
  cases he with
  | quiet hq => exact hown.quiet hq
  | opened i c p f k _ hidle _ _ hq =>
      refine LocksOwned.quiet (hown.update (rxWrite_opened i c p f k) ?_ ?_) hq
      · refine fun _ => Or.inl ⟨?_, rfl⟩
        show connStateOpen ≠ connStateUnused
        decide
      · exact fun q hq => absurd hidle hq.1
  | fragment msg c hl _ hc hcase =>
      subst hl
      exact locksOwned_fragment hT h hown (hd c hc) hcase
  | release c p _ _ hp hq =>
      refine LocksOwned.quiet (hown.update (rxWrite_release s c p) nofun fun q hq => ?_) hq
      exact Option.some.inj (hq.2.symm.trans hp)
  | freed c i _ _ _ =>
      cases hp : (s.connections c).rxBuffer with
      | some p =>
          exact hown.update (rxWrite_freed P i hp) nofun fun q hq =>
            Option.some.inj (hq.2.symm.trans hp)
      | none =>
          have hnone : ∀ q, ¬ Points s c q := by
            intro q hq
            rw [Points, hp] at hq
            cases hq.2
          refine hown.update (rxWrite_freed_none P i hp 0) (fun hl => Or.inr ?_) fun q hq =>
            absurd hq (hnone q)
          obtain ⟨d, hdp⟩ := hown 0 hl
          exact ⟨d, fun he => hnone 0 (he ▸ hdp), hdp⟩

/-! ### Steps that break the discipline -/

section undisciplined

variable {P : Platform} {s s' : HeciDev}

/-- A frame for a connection in use goes to the reassembly. -/
theorem step_fragment (hT : TableInv s) {msg : HeciBusMsg} {c : ConnId}
    (hc : fragmentConn msg s = some c) :
    step P (.op (.recv msg)) s = heciProcessClientMessage P msg (s.log (.recv msg)) := by
  obtain ⟨i, -, hne, hfw, -⟩ := (hT.conns c).used (hT.fragmentConn hc).ne_unused
  have hbetween := (heciFindConn_some hc).2
  have haddr : msg.hdr.fwAddr = UInt8.ofNat (i + heciFixedClientNum) := by
    rw [← hbetween.1, hfw, (hT.clients i).addr hne]
  have hall : ∀ i : ClientId, UInt8.ofNat (i + heciFixedClientNum) ≠ heciDriverAddress ∧
      UInt8.ofNat (i + heciFixedClientNum) ≠ heciSystemStateClientAddr ∧
      UInt8.ofNat (i + heciFixedClientNum) ≠ heciFwStateClientAddr := by decide
  obtain ⟨h₀, h₁, h₂⟩ := hall i
  rw [← haddr] at h₀ h₁ h₂
  simp only [step, opStep, heciProcessMessage, if_neg h₀, if_neg h₁, if_neg h₂]

/-- A refused fragment that costs the last pointer leaves a locked buffer behind. -/
theorem not_rxOwned_fragment (hT : TableInv s) (h : RxCore s) {msg : HeciBusMsg} {c : ConnId}
    (hc : fragmentConn msg s = some c) (hd : ¬ KeepsPointer s c)
    (hst : step P (.op (.recv msg)) s = some s') : ¬ RxOwned s' := by
  unfold KeepsPointer at hd
  push Not at hd
  obtain ⟨hproc, p, hp, hl, hsole⟩ := hd
  have hp' : (s.connections c).rxBuffer = some p := hp
  rw [step_fragment hT hc] at hst
  rcases heciProcessClientMessage_cases (hT.log _) hst with ⟨hnone, -⟩ | ⟨d, hdc, hcase⟩
  · rw [show fragmentConn msg (s.log (.recv msg)) = fragmentConn msg s from rfl, hc] at hnone
    cases hnone
  · rw [show fragmentConn msg (s.log (.recv msg)) = fragmentConn msg s from rfl, hc] at hdc
    cases hdc
    obtain ⟨i, hi, -, hip⟩ := h.pointer c p ⟨(hT.fragmentConn hc).ne_unused, hp'⟩
    cases hcase with
    | refused j q _ _ _ _ =>
        intro hown
        obtain ⟨d, -, ⟨hdu, hdp⟩, -⟩ := hown.locked i p hip hl
        by_cases hdc : d = c
        · subst hdc
          simp at hdp
        · rw [HeciDev.setConn_connections, Function.update_of_ne hdc] at hdu hdp
          exact hsole d hdc ⟨hdu, hdp⟩
    | taken j q s₁ s₂ hj hacc _ =>
        have hij : j = i := Option.some.inj (hj.symm.trans hi)
        subst hij
        cases hacc with
        | first _ hq hlq =>
            have hpq : p = q := Option.some.inj (hip.symm.trans hq)
            subst hpq
            exact absurd (hl.symm.trans hlq) (by decide)
        | next hst3 _ => exact absurd ((hT.conns c).processing_iff.2 hst3) hproc

/-- Taking the buffer away from a message leaves a connection in the middle of it without one. -/
theorem not_rxOwned_of_unlocked {c d : ConnId} {p : RxPtr}
    (hd : Processing s' d) (hdp : d = c ∨ (s'.connections d).rxBuffer = some p)
    (hc : (s'.connections c).rxBuffer = none ∨ d ≠ c) (hl : (s'.rxMsgs p).msgLock = false) :
    ¬ RxOwned s' := by
  intro hown
  obtain ⟨q, hq, hlq⟩ := hown.processing d hd
  rcases hdp with rfl | hdp
  · rcases hc with hc | hc
    · rw [hc] at hq
      cases hq
    · exact hc rfl
  · rw [hdp] at hq
    cases hq
    rw [hl] at hlq
    cases hlq

theorem not_rxOwned_release {c : ConnId} (hopen : (s.connections c).has connStateOpen = true)
    (hd : ¬ NoMessageOn s c) (hst : step P (.op (.sendFlowControl c)) s = some s') :
    ¬ RxOwned s' := by
  unfold NoMessageOn at hd
  push Not at hd
  obtain ⟨p, hp, d, hproc, hdp⟩ := hd
  have hp' : (s.connections c).rxBuffer = some p := hp
  have hs' : ∃ evs, s' = (releaseOpen c p s).emit evs := by
    simp only [step, opStep, heciSendFlowControl, c.isLt, ↓reduceDIte, hopen, Bool.true_eq_false,
      ↓reduceIte, hp', heciSendProtoMsg_snd, Option.some.injEq] at hst
    exact ⟨_, hst.symm⟩
  obtain ⟨evs, rfl⟩ := hs'
  by_cases hdc : d = c
  · subst hdc
    refine not_rxOwned_of_unlocked (c := d) (p := p) ?_ (Or.inl rfl) (Or.inl ?_) ?_
    · simpa [releaseOpen, Processing, HeciConn.has] using hproc
    · simp [releaseOpen]
    · simp [releaseOpen]
  · refine not_rxOwned_of_unlocked (c := c) (p := p) (d := d) ?_ (Or.inr ?_) (Or.inr hdc) ?_
    · simpa [releaseOpen, Processing, Function.update_of_ne hdc] using hproc
    · simpa [releaseOpen, Function.update_of_ne hdc] using hdp
    · simp [releaseOpen]

theorem not_rxOwned_freed (hT : TableInv s) {c : ConnId}
    (hdis : (s.connections c).has connStateDisconnecting = true) (hd : ¬ NoMessageOn s c)
    (hst : step P (.op (.completeDisconnect c)) s = some s') : ¬ RxOwned s' := by
  unfold NoMessageOn at hd
  push Not at hd
  obtain ⟨p, hp, d, hproc, hdp⟩ := hd
  have hp' : (s.connections c).rxBuffer = some p := hp
  have hst4 := (hT.conns c).disconnecting_iff.1 hdis
  obtain ⟨i, hi, -⟩ := (hT.conns c).used (state_disjoint hst4).2
  have hs' : s' = freeConn c i (respondDisconnect P c (releaseRx c s)) := by
    simp only [step, opStep, heciCompleteDisconnect, c.isLt, ↓reduceDIte, hdis, Bool.true_eq_false,
      ↓reduceIte, hi, Option.map_some, Option.some.injEq] at hst
    exact hst.symm
  subst hs'
  have hco := completed_connections P c i s
  have hdc : d ≠ c := by
    intro he
    have h3 := (hT.conns d).processing_iff.1 hproc
    rw [he] at h3
    rcases hst4 with hs | hs <;> rw [hs] at h3 <;> exact absurd h3 (by decide)
  refine not_rxOwned_of_unlocked (c := c) (p := p) (d := d) ?_ (Or.inr ?_) (Or.inr hdc) ?_
  · rw [Processing, hco, Function.update_of_ne hdc]
    exact hproc
  · rw [hco, Function.update_of_ne hdc]
    exact hdp
  · rw [completed_rxMsgs, releaseRx_of_some hp', Function.update_self]

/-- **A step that breaks the discipline loses a buffer.** -/
theorem not_rxOwned_of_undisciplined (hT : TableInv s) (h : RxCore s) {l : Call}
    (hd : ¬ RxDiscipline s l) (hst : step P l s = some s') : ¬ RxOwned s' := by
  cases l with
  | send _ _ => exact absurd ⟨trivial, trivial⟩ hd
  | op o =>
      cases o with
      | register _ => exact absurd ⟨trivial, trivial⟩ hd
      | reset => exact absurd ⟨trivial, trivial⟩ hd
      | recv msg =>
          have hkeep : ¬ KeepsPointers s (.op (.recv msg)) := fun hk => hd ⟨trivial, hk⟩
          unfold KeepsPointers at hkeep
          push Not at hkeep
          obtain ⟨c, hc, hkeep⟩ := hkeep
          exact not_rxOwned_fragment hT h hc hkeep hst
      | sendFlowControl n =>
          have hmay : ¬ MayRelease s (.op (.sendFlowControl n)) := fun hm => hd ⟨hm, trivial⟩
          unfold MayRelease at hmay
          push Not at hmay
          obtain ⟨hn, hopen, hno⟩ := hmay
          exact not_rxOwned_release hopen hno hst
      | completeDisconnect n =>
          have hmay : ¬ MayRelease s (.op (.completeDisconnect n)) := fun hm => hd ⟨hm, trivial⟩
          unfold MayRelease at hmay
          push Not at hmay
          obtain ⟨hn, hdis, hno⟩ := hmay
          exact not_rxOwned_freed hT hdis hno hst

end undisciplined

/-! ### Runs -/

theorem rxCore_initial {s : HeciDev} (h : HeciDev.Initial s) : RxCore s := by
  have hunused : ∀ c, (s.connections c).state = 0 := by
    intro c
    rw [h.connections c]
    rfl
  have hne3 : ∀ c, (s.connections c).state ≠ 3 := by
    intro c hc
    rw [hunused c] at hc
    exact absurd hc (by decide)
  constructor
  · exact fun c p hc => absurd (hunused c) hc.1
  · exact fun c hc => absurd hc (hne3 c)
  · exact fun c d p hc => absurd hc (hne3 c)

theorem locksOwned_initial {s : HeciDev} (h : HeciDev.Initial s) : LocksOwned s := by
  intro p hl
  obtain ⟨b, hb⟩ := h.rxMsgs p
  rw [hb] at hl
  cases hl

/-- The trace is no part of what the discipline is about. -/
theorem mayRelease_enter {s : HeciDev} {l : Call} (h : MayRelease s l) :
    MayRelease (enter l s) l := by
  cases l with
  | send _ _ => exact h
  | op o => cases o <;> exact h

theorem keepsPointers_enter {s : HeciDev} {l : Call} (h : KeepsPointers s l) :
    KeepsPointers (enter l s) l := by
  cases l with
  | send _ _ => exact h
  | op o => cases o <;> exact h

/-- **Every step that gives no buffer back in the middle of a message keeps the messages apart.** -/
theorem rxCore_step {P : Platform} {s s' : HeciDev} {l : Call} (hT : TableInv s) (h : RxCore s)
    (hd : MayRelease s l) (hst : step P l s = some s') : RxCore s' :=
  rxCore_effect (hT.enter l) (h.quiet (rxQuiet_enter l s)) (mayRelease_enter hd)
    (step_rxEffect hT hst)

theorem locksOwned_step {P : Platform} {s s' : HeciDev} {l : Call} (hT : TableInv s)
    (h : RxCore s) (hown : LocksOwned s) (hd : KeepsPointers s l) (hst : step P l s = some s') :
    LocksOwned s' :=
  locksOwned_effect (hT.enter l) (h.quiet (rxQuiet_enter l s)) (hown.quiet (rxQuiet_enter l s))
    (keepsPointers_enter hd) (step_rxEffect hT hst)

/-- **In every disciplined run the buffers are owned**; and the first step that breaks the
discipline loses one. -/
theorem rxOwned_of_disciplined {P : Platform} {s : HeciDev}
    (h : Lts.Reach HeciDev.Initial (step P) RxDiscipline s) :
    RxOwned s ∧ ∀ l s', step P l s = some s' → (RxOwned s' ↔ RxDiscipline s l) := by
  have hstep : ∀ s l s', TableInv s ∧ RxCore s ∧ LocksOwned s → RxDiscipline s l →
      step P l s = some s' → TableInv s' ∧ RxCore s' ∧ LocksOwned s' := by
    rintro s l s' ⟨hT, hR, hL⟩ hd hst
    exact ⟨(keeps_tableInv P).step hT hst, rxCore_step hT hR hd.1 hst,
      locksOwned_step hT hR hL hd.2 hst⟩
  have hI : TableInv s ∧ RxCore s ∧ LocksOwned s :=
    h.invariant (fun s hs => ⟨tableInv_initial hs, rxCore_initial hs, locksOwned_initial hs⟩) hstep
  refine ⟨hI.2.1.rxOwned hI.2.2 hI.1, fun l s' hst => ⟨fun hown => ?_, fun hd => ?_⟩⟩
  · by_contra hd
    exact not_rxOwned_of_undisciplined hI.1 hI.2.1 hd hst hown
  · obtain ⟨hT', hR', hL'⟩ := hstep s l s' hI hd hst
    exact hR'.rxOwned hL' hT'

/-- A host that waits for flow control before it sends, and a message of two fragments. -/
theorem rxOwned_message :
    ∃ s, Lts.Reach HeciDev.Initial (step Platform.nominal) RxDiscipline s ∧
      (s.connections 0).state = 3 ∧ (s.rxMsgs 0).msgLock = true ∧ RxOwned s := by
  obtain ⟨s, hs, hst, hl⟩ := exists_disciplined Platform.nominal RxDiscipline
    (connectCalls (plainClient 1 0 4096 1) 7 ++ ([.op (.sendFlowControl 0),
      .op (.recv (HeciBusMsg.mk' 7 32 false [1, 2, 3]))] : List Call))
    (fun s => (s.connections 0).state = 3 ∧ (s.rxMsgs 0).msgLock = true) (by decide +kernel)
  exact ⟨s, hs, hst, hl, (rxOwned_of_disciplined hs).1⟩

/-- A host that sends a frame before the client has given its buffer back: the buffer stays locked,
and no connection points to it. -/
theorem not_rxOwned_early_frame : ∃ s, Reachable Platform.nominal s ∧ ¬ RxOwned s := by
  obtain ⟨s, hs, hrx, hl, hno⟩ := exists_reachable Platform.nominal
    (connectCalls (plainClient 1 0 4096 1) 7 ++
      ([.op (.recv (HeciBusMsg.mk' 7 32 true [1]))] : List Call))
    (fun s => (s.clients 0).properties.rxMsg = some 0 ∧ (s.rxMsgs 0).msgLock = true ∧
      ∀ c, ¬ Points s c 0) (by decide +kernel)
  refine ⟨s, hs, fun hown => ?_⟩
  obtain ⟨c, -, hc, -⟩ := hown.locked 0 0 hrx hl
  exact hno c hc

end PseFw.Heci
