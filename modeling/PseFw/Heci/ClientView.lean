/-
**What one client sees of the layer.**

The layer talks to a client through its callback, and hands messages over in its receive buffer.  A
client that registers with a callback and a buffer of its own, for one connection, sees little of
what happens: its connection is opened or closed, and messages arrive.  Everything else leaves its
connection and its buffer alone and does not call it.

Main definitions:

* `PseFw.Heci.Owns`, `PseFw.Heci.heard` — the connection of a callback, and what the callback is
  told;
* `PseFw.Heci.Announced` — the message that announces a connection is in the buffer;
* `PseFw.Heci.OwnBuffers` — every client has a callback, a buffer and at most one connection;
* `PseFw.Heci.ClientStep` — what a call does, for one client.

Main results:

* `PseFw.Heci.OwnBuffers.unique` — a callback has one connection;
* `PseFw.Heci.clientStep` — **every call does one of these**.
-/

import PseFw.Heci.RxEffect
import PseFw.Heci.Isolation
import PseFw.Heci.Pairing

set_option relaxedAutoImplicit false
set_option autoImplicit false

namespace PseFw.Heci

open Table

/-! ### The connection of a callback -/

/-- The connection is in use, and its events go to the callback. -/
def Owns (s : HeciDev) (k : EventCb) (c : ConnId) : Prop :=
  Used (s.connections c) ∧ (s.connections c).eventCb = some k

instance (s : HeciDev) (k : EventCb) (c : ConnId) : Decidable (Owns s k c) :=
  inferInstanceAs (Decidable (_ ∧ _))

/-- The connection waits for its client to complete its disconnection. -/
def Closing (x : HeciConn) : Prop := x.state = 4 ∨ x.state = 20

instance (x : HeciConn) : Decidable (Closing x) := inferInstanceAs (Decidable (_ ∨ _))

/-- A connection in use is open or closing. -/
theorem TableInv.open_or_closing {s : HeciDev} (hT : TableInv s) {c : ConnId}
    (h : Used (s.connections c)) : IsOpen (s.connections c) ∨ Closing (s.connections c) := by
  rcases (hT.conns c).state_cases with h0 | h1 | h3 | h4 | h20
  · exact absurd h0 h
  · exact Or.inl (Or.inl h1)
  · exact Or.inl (Or.inr h3)
  · exact Or.inr (Or.inl h4)
  · exact Or.inr (Or.inr h20)

theorem Closing.not_isOpen {x : HeciConn} (h : Closing x) : ¬ IsOpen x := (state_disjoint h).1

/-- What an event tells the callback. -/
def heardOf (k : EventCb) : Event → Option HeciEvent
  | .notify _ (some k') _ event => if k' = k then some event else none
  | _ => none

/-- **What the callback is told** in a part of the trace. -/
def heard (k : EventCb) (evs : List Event) : List HeciEvent := evs.filterMap (heardOf k)

/-- The trace grows by events that tell the callback `hs`. -/
def Hears (k : EventCb) (s s' : HeciDev) (hs : List HeciEvent) : Prop :=
  ∃ evs, s'.events = s.events ++ evs ∧ heard k evs = hs

namespace Hears

variable {k : EventCb} {s s' s'' : HeciDev} {hs hs' : List HeciEvent}

theorem of_eq (h : s'.events = s.events) : Hears k s s' [] := ⟨[], by simp [h], rfl⟩

theorem log (s : HeciDev) (e : Event) : Hears k s (s.log e) (heardOf k e).toList := by
  refine ⟨[e], rfl, ?_⟩
  rw [heard, List.filterMap_cons, List.filterMap_nil]
  cases heardOf k e <;> rfl

theorem trans (h : Hears k s s' hs) (h' : Hears k s' s'' hs') : Hears k s s'' (hs ++ hs') := by
  obtain ⟨evs, he, rfl⟩ := h
  obtain ⟨evs', he', rfl⟩ := h'
  exact ⟨evs ++ evs', by rw [he', he, List.append_assoc], List.filterMap_append ..⟩

/-- Steps that leave the trace alone are not heard. -/
theorem silent (h : Hears k s s' hs) (he : s''.events = s'.events) : Hears k s s'' hs := by
  obtain ⟨evs, he', rfl⟩ := h
  exact ⟨evs, he.trans he', rfl⟩

/-- A talk with the platform is not heard. -/
theorem io {W : HeciBusMsg → Prop} (h : IoStep W s s') : Hears k s s' [] := by
  obtain ⟨evs, he, hev⟩ := h.events
  refine ⟨evs, he, List.filterMap_eq_nil_iff.2 fun e hmem => ?_⟩
  cases hev e hmem <;> rfl

theorem notify {c : ConnId} {event : HeciEvent} (h : Hears k s s' [])
    (hk : (s'.connections c).eventCb = some k) :
    Hears k s (heciNotifyClient c event s') [event] := by
  have hlog := h.trans (Hears.log s' (.notify c (s'.connections c).eventCb
    (s'.connections c).param event))
  have htold : heardOf k (.notify c (s'.connections c).eventCb (s'.connections c).param event) =
      some event := by
    rw [hk]
    exact if_pos rfl
  rw [htold] at hlog
  exact hlog

theorem newEvents (h : Hears k s s' hs) : heard k (newEvents s s') = hs := by
  obtain ⟨evs, he, rfl⟩ := h
  rw [newEvents_eq he]

end Hears

/-! ### The buffer of a callback

The buffer of a client has the name of its callback. -/

/-- A message in the buffer that announces a connection announces this one. -/
def RxOk (s : HeciDev) (k : EventCb) (c : ConnId) : Prop :=
  (s.rxMsgs k).type = .connect → (s.rxMsgs k).connectionId = UInt8.ofNat c

/-- **The message that announces the connection is in the buffer**, and no fragment can replace
it. -/
structure Announced (s : HeciDev) (k : EventCb) (c : ConnId) : Prop where
  state : (s.connections c).state ≠ 3
  msgLock : (s.rxMsgs k).msgLock = true
  type : (s.rxMsgs k).type = .connect
  connectionId : (s.rxMsgs k).connectionId = UInt8.ofNat c

/-- **Every client has a callback and a buffer of its own, and at most one connection.** -/
structure OwnBuffers (s : HeciDev) : Prop where
  own : ∀ i, Registered s i → ∃ k, (s.clients i).properties.eventCb = some k ∧
    (s.clients i).properties.rxMsg = some k ∧ (s.clients i).properties.maxNOfConnections = 1
  inj : ∀ i j, Registered s i → Registered s j →
    (s.clients i).properties.eventCb = (s.clients j).properties.eventCb → i = j

/-- The client of a connection. -/
theorem TableInv.owner {s : HeciDev} (hT : TableInv s) {c : ConnId} (h : Used (s.connections c)) :
    ∃ i, (s.connections c).client = some i ∧ Registered s i ∧
      (s.connections c).eventCb = (s.clients i).properties.eventCb := by
  obtain ⟨i, hi, hne, -, -, -, hcb, -⟩ := (hT.conns c).used h
  exact ⟨i, hi, hne, hcb⟩

theorem ownedBy_iff {i : ClientId} {x : HeciConn} :
    ownedBy i x = true ↔ Used x ∧ x.client = some i := by
  simp [ownedBy, Used]

/-- A connection and the client with its callback belong together. -/
theorem OwnBuffers.client_eq {s : HeciDev} (hT : TableInv s) (hB : OwnBuffers s) {k : EventCb}
    {c : ConnId} {i : ClientId} (h : Owns s k c) (hi : Registered s i)
    (hk : (s.clients i).properties.eventCb = some k) : (s.connections c).client = some i := by
  obtain ⟨j, hj, hreg, hcb⟩ := hT.owner h.1
  rw [hB.inj i j hi hreg (by rw [hk, ← hcb, h.2])]
  exact hj

/-- **A callback has one connection.** -/
theorem OwnBuffers.unique {s : HeciDev} (hT : TableInv s) (hB : OwnBuffers s) {k : EventCb}
    {c d : ConnId} (hc : Owns s k c) (hd : Owns s k d) : c = d := by
  obtain ⟨i, hi, hreg, hcb⟩ := hT.owner hc.1
  have hk : (s.clients i).properties.eventCb = some k := by rw [← hcb, hc.2]
  have hdi := hB.client_eq hT hd hreg hk
  by_contra hne
  obtain ⟨k', -, -, hmax⟩ := hB.own i hreg
  have hlimit := hT.limit i
  rw [hT.count i, hmax] at hlimit
  -- without the first connection the second would still be counted
  have hupd := tally_update (ownedBy i) s.connections c HeciConn.zero
  rw [ownedBy_iff.2 ⟨hc.1, hi⟩] at hupd
  have hpos : 0 < tally (ownedBy i) (Function.update s.connections c HeciConn.zero) := by
    refine tally_pos (i := d) ?_
    rw [Function.update_of_ne (Ne.symm hne)]
    exact ownedBy_iff.2 ⟨hd.1, hdi⟩
  have hone : (1 : UInt8).toNat = 1 := rfl
  have hzero : ownedBy i HeciConn.zero = false := rfl
  rw [hone] at hlimit
  rw [hzero, Bool.toNat_true, Bool.toNat_false] at hupd
  omega

/-- The buffer of a client has the name of its callback. -/
theorem OwnBuffers.eventCb_of_rxMsg {s : HeciDev} (hB : OwnBuffers s) {i : ClientId} {p : RxPtr}
    (hi : Registered s i) (hp : (s.clients i).properties.rxMsg = some p) :
    (s.clients i).properties.eventCb = some p := by
  obtain ⟨k, hk, hrx, -⟩ := hB.own i hi
  rw [hrx] at hp
  cases hp
  exact hk

/-- **A connection in use works with the buffer of its callback.** -/
theorem OwnBuffers.owns_of_rxMsg {s : HeciDev} (hT : TableInv s) (hB : OwnBuffers s) {c : ConnId}
    {i : ClientId} {p : RxPtr} (hc : Used (s.connections c))
    (hi : (s.connections c).client = some i)
    (hp : (s.clients i).properties.rxMsg = some p) : Owns s p c := by
  obtain ⟨j, hj, hreg, hcb⟩ := hT.owner hc
  rw [hi] at hj
  cases hj
  exact ⟨hc, hcb.trans (hB.eventCb_of_rxMsg hreg hp)⟩

theorem OwnBuffers.owns_of_rxBuffer {s : HeciDev} (hT : TableInv s) (hI : PtrInv s)
    (hB : OwnBuffers s) {c : ConnId} {p : RxPtr} (hc : Used (s.connections c))
    (hp : (s.connections c).rxBuffer = some p) : Owns s p c := by
  obtain ⟨i, hi, hrx⟩ := hI.pointer c p hp
  exact hB.owns_of_rxMsg hT hc hi hrx

theorem OwnBuffers.log {s : HeciDev} (h : OwnBuffers s) (e : Event) : OwnBuffers (s.log e) :=
  ⟨h.own, h.inj⟩

/-! ### What a client does not see -/

/-- **The connection and the buffer of the callback stay as they are**, up to what arrives while a
message is received. -/
structure Steady (k : EventCb) (s s' : HeciDev) : Prop where
  owns : ∀ c, Owns s' k c ↔ Owns s k c
  isOpen : ∀ c, Owns s k c → (IsOpen (s'.connections c) ↔ IsOpen (s.connections c))
  rxOk : ∀ c, Owns s k c → RxOk s k c → RxOk s' k c
  announced : ∀ c, Owns s k c → Announced s k c → Announced s' k c

/-- The callback is not called either. -/
structure Unseen (k : EventCb) (s s' : HeciDev) : Prop extends Steady k s s' where
  hears : Hears k s s' []

theorem Steady.trans {k : EventCb} {s s' s'' : HeciDev} (h : Steady k s s')
    (h' : Steady k s' s'') : Steady k s s'' := by
  refine ⟨fun c => (h'.owns c).trans (h.owns c), fun c hc => ?_, fun c hc hr => ?_,
    fun c hc ha => ?_⟩
  · exact (h'.isOpen c ((h.owns c).2 hc)).trans (h.isOpen c hc)
  · exact h'.rxOk c ((h.owns c).2 hc) (h.rxOk c hc hr)
  · exact h'.announced c ((h.owns c).2 hc) (h.announced c hc ha)

/-- The connections of the callback and its buffer are the same. -/
theorem Steady.of_eq {k : EventCb} {s s' : HeciDev}
    (hco : ∀ c, Owns s k c ∨ Owns s' k c →
      (s'.connections c).state = (s.connections c).state ∧
      (s'.connections c).eventCb = (s.connections c).eventCb)
    (hrx : s'.rxMsgs k = s.rxMsgs k) : Steady k s s' := by
  refine ⟨fun c => ⟨fun hc => ?_, fun hc => ?_⟩, fun c hc => ?_, fun c hc hr => ?_,
    fun c hc ha => ?_⟩
  · obtain ⟨hst, hcb⟩ := hco c (Or.inr hc)
    unfold Owns Used at hc ⊢
    rwa [← hst, ← hcb]
  · obtain ⟨hst, hcb⟩ := hco c (Or.inl hc)
    unfold Owns Used at hc ⊢
    rwa [hst, hcb]
  · unfold IsOpen
    rw [(hco c (Or.inl hc)).1]
  · unfold RxOk
    rw [hrx]
    exact hr
  · refine ⟨?_, ?_, ?_, ?_⟩
    · rw [(hco c (Or.inl hc)).1]
      exact ha.state
    · rw [hrx]
      exact ha.msgLock
    · rw [hrx]
      exact ha.type
    · rw [hrx]
      exact ha.connectionId

namespace Unseen

variable {k : EventCb} {s s' s'' : HeciDev}

theorem trans (h : Unseen k s s') (h' : Unseen k s' s'') : Unseen k s s'' :=
  ⟨h.toSteady.trans h'.toSteady, h.hears.trans h'.hears⟩

/-- Nothing a client could see changes. -/
theorem of_eq (hco : s'.connections = s.connections) (hrx : s'.rxMsgs = s.rxMsgs)
    (hh : Hears k s s' []) : Unseen k s s' :=
  ⟨Steady.of_eq (fun _ _ => by rw [hco]; exact ⟨rfl, rfl⟩) (by rw [hrx]), hh⟩

theorem refl (k : EventCb) (s : HeciDev) : Unseen k s s := of_eq rfl rfl (Hears.of_eq rfl)

theorem io {W : HeciBusMsg → Prop} (h : Unseen k s s') (hio : IoStep W s' s'') :
    Unseen k s s'' :=
  h.trans (of_eq hio.connections hio.rxMsgs (Hears.io hio))

theorem log {e : Event} (h : Unseen k s s') (he : heardOf k e = none) :
    Unseen k s (s'.log e) := by
  refine h.trans (of_eq rfl rfl ?_)
  have hlog := Hears.log (k := k) s' e
  rwa [he] at hlog

/-- An entry is replaced by one in the same state, or is none of the callback's. -/
theorem setConn {c : ConnId} {x : HeciConn} (h : Unseen k s s')
    (hx : Owns s' k c ∨ Used x ∧ x.eventCb = some k →
      x.state = (s'.connections c).state ∧ x.eventCb = (s'.connections c).eventCb) :
    Unseen k s (s'.setConn c x) := by
  refine h.trans ⟨Steady.of_eq (fun d hd => ?_) rfl, Hears.of_eq rfl⟩
  unfold Owns at hd
  rw [HeciDev.setConn_connections] at hd ⊢
  by_cases hdc : d = c
  · subst hdc
    rw [Function.update_self] at hd ⊢
    exact hx hd
  · rw [Function.update_of_ne hdc]
    exact ⟨rfl, rfl⟩

theorem setConn_other {c : ConnId} {x : HeciConn} (h : Unseen k s s')
    (hk : (s'.connections c).eventCb ≠ some k) (hx : x.eventCb ≠ some k) :
    Unseen k s (s'.setConn c x) := by
  refine h.setConn fun hor => ?_
  rcases hor with hor | hor
  · exact absurd hor.2 hk
  · exact absurd hor.2 hx

theorem notify_other {c : ConnId} {event : HeciEvent} (h : Unseen k s s')
    (hk : (s'.connections c).eventCb ≠ some k) : Unseen k s (heciNotifyClient c event s') := by
  refine h.log ?_
  cases hcb : (s'.connections c).eventCb with
  | none => rfl
  | some k' =>
      refine if_neg fun he => hk ?_
      rw [hcb, he]

theorem setRx {p : RxPtr} {x : HeciRxMsg} (h : Unseen k s s') (hp : p ≠ k) :
    Unseen k s (s'.setRx p x) := by
  refine h.trans ⟨Steady.of_eq (fun _ _ => ⟨rfl, rfl⟩) ?_, Hears.of_eq rfl⟩
  rw [HeciDev.setRx_rxMsgs, Function.update_of_ne hp.symm]

theorem setSem {c : ConnId} {n : ℕ} (h : Unseen k s s') : Unseen k s (s'.setSem c n) :=
  h.trans (of_eq rfl rfl (Hears.of_eq rfl))

theorem setClient {i : ClientId} {x : HeciClientCtrl} (h : Unseen k s s') :
    Unseen k s (s'.setClient i x) :=
  h.trans (of_eq rfl rfl (Hears.of_eq rfl))

end Unseen

/-! ### What a client sees -/

/-- **What a call does, for one client.** -/
inductive ClientStep (k : EventCb) (l : Call) (s s' : HeciDev) : Prop
  /-- Nothing the client sees. -/
  | unseen : Unseen k s s' → ClientStep k l s s'
  /-- A connection is opened, and announced. -/
  | opened (c : ConnId) : (∀ d, ¬ Owns s k d) → Owns s' k c → IsOpen (s'.connections c) →
      Announced s' k c → Hears k s s' [.newMsg] → ClientStep k l s s'
  /-- A message has arrived, or was given up. -/
  | message (c : ConnId) : Owns s k c → IsOpen (s.connections c) → Steady k s s' →
      Hears k s s' [.newMsg] → ClientStep k l s s'
  /-- The connection is closed. -/
  | closed (c : ConnId) : Owns s k c → IsOpen (s.connections c) →
      (∀ d, Owns s' k d ↔ Owns s k d) → Closing (s'.connections c) →
      s'.rxMsgs k = s.rxMsgs k → Hears k s s' [.disconn] → ClientStep k l s s'
  /-- The client gives its buffer back. -/
  | released (c : ConnId) : l = .op (.sendFlowControl c) → Owns s k c →
      IsOpen (s.connections c) → (∀ d, Owns s' k d ↔ Owns s k d) → IsOpen (s'.connections c) →
      RxOk s' k c → Hears k s s' [] → ClientStep k l s s'
  /-- The client completes the disconnection. -/
  | freed (c : ConnId) : l = .op (.completeDisconnect c) → Owns s k c →
      Closing (s.connections c) → (∀ d, ¬ Owns s' k d) → Hears k s s' [] → ClientStep k l s s'

/-- What was logged before the call is part of it. -/
theorem ClientStep.of_log {k : EventCb} {l : Call} {s s' : HeciDev} {e : Event}
    (he : heardOf k e = none) (h : ClientStep k l (s.log e) s') : ClientStep k l s s' := by
  have hlog : Unseen k s (s.log e) := (Unseen.refl k s).log he
  cases h with
  | unseen h => exact ClientStep.unseen (hlog.trans h)
  | opened c hno hc hopen ha hh =>
      exact ClientStep.opened c hno hc hopen ha (hlog.hears.trans hh)
  | message c hc hopen h hh =>
      exact ClientStep.message c hc hopen (hlog.toSteady.trans h) (hlog.hears.trans hh)
  | closed c hc hopen how hcl hrx hh =>
      exact ClientStep.closed c hc hopen how hcl hrx (hlog.hears.trans hh)
  | released c hl hc hopen how hopen' hr hh =>
      exact ClientStep.released c hl hc hopen how hopen' hr (hlog.hears.trans hh)
  | freed c hl hc hcl hno hh => exact ClientStep.freed c hl hc hcl hno (hlog.hears.trans hh)

section cases

variable {P : Platform} {k : EventCb} {l : Call} {s s' : HeciDev}

/-- The entries of the callback stay its own, also the one that changes its state. -/
theorem owns_setState {c : ConnId} {n : UInt8} (hc : Owns s k c) (hn : n ≠ 0) (d : ConnId) :
    Owns (s.setConn c { s.connections c with state := n }) k d ↔ Owns s k d := by
  by_cases hd : d = c
  · subst hd
    refine iff_of_true ?_ hc
    unfold Owns
    rw [HeciDev.setConn_connections, Function.update_self]
    exact ⟨hn, hc.2⟩
  · unfold Owns
    rw [HeciDev.setConn_connections, Function.update_of_ne hd]

/-- The host closes a connection. -/
theorem clientStep_closed {c : ConnId} (hopen : IsOpen (s.connections c)) :
    ClientStep k l s (heciNotifyClient c .disconn (s.setConn c { s.connections c with
      state := connStateDisconnecting ||| connStateSendDisconnectResp })) := by
  have hcb : ((s.setConn c { s.connections c with
      state := connStateDisconnecting ||| connStateSendDisconnectResp }).connections c).eventCb =
      (s.connections c).eventCb := by
    rw [HeciDev.setConn_connections, Function.update_self]
  by_cases hk : (s.connections c).eventCb = some k
  · have hc : Owns s k c := ⟨hopen.ne_unused, hk⟩
    refine ClientStep.closed c hc hopen (fun d => owns_setState hc (by decide) d) ?_ rfl
      (Hears.notify (Hears.of_eq rfl) (hcb.trans hk))
    show Closing (Function.update s.connections c _ c)
    rw [Function.update_self]
    exact Or.inr rfl
  · have hset := (Unseen.refl k s).setConn_other (x := { s.connections c with
      state := connStateDisconnecting ||| connStateSendDisconnectResp }) hk hk
    exact ClientStep.unseen (hset.notify_other (by rw [hcb]; exact hk))

/-- A connection is opened. -/
theorem clientStep_opened (hT : TableInv s) (hB : OwnBuffers s) {i : ClientId} {c : ConnId}
    {p : RxPtr} {f h : UInt8} (hi : Registered s i)
    (hroom : (s.clients i).nOfConns ≠ (s.clients i).properties.maxNOfConnections)
    (hc : (s.connections c).state = connStateUnused)
    (hp : (s.clients i).properties.rxMsg = some p) :
    ClientStep k l s (openConn c i p f h (lockRx p s)) := by
  have hcb := hB.eventCb_of_rxMsg hi hp
  have hentry : (openConn c i p f h (lockRx p s)).connections c =
      connectedConn (s.connections c) c i (s.clients i).properties f h p := by
    simp [openConn, heciNotifyClient, lockRx]
  by_cases hk : p = k
  · subst hk
    have hnone : ∀ d, ¬ Owns s p d := by
      intro d hd
      have hcl := hB.client_eq hT hd hi hcb
      obtain ⟨k', -, -, hmax⟩ := hB.own i hi
      have hpos := tally_pos (p := ownedBy i) (f := s.connections) (ownedBy_iff.2 ⟨hd.1, hcl⟩)
      have hlimit := hT.limit i
      rw [← hT.count i] at hpos
      refine hroom (UInt8.toNat_inj.1 ?_)
      rw [hmax] at hlimit ⊢
      have hone : (1 : UInt8).toNat = 1 := rfl
      omega
    refine ClientStep.opened c hnone ?_ ?_ ?_ ?_
    · unfold Owns
      rw [hentry]
      exact ⟨by show (1 : UInt8) ≠ 0; decide, hcb⟩
    · rw [hentry]
      exact Or.inl rfl
    · refine ⟨?_, ?_, ?_, ?_⟩
      · rw [hentry]
        show (1 : UInt8) ≠ 3
        decide
      all_goals simp [openConn, heciNotifyClient, lockRx]
    · refine Hears.notify ?_ ?_
      · exact (Hears.log s (.opened c i)).silent rfl
      · simpa [connectedConn, lockRx] using hcb
  · have hne : (s.clients i).properties.eventCb ≠ some k := by
      rw [hcb]
      exact fun he => hk (Option.some.inj he)
    have hlock : Unseen k s ((lockRx p s).setClient i { s.clients i with
        nOfConns := (s.clients i).nOfConns + 1 }) := ((Unseen.refl k s).setRx hk).setClient
    have hset := hlock.setConn (c := c)
      (x := connectedConn (s.connections c) c i (s.clients i).properties f h p) (by
        rintro (hown | ⟨-, hown⟩)
        · exact absurd hc hown.1
        · exact absurd hown hne)
    refine ClientStep.unseen (Unseen.notify_other (((hset.log rfl).setSem).setRx hk) ?_)
    simpa [connectedConn, lockRx] using hne

/-! ### Fragments -/

/-- A fragment for another client is not seen. -/
theorem unseen_fragment (hT : TableInv s) (hI : PtrInv s) (hB : OwnBuffers s) {msg : HeciBusMsg}
    {c : ConnId} (hopen : IsOpen (s.connections c)) (hk : (s.connections c).eventCb ≠ some k)
    (h : FragmentCase P msg s c s') : Unseen k s s' := by
  have hlog : Unseen k s (s.log (.fragment c msg.payload msg.hdr.lastFrag)) :=
    (Unseen.refl k s).log rfl
  cases h with
  | refused i p _ _ _ _ => exact hlog.setConn_other hk hk
  | taken i p s₁ s₂ hcl hacc hcopy =>
      have hacc' : Unseen k s s₁ ∧ (s₁.connections c).eventCb = (s.connections c).eventCb ∧
          p ≠ k := by
        cases hacc with
        | first hst hp hl =>
            have hown := hB.owns_of_rxMsg hT hopen.ne_unused hcl hp
            have hpk : p ≠ k := fun he => hk (he ▸ hown.2)
            refine ⟨(hlog.setConn_other hk ?_).setRx hpk, ?_, hpk⟩
            · exact hk
            · simp
        | next hst hp =>
            have hown := hB.owns_of_rxBuffer hT hI hopen.ne_unused hp
            exact ⟨hlog, rfl, fun he => hk (he ▸ hown.2)⟩
      obtain ⟨h₁, hcb₁, hpk⟩ := hacc'
      have hcopy' : Unseen k s s₂ ∧ (s₂.connections c).eventCb = (s.connections c).eventCb := by
        cases hcopy with
        | oversize _ =>
            have herr : Unseen k s (heciConnectionError P c s₁) :=
              h₁.io (ioStep_busReply P (by decide) s₁)
            have hconn : (heciConnectionError P c s₁).connections = s₁.connections := by
              simp [heciConnectionError]
            refine ⟨(herr.setRx hpk).setConn_other ?_ ?_, ?_⟩
            · rw [HeciDev.setRx_connections, hconn, hcb₁]
              exact hk
            · show (s₁.connections c).eventCb ≠ some k
              rw [hcb₁]
              exact hk
            · rw [HeciDev.setConn_connections, Function.update_self]
              exact hcb₁
        | copied b _ _ => exact ⟨h₁.setRx hpk, hcb₁⟩
      obtain ⟨h₂, hcb₂⟩ := hcopy'
      split
      · have hk₂ : (s₂.connections c).eventCb ≠ some k := by
          rw [hcb₂]
          exact hk
        refine (h₂.setConn_other hk₂ ?_).notify_other ?_
        · exact hk₂
        · rw [HeciDev.setConn_connections, Function.update_self]
          exact hk₂
      · exact h₂

/-- A fragment that is taken leaves no announcement of another connection in the buffer. -/
theorem rxOk_taken {c : ConnId} {i : ClientId} {p : RxPtr} {data : List UInt8} {s₁ s₂ : HeciDev}
    (hacc : AcceptCase s c i p s₁) (hcopy : CopyCase P s₁ c i p data s₂) (hr : RxOk s p c) :
    RxOk s₂ p c := by
  have hr₁ : RxOk s₁ p c := by
    cases hacc with
    | first _ _ _ =>
        intro htype
        simp at htype
    | next _ _ => exact hr
  cases hcopy with
  | oversize _ =>
      unfold RxOk
      rw [HeciDev.setConn_rxMsgs, HeciDev.setRx_rxMsgs, Function.update_self]
      exact hr₁
  | copied b _ _ =>
      intro htype
      simp at htype

/-- Only the end of a message is heard. -/
theorem hears_taken {c : ConnId} {i : ClientId} {p : RxPtr} {data : List UInt8} {s₁ s₂ : HeciDev}
    (hacc : AcceptCase s c i p s₁) (hcopy : CopyCase P s₁ c i p data s₂) : Hears k s s₂ [] := by
  have h₁ : Hears k s s₁ [] := by
    cases hacc with
    | first _ _ _ => exact Hears.of_eq rfl
    | next _ _ => exact Hears.of_eq rfl
  cases hcopy with
  | oversize _ =>
      exact (h₁.trans (Hears.io (ioStep_busReply P (by decide) s₁))).silent rfl
  | copied b _ _ => exact h₁.silent rfl

/-- A fragment for the client itself. -/
theorem clientStep_fragment (hT : TableInv s) (hI : PtrInv s) (hB : OwnBuffers s)
    {msg : HeciBusMsg} {c : ConnId} (hopen : IsOpen (s.connections c))
    (h : FragmentCase P msg s c s') : ClientStep k l s s' := by
  by_cases hk : (s.connections c).eventCb = some k
  · have hc : Owns s k c := ⟨hopen.ne_unused, hk⟩
    have htame := tame_fragment h
    have howns : ∀ d, Owns s' k d ↔ Owns s k d := by
      intro d
      have hd := htame.connections d
      unfold Owns
      rw [hd.eventCb]
      exact and_congr_left fun _ => not_congr (hd.state_iff (by decide))
    have hisOpen : ∀ d, Owns s k d → (IsOpen (s'.connections d) ↔ IsOpen (s.connections d)) :=
      fun d _ => (htame.connections d).isOpen_iff
    have hcb := (htame.connections c).eventCb.trans hk
    cases h with
    | refused i p hst hcl hp hl =>
        refine ClientStep.unseen (((Unseen.refl k s).log rfl).setConn fun _ => ?_)
        exact ⟨rfl, rfl⟩
    | taken i p s₁ s₂ hcl hacc hcopy =>
        have hpk : p = k := by
          have hown : Owns s p c := by
            cases hacc with
            | first _ hp _ => exact hB.owns_of_rxMsg hT hopen.ne_unused hcl hp
            | next _ hp => exact hB.owns_of_rxBuffer hT hI hopen.ne_unused hp
          exact Option.some.inj (hown.2.symm.trans hc.2)
        subst hpk
        -- a buffer that announces a connection is locked, and then no message begins
        have hnot : ¬ Announced s p c := by
          intro ha
          cases hacc with
          | first _ _ hl => exact absurd ha.msgLock (by simpa using hl)
          | next hst _ => exact ha.state hst
        have hunique : ∀ d, Owns s p d → d = c := fun d hd => hB.unique hT hd hc
        have hlog : Hears p s (s.log (.fragment c msg.payload msg.hdr.lastFrag)) [] :=
          Hears.log s _
        have hears := hlog.trans (hears_taken hacc hcopy)
        have hrx : RxOk s p c → RxOk s₂ p c := fun hr => rxOk_taken hacc hcopy hr
        by_cases hlast : msg.hdr.lastFrag = true
        · rw [if_pos hlast] at howns hisOpen hcb ⊢
          refine ClientStep.message c hc hopen ⟨howns, hisOpen, fun d hd hr => ?_,
            fun d hd ha => ?_⟩ ?_
          · rw [hunique d hd] at hr ⊢
            exact hrx hr
          · rw [hunique d hd] at ha
            exact absurd ha hnot
          · exact Hears.notify (hears.silent rfl) hcb
        · rw [if_neg hlast] at howns hisOpen ⊢
          refine ClientStep.unseen ⟨⟨howns, hisOpen, fun d hd hr => ?_, fun d hd ha => ?_⟩, hears⟩
          · rw [hunique d hd] at hr ⊢
            exact hrx hr
          · rw [hunique d hd] at ha
            exact absurd ha hnot
  · exact ClientStep.unseen (unseen_fragment hT hI hB hopen hk h)

/-! ### Resets -/

/-- The entry a reset leaves: an open connection is closed, the others keep their phase. -/
theorem resetEntry_state {c : ConnId} (hT : TableInv s) :
    (IsOpen (s.connections c) ∧
      resetEntry (s.connections c) = { s.connections c with state := 4 }) ∨
    (Closing (s.connections c) ∧
      resetEntry (s.connections c) = { s.connections c with state := 4 }) ∨
    (¬ Used (s.connections c) ∧ resetEntry (s.connections c) = s.connections c) := by
  by_cases hu : Used (s.connections c)
  · have hentry : resetEntry (s.connections c) = { s.connections c with state := 4 } := by
      unfold resetEntry
      refine if_pos ?_
      rcases hT.open_or_closing hu with ho | hcl
      · rw [(hT.conns c).open_iff.2 ho, Bool.true_or]
      · rw [(hT.conns c).disconnecting_iff.2 hcl, Bool.or_true]
    rcases hT.open_or_closing hu with ho | hcl
    · exact Or.inl ⟨ho, hentry⟩
    · exact Or.inr (Or.inl ⟨hcl, hentry⟩)
  · refine Or.inr (Or.inr ⟨hu, if_neg ?_⟩)
    have hst : (s.connections c).state = connStateUnused := not_not.1 hu
    unfold HeciConn.has
    rw [hst]
    decide

theorem owns_reset (hT : TableInv s) (d : ConnId) : Owns (heciReset s) k d ↔ Owns s k d := by
  rw [heciReset_eq hT]
  show Used (resetEntry (s.connections d)) ∧ (resetEntry (s.connections d)).eventCb = some k ↔ _
  have h4 : Used { s.connections d with state := 4 } := by
    show (4 : UInt8) ≠ 0
    decide
  rcases resetEntry_state (c := d) hT with ⟨ho, he⟩ | ⟨hcl, he⟩ | ⟨-, he⟩
  · rw [he]
    exact and_congr_left fun _ => iff_of_true h4 ho.ne_unused
  · rw [he]
    exact and_congr_left fun _ => iff_of_true h4 (state_disjoint hcl).2
  · rw [he]
    exact Iff.rfl

/-- A reset does not tell a callback without an open connection. -/
theorem heard_resetEvents_none {conns : ConnId → HeciConn} {ds : List ConnId}
    (hone : ∀ d ∈ ds, (conns d).has connStateOpen = true → (conns d).eventCb ≠ some k) :
    heard k (resetEvents conns ds) = [] := by
  refine List.filterMap_eq_nil_iff.2 fun e he => ?_
  obtain ⟨d, hd, rfl⟩ := List.mem_map.1 he
  obtain ⟨hmem, hopen⟩ := List.mem_filter.1 hd
  have hne := hone d hmem hopen
  unfold disconnEvent
  cases hcb : (conns d).eventCb with
  | none => rfl
  | some k' => exact if_neg fun he => hne (by rw [hcb, he])

/-- A reset tells the callback about its open connection. -/
theorem heard_resetEvents (conns : ConnId → HeciConn) (c : ConnId)
    (hopen : (conns c).has connStateOpen = true) (hk : (conns c).eventCb = some k)
    (hone : ∀ d, (conns d).has connStateOpen = true → (conns d).eventCb = some k → d = c)
    {ds : List ConnId} (hds : ds.Nodup) :
    heard k (resetEvents conns ds) = if c ∈ ds then [.disconn] else [] := by
  induction ds with
  | nil => rfl
  | cons d ds ih =>
      obtain ⟨hd, hds⟩ := List.nodup_cons.1 hds
      rw [resetEvents_cons, heard, List.filterMap_append]
      show heard k _ ++ heard k _ = _
      rw [ih hds]
      by_cases hdc : d = c
      · subst hdc
        rw [if_neg hd, if_pos (List.mem_cons_self ..), List.append_nil]
        simp [resetEvents, hopen, heard, disconnEvent, hk, heardOf]
      · have hnil : heard k (resetEvents conns [d]) = [] := by
          refine heard_resetEvents_none fun d' hd' ho hcb => hdc ?_
          rw [← List.mem_singleton.1 hd']
          exact hone d' ho hcb
        have hmem : c ∈ d :: ds ↔ c ∈ ds := by
          rw [List.mem_cons, or_iff_right (Ne.symm hdc)]
        rw [hnil, List.nil_append]
        simp only [hmem]

/-- **A reset closes the connection of the client**, or it is not seen. -/
theorem clientStep_reset (hT : TableInv s) (hB : OwnBuffers s) :
    ClientStep k l s (heciReset s) := by
  have hevents : (heciReset s).events =
      s.events ++ .reset :: resetEvents s.connections (List.finRange _) := by rw [heciReset_eq hT]
  have hrx : (heciReset s).rxMsgs = s.rxMsgs := by rw [heciReset_eq hT]
  have hconn : ∀ d, (heciReset s).connections d = resetEntry (s.connections d) := by
    intro d
    rw [heciReset_eq hT]
  by_cases hk : ∃ c, Owns s k c ∧ IsOpen (s.connections c)
  · obtain ⟨c, hc, hopen⟩ := hk
    refine ClientStep.closed c hc hopen (owns_reset hT) ?_ (by rw [hrx]) ⟨_, hevents, ?_⟩
    · rw [hconn]
      rcases resetEntry_state (c := c) hT with ⟨-, he⟩ | ⟨hcl, -⟩ | ⟨hu, -⟩
      · rw [he]
        exact Or.inl rfl
      · exact absurd hopen hcl.not_isOpen
      · exact absurd hc.1 hu
    · show heard k (resetEvents s.connections (List.finRange _)) = _
      rw [heard_resetEvents s.connections c ((hT.conns c).open_iff.2 hopen) hc.2
        (fun d hd hcb => hB.unique hT ⟨hT.used_of_open hd, hcb⟩ hc) (List.nodup_finRange _),
        if_pos (List.mem_finRange c)]
  · refine ClientStep.unseen ⟨⟨owns_reset hT, fun d hd => ?_, fun d _ hr => ?_, fun d hd ha => ?_⟩,
      ⟨_, hevents, ?_⟩⟩
    · have hno : ¬ IsOpen (s.connections d) := fun ho => hk ⟨d, hd, ho⟩
      refine iff_of_false ?_ hno
      rw [hconn]
      rcases resetEntry_state (c := d) hT with ⟨ho, -⟩ | ⟨-, he⟩ | ⟨hu, -⟩
      · exact absurd ho hno
      · rw [he]
        show ¬ ((4 : UInt8) = 1 ∨ (4 : UInt8) = 3)
        decide
      · exact absurd hd.1 hu
    · unfold RxOk
      rw [hrx]
      exact hr
    · refine ⟨?_, by rw [hrx]; exact ha.msgLock, by rw [hrx]; exact ha.type,
        by rw [hrx]; exact ha.connectionId⟩
      rw [hconn]
      rcases resetEntry_state (c := d) hT with ⟨ho, -⟩ | ⟨-, he⟩ | ⟨hu, -⟩
      · exact absurd ⟨d, hd, ho⟩ hk
      · rw [he]
        show (4 : UInt8) ≠ 3
        decide
      · exact absurd hd.1 hu
    · show heard k (resetEvents s.connections (List.finRange _)) = _
      exact heard_resetEvents_none fun d _ ho hcb =>
        hk ⟨d, ⟨hT.used_of_open ho, hcb⟩, hT.isOpen ho⟩

/-! ### Every call -/

/-- A talk with the platform after the call is not seen. -/
theorem ClientStep.io {W : HeciBusMsg → Prop} {s'' : HeciDev} (h : ClientStep k l s s')
    (hio : IoStep W s' s'') : ClientStep k l s s'' := by
  have hu := Unseen.io (Unseen.refl k s') hio
  have hh : ∀ {hs}, Hears k s s' hs → Hears k s s'' hs := by
    intro hs hs'
    have := hs'.trans (Hears.io hio)
    rwa [List.append_nil] at this
  cases h with
  | unseen h => exact ClientStep.unseen (h.trans hu)
  | opened c hno hc hopen ha hs =>
      exact ClientStep.opened c hno ((hu.owns c).2 hc) ((hu.isOpen c hc).2 hopen)
        (hu.announced c hc ha) (hh hs)
  | message c hc hopen h hs =>
      exact ClientStep.message c hc hopen (h.trans hu.toSteady) (hh hs)
  | closed c hc hopen how hcl hrx hs =>
      refine ClientStep.closed c hc hopen (fun d => (hu.owns d).trans (how d)) ?_ ?_ (hh hs)
      · rw [hio.connections]
        exact hcl
      · rw [hio.rxMsgs]
        exact hrx
  | released c hl hc hopen how hopen' hr hs =>
      refine ClientStep.released c hl hc hopen (fun d => (hu.owns d).trans (how d)) ?_ ?_ (hh hs)
      · exact (hu.isOpen c ((how c).2 hc)).2 hopen'
      · exact hu.rxOk c ((how c).2 hc) hr
  | freed c hl hc hcl hno hs =>
      exact ClientStep.freed c hl hc hcl (fun d hd => hno d ((hu.owns d).1 hd)) (hh hs)

theorem clientStep_recv (hT : TableInv s) (hI : PtrInv s) (hB : OwnBuffers s) {msg : HeciBusMsg}
    (h : RecvCase P msg s s') : ClientStep k l s s' := by
  have hrefl := Unseen.refl k s
  cases h with
  | quiet _ hio => exact ClientStep.unseen (hrefl.io hio)
  | stop _ _ _ =>
      refine ClientStep.io ?_ (IoStep.sendProtoMsg (W := fun _ => True) P trivial _)
      exact ClientStep.of_log (e := .fwstIlupHost false) rfl
        (clientStep_reset (hT.log _) (hB.log _))
  | flags act b _ hio =>
      refine ClientStep.unseen (Unseen.io ?_ hio)
      exact Unseen.of_eq rfl rfl (Hears.of_eq rfl)
  | noBuffer c _ _ hio =>
      refine ClientStep.unseen (Unseen.io (hrefl.setConn fun _ => ?_) hio)
      exact ⟨rfl, rfl⟩
  | opened i c p _ _ _ _ hroom hc hp _ =>
      refine ClientStep.io ?_ (IoStep.sendProtoMsg (W := fun _ => True) P trivial _)
      exact clientStep_opened hT hB (registered_of_room hT hroom) hroom (findIdleConn_some hc) hp
  | closed c _ _ hopen _ => exact clientStep_closed hopen
  | unknown _ =>
      exact ClientStep.unseen (hrefl.io (IoStep.sendProtoMsg (W := fun _ => True) P trivial s))
  | granted c n _ _ _ _ =>
      refine ClientStep.unseen (((hrefl.setConn fun _ => ?_).log rfl).setSem)
      exact ⟨rfl, rfl⟩
  | creditReset c _ _ _ _ =>
      refine ClientStep.unseen (Unseen.io ((hrefl.setConn fun _ => ?_).log rfl)
        (ioStep_busReply P (by decide) _))
      exact ⟨rfl, rfl⟩
  | fragment c _ hc hcase =>
      have hopen := (hT.conns c).active_iff.1 (heciFindConn_some hc).1
      exact clientStep_fragment hT hI hB hopen hcase

theorem unseen_send {c : ConnId} (h : SendCase s c s') : Unseen k s s' := by
  have hrefl := Unseen.refl k s
  cases h with
  | refused => exact hrefl
  | timedOut n _ _ =>
      refine (hrefl.setConn fun _ => ?_).setSem
      exact ⟨rfl, rfl⟩
  | written s₁ s₂ sent _ _ hs₁ hio =>
      have h₁ : Unseen k s s₁ := by
        rcases hs₁ with rfl | rfl
        · exact Unseen.refl k _
        · exact hrefl.log rfl
      have h₂ := h₁.io hio
      cases sent with
      | false => exact h₂
      | true =>
          refine (h₂.log rfl).setConn fun _ => ?_
          exact ⟨rfl, rfl⟩

/-- The client gives a buffer back. -/
theorem clientStep_release (hT : TableInv s) (hI : PtrInv s) (hB : OwnBuffers s) {c : ConnId}
    {p : RxPtr} (hl : l = .op (.sendFlowControl c)) (hopen : IsOpen (s.connections c))
    (hp : (s.connections c).rxBuffer = some p) : ClientStep k l s (releaseOpen c p s) := by
  have hown := hB.owns_of_rxBuffer hT hI hopen.ne_unused hp
  have hentry : (releaseOpen c p s).connections c = { s.connections c with rxBuffer := none } :=
    Function.update_self ..
  by_cases hk : p = k
  · subst hk
    have howns : ∀ d, Owns (releaseOpen c p s) p d ↔ Owns s p d := by
      intro d
      unfold Owns releaseOpen
      rw [HeciDev.setConn_connections, HeciDev.setRx_connections]
      by_cases hd : d = c
      · subst hd
        rw [Function.update_self]
      · rw [Function.update_of_ne hd]
    refine ClientStep.released c hl hown hopen howns ?_ ?_ (Hears.of_eq rfl)
    · rw [hentry]
      exact hopen
    · intro htype
      simp [releaseOpen] at htype
  · refine ClientStep.unseen (((Unseen.refl k s).setRx hk).setConn fun _ => ?_)
    exact ⟨rfl, rfl⟩

theorem freeConn_connections {c : ConnId} {i : ClientId} :
    (freeConn c i (respondDisconnect P c (releaseRx c s))).connections =
      Function.update s.connections c HeciConn.zero := by
  show Function.update (respondDisconnect P c (releaseRx c s)).connections c _ = _
  rw [(ioStep_respondDisconnect P c (releaseRx c s)).connections, releaseRx_connections]

/-- The end of a connection leaves two entries in the trace, behind the response. -/
theorem freeConn_events {c : ConnId} {i : ClientId} :
    ∃ evs, (freeConn c i (respondDisconnect P c (releaseRx c s))).events =
      s.events ++ (evs ++ [Event.freed c, Event.creditReset c]) ∧ heard k evs = [] := by
  have hio := ioStep_respondDisconnect P c (releaseRx c s)
  have hrelease : (releaseRx c s).events = s.events := by
    unfold releaseRx
    split <;> rfl
  obtain ⟨evs, he, hnil⟩ := (Hears.of_eq hrelease).trans (Hears.io (k := k) hio)
  refine ⟨evs, ?_, hnil⟩
  show (respondDisconnect P c (releaseRx c s)).events ++ _ = _
  rw [he, List.append_assoc]

theorem hears_freeConn {c : ConnId} {i : ClientId} :
    Hears k s (freeConn c i (respondDisconnect P c (releaseRx c s))) [] := by
  obtain ⟨evs, he, hnil⟩ := freeConn_events (P := P) (k := k) (s := s) (c := c) (i := i)
  refine ⟨_, he, ?_⟩
  rw [heard, List.filterMap_append]
  show heard k evs ++ [] = []
  rw [hnil]
  rfl

/-- The callback loses the connection that is freed. -/
theorem owns_freeConn {c : ConnId} {i : ClientId} {d : ConnId}
    (hd : Owns (freeConn c i (respondDisconnect P c (releaseRx c s))) k d) :
    d ≠ c ∧ Owns s k d := by
  unfold Owns at hd
  rw [freeConn_connections] at hd
  have hdc : d ≠ c := by
    rintro rfl
    rw [Function.update_self] at hd
    exact hd.1 rfl
  rw [Function.update_of_ne hdc] at hd
  exact ⟨hdc, hd⟩

/-- A disconnection is completed. -/
theorem clientStep_freed (hT : TableInv s) (hI : PtrInv s) (hB : OwnBuffers s) {c : ConnId}
    {i : ClientId} (hl : l = .op (.completeDisconnect c)) (hst : Closing (s.connections c)) :
    ClientStep k l s (freeConn c i (respondDisconnect P c (releaseRx c s))) := by
  have hused := (state_disjoint hst).2
  by_cases hk : (s.connections c).eventCb = some k
  · have hc : Owns s k c := ⟨hused, hk⟩
    refine ClientStep.freed c hl hc hst (fun d hd => ?_) hears_freeConn
    obtain ⟨hdc, hd⟩ := owns_freeConn hd
    exact hdc (hB.unique hT hd hc)
  · refine ClientStep.unseen ⟨Steady.of_eq (fun d hd => ?_) ?_, hears_freeConn⟩
    · have hdc : d ≠ c := by
        rintro rfl
        rcases hd with hd | hd
        · exact hk hd.2
        · exact (owns_freeConn hd).1 rfl
      rw [freeConn_connections, Function.update_of_ne hdc]
      exact ⟨rfl, rfl⟩
    · show (respondDisconnect P c (releaseRx c s)).rxMsgs k = _
      rw [(ioStep_respondDisconnect P c (releaseRx c s)).rxMsgs]
      unfold releaseRx
      split
      · rfl
      · next p hp =>
          have hown := hB.owns_of_rxBuffer hT hI hused hp
          rw [HeciDev.setRx_rxMsgs, Function.update_of_ne]
          rintro rfl
          exact hk hown.2

/-- **What a call does, for every client.** -/
theorem clientStep (hT : TableInv s) (hI : PtrInv s) (hB : OwnBuffers s)
    (h : step P l s = some s') : ClientStep k l s s' := by
  cases l with
  | send c msg =>
      obtain ⟨r, hr, rfl⟩ := Option.map_eq_some_iff.1 h
      exact ClientStep.unseen (unseen_send (heciSend_cases hT hr))
  | op o =>
      cases opStep_cases hT h with
      | recv hr =>
          exact ClientStep.of_log rfl (clientStep_recv (hT.log _) (hI.log _) (hB.log _) hr)
      | refused _ => exact ClientStep.unseen (Unseen.refl k s)
      | registered i client p _ _ _ _ _ _ hio =>
          refine ClientStep.unseen (Unseen.io ?_ hio)
          exact Unseen.of_eq rfl rfl (Hears.of_eq rfl)
      | reset => exact clientStep_reset hT hB
      | flowControl c _ _ _ hio => exact ClientStep.unseen ((Unseen.refl k s).io hio)
      | release c p ho hopen hp hio =>
          subst ho
          exact ClientStep.io (clientStep_release hT hI hB rfl hopen hp) hio
      | freed c i ho hst _ =>
          subst ho
          exact clientStep_freed hT hI hB rfl hst

end cases

/-! ### Registrations

Only a registration changes who the clients are. -/

/-- The same clients are registered, with the same properties. -/
def SameClients (s s' : HeciDev) : Prop :=
  ∀ i, (s'.clients i).clientAddr = (s.clients i).clientAddr ∧
    (s'.clients i).properties = (s.clients i).properties

section registrations

variable {P : Platform} {s s' s'' : HeciDev}

theorem SameClients.of_eq (h : s'.clients = s.clients) : SameClients s s' := by
  intro i
  rw [h]
  exact ⟨rfl, rfl⟩

/-- Only the number of connections of a client changes. -/
theorem SameClients.update {i : ClientId} {n : UInt8}
    (h : s'.clients = Function.update s.clients i { s.clients i with nOfConns := n }) :
    SameClients s s' := by
  intro j
  rw [h]
  by_cases hj : j = i
  · subst hj
    rw [Function.update_self]
    exact ⟨rfl, rfl⟩
  · rw [Function.update_of_ne hj]
    exact ⟨rfl, rfl⟩

theorem OwnBuffers.of_same (h : OwnBuffers s) (hs : SameClients s s') : OwnBuffers s' := by
  have hreg : ∀ i, Registered s' i → Registered s i := by
    intro i hi
    unfold Registered at hi
    rwa [(hs i).1] at hi
  refine ⟨fun i hi => ?_, fun i j hi hj he => ?_⟩
  · rw [(hs i).2]
    exact h.own i (hreg i hi)
  · rw [(hs i).2, (hs j).2] at he
    exact h.inj i j (hreg i hi) (hreg j hj) he

theorem sameClients_fragment {msg : HeciBusMsg} {c : ConnId} (h : FragmentCase P msg s c s') :
    SameClients s s' := by
  cases h with
  | refused _ _ _ _ _ _ => exact SameClients.of_eq rfl
  | taken i p s₁ s₂ _ hacc hcopy =>
      have h₁ : s₁.clients = s.clients := by
        cases hacc with
        | first _ _ _ => rfl
        | next _ _ => rfl
      have h₂ : s₂.clients = s₁.clients := by
        cases hcopy with
        | oversize _ =>
            have hio : IoStep (fun _ => True) s₁ (heciConnectionError P c s₁) :=
              IoStep.sendProtoMsg P trivial s₁
            exact hio.clients
        | copied b _ _ => rfl
      refine SameClients.of_eq ?_
      split
      · exact h₂.trans h₁
      · exact h₂.trans h₁

theorem sameClients_recv {msg : HeciBusMsg} (hT : TableInv s) (h : RecvCase P msg s s') :
    SameClients s s' := by
  have hreply : ∀ (data : List UInt8) (s₁ : HeciDev),
      (busReply P data s₁).clients = s₁.clients := fun data s₁ =>
    (IoStep.sendProtoMsg (W := fun _ => True) P trivial s₁).clients
  cases h with
  | quiet _ hio => exact SameClients.of_eq hio.clients
  | stop _ _ _ =>
      refine SameClients.of_eq ((hreply _ _).trans ?_)
      rw [heciReset_eq (hT.log _)]
      rfl
  | flags act b _ hio =>
      intro i
      rw [hio.clients]
      exact ⟨rfl, rfl⟩
  | noBuffer c _ _ hio => exact SameClients.of_eq hio.clients
  | opened i c p _ _ _ _ _ _ _ _ => exact SameClients.update (hreply _ _)
  | closed c _ _ _ _ => exact SameClients.of_eq rfl
  | unknown _ => exact SameClients.of_eq (hreply _ _)
  | granted c n _ _ _ _ => exact SameClients.of_eq rfl
  | creditReset c _ _ _ _ => exact SameClients.of_eq (hreply _ _)
  | fragment c _ _ hcase => exact sameClients_fragment hcase

theorem sameClients_send {c : ConnId} (h : SendCase s c s') : SameClients s s' := by
  cases h with
  | refused => exact SameClients.of_eq rfl
  | timedOut n _ _ => exact SameClients.of_eq rfl
  | written s₁ s₂ sent _ _ hs₁ hio =>
      have h₂ : s₂.clients = s.clients := by
        rw [hio.clients]
        rcases hs₁ with rfl | rfl <;> rfl
      refine SameClients.of_eq ?_
      cases sent with
      | false => exact h₂
      | true => exact h₂

/-- The client that registers has a callback and a buffer of its own, for one connection. -/
def FreshClient (s : HeciDev) (client : HeciClient) : Prop :=
  client.eventCb.isSome ∧ client.rxMsg = client.eventCb ∧ client.maxNOfConnections = 1 ∧
    ∀ i, Registered s i → (s.clients i).properties.eventCb ≠ client.eventCb

instance (s : HeciDev) (client : HeciClient) : Decidable (FreshClient s client) :=
  inferInstanceAs (Decidable (_ ∧ _ ∧ _ ∧ ∀ i, (s.clients i).clientAddr ≠ 0 → _))

theorem OwnBuffers.registered (h : OwnBuffers s) {i : ClientId} {client : HeciClient}
    (hf : FreshClient s client)
    (hcl : s'.clients = Function.update s.clients i (registeredClient i client)) :
    OwnBuffers s' := by
  obtain ⟨hsome, hrx, hmax, hfresh⟩ := hf
  obtain ⟨k, hk⟩ := Option.isSome_iff_exists.1 hsome
  have hnew : (s'.clients i).properties = client := by
    rw [hcl, Function.update_self]
    rfl
  have hold : ∀ j, j ≠ i → s'.clients j = s.clients j := by
    intro j hj
    rw [hcl, Function.update_of_ne hj]
  have hreg : ∀ j, j ≠ i → Registered s' j → Registered s j := by
    intro j hj hr
    unfold Registered at hr
    rwa [hold j hj] at hr
  refine ⟨fun j hj => ?_, fun j j' hj hj' he => ?_⟩
  · by_cases hji : j = i
    · subst hji
      rw [hnew]
      exact ⟨k, hk, hrx.trans hk, hmax⟩
    · rw [hold j hji]
      exact h.own j (hreg j hji hj)
  · by_cases hji : j = i
    · by_cases hj'i : j' = i
      · rw [hji, hj'i]
      · subst hji
        rw [hnew, hold j' hj'i] at he
        exact absurd he.symm (hfresh j' (hreg j' hj'i hj'))
    · by_cases hj'i : j' = i
      · subst hj'i
        rw [hnew, hold j hji] at he
        exact absurd he (hfresh j (hreg j hji hj))
      · rw [hold j hji, hold j' hj'i] at he
        exact h.inj j j' (hreg j hji hj) (hreg j' hj'i hj') he

/-- **The clients keep their buffers** as long as those that register bring their own. -/
theorem OwnBuffers.step (hT : TableInv s) (hB : OwnBuffers s) {l : Call}
    (hl : ∀ client, l = .op (.register (some client)) → FreshClient s client)
    (h : step P l s = some s') : OwnBuffers s' := by
  cases l with
  | send c msg =>
      obtain ⟨r, hr, rfl⟩ := Option.map_eq_some_iff.1 h
      exact hB.of_same (sameClients_send (heciSend_cases hT hr))
  | op o =>
      cases opStep_cases hT h with
      | recv hr => exact (hB.log _).of_same (sameClients_recv (hT.log _) hr)
      | refused _ => exact hB
      | registered i client p ho _ _ _ _ _ hio =>
          subst ho
          exact hB.registered (hl client rfl) hio.clients
      | reset =>
          refine hB.of_same (SameClients.of_eq ?_)
          rw [heciReset_eq hT]
      | flowControl c _ _ _ hio => exact hB.of_same (SameClients.of_eq hio.clients)
      | release c p _ _ _ hio => exact hB.of_same (SameClients.of_eq hio.clients)
      | freed c i _ _ _ =>
          refine hB.of_same (SameClients.update (i := i) (n := (s.clients i).nOfConns - 1) ?_)
          have hio := (ioStep_respondDisconnect P c (releaseRx c s)).clients
          rw [releaseRx_clients] at hio
          show Function.update (respondDisconnect P c (releaseRx c s)).clients i
            { (respondDisconnect P c (releaseRx c s)).clients i with nOfConns := _ } = _
          rw [hio]

end registrations

end PseFw.Heci
