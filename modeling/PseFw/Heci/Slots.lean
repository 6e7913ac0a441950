/-
**What a sender sees of an operation.**

A sender holds on to an entry of the connection table while it waits and while its message is
copied, and the entry changes under it: the host grants credit or takes it back, closes the
connection or opens another one in its place.  This module says, for one entry, what an operation
does to the four things a sender relies on: whether the entry is open, its two addresses, and its
credit.

Main definitions:

* `PseFw.Heci.creditLog` — what happened to the credit of a connection, read off the trace;
* `PseFw.Heci.Opens`, `PseFw.Heci.Closes`, `PseFw.Heci.Grants`, `PseFw.Heci.TakesBack`,
  `PseFw.Heci.Frees` — which operations change an entry, read off their arguments;
* `PseFw.Heci.SlotStep` — what an operation does to one entry.

Main results:

* `PseFw.Heci.opStep_slot` — **every operation does one of these to every entry**.
-/

import PseFw.Heci.Addresses

set_option relaxedAutoImplicit false
set_option autoImplicit false

namespace PseFw.Heci

/-! ### The credit in the trace -/

/-- What happens to the credit of a connection. -/
inductive CreditAct
  | grant (n : ℕ)
  | reset
  | take (before : UInt32)
  | sent
  deriving DecidableEq, Repr

/-- What an event says about the credit of the connection. -/
def creditAct (c : ConnId) : Event → Option CreditAct
  | .creditGranted d n => if d = c then some (.grant n) else none
  | .creditReset d => if d = c then some .reset else none
  | .creditTaken d before => if d = c then some (.take before) else none
  | .sent d => if d = c then some .sent else none
  | _ => none

/-- **What happened to the credit of the connection.** -/
def creditLog (c : ConnId) (s : HeciDev) : List CreditAct := s.events.filterMap (creditAct c)

theorem creditLog_append {s s' : HeciDev} {evs : List Event} (h : s'.events = s.events ++ evs)
    (c : ConnId) : creditLog c s' = creditLog c s ++ evs.filterMap (creditAct c) := by
  rw [creditLog, h, List.filterMap_append]
  rfl

theorem creditLog_concat {s s' : HeciDev} {e : Event} (h : s'.events = s.events ++ [e])
    (c : ConnId) : creditLog c s' = creditLog c s ++ (creditAct c e).toList := by
  rw [creditLog_append h, List.filterMap_cons, List.filterMap_nil]
  cases creditAct c e <;> rfl

/-! ### An entry that does not change -/

/-- A sender sees no difference between the two entries. -/
structure SameSlot (x y : HeciConn) : Prop where
  isOpen : IsOpen y ↔ IsOpen x
  fwAddr : y.fwAddr = x.fwAddr
  hostAddr : y.hostAddr = x.hostAddr
  hostBuffers : y.hostBuffers = x.hostBuffers

theorem SameSlot.refl (x : HeciConn) : SameSlot x x := ⟨Iff.rfl, rfl, rfl, rfl⟩

theorem SameSlot.trans {x y z : HeciConn} (h : SameSlot x y) (h' : SameSlot y z) : SameSlot x z :=
  ⟨h'.isOpen.trans h.isOpen, h'.fwAddr.trans h.fwAddr, h'.hostAddr.trans h.hostAddr,
    h'.hostBuffers.trans h.hostBuffers⟩

theorem SameSlot.between {x y : HeciConn} (h : SameSlot x y) (f k : UInt8) :
    Between y f k ↔ Between x f k := by
  unfold Between
  rw [h.fwAddr, h.hostAddr]

/-- An open entry stays open. -/
theorem SameSlot.of_open {x : HeciConn} (hx : IsOpen x) {n : UInt8} (hn : n = 1 ∨ n = 3)
    (p : Option RxPtr) : SameSlot x { x with state := n, rxBuffer := p } :=
  ⟨iff_of_true hn hx, rfl, rfl, rfl⟩

/-- **A sender sees no difference between the two states.** -/
structure SlotQuiet (s s' : HeciDev) : Prop where
  connections : ∀ c, SameSlot (s.connections c) (s'.connections c)
  log : ∀ c, creditLog c s' = creditLog c s

namespace SlotQuiet

variable {s s' s'' : HeciDev}

theorem refl (s : HeciDev) : SlotQuiet s s := ⟨fun _ => SameSlot.refl _, fun _ => rfl⟩

theorem trans (h : SlotQuiet s s') (h' : SlotQuiet s' s'') : SlotQuiet s s'' :=
  ⟨fun c => (h.connections c).trans (h'.connections c), fun c => (h'.log c).trans (h.log c)⟩

/-- Neither the connections nor the trace change. -/
theorem of_eq (hco : s'.connections = s.connections) (hev : s'.events = s.events) :
    SlotQuiet s s' :=
  ⟨fun c => by rw [hco]; exact SameSlot.refl _, fun c => by rw [creditLog, hev]; rfl⟩

theorem emit {evs : List Event} (h : SlotQuiet s s') (he : ∀ c, ∀ e ∈ evs, creditAct c e = none) :
    SlotQuiet s (s'.emit evs) := by
  refine h.trans ⟨fun _ => SameSlot.refl _, fun c => ?_⟩
  rw [creditLog_append (s := s') rfl, List.filterMap_eq_nil_iff.2 (he c), List.append_nil]

theorem logEvent {e : Event} (h : SlotQuiet s s') (he : ∀ c, creditAct c e = none) :
    SlotQuiet s (s'.log e) := by
  show SlotQuiet s (s'.emit [e])
  refine h.emit fun c e' he' => ?_
  rw [List.mem_singleton.1 he']
  exact he c

theorem io {W : HeciBusMsg → Prop} (h : SlotQuiet s s') (hio : IoStep W s' s'') :
    SlotQuiet s s'' := by
  obtain ⟨evs, he, hev⟩ := hio.events
  refine h.trans ⟨fun c => by rw [hio.connections]; exact SameSlot.refl _, fun c => ?_⟩
  rw [creditLog_append he, List.filterMap_eq_nil_iff.2 fun e hmem => ?_, List.append_nil]
  cases hev e hmem <;> rfl

theorem setConn {c : ConnId} {x : HeciConn} (h : SlotQuiet s s')
    (hx : SameSlot (s'.connections c) x) : SlotQuiet s (s'.setConn c x) := by
  refine h.trans ⟨fun d => ?_, fun _ => rfl⟩
  rw [HeciDev.setConn_connections]
  by_cases hd : d = c
  · subst hd
    rw [Function.update_self]
    exact hx
  · rw [Function.update_of_ne hd]
    exact SameSlot.refl _

theorem setRx {p : RxPtr} {x : HeciRxMsg} (h : SlotQuiet s s') : SlotQuiet s (s'.setRx p x) :=
  h.trans (of_eq rfl rfl)

theorem setSem {c : ConnId} {n : ℕ} (h : SlotQuiet s s') : SlotQuiet s (s'.setSem c n) :=
  h.trans (of_eq rfl rfl)

end SlotQuiet

/-! ### The operations that change an entry -/

/-- The operation opens the entry, for the two addresses. -/
def Opens (s : HeciDev) (c : ConnId) (fwAddr hostAddr : UInt8) : Op → Prop
  | .recv msg => IsBusMsg busMsgClientConnectReq 4 msg ∧ msg.byte 1 = fwAddr ∧
      msg.byte 2 = hostAddr ∧ hostAddr ≠ 0 ∧ findIdleConn s = some c ∧
      ∃ i ∈ findClient fwAddr s, HasRoom s i
  | _ => False

/-- The operation closes the entry. -/
def Closes (s : HeciDev) (c : ConnId) : Op → Prop
  | .reset => IsOpen (s.connections c)
  | .recv msg => msg.hdr.fwAddr = heciDriverAddress ∧
      (msg.byte 0 = busMsgHostStopReq ∧ IsOpen (s.connections c) ∨
        IsDisconnReq msg ∧ heciFindConn (msg.byte 1) (msg.byte 2)
          (connStateOpen ||| connStateConnectionRequest) s = some c)
  | _ => False

/-- The operation grants `n` messages on the entry. -/
def Grants (s : HeciDev) (c : ConnId) (n : UInt8) : Op → Prop
  | .recv msg => IsBusMsg busMsgFlowControl 8 msg ∧
      heciFindConn (msg.byte 1) (msg.byte 2) connStateOpen s = some c ∧
      grantedPackets (msg.byte 3) = n
  | _ => False

/-- The operation takes back the credit of the entry. -/
def TakesBack (s : HeciDev) (c : ConnId) : Op → Prop
  | .recv msg => IsBusMsg busMsgResetReq 4 msg ∧
      heciFindConn (msg.byte 1) (msg.byte 2) connStateOpen s = some c
  | _ => False

/-- The operation frees the entry. -/
def Frees (s : HeciDev) (c : ConnId) : Op → Prop
  | .completeDisconnect n => n = c ∧ (s.connections c).has connStateDisconnecting = true
  | _ => False

section decidable

variable (s : HeciDev) (c : ConnId)

instance (o : Op) (p : UInt8 → UInt8 → Prop) [∀ f h, Decidable (p f h)] :
    Decidable (∀ f h, Opens s c f h o → p f h) :=
  match o with
  | .recv msg => decidable_of_iff (IsBusMsg busMsgClientConnectReq 4 msg ∧ msg.byte 2 ≠ 0 ∧
      findIdleConn s = some c ∧ (∃ i ∈ findClient (msg.byte 1) s, HasRoom s i) →
        p (msg.byte 1) (msg.byte 2))
      ⟨by rintro h _ _ ⟨hm, rfl, rfl, hrest⟩; exact h ⟨hm, hrest⟩,
        fun h ⟨hm, hrest⟩ => h _ _ ⟨hm, rfl, rfl, hrest⟩⟩
  | .register _ | .sendFlowControl _ | .completeDisconnect _ | .reset =>
      isTrue fun _ _ => False.elim

instance (o : Op) : Decidable (Closes s c o) :=
  match o with
  | .reset => inferInstanceAs (Decidable (IsOpen _))
  | .recv _ => inferInstanceAs (Decidable (_ ∧ (_ ∧ _ ∨ _ ∧ _)))
  | .register _ | .sendFlowControl _ | .completeDisconnect _ => isFalse id

instance (o : Op) (p : UInt8 → Prop) [DecidablePred p] : Decidable (∀ n, Grants s c n o → p n) :=
  match o with
  | .recv msg => decidable_of_iff (IsBusMsg busMsgFlowControl 8 msg ∧
      heciFindConn (msg.byte 1) (msg.byte 2) connStateOpen s = some c →
        p (grantedPackets (msg.byte 3)))
      ⟨by rintro h _ ⟨hm, hfind, rfl⟩; exact h ⟨hm, hfind⟩, fun h ⟨hm, hf⟩ => h _ ⟨hm, hf, rfl⟩⟩
  | .register _ | .sendFlowControl _ | .completeDisconnect _ | .reset => isTrue fun _ => False.elim

instance (o : Op) : Decidable (TakesBack s c o) :=
  match o with
  | .recv _ => inferInstanceAs (Decidable (_ ∧ _))
  | .register _ | .sendFlowControl _ | .completeDisconnect _ | .reset => isFalse id

instance (o : Op) : Decidable (Frees s c o) :=
  match o with
  | .completeDisconnect _ => inferInstanceAs (Decidable (_ ∧ _))
  | .register _ | .recv _ | .sendFlowControl _ | .reset => isFalse id

end decidable

/-- **What an operation does to an entry.** -/
inductive SlotStep (o : Op) (s s' : HeciDev) (c : ConnId) : Prop
  | same : SameSlot (s.connections c) (s'.connections c) → creditLog c s' = creditLog c s →
      SlotStep o s s' c
  | opened (f h : UInt8) : Opens s c f h o → (s.connections c).state = connStateUnused →
      IsOpen (s'.connections c) → Between (s'.connections c) f h →
      (s'.connections c).hostBuffers = (s.connections c).hostBuffers →
      creditLog c s' = creditLog c s → SlotStep o s s' c
  | closed : Closes s c o → IsOpen (s.connections c) → ¬ IsOpen (s'.connections c) →
      (s'.connections c).hostBuffers = (s.connections c).hostBuffers →
      creditLog c s' = creditLog c s → SlotStep o s s' c
  | granted (n : UInt8) : Grants s c n o → IsOpen (s.connections c) → IsOpen (s'.connections c) →
      Between (s'.connections c) (s.connections c).fwAddr (s.connections c).hostAddr →
      (s'.connections c).hostBuffers = (s.connections c).hostBuffers + n.toUInt32 →
      creditLog c s' = creditLog c s ++ [.grant n.toNat] → SlotStep o s s' c
  | takenBack : TakesBack s c o → IsOpen (s.connections c) → IsOpen (s'.connections c) →
      Between (s'.connections c) (s.connections c).fwAddr (s.connections c).hostAddr →
      (s'.connections c).hostBuffers = 0 → creditLog c s' = creditLog c s ++ [.reset] →
      SlotStep o s s' c
  | freed : Frees s c o → ¬ IsOpen (s.connections c) → ¬ IsOpen (s'.connections c) →
      (s'.connections c).hostBuffers = 0 → creditLog c s' = creditLog c s ++ [.reset] →
      SlotStep o s s' c

theorem SlotQuiet.slotStep {s s' : HeciDev} (h : SlotQuiet s s') (o : Op) (c : ConnId) :
    SlotStep o s s' c :=
  SlotStep.same (h.connections c) (h.log c)

/-- What a sender does not see can follow. -/
theorem SlotStep.quiet {o : Op} {s s₁ s' : HeciDev} {c : ConnId} (h : SlotStep o s s₁ c)
    (hq : SlotQuiet s₁ s') : SlotStep o s s' c := by
  have hc := hq.connections c
  have hl := hq.log c
  cases h with
  | same hs hlog => exact .same (hs.trans hc) (hl.trans hlog)
  | opened f h ho hidle hopen hb hhb hlog =>
      exact .opened f h ho hidle (hc.isOpen.2 hopen) ((hc.between _ _).2 hb)
        (hc.hostBuffers.trans hhb) (hl.trans hlog)
  | closed ho hopen hnot hhb hlog =>
      exact .closed ho hopen (fun h => hnot (hc.isOpen.1 h)) (hc.hostBuffers.trans hhb)
        (hl.trans hlog)
  | granted n ho hopen hopen' hb hhb hlog =>
      exact .granted n ho hopen (hc.isOpen.2 hopen') ((hc.between _ _).2 hb)
        (hc.hostBuffers.trans hhb) (hl.trans hlog)
  | takenBack ho hopen hopen' hb hhb hlog =>
      exact .takenBack ho hopen (hc.isOpen.2 hopen') ((hc.between _ _).2 hb)
        (hc.hostBuffers.trans hhb) (hl.trans hlog)
  | freed ho hopen hnot hhb hlog =>
      exact .freed ho hopen (fun h => hnot (hc.isOpen.1 h)) (hc.hostBuffers.trans hhb)
        (hl.trans hlog)

/-- An event that is already in the trace changes nothing. -/
theorem SlotStep.of_log {o : Op} {e : Event} {s s' : HeciDev} {c : ConnId}
    (he : ∀ d, creditAct d e = none) (h : SlotStep o (s.log e) s' c) : SlotStep o s s' c := by
  have hlog : creditLog c (s.log e) = creditLog c s := ((SlotQuiet.refl s).logEvent he).log c
  cases h with
  | same hs hl => exact .same hs (hl.trans hlog)
  | opened f h ho hidle hopen hb hhb hl =>
      cases o <;> exact .opened f h ho hidle hopen hb hhb (hl.trans hlog)
  | closed ho hopen hnot hhb hl =>
      cases o <;> exact .closed ho hopen hnot hhb (hl.trans hlog)
  | granted n ho hopen hopen' hb hhb hl =>
      cases o <;> exact .granted n ho hopen hopen' hb hhb (by rw [hl, hlog])
  | takenBack ho hopen hopen' hb hhb hl =>
      cases o <;> exact .takenBack ho hopen hopen' hb hhb (by rw [hl, hlog])
  | freed ho hopen hnot hhb hl =>
      cases o <;> exact .freed ho hopen hnot hhb (by rw [hl, hlog])

/-- One entry changes. -/
theorem slotStep_update {o : Op} {s s₁ : HeciDev} {c : ConnId} {x : HeciConn} (evs : List Event)
    (hco : s₁.connections = Function.update s.connections c x) (hev : s₁.events = s.events ++ evs)
    (hother : ∀ d, d ≠ c → evs.filterMap (creditAct d) = [])
    (hc : SlotStep o s s₁ c) (d : ConnId) : SlotStep o s s₁ d := by
  by_cases hd : d = c
  · subst hd
    exact hc
  · refine SlotStep.same ?_ ?_
    · rw [hco, Function.update_of_ne hd]
      exact SameSlot.refl _
    · rw [creditLog_append hev, hother d hd, List.append_nil]

/-! ### Resets and fragments -/

theorem slotStep_reset {o : Op} {s : HeciDev} (hT : TableInv s)
    (ho : ∀ c, IsOpen (s.connections c) → Closes s c o) (c : ConnId) :
    SlotStep o s (heciReset s) c := by
  have hlog : creditLog c (heciReset s) = creditLog c s := by
    rw [heciReset_eq hT]
    refine (creditLog_append rfl c).trans ?_
    rw [List.filterMap_eq_nil_iff.2 fun e hmem => ?_, List.append_nil]
    rcases List.mem_cons.1 hmem with rfl | hmem
    · rfl
    · obtain ⟨d, -, rfl⟩ := List.mem_map.1 hmem
      rfl
  have hco : (heciReset s).connections c = resetEntry (s.connections c) := by rw [heciReset_eq hT]
  by_cases hopen : IsOpen (s.connections c)
  · have hentry : resetEntry (s.connections c) =
        { s.connections c with state := connStateDisconnecting } := by
      unfold resetEntry
      rw [if_pos (by rw [(hT.conns c).open_iff.2 hopen]; rfl)]
    refine SlotStep.closed (ho c hopen) hopen ?_ (by rw [hco, hentry]) hlog
    rw [hco, hentry]
    rintro (h | h)
    · exact absurd (show (4 : UInt8) = 1 from h) (by decide)
    · exact absurd (show (4 : UInt8) = 3 from h) (by decide)
  · refine SlotStep.same ?_ hlog
    rw [hco]
    unfold resetEntry
    split
    · refine ⟨iff_of_false ?_ hopen, rfl, rfl, rfl⟩
      rintro (h | h)
      · exact absurd (show (4 : UInt8) = 1 from h) (by decide)
      · exact absurd (show (4 : UInt8) = 3 from h) (by decide)
    · exact SameSlot.refl _

theorem slotQuiet_accept {s s₁ : HeciDev} {c : ConnId} {i : ClientId} {p : RxPtr}
    (h : AcceptCase s c i p s₁) : SlotQuiet s s₁ := by
  cases h with
  | next _ _ => exact SlotQuiet.refl s
  | first hst _ _ =>
      exact SlotQuiet.setRx (SlotQuiet.setConn (SlotQuiet.refl s)
        (SameSlot.of_open (Or.inl hst) (Or.inr rfl) _))

theorem slotQuiet_copy {P : Platform} {s s₂ : HeciDev} {c : ConnId} {i : ClientId} {p : RxPtr}
    {data : List UInt8} (hst : (s.connections c).state = 3) (h : CopyCase P s c i p data s₂) :
    SlotQuiet s s₂ := by
  cases h with
  | copied b _ _ => exact SlotQuiet.setRx (SlotQuiet.refl s)
  | oversize _ =>
      have hio : SlotQuiet s (heciConnectionError P c s) :=
        (SlotQuiet.refl s).io (IoStep.sendProtoMsg (W := fun _ => True) P trivial s)
      have hco : (heciConnectionError P c s).connections = s.connections := by
        simp [heciConnectionError]
      refine SlotQuiet.setConn (SlotQuiet.setRx hio) ?_
      rw [HeciDev.setRx_connections, hco]
      exact SameSlot.of_open (Or.inr hst) (Or.inl rfl) _

theorem slotQuiet_fragment {P : Platform} {msg : HeciBusMsg} {s s' : HeciDev} {c : ConnId}
    (h : FragmentCase P msg s c s') : SlotQuiet s s' := by
  have hlog : ∀ e : Event, (∀ d, creditAct d e = none) → SlotQuiet s (s.log e) :=
    fun e he => SlotQuiet.logEvent (SlotQuiet.refl s) he
  cases h with
  | refused i p hst _ _ _ =>
      refine SlotQuiet.setConn (hlog _ fun _ => rfl) ?_
      exact SameSlot.of_open (x := s.connections c) (Or.inl hst) (Or.inl hst) none
  | taken i p s₁ s₂ _ hacc hcopy =>
      have h₁ := (hlog _ fun _ => rfl).trans (slotQuiet_accept hacc)
      have hst₁ := (accept_state hacc).1
      have h₂ := h₁.trans (slotQuiet_copy hst₁ hcopy)
      split
      · refine SlotQuiet.logEvent (SlotQuiet.setConn h₂ ?_) fun _ => rfl
        have hopen := (tame_copy hst₁ hcopy).2
        have hone : (s₂.connections c).state &&& ~~~ connStateProcessingMsg = 1 := by
          rcases hopen with hs | hs <;> rw [hs] <;> decide
        rw [hone]
        exact SameSlot.of_open hopen (Or.inl rfl) _
      · exact h₂

/-! ### Frames and operations -/

/-- A connection that is not open. -/
theorem not_isOpen {x : HeciConn} {n : UInt8} (h : x.state = n) (hn : n ≠ 1 ∧ n ≠ 3) :
    ¬ IsOpen x := by
  rintro (h' | h')
  · exact hn.1 (h.symm.trans h')
  · exact hn.2 (h.symm.trans h')

theorem slotStep_opened {P : Platform} {msg : HeciBusMsg} {s : HeciDev} {i : ClientId} {d : ConnId}
    {p : RxPtr} (hm : IsBusMsg busMsgClientConnectReq 4 msg)
    (hi : findClient (msg.byte 1) s = some i) (hhost : msg.byte 2 ≠ 0) (hroom : HasRoom s i)
    (hidle : findIdleConn s = some d) (c : ConnId) :
    SlotStep (.recv msg) s (busReply P (connRespBytes (msg.byte 1) (msg.byte 2) .success)
      (openConn d i p (msg.byte 1) (msg.byte 2) (lockRx p s))) c := by
  refine SlotStep.quiet ?_ ((SlotQuiet.refl _).io (ioStep_busReply P (by decide) _))
  have hco : (openConn d i p (msg.byte 1) (msg.byte 2) (lockRx p s)).connections =
      Function.update s.connections d (connectedConn (s.connections d) d i
        (s.clients i).properties (msg.byte 1) (msg.byte 2) p) := rfl
  have hself := congrFun hco d
  rw [Function.update_self] at hself
  have hev : (openConn d i p (msg.byte 1) (msg.byte 2) (lockRx p s)).events = s.events ++
      [Event.opened d i, Event.notify d (s.clients i).properties.eventCb
        (s.clients i).properties.param .newMsg] := by
    simp [openConn, lockRx, heciNotifyClient, connectedConn]
  refine slotStep_update _ hco hev (fun _ _ => rfl) ?_ c
  refine SlotStep.opened (msg.byte 1) (msg.byte 2) ⟨hm, rfl, rfl, hhost, hidle, i, hi, hroom⟩
    (findIdleConn_some hidle) ?_ ?_ ?_ ?_
  · rw [hself]
    exact Or.inl rfl
  · rw [hself]
    exact ⟨rfl, rfl⟩
  · rw [hself]
    rfl
  · rw [creditLog_append hev]
    exact List.append_nil _

theorem slotStep_recv {P : Platform} {msg : HeciBusMsg} {s s' : HeciDev} (hT : TableInv s)
    (h : RecvCase P msg s s') (c : ConnId) : SlotStep (.recv msg) s s' c := by
  have hquiet := SlotQuiet.refl s
  cases h with
  | quiet _ hio => exact (hquiet.io hio).slotStep _ c
  | stop _ hfw hb =>
      have hreset : SlotStep (.recv msg) (s.log (.fwstIlupHost false))
          (heciReset (s.log (.fwstIlupHost false))) c := by
        refine slotStep_reset (hT.log _) (fun d hopen => ?_) c
        exact ⟨hfw, Or.inl ⟨hb, hopen⟩⟩
      refine SlotStep.of_log (e := .fwstIlupHost false) (fun _ => rfl) (hreset.quiet ?_)
      exact (SlotQuiet.refl _).io (IoStep.sendProtoMsg (W := fun _ => True) P trivial _)
  | flags act b _ hio =>
      refine SlotStep.quiet ?_ ((SlotQuiet.refl _).io hio)
      refine SlotQuiet.slotStep ?_ _ c
      exact SlotQuiet.of_eq rfl rfl
  | noBuffer d _ _ hio =>
      refine SlotStep.quiet (SlotQuiet.slotStep (SlotQuiet.setConn hquiet ?_) _ c)
        ((SlotQuiet.refl _).io hio)
      exact ⟨Iff.rfl, rfl, rfl, rfl⟩
  | opened i d p hm hi hhost hact hroom hidle hp hl =>
      exact slotStep_opened hm hi hhost ⟨hact, hroom, by rw [hidle]; rfl, rxFree_iff.2 ⟨p, hp, hl⟩⟩
        hidle c
  | closed d hm hfind hopen hbetween =>
      refine slotStep_update (c := d) [_] rfl rfl (fun _ _ => rfl) ?_ c
      refine SlotStep.closed ⟨hm.1, Or.inr ⟨hm, hfind⟩⟩ hopen ?_ ?_ ?_
      · refine not_isOpen (n := connStateDisconnecting ||| connStateSendDisconnectResp) ?_
          (by decide)
        simp [heciNotifyClient]
      · simp [heciNotifyClient]
      · rw [creditLog_concat (s := s) rfl]
        exact List.append_nil _
  | unknown _ =>
      exact (hquiet.io (IoStep.sendProtoMsg (W := fun _ => True) P trivial s)).slotStep _ c
  | granted d n hm hfind hopen hbetween =>
      refine slotStep_update (c := d) [_] rfl rfl (fun e he => ?_) ?_ c
      · simp [creditAct, he.symm]
      · refine SlotStep.granted (grantedPackets (msg.byte 3)) ⟨hm, hfind, rfl⟩ hopen ?_ ?_ ?_ ?_
        · simpa [IsOpen] using hopen
        · simp [Between]
        · simp
        · rw [creditLog_concat (s := s) rfl]
          simp [creditAct]
  | creditReset d hm hfind hopen hbetween =>
      refine SlotStep.quiet ?_ ((SlotQuiet.refl _).io (ioStep_busReply P (by decide) _))
      refine slotStep_update (c := d) [_] rfl rfl (fun e he => ?_) ?_ c
      · simp [creditAct, he.symm]
      · refine SlotStep.takenBack ⟨hm, hfind⟩ hopen ?_ ?_ ?_ ?_
        · simpa [IsOpen] using hopen
        · simp [Between]
        · simp
        · rw [creditLog_concat (s := s) rfl]
          simp [creditAct]
  | fragment d _ _ hcase => exact (slotQuiet_fragment hcase).slotStep _ c

theorem not_isOpen_of_disconnecting {x : HeciConn} (h : x.state = 4 ∨ x.state = 20) :
    ¬ IsOpen x := by
  rcases h with h | h
  · exact not_isOpen h (by decide)
  · exact not_isOpen h (by decide)

theorem slotStep_freed {P : Platform} {s : HeciDev} {d : ConnId} {i : ClientId}
    (hdis : (s.connections d).has connStateDisconnecting = true)
    (hnot : ¬ IsOpen (s.connections d)) (c : ConnId) :
    SlotStep (.completeDisconnect d) s
      (freeConn d i (respondDisconnect P d (releaseRx d s))) c := by
  have hquiet : SlotQuiet s (respondDisconnect P d (releaseRx d s)) := by
    refine SlotQuiet.io ?_ (ioStep_respondDisconnect P d _)
    unfold releaseRx
    split
    · exact SlotQuiet.refl s
    · exact SlotQuiet.setRx (SlotQuiet.refl s)
  generalize respondDisconnect P d (releaseRx d s) = t at hquiet ⊢
  have hev : (freeConn d i t).events = t.events ++ [Event.freed d, Event.creditReset d] := rfl
  have hco : (freeConn d i t).connections = Function.update t.connections d HeciConn.zero := rfl
  by_cases hc : c = d
  · subst hc
    refine SlotStep.freed ⟨rfl, hdis⟩ hnot ?_ ?_ ?_
    · rw [hco, Function.update_self]
      exact not_isOpen (n := connStateUnused) rfl (by decide)
    · rw [hco, Function.update_self]
      rfl
    · rw [creditLog_append hev, hquiet.log]
      simp [creditAct, List.filterMap_cons]
  · refine SlotStep.same ?_ ?_
    · rw [hco, Function.update_of_ne hc]
      exact hquiet.connections c
    · rw [creditLog_append hev, hquiet.log]
      simp [creditAct, List.filterMap_cons, Ne.symm hc]

/-- **Every operation does one of these things to every entry.** -/
theorem opStep_slot {P : Platform} {o : Op} {s s' : HeciDev} (hT : TableInv s)
    (h : opStep P o s = some s') (c : ConnId) : SlotStep o s s' c := by
  have hquiet := SlotQuiet.refl s
  cases opStep_cases hT h with
  | recv hr => exact (slotStep_recv (hT.log _) hr c).of_log fun _ => rfl
  | refused _ => exact hquiet.slotStep _ c
  | registered i client p _ _ _ _ _ _ hio =>
      refine SlotStep.quiet ?_ ((SlotQuiet.refl _).io hio)
      refine SlotQuiet.slotStep ?_ _ c
      exact SlotQuiet.of_eq rfl rfl
  | reset =>
      refine slotStep_reset (o := .reset) hT (fun d hopen => ?_) c
      exact hopen
  | flowControl d _ _ _ hio => exact (hquiet.io hio).slotStep _ c
  | release d p _ hopen _ hio =>
      refine SlotStep.quiet (SlotQuiet.slotStep (SlotQuiet.setConn (SlotQuiet.setRx hquiet) ?_) _ c)
        ((SlotQuiet.refl _).io hio)
      exact ⟨Iff.rfl, rfl, rfl, rfl⟩
  | freed d i ho hst _ =>
      subst ho
      exact slotStep_freed ((hT.conns d).disconnecting_iff.2 hst)
        (not_isOpen_of_disconnecting hst) c

end PseFw.Heci
