/-
**The life of a connection.**

Three paths close a connection: the host asks for it, the host stops or notifies a reset, and the
system enters a sleep state.  Each of them has to tell the client, unless another one already did,
and only the client's own completion frees the connection.  So the trace of a connection should read
as a sequence of whole lives, *opened, told, freed*, followed by the part of a life that is still
going on; and that part should be the one its state shows.

Main definitions:

* `PseFw.Heci.LifeEvent`, `PseFw.Heci.lifeTrace` — what the trace says about one connection;
* `PseFw.Heci.wholeLife`, `PseFw.Heci.LifeSoFar` — a life that is over, and one that is not;
* `PseFw.Heci.LifeInv` — the invariant.

Main results:

* `PseFw.Heci.lifeInv_effect` — every effect of a call keeps the invariant;
* `PseFw.Heci.lifeTrace_of_reachable` — **every client is told exactly once in every life**.
-/

import PseFw.Heci.Effect

set_option relaxedAutoImplicit false
set_option autoImplicit false

namespace PseFw.Heci

/-! ### The trace of one connection -/

/-- What the trace says about the life of a connection: for whom it was opened, which callback ran
when it was closed, and that it was freed. -/
inductive LifeEvent
  | opened (client : ClientId)
  | disconn (cb : Option EventCb) (param : ℕ)
  | freed
  deriving DecidableEq, Repr

/-- The reading of an event for the connection `c`. -/
def lifeEvent (c : ConnId) : Event → Option LifeEvent
  | .opened d i => if d = c then some (.opened i) else none
  | .notify d cb param .disconn => if d = c then some (.disconn cb param) else none
  | .freed d => if d = c then some .freed else none
  | _ => none

/-- **The trace of one connection.** -/
def lifeTrace (c : ConnId) (s : HeciDev) : List LifeEvent := s.events.filterMap (lifeEvent c)

theorem lifeTrace_log (c : ConnId) (s : HeciDev) (e : Event) :
    lifeTrace c (s.log e) = lifeTrace c s ++ (lifeEvent c e).toList := by
  unfold lifeTrace
  rw [HeciDev.log_events, List.filterMap_append]
  cases h : lifeEvent c e <;> simp [h]

theorem lifeEvent_eq_none_of_quiet {c : ConnId} {e : Event} (he : e.Quiet) :
    lifeEvent c e = none := by
  cases e with
  | notify d cb param event =>
      cases he
      rfl
  | opened d i => exact absurd he id
  | freed d => exact absurd he id
  | _ => rfl

theorem lifeTrace_tame {s s' : HeciDev} (h : Tame s s') (c : ConnId) :
    lifeTrace c s' = lifeTrace c s := by
  obtain ⟨evs, he, hev⟩ := h.events
  have hnil : evs.filterMap (lifeEvent c) = [] := by
    rw [List.filterMap_eq_nil_iff]
    exact fun e hmem => lifeEvent_eq_none_of_quiet (hev e hmem)
  unfold lifeTrace
  rw [he, List.filterMap_append, hnil, List.append_nil]

theorem lifeTrace_io {W : HeciBusMsg → Prop} {s s' : HeciDev} (h : IoStep W s s') (c : ConnId) :
    lifeTrace c s' = lifeTrace c s :=
  h.filterMap_events fun e he => by cases he <;> rfl

/-- A reset tells the client of an open connection, once. -/
theorem filterMap_resetEvents {conns : ConnId → HeciConn} {l : List ConnId} (hl : l.Nodup)
    (c : ConnId) : (resetEvents conns l).filterMap (lifeEvent c) =
      if c ∈ l ∧ (conns c).has connStateOpen = true then
        [.disconn (conns c).eventCb (conns c).param]
      else [] := by
  induction l with
  | nil => simp [resetEvents]
  | cons d l ih =>
      obtain ⟨hd, hl⟩ := List.nodup_cons.1 hl
      have hhead : (resetEvents conns [d]).filterMap (lifeEvent c) =
          if d = c ∧ (conns c).has connStateOpen = true then
            [.disconn (conns c).eventCb (conns c).param]
          else [] := by
        by_cases hdc : d = c
        · subst hdc
          by_cases ho : (conns d).has connStateOpen = true <;>
            simp [resetEvents, ho, disconnEvent, lifeEvent]
        · by_cases ho : (conns d).has connStateOpen = true <;>
            simp [resetEvents, ho, disconnEvent, lifeEvent, hdc]
      rw [resetEvents_cons, List.filterMap_append, ih hl, hhead]
      by_cases hdc : d = c
      · subst hdc
        simp [hd]
      · simp [hdc, Ne.symm hdc]

/-! ### Lives -/

/-- The callback that tells the client that its connection is closed. -/
def closing (s : HeciDev) (i : ClientId) : LifeEvent :=
  .disconn (s.clients i).properties.eventCb (s.clients i).properties.param

/-- **A life that is over**: the connection was opened, its client was told, it was freed. -/
def wholeLife (s : HeciDev) (i : ClientId) : List LifeEvent := [.opened i, closing s i, .freed]

/-- **A life that is not over**, as far as it went: nothing for an unused connection, the opening
for an open one, and the opening and the notification for one that is disconnecting. -/
inductive LifeSoFar (s : HeciDev) (c : ConnId) : List LifeEvent → Prop
  | unused : (s.connections c).state = connStateUnused → LifeSoFar s c []
  | isOpen (i : ClientId) : IsOpen (s.connections c) → (s.connections c).client = some i →
      LifeSoFar s c [.opened i]
  | disconnecting (i : ClientId) : (s.connections c).state = 4 ∨ (s.connections c).state = 20 →
      (s.connections c).client = some i → LifeSoFar s c [.opened i, closing s i]

namespace LifeSoFar

variable {s : HeciDev} {c : ConnId} {l : List LifeEvent}

theorem eq_nil (h : LifeSoFar s c l) (hst : (s.connections c).state = connStateUnused) :
    l = [] := by
  cases h with
  | unused _ => rfl
  | isOpen _ hopen _ => exact absurd hst hopen.ne_unused
  | disconnecting _ hdis _ => exact absurd hst (state_disjoint hdis).2

theorem eq_opened (h : LifeSoFar s c l) {i : ClientId} (hopen : IsOpen (s.connections c))
    (hi : (s.connections c).client = some i) : l = [.opened i] := by
  cases h with
  | unused hst => exact absurd hst hopen.ne_unused
  | isOpen j _ hj =>
      rw [hi] at hj
      cases hj
      rfl
  | disconnecting _ hdis _ => exact absurd hopen (state_disjoint hdis).1

theorem eq_closing (h : LifeSoFar s c l) {i : ClientId}
    (hdis : (s.connections c).state = 4 ∨ (s.connections c).state = 20)
    (hi : (s.connections c).client = some i) : l = [.opened i, closing s i] := by
  cases h with
  | unused hst => exact absurd hst (state_disjoint hdis).2
  | isOpen _ hopen _ => exact absurd hopen (state_disjoint hdis).1
  | disconnecting j _ hj =>
      rw [hi] at hj
      cases hj
      rfl

end LifeSoFar

/-- **The trace of a connection reads as a sequence of lives**, all of registered clients. -/
structure LifeInv (c : ConnId) (s : HeciDev) : Prop where
  owner : ∀ i, (s.connections c).state ≠ connStateUnused → (s.connections c).client = some i →
    Registered s i
  trace : ∃ (lives : List ClientId) (current : List LifeEvent), (∀ i ∈ lives, Registered s i) ∧
    lifeTrace c s = lives.flatMap (wholeLife s) ++ current ∧ LifeSoFar s c current

theorem wholeLives_eq {s s' : HeciDev} (h : KeepsClients s s') {lives : List ClientId}
    (hreg : ∀ i ∈ lives, Registered s i) :
    lives.flatMap (wholeLife s') = lives.flatMap (wholeLife s) := by
  refine List.flatMap_congr fun i hi => ?_
  unfold wholeLife closing
  rw [(h i (hreg i hi)).2]

/-- The two entries belong to one client, and their states show the same kind of life. -/
structure SamePhase (x y : HeciConn) : Prop where
  client : y.client = x.client
  unused : y.state = connStateUnused ↔ x.state = connStateUnused
  isOpen : IsOpen y ↔ IsOpen x
  disconnecting : (y.state = 4 ∨ y.state = 20) ↔ (x.state = 4 ∨ x.state = 20)

theorem SameLife.samePhase {x y : HeciConn} (h : SameLife x y) : SamePhase x y :=
  ⟨h.client, h.state_iff (by decide), h.isOpen_iff,
    or_congr (h.state_iff (by decide)) (h.state_iff (by decide))⟩

/-- A reset of a connection that is not open at most forgets the response owed to the host. -/
theorem samePhase_resetEntry {x : HeciConn} (hx : x.has connStateOpen = false)
    (hst : x.has connStateDisconnecting = true ↔ x.state = 4 ∨ x.state = 20) :
    SamePhase x (resetEntry x) := by
  unfold resetEntry
  rw [hx, Bool.false_or]
  by_cases hd : x.has connStateDisconnecting = true
  · have hdis := hst.1 hd
    obtain ⟨hno, hnu⟩ := state_disjoint hdis
    obtain ⟨hno', hnu'⟩ := state_disjoint (x := { x with state := connStateDisconnecting })
      (Or.inl rfl)
    rw [if_pos hd]
    exact ⟨rfl, iff_of_false hnu' hnu, iff_of_false hno' hno, iff_of_true (Or.inl rfl) hdis⟩
  · rw [if_neg hd]
    exact (SameLife.refl x).samePhase

namespace LifeInv

variable {c : ConnId} {s s' : HeciDev}

/-- The connection stays at its point of its life. -/
theorem samePhase (h : LifeInv c s) (hcl : KeepsClients s s')
    (hco : SamePhase (s.connections c) (s'.connections c))
    (htr : lifeTrace c s' = lifeTrace c s) : LifeInv c s' := by
  obtain ⟨lives, current, hreg, htrace, hcur⟩ := h.trace
  constructor
  · intro i hst hi
    exact (hcl i (h.owner i (fun hu => hst (hco.unused.2 hu)) (hco.client ▸ hi))).1
  · refine ⟨lives, current, fun i hi => (hcl i (hreg i hi)).1, ?_, ?_⟩
    · rw [htr, htrace, wholeLives_eq hcl hreg]
    · cases hcur with
      | unused hst => exact LifeSoFar.unused (hco.unused.2 hst)
      | isOpen i hopen hi =>
          exact LifeSoFar.isOpen i (hco.isOpen.2 hopen) (hco.client.trans hi)
      | disconnecting i hst hi =>
          have hclose : closing s i = closing s' i := by
            unfold closing
            rw [(hcl i (h.owner i (state_disjoint hst).2 hi)).2]
          rw [hclose]
          exact LifeSoFar.disconnecting i (hco.disconnecting.2 hst) (hco.client.trans hi)

theorem tame (h : LifeInv c s) (ht : Tame s s') : LifeInv c s' :=
  h.samePhase ht.keepsClients (ht.connections c).samePhase (lifeTrace_tame ht c)

/-- Another connection changes. -/
theorem other (h : LifeInv c s) (hcl : s'.clients = s.clients)
    (hco : s'.connections c = s.connections c) (htr : lifeTrace c s' = lifeTrace c s) :
    LifeInv c s' :=
  h.samePhase (keepsClients_of_eq hcl) (hco ▸ (SameLife.refl _).samePhase) htr

/-- **The connection is opened.** -/
theorem opened (h : LifeInv c s) {i : ClientId} {x : HeciConn}
    (hidle : (s.connections c).state = connStateUnused) (hi : Registered s i)
    (hst : x.state = connStateOpen) (hcl : x.client = some i) :
    LifeInv c ((s.setConn c x).log (.opened c i)) := by
  obtain ⟨lives, current, hreg, htrace, hcur⟩ := h.trace
  obtain rfl := hcur.eq_nil hidle
  constructor
  · intro j _ hj
    have : j = i := by simpa [hcl] using hj.symm
    exact this ▸ hi
  · refine ⟨lives, [.opened i], hreg, ?_, ?_⟩
    · rw [lifeTrace_log, show lifeTrace c (s.setConn c x) = lifeTrace c s from rfl, htrace,
        List.append_nil, lifeEvent, if_pos rfl]
      rfl
    · refine LifeSoFar.isOpen i (Or.inl ?_) (by simpa using hcl)
      simpa using hst

/-- **The client of an open connection is told that it is closed.** -/
theorem closed (h : LifeInv c s) {i : ClientId} (hopen : IsOpen (s.connections c))
    (hi : (s.connections c).client = some i) (hcl : s'.clients = s.clients) {n : UInt8}
    (hst : n = 4 ∨ n = 20) (hco : s'.connections c = { s.connections c with state := n })
    (htr : lifeTrace c s' = lifeTrace c s ++ [closing s i]) : LifeInv c s' := by
  have hkeep := keepsClients_of_eq hcl
  have hclose : closing s' i = closing s i := by rw [closing, closing, hcl]
  obtain ⟨lives, current, hreg, htrace, hcur⟩ := h.trace
  obtain rfl := hcur.eq_opened hopen hi
  constructor
  · intro j _ hj
    rw [hco] at hj
    exact (hkeep j (h.owner j hopen.ne_unused hj)).1
  · refine ⟨lives, [.opened i, closing s' i], fun j hj => (hkeep j (hreg j hj)).1, ?_, ?_⟩
    · rw [htr, htrace, wholeLives_eq hkeep hreg, hclose, List.append_assoc]
      rfl
    · refine LifeSoFar.disconnecting i ?_ ?_
      · rw [hco]
        exact hst
      · rw [hco]
        exact hi

/-- **The connection is freed.** -/
theorem freed (h : LifeInv c s) {i : ClientId}
    (hst : (s.connections c).state = 4 ∨ (s.connections c).state = 20)
    (hi : (s.connections c).client = some i) :
    LifeInv c ((s.setConn c HeciConn.zero).log (.freed c)) := by
  obtain ⟨lives, current, hreg, htrace, hcur⟩ := h.trace
  obtain rfl := hcur.eq_closing hst hi
  constructor
  · intro j hused
    exact absurd (by simp [HeciConn.zero]) hused
  · refine ⟨lives ++ [i], [], ?_, ?_, LifeSoFar.unused (by simp [HeciConn.zero])⟩
    · intro j hj
      rcases List.mem_append.1 hj with hj | hj
      · exact hreg j hj
      · rw [List.mem_singleton.1 hj]
        exact h.owner i (state_disjoint hst).2 hi
    · rw [lifeTrace_log, show lifeTrace c (s.setConn c HeciConn.zero) = lifeTrace c s from rfl,
        htrace, lifeEvent, if_pos rfl, List.flatMap_append, List.append_nil, List.append_assoc]
      rfl

/-- **A reset.** -/
theorem reset (h : LifeInv c s) (hT : TableInv s) : LifeInv c (heciReset s) := by
  have htr : lifeTrace c (heciReset s) = lifeTrace c s ++
      if (s.connections c).has connStateOpen = true then
        [LifeEvent.disconn (s.connections c).eventCb (s.connections c).param]
      else [] := by
    unfold lifeTrace
    rw [heciReset_eq hT]
    simp only [List.filterMap_append, List.filterMap_cons, lifeEvent]
    rw [filterMap_resetEvents (List.nodup_finRange _)]
    simp [List.mem_finRange]
  have hco : (heciReset s).connections c = resetEntry (s.connections c) := by rw [heciReset_eq hT]
  have hcl : (heciReset s).clients = s.clients := by rw [heciReset_eq hT]
  by_cases hopen : (s.connections c).has connStateOpen = true
  · have hIs := hT.isOpen hopen
    obtain ⟨i, hi, -, -, -, -, hcb, hpar⟩ := (hT.conns c).used hIs.ne_unused
    refine h.closed hIs hi hcl (n := 4) (Or.inl rfl) ?_ ?_
    · rw [hco, resetEntry, hopen]
      rfl
    · rw [htr, if_pos hopen, hcb, hpar]
      rfl
  · rw [if_neg hopen, List.append_nil] at htr
    refine h.samePhase (keepsClients_of_eq hcl) ?_ htr
    rw [hco]
    exact samePhase_resetEntry (by simpa using hopen) (hT.conns c).disconnecting_iff

end LifeInv

/-! ### Runs -/

/-- **Every effect of a call keeps the invariant.** -/
theorem lifeInv_effect {P : Platform} {l : Call} {s s' : HeciDev} {c : ConnId} (hT : TableInv s)
    (h : LifeInv c s) (he : Effect P l s s') : LifeInv c s' := by
  cases he with
  | tame _ ht => exact h.tame ht
  | reset _ ht hT₁ ht' => exact ((h.tame ht).reset hT₁).tame ht'
  | opened msg i d p _ _ _ _ _ hroom hd _ _ ht =>
      refine LifeInv.tame ?_ ht
      by_cases hcd : d = c
      · subst hcd
        exact h.opened (findIdleConn_some hd) (registered_of_room hT hroom) rfl rfl
      · refine h.other rfl (by simp [Ne.symm hcd]) ?_
        rw [lifeTrace_log, lifeEvent, if_neg hcd]
        exact List.append_nil _
  | closed msg d _ _ hopen _ =>
      by_cases hcd : d = c
      · subst hcd
        obtain ⟨i, hi, -, -, -, -, hcb, hpar⟩ := (hT.conns d).used hopen.ne_unused
        refine h.closed hopen hi rfl (n := 20) (Or.inr rfl) (by simp; rfl) ?_
        rw [lifeTrace_log, disconnEvent, lifeEvent, if_pos rfl, hcb, hpar]
        rfl
      · refine h.other rfl (by simp [Ne.symm hcd]) ?_
        rw [lifeTrace_log, disconnEvent, lifeEvent, if_neg hcd]
        exact List.append_nil _
  | unknown msg _ _ =>
      exact h.other (by simp) (by simp)
        (lifeTrace_io (IoStep.sendProtoMsg (W := fun _ => True) P trivial s) c)
  | @freed s₁ _ d i _ hst hi ht hco ht' =>
      refine LifeInv.tame ?_ ht'
      have hio := ioStep_respondDisconnect P d s₁
      have h₂ : LifeInv c (respondDisconnect P d s₁) :=
        (h.tame ht).other hio.clients (by rw [hio.connections]) (lifeTrace_io hio c)
      by_cases hcd : d = c
      · subst hcd
        refine h₂.freed ?_ (i := i) ?_
        · rw [hio.connections, hco]
          exact hst
        · rw [hio.connections, hco]
          exact hi
      · refine h₂.other rfl (by simp [Ne.symm hcd]) ?_
        rw [lifeTrace_log, lifeEvent, if_neg hcd]
        exact List.append_nil _

theorem lifeInv_enter {c : ConnId} {s : HeciDev} (h : LifeInv c s) (l : Call) :
    LifeInv c (enter l s) := by
  unfold enter
  split
  · refine h.other rfl rfl ?_
    rw [lifeTrace_log]
    exact List.append_nil _
  · exact h

theorem lifeInv_initial {s : HeciDev} (h : HeciDev.Initial s) (c : ConnId) : LifeInv c s := by
  have hst : (s.connections c).state = connStateUnused := by rw [h.connections c]; rfl
  refine ⟨fun i hused => absurd hst hused, [], [], by simp, ?_, LifeSoFar.unused hst⟩
  simp [lifeTrace, h.events]

/-- **Exactly one disconnect notification in every life of a connection.** -/
theorem lifeTrace_of_reachable {P : Platform} {s : HeciDev} (h : Reachable P s) (c : ConnId) :
    ∃ (lives : List ClientId) (current : List LifeEvent),
      lifeTrace c s = lives.flatMap (wholeLife s) ++ current ∧ LifeSoFar s c current := by
  have hI : TableInv s ∧ LifeInv c s := by
    refine h.invariant (I := fun s => TableInv s ∧ LifeInv c s) ?_ ?_
    · exact fun s hs => ⟨tableInv_initial hs, lifeInv_initial hs c⟩
    · intro s l s' hs _ hst
      refine ⟨(keeps_tableInv P).step hs.1 hst, ?_⟩
      exact lifeInv_effect (hs.1.enter l) (lifeInv_enter hs.2 l) (step_effect hs.1 hst)
  obtain ⟨lives, current, -, htrace, hcur⟩ := hI.2.trace
  exact ⟨lives, current, htrace, hcur⟩

/-- A connection that was opened, closed and freed, and opened again. -/
theorem lifeTrace_reconnected :
    ∃ s, Reachable Platform.nominal s ∧
      lifeTrace 0 s = [.opened 0, .disconn (some 1) 0, .freed, .opened 0] ∧
      ∃ (lives : List ClientId) (current : List LifeEvent),
        lifeTrace 0 s = lives.flatMap (wholeLife s) ++ current ∧ LifeSoFar s 0 current := by
  obtain ⟨s, hs, htrace⟩ := exists_reachable Platform.nominal
    (connectCalls (plainClient 1 0 4096 1) 7 ++ [busCall [busMsgClientDisconnectReq, 32, 7, 0],
      .op .reset, .op (.completeDisconnect 0), busCall [busMsgClientConnectReq, 32, 7, 0]])
    (fun s => lifeTrace 0 s = [.opened 0, .disconn (some 1) 0, .freed, .opened 0])
    (by decide +kernel)
  exact ⟨s, hs, htrace, lifeTrace_of_reachable hs 0⟩

end PseFw.Heci
