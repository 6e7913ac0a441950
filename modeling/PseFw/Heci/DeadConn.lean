/-
**No message on a dead connection.**

`heci_send` checks once that its connection is open, and gives the lock up three times after that:
before it looks at the credit, while it waits for credit, and while a block of the message is
copied.  The host and the clients can use each of these gaps to close the connection, to free its
entry of the table, and to open another connection in the same entry; the sender does not look
again, and sends to whatever the entry is by then.

A sender is *committed* when nothing but the counter of the entry, which closing a connection does
not touch, can still stop it.  `PseFw.Heci.SlotDiscipline` says what the host and the clients have
to keep for every message to go out on the connection it was meant for.

Main definitions:

* `PseFw.Heci.Serves` — the entry is open, for the given pair of addresses;
* `PseFw.Heci.IsUse`, `PseFw.Heci.SendsLive` — whatever a sender does to its connection, it does
  while the entry serves the addresses the call was made for;
* `PseFw.Heci.SlotDiscipline` — no connection is closed under a committed sender, and no other
  connection is opened in the entry of a call.

Main results:

* `PseFw.Heci.slotInv_step` — every step that keeps the discipline keeps the senders on their
  connections;
* `PseFw.Heci.sendsLive_of_disciplined` — **in every disciplined run senders only touch live
  connections**;
* `PseFw.Heci.not_sendsLive_disconnect` — a message that goes out on a connection the host has
  closed.  -/

import PseFw.Heci.Threads

set_option relaxedAutoImplicit false
set_option autoImplicit false

namespace PseFw.Heci

/-! ### Live connections -/

/-- The entry is open, and belongs to the connection between the two addresses. -/
def Serves (x : HeciConn) (target : UInt8 × UInt8) : Prop :=
  IsOpen x ∧ Between x target.1 target.2

instance (x : HeciConn) (target : UInt8 × UInt8) : Decidable (Serves x target) :=
  inferInstanceAs (Decidable (_ ∧ _))

/-- A sender uses its connection: it reads the client, writes a frame or takes a credit. -/
def IsUse : Event → Bool
  | .clientRead _ | .ipcWrite _ _ _ _ | .creditTaken _ _ => true
  | _ => false

/-- A frame of a message for the two addresses, or the announcement of one of its blocks. -/
def IsFrameFor (target : UInt8 × UInt8) (f : HeciBusMsg) : Prop :=
  IsClientFrame target.1 target.2 f ∨ IsDmaXferReq target.1 target.2 f

/-- **The senders only touch live connections**: when a critical section of a thread reads the
client of its connection, writes a frame or takes a credit, the entry is open for the addresses the
call was made for, before and after, and the frames carry these addresses. -/
def SendsLive {n : ℕ} (P : Platform) (x : Sys n) : Prop :=
  ∀ t a x', sysStep P (.act t a) x = some x' →
    ∀ e ∈ x'.dev.events.drop x.dev.events.length, IsUse e = true →
      Serves (x.dev.connections (x.threads t).conn) (x.threads t).target ∧
      Serves (x'.dev.connections (x.threads t).conn) (x.threads t).target ∧
      ∀ drbl f len ret, e = .ipcWrite drbl f len ret → IsFrameFor (x.threads t).target f

/-! ### The discipline -/

/-- Nothing but the credit can still stop the thread. -/
def Phase.committed (hostBuffers : UInt32) : Phase → Bool
  | .measured _ | .pending _ | .waiting _ _ | .woken _ => hostBuffers != 0
  | .granted _ | .copying _ _ _ _ _ => true
  | .idle | .called | .fault => false

/-- A call of `heci_send` is under way. -/
def Phase.inCall : Phase → Bool
  | .idle | .fault => false
  | _ => true

/-- The operation does not close the connection under a committed sender. -/
def ClosesNone {n : ℕ} (x : Sys n) (o : Op) (c : ConnId) : Prop :=
  Closes x.dev c o → ∀ t, (x.threads t).conn = c →
    (x.threads t).phase.committed (x.dev.connections c).hostBuffers = false

/-- The operation does not open the entry of a call for other addresses. -/
def ReplacesNone {n : ℕ} (x : Sys n) (o : Op) (c : ConnId) : Prop :=
  ∀ f h, Opens x.dev c f h o → ∀ t, (x.threads t).conn = c → (x.threads t).phase.inCall = true →
    (x.threads t).target = (f, h)

/-- **No connection is closed under a committed sender, and no other connection is opened in the
entry of a call.** -/
def SlotDiscipline {n : ℕ} (x : Sys n) : Label n → Prop
  | .op o => ∀ c, ClosesNone x o c ∧ ReplacesNone x o c
  | .call _ _ _ | .act _ _ => True

instance {n : ℕ} (x : Sys n) (o : Op) (c : ConnId) : Decidable (ClosesNone x o c) :=
  inferInstanceAs (Decidable (_ → _))

instance {n : ℕ} (x : Sys n) (o : Op) (c : ConnId) : Decidable (ReplacesNone x o c) :=
  inferInstanceAs (Decidable (∀ f h, Opens x.dev c f h o → _))

instance {n : ℕ} (x : Sys n) (l : Label n) : Decidable (SlotDiscipline x l) :=
  match l with
  | .op _ => inferInstanceAs (Decidable (∀ _, _ ∧ _))
  | .call _ _ _ | .act _ _ => isTrue trivial

/-! ### The invariant -/

/-- A sender that waits does not go on before its connection is open, and what is open is its
connection. -/
def Awaits (x : HeciConn) (target : UInt8 × UInt8) : Prop :=
  (x.hostBuffers ≠ 0 → IsOpen x) ∧ (IsOpen x → Between x target.1 target.2)

/-- **What a sender relies on**, by where it stands. -/
def Relies (x : HeciConn) (target : UInt8 × UInt8) : Phase → Prop
  | .idle | .fault => True
  | .called => IsOpen x → Between x target.1 target.2
  | .measured _ | .pending _ | .waiting _ _ | .woken _ => Awaits x target
  | .granted _ => Serves x target
  | .copying f h _ _ _ => Serves x target ∧ (f, h) = target

/-- Every sender has what it relies on. -/
structure SlotInv {n : ℕ} (x : Sys n) : Prop where
  table : TableInv x.dev
  relies : ∀ t, Relies (x.dev.connections (x.threads t).conn) (x.threads t).target
    (x.threads t).phase

section relies

variable {x y : HeciConn} {target : UInt8 × UInt8} {ph : Phase}

theorem Awaits.serves (h : Awaits x target) (hne : x.hostBuffers ≠ 0) : Serves x target :=
  ⟨h.1 hne, h.2 (h.1 hne)⟩

theorem Serves.awaits (h : Serves x target) : Awaits x target := ⟨fun _ => h.1, fun _ => h.2⟩

/-- An entry that stays open for its addresses, or stays closed and gets no credit. -/
theorem Relies.congr (h : Relies x target ph) (hopen : IsOpen y ↔ IsOpen x)
    (hfw : y.fwAddr = x.fwAddr) (hhost : y.hostAddr = x.hostAddr)
    (hhb : ¬ IsOpen x → y.hostBuffers ≠ 0 → x.hostBuffers ≠ 0) : Relies y target ph := by
  have hb : Between y target.1 target.2 ↔ Between x target.1 target.2 := by
    unfold Between
    rw [hfw, hhost]
  have haw : Awaits x target → Awaits y target := by
    intro ha
    refine ⟨fun hne => hopen.2 ?_, fun ho => hb.2 (ha.2 (hopen.1 ho))⟩
    by_contra hno
    exact hno (ha.1 (hhb hno hne))
  have hse : Serves x target → Serves y target := fun hs => ⟨hopen.2 hs.1, hb.2 hs.2⟩
  cases ph with
  | idle => trivial
  | called => exact fun ho => hb.2 (h (hopen.1 ho))
  | measured _ => exact haw h
  | pending _ => exact haw h
  | waiting _ _ => exact haw h
  | woken _ => exact haw h
  | granted _ => exact hse h
  | copying f k m rest b => exact ⟨hse h.1, h.2⟩
  | fault => trivial

/-- An entry that is not open, and has no credit. -/
theorem Relies.closed (hy : ¬ IsOpen y) (hhb : ph.committed y.hostBuffers = false) :
    Relies y target ph := by
  have haw : (y.hostBuffers != 0) = false → Awaits y target := by
    intro hz
    refine ⟨fun hne => absurd ?_ hne, fun ho => absurd ho hy⟩
    simpa using hz
  cases ph with
  | idle => trivial
  | called => exact fun ho => absurd ho hy
  | measured _ => exact haw hhb
  | pending _ => exact haw hhb
  | waiting _ _ => exact haw hhb
  | woken _ => exact haw hhb
  | granted _ => cases hhb
  | copying f k m rest b => cases hhb
  | fault => trivial

/-- A committed sender is on an open connection. -/
theorem Relies.isOpen (h : Relies x target ph) (hc : ph.committed x.hostBuffers = true) :
    IsOpen x := by
  cases ph with
  | idle => cases hc
  | called => cases hc
  | measured _ => exact h.1 (by simpa [Phase.committed] using hc)
  | pending _ => exact h.1 (by simpa [Phase.committed] using hc)
  | waiting _ _ => exact h.1 (by simpa [Phase.committed] using hc)
  | woken _ => exact h.1 (by simpa [Phase.committed] using hc)
  | granted _ => exact h.1
  | copying f k m rest b => exact h.1.1
  | fault => cases hc

/-- The entry serves the addresses of a call that is under way. -/
theorem Relies.serves (h : Relies x target ph) (hs : ph.inCall = true → Serves y target) :
    Relies y target ph := by
  cases ph with
  | idle => trivial
  | called => exact fun _ => (hs rfl).2
  | measured _ => exact (hs rfl).awaits
  | pending _ => exact (hs rfl).awaits
  | waiting _ _ => exact (hs rfl).awaits
  | woken _ => exact (hs rfl).awaits
  | granted _ => exact hs rfl
  | copying f k m rest b => exact ⟨hs rfl, h.2⟩
  | fault => trivial

/-- Without credit fewer senders are committed. -/
theorem Phase.committed_zero {n : UInt32} (h : ph.committed n = false) :
    ph.committed 0 = false := by
  cases ph <;> first | rfl | cases h

end relies

/-! ### Operations -/

/-- **What an operation leaves a sender**, if it keeps the discipline. -/
theorem relies_slotStep {o : Op} {s s' : HeciDev} {th : Thread}
    (h : Relies (s.connections th.conn) th.target th.phase)
    (hclose : Closes s th.conn o →
      th.phase.committed (s.connections th.conn).hostBuffers = false)
    (hopen : ∀ f k, Opens s th.conn f k o → th.phase.inCall = true → th.target = (f, k))
    (hst : SlotStep o s s' th.conn) : Relies (s'.connections th.conn) th.target th.phase := by
  cases hst with
  | same hs _ =>
      exact h.congr hs.isOpen hs.fwAddr hs.hostAddr fun _ hne => by rwa [← hs.hostBuffers]
  | opened f k ho _ hopen' hb _ _ =>
      refine h.serves fun hcall => ?_
      rw [hopen f k ho hcall]
      exact ⟨hopen', hb⟩
  | closed hc _ hnot hhb _ =>
      refine Relies.closed hnot ?_
      rw [hhb]
      exact hclose hc
  | granted k _ ho ho' hb _ _ =>
      exact h.congr (iff_of_true ho' ho) hb.1 hb.2 fun hno _ => absurd ho hno
  | takenBack _ ho ho' hb _ _ =>
      exact h.congr (iff_of_true ho' ho) hb.1 hb.2 fun hno _ => absurd ho hno
  | freed _ hno hno' hhb _ =>
      -- nobody can be committed: the entry is not open
      refine Relies.closed hno' ?_
      rw [hhb]
      refine Phase.committed_zero (n := (s.connections th.conn).hostBuffers) ?_
      exact Bool.eq_false_of_not_eq_true fun hc => hno (h.isOpen hc)

/-! ### Threads -/

section threads

variable {c : ConnId} {f k : UInt8} {th : Thread} {ph : Phase} {s s' : HeciDev}

/-- The owner of an entry does not change. -/
structure SameOwner (x y : HeciConn) : Prop where
  isOpen : IsOpen y ↔ IsOpen x
  fwAddr : y.fwAddr = x.fwAddr
  hostAddr : y.hostAddr = x.hostAddr

theorem SameSlot.sameOwner {x y : HeciConn} (h : SameSlot x y) : SameOwner x y :=
  ⟨h.isOpen, h.fwAddr, h.hostAddr⟩

theorem Serves.congr {x y : HeciConn} {target : UInt8 × UInt8} (h : Serves x target)
    (hxy : SameOwner x y) : Serves y target :=
  ⟨hxy.isOpen.2 h.1, hxy.fwAddr.trans h.2.1, hxy.hostAddr.trans h.2.2⟩

/-- The end of a call changes no owner, and no credit but its own. -/
theorem outcome_slots (ho : Outcome c f k s ph s') (d : ConnId) :
    SameOwner (s.connections d) (s'.connections d) ∧
      (d ≠ c → (s'.connections d).hostBuffers = (s.connections d).hostBuffers) := by
  cases ho with
  | fault => exact ⟨⟨Iff.rfl, rfl, rfl⟩, fun _ => rfl⟩
  | failed hs =>
      exact ⟨(hs.slotQuiet.connections d).sameOwner,
        fun _ => (hs.slotQuiet.connections d).hostBuffers⟩
  | copying m ms b hs =>
      exact ⟨(hs.slotQuiet.connections d).sameOwner,
        fun _ => (hs.slotQuiet.connections d).hostBuffers⟩
  | @sent s₁ hs =>
      have hq := hs.slotQuiet.connections d
      rw [HeciDev.log_connections, finishSend_connections]
      by_cases hd : d = c
      · subst hd
        rw [Function.update_self]
        exact ⟨⟨hq.isOpen, hq.fwAddr, hq.hostAddr⟩, fun hne => absurd rfl hne⟩
      · rw [Function.update_of_ne hd]
        exact ⟨hq.sameOwner, fun _ => hq.hostBuffers⟩

/-- The frames of the end of a call. -/
theorem outcome_events (ho : Outcome c f k s ph s') :
    ∃ evs, s'.events = s.events ++ evs ∧
      ∀ drbl g len ret, Event.ipcWrite drbl g len ret ∈ evs → IsSendFrame c f k s g := by
  have hio : ∀ s₁, SendIo c f k s s₁ → ∃ evs, s₁.events = s.events ++ evs ∧
      ∀ drbl g len ret, Event.ipcWrite drbl g len ret ∈ evs → IsSendFrame c f k s g := by
    rintro s₁ ⟨s₀, hs₀, hio⟩
    obtain ⟨evs, he, hev⟩ := hio.events
    have hframes : ∀ drbl g len ret, Event.ipcWrite drbl g len ret ∈ evs →
        IsSendFrame c f k s g := by
      intro drbl g len ret hmem
      cases hev _ hmem with
      | write _ hW => exact hW
    rcases hs₀ with rfl | rfl
    · exact ⟨evs, he, hframes⟩
    · refine ⟨.clientRead c :: evs, ?_, ?_⟩
      · rw [he]
        simp
      · intro drbl g len ret hmem
        rcases List.mem_cons.1 hmem with h | h
        · cases h
        · exact hframes drbl g len ret h
  cases ho with
  | fault => exact ⟨[.clientRead c], rfl, fun drbl g len ret hmem => by simp at hmem⟩
  | failed hs => exact hio _ hs
  | copying m ms b hs => exact hio _ hs
  | @sent s₁ hs =>
      obtain ⟨evs, he, hframes⟩ := hio s₁ hs
      refine ⟨evs ++ [Event.creditTaken c (s₁.connections c).hostBuffers, .sent c], ?_, ?_⟩
      · rw [HeciDev.log_events, finishSend_events, he, List.append_assoc, List.append_assoc]
        rfl
      · intro drbl g len ret hmem
        rcases List.mem_append.1 hmem with h | h
        · exact hframes drbl g len ret h
        · simp at h

theorem outcome_tableInv (ho : Outcome c f k s ph s') (hT : TableInv s)
    (hopen : IsOpen (s.connections c)) : TableInv s' := by
  cases ho with
  | fault => exact hT.log _
  | failed hs => exact hs.tableInv hT
  | copying m ms b hs => exact hs.tableInv hT
  | sent hs =>
      refine ((hs.tableInv hT).finishSend fun hu => ?_).log _
      exact not_isOpen hu (by decide) ((hs.slotQuiet.connections c).isOpen.2 hopen)

/-- **What a critical section of a sender does**, when the sender has what it relies on. -/
inductive CriticalSection (th : Thread) (s : HeciDev) : Phase → HeciDev → Prop
  /-- The connection is not used. -/
  | silent {ph : Phase} {s' : HeciDev} : s'.events = s.events → SlotQuiet s s' → TableInv s' →
      Relies (s.connections th.conn) th.target ph → CriticalSection th s ph s'
  /-- The client of the connection is read. -/
  | reads {ph : Phase} : Serves (s.connections th.conn) th.target → ph.AfterCheck →
      CriticalSection th s ph (s.log (.clientRead th.conn))
  /-- The message, or a part of it, goes out. -/
  | sends {ph : Phase} {s' : HeciDev} : Serves (s.connections th.conn) th.target →
      Outcome th.conn th.target.1 th.target.2 s ph s' → CriticalSection th s ph s'

theorem section_of_threadCase (hT : TableInv s)
    (hrel : Relies (s.connections th.conn) th.target th.phase) (h : ThreadCase th s ph s') :
    CriticalSection th s ph s' := by
  have hrefl := SlotQuiet.refl s
  -- a thread that sends uses the addresses its connection has
  have hends : Serves (s.connections th.conn) th.target →
      Outcome th.conn (s.connections th.conn).fwAddr (s.connections th.conn).hostAddr s ph s' →
      CriticalSection th s ph s' := by
    intro hs ho
    rw [hs.2.1, hs.2.2] at ho
    exact .sends hs ho
  cases h with
  | refused _ _ => exact .silent rfl hrefl hT trivial
  | checked _ hph hopen hafter =>
      rw [hph] at hrel
      have hopen : IsOpen (s.connections th.conn) := (hT.conns _).open_iff.1 hopen
      exact .reads ⟨hopen, hrel hopen⟩ hafter
  | waits n m hph _ =>
      rw [hph] at hrel
      exact .silent rfl (SlotQuiet.setWait s _ m) (hT.setWait _ m) hrel
  | queued _ hq hafter hs =>
      have hrel' : Relies (s.connections th.conn) th.target ph := by
        generalize th.phase = ph₀ at hrel hq
        cases ph₀ <;> cases hq <;> cases ph <;> cases hafter <;> first | exact hrel | trivial
      rcases hs with rfl | ⟨q, m, rfl⟩
      · exact .silent rfl hrefl hT hrel'
      · exact .silent rfl hrefl.setSem (hT.setSem q m) hrel'
  | acquires n m hph hne =>
      rw [hph] at hrel
      exact .silent rfl (SlotQuiet.setWait s _ m) (hT.setWait _ m) (Awaits.serves hrel hne)
  | sends n _ hph hne ho =>
      rw [hph] at hrel
      exact hends (Awaits.serves hrel hne) ho
  | resumes n _ hph ho =>
      rw [hph] at hrel
      exact hends hrel ho
  | copied f k m rest b _ hph ho =>
      rw [hph] at hrel
      obtain ⟨hs, htarget⟩ := hrel
      refine .sends hs ?_
      rw [← htarget]
      exact ho

/-- A critical section keeps the tables, the owners, and the credit of the other entries. -/
theorem section_slots (hT : TableInv s) (h : CriticalSection th s ph s') :
    TableInv s' ∧ ∀ d, SameOwner (s.connections d) (s'.connections d) ∧
      (¬ IsOpen (s.connections d) →
        (s'.connections d).hostBuffers = (s.connections d).hostBuffers) := by
  cases h with
  | silent _ hq hT' _ =>
      exact ⟨hT', fun d => ⟨(hq.connections d).sameOwner, fun _ => (hq.connections d).hostBuffers⟩⟩
  | reads _ _ => exact ⟨hT.log _, fun d => ⟨⟨Iff.rfl, rfl, rfl⟩, fun _ => rfl⟩⟩
  | sends hs ho =>
      refine ⟨outcome_tableInv ho hT hs.1, fun d => ?_⟩
      obtain ⟨hown, hhb⟩ := outcome_slots ho d
      exact ⟨hown, fun hno => hhb fun hd => hno (hd ▸ hs.1)⟩

/-- The sender has what it relies on next. -/
theorem section_relies (h : CriticalSection th s ph s') :
    Relies (s'.connections th.conn) th.target ph := by
  cases h with
  | silent _ hq _ hrel =>
      have hc := hq.connections th.conn
      exact hrel.congr hc.isOpen hc.fwAddr hc.hostAddr fun _ hne => by rwa [← hc.hostBuffers]
  | reads hs hafter =>
      cases ph with
      | measured _ => exact hs.awaits
      | idle => trivial
      | fault => trivial
      | _ => cases hafter
  | sends hs ho =>
      have hown := (outcome_slots ho th.conn).1
      cases ho with
      | fault => trivial
      | failed _ => trivial
      | sent _ => trivial
      | copying m ms b _ => exact ⟨hs.congr hown, rfl⟩

/-- **A critical section uses a live connection only.** -/
theorem section_live (h : CriticalSection th s ph s') :
    ∀ e ∈ s'.events.drop s.events.length, IsUse e = true →
      Serves (s.connections th.conn) th.target ∧ Serves (s'.connections th.conn) th.target ∧
      ∀ drbl g len ret, e = .ipcWrite drbl g len ret → IsFrameFor th.target g := by
  intro e hmem _
  cases h with
  | silent hev _ _ _ =>
      rw [hev, List.drop_length] at hmem
      cases hmem
  | reads hs _ =>
      refine ⟨hs, hs, ?_⟩
      rintro drbl g len ret rfl
      simp at hmem
  | sends hs ho =>
      refine ⟨hs, hs.congr (outcome_slots ho _).1, ?_⟩
      rintro drbl g len ret rfl
      obtain ⟨evs, he, hframes⟩ := outcome_events ho
      rw [he, List.drop_left] at hmem
      have hframe := hframes drbl g len ret hmem
      unfold IsSendFrame at hframe
      rwa [hs.2.1, hs.2.2] at hframe

end threads

/-! ### Runs -/

section runs

variable {n : ℕ} {P : Platform} {x x' : Sys n} {l : Label n}

/-- **Every step that keeps the discipline keeps the senders on their connections.** -/
theorem slotInv_step (h : SlotInv x) (hd : SlotDiscipline x l) (hst : sysStep P l x = some x') :
    SlotInv x' := by
  cases sysStep_cases hst with
  | op hop =>
      refine ⟨(keeps_tableInv P).opStep h.table hop, fun t => ?_⟩
      have hdt := hd (x.threads t).conn
      exact relies_slotStep (h.relies t) (fun hc => hdt.1 hc t rfl)
        (fun f k ho => hdt.2 f k ho t rfl)
        (opStep_slot h.table hop _)
  | call t c msg hidle =>
      refine ⟨h.table, fun u => ?_⟩
      by_cases hu : u = t
      · subst hu
        simp only [Function.update_self]
        exact fun _ => ⟨rfl, rfl⟩
      · simp only [Function.update_of_ne hu]
        exact h.relies u
  | @act t a ph s' hcase =>
      have hsec := section_of_threadCase h.table (h.relies t) hcase
      obtain ⟨hT', hslots⟩ := section_slots h.table hsec
      refine ⟨hT', fun u => ?_⟩
      by_cases hu : u = t
      · subst hu
        simp only [Sys.goOn, Function.update_self]
        exact section_relies hsec
      · simp only [Sys.goOn, Function.update_of_ne hu]
        obtain ⟨hown, hhb⟩ := hslots (x.threads u).conn
        refine (h.relies u).congr hown.isOpen hown.fwAddr hown.hostAddr fun hno hne => ?_
        rwa [← hhb hno]

theorem slotInv_initial (h : Sys.Initial x) : SlotInv x := by
  refine ⟨tableInv_initial h.dev, fun t => ?_⟩
  rw [h.threads t]
  trivial

theorem SlotInv.sendsLive (h : SlotInv x) : SendsLive P x := by
  intro t a x' hst
  cases sysStep_cases hst with
  | act hcase => exact section_live (section_of_threadCase h.table (h.relies t) hcase)

end runs

/-- **In every disciplined run senders only touch live connections.** -/
theorem sendsLive_of_disciplined {n : ℕ} {P : Platform} {x : Sys n}
    (h : Lts.Reach Sys.Initial (sysStep P) SlotDiscipline x) : SendsLive P x :=
  SlotInv.sendsLive
    (h.invariant (fun _ => slotInv_initial) fun _ _ _ hx hd hst => slotInv_step hx hd hst)

/-- A sender waits for credit while its connection is closed, freed, and opened again for the same
addresses; it gives up, tries again, and sends. -/
theorem sendsLive_reopened :
    ∃ x : Sys 1, Lts.Reach Sys.Initial (sysStep Platform.nominal) SlotDiscipline x ∧
      (∃ x', sysStep Platform.nominal (.act 0 .relock) x = some x' ∧
        Event.creditTaken 0 1 ∈ x'.dev.events.drop x.dev.events.length) ∧
      SendsLive Platform.nominal x := by
  obtain ⟨x, hx, hnext⟩ := exists_sysDisciplined (n := 1) Platform.nominal SlotDiscipline
    (connectLabels (plainClient 1 0 4096 1) 7 ++ waitLabels 0 0 ++
      [busLabel [busMsgClientDisconnectReq, 32, 7, 0], .op (.completeDisconnect 0),
        busLabel [busMsgClientConnectReq, 32, 7, 0], .act 0 .semTimeout] ++ waitLabels 0 0 ++
      [grantLabel 7] ++ wakeLabels 0)
    (fun x => (sysStep Platform.nominal (.act 0 .relock) x).any (fun x' => decide
      (Event.creditTaken 0 1 ∈ x'.dev.events.drop x.dev.events.length)) = true)
    (by decide +kernel)
  obtain ⟨x', hx', hmem⟩ := (Option.any_eq_true _ _).1 hnext
  exact ⟨x, hx, ⟨x', hx', of_decide_eq_true hmem⟩, sendsLive_of_disciplined hx⟩

/-- A sender has seen its credit when the host disconnects: it sends on a connection that is being
closed. -/
theorem not_sendsLive_disconnect :
    ∃ x x' : Sys 1, Lts.Reach Sys.Initial (sysStep Platform.nominal) Lts.Free x ∧
      sysStep Platform.nominal (.act 0 .relock) x = some x' ∧
      (x.dev.connections 0).state = connStateDisconnecting ||| connStateSendDisconnectResp ∧
      writeEvent (HeciBusMsg.mk' 7 32 true [1, 2, 3]) 0 ∈
        x'.dev.events.drop x.dev.events.length ∧
      ¬ SendsLive Platform.nominal x := by
  obtain ⟨x, hx, hstate, hserves, hnext⟩ := exists_sysReachable (n := 1) Platform.nominal
    (connectLabels (plainClient 1 0 4096 1) 7 ++ waitLabels 0 0 ++ [grantLabel 7] ++ wakeLabels 0 ++
      [busLabel [busMsgClientDisconnectReq, 32, 7, 0]])
    (fun x => (x.dev.connections 0).state = connStateDisconnecting ||| connStateSendDisconnectResp ∧
      ¬ Serves (x.dev.connections (x.threads 0).conn) (x.threads 0).target ∧
      (sysStep Platform.nominal (.act 0 .relock) x).any (fun x' => decide
        (writeEvent (HeciBusMsg.mk' 7 32 true [1, 2, 3]) 0 ∈
          x'.dev.events.drop x.dev.events.length)) = true) (by decide +kernel)
  obtain ⟨x', hx', hmem⟩ := (Option.any_eq_true _ _).1 hnext
  have hmem := of_decide_eq_true hmem
  exact ⟨x, x', hx, hx', hstate, hmem, fun hlive => hserves (hlive 0 .relock x' hx' _ hmem rfl).1⟩

end PseFw.Heci
