/-
**Senders that run at the same time.**

`heci_send` is not one critical section.  It takes the device lock to check the connection, takes it
again to look at the credit, gives it up to wait for the semaphore, takes it to look at the credit
once more, gives it up and takes it again to write the message; and while a block of the message is
copied by DMA, the lock is free.  In between, other senders and all the operations of the layer run.

A thread is described by where it stands between two critical sections, and a step of the system is
one critical section of one thread, one action on a semaphore, or one operation.

Main definitions:

* `PseFw.Heci.Phase`, `PseFw.Heci.Thread` — where a call of `heci_send` stands;
* `PseFw.Heci.transmit`, `PseFw.Heci.dmaNext` — the end of `heci_send`, up to the next point where
  the lock is given up;
* `PseFw.Heci.threadStep`, `PseFw.Heci.sysStep` — the steps of a thread and of the system;
* `PseFw.Heci.Outcome`, `PseFw.Heci.ThreadCase` — what a step of a thread does.

Main results:

* `PseFw.Heci.threadStep_cases` — **the cases of a step of a thread**;
* `PseFw.Heci.transmit_refines` — a thread nobody interferes with sends what
  `PseFw.Heci.heciTransmit` sends;
* `PseFw.Heci.sysStep_cases` — the cases of a step of the system.
-/

import PseFw.Heci.Slots

set_option relaxedAutoImplicit false
set_option autoImplicit false

namespace PseFw.Heci

/-! ### Threads -/

/-- **Where a call of `heci_send` stands.** -/
inductive Phase
  /-- No call is under way. -/
  | idle
  /-- The call has begun, and nothing was looked at. -/
  | called
  /-- `cal_send_msg_len` returned the length. -/
  | measured (totalLen : ℤ)
  /-- There was no credit; the thread is about to take the semaphore of the connection. -/
  | pending (totalLen : ℤ)
  /-- The thread waits for the semaphore. -/
  | waiting (totalLen : ℤ) (sem : ConnId)
  /-- The thread has the semaphore, and is about to look at the credit. -/
  | woken (totalLen : ℤ)
  /-- `heci_wait_for_flow_control` returned true. -/
  | granted (totalLen : ℤ)
  /-- A block is being copied, for the given addresses; `rest` comes after it. -/
  | copying (fwAddr hostAddr : UInt8) (m : Mrd) (rest : List Mrd) (b : DmaBlock)
  /-- The thread followed a null pointer. -/
  | fault

/-- A thread: the arguments of its call of `heci_send`, and where the call stands.  `target` is the
pair of addresses the connection had when the call began. -/
structure Thread where
  phase : Phase
  conn : ConnId
  msg : List Mrd
  target : UInt8 × UInt8

/-- A thread that is not in a call. -/
def Thread.start : Thread := ⟨.idle, 0, [], (0, 0)⟩

/-! ### The end of `heci_send` -/

/-- `heci_send` returns what it has in `sent`; that it returns true is left in the trace. -/
def endCall (c : ConnId) (r : Bool × HeciDev) : Phase × HeciDev :=
  (.idle, if r.1 then r.2.log (.sent c) else r.2)

/-- The loop of `send_client_msg_dma` from a descriptor on: the next block is begun, or the message
is out.  Where DMA fails, the message is sent by IPC. -/
def dmaNext (P : Platform) (c : ConnId) (msg : List Mrd) (fwAddr hostAddr : UInt8) :
    List Mrd → HeciDev → Phase × HeciDev
  | [], s => endCall c (true, finishSend c true s)
  | m :: ms, s =>
      match dmaBlockBegin P m s with
      | (none, s) => endCall c (sendByIpc P c msg s)
      | (some b, s) => (.copying fwAddr hostAddr m ms b, s)

/-- The end of `heci_send`, up to the point where the lock is given up. -/
def transmit (P : Platform) (c : ConnId) (totalLen : ℤ) (msg : List Mrd) (s : HeciDev) :
    Phase × HeciDev :=
  if P.useDma = true ∧ totalLen > configHeciDmaThreshold then
    let s := s.log (.clientRead c)
    match (s.connections c).client with
    | none => (.fault, s)
    | some i =>
        if (s.clients i).properties.dmaEnabled then
          dmaNext P c msg (s.connections c).fwAddr (s.connections c).hostAddr msg s
        else endCall c (sendByIpc P c msg s)
  else endCall c (sendByIpc P c msg s)

/-! ### Steps -/

/-- What a thread can do next. -/
inductive Act
  /-- `cal_send_msg_len`. -/
  | check
  /-- The first look at the credit. -/
  | enter
  /-- `k_sem_take` is called. -/
  | semWait
  /-- `k_sem_take` returns with the semaphore. -/
  | semTaken
  /-- `k_sem_take` times out. -/
  | semTimeout
  /-- The second look at the credit, in `heci_wait_for_flow_control`. -/
  | recheck
  /-- The lock is taken again after the wait. -/
  | relock
  /-- `dma_copy` has the lock again, and returns. -/
  | dmaDone (ret : ℤ)

/-- **A step of a thread.** -/
def threadStep (P : Platform) (a : Act) (th : Thread) (s : HeciDev) : Option (Phase × HeciDev) :=
  let conn := s.connections th.conn
  match a, th.phase with
  | .check, .called =>
      if conn.has connStateOpen = false then some (.idle, s)
      else
        let s := s.log (.clientRead th.conn)
        match conn.client with
        | none => some (.fault, s)
        | some i =>
            let totalLen := sumMrdLen (s.clients i).properties.maxMsgSize th.msg 0
            if totalLen < 0 then some (.idle, s) else some (.measured totalLen, s)
  | .enter, .measured totalLen =>
      if conn.hostBuffers = 0 then
        some (.pending totalLen, s.setConn th.conn { conn with
          waitThreadCount := conn.waitThreadCount + 1 })
      else some (transmit P th.conn totalLen th.msg s)
  | .semWait, .pending totalLen =>
      match conn.flowCtrlSem with
      | none => some (.fault, s)
      | some q => some (.waiting totalLen q, s)
  -- the semaphore may have been initialised again since the wait began
  | .semTaken, .waiting totalLen q =>
      if s.flowCtrlSems q = 0 then none
      else some (.woken totalLen, s.setSem q (s.flowCtrlSems q - 1))
  -- the count of the waiting threads is not taken back
  | .semTimeout, .waiting _ _ => some (.idle, s)
  | .recheck, .woken totalLen =>
      if conn.hostBuffers = 0 then some (.pending totalLen, s)
      else
        some (.granted totalLen, s.setConn th.conn { conn with
          waitThreadCount := conn.waitThreadCount - 1 })
  | .relock, .granted totalLen => some (transmit P th.conn totalLen th.msg s)
  | .dmaDone ret, .copying fwAddr hostAddr m rest b =>
      match dmaBlockEnd P fwAddr hostAddr m b ret s with
      | (false, s) => some (endCall th.conn (sendByIpc P th.conn th.msg s))
      | (true, s) => some (dmaNext P th.conn th.msg fwAddr hostAddr rest s)
  | _, _ => none

/-- **The system**: the layer and its threads. -/
structure Sys (n : ℕ) where
  dev : HeciDev
  threads : Fin n → Thread

/-- The system after a thread has gone on to the phase. -/
def Sys.goOn {n : ℕ} (x : Sys n) (t : Fin n) (ph : Phase) (s' : HeciDev) : Sys n :=
  ⟨s', Function.update x.threads t { x.threads t with phase := ph }⟩

/-- The steps of the system. -/
inductive Label (n : ℕ)
  /-- An operation of the layer. -/
  | op (o : Op)
  /-- A thread calls `heci_send`. -/
  | call (t : Fin n) (c : ConnId) (msg : List Mrd)
  /-- A thread does what comes next. -/
  | act (t : Fin n) (a : Act)

/-- A call of `heci_send` begins. -/
def Thread.begin (th : Thread) (c : ConnId) (msg : List Mrd) (s : HeciDev) : Option Thread :=
  match th.phase with
  | .idle => some ⟨.called, c, msg, ((s.connections c).fwAddr, (s.connections c).hostAddr)⟩
  | _ => none

/-- **A step of the system.** -/
def sysStep {n : ℕ} (P : Platform) : Label n → Sys n → Option (Sys n)
  | .op o, x => (opStep P o x.dev).map fun s => { x with dev := s }
  | .call t c msg, x => ((x.threads t).begin c msg x.dev).map fun th =>
      { x with threads := Function.update x.threads t th }
  | .act t a, x => (threadStep P a (x.threads t) x.dev).map fun r => x.goOn t r.1 r.2

/-- Every thread is outside of `heci_send` when the layer starts. -/
structure Sys.Initial {n : ℕ} (x : Sys n) : Prop where
  dev : HeciDev.Initial x.dev
  threads : ∀ t, (x.threads t).phase = .idle

/-! ### A thread that nobody interferes with -/

/-- The steps of one thread on its own. -/
def soloStep (P : Platform) (th : Thread) (a : Act) (r : Phase × HeciDev) :
    Option (Phase × HeciDev) :=
  threadStep P a { th with phase := r.1 } r.2

theorem dmaNext_refines (P : Platform) (th : Thread) (f h : UInt8) (rest : List Mrd)
    (s : HeciDev) :
    ∃ acts, Lts.run (soloStep P th) (dmaNext P th.conn th.msg f h rest s) acts =
      some (endCall th.conn (match sendClientMsgDma P f h rest s with
        | (true, s') => (true, finishSend th.conn true s')
        | (false, s') => sendByIpc P th.conn th.msg s')) := by
  induction rest generalizing s with
  | nil => exact ⟨[], rfl⟩
  | cons m ms ih =>
      rw [dmaNext, sendClientMsgDma]
      rcases dmaBlockBegin P m s with ⟨_ | b, s₁⟩
      · exact ⟨[], rfl⟩
      · -- the copy returns what it returns in the uninterrupted call
        have hret : soloStep P th (.dmaDone (P.dmaCopy s₁.events.length))
            (.copying f h m ms b, s₁) =
            match dmaBlockEnd P f h m b (P.dmaCopy s₁.events.length) s₁ with
            | (false, s) => some (endCall th.conn (sendByIpc P th.conn th.msg s))
            | (true, s) => some (dmaNext P th.conn th.msg f h ms s) := rfl
        rcases hend : dmaBlockEnd P f h m b (P.dmaCopy s₁.events.length) s₁ with ⟨_ | _, s₂⟩
        · refine ⟨[.dmaDone (P.dmaCopy s₁.events.length)], ?_⟩
          rw [hend] at hret
          simp only [Lts.run_cons, Lts.run_nil, hret, hend, Option.bind_some]
        · obtain ⟨acts, hacts⟩ := ih s₂
          refine ⟨.dmaDone (P.dmaCopy s₁.events.length) :: acts, ?_⟩
          rw [hend] at hret
          simp only [Lts.run_cons, hret, hend, Option.bind_some, hacts]

/-- **A thread that nobody interferes with sends what the uninterrupted call sends**, and returns
what it returns. -/
theorem transmit_refines {P : Platform} {th : Thread} {n : ℤ} {s : HeciDev} {r : Bool × HeciDev}
    (h : heciTransmit P th.conn n th.msg s = some r) :
    ∃ acts, Lts.run (soloStep P th) (transmit P th.conn n th.msg s) acts =
      some (endCall th.conn r) := by
  unfold heciTransmit wantsDma at h
  unfold transmit
  by_cases hdma : P.useDma = true ∧ n > configHeciDmaThreshold
  · rw [if_pos hdma] at h ⊢
    dsimp only at h ⊢
    rcases hcl : ((s.log (.clientRead th.conn)).connections th.conn).client with _ | i
    · rw [hcl] at h
      cases h
    · rw [hcl] at h
      dsimp only at h ⊢
      cases hen : ((s.log (.clientRead th.conn)).clients i).properties.dmaEnabled with
      | false =>
          rw [hen] at h
          exact ⟨[], congrArg (fun r => some (endCall th.conn r)) (Option.some.inj h)⟩
      | true =>
          rw [hen] at h
          dsimp only at h
          obtain ⟨acts, hacts⟩ := dmaNext_refines P th
            ((s.log (.clientRead th.conn)).connections th.conn).fwAddr
            ((s.log (.clientRead th.conn)).connections th.conn).hostAddr th.msg
            (s.log (.clientRead th.conn))
          refine ⟨acts, ?_⟩
          rw [if_pos rfl, hacts]
          rcases hdma : sendClientMsgDma P
            ((s.log (.clientRead th.conn)).connections th.conn).fwAddr
            ((s.log (.clientRead th.conn)).connections th.conn).hostAddr th.msg
            (s.log (.clientRead th.conn)) with ⟨_ | _, s₁⟩
          · rw [hdma] at h
            exact congrArg (fun r => some (endCall th.conn r)) (Option.some.inj h)
          · rw [hdma] at h
            exact congrArg (fun r => some (endCall th.conn r)) (Option.some.inj h)
  · rw [if_neg hdma] at h ⊢
    exact ⟨[], congrArg (fun r => some (endCall th.conn r)) (Option.some.inj h)⟩

/-! ### The tables under a thread -/

section tables

variable {c : ConnId} {s : HeciDev}

/-- The count of the waiting threads is not part of what the tables promise. -/
theorem TableInv.setWait (h : TableInv s) (c : ConnId) (n : UInt8) :
    TableInv (s.setConn c { s.connections c with waitThreadCount := n }) :=
  h.setConn ⟨(h.conns c).state, (h.conns c).unused, (h.conns c).used⟩ fun _ => rfl

theorem SlotQuiet.setWait (s : HeciDev) (c : ConnId) (n : UInt8) :
    SlotQuiet s (s.setConn c { s.connections c with waitThreadCount := n }) :=
  SlotQuiet.setConn (SlotQuiet.refl s) ⟨Iff.rfl, rfl, rfl, rfl⟩

theorem TableInv.finishSend (h : TableInv s) (hc : (s.connections c).state ≠ connStateUnused) :
    TableInv (finishSend c true s) :=
  (h.log _).setConn_used hc (h.conns c).state hc rfl rfl rfl rfl rfl rfl

theorem finishSend_connections (c : ConnId) (s : HeciDev) :
    (finishSend c true s).connections = Function.update s.connections c
      { s.connections c with hostBuffers := (s.connections c).hostBuffers - 1 } := rfl

theorem finishSend_events (c : ConnId) (s : HeciDev) :
    (finishSend c true s).events =
      s.events ++ [Event.creditTaken c (s.connections c).hostBuffers] := rfl

end tables

/-! ### What a step of a thread does -/

/-- The frames of a message, or the announcements of its blocks. -/
def IsSendFrame (c : ConnId) (fwAddr hostAddr : UInt8) (s : HeciDev) (f : HeciBusMsg) : Prop :=
  IsClientFrame (s.connections c).fwAddr (s.connections c).hostAddr f ∨
    IsDmaXferReq fwAddr hostAddr f

/-- A part of a message goes out; the client of the connection may have been looked at before. -/
def SendIo (c : ConnId) (fwAddr hostAddr : UInt8) (s s' : HeciDev) : Prop :=
  ∃ s₁, (s₁ = s ∨ s₁ = s.log (.clientRead c)) ∧ IoStep (IsSendFrame c fwAddr hostAddr s) s₁ s'

/-- **The end of `heci_send`**, up to the point where the lock is given up. -/
inductive Outcome (c : ConnId) (fwAddr hostAddr : UInt8) (s : HeciDev) : Phase → HeciDev → Prop
  | fault : Outcome c fwAddr hostAddr s .fault (s.log (.clientRead c))
  | failed {s' : HeciDev} : SendIo c fwAddr hostAddr s s' → Outcome c fwAddr hostAddr s .idle s'
  | sent {s' : HeciDev} : SendIo c fwAddr hostAddr s s' →
      Outcome c fwAddr hostAddr s .idle ((finishSend c true s').log (.sent c))
  | copying {s' : HeciDev} (m : Mrd) (ms : List Mrd) (b : DmaBlock) :
      SendIo c fwAddr hostAddr s s' →
      Outcome c fwAddr hostAddr s (.copying fwAddr hostAddr m ms b) s'

section outcome

variable {P : Platform} {c : ConnId} {f h : UInt8} {msg : List Mrd} {s s₁ : HeciDev}

theorem SendIo.refl (c : ConnId) (f h : UInt8) (s : HeciDev) : SendIo c f h s s :=
  ⟨s, Or.inl rfl, IoStep.refl _ s⟩

theorem SendIo.connections (hs : SendIo c f h s s₁) : s₁.connections = s.connections := by
  obtain ⟨s₀, hs₀, hio⟩ := hs
  rw [hio.connections]
  rcases hs₀ with rfl | rfl <;> rfl

theorem SendIo.io {s₂ : HeciDev} (hs : SendIo c f h s s₁)
    (hio : IoStep (IsSendFrame c f h s) s₁ s₂) : SendIo c f h s s₂ := by
  obtain ⟨s₀, hs₀, hio₀⟩ := hs
  exact ⟨s₀, hs₀, hio₀.trans hio⟩

theorem SendIo.slotQuiet (hs : SendIo c f h s s₁) : SlotQuiet s s₁ := by
  obtain ⟨s₀, rfl | rfl, hio⟩ := hs
  · exact (SlotQuiet.refl s₀).io hio
  · exact (SlotQuiet.logEvent (SlotQuiet.refl s) fun _ => rfl).io hio

theorem SendIo.tableInv (hs : SendIo c f h s s₁) (hT : TableInv s) : TableInv s₁ := by
  obtain ⟨s₀, rfl | rfl, hio⟩ := hs
  · exact hT.io hio
  · exact (hT.log _).io hio

/-- Sending by IPC ends the call. -/
theorem outcome_sendByIpc (P : Platform) (msg : List Mrd) (hs : SendIo c f h s s₁) :
    Outcome c f h s (endCall c (sendByIpc P c msg s₁)).1 (endCall c (sendByIpc P c msg s₁)).2 := by
  have hframes := ioStep_sendClientMsgIpc P (s₁.connections c) msg s₁
  have hio : SendIo c f h s (sendClientMsgIpc P (s₁.connections c) msg s₁).2 := by
    refine hs.io (hframes.mono fun fr hfr => Or.inl ?_)
    rw [← hs.connections]
    exact hfr
  unfold endCall sendByIpc
  dsimp only
  cases (sendClientMsgIpc P (s₁.connections c) msg s₁).1 with
  | false => exact Outcome.failed hio
  | true => exact Outcome.sent hio

/-- The next block is begun, or the message is out. -/
theorem outcome_dmaNext (P : Platform) (msg rest : List Mrd) (hs : SendIo c f h s s₁) :
    Outcome c f h s (dmaNext P c msg f h rest s₁).1 (dmaNext P c msg f h rest s₁).2 := by
  cases rest with
  | nil => exact Outcome.sent hs
  | cons m ms =>
      have hbegin := hs.io (ioStep_dmaBlockBegin _ P m s₁)
      rw [dmaNext]
      rcases hb : dmaBlockBegin P m s₁ with ⟨_ | b, s₂⟩
      · rw [hb] at hbegin
        exact outcome_sendByIpc P msg hbegin
      · rw [hb] at hbegin
        exact Outcome.copying m ms b hbegin

theorem outcome_transmit (P : Platform) (c : ConnId) (n : ℤ) (msg : List Mrd) (s : HeciDev) :
    Outcome c (s.connections c).fwAddr (s.connections c).hostAddr s (transmit P c n msg s).1
      (transmit P c n msg s).2 := by
  have hrefl := SendIo.refl c (s.connections c).fwAddr (s.connections c).hostAddr s
  unfold transmit
  split
  · have hread : SendIo c (s.connections c).fwAddr (s.connections c).hostAddr s
        (s.log (.clientRead c)) := ⟨_, Or.inr rfl, IoStep.refl _ _⟩
    dsimp only
    split
    · exact Outcome.fault
    · split
      · exact outcome_dmaNext P msg msg hread
      · exact outcome_sendByIpc P msg hread
  · exact outcome_sendByIpc P msg hrefl

end outcome

/-- The thread waits for credit. -/
def Phase.Queued : Phase → Prop
  | .pending _ | .waiting _ _ | .woken _ => True
  | _ => False

/-- What becomes of a thread that waits for credit and does not get it. -/
def Phase.AfterQueue : Phase → Prop
  | .pending _ | .waiting _ _ | .woken _ | .idle | .fault => True
  | _ => False

/-- What becomes of a thread that has checked its connection. -/
def Phase.AfterCheck : Phase → Prop
  | .measured _ | .idle | .fault => True
  | _ => False

/-- **What a step of a thread does.** -/
inductive ThreadCase (th : Thread) (s : HeciDev) : Phase → HeciDev → Prop
  /-- The connection is not open. -/
  | refused : th.phase = .called → (s.connections th.conn).has connStateOpen = false →
      ThreadCase th s .idle s
  /-- The connection is open, and its client is asked for its limit. -/
  | checked (ph : Phase) : th.phase = .called →
      (s.connections th.conn).has connStateOpen = true → ph.AfterCheck →
      ThreadCase th s ph (s.log (.clientRead th.conn))
  /-- There is no credit. -/
  | waits (totalLen : ℤ) (n : UInt8) : th.phase = .measured totalLen →
      (s.connections th.conn).hostBuffers = 0 →
      ThreadCase th s (.pending totalLen) (s.setConn th.conn { s.connections th.conn with
        waitThreadCount := n })
  /-- There is still no credit. -/
  | queued {s' : HeciDev} (ph : Phase) : th.phase.Queued → ph.AfterQueue →
      (s' = s ∨ ∃ q n, s' = s.setSem q n) → ThreadCase th s ph s'
  /-- There is credit after a wait. -/
  | acquires (totalLen : ℤ) (n : UInt8) : th.phase = .woken totalLen →
      (s.connections th.conn).hostBuffers ≠ 0 →
      ThreadCase th s (.granted totalLen) (s.setConn th.conn { s.connections th.conn with
        waitThreadCount := n })
  /-- There is credit at the first look. -/
  | sends {s' : HeciDev} (totalLen : ℤ) (ph : Phase) : th.phase = .measured totalLen →
      (s.connections th.conn).hostBuffers ≠ 0 →
      Outcome th.conn (s.connections th.conn).fwAddr (s.connections th.conn).hostAddr s ph s' →
      ThreadCase th s ph s'
  /-- The thread has waited for its credit. -/
  | resumes {s' : HeciDev} (totalLen : ℤ) (ph : Phase) : th.phase = .granted totalLen →
      Outcome th.conn (s.connections th.conn).fwAddr (s.connections th.conn).hostAddr s ph s' →
      ThreadCase th s ph s'
  /-- A block was copied. -/
  | copied {s' : HeciDev} (f h : UInt8) (m : Mrd) (rest : List Mrd) (b : DmaBlock) (ph : Phase) :
      th.phase = .copying f h m rest b → Outcome th.conn f h s ph s' → ThreadCase th s ph s'

/-- **The cases of a step of a thread.** -/
theorem threadStep_cases {P : Platform} {a : Act} {th : Thread} {s s' : HeciDev} {ph : Phase}
    (h : threadStep P a th s = some (ph, s')) : ThreadCase th s ph s' := by
  -- a branch that says what the step is gives its case
  have hsome : ∀ ph₁ s₁, some (ph₁, s₁) = some (ph, s') → ThreadCase th s ph₁ s₁ →
      ThreadCase th s ph s' := by
    intro ph₁ s₁ heq hcase
    cases heq
    exact hcase
  have hout : ∀ n, some (transmit P th.conn n th.msg s) = some (ph, s') →
      Outcome th.conn (s.connections th.conn).fwAddr (s.connections th.conn).hostAddr s ph s' := by
    intro n heq
    have hout := outcome_transmit P th.conn n th.msg s
    rwa [Option.some.inj heq] at hout
  unfold threadStep at h
  dsimp only at h
  split at h
  · next hph =>
      split at h
      · next hopen => exact hsome _ _ h (.refused hph hopen)
      · next hopen =>
          have hopen := Bool.eq_true_of_not_eq_false hopen
          split at h
          · exact hsome _ _ h (.checked _ hph hopen trivial)
          · split at h
            · exact hsome _ _ h (.checked _ hph hopen trivial)
            · exact hsome _ _ h (.checked _ hph hopen trivial)
  · next totalLen hph =>
      split at h
      · next hzero => exact hsome _ _ h (.waits totalLen _ hph hzero)
      · next hne => exact .sends totalLen ph hph hne (hout totalLen h)
  · next totalLen hph =>
      have hq : th.phase.Queued := by rw [hph]; trivial
      split at h
      · exact hsome _ _ h (.queued _ hq trivial (Or.inl rfl))
      · exact hsome _ _ h (.queued _ hq trivial (Or.inl rfl))
  · next totalLen q hph =>
      have hq : th.phase.Queued := by rw [hph]; trivial
      split at h
      · cases h
      · exact hsome _ _ h (.queued _ hq trivial (Or.inr ⟨q, _, rfl⟩))
  · next hph =>
      have hq : th.phase.Queued := by rw [hph]; trivial
      exact hsome _ _ h (.queued _ hq trivial (Or.inl rfl))
  · next totalLen hph =>
      have hq : th.phase.Queued := by rw [hph]; trivial
      split at h
      · exact hsome _ _ h (.queued _ hq trivial (Or.inl rfl))
      · next hne => exact hsome _ _ h (.acquires totalLen _ hph hne)
  · next totalLen hph => exact .resumes totalLen ph hph (hout totalLen h)
  · next ret f k m rest b hph =>
      have hend := (SendIo.refl th.conn f k s).io
        ((ioStep_dmaBlockEnd P f k m b ret s).mono fun _ => Or.inr)
      split at h
      · next s₁ hb =>
          rw [hb] at hend
          exact hsome _ _ h (.copied f k m rest b _ hph (outcome_sendByIpc P th.msg hend))
      · next s₁ hb =>
          rw [hb] at hend
          have hnext := outcome_dmaNext P th.msg rest hend
          rw [Option.some.inj h] at hnext
          exact .copied f k m rest b _ hph hnext
  · cases h

/-- **What a step of the system does.** -/
inductive SysCase {n : ℕ} (P : Platform) (x : Sys n) : Label n → Sys n → Prop
  | op {o : Op} {s' : HeciDev} : opStep P o x.dev = some s' → SysCase P x (.op o) ⟨s', x.threads⟩
  | call (t : Fin n) (c : ConnId) (msg : List Mrd) : (x.threads t).phase = .idle →
      SysCase P x (.call t c msg) ⟨x.dev, Function.update x.threads t
        ⟨.called, c, msg, (x.dev.connections c).fwAddr, (x.dev.connections c).hostAddr⟩⟩
  | act {t : Fin n} {a : Act} {ph : Phase} {s' : HeciDev} :
      ThreadCase (x.threads t) x.dev ph s' → SysCase P x (.act t a) (x.goOn t ph s')

/-- **The cases of a step of the system.** -/
theorem sysStep_cases {n : ℕ} {P : Platform} {l : Label n} {x x' : Sys n}
    (h : sysStep P l x = some x') : SysCase P x l x' := by
  cases l with
  | op o =>
      obtain ⟨s', hs', rfl⟩ := Option.map_eq_some_iff.1 h
      exact .op hs'
  | call t c msg =>
      obtain ⟨th, hth, rfl⟩ := Option.map_eq_some_iff.1 h
      unfold Thread.begin at hth
      split at hth
      · next hph =>
          cases hth
          exact .call t c msg hph
      · cases hth
  | act t a =>
      obtain ⟨⟨ph, s'⟩, hr, rfl⟩ := Option.map_eq_some_iff.1 h
      exact .act (threadStep_cases hr)

/-! ### Counting threads by their phases -/

/-- What a thread does only counts on its own connection. -/
theorem tally_goOn {n : ℕ} (q : Phase → Bool) (x : Sys n) (t : Fin n) (ph : Phase) (s' : HeciDev)
    (c : ConnId) :
    (c ≠ (x.threads t).conn →
      Table.tally (fun th => decide (th.conn = c) && q th.phase) (x.goOn t ph s').threads =
        Table.tally (fun th => decide (th.conn = c) && q th.phase) x.threads) ∧
      (c = (x.threads t).conn →
        Table.tally (fun th => decide (th.conn = c) && q th.phase) (x.goOn t ph s').threads +
            (q (x.threads t).phase).toNat =
          Table.tally (fun th => decide (th.conn = c) && q th.phase) x.threads +
            (q ph).toNat) := by
  refine ⟨fun hc => Table.tally_update_of_eq ?_, fun hc => ?_⟩
  · simp [hc.symm]
  · have hup := Table.tally_update (fun th => decide (th.conn = c) && q th.phase) x.threads t
      { x.threads t with phase := ph }
    simp only [hc, decide_true, Bool.true_and] at hup
    exact hc ▸ hup

/-! ### Concrete runs -/

/-- The system the firmware starts in. -/
def coldSys (n : ℕ) : Sys n := ⟨coldStart, fun _ => Thread.start⟩

theorem coldSys_initial (n : ℕ) : Sys.Initial (coldSys n) := ⟨coldStart_initial, fun _ => rfl⟩

theorem exists_sysReachable {n : ℕ} (P : Platform) (ls : List (Label n)) (p : Sys n → Prop)
    [DecidablePred p]
    (h : (Lts.run (sysStep P) (coldSys n) ls).any (fun x => decide (p x)) = true) :
    ∃ x, Lts.Reach Sys.Initial (sysStep P) Lts.Free x ∧ p x :=
  Lts.exists_reach (coldSys_initial n) ls p h

theorem exists_sysDisciplined {n : ℕ} (P : Platform) (C : Sys n → Label n → Prop)
    [∀ x l, Decidable (C x l)] (ls : List (Label n)) (p : Sys n → Prop) [DecidablePred p]
    (h : (Lts.run (Lts.guarded C (sysStep P)) (coldSys n) ls).any (fun x => decide (p x)) = true) :
    ∃ x, Lts.Reach Sys.Initial (sysStep P) C x ∧ p x :=
  Lts.exists_reach_guarded (coldSys_initial n) ls p h

/-- The host sends a bus message. -/
def busLabel {n : ℕ} (data : List UInt8) : Label n := .op (.recv (busFrame data))

/-- One client registers, the host enumerates the clients and connects to it. -/
def connectLabels {n : ℕ} (client : HeciClient) (hostAddr : UInt8) : List (Label n) :=
  [.op (.register (some client)), busLabel [busMsgHostEnumReq, 0, 0, 0],
    busLabel [busMsgClientConnectReq, 32, hostAddr, 0]]

/-- The host grants one message. -/
def grantLabel {n : ℕ} (hostAddr : UInt8) : Label n :=
  busLabel [busMsgFlowControl, 32, hostAddr, 1, 0, 0, 0, 0]

/-- A message of three bytes. -/
def shortMsg : List Mrd := [Mrd.ofBytes [1, 2, 3]]

/-- A thread calls `heci_send` and waits for credit. -/
def waitLabels {n : ℕ} (t : Fin n) (c : ConnId) : List (Label n) :=
  [.call t c shortMsg, .act t .check, .act t .enter, .act t .semWait]

/-- A thread that waits gets the semaphore, and finds credit. -/
def wakeLabels {n : ℕ} (t : Fin n) : List (Label n) := [.act t .semTaken, .act t .recheck]

/-- A thread calls `heci_send` and finds credit. -/
def sendLabels {n : ℕ} (t : Fin n) (c : ConnId) : List (Label n) :=
  [.call t c shortMsg, .act t .check, .act t .enter]

end PseFw.Heci
