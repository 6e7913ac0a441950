/-
**The count of the threads that wait for credit.**

A sender that finds no credit adds itself to the count of the waiting threads and waits for the
semaphore of the connection; a `FLOW_CONTROL` message gives the semaphore once for every message it
grants, but not more often than threads are counted.  The count is therefore what decides whether
anybody is woken.

It is a number of eight bits, and a thread whose wait times out leaves without taking itself off
it.  A single timeout makes the count wrong for good, and enough of them make it wrap around to
zero while threads wait.  This module watches one connection, and says which steps spoil its count:
timeouts, a wait that starts when the count is full, and messages that go out without credit while
somebody waits who was not woken.

Whether the semaphore was given is read off its count: it went up with the credit, or stands at its
limit, where giving does not change it.

Main definitions:

* `PseFw.Heci.Thread.waitsFor`, `PseFw.Heci.waiters` — the threads that registered and did not
  leave;
* `PseFw.Heci.semGives` — how often a `FLOW_CONTROL` message calls for the semaphore to be given;
* `PseFw.Heci.semRaised` — the semaphore was given, as its count shows;
* `PseFw.Heci.Watch`, `PseFw.Heci.watchStep` — senders and `FLOW_CONTROL` messages, watched from
  the moment a connection is open and nobody waits;
* `PseFw.Heci.WaitersOk` — the count is right and no credit arrives unnoticed;
* `PseFw.Heci.WaitDiscipline` — the steps that keep the count right.

Main results:

* `PseFw.Heci.threadStep_waitCase` — what a step of a thread does to the count;
* `PseFw.Heci.waitersOk_of_disciplined` — **in every disciplined run of any number of senders the
  count is the number of the waiting threads, and no wake-up is lost**;
* `PseFw.Heci.not_waitersOk_timeouts` — one timeout makes the count wrong, and enough of them lose a
  wake-up.
-/

import PseFw.Heci.Threads

set_option relaxedAutoImplicit false
set_option autoImplicit false

namespace PseFw.Heci

open Table

/-! ### Waiting threads -/

/-- The thread has registered as a waiter, and has not left `heci_wait_for_flow_control`. -/
def Phase.waits : Phase → Bool
  | .pending _ | .waiting _ _ | .woken _ => true
  | _ => false

/-- The thread waits for credit of the connection. -/
def Thread.waitsFor (c : ConnId) (th : Thread) : Bool := decide (th.conn = c) && th.phase.waits

/-- **The number of threads that wait for credit of the connection.** -/
def waiters {n : ℕ} (x : Sys n) (c : ConnId) : ℕ := tally (Thread.waitsFor c) x.threads

/-- What a thread does only counts on its own connection. -/
theorem waiters_goOn {n : ℕ} (x : Sys n) (t : Fin n) (ph : Phase) (s' : HeciDev) (c : ConnId) :
    (c ≠ (x.threads t).conn → waiters (x.goOn t ph s') c = waiters x c) ∧
      (c = (x.threads t).conn → waiters (x.goOn t ph s') c + (x.threads t).phase.waits.toNat =
        waiters x c + ph.waits.toNat) :=
  tally_goOn Phase.waits x t ph s' c

/-! ### The messages that grant credit -/

/-- A `FLOW_CONTROL` message, of the right length or not. -/
def IsFlowControl (msg : HeciBusMsg) : Prop :=
  msg.hdr.fwAddr = heciDriverAddress ∧ msg.byte 0 = busMsgFlowControl

instance (msg : HeciBusMsg) : Decidable (IsFlowControl msg) :=
  inferInstanceAs (Decidable (_ ∧ _))

/-- **How often a `FLOW_CONTROL` message calls for the semaphore of the connection to be given**, if
it grants something on it. -/
def semGives (c : ConnId) (msg : HeciBusMsg) (s : HeciDev) : Option ℕ :=
  if msg.hdr.len ≠ 8 then none
  else if heciFindConn (msg.byte 1) (msg.byte 2) connStateOpen s = some c then
    some (min (grantedPackets (msg.byte 3)).toNat (s.connections c).waitThreadCount.toNat)
  else none

/-- The state in which a `FLOW_CONTROL` message gives the semaphore. -/
def granted (c : ConnId) (msg : HeciBusMsg) (s : HeciDev) : HeciDev :=
  (s.setConn c { s.connections c with
    hostBuffers := (s.connections c).hostBuffers + (grantedPackets (msg.byte 3)).toUInt32 }).log
      (.creditGranted c (grantedPackets (msg.byte 3)).toNat)

/-- The credit is recorded, and the semaphore is given. -/
theorem heciFlowControlRecv_of_semGives {c : ConnId} {msg : HeciBusMsg} {s : HeciDev} {k : ℕ}
    (h : semGives c msg s = some k) :
    heciFlowControlRecv msg s = heciWakeupSender c k (granted c msg s) := by
  unfold semGives at h
  split at h
  · cases h
  next hlen =>
  split at h
  · next hc =>
      cases h
      rw [heciFlowControlRecv, if_neg hlen, hc]
      rfl
  · cases h

/-- A message that grants nothing on a connection leaves it alone. -/
theorem heciFlowControlRecv_connections_of_none {c : ConnId} {msg : HeciBusMsg} {s s' : HeciDev}
    (hk : semGives c msg s = none) (h : heciFlowControlRecv msg s = some s') :
    s'.connections c = s.connections c := by
  unfold semGives at hk
  unfold heciFlowControlRecv at h
  split at h
  · cases h
    rfl
  next hlen =>
  rw [if_neg hlen] at hk
  split at h
  · cases h
    rfl
  next d hd =>
  have hne : c ≠ d := by
    rintro rfl
    rw [if_pos hd] at hk
    cases hk
  dsimp only at h
  unfold heciWakeupSender at h
  split at h
  · split at h
    · cases h
      exact Function.update_of_ne hne ..
    · cases h
  · cases h
    exact Function.update_of_ne hne ..

/-- A grant is at least one message. -/
theorem grantedPackets_pos (k : UInt8) : 0 < (grantedPackets k).toNat := by
  unfold grantedPackets
  split
  · decide
  · next hk => exact Nat.pos_of_ne_zero fun h₀ => hk (UInt8.toNat_inj.1 h₀)

/-- **The semaphore of the connection was given** between two states: its count went up, or stands
at its limit. -/
def semRaised (c : ConnId) (s s' : HeciDev) : Bool :=
  match (s.connections c).flowCtrlSem with
  | none => false
  | some q => decide (s.flowCtrlSems q < s'.flowCtrlSems q ∨ s'.flowCtrlSems q = 2 ^ 32 - 1)

/-- A sender that is to be woken finds the semaphore given. -/
theorem semRaised_heciWakeupSender {c q : ConnId} {k : ℕ} {s t s' : HeciDev}
    (hq : (s.connections c).flowCtrlSem = some q) (hqt : (t.connections c).flowCtrlSem = some q)
    (hsems : t.flowCtrlSems = s.flowCtrlSems) (h : heciWakeupSender c k t = some s')
    (hno : semRaised c s s' = false) : k = 0 := by
  rw [heciWakeupSender_of_sem hqt, hsems] at h
  have hcount : s'.flowCtrlSems q = min (s.flowCtrlSems q + k) (2 ^ 32 - 1) := by
    rw [← Option.some.inj h]
    exact Function.update_self ..
  rw [semRaised, hq] at hno
  have hnot := of_decide_eq_false hno
  rw [hcount] at hnot
  omega

/-- A message that wakes nobody finds a count of zero. -/
theorem waitThreadCount_of_semGives_zero {c : ConnId} {msg : HeciBusMsg} {s : HeciDev}
    (h : semGives c msg s = some 0) : (s.connections c).waitThreadCount.toNat = 0 := by
  unfold semGives at h
  split at h
  · cases h
  split at h
  · have hmin := Option.some.inj h
    have hpos := grantedPackets_pos (msg.byte 3)
    omega
  · cases h

/-! ### What a step of a thread does to the count -/

/-- **What a step of a thread does to the count of the waiting threads.** -/
inductive WaitCase (th : Thread) (a : Act) (s : HeciDev) : Phase → HeciDev → Prop
  /-- There is no credit, and the thread is counted. -/
  | registers {ph : Phase} : a = .enter → (s.connections th.conn).hostBuffers = 0 →
      th.phase.waits = false → ph.waits = true →
      WaitCase th a s ph (s.setConn th.conn { s.connections th.conn with
        waitThreadCount := (s.connections th.conn).waitThreadCount + 1 })
  /-- There is credit, and the thread is not counted any more. -/
  | leaves {ph : Phase} : th.phase.waits = true → ph.waits = false →
      WaitCase th a s ph (s.setConn th.conn { s.connections th.conn with
        waitThreadCount := (s.connections th.conn).waitThreadCount - 1 })
  /-- The wait times out. -/
  | timesOut : a = .semTimeout → WaitCase th a s .idle s
  /-- There is no semaphore to wait for. -/
  | lost : (s.connections th.conn).flowCtrlSem = none → WaitCase th a s .fault s
  /-- The thread waits as before, or does not. -/
  | stays {ph : Phase} {s' : HeciDev} : ph.waits = th.phase.waits →
      s'.connections = s.connections → WaitCase th a s ph s'
  /-- A message is out, and its credit is taken. -/
  | sends {s₁ : HeciDev} : th.phase.waits = false →
      (a = .enter ∧ (s.connections th.conn).hostBuffers ≠ 0 ∨ a = .relock ∨ ∃ r, a = .dmaDone r) →
      s₁.connections = s.connections →
      WaitCase th a s .idle ((finishSend th.conn true s₁).log (.sent th.conn))

section thread

variable {P : Platform} {th : Thread} {a : Act} {s s' : HeciDev} {ph : Phase}

/-- The end of `heci_send` does not touch the count. -/
theorem waitCase_outcome {f h : UInt8} (hw : th.phase.waits = false)
    (ha : a = .enter ∧ (s.connections th.conn).hostBuffers ≠ 0 ∨ a = .relock ∨ ∃ r, a = .dmaDone r)
    (ho : Outcome th.conn f h s ph s') : WaitCase th a s ph s' := by
  cases ho with
  | fault => exact .stays hw.symm rfl
  | failed hs => exact .stays hw.symm hs.connections
  | sent hs => exact .sends hw ha hs.connections
  | copying m ms b hs => exact .stays hw.symm hs.connections

/-- **The cases of a step of a thread, as far as the count is concerned.** -/
theorem threadStep_waitCase (h : threadStep P a th s = some (ph, s')) : WaitCase th a s ph s' := by
  -- a branch that says what the step is gives its case
  have hsome : ∀ ph₁ s₁, some (ph₁, s₁) = some (ph, s') → WaitCase th a s ph₁ s₁ →
      WaitCase th a s ph s' := by
    intro ph₁ s₁ heq hcase
    cases heq
    exact hcase
  have hout : ∀ n, some (transmit P th.conn n th.msg s) = some (ph, s') →
      Outcome th.conn (s.connections th.conn).fwAddr (s.connections th.conn).hostAddr s ph s' := by
    intro n heq
    have hout := outcome_transmit P th.conn n th.msg s
    rwa [Option.some.inj heq] at hout
  have hwaits : ∀ {p : Phase} {b : Bool}, th.phase = p → p.waits = b → th.phase.waits = b := by
    intro p b hp hb
    rw [hp]
    exact hb
  unfold threadStep at h
  dsimp only at h
  -- one case for each phase, in the order of the definition
  split at h
  · next hph =>
      have hw := hwaits hph rfl
      split at h
      · exact hsome _ _ h (.stays hw.symm rfl)
      · split at h
        · exact hsome _ _ h (.stays hw.symm rfl)
        · split at h
          · exact hsome _ _ h (.stays hw.symm rfl)
          · exact hsome _ _ h (.stays hw.symm rfl)
  · next totalLen hph =>
      have hw := hwaits hph rfl
      split at h
      · next hzero => exact hsome _ _ h (.registers rfl hzero hw rfl)
      · next hne => exact waitCase_outcome hw (Or.inl ⟨rfl, hne⟩) (hout totalLen h)
  · next totalLen hph =>
      split at h
      · next hsem => exact hsome _ _ h (.lost hsem)
      · exact hsome _ _ h (.stays (hwaits hph rfl).symm rfl)
  · next totalLen q hph =>
      split at h
      · cases h
      · exact hsome _ _ h (.stays (hwaits hph rfl).symm rfl)
  · exact hsome _ _ h (.timesOut rfl)
  · next totalLen hph =>
      split at h
      · exact hsome _ _ h (.stays (hwaits hph rfl).symm rfl)
      · exact hsome _ _ h (.leaves (hwaits hph rfl) rfl)
  · next totalLen hph =>
      exact waitCase_outcome (hwaits hph rfl) (Or.inr (Or.inl rfl)) (hout totalLen h)
  · next ret f k m rest b hph =>
      have hw := hwaits hph rfl
      have hend := (SendIo.refl th.conn f k s).io
        ((ioStep_dmaBlockEnd P f k m b ret s).mono fun _ => Or.inr)
      split at h
      · next s₁ hb =>
          rw [hb] at hend
          have hout := outcome_sendByIpc P th.msg hend
          exact hsome _ _ h (waitCase_outcome hw (Or.inr (Or.inr ⟨ret, rfl⟩)) hout)
      · next s₁ hb =>
          rw [hb] at hend
          have hnext := outcome_dmaNext P th.msg rest hend
          rw [Option.some.inj h] at hnext
          exact waitCase_outcome hw (Or.inr (Or.inr ⟨ret, rfl⟩)) hnext
  · cases h

/-- A thread only touches its own connection. -/
theorem WaitCase.connections_of_ne (h : WaitCase th a s ph s') {c : ConnId} (hc : c ≠ th.conn) :
    s'.connections c = s.connections c := by
  cases h with
  | registers _ _ _ _ => exact Function.update_of_ne hc ..
  | leaves _ _ => exact Function.update_of_ne hc ..
  | timesOut _ => rfl
  | lost _ => rfl
  | stays _ hco => rw [hco]
  | sends _ _ hco =>
      rw [HeciDev.log_connections, finishSend_connections, Function.update_of_ne hc, hco]

end thread

/-! ### Senders and `FLOW_CONTROL` messages -/

/-- **The system, with a connection that is watched**: `given` says whether the count of its
semaphore went up when the last credit arrived on it. -/
structure Watch (n : ℕ) where
  sys : Sys n
  given : Bool

/-- What happens while the connection is watched. -/
inductive SendLabel (n : ℕ)
  /-- A `FLOW_CONTROL` message arrives, for any connection. -/
  | flowControl (msg : HeciBusMsg)
  /-- A thread calls `heci_send`. -/
  | call (t : Fin n) (c : ConnId) (msg : List Mrd)
  /-- A thread does what comes next. -/
  | act (t : Fin n) (a : Act)

/-- **A step of the system while the connection is watched.**  Credit arrives when `host_buffers`
of the connection changes with a message. -/
def watchStep {n : ℕ} (P : Platform) (c : ConnId) : SendLabel n → Watch n → Option (Watch n)
  | .flowControl msg, w =>
      if IsFlowControl msg then
        (sysStep P (.op (.recv msg)) w.sys).map fun x =>
          ⟨x, if (x.dev.connections c).hostBuffers = (w.sys.dev.connections c).hostBuffers
            then w.given else semRaised c w.sys.dev x.dev⟩
      else none
  | .call t d msg, w => (sysStep P (.call t d msg) w.sys).map fun x => ⟨x, w.given⟩
  | .act t a, w => (sysStep P (.act t a) w.sys).map fun x => ⟨x, w.given⟩

/-- The connection is open, no call of `heci_send` is under way, and nobody is counted. -/
structure Watch.Initial {n : ℕ} (P : Platform) (c : ConnId) (w : Watch n) : Prop where
  reachable : Reachable P w.sys.dev
  isOpen : (w.sys.dev.connections c).has connStateOpen = true
  waitThreadCount : (w.sys.dev.connections c).waitThreadCount = 0
  threads : ∀ t, (w.sys.threads t).phase = .idle
  given : w.given = false

/-- **The waiters of the connection are accounted for**: they are counted, and if there is credit
while one of them has not left, the semaphore was given when the credit arrived. -/
structure WaitersOk {n : ℕ} (c : ConnId) (w : Watch n) : Prop where
  counted : (w.sys.dev.connections c).waitThreadCount.toNat = waiters w.sys c
  woken : (w.sys.dev.connections c).hostBuffers ≠ 0 →
    ∀ t, (w.sys.threads t).waitsFor c = true → w.given = true

/-- **What keeps the count right**: no thread times out, none starts to wait when the count is
full, and nobody takes credit that is not there while threads are counted that were not woken. -/
def WaitDiscipline {n : ℕ} (c : ConnId) (w : Watch n) : SendLabel n → Prop
  | .act t .semTimeout => (w.sys.threads t).conn ≠ c
  | .act t .enter => (w.sys.threads t).conn = c → (w.sys.dev.connections c).hostBuffers = 0 →
      (w.sys.dev.connections c).waitThreadCount ≠ 255
  | .act t .relock | .act t (.dmaDone _) => (w.sys.threads t).conn = c →
      (w.sys.dev.connections c).hostBuffers = 0 → w.given = false →
      (w.sys.dev.connections c).waitThreadCount = 0
  | _ => True

/-! ### The invariant -/

/-- There is a semaphore, the waiters are counted, and as long as nobody was woken there is no
credit or no waiter. -/
structure WaitInv {n : ℕ} (c : ConnId) (w : Watch n) : Prop where
  sem : (w.sys.dev.connections c).flowCtrlSem.isSome
  counted : (w.sys.dev.connections c).waitThreadCount.toNat = waiters w.sys c
  woken : w.given = false → (w.sys.dev.connections c).hostBuffers = 0 ∨ waiters w.sys c = 0

section invariant

variable {n : ℕ} {P : Platform} {c : ConnId} {w w' : Watch n}

theorem WaitInv.waitersOk (h : WaitInv c w) : WaitersOk c w := by
  refine ⟨h.counted, fun hhb t ht => Bool.of_not_eq_false fun hgiven => ?_⟩
  rcases h.woken hgiven with hzero | hzero
  · exact hhb hzero
  · exact (tally_pos ht).ne' hzero

theorem waitInv_initial (h : Watch.Initial P c w) : WaitInv c w := by
  have hzero : waiters w.sys c = 0 :=
    tally_eq_zero fun t => by simp [Thread.waitsFor, Phase.waits, h.threads t]
  refine ⟨?_, ?_, fun _ => Or.inr hzero⟩
  · have hne : (w.sys.dev.connections c).state ≠ connStateUnused := by
      intro hst
      have hopen := h.isOpen
      rw [HeciConn.has, hst] at hopen
      exact absurd hopen (by decide)
    obtain ⟨i, -, -, -, -, hsem, -⟩ := ((tableInv_of_reachable h.reachable).conns c).used hne
    rw [hsem]
    rfl
  · rw [hzero, h.waitThreadCount]
    rfl

/-- The connection is as before, and so are its waiters. -/
theorem WaitInv.congr (h : WaitInv c w)
    (hco : w'.sys.dev.connections c = w.sys.dev.connections c)
    (hwa : waiters w'.sys c = waiters w.sys c) (hgi : w'.given = w.given) : WaitInv c w' := by
  refine ⟨?_, ?_, ?_⟩
  · rw [hco]
    exact h.sem
  · rw [hco, hwa]
    exact h.counted
  · rw [hco, hwa, hgi]
    exact h.woken

/-- Credit arrives. -/
theorem waitInv_flowControl {msg : HeciBusMsg} {s' : HeciDev} (h : WaitInv c w)
    (hmsg : IsFlowControl msg) (hst : heciProcessMessage P msg w.sys.dev = some s') :
    WaitInv c ⟨⟨s', w.sys.threads⟩,
      if (s'.connections c).hostBuffers = (w.sys.dev.connections c).hostBuffers
      then w.given else semRaised c w.sys.dev s'⟩ := by
  have hrecv : heciFlowControlRecv msg (w.sys.dev.log (.recv msg)) = some s' := by
    rw [← hst, heciProcessMessage, if_pos hmsg.1, heciProcessBusMessage]
    simp only [hmsg.2]
    rfl
  have hgives : semGives c msg (w.sys.dev.log (.recv msg)) = semGives c msg w.sys.dev := rfl
  cases hk : semGives c msg w.sys.dev with
  | none =>
      have hco := heciFlowControlRecv_connections_of_none (hgives.trans hk) hrecv
      exact h.congr hco rfl (if_pos (by rw [hco]; rfl))
  | some k =>
      obtain ⟨q, hq⟩ := Option.isSome_iff_exists.1 h.sem
      rw [heciFlowControlRecv_of_semGives (hgives.trans hk)] at hrecv
      have hqg : ((granted c msg (w.sys.dev.log (.recv msg))).connections c).flowCtrlSem = some q :=
        by simpa [granted] using hq
      have hwake := hrecv
      rw [heciWakeupSender_of_sem hqg] at hrecv
      have hconn : s'.connections c = { w.sys.dev.connections c with
          hostBuffers := (w.sys.dev.connections c).hostBuffers +
            (grantedPackets (msg.byte 3)).toUInt32 } := by
        rw [← Option.some.inj hrecv]
        exact Function.update_self ..
      refine ⟨?_, ?_, fun hzero => ?_⟩
      · rw [hconn]
        exact h.sem
      · rw [hconn]
        exact h.counted
      · dsimp only at hzero ⊢
        split at hzero
        · next hsame =>
            rw [hsame]
            exact h.woken hzero
        · -- the semaphore was not given, so nobody was counted
          have hk₀ := semRaised_heciWakeupSender hq hqg rfl hwake hzero
          rw [hk₀] at hk
          exact Or.inr (h.counted.symm.trans (waitThreadCount_of_semGives_zero hk))

/-- The thread is counted on the connection. -/
theorem waiters_pos {t : Fin n} (hc : (w.sys.threads t).conn = c)
    (hw : (w.sys.threads t).phase.waits = true) : 0 < waiters w.sys c := by
  refine tally_pos (i := t) ?_
  rw [Thread.waitsFor, hc, hw]
  simp

/-- A thread goes on, on the connection that is watched. -/
theorem WaitInv.goOn (h : WaitInv c w) {t : Fin n} {ph : Phase} {s' : HeciDev}
    (hc : c = (w.sys.threads t).conn)
    (hsem : (s'.connections c).flowCtrlSem = (w.sys.dev.connections c).flowCtrlSem)
    (hcount : (s'.connections c).waitThreadCount.toNat + (w.sys.threads t).phase.waits.toNat =
      (w.sys.dev.connections c).waitThreadCount.toNat + ph.waits.toNat)
    (hwoken : w.given = false → (s'.connections c).hostBuffers = 0 ∨
      waiters (w.sys.goOn t ph s') c = 0) : WaitInv c ⟨w.sys.goOn t ph s', w.given⟩ := by
  have hmove := (waiters_goOn w.sys t ph s' c).2 hc
  have hold := h.counted
  refine ⟨?_, ?_, hwoken⟩
  · show (s'.connections c).flowCtrlSem.isSome = true
    rw [hsem]
    exact h.sem
  · show (s'.connections c).waitThreadCount.toNat = waiters (w.sys.goOn t ph s') c
    omega

/-- The count of a number of eight bits that is not full. -/
theorem toNat_succ_wait {k : UInt8} (hk : k ≠ 255) : (k + 1).toNat = k.toNat + 1 := by
  have hne : k.toNat ≠ 255 := fun h => hk (UInt8.toNat_inj.1 h)
  have hlt := k.toNat_lt
  rw [UInt8.toNat_add, UInt8.toNat_one]
  exact Nat.mod_eq_of_lt (by omega)

/-- A thread takes the next step, on the connection that is watched. -/
theorem waitInv_waitCase {t : Fin n} {a : Act} {ph : Phase} {s' : HeciDev} (h : WaitInv c w)
    (hd : WaitDiscipline c w (.act t a)) (hc : c = (w.sys.threads t).conn)
    (hcase : WaitCase (w.sys.threads t) a w.sys.dev ph s') :
    WaitInv c ⟨w.sys.goOn t ph s', w.given⟩ := by
  have hcounted := h.counted
  have hmove := (waiters_goOn w.sys t ph s' c).2 hc
  cases hcase with
  | registers ha hhb hw hph =>
      subst ha
      rw [← hc] at hhb ⊢
      have hfull := toNat_succ_wait (hd hc.symm hhb)
      refine h.goOn hc ?_ ?_ fun _ => Or.inl ?_
      · rw [HeciDev.setConn_connections, Function.update_self]
      · rw [HeciDev.setConn_connections, Function.update_self, hw, hph]
        exact hfull
      · rw [HeciDev.setConn_connections, Function.update_self]
        exact hhb
  | leaves hw hph =>
      -- the thread itself is counted, so nothing is taken off zero
      have hpos := waiters_pos hc.symm hw
      rw [← hc]
      refine h.goOn hc ?_ ?_ fun hgiven => Or.inl ?_
      · rw [HeciDev.setConn_connections, Function.update_self]
      · rw [HeciDev.setConn_connections, Function.update_self, hw, hph]
        have hle : (1 : UInt8) ≤ (w.sys.dev.connections c).waitThreadCount :=
          UInt8.le_iff_toNat_le.2 (by rw [hcounted]; exact hpos)
        show ((w.sys.dev.connections c).waitThreadCount - 1).toNat + 1 = _
        rw [UInt8.toNat_sub_of_le _ _ hle]
        exact Nat.sub_add_cancel (UInt8.le_iff_toNat_le.1 hle)
      · rw [HeciDev.setConn_connections, Function.update_self]
        exact (h.woken hgiven).resolve_right hpos.ne'
  | timesOut ha =>
      -- the count would be one too high from here on
      subst ha
      exact absurd hc.symm hd
  | lost hnone =>
      have hsem := h.sem
      rw [hc, hnone] at hsem
      cases hsem
  | stays hph hco =>
      rw [hph] at hmove
      refine h.goOn hc (by rw [hco]) (by rw [hco, hph]) fun hgiven => ?_
      rw [hco, Nat.add_right_cancel hmove]
      exact h.woken hgiven
  | sends hw ha hco =>
      rw [hw] at hmove
      have hnone : w.given = false → waiters w.sys c = 0 := by
        intro hgiven
        refine (h.woken hgiven).elim (fun hhb => ?_) id
        -- the message goes out without credit, so nobody is counted
        rw [← hcounted]
        rcases ha with ⟨-, hne⟩ | rfl | ⟨r, rfl⟩
        · rw [← hc] at hne
          exact absurd hhb hne
        · rw [hd hc.symm hhb hgiven]
          rfl
        · rw [hd hc.symm hhb hgiven]
          rfl
      refine h.goOn hc ?_ ?_ fun hgiven => Or.inr ?_
      · rw [HeciDev.log_connections, finishSend_connections, ← hc, Function.update_self, hco]
      · rw [HeciDev.log_connections, finishSend_connections, ← hc, Function.update_self, hco, hw]
        rfl
      · exact (Nat.add_right_cancel hmove).trans (hnone hgiven)

/-- **Every step that keeps the discipline keeps the count right.** -/
theorem waitInv_step {l : SendLabel n} (h : WaitInv c w) (hd : WaitDiscipline c w l)
    (hst : watchStep P c l w = some w') : WaitInv c w' := by
  cases l with
  | flowControl msg =>
      simp only [watchStep] at hst
      split at hst
      · next hmsg =>
          obtain ⟨x, hx, rfl⟩ := Option.map_eq_some_iff.1 hst
          obtain ⟨s', hs', rfl⟩ := Option.map_eq_some_iff.1 hx
          exact waitInv_flowControl h hmsg hs'
      · cases hst
  | call t d msg =>
      obtain ⟨x, hx, rfl⟩ := Option.map_eq_some_iff.1 hst
      cases sysStep_cases hx with
      | call t d msg hidle =>
          refine h.congr rfl (tally_update_of_eq ?_) rfl
          simp [Thread.waitsFor, Phase.waits, hidle]
  | act t a =>
      obtain ⟨x, hx, rfl⟩ := Option.map_eq_some_iff.1 hst
      obtain ⟨⟨ph, s'⟩, hr, rfl⟩ := Option.map_eq_some_iff.1 hx
      have hcase := threadStep_waitCase hr
      by_cases hc : c = (w.sys.threads t).conn
      · exact waitInv_waitCase h hd hc hcase
      · exact h.congr (hcase.connections_of_ne hc) ((waiters_goOn w.sys t ph s' c).1 hc) rfl

end invariant

/-! ### Runs -/

/-- The layer as the calls left it, before any call of `heci_send`. -/
def watchFrom (n : ℕ) (s : HeciDev) : Watch n := ⟨⟨s, fun _ => Thread.start⟩, false⟩

instance {n : ℕ} (c : ConnId) (w : Watch n) (l : SendLabel n) : Decidable (WaitDiscipline c w l) :=
  match l with
  | .act _ .semTimeout => inferInstanceAs (Decidable (_ ≠ _))
  | .act _ .enter => inferInstanceAs (Decidable (_ → _ → _ ≠ _))
  | .act _ .relock | .act _ (.dmaDone _) => inferInstanceAs (Decidable (_ → _ → _ → _ = _))
  | .act _ .check | .act _ .semWait | .act _ .semTaken | .act _ .recheck => isTrue trivial
  | .call _ _ _ | .flowControl _ => isTrue trivial

/-- **What a concrete run of senders establishes**, after some calls have opened the connection. -/
theorem exists_watched {n : ℕ} (P : Platform) (c : ConnId)
    (C : Watch n → SendLabel n → Prop) [∀ w l, Decidable (C w l)] (calls : List Call)
    (ls : List (SendLabel n)) (p : Watch n → Prop) [DecidablePred p]
    (h : (Lts.run (step P) coldStart calls).any (fun s => decide (
      (s.connections c).has connStateOpen = true ∧ (s.connections c).waitThreadCount = 0 ∧
        (Lts.run (Lts.guarded C (watchStep P c)) (watchFrom n s) ls).any
          (fun w => decide (p w)) = true)) = true) :
    ∃ w, Lts.Reach (Watch.Initial P c) (watchStep P c) C w ∧ p w := by
  obtain ⟨s, hs, hopen, hcount, hrun⟩ := exists_reachable P calls _ h
  exact Lts.exists_reach_guarded (s := watchFrom n s)
    ⟨hs, hopen, hcount, fun _ => rfl, rfl⟩ ls p hrun

/-- The host grants one message on the connection between the addresses 32 and 7. -/
def grantOne {n : ℕ} : SendLabel n :=
  .flowControl (busFrame [busMsgFlowControl, 32, 7, 1, 0, 0, 0, 0])

/-- A thread calls `heci_send` and waits for credit. -/
def waitSend {n : ℕ} (t : Fin n) (c : ConnId) : List (SendLabel n) :=
  [.call t c shortMsg, .act t .check, .act t .enter, .act t .semWait]

/-- A thread calls `heci_send` and waits in vain. -/
def waitInVain {n : ℕ} (t : Fin n) (c : ConnId) : List (SendLabel n) :=
  waitSend t c ++ [.act t .semTimeout]

/-- **In every disciplined run of any number of senders the waiters are accounted for.** -/
theorem waitersOk_of_disciplined {n : ℕ} {P : Platform} {c : ConnId} {w : Watch n}
    (h : Lts.Reach (Watch.Initial P c) (watchStep P c) (WaitDiscipline c) w) : WaitersOk c w := by
  have hI : WaitInv c w :=
    h.invariant (fun _ => waitInv_initial) fun _ _ _ hx hd hst => waitInv_step hx hd hst
  exact hI.waitersOk

/-- Two senders wait, and a message is granted to one of them: the semaphore holds one. -/
theorem waitersOk_two_senders :
    ∃ w : Watch 2, Lts.Reach (Watch.Initial Platform.nominal 0) (watchStep Platform.nominal 0)
        (WaitDiscipline 0) w ∧
      waiters w.sys 0 = 2 ∧ (w.sys.dev.connections 0).hostBuffers = 1 ∧
        w.sys.dev.flowCtrlSems 0 = 1 ∧ w.given = true ∧ WaitersOk 0 w := by
  obtain ⟨w, hw, hwait, hhb, hsem, hgiven⟩ := exists_watched (n := 2) Platform.nominal 0
    (WaitDiscipline 0) (connectCalls (plainClient 1 0 4096 1) 7)
    (waitSend 0 0 ++ waitSend 1 0 ++ [grantOne])
    (fun w => waiters w.sys 0 = 2 ∧ (w.sys.dev.connections 0).hostBuffers = 1 ∧
      w.sys.dev.flowCtrlSems 0 = 1 ∧ w.given = true) (by decide +kernel)
  exact ⟨w, hw, hwait, hhb, hsem, hgiven, waitersOk_of_disciplined hw⟩

/-- A thread that times out stays on the count.  After 255 timeouts the next thread that waits makes
the count wrap around, and the message that is granted then wakes nobody. -/
theorem not_waitersOk_timeouts :
    (∃ w : Watch 1, Lts.Reach (Watch.Initial Platform.nominal 0) (watchStep Platform.nominal 0)
        Lts.Free w ∧
      (w.sys.dev.connections 0).waitThreadCount = 1 ∧ waiters w.sys 0 = 0 ∧ ¬ WaitersOk 0 w) ∧
    ∃ w : Watch 2, Lts.Reach (Watch.Initial Platform.nominal 0) (watchStep Platform.nominal 0)
        Lts.Free w ∧
      (w.sys.dev.connections 0).hostBuffers = 1 ∧ (w.sys.threads 1).waitsFor 0 = true ∧
        w.sys.dev.flowCtrlSems 0 = 0 ∧ w.given = false ∧ ¬ WaitersOk 0 w := by
  refine ⟨?_, ?_⟩
  · obtain ⟨w, hw, hcount, hwait⟩ := exists_watched (n := 1) Platform.nominal 0 Lts.Free
      (connectCalls (plainClient 1 0 4096 1) 7) (waitInVain 0 0)
      (fun w => (w.sys.dev.connections 0).waitThreadCount = 1 ∧ waiters w.sys 0 = 0)
      (by decide +kernel)
    refine ⟨w, hw, hcount, hwait, fun hok => ?_⟩
    have hcounted := hok.counted
    rw [hcount, hwait] at hcounted
    cases hcounted
  · obtain ⟨w, hw, hhb, hwait, hsem, hgiven⟩ := exists_watched (n := 2) Platform.nominal 0 Lts.Free
      (connectCalls (plainClient 1 0 4096 1) 7)
      ((List.replicate 255 (waitInVain 0 0)).flatten ++ waitSend 1 0 ++ [grantOne])
      (fun w => (w.sys.dev.connections 0).hostBuffers = 1 ∧
        (w.sys.threads 1).waitsFor 0 = true ∧ w.sys.dev.flowCtrlSems 0 = 0 ∧ w.given = false)
      (by decide +kernel)
    refine ⟨w, hw, hhb, hwait, hsem, hgiven, fun hok => ?_⟩
    have hyes := hok.woken (by rw [hhb]; decide) 1 hwait
    rw [hgiven] at hyes
    cases hyes

end PseFw.Heci
