/-
**Replies of the PMC.**

Only one call at a time is past the mutex, and it stays there until the thread has served it, so a
caller gets the status and the message of its own request in every run.  The reply is another
matter: `ipc_alert` is given for every message of the PMC and never cleared, so a message that came
before the request, because an earlier call had stopped waiting or had not waited at all, is taken
for the reply.

Main definitions:

* `OwnResult` — the result of a call is that of its own request;
* `ReplyOk` — and its reply came after the request;
* `PmcDiscipline` — no message is signalled and not taken when a request that waits is written.

Main results:

* `ownResult_of_reach` — every caller gets the result of its own request, in all runs;
* `replyOk_of_disciplined` — **every reply came after its request, in disciplined runs**;
* `not_replyOk_late` — a late reply is taken for the next one.
-/

import PseFw.Pmc.Service

set_option relaxedAutoImplicit false
set_option autoImplicit false

namespace PseFw.Pmc

variable {maxClient id : ℕ} {s s' : PmcSys} {m : PmcMsg}

/-! ### What is wanted -/

/-- What was served for a call. -/
def PmcSys.servedFor (s : PmcSys) (id : ℕ) : List Served :=
  s.served.filter fun v => v.serving.call = id

/-- **The result of a call is that of its own request**: the arguments were refused, or there was no
memory, or the thread served this call once, found its message, wrote what belongs to it, and the
caller has the status and the message this led to. -/
inductive OwnResult (maxClient : ℕ) (s : PmcSys) (id : ℕ) (m : PmcMsg) (ret : Int)
    (after : PmcMsg) : Prop
  | refused : pmcArgsOk maxClient m = false → ret = eInval → after = m →
      OwnResult maxClient s id m ret after
  | noMemory : ret = eNoMem → after = m → s.servedFor id = [] → OwnResult maxClient s id m ret after
  | served (v : Served) : s.servedFor id = [v] → v.serving.request = m →
      v.serving.out = sendPmcIpcMsg m → v.result = ⟨ret, after⟩ →
        OwnResult maxClient s id m ret after

/-- A reply that was waited for and read came after its request was written. -/
def Serving.Fresh (arrived : List IpcMsg) (v : Serving) (r : PmcMsgIntrnl) : Prop :=
  v.request.waitForAck = true → r.status = 0 →
    ∃ k i, v.readFrom = some k ∧ v.writtenAt ≤ k ∧ arrived[k]? = some i ∧
      r.usrMsg = v.request.readInto i

/-- **What is wanted of every call that has returned.** -/
def ReplyOk (maxClient : ℕ) (s : PmcSys) : Prop :=
  ∀ id m ret after, s.calls id = .returned m ret after →
    OwnResult maxClient s id m ret after ∧
      (m.waitForAck = true → ret = 0 → ∃ v ∈ s.servedFor id, ∃ k i,
        v.serving.readFrom = some k ∧ v.serving.writtenAt ≤ k ∧ s.arrived[k]? = some i ∧
          after = m.readInto i)

/-- The next request waits for a message of the PMC. -/
def PmcSys.sendsWaiting (s : PmcSys) : Bool :=
  match s.thread with
  | .send id => (s.pmcMsg id).usrMsg.waitForAck && (s.pmcMsg id).usrMsg.format.readable
  | _ => false

def PmcLabel.isSend : PmcLabel → Bool
  | .send _ _ => true
  | _ => false

/-- **The discipline**: when a request that waits is written, no message of the PMC is signalled. -/
def PmcDiscipline (s : PmcSys) (l : PmcLabel) : Prop :=
  l.isSend = true → s.sendsWaiting = true → s.ipcAlert = false

instance (s : PmcSys) (l : PmcLabel) : Decidable (PmcDiscipline s l) :=
  inferInstanceAs (Decidable (_ → _))

/-! ### The steps -/

theorem pmcStep_call (h : pmcStep maxClient (.call id m) s = some s') :
    s.calls id = .idle ∧ s' = { s with
      calls := Function.update s.calls id
        (if pmcArgsOk maxClient m then .locking m else .returned m eInval m) } := by
  obtain ⟨hc, h⟩ := Option.ite_none_right_eq_some.1 h
  exact ⟨hc, (Option.some.inj h).symm⟩

theorem pmcStep_lock (h : pmcStep maxClient (.lock id) s = some s') :
    ∃ m, s.calls id = .locking m ∧ s.pmcMsgMutex = none ∧ s' = { s with
      calls := Function.update s.calls id (.locked m)
      pmcMsg := Function.update s.pmcMsg id ⟨0, m⟩
      pmcMsgMutex := some id } := by
  simp only [pmcStep] at h
  split at h
  · next m hc hm => exact ⟨m, hc, hm, (Option.some.inj h).symm⟩
  · cases h

theorem pmcStep_put {alloc : Bool} (h : pmcStep maxClient (.put id alloc) s = some s') :
    ∃ m, s.calls id = .locked m ∧
      (s' = { s with
          calls := Function.update s.calls id (.waiting m)
          pmcServFifo := s.pmcServFifo ++ [id] } ∨
        s' = { s with
          calls := Function.update s.calls id (.returned m eNoMem m)
          pmcMsgMutex := none }) := by
  simp only [pmcStep] at h
  split at h
  · next m hc =>
      split at h
      · exact ⟨m, hc, .inl (Option.some.inj h).symm⟩
      · exact ⟨m, hc, .inr (Option.some.inj h).symm⟩
  · cases h

theorem pmcStep_take (h : pmcStep maxClient (.take id) s = some s') :
    ∃ m, s.calls id = .waiting m ∧ s.pmcMsgAlert = true ∧ s' = { s with
      calls := Function.update s.calls id
        (.returned m (s.pmcMsg id).status (s.pmcMsg id).usrMsg)
      pmcMsgAlert := false
      pmcMsgMutex := none } := by
  simp only [pmcStep] at h
  split at h
  · next m hc ha => exact ⟨m, hc, ha, (Option.some.inj h).symm⟩
  · cases h

theorem pmcStep_get (h : pmcStep maxClient .get s = some s') :
    ∃ id rest, s.thread = .fifoGet ∧ s.pmcServFifo = id :: rest ∧
      s' = { s with thread := .send id, pmcServFifo := rest } := by
  simp only [pmcStep] at h
  split at h
  · next id rest ht hf => exact ⟨id, rest, ht, hf, (Option.some.inj h).symm⟩
  · cases h

theorem pmcStep_send {ret : Int} {raw : List UInt8}
    (h : pmcStep maxClient (.send ret raw) s = some s') :
    ∃ id, s.thread = .send id ∧ s' = threadSend id ret raw s := by
  simp only [pmcStep] at h
  split at h
  · next id ht => exact ⟨id, ht, (Option.some.inj h).symm⟩
  · cases h

theorem pmcStep_semTake (h : pmcStep maxClient .semTake s = some s') :
    ∃ v, s.thread = .semTake v ∧ s.ipcAlert = true ∧
      s' = { s with thread := .read v, ipcAlert := false } := by
  simp only [pmcStep] at h
  split at h
  · next v ht ha => exact ⟨v, ht, ha, (Option.some.inj h).symm⟩
  · cases h

theorem pmcStep_timeout (h : pmcStep maxClient .timeout s = some s') :
    ∃ v, s.thread = .semTake v ∧ s' = { s with
      pmcMsg := Function.update s.pmcMsg v.call ⟨eAgain, (s.pmcMsg v.call).usrMsg⟩
      thread := .semGive v } := by
  simp only [pmcStep] at h
  split at h
  · next v ht ha => exact ⟨v, ht, (Option.some.inj h).symm⟩
  · cases h

theorem pmcStep_read {ret : Int} {left : List UInt8}
    (h : pmcStep maxClient (.read ret left) s = some s') :
    ∃ v i, s.thread = .read v ∧ s.arrived.getLast? = some i ∧ s' = { s with
      pmcMsg := Function.update s.pmcMsg v.call (rcvPmcIpcMsg ret left i (s.pmcMsg v.call).usrMsg)
      thread := .semGive (v.afterRead (s.arrived.length - 1)) } := by
  simp only [pmcStep] at h
  split at h
  · next v i ht ha => exact ⟨v, i, ht, ha, (Option.some.inj h).symm⟩
  · cases h

theorem pmcStep_give (h : pmcStep maxClient .give s = some s') :
    ∃ v, s.thread = .semGive v ∧ s' = { s with
      pmcMsgAlert := true
      thread := .fifoGet
      served := s.served ++ [⟨v, s.pmcMsg v.call⟩] } := by
  simp only [pmcStep] at h
  split at h
  · next v ht => exact ⟨v, ht, (Option.some.inj h).symm⟩
  · cases h

/-- The message of a call while it is served: only the formats for which nothing is read change. -/
structure SameMsg (m m' : PmcMsg) : Prop where
  format : m'.format = m.format
  readable : m.format.readable = true → m' = m

theorem sameMsg_refl (m : PmcMsg) : SameMsg m m := ⟨rfl, fun _ => rfl⟩

theorem sameMsg_afterSend (m : PmcMsg) (raw : List UInt8) : SameMsg m (m.afterSend raw) := by
  unfold PmcMsg.afterSend
  split
  · next hf =>
      refine ⟨rfl, fun hr => ?_⟩
      rw [hf] at hr
      cases hr
  · exact sameMsg_refl m

/-- What writing a request can do. -/
inductive SendEffect (id : ℕ) (s s' : PmcSys) : Prop
  | rebooted : s' = { s with thread := .rebooted } → SendEffect id s s'
  | waits (r : PmcMsgIntrnl) :
      s' = { s with
        pmcMsg := Function.update s.pmcMsg id r
        thread := .semTake (s.serving id) } →
      SameMsg (s.pmcMsg id).usrMsg r.usrMsg → (s.pmcMsg id).usrMsg.waitForAck = true →
      SendEffect id s s'
  | gives (r : PmcMsgIntrnl) :
      s' = { s with
        pmcMsg := Function.update s.pmcMsg id r
        thread := .semGive (s.serving id) } →
      ((s.pmcMsg id).usrMsg.waitForAck = true → r.status ≠ 0) → SendEffect id s s'

theorem threadSend_effect (id : ℕ) (ret : Int) (raw : List UInt8) (s : PmcSys) :
    SendEffect id s (threadSend id ret raw s) := by
  unfold threadSend
  split
  · exact .gives _ rfl fun _ => (by decide : eInval ≠ 0)
  · exact .rebooted rfl
  · split
    · next hw => exact .waits _ rfl (sameMsg_afterSend _ raw) hw.2
    · next hw => exact .gives _ rfl fun hwait hret => hw ⟨hret, hwait⟩

/-! ### Every caller gets its own result -/

/-- The thread serves the call `id`, whose message is `m`. -/
def ThreadAt (s : PmcSys) (id : ℕ) (m : PmcMsg) : Prop :=
  match s.thread with
  | .fifoGet => False
  | .send call => call = id ∧ (s.pmcMsg id).usrMsg = m
  | .semTake v => v.call = id ∧ v.request = m ∧ v.out = sendPmcIpcMsg m
  | .read v => v.call = id ∧ v.request = m ∧ v.out = sendPmcIpcMsg m
  | .semGive v => v.call = id ∧ v.request = m ∧ v.out = sendPmcIpcMsg m
  | .rebooted => True

/-- **Where the one call is that has the mutex.** -/
inductive Stage (s : PmcSys) : Prop
  | free : s.pmcMsgMutex = none → s.pmcServFifo = [] → s.pmcMsgAlert = false →
      s.thread = .fifoGet → Stage s
  | locked (id : ℕ) (m : PmcMsg) : s.pmcMsgMutex = some id → s.calls id = .locked m →
      (s.pmcMsg id).usrMsg = m → s.pmcServFifo = [] → s.pmcMsgAlert = false →
      s.thread = .fifoGet → s.servedFor id = [] → Stage s
  | queued (id : ℕ) (m : PmcMsg) : s.pmcMsgMutex = some id → s.calls id = .waiting m →
      (s.pmcMsg id).usrMsg = m → s.pmcServFifo = [id] → s.pmcMsgAlert = false →
      s.thread = .fifoGet → s.servedFor id = [] → Stage s
  | busy (id : ℕ) (m : PmcMsg) : s.pmcMsgMutex = some id → s.calls id = .waiting m →
      s.pmcServFifo = [] → s.pmcMsgAlert = false → ThreadAt s id m → s.servedFor id = [] → Stage s
  | done (id : ℕ) (m : PmcMsg) (v : Served) : s.pmcMsgMutex = some id → s.calls id = .waiting m →
      s.pmcServFifo = [] → s.pmcMsgAlert = true → s.thread = .fifoGet → s.servedFor id = [v] →
      v.serving.request = m → v.serving.out = sendPmcIpcMsg m → v.result = s.pmcMsg id → Stage s

/-- The call is past the mutex. -/
def Call.holds : Call → Bool
  | .locked _ => true
  | .waiting _ => true
  | _ => false

/-- The call has not come to the mutex. -/
def Call.outside : Call → Bool
  | .idle => true
  | .locking _ => true
  | _ => false

/-- **The invariant of the mutex.** -/
structure OwnInv (maxClient : ℕ) (s : PmcSys) : Prop where
  stage : Stage s
  holds : ∀ id, (s.calls id).holds = true → s.pmcMsgMutex = some id
  unserved : ∀ id, (s.calls id).outside = true → s.servedFor id = []
  returned : ∀ id m ret after, s.calls id = .returned m ret after →
    OwnResult maxClient s id m ret after

theorem ownInv_init (h : PmcInit s) : OwnInv maxClient s := by
  refine ⟨.free h.pmcMsgMutex h.pmcServFifo h.pmcMsgAlert h.thread, fun id hc => ?_, fun id _ => ?_,
    fun id m ret after hc => ?_⟩
  · rw [h.calls id] at hc
    cases hc
  · unfold PmcSys.servedFor
    rw [h.served]
    rfl
  · rw [h.calls id] at hc
    cases hc

/-- A result stays what it is when nothing more is served for the call. -/
theorem OwnResult.congr {ret : Int} {after : PmcMsg} (h : OwnResult maxClient s id m ret after)
    (hs : s'.servedFor id = s.servedFor id) : OwnResult maxClient s' id m ret after := by
  cases h with
  | refused ha hr hm => exact .refused ha hr hm
  | noMemory hr hm hv => exact .noMemory hr hm (hs.trans hv)
  | served v hv hreq hout hres => exact .served v (hs.trans hv) hreq hout hres

/-- A step that leaves the kernel objects, what was served and the call with the mutex alone. -/
theorem Stage.congr (h : Stage s) (hmutex : s'.pmcMsgMutex = s.pmcMsgMutex)
    (hfifo : s'.pmcServFifo = s.pmcServFifo) (halert : s'.pmcMsgAlert = s.pmcMsgAlert)
    (hthread : s'.thread = s.thread) (hserved : s'.served = s.served)
    (hcalls : ∀ id, s.pmcMsgMutex = some id → s'.calls id = s.calls id)
    (hmsg : s'.pmcMsg = s.pmcMsg) : Stage s' := by
  have hfor : ∀ id, s'.servedFor id = s.servedFor id := fun id => by
    unfold PmcSys.servedFor
    rw [hserved]
  cases h with
  | free h₁ h₂ h₃ h₄ =>
      exact .free (hmutex.trans h₁) (hfifo.trans h₂) (halert.trans h₃) (hthread.trans h₄)
  | locked id m h₁ h₂ h₃ h₄ h₅ h₆ h₇ =>
      exact .locked id m (hmutex.trans h₁) ((hcalls id h₁).trans h₂) (by rw [hmsg]; exact h₃)
        (hfifo.trans h₄) (halert.trans h₅) (hthread.trans h₆) ((hfor id).trans h₇)
  | queued id m h₁ h₂ h₃ h₄ h₅ h₆ h₇ =>
      exact .queued id m (hmutex.trans h₁) ((hcalls id h₁).trans h₂) (by rw [hmsg]; exact h₃)
        (hfifo.trans h₄) (halert.trans h₅) (hthread.trans h₆) ((hfor id).trans h₇)
  | busy id m h₁ h₂ h₃ h₄ h₅ h₆ =>
      refine .busy id m (hmutex.trans h₁) ((hcalls id h₁).trans h₂) (hfifo.trans h₃)
        (halert.trans h₄) ?_ ((hfor id).trans h₆)
      unfold ThreadAt at h₅ ⊢
      rw [hthread, hmsg]
      exact h₅
  | done id m v h₁ h₂ h₃ h₄ h₅ h₆ h₇ h₈ h₉ =>
      exact .done id m v (hmutex.trans h₁) ((hcalls id h₁).trans h₂) (hfifo.trans h₃)
        (halert.trans h₄) (hthread.trans h₅) ((hfor id).trans h₆) h₇ h₈ (by rw [hmsg]; exact h₉)

/-- A step of the thread while it serves a request. -/
theorem OwnInv.of_thread (h : OwnInv maxClient s) (hbusy : s.thread ≠ .fifoGet)
    (hcalls : s'.calls = s.calls) (hmutex : s'.pmcMsgMutex = s.pmcMsgMutex)
    (hfifo : s'.pmcServFifo = s.pmcServFifo) (halert : s'.pmcMsgAlert = s.pmcMsgAlert)
    (hserved : s'.served = s.served) (hat : ∀ id m, ThreadAt s id m → ThreadAt s' id m) :
    OwnInv maxClient s' := by
  have hfor : ∀ id, s'.servedFor id = s.servedFor id := fun id => by
    unfold PmcSys.servedFor
    rw [hserved]
  refine ⟨?_, fun id hc => ?_, fun id hc => ?_, fun id m ret after hc => ?_⟩
  · cases h.stage with
    | busy id m h₁ h₂ h₃ h₄ h₅ h₆ =>
        exact .busy id m (hmutex.trans h₁) (by rw [hcalls]; exact h₂) (hfifo.trans h₃)
          (halert.trans h₄) (hat id m h₅) ((hfor id).trans h₆)
    | free _ _ _ ht => exact absurd ht hbusy
    | locked _ _ _ _ _ _ _ ht => exact absurd ht hbusy
    | queued _ _ _ _ _ _ _ ht => exact absurd ht hbusy
    | done _ _ _ _ _ _ _ ht => exact absurd ht hbusy
  · rw [hcalls] at hc
    exact hmutex.trans (h.holds id hc)
  · rw [hcalls] at hc
    exact (hfor id).trans (h.unserved id hc)
  · rw [hcalls] at hc
    exact (h.returned id m ret after hc).congr (hfor id)

/-- A step of one call. -/
theorem OwnInv.of_update {c : Call} (h : OwnInv maxClient s) (hstage : Stage s')
    (hcalls : s'.calls = Function.update s.calls id c) (hserved : s'.served = s.served)
    (hmutex : ∀ i, i ≠ id → s.pmcMsgMutex = some i → s'.pmcMsgMutex = some i)
    (hholds : c.holds = true → s'.pmcMsgMutex = some id)
    (hout : c.outside = true → s.servedFor id = [])
    (hret : ∀ m ret after, c = .returned m ret after → OwnResult maxClient s' id m ret after) :
    OwnInv maxClient s' := by
  have hfor : ∀ id, s'.servedFor id = s.servedFor id := fun id => by
    unfold PmcSys.servedFor
    rw [hserved]
  have hself : s'.calls id = c := by rw [hcalls, Function.update_self]
  have hother : ∀ i, i ≠ id → s'.calls i = s.calls i := fun i hi => by
    rw [hcalls, Function.update_of_ne hi]
  refine ⟨hstage, fun i hc => ?_, fun i hc => ?_, fun i m ret after hc => ?_⟩
  · by_cases hi : i = id
    · subst hi
      rw [hself] at hc
      exact hholds hc
    · rw [hother i hi] at hc
      exact hmutex i hi (h.holds i hc)
  · rw [hfor]
    by_cases hi : i = id
    · subst hi
      rw [hself] at hc
      exact hout hc
    · rw [hother i hi] at hc
      exact h.unserved i hc
  · by_cases hi : i = id
    · subst hi
      rw [hself] at hc
      exact hret m ret after hc
    · rw [hother i hi] at hc
      exact (h.returned i m ret after hc).congr (hfor i)

theorem OwnInv.call (h : OwnInv maxClient s) (hstep : pmcStep maxClient (.call id m) s = some s') :
    OwnInv maxClient s' := by
  obtain ⟨hc, rfl⟩ := pmcStep_call hstep
  have hnot : s.pmcMsgMutex ≠ some id := by
    intro hm
    cases h.stage with
    | free h₁ => rw [h₁] at hm; cases hm
    | locked i m h₁ h₂ => rw [h₁] at hm; cases hm; rw [h₂] at hc; cases hc
    | queued i m h₁ h₂ => rw [h₁] at hm; cases hm; rw [h₂] at hc; cases hc
    | busy i m h₁ h₂ => rw [h₁] at hm; cases hm; rw [h₂] at hc; cases hc
    | done i m v h₁ h₂ => rw [h₁] at hm; cases hm; rw [h₂] at hc; cases hc
  refine h.of_update (h.stage.congr rfl rfl rfl rfl rfl (fun i hi => ?_) rfl) rfl rfl
    (fun _ _ hm => hm) ?_ (fun _ => h.unserved id (by rw [hc]; rfl)) ?_
  · refine Function.update_of_ne (fun heq => ?_) _ _
    rw [heq] at hi
    exact hnot hi
  · split
    · exact fun hx => Bool.noConfusion hx
    · exact fun hx => Bool.noConfusion hx
  · intro m' ret after heq
    split at heq
    · cases heq
    · next ha =>
        cases heq
        exact .refused (Bool.eq_false_iff.2 ha) rfl rfl

theorem OwnInv.lock (h : OwnInv maxClient s) (hstep : pmcStep maxClient (.lock id) s = some s') :
    OwnInv maxClient s' := by
  obtain ⟨m, hc, hm, rfl⟩ := pmcStep_lock hstep
  have hun : s.servedFor id = [] := h.unserved id (by rw [hc]; rfl)
  have hmsg : (Function.update s.pmcMsg id ⟨0, m⟩ id).usrMsg = m := by rw [Function.update_self]
  refine h.of_update ?_ rfl rfl (fun i _ hi => ?_) (fun _ => rfl) (fun _ => hun) ?_
  · cases h.stage with
    | free _ h₂ h₃ h₄ =>
        exact .locked id m rfl (Function.update_self id _ _) hmsg h₂ h₃ h₄ hun
    | locked _ _ h₁ => rw [hm] at h₁; cases h₁
    | queued _ _ h₁ => rw [hm] at h₁; cases h₁
    | busy _ _ h₁ => rw [hm] at h₁; cases h₁
    | done _ _ _ h₁ => rw [hm] at h₁; cases h₁
  · rw [hm] at hi
    cases hi
  · intro _ _ _ heq
    cases heq

/-- The call that has the mutex and has not put its message into the fifo. -/
theorem OwnInv.locked (h : OwnInv maxClient s) (hc : s.calls id = .locked m) :
    s.pmcMsgMutex = some id ∧ (s.pmcMsg id).usrMsg = m ∧ s.pmcServFifo = [] ∧
      s.pmcMsgAlert = false ∧ s.thread = .fifoGet ∧ s.servedFor id = [] := by
  have hm := h.holds id (by rw [hc]; rfl)
  cases h.stage with
  | locked i m' h₁ h₂ h₃ h₄ h₅ h₆ h₇ =>
      rw [hm] at h₁
      cases h₁
      rw [hc] at h₂
      cases h₂
      exact ⟨hm, h₃, h₄, h₅, h₆, h₇⟩
  | free h₁ => rw [hm] at h₁; cases h₁
  | queued i m h₁ h₂ => rw [hm] at h₁; cases h₁; rw [hc] at h₂; cases h₂
  | busy i m h₁ h₂ => rw [hm] at h₁; cases h₁; rw [hc] at h₂; cases h₂
  | done i m v h₁ h₂ => rw [hm] at h₁; cases h₁; rw [hc] at h₂; cases h₂

theorem OwnInv.put {alloc : Bool} (h : OwnInv maxClient s)
    (hstep : pmcStep maxClient (.put id alloc) s = some s') : OwnInv maxClient s' := by
  obtain ⟨m, hc, hs'⟩ := pmcStep_put hstep
  obtain ⟨hm, hmsg, hfifo, halert, hthread, hun⟩ := h.locked hc
  rcases hs' with rfl | rfl
  · refine h.of_update ?_ rfl rfl (fun _ _ hi => hi) (fun _ => hm) (fun hx => Bool.noConfusion hx)
      (fun _ _ _ heq => (by cases heq))
    refine .queued id m hm (Function.update_self id _ _) hmsg ?_ halert hthread hun
    rw [hfifo]
    rfl
  · refine h.of_update (.free rfl hfifo halert hthread) rfl rfl (fun i hi hmi => ?_)
      (fun hx => Bool.noConfusion hx) (fun hx => Bool.noConfusion hx) ?_
    · rw [hm] at hmi
      exact absurd (Option.some.inj hmi).symm hi
    · intro _ _ _ heq
      cases heq
      exact .noMemory rfl rfl hun

theorem OwnInv.take (h : OwnInv maxClient s) (hstep : pmcStep maxClient (.take id) s = some s') :
    OwnInv maxClient s' := by
  obtain ⟨m, hc, halert, rfl⟩ := pmcStep_take hstep
  have hm := h.holds id (by rw [hc]; rfl)
  cases h.stage with
  | done i m' v h₁ h₂ h₃ h₄ h₅ h₆ h₇ h₈ h₉ =>
      rw [hm] at h₁
      cases h₁
      rw [hc] at h₂
      cases h₂
      refine h.of_update (.free rfl h₃ rfl h₅) rfl rfl (fun i hi hmi => ?_)
        (fun hx => Bool.noConfusion hx) (fun hx => Bool.noConfusion hx) ?_
      · rw [hm] at hmi
        exact absurd (Option.some.inj hmi).symm hi
      · intro _ _ _ heq
        cases heq
        exact .served v h₆ h₇ h₈ h₉
  | free _ _ h₃ => rw [halert] at h₃; cases h₃
  | locked _ _ _ _ _ _ h₅ => rw [halert] at h₅; cases h₅
  | queued _ _ _ _ _ _ h₅ => rw [halert] at h₅; cases h₅
  | busy _ _ _ _ _ h₄ => rw [halert] at h₄; cases h₄

theorem OwnInv.get (h : OwnInv maxClient s) (hstep : pmcStep maxClient .get s = some s') :
    OwnInv maxClient s' := by
  obtain ⟨id, rest, ht, hf, rfl⟩ := pmcStep_get hstep
  refine ⟨?_, h.holds, h.unserved, fun i m ret after hc => (h.returned i m ret after hc).congr rfl⟩
  cases h.stage with
  | queued i m h₁ h₂ h₃ h₄ h₅ h₆ h₇ =>
      rw [hf] at h₄
      obtain ⟨rfl, rfl⟩ := List.cons.inj h₄
      exact .busy id m h₁ h₂ rfl h₅ ⟨rfl, h₃⟩ h₇
  | free _ h₂ => rw [hf] at h₂; cases h₂
  | locked _ _ _ _ _ h₄ => rw [hf] at h₄; cases h₄
  | busy _ _ _ _ h₃ => rw [hf] at h₃; cases h₃
  | done _ _ _ _ _ h₃ => rw [hf] at h₃; cases h₃

/-- What is served for a call when one more request was. -/
theorem servedFor_append {v : Served} (hs : s'.served = s.served ++ [v]) (i : ℕ) :
    s'.servedFor i = if v.serving.call = i then s.servedFor i ++ [v] else s.servedFor i := by
  unfold PmcSys.servedFor
  rw [hs, List.filter_append]
  split
  · next hi => rw [List.filter_cons_of_pos (by simpa using hi), List.filter_nil]
  · next hi => rw [List.filter_cons_of_neg (by simpa using hi), List.filter_nil, List.append_nil]

theorem OwnInv.give (h : OwnInv maxClient s) (hstep : pmcStep maxClient .give s = some s') :
    OwnInv maxClient s' := by
  obtain ⟨v, ht, rfl⟩ := pmcStep_give hstep
  cases h.stage with
  | busy id m h₁ h₂ h₃ h₄ h₅ h₆ =>
      unfold ThreadAt at h₅
      rw [ht] at h₅
      obtain ⟨rfl, hreq, hout⟩ := h₅
      have hfor := @servedFor_append s { s with
        pmcMsgAlert := true
        thread := .fifoGet
        served := s.served ++ [⟨v, s.pmcMsg v.call⟩] } _ rfl
      refine ⟨?_, h.holds, fun i hc => ?_, fun i m' ret after hc => ?_⟩
      · refine .done v.call m ⟨v, s.pmcMsg v.call⟩ h₁ h₂ h₃ rfl rfl ?_ hreq hout rfl
        rw [hfor, if_pos rfl, h₆]
        rfl
      · rw [hfor, if_neg (fun heq => ?_)]
        · exact h.unserved i hc
        · simp only [← heq] at hc
          rw [h₂] at hc
          cases hc
      · refine (h.returned i m' ret after hc).congr ?_
        rw [hfor, if_neg (fun heq => ?_)]
        simp only [← heq] at hc
        rw [h₂] at hc
        cases hc
  | free _ _ _ h₄ => rw [ht] at h₄; cases h₄
  | locked _ _ _ _ _ _ _ h₆ => rw [ht] at h₆; cases h₆
  | queued _ _ _ _ _ _ _ h₆ => rw [ht] at h₆; cases h₆
  | done _ _ _ _ _ _ _ h₅ => rw [ht] at h₅; cases h₅

theorem OwnInv.arrive {i : IpcMsg} (h : OwnInv maxClient s)
    (hstep : pmcStep maxClient (.arrive i) s = some s') : OwnInv maxClient s' := by
  cases hstep
  exact ⟨h.stage.congr rfl rfl rfl rfl rfl (fun _ _ => rfl) rfl, h.holds, h.unserved,
    fun id m ret after hc => (h.returned id m ret after hc).congr rfl⟩

theorem threadAt_of_semGive {v : Serving} (ht : s.thread = .semGive v) (hcall : v.call = id)
    (hreq : v.request = m) (hout : v.out = sendPmcIpcMsg m) : ThreadAt s id m := by
  unfold ThreadAt
  rw [ht]
  exact ⟨hcall, hreq, hout⟩

theorem Serving.afterRead_call (v : Serving) (k : ℕ) : (v.afterRead k).call = v.call := by
  unfold Serving.afterRead
  split <;> rfl

theorem Serving.afterRead_request (v : Serving) (k : ℕ) : (v.afterRead k).request = v.request := by
  unfold Serving.afterRead
  split <;> rfl

theorem Serving.afterRead_out (v : Serving) (k : ℕ) : (v.afterRead k).out = v.out := by
  unfold Serving.afterRead
  split <;> rfl

theorem OwnInv.send {ret : Int} {raw : List UInt8} (h : OwnInv maxClient s)
    (hstep : pmcStep maxClient (.send ret raw) s = some s') : OwnInv maxClient s' := by
  obtain ⟨id, ht, rfl⟩ := pmcStep_send hstep
  have hbusy : s.thread ≠ .fifoGet := by
    rw [ht]
    exact fun hx => (by cases hx)
  have hreq : ∀ i m, ThreadAt s i m → id = i ∧ (s.pmcMsg id).usrMsg = m := by
    intro i m hat
    unfold ThreadAt at hat
    rw [ht] at hat
    obtain ⟨rfl, hm⟩ := hat
    exact ⟨rfl, hm⟩
  cases threadSend_effect id ret raw s with
  | rebooted heq =>
      rw [heq]
      exact h.of_thread hbusy rfl rfl rfl rfl rfl fun _ _ _ => trivial
  | waits r heq _ _ =>
      rw [heq]
      refine h.of_thread hbusy rfl rfl rfl rfl rfl fun i m hat => ?_
      obtain ⟨rfl, rfl⟩ := hreq i m hat
      exact ⟨rfl, rfl, rfl⟩
  | gives r heq _ =>
      rw [heq]
      refine h.of_thread hbusy rfl rfl rfl rfl rfl fun i m hat => ?_
      obtain ⟨rfl, rfl⟩ := hreq i m hat
      exact ⟨rfl, rfl, rfl⟩

/-- **Every step keeps the invariant of the mutex.** -/
theorem ownInv_step {l : PmcLabel} (h : OwnInv maxClient s)
    (hstep : pmcStep maxClient l s = some s') :
    OwnInv maxClient s' := by
  cases l with
  | call id m => exact h.call hstep
  | lock id => exact h.lock hstep
  | put id alloc => exact h.put hstep
  | take id => exact h.take hstep
  | get => exact h.get hstep
  | send ret raw => exact h.send hstep
  | give => exact h.give hstep
  | arrive i => exact h.arrive hstep
  | semTake =>
      obtain ⟨v, ht, -, rfl⟩ := pmcStep_semTake hstep
      refine h.of_thread (by rw [ht]; exact fun hx => (by cases hx)) rfl rfl rfl rfl rfl
        fun i m hat => ?_
      unfold ThreadAt at hat
      rw [ht] at hat
      exact hat
  | timeout =>
      obtain ⟨v, ht, rfl⟩ := pmcStep_timeout hstep
      refine h.of_thread (by rw [ht]; exact fun hx => (by cases hx)) rfl rfl rfl rfl rfl
        fun i m hat => ?_
      unfold ThreadAt at hat
      rw [ht] at hat
      exact hat
  | read ret left =>
      obtain ⟨v, i, ht, -, rfl⟩ := pmcStep_read hstep
      refine h.of_thread (by rw [ht]; exact fun hx => (by cases hx)) rfl rfl rfl rfl rfl
        fun i m hat => ?_
      unfold ThreadAt at hat
      rw [ht] at hat
      obtain ⟨hcall, hreq, hout⟩ := hat
      exact threadAt_of_semGive rfl ((v.afterRead_call _).trans hcall)
        ((v.afterRead_request _).trans hreq) ((v.afterRead_out _).trans hout)

theorem ownInv_of_reach {C : PmcSys → PmcLabel → Prop}
    (h : Lts.Reach PmcInit (pmcStep maxClient) C s) : OwnInv maxClient s :=
  Lts.Reach.invariant (fun _ => ownInv_init) (fun _ _ _ hs _ hstep => ownInv_step hs hstep) h

/-- **Every caller gets the result of its own request**, in all runs. -/
theorem ownResult_of_reach {ret : Int} {after : PmcMsg}
    (h : Lts.Reach PmcInit (pmcStep maxClient) Lts.Free s)
    (hc : s.calls id = .returned m ret after) : OwnResult maxClient s id m ret after :=
  (ownInv_of_reach h).returned id m ret after hc

/-! ### Replies in disciplined runs -/

/-- What is known about the reply while a request is served. -/
def ThreadFresh (s : PmcSys) : Prop :=
  match s.thread with
  | .semTake v => v.writtenAt ≤ s.arrived.length ∧
      (v.request.format.readable = true → s.ipcAlert = true → v.writtenAt < s.arrived.length) ∧
      SameMsg v.request (s.pmcMsg v.call).usrMsg
  | .read v => (v.request.format.readable = true → v.writtenAt < s.arrived.length) ∧
      SameMsg v.request (s.pmcMsg v.call).usrMsg
  | .semGive v => v.Fresh s.arrived (s.pmcMsg v.call)
  | _ => True

/-- **The invariant of the replies.** -/
structure FreshInv (s : PmcSys) : Prop where
  thread : ThreadFresh s
  served : ∀ v ∈ s.served, v.serving.Fresh s.arrived v.result

theorem freshInv_init (h : PmcInit s) : FreshInv s := by
  refine ⟨?_, fun v hv => ?_⟩
  · unfold ThreadFresh
    rw [h.thread]
    trivial
  · rw [h.served] at hv
    cases hv

/-- Messages that come later do not matter to a reply. -/
theorem Serving.Fresh.append {arrived : List IpcMsg} {v : Serving} {r : PmcMsgIntrnl}
    (h : v.Fresh arrived r) (i : IpcMsg) : v.Fresh (arrived ++ [i]) r := by
  intro hw hr
  obtain ⟨k, j, hk, hle, hj, heq⟩ := h hw hr
  obtain ⟨hlt, -⟩ := List.getElem?_eq_some_iff.1 hj
  refine ⟨k, j, hk, hle, ?_, heq⟩
  rw [List.getElem?_append_left hlt]
  exact hj

theorem threadFresh_fifoGet (ht : s.thread = .fifoGet) : ThreadFresh s := by
  unfold ThreadFresh
  rw [ht]
  trivial

theorem FreshInv.send {ret : Int} {raw : List UInt8} (h : FreshInv s)
    (hd : PmcDiscipline s (.send ret raw)) (hstep : pmcStep maxClient (.send ret raw) s = some s') :
    FreshInv s' := by
  obtain ⟨id, ht, rfl⟩ := pmcStep_send hstep
  cases threadSend_effect id ret raw s with
  | rebooted heq =>
      rw [heq]
      exact ⟨trivial, h.served⟩
  | waits r heq hsame hwait =>
      rw [heq]
      refine ⟨⟨le_rfl, fun hread halert => ?_, ?_⟩, h.served⟩
      · -- a message that is signalled now would be taken for the reply
        have hquiet : s.ipcAlert = false := by
          refine hd rfl ?_
          unfold PmcSys.sendsWaiting
          rw [ht]
          exact Bool.and_eq_true_iff.2 ⟨hwait, hread⟩
        exact absurd (halert.symm.trans hquiet) (by decide)
      · simp only [PmcSys.serving, Function.update_self]
        exact hsame
  | gives r heq hfail =>
      rw [heq]
      refine ⟨fun hwait hstatus => ?_, h.served⟩
      simp only [PmcSys.serving, Function.update_self] at hwait hstatus
      exact absurd hstatus (hfail hwait)

theorem FreshInv.read {ret : Int} {left : List UInt8} (h : FreshInv s)
    (hstep : pmcStep maxClient (.read ret left) s = some s') : FreshInv s' := by
  obtain ⟨v, i, ht, hi, rfl⟩ := pmcStep_read hstep
  have hthread := h.thread
  unfold ThreadFresh at hthread
  rw [ht] at hthread
  obtain ⟨hlt, hsame⟩ := hthread
  refine ⟨fun hwait hstatus => ?_, h.served⟩
  simp only [Serving.afterRead_call, Function.update_self] at hstatus ⊢
  unfold rcvPmcIpcMsg at hstatus ⊢
  rw [hsame.format] at hstatus ⊢
  by_cases hread : v.request.format.readable = true
  · rw [if_pos hread] at hstatus ⊢
    refine ⟨s.arrived.length - 1, i, ?_, ?_, ?_, ?_⟩
    · rw [Serving.afterRead, if_pos hread]
    · rw [Serving.afterRead, if_pos hread]
      exact Nat.le_sub_one_of_lt (hlt hread)
    · rw [← List.getLast?_eq_getElem?]
      exact hi
    · rw [Serving.afterRead_request, if_pos hstatus, hsame.readable hread]
  · rw [if_neg hread] at hstatus
    exact absurd hstatus (by decide : eInval ≠ 0)

theorem FreshInv.arrive {i : IpcMsg} (h : FreshInv s)
    (hstep : pmcStep maxClient (.arrive i) s = some s') : FreshInv s' := by
  cases hstep
  have hthread := h.thread
  refine ⟨?_, fun v hv => (h.served v hv).append i⟩
  unfold ThreadFresh at hthread ⊢
  cases ht : s.thread with
  | semTake v =>
      rw [ht] at hthread
      obtain ⟨hle, -, hsame⟩ := hthread
      simp only [List.length_append, List.length_singleton]
      exact ⟨Nat.le_succ_of_le hle, fun _ _ => Nat.lt_succ_of_le hle, hsame⟩
  | read v =>
      rw [ht] at hthread
      obtain ⟨hlt, hsame⟩ := hthread
      simp only [List.length_append, List.length_singleton]
      exact ⟨fun hread => Nat.lt_succ_of_lt (hlt hread), hsame⟩
  | semGive v =>
      rw [ht] at hthread
      exact hthread.append i
  | fifoGet => trivial
  | send call => trivial
  | rebooted => trivial

/-- **A disciplined step keeps the invariant of the replies.** -/
theorem freshInv_step {l : PmcLabel} (hown : OwnInv maxClient s) (h : FreshInv s)
    (hd : PmcDiscipline s l) (hstep : pmcStep maxClient l s = some s') : FreshInv s' := by
  cases l with
  | call id m =>
      obtain ⟨-, rfl⟩ := pmcStep_call hstep
      exact ⟨h.thread, h.served⟩
  | lock id =>
      obtain ⟨m, -, hm, rfl⟩ := pmcStep_lock hstep
      refine ⟨threadFresh_fifoGet ?_, h.served⟩
      -- the mutex is free, so the thread serves nobody
      cases hown.stage with
      | free _ _ _ h₄ => exact h₄
      | locked _ _ h₁ => rw [hm] at h₁; cases h₁
      | queued _ _ h₁ => rw [hm] at h₁; cases h₁
      | busy _ _ h₁ => rw [hm] at h₁; cases h₁
      | done _ _ _ h₁ => rw [hm] at h₁; cases h₁
  | put id alloc =>
      obtain ⟨m, -, rfl | rfl⟩ := pmcStep_put hstep
      · exact ⟨h.thread, h.served⟩
      · exact ⟨h.thread, h.served⟩
  | take id =>
      obtain ⟨m, -, -, rfl⟩ := pmcStep_take hstep
      exact ⟨h.thread, h.served⟩
  | get =>
      obtain ⟨id, rest, -, -, rfl⟩ := pmcStep_get hstep
      exact ⟨trivial, h.served⟩
  | send ret raw => exact h.send hd hstep
  | semTake =>
      obtain ⟨v, ht, ha, rfl⟩ := pmcStep_semTake hstep
      have hthread := h.thread
      unfold ThreadFresh at hthread
      rw [ht] at hthread
      obtain ⟨-, hlt, hsame⟩ := hthread
      exact ⟨⟨fun hread => hlt hread ha, hsame⟩, h.served⟩
  | timeout =>
      obtain ⟨v, -, rfl⟩ := pmcStep_timeout hstep
      refine ⟨fun _ hstatus => ?_, h.served⟩
      simp only [Function.update_self] at hstatus
      exact absurd hstatus (by decide)
  | read ret left => exact h.read hstep
  | give =>
      obtain ⟨v, ht, rfl⟩ := pmcStep_give hstep
      have hthread := h.thread
      unfold ThreadFresh at hthread
      rw [ht] at hthread
      refine ⟨trivial, fun w hw => ?_⟩
      rcases List.mem_append.1 hw with hw | hw
      · exact h.served w hw
      · rw [List.mem_singleton.1 hw]
        exact hthread
  | arrive i => exact h.arrive hstep

/-- **Every reply came after its request, in disciplined runs.** -/
theorem replyOk_of_disciplined (maxClient : ℕ) (s : PmcSys)
    (h : Lts.Reach PmcInit (pmcStep maxClient) PmcDiscipline s) : ReplyOk maxClient s := by
  obtain ⟨hown, hfresh⟩ : OwnInv maxClient s ∧ FreshInv s :=
    Lts.Reach.invariant (I := fun s => OwnInv maxClient s ∧ FreshInv s)
      (fun _ hs => ⟨ownInv_init hs, freshInv_init hs⟩)
      (fun _ _ _ hs hd hstep => ⟨ownInv_step hs.1 hstep, freshInv_step hs.1 hs.2 hd hstep⟩) h
  intro id m ret after hc
  have hres := hown.returned id m ret after hc
  refine ⟨hres, fun hwait hret => ?_⟩
  cases hres with
  | refused _ hr _ =>
      rw [hr] at hret
      cases hret
  | noMemory hr _ _ =>
      rw [hr] at hret
      cases hret
  | served v hv hreq _ hresult =>
      have hmem : v ∈ s.servedFor id := by
        rw [hv]
        exact List.mem_singleton_self v
      have hf := hfresh.served v (List.mem_of_mem_filter hmem)
      unfold Serving.Fresh at hf
      rw [hreq, hresult] at hf
      exact ⟨v, hmem, hf hwait hret⟩

/-- A short request that waits. -/
def shortRequest (cmdId : UInt8) : PmcMsg := ⟨0, .short, true, 0, [cmdId, 0, 0, 0, 0, 0, 0, 0]⟩

/-- A call, from its start until its request is written. -/
def pmcRequest (id : ℕ) (m : PmcMsg) : List PmcLabel :=
  [.call id m, .lock id, .put id true, .get, .send 0 []]

/-- One call after another, with the reply of each after its request. -/
theorem replyOk_in_turn :
    ∃ s, Lts.Reach PmcInit (pmcStep 2) PmcDiscipline s ∧
      s.calls 1 = .returned (shortRequest 7) 0 ((shortRequest 7).readInto ⟨5, []⟩) ∧
        ReplyOk 2 s := by
  obtain ⟨s, hs, hc⟩ : ∃ s, Lts.Reach PmcInit (pmcStep 2) PmcDiscipline s ∧
      s.calls 1 = .returned (shortRequest 7) 0 ((shortRequest 7).readInto ⟨5, []⟩) :=
    Lts.exists_reach_guarded pmcInit_idle
      (pmcRequest 0 (shortRequest 3) ++
        ([.arrive ⟨4, []⟩, .semTake, .read 0 [], .give, .take 0] : List PmcLabel) ++
        pmcRequest 1 (shortRequest 7) ++
        ([.arrive ⟨5, []⟩, .semTake, .read 0 [], .give, .take 1] : List PmcLabel)) _
      (by decide +kernel)
  exact ⟨s, hs, hc, replyOk_of_disciplined 2 s hs⟩

/-- The reply to a request comes after the five seconds, and the next request takes it for its own.
-/
theorem not_replyOk_late :
    ¬ ∀ s, Lts.Reach PmcInit (pmcStep 2) Lts.Free s → ReplyOk 2 s := by
  intro h
  obtain ⟨s, hs, hc, hv⟩ : ∃ s, Lts.Reach PmcInit (pmcStep 2) Lts.Free s ∧
      s.calls 1 = .returned (shortRequest 7) 0 ((shortRequest 7).readInto ⟨4, []⟩) ∧
        (s.servedFor 1).map (fun v => (v.serving.writtenAt, v.serving.readFrom)) = [(1, some 0)] :=
    Lts.exists_reach pmcInit_idle
      (pmcRequest 0 (shortRequest 3) ++
        ([.timeout, .give, .take 0, .arrive ⟨4, []⟩] : List PmcLabel) ++
        pmcRequest 1 (shortRequest 7) ++
        ([.semTake, .read 0 [], .give, .take 1] : List PmcLabel)) _
      (by decide +kernel)
  obtain ⟨v, hmem, k, i, hk, hle, -⟩ := (h s hs 1 _ _ _ hc).2 rfl rfl
  have hpair := List.mem_map_of_mem (f := fun v : Served =>
    (v.serving.writtenAt, v.serving.readFrom)) hmem
  rw [hv, List.mem_singleton] at hpair
  obtain ⟨hw, hr⟩ := Prod.mk.inj hpair
  rw [hk] at hr
  cases hr
  rw [hw] at hle
  cases hle

end PseFw.Pmc
