/-
**Flow-control credit under concurrent senders.**

The host grants a connection a number of messages, `heci_send` takes one for every message it has
sent, and the host can take all of them back.  A sender looks at the counter in one critical section
and takes its credit in a later one, if it had to wait or if its message goes by DMA, so the credit
it has seen can be gone by then: taken by another sender, or taken back by the host.  The counter
then wraps around, and the connection has 2^32 - 1 messages nobody granted.

A sender *holds* a credit from the look that told it to go on until its call is over.  The counter
is safe as long as it covers the holders; what a run has to keep for that is
`PseFw.Heci.CreditDiscipline`.

Main definitions:

* `PseFw.Heci.creditCount` — what was granted, sent and taken since the credit was last set to zero;
* `PseFw.Heci.CreditSafe` — the counter was never taken from at zero, each call that has returned
  true has taken one credit, and no more of them were sent than were granted;
* `PseFw.Heci.holders` — the number of senders that hold a credit;
* `PseFw.Heci.CreditDiscipline` — nobody takes a credit that is held.

Main results:

* `PseFw.Heci.creditInv_step` — every step that keeps the discipline keeps the holders covered;
* `PseFw.Heci.creditSafe_of_disciplined` — **in every disciplined run of any number of senders the
  credit is safe**;
* `PseFw.Heci.not_creditSafe_two_senders` — two senders that send on one credit.
-/

import PseFw.Heci.Threads

set_option relaxedAutoImplicit false
set_option autoImplicit false

namespace PseFw.Heci

open Table

theorem toNat_pred {n : UInt32} (h : n ≠ 0) : (n - 1).toNat + 1 = n.toNat := by
  have hpos : n.toNat ≠ 0 := fun h₀ => h (UInt32.toNat_inj.1 h₀)
  have hle : (1 : UInt32) ≤ n := UInt32.le_iff_toNat_le.2 (Nat.one_le_iff_ne_zero.2 hpos)
  rw [UInt32.toNat_sub_of_le _ _ hle]
  exact Nat.sub_add_cancel (UInt32.le_iff_toNat_le.1 hle)

/-! ### Granted and sent -/

/-- Credits granted, messages sent, and credits taken. -/
structure CreditCount where
  granted : ℕ
  sent : ℕ
  taken : ℕ
  deriving DecidableEq, Repr

/-- A reset of the credit starts the count again. -/
def CreditCount.add (k : CreditCount) : CreditAct → CreditCount
  | .grant n => { k with granted := k.granted + n }
  | .reset => ⟨0, 0, 0⟩
  | .take _ => { k with taken := k.taken + 1 }
  | .sent => { k with sent := k.sent + 1 }

/-- **What was granted, sent and taken** since the credit was last set to zero. -/
def creditCount (log : List CreditAct) : CreditCount := log.foldl CreditCount.add ⟨0, 0, 0⟩

theorem creditCount_concat (log : List CreditAct) (a : CreditAct) :
    creditCount (log ++ [a]) = (creditCount log).add a :=
  List.foldl_concat ..

/-- **The credit of the connection is safe**: the counter was never taken from at zero, the calls
that returned true are those that have taken a credit, and no more messages were sent than the host
granted. -/
structure CreditSafe (c : ConnId) (s : HeciDev) : Prop where
  positive : Event.creditTaken c 0 ∉ s.events
  paid : (creditCount (creditLog c s)).sent = (creditCount (creditLog c s)).taken
  bounded : (creditCount (creditLog c s)).sent ≤ (creditCount (creditLog c s)).granted

/-- The counter of the connection is what is left of the credits. -/
structure Ledger (c : ConnId) (s : HeciDev) : Prop where
  positive : CreditAct.take 0 ∉ creditLog c s
  paid : (creditCount (creditLog c s)).sent = (creditCount (creditLog c s)).taken
  balance : (creditCount (creditLog c s)).taken + (s.connections c).hostBuffers.toNat ≤
    (creditCount (creditLog c s)).granted

theorem Ledger.creditSafe {c : ConnId} {s : HeciDev} (h : Ledger c s) : CreditSafe c s := by
  refine ⟨fun hmem => h.positive ?_, h.paid,
    h.paid.trans_le ((Nat.le_add_right _ _).trans h.balance)⟩
  exact List.mem_filterMap.2 ⟨_, hmem, by simp [creditAct]⟩

namespace Ledger

variable {c : ConnId} {s s' : HeciDev}

theorem congr (h : Ledger c s)
    (hhb : (s'.connections c).hostBuffers = (s.connections c).hostBuffers)
    (hlog : creditLog c s' = creditLog c s) : Ledger c s' := by
  refine ⟨?_, ?_, ?_⟩
  · rw [hlog]
    exact h.positive
  · rw [hlog]
    exact h.paid
  · rw [hlog, hhb]
    exact h.balance

/-- The host grants credit.  The counter wraps around at 2^32, and is then less than what was
granted. -/
theorem grant (h : Ledger c s) {n : UInt8}
    (hhb : (s'.connections c).hostBuffers = (s.connections c).hostBuffers + n.toUInt32)
    (hlog : creditLog c s' = creditLog c s ++ [.grant n.toNat]) : Ledger c s' := by
  have hle : (s'.connections c).hostBuffers.toNat ≤
      (s.connections c).hostBuffers.toNat + n.toNat := by
    rw [hhb, UInt32.toNat_add, UInt8.toNat_toUInt32]
    exact Nat.mod_le _ _
  have hb := h.balance
  refine ⟨?_, ?_, ?_⟩
  · rw [hlog]
    simpa using h.positive
  · rw [hlog, creditCount_concat]
    exact h.paid
  · rw [hlog, creditCount_concat]
    simp only [CreditCount.add]
    omega

theorem reset (h : Ledger c s) (hhb : (s'.connections c).hostBuffers = 0)
    (hlog : creditLog c s' = creditLog c s ++ [.reset]) : Ledger c s' := by
  refine ⟨?_, ?_, ?_⟩
  · rw [hlog]
    simpa using h.positive
  · rw [hlog, creditCount_concat]
    rfl
  · rw [hlog, creditCount_concat, hhb]
    exact le_refl 0

/-- A message is sent: a credit is taken, and the call returns true. -/
theorem send (h : Ledger c s) (hne : (s.connections c).hostBuffers ≠ 0)
    (hhb : (s'.connections c).hostBuffers = (s.connections c).hostBuffers - 1)
    (hlog : creditLog c s' = creditLog c s ++ [.take (s.connections c).hostBuffers] ++ [.sent]) :
    Ledger c s' := by
  have hb := h.balance
  have hsub := toNat_pred hne
  refine ⟨?_, ?_, ?_⟩
  · rw [hlog]
    simpa [hne.symm] using h.positive
  · rw [hlog, creditCount_concat, creditCount_concat]
    exact congrArg (· + 1) h.paid
  · rw [hlog, creditCount_concat, creditCount_concat, hhb]
    simp only [CreditCount.add]
    omega

/-- A message takes a credit of its own connection. -/
theorem finishSend (h : Ledger c s) {d : ConnId} (hne : (s.connections d).hostBuffers ≠ 0) :
    Ledger c ((finishSend d true s).log (.sent d)) := by
  have hlog := creditLog_append (finishSend_events d s) c
  have hsent := creditLog_concat
    (show ((Heci.finishSend d true s).log (.sent d)).events = _ ++ [Event.sent d] from rfl) c
  have hco : ((Heci.finishSend d true s).log (.sent d)).connections =
      (Heci.finishSend d true s).connections := rfl
  by_cases hc : c = d
  · subst hc
    refine h.send hne ?_ ?_
    · rw [hco, finishSend_connections, Function.update_self]
    · rw [hsent, hlog]
      simp [creditAct]
  · refine h.congr ?_ ?_
    · rw [hco, finishSend_connections, Function.update_of_ne hc]
    · rw [hsent, hlog]
      simp [creditAct, Ne.symm hc]

end Ledger

/-! ### Senders that hold a credit -/

/-- A look at the counter told the thread to go on, and its call is not over. -/
def Phase.holds : Phase → Bool
  | .granted _ | .copying _ _ _ _ _ => true
  | _ => false

/-- The thread holds a credit of the connection. -/
def Thread.holds (c : ConnId) (th : Thread) : Bool := decide (th.conn = c) && th.phase.holds

/-- **The number of senders that hold a credit of the connection.** -/
def holders {n : ℕ} (x : Sys n) (c : ConnId) : ℕ := tally (Thread.holds c) x.threads

/-- The thread is about to look at the counter. -/
def Phase.looks : Phase → Bool
  | .measured _ | .woken _ => true
  | _ => false

/-- The operation leaves the senders that hold a credit of the connection their credit. -/
def LeavesCredit {n : ℕ} (x : Sys n) (o : Op) (c : ConnId) : Prop :=
  (∀ k, Grants x.dev c k o →
      holders x c ≤ ((x.dev.connections c).hostBuffers + k.toUInt32).toNat) ∧
    (TakesBack x.dev c o ∨ Frees x.dev c o → holders x c = 0)

/-- **Nobody takes a credit that is held**: a thread that finds credit goes on only if there is more
of it than is held, the host takes no credit back and no connection is freed under a holder, and no
grant makes the counter wrap around below the number of holders. -/
def CreditDiscipline {n : ℕ} (x : Sys n) : Label n → Prop
  | .op o => ∀ c, LeavesCredit x o c
  | .call _ _ _ => True
  | .act t _ => (x.threads t).phase.looks = true →
      (x.dev.connections (x.threads t).conn).hostBuffers ≠ 0 →
      holders x (x.threads t).conn < (x.dev.connections (x.threads t).conn).hostBuffers.toNat

instance {n : ℕ} (x : Sys n) (l : Label n) : Decidable (CreditDiscipline x l) :=
  match l with
  | .op _ => inferInstanceAs (Decidable (∀ _, _ ∧ _))
  | .call _ _ _ => isTrue trivial
  | .act _ _ => inferInstanceAs (Decidable (_ → _ → _))

/-- The counters cover the holders. -/
structure CreditInv {n : ℕ} (x : Sys n) : Prop where
  table : TableInv x.dev
  ledger : ∀ c, Ledger c x.dev
  backed : ∀ c, holders x c ≤ (x.dev.connections c).hostBuffers.toNat

/-! ### Steps -/

section steps

variable {n : ℕ} {P : Platform} {x : Sys n}

theorem creditInv_op {o : Op} {s' : HeciDev} (h : CreditInv x) (hd : ∀ c, LeavesCredit x o c)
    (hst : opStep P o x.dev = some s') : CreditInv ⟨s', x.threads⟩ := by
  have hslot := opStep_slot h.table hst
  refine ⟨(keeps_tableInv P).opStep h.table hst, fun c => ?_, fun c => ?_⟩
  · cases hslot c with
    | same hs hlog => exact (h.ledger c).congr hs.hostBuffers hlog
    | opened f k _ _ _ _ hhb hlog => exact (h.ledger c).congr hhb hlog
    | closed _ _ _ hhb hlog => exact (h.ledger c).congr hhb hlog
    | granted k _ _ _ _ hhb hlog => exact (h.ledger c).grant hhb hlog
    | takenBack _ _ _ _ hhb hlog => exact (h.ledger c).reset hhb hlog
    | freed _ _ _ hhb hlog => exact (h.ledger c).reset hhb hlog
  · have hb := h.backed c
    show holders x c ≤ (s'.connections c).hostBuffers.toNat
    cases hslot c with
    | same hs _ => rw [hs.hostBuffers]; exact hb
    | opened f k _ _ _ _ hhb _ => rw [hhb]; exact hb
    | closed _ _ _ hhb _ => rw [hhb]; exact hb
    | granted k hg _ _ _ hhb _ => rw [hhb]; exact (hd c).1 k hg
    | takenBack ht _ _ _ _ _ => rw [(hd c).2 (Or.inl ht)]; exact Nat.zero_le _
    | freed hf _ _ _ _ => rw [(hd c).2 (Or.inr hf)]; exact Nat.zero_le _

/-- What a thread does only counts on its own connection. -/
theorem holders_goOn (x : Sys n) (t : Fin n) (ph : Phase) (s' : HeciDev) (c : ConnId) :
    (c ≠ (x.threads t).conn → holders (x.goOn t ph s') c = holders x c) ∧
      (c = (x.threads t).conn → holders (x.goOn t ph s') c + (x.threads t).phase.holds.toNat =
        holders x c + ph.holds.toNat) :=
  tally_goOn Phase.holds x t ph s' c

/-- A thread goes on, and the other senders see nothing of it. -/
theorem CreditInv.goOn (h : CreditInv x) {t : Fin n} {ph : Phase} {s' : HeciDev}
    (hT : TableInv s') (hq : SlotQuiet x.dev s')
    (hle : holders x (x.threads t).conn + ph.holds.toNat ≤
      (x.dev.connections (x.threads t).conn).hostBuffers.toNat +
        (x.threads t).phase.holds.toNat) : CreditInv (x.goOn t ph s') := by
  refine ⟨hT, fun c => (h.ledger c).congr (hq.connections c).hostBuffers (hq.log c), fun c => ?_⟩
  have hb := h.backed c
  have hgo := holders_goOn x t ph s' c
  rw [show (x.goOn t ph s').dev = s' from rfl, (hq.connections c).hostBuffers]
  by_cases hc : c = (x.threads t).conn
  · have heq := hgo.2 hc
    rw [hc] at heq ⊢
    omega
  · rw [hgo.1 hc]
    exact hb

/-- A thread that holds nothing afterwards. -/
theorem CreditInv.release (h : CreditInv x) {t : Fin n} {ph : Phase} {s' : HeciDev}
    (hT : TableInv s') (hq : SlotQuiet x.dev s') (hph : ph.holds = false) :
    CreditInv (x.goOn t ph s') := by
  refine h.goOn hT hq ?_
  rw [hph]
  exact (h.backed _).trans (Nat.le_add_right _ _)

/-- The counter covers a message of the thread besides those of the other holders. -/
def Sys.Covers (x : Sys n) (t : Fin n) : Prop :=
  holders x (x.threads t).conn + 1 ≤
    (x.dev.connections (x.threads t).conn).hostBuffers.toNat + (x.threads t).phase.holds.toNat

/-- A thread that holds a credit is covered. -/
theorem CreditInv.covers (h : CreditInv x) {t : Fin n} (hph : (x.threads t).phase.holds = true) :
    x.Covers t := by
  rw [Sys.Covers, hph]
  exact Nat.add_le_add_right (h.backed _) 1

/-- A thread whose credit is covered finds it. -/
theorem hostBuffers_ne_zero {t : Fin n} (hle : x.Covers t) :
    (x.dev.connections (x.threads t).conn).hostBuffers ≠ 0 := by
  intro h₀
  rw [Sys.Covers, h₀, UInt32.toNat_zero] at hle
  cases hph : (x.threads t).phase.holds with
  | false =>
      rw [hph, Bool.toNat_false] at hle
      omega
  | true =>
      -- the thread is one of the holders itself
      have hpos : 0 < holders x (x.threads t).conn := by
        refine tally_pos (i := t) ?_
        simp [Thread.holds, hph]
      rw [hph, Bool.toNat_true] at hle
      omega

/-- A message is out, and its credit is taken. -/
theorem CreditInv.taken (h : CreditInv x) {t : Fin n} {s₁ : HeciDev} (hT : TableInv s₁)
    (hq : SlotQuiet x.dev s₁) (hle : x.Covers t) :
    CreditInv (x.goOn t .idle
      ((finishSend (x.threads t).conn true s₁).log (.sent (x.threads t).conn))) := by
  have hne := hostBuffers_ne_zero hle
  have hhb := (hq.connections (x.threads t).conn).hostBuffers
  have hne₁ : (s₁.connections (x.threads t).conn).hostBuffers ≠ 0 := by rwa [hhb]
  have hL : ∀ c, Ledger c s₁ :=
    fun c => (h.ledger c).congr (hq.connections c).hostBuffers (hq.log c)
  refine ⟨(hT.finishSend fun hu => hne₁ ((hT.conns _).unused hu)).log _,
    fun c => (hL c).finishSend hne₁, fun c => ?_⟩
  have hgo := holders_goOn x t .idle
    ((finishSend (x.threads t).conn true s₁).log (.sent (x.threads t).conn)) c
  have hdev : (x.goOn t .idle
      ((finishSend (x.threads t).conn true s₁).log (.sent (x.threads t).conn))).dev.connections =
      Function.update s₁.connections (x.threads t).conn _ := finishSend_connections _ _
  rw [hdev]
  by_cases hc : c = (x.threads t).conn
  · have hpred := toNat_pred hne₁
    have heq := hgo.2 hc
    subst hc
    rw [Function.update_self]
    rw [show Phase.idle.holds.toNat = 0 from rfl] at heq
    unfold Sys.Covers at hle
    dsimp only
    rw [hhb] at hpred ⊢
    omega
  · rw [Function.update_of_ne hc, hgo.1 hc, (hq.connections c).hostBuffers]
    exact h.backed c

/-- The end of a call whose credit is covered. -/
theorem creditInv_outcome (h : CreditInv x) {t : Fin n} {f k : UInt8} {ph : Phase} {s' : HeciDev}
    (hle : x.Covers t) (ho : Outcome (x.threads t).conn f k x.dev ph s') :
    CreditInv (x.goOn t ph s') := by
  cases ho with
  | fault =>
      exact h.release (h.table.log _) (SlotQuiet.logEvent (SlotQuiet.refl _) fun _ => rfl) rfl
  | failed hs => exact h.release (hs.tableInv h.table) hs.slotQuiet rfl
  | sent hs => exact h.taken (hs.tableInv h.table) hs.slotQuiet hle
  | copying m ms b hs => exact h.goOn (hs.tableInv h.table) hs.slotQuiet hle

theorem creditInv_act (h : CreditInv x) {t : Fin n} {a : Act} {ph : Phase} {s' : HeciDev}
    (hd : CreditDiscipline x (.act t a)) (hcase : ThreadCase (x.threads t) x.dev ph s') :
    CreditInv (x.goOn t ph s') := by
  have hrefl := SlotQuiet.refl x.dev
  cases hcase with
  | refused _ _ => exact h.release h.table hrefl rfl
  | checked _ _ _ hafter =>
      refine h.release (h.table.log _) (hrefl.logEvent fun _ => rfl) ?_
      cases ph <;> first | rfl | cases hafter
  | waits n m _ _ => exact h.release (h.table.setWait _ m) (SlotQuiet.setWait _ _ m) rfl
  | queued _ _ hafter hs =>
      have hph : ph.holds = false := by cases ph <;> first | rfl | cases hafter
      rcases hs with rfl | ⟨q, m, rfl⟩
      · exact h.release h.table hrefl hph
      · exact h.release (h.table.setSem q m) hrefl.setSem hph
  | acquires n m hph hne =>
      have hlt := hd (by rw [hph]; rfl) hne
      refine h.goOn (h.table.setWait _ m) (SlotQuiet.setWait _ _ m) ?_
      exact hlt.trans_le (Nat.le_add_right _ _)
  | sends n _ hph hne ho =>
      have hlt := hd (by rw [hph]; rfl) hne
      exact creditInv_outcome h (hlt.trans_le (Nat.le_add_right _ _)) ho
  | resumes n _ hph ho => exact creditInv_outcome h (h.covers (by rw [hph]; rfl)) ho
  | copied f k m rest b _ hph ho => exact creditInv_outcome h (h.covers (by rw [hph]; rfl)) ho

/-- **Every step that keeps the discipline keeps the holders covered.** -/
theorem creditInv_step {x' : Sys n} {l : Label n} (h : CreditInv x) (hd : CreditDiscipline x l)
    (hst : sysStep P l x = some x') : CreditInv x' := by
  cases sysStep_cases hst with
  | op hop => exact creditInv_op h hd hop
  | call t c msg hidle =>
      refine ⟨h.table, h.ledger, fun d => ?_⟩
      refine (tally_update_of_eq ?_).trans_le (h.backed d)
      simp [Thread.holds, Phase.holds, hidle]
  | act hcase => exact creditInv_act h hd hcase

theorem creditInv_initial (h : Sys.Initial x) : CreditInv x := by
  have hzero : ∀ c, holders x c = 0 := fun c =>
    tally_eq_zero fun t => by simp [Thread.holds, Phase.holds, h.threads t]
  refine ⟨tableInv_initial h.dev, fun c => ⟨?_, ?_, ?_⟩, fun c => ?_⟩
  · rw [creditLog, h.dev.events]
    exact List.not_mem_nil
  · rw [creditLog, h.dev.events]
    rfl
  · rw [creditLog, h.dev.events, h.dev.connections c]
    exact le_refl 0
  · rw [hzero c]
    exact Nat.zero_le _

end steps

/-! ### Runs -/

/-- **In every disciplined run of any number of senders the credit is safe**: the counter is never
taken from at zero, every message that is sent takes one credit, and no more of them are sent than
the host granted. -/
theorem creditSafe_of_disciplined {n : ℕ} {P : Platform} {x : Sys n}
    (h : Lts.Reach Sys.Initial (sysStep P) CreditDiscipline x) (c : ConnId) :
    CreditSafe c x.dev := by
  have hI : CreditInv x :=
    h.invariant (fun _ => creditInv_initial) fun _ _ _ hx hd hst => creditInv_step hx hd hst
  exact (hI.ledger c).creditSafe

/-- Two senders wait in turn, and each sends what the host grants it. -/
theorem creditSafe_two_grants :
    ∃ x : Sys 2, Lts.Reach Sys.Initial (sysStep Platform.nominal) CreditDiscipline x ∧
      creditCount (creditLog 0 x.dev) = ⟨2, 2, 2⟩ ∧ CreditSafe 0 x.dev := by
  obtain ⟨x, hx, hcount⟩ := exists_sysDisciplined (n := 2) Platform.nominal CreditDiscipline
    (connectLabels (plainClient 1 0 4096 1) 7 ++ waitLabels 0 0 ++ [grantLabel 7] ++ wakeLabels 0 ++
      ([.act 0 .relock] : List (Label 2)) ++ waitLabels 1 0 ++ [grantLabel 7] ++
      wakeLabels 1 ++ ([.act 1 .relock] : List (Label 2)))
    (fun x => creditCount (creditLog 0 x.dev) = ⟨2, 2, 2⟩) (by decide +kernel)
  exact ⟨x, hx, hcount, creditSafe_of_disciplined hx 0⟩

/-- Two senders and one credit: the first one waits for it, and when it has seen it, the second one
takes it.  The first one sends all the same, and the counter wraps around. -/
theorem not_creditSafe_two_senders :
    ∃ x : Sys 2, Lts.Reach Sys.Initial (sysStep Platform.nominal) Lts.Free x ∧
      Event.creditTaken 0 0 ∈ x.dev.events ∧ creditCount (creditLog 0 x.dev) = ⟨1, 2, 2⟩ ∧
      (x.dev.connections 0).hostBuffers.toNat = 2 ^ 32 - 1 ∧ ¬ CreditSafe 0 x.dev := by
  obtain ⟨x, hx, htaken, hcount, hhb⟩ := exists_sysReachable (n := 2) Platform.nominal
    (connectLabels (plainClient 1 0 4096 1) 7 ++ waitLabels 0 0 ++ [grantLabel 7] ++ wakeLabels 0 ++
      sendLabels 1 0 ++ ([.act 0 .relock] : List (Label 2)))
    (fun x => Event.creditTaken 0 0 ∈ x.dev.events ∧ creditCount (creditLog 0 x.dev) = ⟨1, 2, 2⟩ ∧
      (x.dev.connections 0).hostBuffers.toNat = 2 ^ 32 - 1) (by decide +kernel)
  exact ⟨x, hx, htaken, hcount, hhb, fun hsafe => hsafe.positive htaken⟩

end PseFw.Heci
