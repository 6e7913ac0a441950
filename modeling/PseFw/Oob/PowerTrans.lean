/-
**Reports about transitions that did not happen.**

A power command asks the PMC for a transition of the host, and then starts a timer; when the host is
seen to make the transition, the timer is stopped, and when the timer expires the cloud is told that
the transition takes longer than expected.  For a reboot, which is an entry and an exit, the flag
`pmc_reboot` keeps the timer going over the entry.

The request goes out before the timer is started, and the timer is started whatever has happened
since.  And the flag outlives the command that has set it: a power-off after a reboot that was not
completed keeps the timer going over its own entry.

Main definitions:

* `Happened` — the transition a command asked for has happened;
* `ReportsOk` — what is wanted: no report about a transition that has happened;
* `ReportDiscipline` — the runs that do not reach the two gaps.

Main results:

* `reportInv_step` — every disciplined step keeps the invariant;
* `not_reportsOk_of_undisciplined` — after any other step the timer reports wrongly;
* `reportsOk_of_disciplined` — **in every disciplined run the reports are true.**
-/

import PseFw.Oob.Service

set_option relaxedAutoImplicit false
set_option autoImplicit false

namespace PseFw.Oob

variable {c : Credentials} {x x' : OobSys} {l : OobLabel}

/-- The transition a command asks for is among the events since: an entry for a power-off, an exit
for a power-on, an entry and then an exit for a reboot. -/
def Happened : Option (OobMessage × List SxEvent) → Prop
  | some (.poweroff, events) => .entry ∈ events
  | some (.poweron, events) => .exit ∈ events
  | some (.reboot, events) => [.entry, .exit].Sublist events
  | _ => False

instance : DecidablePred Happened := fun a =>
  match a with
  | some (.poweroff, events) => inferInstanceAs (Decidable (SxEvent.entry ∈ events))
  | some (.poweron, events) => inferInstanceAs (Decidable (SxEvent.exit ∈ events))
  | some (.reboot, events) => inferInstanceAs (Decidable ([SxEvent.entry, .exit].Sublist events))
  | some (.decommission, _) | some (.ignore, _) | some (.relay, _)
  | some (.pltStateChangeEvent, _) | some (.pltStateTimerEvent, _)
  | some (.tlsSessionStateEvent, _) | some (.mqttStateChangeEvent, _)
  | some (.pltNwMgmtEvent, _) | none => isFalse id

/-- **What is wanted of the reports**: the transition the last command asked for had not happened.
-/
def ReportsOk (x : OobSys) : Prop := ∀ a ∈ x.reports, ¬ Happened a

/-- The operation that starts the timer. -/
def OobOp.isTimerStart : OobOp → Bool
  | .timerStart => true
  | _ => false

/-- The last command is a power-off. -/
def OobSys.AsksPoweroff (x : OobSys) : Prop := (x.asked.map Prod.fst) = some .poweroff

instance (x : OobSys) : Decidable x.AsksPoweroff := inferInstanceAs (Decidable (_ = _))

/-- **The discipline**: the timer is not started for a transition that has happened already, and an
entry that completes a power-off does not find the flag of a reboot. -/
def ReportDiscipline (x : OobSys) : OobLabel → Prop
  | .sx .entry => ¬ (x.s.powerTransTimer = true ∧ x.s.pmcReboot = true ∧ x.AsksPoweroff)
  | .work _ => (x.s.todo.head?.map OobOp.isTimerStart) = some true → ¬ Happened x.asked
  | _ => True

instance (x : OobSys) (l : OobLabel) : Decidable (ReportDiscipline x l) :=
  match l with
  | .sx .entry => inferInstanceAs (Decidable (¬ _))
  | .work _ => inferInstanceAs (Decidable (_ → _))
  | .sx .exit | .sx .other | .publish _ _ _ | .l2 _ | .powerTransExpiry _ | .tlsSessionExpiry _
  | .pingreqExpiry _ | .get | .ack _ => isTrue trivial

/-- While the timer runs, the transition has not happened. -/
structure ReportInv (x : OobSys) : Prop where
  ok : ReportsOk x
  timer : x.s.powerTransTimer = true → ¬ Happened x.asked

theorem reportInv_init (h : OobInit x) : ReportInv x := by
  refine ⟨fun a ha => ?_, fun ht => ?_⟩
  · rw [h.reports] at ha
    cases ha
  · rw [h.powerTransTimer] at ht
    cases ht

/-- A step that changes neither timer nor history. -/
theorem ReportInv.same (h : ReportInv x) (ht : x'.s.powerTransTimer = x.s.powerTransTimer)
    (ha : x'.asked = x.asked) (hr : x'.reports = x.reports) : ReportInv x' := by
  refine ⟨fun a hmem => ?_, fun htimer => ?_⟩
  · rw [hr] at hmem
    exact h.ok a hmem
  · rw [ha]
    exact h.timer (ht ▸ htimer)

/-! ### The notification -/

/-- An event that is not an exit completes no reboot. -/
theorem sublist_of_ne_exit {events : List SxEvent} {e : SxEvent} (he : e ≠ .exit)
    (h : [SxEvent.entry, .exit].Sublist (events ++ [e])) :
    [SxEvent.entry, .exit].Sublist events := by
  obtain ⟨l₁, l₂, heq, h₁, h₂⟩ := List.sublist_append_iff.1 h
  rcases List.eq_nil_or_concat l₂ with rfl | ⟨l, a, rfl⟩
  · rw [List.append_nil] at heq
    rw [heq]
    exact h₁
  · rw [List.concat_eq_append] at heq h₂
    have ha : a = e := List.mem_singleton.1 (h₂.subset (List.mem_append_right _ List.mem_cons_self))
    have hlast := congrArg List.getLast? heq
    rw [← List.append_assoc, List.getLast?_concat] at hlast
    cases hlast
    exact absurd ha.symm he

/-- What an event that lets the timer go on can complete. -/
theorem poweroff_of_happened {a : OobMessage × List SxEvent} {e : SxEvent} (he : e ≠ .exit)
    (hbefore : ¬ Happened (some a)) (h : Happened (some (a.1, a.2 ++ [e]))) :
    e = .entry ∧ a.1 = .poweroff := by
  obtain ⟨m, events⟩ := a
  cases m with
  | poweroff =>
      rcases List.mem_append.1 h with h | h
      · exact absurd h hbefore
      · exact ⟨(List.mem_singleton.1 h).symm, rfl⟩
  | poweron =>
      rcases List.mem_append.1 h with h | h
      · exact absurd h hbefore
      · exact absurd (List.mem_singleton.1 h).symm he
  | reboot => exact absurd (sublist_of_ne_exit he h) hbefore
  | _ => exact h.elim

theorem reportInv_sx {event : SxEvent} (h : ReportInv x) (hd : ReportDiscipline x (.sx event))
    (hstep : oobStep c (.sx event) x = some x') : ReportInv x' := by
  cases hstep
  refine ⟨h.ok, fun htimer hhap => ?_⟩
  simp only [oobSxHandler_eq, Bool.and_eq_true, decide_eq_true_eq] at htimer
  obtain ⟨htimer, hexit, hflag⟩ := htimer
  cases ha : x.asked with
  | none =>
      simp only [ha, Option.map_none] at hhap
      exact hhap
  | some a =>
      simp only [ha, Option.map_some] at hhap
      have hbefore := h.timer htimer
      rw [ha] at hbefore
      obtain ⟨rfl, hoff⟩ := poweroff_of_happened hexit hbefore hhap
      refine hd ⟨htimer, hflag, ?_⟩
      unfold OobSys.AsksPoweroff
      rw [ha, Option.map_some, hoff]

/-! ### The thread -/

/-- A new command has not been carried out. -/
theorem not_happened_nil (m : OobMessage) : ¬ Happened (some (m, [])) := by
  cases m <;> decide

theorem reportInv_work {result : Bool} (h : ReportInv x) (hd : ReportDiscipline x (.work result))
    (hstep : oobStep c (.work result) x = some x') : ReportInv x' := by
  obtain ⟨-, hstep⟩ := Option.ite_none_right_eq_some.1 hstep
  obtain ⟨op, hop, rfl⟩ := Option.map_eq_some_iff.1 hstep
  cases op with
  | timerStart =>
      refine ⟨h.ok, fun _ => hd ?_⟩
      rw [hop]
      rfl
  | pmcAction action ok failed =>
      refine ⟨h.ok, fun htimer => ?_⟩
      have htimer : x.s.powerTransTimer = true := htimer
      simp only [OobSys.ask]
      split
      · exact not_happened_nil _
      · exact h.timer htimer
  | _ => exact h.same rfl rfl rfl

/-- **Every disciplined step keeps the invariant.** -/
theorem reportInv_step (h : ReportInv x) (hd : ReportDiscipline x l)
    (hstep : oobStep c l x = some x') : ReportInv x' := by
  have halloc : ∀ alloc item, (kFifoAllocPut alloc item x.s).powerTransTimer =
      x.s.powerTransTimer := fun alloc item => by
    unfold kFifoAllocPut
    split <;> rfl
  cases l with
  | publish m stack alloc =>
      obtain ⟨p, -, rfl⟩ := Option.map_eq_some_iff.1 hstep
      refine h.same ?_ rfl rfl
      simp only [mqttProcessReceive, kFifoAllocPut]
      split
      · split <;> rfl
      · rfl
  | sx event => exact reportInv_sx h hd hstep
  | l2 mgmtEvent =>
      cases hstep
      cases mgmtEvent <;> exact h.same rfl rfl rfl
  | powerTransExpiry alloc =>
      obtain ⟨htimer, hstep⟩ := Option.ite_none_right_eq_some.1 hstep
      cases hstep
      refine ⟨fun a ha => ?_, fun ht => (by cases ht)⟩
      rcases List.mem_append.1 ha with ha | ha
      · exact h.ok a ha
      · split at ha
        · rw [List.mem_singleton.1 ha]
          exact h.timer htimer
        · cases ha
  | tlsSessionExpiry alloc =>
      cases hstep
      exact h.same (halloc alloc _) rfl rfl
  | pingreqExpiry alloc =>
      cases hstep
      exact h.same (halloc alloc _) rfl rfl
  | get =>
      obtain ⟨-, hstep⟩ := Option.ite_none_right_eq_some.1 hstep
      obtain ⟨a, -, rfl⟩ := Option.map_eq_some_iff.1 hstep
      exact h.same rfl rfl rfl
  | ack after =>
      obtain ⟨-, hstep⟩ := Option.ite_none_right_eq_some.1 hstep
      cases hstep
      exact h.same rfl rfl rfl
  | work result => exact reportInv_work h hd hstep

/-! ### Outside the discipline -/

/-- A timer that runs although the transition has happened reports wrongly when it expires. -/
theorem expiry_wrong (ht : x.s.powerTransTimer = true) (hh : Happened x.asked) :
    ∃ x', oobStep c (.powerTransExpiry true) x = some x' ∧ ¬ ReportsOk x' := by
  refine ⟨_, if_pos ht, fun hok => ?_⟩
  exact hok x.asked (List.mem_append_right _ (List.mem_singleton_self _)) hh

/-- **After a step outside the discipline the timer reports wrongly.** -/
theorem not_reportsOk_of_undisciplined (hd : ¬ ReportDiscipline x l)
    (hstep : oobStep c l x = some x') :
    ∃ x'', oobStep c (.powerTransExpiry true) x' = some x'' ∧ ¬ ReportsOk x'' := by
  cases l with
  | sx event =>
      cases event with
      | entry =>
          obtain ⟨htimer, hflag, hoff⟩ := not_not.1 hd
          cases hstep
          refine expiry_wrong ?_ ?_
          · simp only [oobSxHandler_eq, htimer, hflag]
            rfl
          · obtain ⟨a, ha, hfst⟩ := Option.map_eq_some_iff.1 hoff
            simp only [ha, Option.map_some, hfst]
            exact List.mem_append_right _ (List.mem_singleton_self _)
      | exit => exact absurd trivial hd
      | other => exact absurd trivial hd
  | work result =>
      obtain ⟨-, hstep⟩ := Option.ite_none_right_eq_some.1 hstep
      obtain ⟨op, hop, rfl⟩ := Option.map_eq_some_iff.1 hstep
      obtain ⟨hstart, hhap⟩ := Classical.not_imp.1 hd
      rw [hop] at hstart
      cases op with
      | timerStart => exact expiry_wrong rfl (not_not.1 hhap)
      | _ => cases hstart
  | _ => exact absurd trivial hd

/-- **In every disciplined run the reports are true**, and after the first step that leaves the
discipline the timer reports wrongly. -/
theorem reportsOk_of_disciplined (c : Credentials) (x : OobSys)
    (h : Lts.Reach OobInit (oobStep c) ReportDiscipline x) :
    ReportsOk x ∧ ∀ l x', oobStep c l x = some x' → ¬ ReportDiscipline x l →
      ∃ x'', oobStep c (.powerTransExpiry true) x' = some x'' ∧ ¬ ReportsOk x'' := by
  have hinv : ReportInv x :=
    Lts.Reach.invariant (fun _ => reportInv_init)
      (fun _ _ _ hx hd hstep => reportInv_step hx hd hstep) h
  exact ⟨hinv.ok, fun l x' hstep hd => not_reportsOk_of_undisciplined hd hstep⟩

/-- A power-off from the cloud. -/
def poweroffMessage : Incoming :=
  ⟨CStr.bytes "$iothub/methods/POST/powerdown_device/?$rid=1", [], [], []⟩

/-- The power-off is received, taken and acknowledged, and its request goes to the PMC. -/
def poweroffRequest : List OobLabel :=
  [.publish poweroffMessage [] true, .get, .ack [], .work true, .work true, .work true]

/-- The host ignores a power-off, and the cloud is told so. -/
theorem reportsOk_ignored :
    ∃ x, Lts.Reach OobInit (oobStep azureCredentials) ReportDiscipline x ∧
      x.reports = [some (.poweroff, [])] ∧ ReportsOk x := by
  obtain ⟨x, hx, hreports⟩ :
      ∃ x, Lts.Reach OobInit (oobStep azureCredentials) ReportDiscipline x ∧
        x.reports = [some (OobMessage.poweroff, [])] :=
    Lts.exists_reach_guarded oobInit_idle
      (poweroffRequest ++ ([.work true, .work true, .powerTransExpiry true] : List OobLabel)) _
      (by decide +kernel)
  exact ⟨x, hx, hreports, (reportsOk_of_disciplined azureCredentials x hx).1⟩

/-- The host goes down before the timer is started, and the cloud is told that it did not. -/
theorem not_reportsOk_early_entry :
    ¬ ∀ x, Lts.Reach OobInit (oobStep azureCredentials) Lts.Free x → ReportsOk x := by
  intro h
  obtain ⟨x, hx, hreports⟩ :
      ∃ x, Lts.Reach OobInit (oobStep azureCredentials) Lts.Free x ∧
        x.reports = [some (OobMessage.poweroff, [SxEvent.entry])] :=
    Lts.exists_reach oobInit_idle
      (poweroffRequest ++
        ([.sx .entry, .work true, .work true, .powerTransExpiry true] : List OobLabel)) _
      (by decide +kernel)
  refine h x hx (some (.poweroff, [.entry])) ?_ (by decide)
  rw [hreports]
  exact List.mem_singleton_self _

end PseFw.Oob
