/-
**The fan across power transitions.**

When the host goes to sleep, ECLite turns the fan off, and it turns it on again when the host is
back.  There are two callbacks, for Sx and for S0ix.  On entry each of them puts the duty cycle
away, whether or not one has been put away before, and sets it to zero; on exit each of them brings
back what was put away last.  They share the one variable.  And the callback for S0ix does nothing
while there is no connection to the host.

So a second entry before the first exit puts away a zero, and the fan stays off.

Main definitions:

* `sxCallback`, `s0ixCallback` — the callbacks;
* `FanSys`, `fanStep` — runs of writes, connections and callbacks, with what the host wrote last and
  the entries that wait for their exit;
* `FanOk` — what is wanted of the duty cycle;
* `FanDiscipline` — one entry at a time, and an exit for it.

Main results:

* `fanInv_step` — every disciplined step keeps the invariant;
* `fanOk_of_disciplined` — **the setting survives in every disciplined run.**
-/

import PseFw.Eclite.HostComm
import PseFw.Lib.Transition

set_option relaxedAutoImplicit false
set_option autoImplicit false

namespace PseFw.Eclite

open Mem

/-! ### The platform -/

/-- `eclite_opregion.pwm_dutycyle`. -/
def HostComm.pwmDutycyle (s : HostComm) : ℕ :=
  ofLe (read s.opregion OpField.pwmDutycyle.offset 2)

/-- Store `eclite_opregion.pwm_dutycyle`, which has sixteen bits. -/
def HostComm.setPwmDutycyle (s : HostComm) (v : ℕ) : HostComm :=
  { s with opregion := write s.opregion OpField.pwmDutycyle.offset (leBytes 2 v) }

/-- The variables of the platform the callbacks work with. -/
structure Platform where
  comm : HostComm
  ecliteFanSpeed : ℕ
  cpuThermalEnable : Bool
  ecliteS0ixState : Bool
  ecliteSxState : ℕ
  /-- `dispatcher_timer` is running. -/
  dispatcherTimer : Bool
  /-- The events that were handed to `eclite_post_dispatcher_event`. -/
  posted : List DispatcherQueueData

/-- The host goes to sleep, or comes back. -/
inductive Transition
  | entry
  | exit
  deriving DecidableEq, Repr

/-- The event that passes the duty cycle on to the fan. -/
def pwmUpdate : DispatcherQueueData := ⟨.thermal, 0x0F⟩

/-- Turn off the fan; what both callbacks do on entry. -/
def Platform.fanOff (s : Platform) : Platform :=
  { s with
    ecliteFanSpeed := s.comm.pwmDutycyle
    comm := s.comm.setPwmDutycyle 0
    posted := s.posted ++ [pwmUpdate] }

/-- Turn on the fan; what both callbacks do on exit. -/
def Platform.fanOn (s : Platform) : Platform :=
  { s with
    comm := s.comm.setPwmDutycyle s.ecliteFanSpeed
    posted := s.posted ++ [pwmUpdate] }

/-- `sx_callback`; the second argument is what `sedi_pm_get_reset_prep_info` finds. -/
def sxCallback (event : Transition) (resetPrep : Option ℕ) (s : Platform) : Platform :=
  let s := if s.cpuThermalEnable = true then
      match event with
      | .entry => s.fanOff
      | .exit => s.fanOn
    else s
  { s with ecliteSxState := resetPrep.getD s.ecliteSxState }

/-- `s0ix_callback`. -/
def s0ixCallback (event : Transition) (s : Platform) : Platform :=
  if s.comm.heciConnectionId = none then s
  else if s.cpuThermalEnable = true then
    match event with
    | .entry => { s.fanOff with ecliteS0ixState := true, dispatcherTimer := false }
    | .exit => { s.fanOn with ecliteS0ixState := false, dispatcherTimer := true }
  else s

/-- A connection, as `eclite_heci_event_process` takes it up. -/
def heciConnect (id : ℕ) (s : Platform) : Platform :=
  { s with
    comm := { s.comm with heciConnectionId := some id }
    dispatcherTimer := s.dispatcherTimer || s.cpuThermalEnable }

/-- The end of a connection; the argument says whether `heci_complete_disconnect` succeeds. -/
def heciDisconn (ok : Bool) (s : Platform) : Platform :=
  if ok = true then
    { s with
      comm := { s.comm with heciConnectionId := none }
      dispatcherTimer := s.dispatcherTimer && !s.cpuThermalEnable }
  else s

/-! ### Runs -/

/-- A message with a duty cycle. -/
structure PwmWrite where
  message : Message
  isWrite : message.IsWrite
  offset_eq : message.header.offset.toNat = OpField.pwmDutycyle.offset
  length_eq : message.header.length.toNat = 2
  payload_ge : 2 ≤ message.payload.length

/-- The duty cycle in a message. -/
def PwmWrite.duty (w : PwmWrite) : ℕ := ofLe (w.message.payload.take 2)

/-- What happens in a run. -/
inductive FanEvent
  | pwmWrite (heciSend : Bool) (w : PwmWrite)
  | connect (id : ℕ)
  | disconnect (ok : Bool)
  | sx (event : Transition) (resetPrep : Option ℕ)
  | s0ix (event : Transition)

/-- The platform, with the last duty cycle the host wrote and the entries of the two kinds that
wait for their exit. -/
structure FanSys where
  platform : Platform
  written : Option ℕ
  sxPending : ℕ
  s0ixPending : ℕ

/-- The entries that wait after a transition; an exit without an entry matches nothing. -/
def Transition.count : Transition → ℕ → ℕ
  | .entry, n => n + 1
  | .exit, n => n - 1

/-- The host writes a duty cycle. -/
def Platform.receive (heciSend : Bool) (m : Message) (s : Platform) : Platform :=
  { s with
    comm := receiveMessage heciSend m s.comm
    posted := s.posted ++
      (ecliteProcessMsg heciSend (checkEventsConfigRequest (s.comm.fill m))).2.toList }

/-- One step of a run. -/
def fanStep : FanEvent → FanSys → Option FanSys
  | .pwmWrite heciSend w, x => some { x with
      platform := x.platform.receive heciSend w.message
      written := some w.duty }
  | .connect id, x => some { x with platform := heciConnect id x.platform }
  | .disconnect ok, x => some { x with platform := heciDisconn ok x.platform }
  | .sx event resetPrep, x => some { x with
      platform := sxCallback event resetPrep x.platform
      sxPending := event.count x.sxPending }
  | .s0ix event, x => some { x with
      platform := s0ixCallback event x.platform
      s0ixPending := event.count x.s0ixPending }

/-- The start: nothing written, nothing put away, no entry waits. -/
structure FanInit (x : FanSys) : Prop where
  written : x.written = none
  ecliteFanSpeed : x.platform.ecliteFanSpeed = 0
  sxPending : x.sxPending = 0
  s0ixPending : x.s0ixPending = 0

/-- The entries of both kinds that wait. -/
def FanSys.pending (x : FanSys) : ℕ := x.sxPending + x.s0ixPending

/-- **What is wanted of the duty cycle**: what the host wrote last, when every entry has had its
exit; zero as long as one waits. -/
structure FanOk (x : FanSys) : Prop where
  awake : x.pending = 0 → ∀ d, x.written = some d → x.platform.comm.pwmDutycyle = d
  asleep : 0 < x.pending → x.platform.comm.pwmDutycyle = 0

/-- **The discipline**: the host writes while it is awake, one entry at a time waits for its exit,
and the callback for S0ix is called while there is a connection. -/
def FanDiscipline (x : FanSys) : FanEvent → Prop
  | .pwmWrite _ _ => x.pending = 0
  | .connect _ | .disconnect _ => True
  | .sx .entry _ => x.pending = 0 ∧ x.platform.cpuThermalEnable = true
  | .sx .exit _ => 0 < x.sxPending ∧ x.platform.cpuThermalEnable = true
  | .s0ix .entry => x.pending = 0 ∧ x.platform.cpuThermalEnable = true ∧
      x.platform.comm.heciConnectionId ≠ none
  | .s0ix .exit => 0 < x.s0ixPending ∧ x.platform.cpuThermalEnable = true ∧
      x.platform.comm.heciConnectionId ≠ none

/-! ### The duty cycle -/

theorem pwmDutycyle_lt (s : HostComm) : s.pwmDutycyle < 2 ^ 16 := by
  have h := ofLe_lt (read s.opregion OpField.pwmDutycyle.offset 2)
  rw [length_read] at h
  exact h

theorem pwmDutycyle_set (s : HostComm) {v : ℕ} (h : v < 2 ^ 16) :
    (s.setPwmDutycyle v).pwmDutycyle = v := by
  have hr := read_write_self s.opregion OpField.pwmDutycyle.offset (leBytes 2 v)
  rw [length_leBytes] at hr
  unfold HostComm.setPwmDutycyle HostComm.pwmDutycyle
  simp only
  rw [hr, ofLe_leBytes h]

/-- **A duty cycle of the host arrives.** -/
theorem pwmDutycyle_receive (heciSend : Bool) (w : PwmWrite) (s : HostComm) :
    (receiveMessage heciSend w.message s).pwmDutycyle = w.duty := by
  have hfits : Fits OpField.pwmDutycyle.offset 2 := by
    unfold Fits
    decide
  obtain ⟨-, hfit, -⟩ := @receiveMessage_write heciSend w.message s w.isWrite
  rw [w.offset_eq, w.length_eq] at hfit
  have hread := read_write_self (checkEventsConfigRequest (s.fill w.message)).opregion
    OpField.pwmDutycyle.offset (read (s.fill w.message).rxData 0 2)
  rw [length_read] at hread
  unfold HostComm.pwmDutycyle PwmWrite.duty
  rw [hfit hfits, hread]
  refine congrArg ofLe ?_
  have hrx := read_write_self s.rxData 0 w.message.payload
  rw [← take_read (s.fill w.message).rxData 0 w.payload_ge]
  exact congrArg (List.take 2) hrx

/-! ### The invariant -/

/-- At most one entry waits, and then what the host wrote last has been put away. -/
structure FanInv (x : FanSys) : Prop where
  one : x.pending ≤ 1
  bound : x.platform.ecliteFanSpeed < 2 ^ 16
  ok : FanOk x
  saved : 0 < x.pending → ∀ d, x.written = some d → x.platform.ecliteFanSpeed = d

theorem fanInv_init {x : FanSys} (h : FanInit x) : FanInv x := by
  have hp : x.pending = 0 := by
    unfold FanSys.pending
    rw [h.sxPending, h.s0ixPending]
  have hw : ∀ d, x.written ≠ some d := fun d hd => by
    rw [h.written] at hd
    cases hd
  refine ⟨by omega, by rw [h.ecliteFanSpeed]; decide, ⟨fun _ d hd => absurd hd (hw d), ?_⟩, ?_⟩
  · intro h0
    omega
  · intro h0
    omega

/-- An entry when none waits. -/
theorem FanInv.fanOff {x x' : FanSys} (h : FanInv x) (hp : x.pending = 0) (hp' : x'.pending = 1)
    (hspeed : x'.platform.ecliteFanSpeed = x.platform.fanOff.ecliteFanSpeed)
    (hcomm : x'.platform.comm = x.platform.fanOff.comm) (hw : x'.written = x.written) :
    FanInv x' := by
  have hzero : x'.platform.comm.pwmDutycyle = 0 := by
    rw [hcomm]
    exact pwmDutycyle_set _ (by decide)
  refine ⟨by omega, ?_, ⟨fun h0 => by omega, fun _ => hzero⟩, fun _ d hd => ?_⟩
  · rw [hspeed]
    exact pwmDutycyle_lt _
  · rw [hspeed]
    exact h.ok.awake hp d (hw ▸ hd)

/-- The exit of the entry that waits. -/
theorem FanInv.fanOn {x x' : FanSys} (h : FanInv x) (hp : 0 < x.pending) (hp' : x'.pending = 0)
    (hspeed : x'.platform.ecliteFanSpeed = x.platform.ecliteFanSpeed)
    (hcomm : x'.platform.comm = x.platform.fanOn.comm) (hw : x'.written = x.written) :
    FanInv x' := by
  refine ⟨by omega, by rw [hspeed]; exact h.bound, ⟨fun _ d hd => ?_, fun h0 => by omega⟩,
    fun h0 => by omega⟩
  rw [hcomm]
  exact (pwmDutycyle_set _ h.bound).trans (h.saved hp d (hw ▸ hd))

/-- A step that leaves the fan alone. -/
theorem FanInv.other {x x' : FanSys} (h : FanInv x) (hp : x'.pending = x.pending)
    (hspeed : x'.platform.ecliteFanSpeed = x.platform.ecliteFanSpeed)
    (hpwm : x'.platform.comm.pwmDutycyle = x.platform.comm.pwmDutycyle)
    (hw : x'.written = x.written) : FanInv x' := by
  obtain ⟨hone, hbound, ⟨hawake, hasleep⟩, hsaved⟩ := h
  rw [← hp] at hone hawake hasleep hsaved
  rw [← hspeed] at hbound hsaved
  rw [← hpwm] at hawake hasleep
  rw [← hw] at hawake hsaved
  exact ⟨hone, hbound, ⟨hawake, hasleep⟩, hsaved⟩

/-- **Every disciplined step keeps the invariant.** -/
theorem fanInv_step (x : FanSys) (l : FanEvent) (x' : FanSys) (h : FanInv x)
    (hd : FanDiscipline x l) (hstep : fanStep l x = some x') : FanInv x' := by
  have hone := h.one
  cases l with
  | pwmWrite heciSend w =>
      have hp : x.pending = 0 := hd
      cases hstep
      refine ⟨h.one, h.bound, ⟨fun _ d hw => ?_, fun h0 => ?_⟩, fun h0 => ?_⟩
      · cases hw
        exact pwmDutycyle_receive heciSend w x.platform.comm
      · exact absurd hp (Nat.pos_iff_ne_zero.1 h0)
      · exact absurd hp (Nat.pos_iff_ne_zero.1 h0)
  | connect id =>
      cases hstep
      exact h.other rfl rfl rfl rfl
  | disconnect ok =>
      cases hstep
      cases ok with
      | true => exact h.other rfl rfl rfl rfl
      | false => exact h.other rfl rfl rfl rfl
  | sx event resetPrep =>
      cases hstep
      cases event with
      | entry =>
          obtain ⟨hp, hc⟩ := hd
          refine h.fanOff hp ?_ ?_ ?_ rfl
          · unfold FanSys.pending at hp ⊢
            simp only [Transition.count]
            omega
          · simp only [sxCallback, if_pos hc]
          · simp only [sxCallback, if_pos hc]
      | exit =>
          obtain ⟨hp, hc⟩ := hd
          refine h.fanOn (Nat.lt_of_lt_of_le hp (Nat.le_add_right _ _)) ?_ ?_ ?_ rfl
          · unfold FanSys.pending at hone ⊢
            simp only [Transition.count]
            omega
          · simp only [sxCallback, if_pos hc]
            rfl
          · simp only [sxCallback, if_pos hc]
  | s0ix event =>
      cases hstep
      cases event with
      | entry =>
          obtain ⟨hp, hc, hconn⟩ := hd
          refine h.fanOff hp ?_ ?_ ?_ rfl
          · unfold FanSys.pending at hp ⊢
            simp only [Transition.count]
            omega
          · simp only [s0ixCallback, if_neg hconn, if_pos hc]
          · simp only [s0ixCallback, if_neg hconn, if_pos hc]
      | exit =>
          obtain ⟨hp, hc, hconn⟩ := hd
          refine h.fanOn (Nat.lt_of_lt_of_le hp (Nat.le_add_left _ _)) ?_ ?_ ?_ rfl
          · unfold FanSys.pending at hone ⊢
            simp only [Transition.count]
            omega
          · simp only [s0ixCallback, if_neg hconn, if_pos hc]
            rfl
          · simp only [s0ixCallback, if_neg hconn, if_pos hc]

/-- **The setting survives in every disciplined run.** -/
theorem fanOk_of_disciplined {x : FanSys} (h : Lts.Reach FanInit fanStep FanDiscipline x) :
    FanOk x :=
  (Lts.Reach.invariant (fun _ => fanInv_init) fanInv_step h).ok

/-- A platform with a connection, and the fan at rest. -/
def connectedPlatform : Platform where
  comm := eventsOn
  ecliteFanSpeed := 0
  cpuThermalEnable := true
  ecliteS0ixState := false
  ecliteSxState := 0
  dispatcherTimer := true
  posted := []

/-- The start of a run. -/
def connectedSys : FanSys := ⟨connectedPlatform, none, 0, 0⟩

theorem fanInit_connectedSys : FanInit connectedSys := ⟨rfl, rfl, rfl, rfl⟩

/-- The host sets the duty cycle to fifty. -/
def pwmFifty : PwmWrite where
  message := ⟨⟨0, 1, 2, 328, 2, 0x0F⟩, [50, 0], by decide⟩
  isWrite := ⟨rfl, rfl⟩
  offset_eq := by decide
  length_eq := rfl
  payload_ge := le_rfl

/-- The state after a list of events. -/
def fanRun (ls : List FanEvent) : FanSys := (Lts.run fanStep connectedSys ls).getD connectedSys

/-- The host sets the fan, goes through S0ix, and has its setting back. -/
theorem fanOk_awake_again :
    Lts.Reach FanInit fanStep FanDiscipline
        (fanRun [.pwmWrite true pwmFifty, .s0ix .entry, .s0ix .exit]) ∧
      FanOk (fanRun [.pwmWrite true pwmFifty, .s0ix .entry, .s0ix .exit]) := by
  have h0 : Lts.Reach FanInit fanStep FanDiscipline connectedSys :=
    Lts.Reach.init fanInit_connectedSys
  have h1 : Lts.Reach FanInit fanStep FanDiscipline (fanRun [.pwmWrite true pwmFifty]) :=
    Lts.Reach.step h0 (l := .pwmWrite true pwmFifty) rfl rfl
  have h2 : Lts.Reach FanInit fanStep FanDiscipline
      (fanRun [.pwmWrite true pwmFifty, .s0ix .entry]) :=
    Lts.Reach.step h1 (l := .s0ix .entry) ⟨rfl, rfl, nofun⟩ rfl
  have h3 : Lts.Reach FanInit fanStep FanDiscipline
      (fanRun [.pwmWrite true pwmFifty, .s0ix .entry, .s0ix .exit]) :=
    Lts.Reach.step h2 (l := .s0ix .exit) ⟨Nat.one_pos, rfl, nofun⟩ rfl
  exact ⟨h3, fanOk_of_disciplined h3⟩

/-- Sx inside S0ix: every entry has its exit, and the fan is off. -/
theorem not_fanOk_nested :
    ¬ ∀ x, Lts.Reach FanInit fanStep Lts.Free x → FanOk x := by
  intro h
  obtain ⟨x, hx, hpend, hwritten, hpwm⟩ : ∃ x, Lts.Reach FanInit fanStep Lts.Free x ∧
      x.pending = 0 ∧ x.written = some 50 ∧ x.platform.comm.pwmDutycyle = 0 :=
    Lts.exists_reach fanInit_connectedSys
      [.pwmWrite true pwmFifty, .s0ix .entry, .sx .entry none, .sx .exit none, .s0ix .exit] _
      (by decide)
  have hok := (h x hx).awake hpend 50 hwritten
  rw [hpwm] at hok
  cases hok

end PseFw.Eclite
