/-
**The wake-on-LAN service.**

The interrupt of a network port links the node of the port into the fifo of the service, and the
thread takes the nodes and raises a PME for each of them.  There is one node for each port, so a
node must not be linked while it is in the fifo: a flag of the port says that it is, the interrupt
looks at the flag, and the thread clears it after the PME.  Neither of the two is atomic, and the
interrupts of the two ports may run at any point of the thread and of one another.

An interrupt that finds the flag set is dropped.  That is right while the PME is still to come; but
the thread clears the flag after the PME, and an interrupt between the two is lost.

Main definitions:

* `PseFw.Wol.wolConfig` — the configuration of the service;
* `PseFw.Wol.wolStep` — the two interrupts, the D3 notifications and the thread, step by step;
* `PseFw.Wol.WolOk` — the fifo is intact, and the PMEs are those of the interrupts;
* `PseFw.Wol.Drained` — every PME is raised and the service waits for the next interrupt.

Main results:

* `PseFw.Wol.wolConfig_orphan_iff` — when a port is set up and no thread serves it;
* `PseFw.Wol.wolOk_of_reachable` — **safety, for every interleaving**;
* `PseFw.Wol.wol_drains` — **the thread raises every PME that was asked for.**
-/

import Mathlib.Data.List.Count
import PseFw.Lib.LinkedQueue
import PseFw.Lib.Transition

set_option relaxedAutoImplicit false
set_option autoImplicit false

namespace PseFw.Wol

/-! ### The configuration -/

/-- The two network ports; also the two indices of `data` and of `pme_assert_in_progress`. -/
inductive GbePort
  | gbe0
  | gbe1
  deriving DecidableEq, Repr

/-- **The configuration, and what the drivers answer at start.** -/
structure WolPlatform where
  /-- `GBE0_PCI_FUNC_INDEX` and `GBE1_PCI_FUNC_INDEX`. -/
  pci : GbePort → UInt32
  pci_ne : pci .gbe0 ≠ pci .gbe1
  /-- `SEDI_CONFIG_WOL_EN` is set. -/
  wolEn : Bool
  /-- `CONFIG_GBE0_WOL_SERVICE` and `CONFIG_GBE1_WOL_SERVICE`. -/
  service : GbePort → Bool
  /-- `device_get_binding` finds the GPIO device of the port. -/
  bound : GbePort → Bool
  /-- `sedi_get_dev_ownership` says neither `DEV_PSE_OWNED` nor `DEV_NO_OWNER`. -/
  hostOwned : GbePort → Bool
  gpioPinConfigure : GbePort → ℤ
  gpioAddCallback : GbePort → ℤ
  registerD3Notification : GbePort → ℤ
  /-- `CONFIG_GPIO_INT_DIS_ON_D3_EXIT`. -/
  disOnD3Exit : Bool

/-- What `wol_config` leaves behind: the ports whose callbacks are registered, and whether
`wol_init` made the fifo and the thread. -/
structure WolSetup where
  registered : GbePort → Bool
  started : Bool

/-- `config_gpio`: every step went well. -/
def configGpio (P : WolPlatform) (p : GbePort) : Bool :=
  P.hostOwned p && P.gpioPinConfigure p == 0 && P.gpioAddCallback p == 0 &&
    P.registerD3Notification p == 0

/-- The block of a port in `wol_config`; an error is its `return`. -/
def wolConfigPort (P : WolPlatform) (p : GbePort) (registered : GbePort → Bool) :
    Except (GbePort → Bool) (GbePort → Bool) :=
  if P.service p = false then .ok registered
  else if P.bound p = false then .error registered
  else .ok (Function.update registered p (configGpio P p))

/-- **`wol_config`.** -/
def wolConfig (P : WolPlatform) : WolSetup :=
  if P.wolEn = false then ⟨fun _ => false, false⟩
  else
    match wolConfigPort P .gbe0 fun _ => false with
    | .error registered => ⟨registered, false⟩
    | .ok registered =>
        match wolConfigPort P .gbe1 registered with
        | .error registered => ⟨registered, false⟩
        | .ok registered => ⟨registered, true⟩

/-- **A port that no thread serves**: the callbacks of the first port are registered when the device
of the second one turns out to be missing. -/
theorem wolConfig_orphan_iff (P : WolPlatform) (p : GbePort) :
    (wolConfig P).registered p = true ∧ (wolConfig P).started = false ↔
      p = .gbe0 ∧ P.wolEn = true ∧ P.service .gbe0 = true ∧ P.bound .gbe0 = true ∧
        configGpio P .gbe0 = true ∧ P.service .gbe1 = true ∧ P.bound .gbe1 = false := by
  unfold wolConfig wolConfigPort
  cases p <;> cases P.wolEn <;> cases P.service .gbe0 <;> cases P.bound .gbe0 <;>
    cases P.service .gbe1 <;> cases P.bound .gbe1 <;> simp [Function.update]

/-! ### The service -/

/-- Where the interrupt of a port is in `submit_wol_fifo_data`. -/
inductive IsrPc
  | idle
  /-- Before `data[idx].pci_fun` is written. -/
  | write
  /-- Before the flag is looked at. -/
  | test
  /-- Before the flag is set. -/
  | set
  /-- Before `k_fifo_put`. -/
  | put
  deriving DecidableEq, Repr

/-- Where the thread is in `wol_assert_pme`. -/
inductive WolPc
  /-- In `k_fifo_get`. -/
  | get
  /-- Before `sedi_pm_trigger_pme`. -/
  | trigger (rxData : GbePort)
  /-- Before `idx` is found. -/
  | index (rxData : GbePort)
  /-- Before the flag is cleared. -/
  | clear (idx : GbePort)
  deriving DecidableEq, Repr

/-- **The service**, and what was done so far. -/
structure WolSys where
  wolFifo : LinkedQueue GbePort
  /-- `data[idx].pci_fun`. -/
  pciFun : GbePort → UInt32
  pmeAssertInProgress : GbePort → Bool
  /-- The GPIO interrupt of the port is enabled. -/
  intEnabled : GbePort → Bool
  /-- The GPIO pin of the port is a wake source. -/
  wakeSource : GbePort → Bool
  isr : GbePort → IsrPc
  thread : WolPc
  /-- The ports whose node was put into the fifo, in this order. -/
  accepted : List GbePort
  /-- The functions a PME was raised for, in this order. -/
  pmes : List UInt32
  /-- The host put the port into D3 at some time. -/
  enteredD3 : GbePort → Bool

/-- The state after `wol_config`. -/
def WolSys.start : WolSys where
  wolFifo := LinkedQueue.empty
  pciFun _ := 0
  pmeAssertInProgress _ := false
  intEnabled _ := false
  wakeSource _ := false
  isr _ := .idle
  thread := .get
  accepted := []
  pmes := []
  enteredD3 _ := false

/-- `idx`, from a PCI function. -/
def idxOf (P : WolPlatform) (pci : UInt32) : GbePort := if pci = P.pci .gbe1 then .gbe1 else .gbe0

/-- `gbe_d3_notification`; the context of a registered port has its device. -/
def gbeD3Notification (P : WolPlatform) (p : GbePort) (entry : Bool) (s : WolSys) : WolSys :=
  if entry then
    { s with
      intEnabled := Function.update s.intEnabled p true
      wakeSource := Function.update s.wakeSource p true
      enteredD3 := Function.update s.enteredD3 p true }
  else if P.disOnD3Exit then
    { s with
      intEnabled := Function.update s.intEnabled p false
      wakeSource := Function.update s.wakeSource p false }
  else s

/-- The next step of the interrupt of a port: `submit_wol_fifo_data(pci)`. -/
def isrNext (P : WolPlatform) (p : GbePort) (s : WolSys) : Option WolSys :=
  let idx := idxOf P (P.pci p)
  match s.isr p with
  | .idle => none
  | .write => some { s with
      pciFun := Function.update s.pciFun idx (P.pci p)
      isr := Function.update s.isr p .test }
  | .test =>
      if s.pmeAssertInProgress idx = false then
        some { s with isr := Function.update s.isr p .set }
      else some { s with isr := Function.update s.isr p .idle }
  | .set => some { s with
      pmeAssertInProgress := Function.update s.pmeAssertInProgress idx true
      isr := Function.update s.isr p .put }
  | .put =>
      -- the fifo exists only after `wol_init`
      if (wolConfig P).started then
        some { s with
          wolFifo := s.wolFifo.append idx
          accepted := s.accepted ++ [idx]
          isr := Function.update s.isr p .idle }
      else none

/-- The next step of the thread: `wol_assert_pme`. -/
def threadNext (P : WolPlatform) (s : WolSys) : Option WolSys :=
  match s.thread with
  | .get => s.wolFifo.get.map fun r => { s with wolFifo := r.2, thread := .trigger r.1 }
  | .trigger rxData => some { s with
      pmes := s.pmes ++ [s.pciFun rxData]
      thread := .index rxData }
  | .index rxData => some { s with thread := .clear (idxOf P (s.pciFun rxData)) }
  | .clear idx => some { s with
      pmeAssertInProgress := Function.update s.pmeAssertInProgress idx false
      thread := .get }

/-- What can happen. -/
inductive WolLabel
  /-- The host moves the port into D3, or out of it. -/
  | d3 (p : GbePort) (entry : Bool)
  /-- The interrupt of the port starts. -/
  | irq (p : GbePort)
  /-- The interrupt of the port goes on. -/
  | isr (p : GbePort)
  | thread
  deriving DecidableEq, Repr

/-- **One step of the service.** -/
def wolStep (P : WolPlatform) : WolLabel → WolSys → Option WolSys
  | .d3 p entry, s =>
      if (wolConfig P).registered p then some (gbeD3Notification P p entry s) else none
  | .irq p, s =>
      if s.intEnabled p = true ∧ s.isr p = .idle then
        some { s with isr := Function.update s.isr p .write }
      else none
  | .isr p, s => isrNext P p s
  | .thread, s => if (wolConfig P).started then threadNext P s else none

/-- The service starts. -/
def WolInit (s : WolSys) : Prop := s = .start

/-- **The states of the service, in any order of the steps.** -/
def Reachable (P : WolPlatform) (s : WolSys) : Prop := Lts.Reach WolInit (wolStep P) Lts.Free s

/-! ### What holds between any two steps -/

variable {P : WolPlatform} {s s' : WolSys} {p q : GbePort} {nodes : List GbePort}

/-- The node of a port is the one at the index of its function. -/
@[simp] theorem idxOf_pci (P : WolPlatform) (p : GbePort) : idxOf P (P.pci p) = p := by
  cases p with
  | gbe0 => exact if_neg P.pci_ne
  | gbe1 => exact if_pos rfl

/-- The two ports have different functions. -/
theorem pci_inj (h : P.pci p = P.pci q) : p = q := by
  rw [← idxOf_pci P p, h, idxOf_pci]

/-- The node the thread has taken, whose PME it has not raised. -/
def WolPc.inHand : WolPc → List GbePort
  | .trigger rxData => [rxData]
  | _ => []

/-- The port whose PME is raised and whose flag is not cleared. -/
def WolPc.window : WolPc → List GbePort
  | .index rxData => [rxData]
  | .clear idx => [idx]
  | _ => []

/-- The interrupt is about to put its node. -/
def IsrPc.Claims : IsrPc → Prop
  | .set => True
  | .put => True
  | _ => False

/-- The nodes that are not free, when the fifo holds `nodes`. -/
def WolSys.busy (s : WolSys) (nodes : List GbePort) : List GbePort :=
  s.thread.window ++ s.thread.inHand ++ nodes

/-- **The invariant**, for a fifo that holds `nodes`. -/
structure WolInv (P : WolPlatform) (s : WolSys) (nodes : List GbePort) : Prop where
  fifo : s.wolFifo.Holds nodes
  single : (s.busy nodes).Nodup
  /-- Who is about to put a node found it free. -/
  claims : ∀ p, (s.isr p).Claims → p ∉ s.busy nodes
  flag : ∀ p, s.pmeAssertInProgress p = true ↔ s.isr p = .put ∨ p ∈ s.busy nodes
  /-- A node on its way names its port. -/
  own : ∀ p, (s.isr p).Claims ∨ s.isr p = .test ∨ p ∈ s.busy nodes → s.pciFun p = P.pci p
  done : s.accepted.map P.pci = s.pmes ++ (s.thread.inHand ++ nodes).map P.pci
  gated : ∀ p, s.isr p ≠ .idle ∨ p ∈ s.accepted ∨ s.intEnabled p = true → s.enteredD3 p = true

theorem wolInv_start (P : WolPlatform) : WolInv P .start [] where
  fifo := LinkedQueue.holds_empty
  single := List.nodup_nil
  claims p hp := hp.elim
  flag p := by simp [WolSys.start, WolSys.busy, WolPc.window, WolPc.inHand]
  own p hp := by simp [WolSys.start, WolSys.busy, WolPc.window, WolPc.inHand, IsrPc.Claims] at hp
  done := rfl
  gated p hp := by simp [WolSys.start] at hp

/-- An interrupt that goes on, and does nothing else yet. -/
theorem WolInv.goOn (h : WolInv P s nodes) {a : IsrPc} (hput : s.isr p ≠ .put) (ha : a ≠ .put)
    (hclaims : a.Claims → p ∉ s.busy nodes)
    (hown : a.Claims ∨ a = .test → s.pciFun p = P.pci p) (hd3 : s.enteredD3 p = true) :
    WolInv P { s with isr := Function.update s.isr p a } nodes where
  fifo := h.fifo
  single := h.single
  claims q hq := by
    dsimp only at hq
    by_cases hpq : q = p
    · subst hpq
      rw [Function.update_self] at hq
      exact hclaims hq
    · rw [Function.update_of_ne hpq] at hq
      exact h.claims q hq
  flag q := by
    refine (h.flag q).trans (or_congr_left ?_)
    dsimp only
    by_cases hpq : q = p
    · subst hpq
      rw [Function.update_self]
      exact iff_of_false hput ha
    · rw [Function.update_of_ne hpq]
  own q hq := by
    dsimp only at hq
    by_cases hpq : q = p
    · subst hpq
      rw [Function.update_self] at hq
      rcases hq with hq | hq | hq
      · exact hown (Or.inl hq)
      · exact hown (Or.inr hq)
      · exact h.own q (Or.inr (Or.inr hq))
    · rw [Function.update_of_ne hpq] at hq
      exact h.own q hq
  done := h.done
  gated q hq := by
    dsimp only at hq
    by_cases hpq : q = p
    · exact hpq ▸ hd3
    · rw [Function.update_of_ne hpq] at hq
      exact h.gated q hq

/-- **The interrupt keeps the invariant.** -/
theorem WolInv.isrNext (h : WolInv P s nodes) (hst : isrNext P p s = some s') :
    ∃ nodes', WolInv P s' nodes' := by
  have hd3 : s.isr p ≠ .idle → s.enteredD3 p = true := fun hp => h.gated p (Or.inl hp)
  cases hpc : s.isr p with
  | idle =>
      simp only [Wol.isrNext, hpc] at hst
      cases hst
  | write =>
      simp only [Wol.isrNext, hpc, idxOf_pci, Option.some.injEq] at hst
      subst hst
      -- the function is written first, then the interrupt goes on
      have hw : WolInv P { s with pciFun := Function.update s.pciFun p (P.pci p) } nodes := by
        refine ⟨h.fifo, h.single, h.claims, h.flag, fun q hq => ?_, h.done, h.gated⟩
        by_cases hpq : q = p
        · subst hpq
          exact Function.update_self ..
        · exact (Function.update_of_ne hpq ..).trans (h.own q hq)
      refine ⟨nodes, hw.goOn (by simp [hpc]) nofun (fun hc => hc.elim) (fun _ => ?_)
        (hd3 (by simp [hpc]))⟩
      exact Function.update_self ..
  | test =>
      simp only [Wol.isrNext, hpc, idxOf_pci] at hst
      have hput : s.isr p ≠ .put := by simp [hpc]
      have hnidle : s.enteredD3 p = true := hd3 (by simp [hpc])
      by_cases hflag : s.pmeAssertInProgress p = false
      · rw [if_pos hflag, Option.some.injEq] at hst
        subst hst
        have hfree : p ∉ s.busy nodes := fun hp => by
          rw [(h.flag p).2 (Or.inr hp)] at hflag
          cases hflag
        exact ⟨nodes, h.goOn hput nofun (fun _ => hfree)
          (fun _ => h.own p (Or.inr (Or.inl hpc))) hnidle⟩
      · rw [if_neg hflag, Option.some.injEq] at hst
        subst hst
        refine ⟨nodes, h.goOn hput nofun (fun hc => hc.elim) (fun hc => ?_) hnidle⟩
        rcases hc with hc | hc
        · exact hc.elim
        · cases hc
  | set =>
      simp only [Wol.isrNext, hpc, idxOf_pci, Option.some.injEq] at hst
      subst hst
      have hclaim : (s.isr p).Claims := by rw [hpc]; trivial
      refine ⟨nodes, h.fifo, h.single, fun q hq => ?_, fun q => ?_, fun q hq => ?_, h.done,
        fun q hq => ?_⟩ <;> dsimp only at *
      · by_cases hpq : q = p
        · exact hpq ▸ h.claims p hclaim
        · rw [Function.update_of_ne hpq] at hq
          exact h.claims q hq
      · by_cases hpq : q = p
        · subst hpq
          simp only [Function.update_self, true_or]
        · rw [Function.update_of_ne hpq, Function.update_of_ne hpq]
          exact h.flag q
      · by_cases hpq : q = p
        · exact hpq ▸ h.own p (Or.inl hclaim)
        · rw [Function.update_of_ne hpq] at hq
          exact h.own q hq
      · by_cases hpq : q = p
        · exact hpq ▸ hd3 (by simp [hpc])
        · rw [Function.update_of_ne hpq] at hq
          exact h.gated q hq
  | put =>
      simp only [Wol.isrNext, hpc, idxOf_pci] at hst
      obtain ⟨-, hst⟩ := Option.ite_none_right_eq_some.1 hst
      obtain rfl := Option.some.inj hst
      have hclaim : (s.isr p).Claims := by rw [hpc]; trivial
      have hfree := h.claims p hclaim
      have hbusy : ∀ q, q ∈ s.busy (nodes ++ [p]) ↔ q ∈ s.busy nodes ∨ q = p := by
        intro q
        simp only [WolSys.busy, List.mem_append, List.mem_singleton, or_assoc]
      refine ⟨nodes ++ [p], h.fifo.append fun hp => hfree (List.mem_append_right _ hp), ?_,
        fun q hq => ?_, fun q => ?_, fun q hq => ?_, ?_, fun q hq => ?_⟩
      · have happ : s.busy (nodes ++ [p]) = s.busy nodes ++ [p] := (List.append_assoc ..).symm
        change (s.busy (nodes ++ [p])).Nodup
        rw [happ]
        refine h.single.append (List.nodup_singleton p) fun a ha hp => hfree ?_
        rwa [← List.mem_singleton.1 hp]
      · change q ∉ s.busy (nodes ++ [p])
        dsimp only at hq
        by_cases hpq : q = p
        · subst hpq
          rw [Function.update_self] at hq
          exact hq.elim
        · rw [Function.update_of_ne hpq] at hq
          rw [hbusy, not_or]
          exact ⟨h.claims q hq, hpq⟩
      · change _ ↔ _ ∨ q ∈ s.busy (nodes ++ [p])
        rw [hbusy, h.flag q]
        by_cases hpq : q = p
        · subst hpq
          simp [hpc]
        · simp [hpq]
      · change _ ∨ _ ∨ q ∈ s.busy (nodes ++ [p]) at hq
        dsimp only at hq
        by_cases hpq : q = p
        · exact hpq ▸ h.own p (Or.inl hclaim)
        · rw [Function.update_of_ne hpq, hbusy] at hq
          exact h.own q (hq.imp_right (Or.imp_right fun hq => hq.resolve_right hpq))
      · change (s.accepted ++ [p]).map P.pci = _
        rw [List.map_append, h.done, List.append_assoc, ← List.map_append, List.append_assoc]
      · dsimp only at hq
        by_cases hpq : q = p
        · exact hpq ▸ hd3 (by simp [hpc])
        · rw [Function.update_of_ne hpq, List.mem_append, List.mem_singleton,
            or_iff_left hpq] at hq
          exact h.gated q hq

/-- **The thread keeps the invariant.** -/
theorem WolInv.threadNext (h : WolInv P s nodes) (hst : threadNext P s = some s') :
    ∃ nodes', WolInv P s' nodes' := by
  obtain ⟨hfifo, hsingle, hclaims, hflag, hown, hdone, hgated⟩ := h
  cases hpc : s.thread with
  | get =>
      simp only [Wol.threadNext, hpc] at hst
      obtain ⟨r, hr, rfl⟩ := Option.map_eq_some_iff.1 hst
      cases nodes with
      | nil => rw [hfifo.get_nil] at hr; cases hr
      | cons n nodes =>
          obtain ⟨q', hget, hrest⟩ := hfifo.get
          obtain rfl := Option.some.inj (hr.symm.trans hget)
          simp only [WolSys.busy, hpc, WolPc.window,
            WolPc.inHand] at hsingle hclaims hflag hown hdone
          exact ⟨nodes, hrest, hsingle, hclaims, hflag, hown, hdone, hgated⟩
  | trigger n =>
      simp only [Wol.threadNext, hpc, Option.some.injEq] at hst
      subst hst
      simp only [WolSys.busy, hpc, WolPc.window, WolPc.inHand] at hsingle hclaims hflag hown hdone
      have hn : s.pciFun n = P.pci n := hown n (Or.inr (Or.inr List.mem_cons_self))
      refine ⟨nodes, hfifo, hsingle, hclaims, hflag, hown, ?_, hgated⟩
      change _ = s.pmes ++ [s.pciFun n] ++ _
      rw [hdone, hn, List.append_assoc]
      rfl
  | index n =>
      simp only [Wol.threadNext, hpc, Option.some.injEq] at hst
      subst hst
      simp only [WolSys.busy, hpc, WolPc.window, WolPc.inHand] at hsingle hclaims hflag hown hdone
      have hn : idxOf P (s.pciFun n) = n := by
        rw [hown n (Or.inr (Or.inr List.mem_cons_self)), idxOf_pci]
      rw [hn]
      exact ⟨nodes, hfifo, hsingle, hclaims, hflag, hown, hdone, hgated⟩
  | clear i =>
      simp only [Wol.threadNext, hpc, Option.some.injEq] at hst
      subst hst
      simp only [WolSys.busy, hpc, WolPc.window, WolPc.inHand] at hsingle hclaims hflag hown hdone
      have hi : i ∉ nodes := (List.nodup_cons.1 hsingle).1
      refine ⟨nodes, hfifo, (List.nodup_cons.1 hsingle).2,
        fun q hq hmem => hclaims q hq (List.mem_cons_of_mem _ hmem), fun q => ?_,
        fun q hq => hown q (hq.imp_right (Or.imp_right (List.mem_cons_of_mem _))), hdone, hgated⟩
      change Function.update s.pmeAssertInProgress i false q = true ↔ _ ∨ q ∈ nodes
      by_cases hiq : q = i
      · subst hiq
        have hput : s.isr q ≠ .put := fun hp =>
          hclaims q (by rw [hp]; trivial) List.mem_cons_self
        simp [hput, hi]
      · rw [Function.update_of_ne hiq, hflag q]
        simp [hiq]

/-- **Every step keeps the invariant.** -/
theorem WolInv.step {l : WolLabel} (h : WolInv P s nodes) (hst : wolStep P l s = some s') :
    ∃ nodes', WolInv P s' nodes' := by
  cases l with
  | d3 p entry =>
      obtain ⟨-, hst⟩ := Option.ite_none_right_eq_some.1 hst
      obtain rfl := Option.some.inj hst
      refine ⟨nodes, ?_⟩
      unfold gbeD3Notification
      split
      · refine ⟨h.fifo, h.single, h.claims, h.flag, h.own, h.done, fun q hq => ?_⟩
        dsimp only at hq ⊢
        by_cases hpq : q = p
        · rw [hpq, Function.update_self]
        · rw [Function.update_of_ne hpq] at hq ⊢
          exact h.gated q hq
      · split
        · refine ⟨h.fifo, h.single, h.claims, h.flag, h.own, h.done, fun q hq => ?_⟩
          dsimp only at hq
          refine h.gated q (hq.imp_right (Or.imp_right fun hq => ?_))
          by_cases hpq : q = p
          · rw [hpq, Function.update_self] at hq
            cases hq
          · rwa [Function.update_of_ne hpq] at hq
        · exact h
  | irq p =>
      obtain ⟨⟨hen, hidle⟩, hst⟩ := Option.ite_none_right_eq_some.1 hst
      obtain rfl := Option.some.inj hst
      refine ⟨nodes, h.goOn (by simp [hidle]) nofun (fun hc => hc.elim) (fun hc => ?_)
        (h.gated p (Or.inr (Or.inr hen)))⟩
      rcases hc with hc | hc
      · exact hc.elim
      · cases hc
  | isr p => exact h.isrNext hst
  | thread =>
      obtain ⟨-, hst⟩ := Option.ite_none_right_eq_some.1 hst
      exact h.threadNext hst

/-- **The invariant holds in every state.** -/
theorem wolInv_of_reachable (h : Reachable P s) : ∃ nodes, WolInv P s nodes := by
  refine h.invariant (I := fun s => ∃ nodes, WolInv P s nodes) ?_ ?_
  · rintro s hs
    rw [hs]
    exact ⟨[], wolInv_start P⟩
  · rintro s l s' ⟨nodes, hs⟩ - hst
    exact hs.step hst

/-! ### Safety -/

/-- **What the service promises**: the fifo is a finite list of different nodes; the PMEs are those
of the interrupts that were accepted, one for each, in their order and for the function of their own
port, with at most one for each port still to come; no port wakes the host that was not in D3; and
when an interrupt is dropped, a PME of its port is still to come, or the thread has raised it and
not yet cleared the flag. -/
structure WolOk (P : WolPlatform) (s : WolSys) : Prop where
  fifo : ∃ nodes, s.wolFifo.Holds nodes ∧
    s.accepted.map P.pci = s.pmes ++ (s.thread.inHand ++ nodes).map P.pci
  single : ∀ p, s.accepted.count p ≤ s.pmes.count (P.pci p) + 1
  gated : ∀ p, P.pci p ∈ s.pmes → s.enteredD3 p = true
  dropped : ∀ p, s.isr p = .test → s.pmeAssertInProgress p = true →
    s.accepted.count p = s.pmes.count (P.pci p) + 1 ∨ p ∈ s.thread.window

/-- The PMEs of a port among all. -/
theorem WolInv.count_accepted (h : WolInv P s nodes) (p : GbePort) :
    s.accepted.count p = s.pmes.count (P.pci p) + (s.thread.inHand ++ nodes).count p := by
  have hinj : Function.Injective P.pci := fun _ _ => pci_inj
  rw [← List.count_map_of_injective _ _ hinj, h.done, List.count_append,
    List.count_map_of_injective _ _ hinj]

/-- **Safety, for every interleaving.** -/
theorem wolOk_of_reachable (h : Reachable P s) : WolOk P s := by
  obtain ⟨nodes, hs⟩ := wolInv_of_reachable h
  have hnodup : (s.thread.inHand ++ nodes).Nodup := by
    have hsingle := hs.single
    rw [WolSys.busy, List.append_assoc] at hsingle
    exact (List.nodup_append.1 hsingle).2.1
  refine ⟨⟨nodes, hs.fifo, hs.done⟩, fun p => ?_, fun p hp => ?_, fun p hpc hflag => ?_⟩
  · have hle := List.nodup_iff_count_le_one.1 hnodup p
    rw [hs.count_accepted p]
    omega
  · have hmem : P.pci p ∈ s.accepted.map P.pci := by
      rw [hs.done]
      exact List.mem_append_left _ hp
    obtain ⟨q, hq, hpq⟩ := List.mem_map.1 hmem
    exact hs.gated p (Or.inr (Or.inl (pci_inj hpq ▸ hq)))
  · rcases (hs.flag p).1 hflag with hput | hbusy
    · rw [hpc] at hput
      cases hput
    · rw [WolSys.busy, List.append_assoc] at hbusy
      rcases List.mem_append.1 hbusy with hwin | hout
      · exact Or.inr hwin
      · left
        rw [hs.count_accepted p, List.count_eq_one_of_mem hnodup hout]

/-! ### The thread -/

/-- **Every PME is raised**: the fifo is empty, the thread waits, and the flags are clear. -/
structure Drained (P : WolPlatform) (s : WolSys) : Prop where
  waits : s.thread = .get ∧ s.wolFifo.get = none
  all : s.pmes = s.accepted.map P.pci
  clear : ∀ p, s.isr p ≠ .put → s.pmeAssertInProgress p = false

/-- The thread moves alone; in an empty fifo it waits. -/
def threadAlone (P : WolPlatform) (s : WolSys) : WolSys := (wolStep P .thread s).getD s

/-- The steps to the next PME. -/
def WolPc.steps : WolPc → ℕ
  | .trigger _ => 0
  | .get => 1
  | .clear _ => 2
  | .index _ => 3

/-- A thread that cannot go on has raised every PME. -/
theorem WolInv.drained (h : WolInv P s nodes) (hst : Wol.threadNext P s = none) : Drained P s := by
  have hpc : s.thread = .get ∧ s.wolFifo.get = none := by
    cases hpc : s.thread with
    | get =>
        simp only [Wol.threadNext, hpc, Option.map_eq_none_iff] at hst
        exact ⟨rfl, hst⟩
    | trigger n => simp only [Wol.threadNext, hpc] at hst; cases hst
    | index n => simp only [Wol.threadNext, hpc] at hst; cases hst
    | clear i => simp only [Wol.threadNext, hpc] at hst; cases hst
  have hnil : nodes = [] := by
    cases nodes with
    | nil => rfl
    | cons n nodes =>
        obtain ⟨q, hget, -⟩ := h.fifo.get
        rw [hget] at hpc
        cases hpc.2
  subst hnil
  refine ⟨hpc, ?_, fun p hp => ?_⟩
  · have hdone := h.done
    rw [hpc.1] at hdone
    simpa [WolPc.inHand] using hdone.symm
  · rw [← Bool.not_eq_true, h.flag p, WolSys.busy, hpc.1]
    simp [WolPc.inHand, WolPc.window, hp]

/-- What the thread does brings the next PME nearer. -/
theorem WolInv.rank_lt (h : WolInv P s nodes) (hst : Wol.threadNext P s = some s') :
    4 * (s'.accepted.length - s'.pmes.length) + s'.thread.steps <
      4 * (s.accepted.length - s.pmes.length) + s.thread.steps := by
  have hlen : s.accepted.length = s.pmes.length + (s.thread.inHand.length + nodes.length) := by
    have hdone := congrArg List.length h.done
    simpa only [List.length_map, List.length_append] using hdone
  cases hpc : s.thread with
  | get =>
      simp only [Wol.threadNext, hpc] at hst
      obtain ⟨r, -, rfl⟩ := Option.map_eq_some_iff.1 hst
      exact Nat.lt_succ_self _
  | trigger n =>
      simp only [Wol.threadNext, hpc, Option.some.injEq] at hst
      subst hst
      simp only [hpc, WolPc.inHand, List.length_singleton] at hlen
      simp only [List.length_append, List.length_singleton, WolPc.steps]
      omega
  | index n =>
      simp only [Wol.threadNext, hpc, Option.some.injEq] at hst
      subst hst
      exact Nat.lt_succ_self _
  | clear i =>
      simp only [Wol.threadNext, hpc, Option.some.injEq] at hst
      subst hst
      exact Nat.lt_succ_self _

/-- **The thread raises every PME that was asked for**: left alone, it empties the fifo, clears the
flags and waits. -/
theorem wol_drains (h : Reachable P s) (hstarted : (wolConfig P).started = true) :
    ∃ N, ∀ k, N ≤ k → Drained P ((threadAlone P)^[k] s) := by
  have hnext : ∀ s, threadAlone P s = (Wol.threadNext P s).getD s := fun s => by
    rw [threadAlone, wolStep, if_pos hstarted]
  have hmove : ∀ s, (∃ nodes, WolInv P s nodes) → ∃ nodes, WolInv P (threadAlone P s) nodes := by
    rintro s ⟨nodes, hs⟩
    rw [hnext]
    cases hst : Wol.threadNext P s with
    | none => exact ⟨nodes, hs⟩
    | some s' => exact hs.threadNext hst
  have hstuck : ∀ s, Drained P s → threadAlone P s = s := by
    intro s hs
    have hnone : Wol.threadNext P s = none := by
      simp only [Wol.threadNext, hs.waits.1, hs.waits.2, Option.map_none]
    rw [hnext, hnone, Option.getD_none]
  have hrank : ∀ s, (∃ nodes, WolInv P s nodes) → ¬ Drained P s →
      4 * ((threadAlone P s).accepted.length - (threadAlone P s).pmes.length) +
        (threadAlone P s).thread.steps <
      4 * (s.accepted.length - s.pmes.length) + s.thread.steps := by
    rintro s ⟨nodes, hs⟩ hnot
    rw [hnext]
    cases hst : Wol.threadNext P s with
    | none => exact absurd (hs.drained hst) hnot
    | some s' => exact hs.rank_lt hst
  obtain ⟨N, hN⟩ := Lts.settles (fun s => 4 * (s.accepted.length - s.pmes.length) + s.thread.steps)
    hmove (fun s _ hs => (hstuck s hs).symm ▸ hs) hrank (wolInv_of_reachable h)
  exact ⟨N, fun k hk => (hN k hk).2⟩

/-! ### An interrupt after the PME -/

/-- Both ports belong to the host, and every driver answers. -/
def WolPlatform.nominal : WolPlatform where
  pci p := if p = .gbe0 then 18 else 19
  pci_ne := by decide
  wolEn := true
  service _ := true
  bound _ := true
  hostOwned _ := true
  gpioPinConfigure _ := 0
  gpioAddCallback _ := 0
  registerD3Notification _ := 0
  disOnD3Exit := true

/-- Both ports raise an interrupt, and the first one again after its PME. -/
def twoPorts : List WolLabel :=
  [.d3 .gbe0 true, .d3 .gbe1 true, .irq .gbe0, .isr .gbe0, .irq .gbe1, .isr .gbe0, .isr .gbe0,
    .isr .gbe1, .isr .gbe0, .thread, .isr .gbe1, .thread, .irq .gbe0, .isr .gbe1, .isr .gbe0,
    .isr .gbe1]

/-- What a run establishes holds in some reachable state. -/
theorem exists_reachable (P : WolPlatform) (ls : List WolLabel) (p : WolSys → Prop)
    [DecidablePred p]
    (h : (Lts.run (wolStep P) .start ls).any (fun s => decide (p s)) = true) :
    ∃ s, Reachable P s ∧ p s := by
  have hinit : WolInit .start := rfl
  exact Lts.exists_reach hinit ls p h

/-- **An interrupt in the window is lost**: the PME of the first port was raised, the port asks
again and is refused. -/
theorem wolOk_twoPorts : ∃ s, Reachable .nominal s ∧
    (s.isr .gbe0 = .test ∧ s.pmeAssertInProgress .gbe0 = true ∧ s.pmes = [18] ∧
      s.accepted = [.gbe0, .gbe1]) ∧ WolOk .nominal s := by
  obtain ⟨s, hs, hp⟩ := exists_reachable .nominal twoPorts
    (fun s => s.isr .gbe0 = .test ∧ s.pmeAssertInProgress .gbe0 = true ∧ s.pmes = [18] ∧
      s.accepted = [.gbe0, .gbe1]) (by decide)
  exact ⟨s, hs, hp, wolOk_of_reachable hs⟩

/-- The thread goes on from there. -/
theorem wol_drains_twoPorts : ∃ s, Reachable .nominal s ∧ s.accepted = [.gbe0, .gbe1] ∧
    ∃ N, ∀ k, N ≤ k → Drained .nominal ((threadAlone .nominal)^[k] s) := by
  obtain ⟨s, hs, hp⟩ := exists_reachable .nominal twoPorts
    (fun s => s.accepted = [.gbe0, .gbe1]) (by decide)
  exact ⟨s, hs, hp, wol_drains hs (by decide)⟩

end PseFw.Wol
