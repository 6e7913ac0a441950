/-
**The two threads of the out-of-band service.**

What holds in every state of the life of the cloud connection.  The service thread goes through a
last phase: an operation of `wait_for_events` sets the flag, the loop is left, and
`oob_service_decommission` runs to its end.  Before it, the credentials are in use; in it, each step
closes something that nothing opens again.  The configuration thread shares the semaphores and the
state of the connection with it, and may be anywhere in its loop.

Main definitions:

* `PseFw.Oob.Phase` — how far the service is from its end;
* `PseFw.Oob.CfgInv` — what holds the two threads together;
* `PseFw.Oob.LifeInv` — the invariant.

Main results:

* `PseFw.Oob.LifeInv.step_service`, `PseFw.Oob.LifeInv.step_cfg` — the steps of the two threads;
* `PseFw.Oob.lifeInv_of_reachable` — **the invariant holds in every state**, and the flag is never
  cleared (`PseFw.Oob.LifeInv.step`).
-/

import PseFw.Oob.Lifecycle

set_option relaxedAutoImplicit false
set_option autoImplicit false

namespace PseFw.Oob

variable {c : Credentials} {x x' : Life} {s' : OobState} {ok : Bool} {evts : List MqttEvt}

/-! ### What a step leaves alone -/

/-- What only the service thread writes. -/
structure SameThread (s s' : OobState) : Prop where
  todo : s'.todo = s.todo
  ackDue : s'.ackDue = s.ackDue
  isThreadTermiSet : s'.isThreadTermiSet = s.isThreadTermiSet

theorem SameThread.trans {s s₁ : OobState} (h : SameThread s s₁) (h' : SameThread s₁ s') :
    SameThread s s' :=
  ⟨h'.todo.trans h.todo, h'.ackDue.trans h.ackDue,
    h'.isThreadTermiSet.trans h.isThreadTermiSet⟩

/-- What the interface and the two threads write. -/
structure SameConn (s s' : OobState) : Prop where
  oobConnSt : s'.oobConnSt = s.oobConnSt
  nwMgmtEvent : s'.nwMgmtEvent = s.nwMgmtEvent

theorem kFifoAllocPut_frame (alloc : Bool) (item : OobItem) (s : OobState) :
    SameThread s (kFifoAllocPut alloc item s) ∧ SameConn s (kFifoAllocPut alloc item s) := by
  unfold kFifoAllocPut
  split
  · exact ⟨⟨rfl, rfl, rfl⟩, ⟨rfl, rfl⟩⟩
  · exact ⟨⟨rfl, rfl, rfl⟩, ⟨rfl, rfl⟩⟩

theorem mqttProcessReceive_frame (p : Processed) (alloc : Bool) (s : OobState) :
    SameThread s (mqttProcessReceive p alloc s) ∧ SameConn s (mqttProcessReceive p alloc s) := by
  unfold mqttProcessReceive
  dsimp only
  split
  · obtain ⟨⟨h₁, h₂, h₃⟩, ⟨h₄, h₅⟩⟩ := kFifoAllocPut_frame alloc .fmessage
      { s with
        nextMsg := p.nextMsg.getD s.nextMsg
        topicBuf := p.topicBuf.getD s.topicBuf
        fmessage := p.msg }
    exact ⟨⟨h₁, h₂, h₃⟩, ⟨h₄, h₅⟩⟩
  · exact ⟨⟨rfl, rfl, rfl⟩, ⟨rfl, rfl⟩⟩

/-- The events of a call change the fifo and `connected`; only `MQTT_EVT_CONNACK` connects. -/
theorem mqttEvents_frame {r r' : OobState × Bool} (h : mqttEvents c evts r = some r') :
    SameThread r.1 r'.1 ∧ SameConn r.1 r'.1 ∧
      (evts.all MqttEvt.isDisconnect = true → r'.2 = true → r.2 = true) := by
  induction evts generalizing r with
  | nil =>
      obtain rfl := Option.some.inj h
      exact ⟨⟨rfl, rfl, rfl⟩, ⟨rfl, rfl⟩, fun _ h => h⟩
  | cons evt evts ih =>
      obtain ⟨r₁, h₁, h₂⟩ := Option.bind_eq_some_iff.1 h
      obtain ⟨ht, hc, hd⟩ := ih h₂
      have hall : (evt :: evts).all MqttEvt.isDisconnect = true →
          evt.isDisconnect = true ∧ evts.all MqttEvt.isDisconnect = true := by
        simp only [List.all_cons, Bool.and_eq_true, imp_self]
      cases evt with
      | connack success =>
          obtain rfl := Option.some.inj h₁
          exact ⟨ht, hc, fun hl => absurd (hall hl).1 nofun⟩
      | disconnect =>
          obtain rfl := Option.some.inj h₁
          exact ⟨ht, hc, fun hl hr => absurd (hd (hall hl).2 hr) nofun⟩
      | publish m stack alloc =>
          obtain ⟨p, -, rfl⟩ := Option.map_eq_some_iff.1 h₁
          obtain ⟨ht₁, hc₁⟩ := mqttProcessReceive_frame p alloc r.1
          exact ⟨ht₁.trans ht, ⟨hc.oobConnSt.trans hc₁.oobConnSt,
            hc.nwMgmtEvent.trans hc₁.nwMgmtEvent⟩, fun hl => absurd (hall hl).1 nofun⟩

/-- A call of the MQTT library changes the fifo and `connected`. -/
theorem mqtt_frame (h : x.mqtt c evts = some x') : ∃ s b,
    x' = { x with s := s, connected := b } ∧ SameThread x.s s ∧ SameConn x.s s ∧
      (evts.all MqttEvt.isDisconnect = true → b = true → x.connected = true) := by
  obtain ⟨r, hr, rfl⟩ := Option.map_eq_some_iff.1 h
  obtain ⟨ht, hc, hd⟩ := mqttEvents_frame hr
  exact ⟨r.1, r.2, rfl, ht, hc, hd⟩

/-! ### The end of the service -/

/-- `oob_service_decommission`, and what follows. -/
def ServicePc.ends : ServicePc → Bool
  | .abort true _ | .release | .timerStop | .connSem => true
  | _ => false

/-- The service goes on: the credentials are in use. -/
structure Running (x : Life) : Prop where
  flag : x.s.isThreadTermiSet = false
  check : checkAll passes x.s.todo x.provisioned x.accepted false = true
  ends : x.service.ends = false
  ops : .release ∉ x.ops
  timer : x.service = .done → x.oobTlsSessionTimer = false

/-- The loop is about to be left, or it was left. -/
structure Closed (x : Life) : Prop where
  flag : x.s.isThreadTermiSet = true
  ackDue : x.s.ackDue = false
  provisioned : x.provisioned = true
  accepted : x.accepted = true

/-- **The credentials are erased**, after which nothing was done with the cloud. -/
structure Released (x : Life) : Prop where
  closed : Closed x
  ops : ∃ pre, x.ops = pre ++ [.release] ∧ .release ∉ pre
  pingReqTimer : x.pingReqTimer = false
  connected : x.connected = false
  timer : x.service ≠ .timerStop → x.oobTlsSessionTimer = false

/-- **How far the service is from its end.** -/
inductive Phase (x : Life) : Prop
  | running (h : Running x)
  | reports (h : Closed x) (hpc : x.service = .work) (hops : .release ∉ x.ops)
      (hcheck : checkAll passes x.s.todo true true true = true)
  | left (h : Closed x) (hpc : x.service = .left) (hops : .release ∉ x.ops)
  | abort (h : Closed x) (pc : AbortPc) (hpc : x.service = .abort true pc)
      (hops : .release ∉ x.ops) (hping : pc ≠ .stopPing → x.pingReqTimer = false)
      (hconn : pc = .mqttAbort ∨ pc = .cancel → x.connected = false)
  | release (h : Closed x) (hpc : x.service = .release) (hops : .release ∉ x.ops)
      (hping : x.pingReqTimer = false) (hconn : x.connected = false)
  | released (h : Released x)
      (hpc : x.service = .timerStop ∨ x.service = .connSem ∨ x.service = .done)

theorem Closed.congr (h : Closed x) (hs : SameThread x.s x'.s)
    (hp : x'.provisioned = x.provisioned) (ha : x'.accepted = x.accepted) : Closed x' :=
  ⟨hs.isThreadTermiSet.trans h.flag, hs.ackDue.trans h.ackDue, hp.trans h.provisioned,
    ha.trans h.accepted⟩

/-- What does not move the service thread, and starts nothing, keeps the phase. -/
theorem Phase.congr (h : Phase x) (hs : SameThread x.s x'.s) (hpc : x'.service = x.service)
    (hops : x'.ops = x.ops) (hp : x'.provisioned = x.provisioned) (ha : x'.accepted = x.accepted)
    (hping : x.pingReqTimer = false → x'.pingReqTimer = false)
    (hconn : x.connected = false → x'.connected = false)
    (htimer : x.oobTlsSessionTimer = false → x'.oobTlsSessionTimer = false) : Phase x' := by
  cases h with
  | running h =>
      refine .running ⟨hs.isThreadTermiSet.trans h.flag, ?_, ?_, ?_, ?_⟩
      · rw [hs.todo, hp, ha]
        exact h.check
      · rw [hpc]
        exact h.ends
      · rw [hops]
        exact h.ops
      · rw [hpc]
        exact fun hdone => htimer (h.timer hdone)
  | reports h h₁ h₂ h₃ =>
      refine .reports (h.congr hs hp ha) (hpc.trans h₁) (hops ▸ h₂) ?_
      rw [hs.todo]
      exact h₃
  | left h h₁ h₂ => exact .left (h.congr hs hp ha) (hpc.trans h₁) (hops ▸ h₂)
  | abort h pc h₁ h₂ h₃ h₄ =>
      exact .abort (h.congr hs hp ha) pc (hpc.trans h₁) (hops ▸ h₂) (fun hne => hping (h₃ hne))
        fun hpc => hconn (h₄ hpc)
  | release h h₁ h₂ h₃ h₄ =>
      exact .release (h.congr hs hp ha) (hpc.trans h₁) (hops ▸ h₂) (hping h₃) (hconn h₄)
  | released h h₁ =>
      refine .released ⟨h.closed.congr hs hp ha, ?_, hping h.pingReqTimer, hconn h.connected,
        fun hne => htimer (h.timer (hpc ▸ hne))⟩ (hpc.symm ▸ h₁)
      rw [hops]
      exact h.ops

/-! ### Calls -/

/-- What the service thread may do while it works with the connection: nothing of the configuration
thread's, and no release. -/
structure Calls (x x' : Life) : Prop where
  thread : SameThread x.s x'.s
  conn : SameConn x.s x'.s
  service : x'.service = x.service
  provisioned : x'.provisioned = x.provisioned
  accepted : x'.accepted = x.accepted
  cfg : x'.cfg = x.cfg
  upLost : x'.upLost = x.upLost
  oobCfgSem : x'.oobCfgSem = x.oobCfgSem
  oobConnSem : x'.oobConnSem = x.oobConnSem
  oobTlsSessionTimer : x'.oobTlsSessionTimer = x.oobTlsSessionTimer
  ops : .release ∉ x.ops → .release ∉ x'.ops

theorem Calls.refl (x : Life) : Calls x x :=
  ⟨⟨rfl, rfl, rfl⟩, ⟨rfl, rfl⟩, rfl, rfl, rfl, rfl, rfl, rfl, rfl, rfl, id⟩

theorem calls_mqtt (h : x.mqtt c evts = some x') : Calls x x' := by
  obtain ⟨s, b, rfl, ht, hc, -⟩ := mqtt_frame h
  exact ⟨ht, hc, rfl, rfl, rfl, rfl, rfl, rfl, rfl, rfl, id⟩

theorem calls_log_mqtt {op : CloudOp} (hop : op ≠ .release)
    (h : (x.log op).mqtt c evts = some x') : Calls x x' := by
  obtain ⟨s, b, rfl, ht, hc, -⟩ := mqtt_frame h
  refine ⟨ht, hc, rfl, rfl, rfl, rfl, rfl, rfl, rfl, rfl, fun hx hmem => ?_⟩
  rcases List.mem_append.1 hmem with hmem | hmem
  · exact hx hmem
  · exact hop (List.mem_singleton.1 hmem).symm

theorem cancelWait_eq (h : x.service ≠ .waits) : x.cancelWait = x :=
  if_neg fun hw => h hw.1

theorem calls_deviceCloudAbort {pc : AbortPc} {r : Option AbortPc × Life}
    (hw : x.service ≠ .waits) (h : deviceCloudAbort c ok evts x pc = some r) : Calls x r.2 := by
  cases pc with
  | stopPing =>
      obtain rfl := Option.some.inj h
      exact ⟨⟨rfl, rfl, rfl⟩, ⟨rfl, rfl⟩, rfl, rfl, rfl, rfl, rfl, rfl, rfl, rfl, id⟩
  | disconnect =>
      obtain rfl := Option.some.inj h
      exact ⟨⟨rfl, rfl, rfl⟩, ⟨rfl, rfl⟩, rfl, rfl, rfl, rfl, rfl, rfl, rfl, rfl, id⟩
  | mqttAbort =>
      rw [deviceCloudAbort, Option.ite_none_right_eq_some] at h
      obtain ⟨y, hy, rfl⟩ := Option.map_eq_some_iff.1 h.2
      exact calls_mqtt hy
  | cancel =>
      obtain rfl := Option.some.inj h
      dsimp only
      rw [cancelWait_eq hw]
      exact Calls.refl x

theorem calls_deviceCloudConnect {pc : ConnectPc} {r : (Bool ⊕ ConnectPc) × Life}
    (h : deviceCloudConnect c ok evts x pc = some r) : Calls x r.2 := by
  cases pc with
  | resolve =>
      rw [deviceCloudConnect] at h
      split at h
      · obtain rfl := Option.some.inj h
        exact Calls.refl x
      · split at h
        · obtain rfl := Option.some.inj h
          exact ⟨⟨rfl, rfl, rfl⟩, ⟨rfl, rfl⟩, rfl, rfl, rfl, rfl, rfl, rfl, rfl, rfl, id⟩
        · obtain rfl := Option.some.inj h
          exact Calls.refl x
  | test =>
      obtain rfl := Option.some.inj h
      exact Calls.refl x
  | connect =>
      obtain ⟨y, hy, rfl⟩ := Option.map_eq_some_iff.1 h
      exact calls_log_mqtt (by decide) hy
  | wait =>
      rw [deviceCloudConnect] at h
      split at h
      · obtain rfl := Option.some.inj h
        exact Calls.refl x
      · rw [Option.ite_none_right_eq_some] at h
        obtain ⟨y, hy, rfl⟩ := Option.map_eq_some_iff.1 h.2
        exact calls_mqtt hy
  | input =>
      obtain ⟨y, hy, rfl⟩ := Option.map_eq_some_iff.1 h
      exact calls_log_mqtt (by decide) hy
  | check =>
      rw [deviceCloudConnect] at h
      split at h
      · obtain rfl := Option.some.inj h
        exact Calls.refl x
      · rw [Option.ite_none_right_eq_some] at h
        obtain ⟨y, hy, rfl⟩ := Option.map_eq_some_iff.1 h.2
        exact calls_mqtt hy
  | subscribe =>
      obtain ⟨y, hy, rfl⟩ := Option.map_eq_some_iff.1 h
      exact calls_log_mqtt (by decide) hy
  | lastInput =>
      obtain ⟨y, hy, rfl⟩ := Option.map_eq_some_iff.1 h
      exact calls_log_mqtt (by decide) hy
  | startPing =>
      obtain rfl := Option.some.inj h
      exact ⟨⟨rfl, rfl, rfl⟩, ⟨rfl, rfl⟩, rfl, rfl, rfl, rfl, rfl, rfl, rfl, rfl, id⟩

/-! ### The configuration thread -/

/-- The configuration thread has set everything up. -/
def CfgPc.started : CfgPc → Bool
  | .enabled | .credential | .iface | .register | .init false _ | .cfgSem => false
  | _ => true

/-- **What holds the two threads together.** -/
structure CfgInv (x : Life) : Prop where
  gave : x.oobCfgSem = true ∨ x.service ≠ .cfgSem →
    x.cfg.started = true ∧ (x.cfg = .done → x.s.isThreadTermiSet = true)
  woken : x.service = .done → x.s.isThreadTermiSet = true → x.cfg = .take → x.oobConnSem = true
  parks : x.cfg = .setStop ∨ x.s.oobConnSt = .nwMgmtEventStop →
    x.s.nwMgmtEvent = some .ifDown ∨ x.upLost = true

/-- A step of the service thread. -/
theorem CfgInv.service (h : CfgInv x) (hcfg : x'.cfg = x.cfg) (hup : x'.upLost = x.upLost)
    (hgave : x'.oobCfgSem = true ∨ x'.service ≠ .cfgSem →
      x.oobCfgSem = true ∨ x.service ≠ .cfgSem)
    (hflag : x.s.isThreadTermiSet = true → x'.s.isThreadTermiSet = true)
    (hdone : x'.service = .done → x'.s.isThreadTermiSet = true → x'.oobConnSem = true)
    (hst : x'.s.oobConnSt = .nwMgmtEventStop → x.s.oobConnSt = .nwMgmtEventStop)
    (hnw : x'.s.nwMgmtEvent = x.s.nwMgmtEvent) : CfgInv x' where
  gave hx := by
    rw [hcfg]
    exact ⟨(h.gave (hgave hx)).1, fun hd => hflag ((h.gave (hgave hx)).2 hd)⟩
  woken hd hf _ := hdone hd hf
  parks hx := by
    rw [hnw, hup]
    refine h.parks ?_
    rcases hx with hx | hx
    · exact Or.inl (hcfg ▸ hx)
    · exact Or.inr (hst hx)

/-- **The invariant.** -/
structure LifeInv (x : Life) : Prop where
  phase : Phase x
  cfg : CfgInv x

/-! ### The service thread -/

/-- The service thread can only be here while the service goes on. -/
def ServicePc.early : ServicePc → Bool
  | .work | .left | .abort true _ | .release | .timerStop | .connSem | .done => false
  | _ => true

theorem Phase.running_of (h : Phase x) (hpc : x.service.early = true) : Running x := by
  cases h with
  | running h => exact h
  | reports _ h _ _ | left _ h _ | abort _ _ h _ _ _ | release _ h _ _ _ =>
      rw [h] at hpc
      cases hpc
  | released _ h => rcases h with h | h | h <;> rw [h] at hpc <;> cases hpc

theorem Phase.of_work (h : Phase x) (hpc : x.service = .work) : Running x ∨
    Closed x ∧ .release ∉ x.ops ∧ checkAll passes x.s.todo true true true = true := by
  cases h with
  | running h => exact Or.inl h
  | reports h _ hops hcheck => exact Or.inr ⟨h, hops, hcheck⟩
  | _ => simp_all

theorem Phase.of_left (h : Phase x) (hpc : x.service = .left) :
    Running x ∨ Closed x ∧ .release ∉ x.ops := by
  cases h with
  | running h => exact Or.inl h
  | left h _ hops => exact Or.inr ⟨h, hops⟩
  | _ => simp_all

theorem Phase.of_abort {pc : AbortPc} (h : Phase x) (hpc : x.service = .abort true pc) :
    Closed x ∧ .release ∉ x.ops ∧ (pc ≠ .stopPing → x.pingReqTimer = false) ∧
      (pc = .mqttAbort ∨ pc = .cancel → x.connected = false) := by
  cases h with
  | running h =>
      have hends := h.ends
      rw [hpc] at hends
      cases hends
  | abort h pc' hpc' hops hping hconn =>
      obtain ⟨-, rfl⟩ := ServicePc.abort.inj (hpc.symm.trans hpc')
      exact ⟨h, hops, hping, hconn⟩
  | _ => simp_all

theorem Phase.of_release (h : Phase x) (hpc : x.service = .release) :
    Closed x ∧ .release ∉ x.ops ∧ x.pingReqTimer = false ∧ x.connected = false := by
  cases h with
  | running h =>
      have hends := h.ends
      rw [hpc] at hends
      cases hends
  | release h _ hops hping hconn => exact ⟨h, hops, hping, hconn⟩
  | _ => simp_all

theorem Phase.of_released (h : Phase x) (hpc : x.service = .timerStop ∨ x.service = .connSem) :
    Released x := by
  cases h with
  | running h =>
      have hends := h.ends
      rcases hpc with hpc | hpc <;> rw [hpc] at hends <;> cases hends
  | released h _ => exact h
  | _ => simp_all

/-- A step of `device_cloud_abort`, called by `oob_service_decommission`. -/
theorem Phase.abort_step {pc : AbortPc} {r : Option AbortPc × Life} (h : Phase x)
    (hpc : x.service = .abort true pc) (hr : deviceCloudAbort c ok evts x pc = some r) :
    Phase { r.2 with service := afterAbort true r.1 } := by
  obtain ⟨hc, hops, hping, hconn⟩ := h.of_abort hpc
  cases pc with
  | stopPing =>
      obtain rfl := Option.some.inj hr
      exact .abort ⟨hc.flag, hc.ackDue, hc.provisioned, hc.accepted⟩ .disconnect rfl hops
        (fun _ => rfl) (fun hd => by simp at hd)
  | disconnect =>
      obtain rfl := Option.some.inj hr
      exact .abort ⟨hc.flag, hc.ackDue, hc.provisioned, hc.accepted⟩ .mqttAbort rfl hops
        (fun _ => hping (by decide)) fun _ => rfl
  | mqttAbort =>
      rw [deviceCloudAbort, Option.ite_none_right_eq_some] at hr
      obtain ⟨hall, hr⟩ := hr
      obtain ⟨y, hy, rfl⟩ := Option.map_eq_some_iff.1 hr
      obtain ⟨s, b, rfl, ht, -, hb⟩ := mqtt_frame hy
      have hoff : b = false := by
        cases b with
        | false => rfl
        | true => exact absurd ((hb hall rfl).symm.trans (hconn (Or.inl rfl))) nofun
      have hclosed : ∀ pc, Closed { x with s := s, connected := b, service := pc } := fun pc =>
        hc.congr ht rfl rfl
      cases ok with
      | true => exact .abort (hclosed _) .cancel rfl hops (fun _ => hping (by decide)) fun _ => hoff
      | false => exact .release (hclosed _) rfl hops (hping (by decide)) hoff
  | cancel =>
      obtain rfl := Option.some.inj hr
      dsimp only
      rw [cancelWait_eq (by rw [hpc]; nofun)]
      exact .release ⟨hc.flag, hc.ackDue, hc.provisioned, hc.accepted⟩ rfl hops
        (hping (by decide)) (hconn (Or.inr rfl))

/-- While the service goes on, a call followed by a move to another place keeps the invariant. -/
theorem LifeInv.go {y : Life} (h : LifeInv x) (hrun : Running x) (hc : Calls x y)
    (hcfg : x.service ≠ .cfgSem) (pc : ServicePc) (hends : pc.ends = false) (hdone : pc ≠ .done) :
    LifeInv { y with service := pc } where
  phase := by
    refine .running ⟨hc.thread.isThreadTermiSet.trans hrun.flag, ?_, hends, hc.ops hrun.ops,
      fun hd => absurd hd hdone⟩
    dsimp only
    rw [hc.thread.todo, hc.provisioned, hc.accepted]
    exact hrun.check
  cfg := h.cfg.service hc.cfg hc.upLost (fun _ => Or.inr hcfg)
    (fun hf => hc.thread.isThreadTermiSet.trans hf) (fun hd => absurd hd hdone)
    (fun hst => hc.conn.oobConnSt.symm.trans hst) hc.conn.nwMgmtEvent

/-- The service thread takes a message. -/
theorem LifeInv.takes (h : LifeInv x) (hpc : x.service = .get ∨ x.service = .waits) (n : OobNode)
    (q : LinkedQueue OobNode) : LifeInv (x.take n q) := by
  have hrun : Running x := h.phase.running_of (by rcases hpc with hpc | hpc <;> rw [hpc] <;> rfl)
  have hcfg : x.service ≠ .cfgSem := by rcases hpc with hpc | hpc <;> rw [hpc] <;> decide
  exact ⟨.running ⟨hrun.flag, checkAll_waitForEvents _, rfl, hrun.ops, nofun⟩,
    h.cfg.service rfl rfl (fun _ => Or.inr hcfg) id nofun id rfl⟩

theorem exists_event_of_check {k : Bool → Bool → Bool → Bool} {op : OobOp} {p a : Bool}
    (h : op.check k p a true = true) : ∃ text, op = .event text := by
  cases op with
  | event text => exact ⟨text, rfl⟩
  | terminate => simp [OobOp.check] at h
  | ifSx | pmcAction | pmcWait | timerStart | setPmcReboot | setProvisionState | connState
  | mqttLive =>
      simp [OobOp.check] at h

/-- A step of the service thread that leaves it at work, or at `live`. -/
theorem CfgInv.works (h : CfgInv x) (hpc : x.service = .work) (hcfg : x'.cfg = x.cfg)
    (hup : x'.upLost = x.upLost) (hpc' : x'.service = .work ∨ x'.service = .live)
    (hflag : x.s.isThreadTermiSet = true → x'.s.isThreadTermiSet = true)
    (hst : x'.s.oobConnSt = .nwMgmtEventStop → x.s.oobConnSt = .nwMgmtEventStop)
    (hnw : x'.s.nwMgmtEvent = x.s.nwMgmtEvent) : CfgInv x' := by
  refine h.service hcfg hup (fun _ => Or.inr (by rw [hpc]; decide)) hflag (fun hd => ?_) hst hnw
  rcases hpc' with hpc' | hpc' <;> rw [hd] at hpc' <;> cases hpc'

/-- **An operation of the service thread.** -/
theorem LifeInv.op {op : OobOp} {todo : List OobOp} (h : LifeInv x) (hpc : x.service = .work)
    (hack : x.s.ackDue = false) (htodo : x.s.todo = op :: todo)
    (hst : opStep c ok evts { x with s := { x.s with todo := todo } } op = some x') :
    LifeInv x' ∧ (x.s.isThreadTermiSet = true → x'.s.isThreadTermiSet = true) := by
  by_cases hevent : ∃ text, op = .event text
  · obtain ⟨text, rfl⟩ := hevent
    obtain ⟨y, hy, rfl⟩ := Option.map_eq_some_iff.1 hst
    obtain ⟨s, b, rfl, ht, hc, -⟩ := mqtt_frame hy
    have hops : CloudOp.release ∉ x.ops → CloudOp.release ∉ x.ops ++ [.publish] := by
      intro hx hmem
      rcases List.mem_append.1 hmem with hmem | hmem
      · exact hx hmem
      · cases List.mem_singleton.1 hmem
    have hflag : x.s.isThreadTermiSet = true → s.isThreadTermiSet = true :=
      fun hf => ht.isThreadTermiSet.trans hf
    refine ⟨⟨?_, h.cfg.works hpc rfl rfl (Or.inl hpc) hflag
      (fun hd => hc.oobConnSt.symm.trans hd) hc.nwMgmtEvent⟩, hflag⟩
    rcases h.phase.of_work hpc with hr | ⟨hr, hrel, hcheck⟩
    · have hcheck := hr.check
      rw [htodo, checkAll, OobOp.check] at hcheck
      refine .running ⟨ht.isThreadTermiSet.trans hr.flag, ?_, hr.ends, hops hr.ops, hr.timer⟩
      dsimp only [runOp, Life.log]
      rw [ht.todo]
      exact hcheck
    · rw [htodo, checkAll, OobOp.check] at hcheck
      refine .reports ⟨hflag hr.flag, ht.ackDue.trans hack, hr.provisioned, hr.accepted⟩ hpc
        (hops hrel) ?_
      dsimp only [runOp]
      rw [ht.todo]
      exact hcheck
  · have hr : Running x := by
      rcases h.phase.of_work hpc with hr | ⟨-, -, hcheck⟩
      · exact hr
      · rw [htodo, checkAll] at hcheck
        exact absurd (exists_event_of_check hcheck) hevent
    have hcheck := hr.check
    rw [htodo, checkAll] at hcheck
    cases op with
    | event text => exact absurd ⟨text, rfl⟩ hevent
    | ifSx st yes no =>
        obtain rfl := Option.some.inj hst
        simp only [OobOp.check, Bool.not_false, Bool.true_and, Bool.and_eq_true] at hcheck
        refine ⟨⟨.running ⟨hr.flag, ?_, hr.ends, hr.ops, hr.timer⟩,
          h.cfg.works hpc rfl rfl (Or.inl hpc) id id rfl⟩, id⟩
        dsimp only [runOp]
        rw [checkAll_append]
        split
        · exact hcheck.1
        · exact hcheck.2
    | pmcAction action yes no =>
        obtain rfl := Option.some.inj hst
        exact ⟨⟨.running ⟨hr.flag, hcheck, hr.ends, hr.ops, hr.timer⟩,
          h.cfg.works hpc rfl rfl (Or.inl hpc) id id rfl⟩, id⟩
    | pmcWait yes no =>
        obtain rfl := Option.some.inj hst
        simp only [OobOp.check, Bool.not_false, Bool.true_and, Bool.and_eq_true] at hcheck
        refine ⟨⟨.running ⟨hr.flag, ?_, hr.ends, hr.ops, hr.timer⟩,
          h.cfg.works hpc rfl rfl (Or.inl hpc) id id rfl⟩, id⟩
        dsimp only [runOp]
        rw [checkAll_append]
        cases ok with
        | true =>
            rw [if_pos rfl, Bool.or_true]
            exact hcheck.1
        | false =>
            rw [if_neg (by decide), Bool.or_false]
            exact hcheck.2
    | timerStart | setPmcReboot =>
        obtain rfl := Option.some.inj hst
        simp only [OobOp.check, Bool.not_false, Bool.true_and] at hcheck
        exact ⟨⟨.running ⟨hr.flag, hcheck, hr.ends, hr.ops, hr.timer⟩,
          h.cfg.works hpc rfl rfl (Or.inl hpc) id id rfl⟩, id⟩
    | setProvisionState yes no =>
        obtain rfl := Option.some.inj hst
        simp only [OobOp.check, Bool.not_false, Bool.true_and, Bool.and_eq_true] at hcheck
        refine ⟨⟨.running ⟨hr.flag, ?_, hr.ends, hr.ops, hr.timer⟩,
          h.cfg.works hpc rfl rfl (Or.inl hpc) id id rfl⟩, id⟩
        dsimp only [runOp]
        rw [checkAll_append]
        cases ok with
        | true =>
            rw [if_pos rfl, Bool.or_true]
            exact hcheck.1
        | false =>
            rw [if_neg (by decide), Bool.or_false]
            exact hcheck.2
    | terminate =>
        obtain rfl := Option.some.inj hst
        simp only [OobOp.check, Bool.not_false, Bool.and_eq_true] at hcheck
        obtain ⟨⟨⟨hp, ha⟩, -⟩, hcheck⟩ := hcheck
        rw [hp, ha] at hcheck
        exact ⟨⟨.reports ⟨rfl, hack, hp, ha⟩ hpc hr.ops hcheck,
          h.cfg.works hpc rfl rfl (Or.inl hpc) (fun _ => rfl) id rfl⟩, fun _ => rfl⟩
    | connState st =>
        obtain rfl := Option.some.inj hst
        simp only [OobOp.check, Bool.not_false, Bool.true_and, Bool.and_eq_true,
          decide_eq_true_eq] at hcheck
        exact ⟨⟨.running ⟨hr.flag, hcheck.2, hr.ends, hr.ops, hr.timer⟩,
          h.cfg.works hpc rfl rfl (Or.inl hpc) id (fun hd => absurd hd hcheck.1) rfl⟩, id⟩
    | mqttLive =>
        obtain rfl := Option.some.inj hst
        simp only [OobOp.check, Bool.not_false, Bool.true_and] at hcheck
        exact ⟨⟨.running ⟨hr.flag, hcheck, rfl, hr.ops, fun hd => ServicePc.noConfusion hd⟩,
          h.cfg.works hpc rfl rfl (Or.inr rfl) id id rfl⟩, id⟩

/-- **A step of the service thread.** -/
theorem LifeInv.step_service (h : LifeInv x) (hst : serviceStep c ok evts x = some x') :
    LifeInv x' ∧ (x.s.isThreadTermiSet = true → x'.s.isThreadTermiSet = true) := by
  have hrun : x.service.early = true → Running x := h.phase.running_of
  have hnot : x.service.early = true → ∀ {p : Prop}, x.s.isThreadTermiSet = true → p := by
    intro hpc p hf
    rw [(hrun hpc).flag] at hf
    cases hf
  rw [serviceStep] at hst
  cases hpc : x.service with
  | cfgSem =>
      rw [hpc] at hst hrun hnot
      rw [Option.ite_none_right_eq_some] at hst
      obtain ⟨hsem, hst⟩ := hst
      obtain rfl := Option.some.inj hst
      have hr := hrun rfl
      exact ⟨⟨.running ⟨hr.flag, hr.check, rfl, hr.ops, nofun⟩,
        h.cfg.service rfl rfl (fun _ => Or.inl hsem) id nofun id rfl⟩, hnot rfl⟩
  | timerStart =>
      rw [hpc] at hst hrun hnot
      obtain rfl := Option.some.inj hst
      have hr := hrun rfl
      exact ⟨⟨.running ⟨hr.flag, hr.check, rfl, hr.ops, nofun⟩,
        h.cfg.service rfl rfl (fun _ => Or.inr (by rw [hpc]; decide)) id nofun id rfl⟩, hnot rfl⟩
  | top =>
      rw [hpc] at hst hrun hnot
      dsimp only at hst
      split at hst
      · obtain rfl := Option.some.inj hst
        exact ⟨h, id⟩
      · obtain rfl := Option.some.inj hst
        exact ⟨h.go (hrun rfl) (Calls.refl x) (by rw [hpc]; decide) _ rfl nofun, hnot rfl⟩
  | connect again pc =>
      rw [hpc] at hst hrun hnot
      obtain ⟨r, hr, rfl⟩ := Option.map_eq_some_iff.1 hst
      have hends : (afterConnect again r.1).ends = false ∧ afterConnect again r.1 ≠ .done := by
        rcases r with ⟨ok | pc, y⟩
        · cases again <;> cases ok <;> exact ⟨rfl, nofun⟩
        · exact ⟨rfl, nofun⟩
      exact ⟨h.go (hrun rfl) (calls_deviceCloudConnect hr) (by rw [hpc]; nofun) _ hends.1 hends.2,
        hnot rfl⟩
  | failed =>
      rw [hpc] at hst hrun hnot
      obtain rfl := Option.some.inj hst
      have hr := hrun rfl
      exact ⟨⟨.running ⟨hr.flag, hr.check, rfl, hr.ops, fun _ => rfl⟩,
        h.cfg.service rfl rfl (fun _ => Or.inr (by rw [hpc]; decide)) id
          (fun _ hf => hnot rfl hf) id rfl⟩, hnot rfl⟩
  | info n =>
      rw [hpc] at hst hrun hnot
      cases n with
      | zero =>
          obtain rfl := Option.some.inj hst
          exact ⟨h.go (hrun rfl) (Calls.refl x) (by rw [hpc]; nofun) _ rfl nofun, hnot rfl⟩
      | succ n =>
          obtain ⟨y, hy, rfl⟩ := Option.map_eq_some_iff.1 hst
          exact ⟨h.go (hrun rfl) (calls_log_mqtt (by decide) hy) (by rw [hpc]; nofun) _ rfl nofun,
            hnot rfl⟩
  | loop =>
      rw [hpc] at hst hrun hnot
      obtain rfl := Option.some.inj hst
      refine ⟨h.go (hrun rfl) (Calls.refl x) (by rw [hpc]; decide) _ ?_ ?_, hnot rfl⟩
      · split <;> rfl
      · split <;> nofun
  | get =>
      rw [hpc] at hst hnot hrun
      dsimp only at hst
      split at hst
      · obtain rfl := Option.some.inj hst
        exact ⟨h.go (hrun rfl) (Calls.refl x) (by rw [hpc]; decide) _ rfl nofun, hnot rfl⟩
      · obtain rfl := Option.some.inj hst
        exact ⟨h.takes (Or.inl hpc) _ _, hnot rfl⟩
  | waits =>
      rw [hpc] at hst hnot
      obtain ⟨a, -, rfl⟩ := Option.map_eq_some_iff.1 hst
      exact ⟨h.takes (Or.inr hpc) _ _, hnot rfl⟩
  | lost =>
      rw [hpc] at hst
      cases hst
  | work =>
      rw [hpc] at hst
      dsimp only [workStep] at hst
      split at hst
      next hack =>
        obtain ⟨y, hy, rfl⟩ := Option.map_eq_some_iff.1 hst
        obtain ⟨s, b, rfl, ht, hc, -⟩ := mqtt_frame hy
        have hr : Running x := by
          rcases h.phase.of_work hpc with hr | ⟨hr, -, -⟩
          · exact hr
          · rw [hr.ackDue] at hack
            cases hack
        have hf : x.s.isThreadTermiSet = true → s.isThreadTermiSet = true :=
          fun hf => ht.isThreadTermiSet.trans hf
        refine ⟨⟨.running ⟨ht.isThreadTermiSet.trans hr.flag, ?_, hr.ends, ?_, hr.timer⟩,
          h.cfg.works hpc rfl rfl (Or.inl hpc) hf (fun hd => hc.oobConnSt.symm.trans hd)
            hc.nwMgmtEvent⟩, hf⟩
        · dsimp only [Life.log]
          rw [ht.todo]
          exact hr.check
        · exact (calls_log_mqtt (by decide) hy).ops hr.ops
      next hack =>
        split at hst
        next htodo =>
          obtain rfl := Option.some.inj hst
          refine ⟨⟨?_, h.cfg.service rfl rfl (fun _ => Or.inr (by rw [hpc]; decide)) id ?_ id rfl⟩,
            id⟩
          · rcases h.phase.of_work hpc with hr | ⟨hr, hops, -⟩
            · refine .running ⟨hr.flag, hr.check, ?_, hr.ops, ?_⟩
              · dsimp only
                split <;> rfl
              · dsimp only
                split <;> nofun
            · exact .left ⟨hr.flag, hr.ackDue, hr.provisioned, hr.accepted⟩ (if_pos hr.flag) hops
          · dsimp only
            split <;> nofun
        next op todo htodo => exact h.op hpc (Bool.eq_false_iff.2 hack) htodo hst
  | live =>
      rw [hpc] at hst hrun hnot
      obtain ⟨y, hy, rfl⟩ := Option.map_eq_some_iff.1 hst
      exact ⟨h.go (hrun rfl) (calls_log_mqtt (by decide) hy) (by rw [hpc]; decide) _ rfl nofun,
        hnot rfl⟩
  | liveInput =>
      rw [hpc] at hst hrun hnot
      obtain ⟨y, hy, rfl⟩ := Option.map_eq_some_iff.1 hst
      exact ⟨h.go (hrun rfl) (calls_log_mqtt (by decide) hy) (by rw [hpc]; decide) _ rfl nofun,
        hnot rfl⟩
  | liveTest =>
      rw [hpc] at hst hrun hnot
      obtain rfl := Option.some.inj hst
      refine ⟨h.go (hrun rfl) (Calls.refl x) (by rw [hpc]; decide) _ ?_ ?_, hnot rfl⟩
      · split <;> rfl
      · split <;> nofun
  | abort last pc =>
      rw [hpc] at hst hrun hnot
      obtain ⟨r, hr, rfl⟩ := Option.map_eq_some_iff.1 hst
      have hcalls := calls_deviceCloudAbort (by rw [hpc]; nofun) hr
      cases last with
      | false =>
          have hends : (afterAbort false r.1).ends = false ∧ afterAbort false r.1 ≠ .done := by
            rcases r with ⟨_ | pc, y⟩ <;> exact ⟨rfl, nofun⟩
          exact ⟨h.go (hrun rfl) hcalls (by rw [hpc]; nofun) _ hends.1 hends.2, hnot rfl⟩
      | true =>
          refine ⟨⟨h.phase.abort_step hpc hr, ?_⟩,
            fun hf => hcalls.thread.isThreadTermiSet.trans hf⟩
          refine h.cfg.service hcalls.cfg hcalls.upLost (fun _ => Or.inr (by rw [hpc]; nofun))
            (fun hf => hcalls.thread.isThreadTermiSet.trans hf) (fun hd => ?_)
            (fun hd => hcalls.conn.oobConnSt.symm.trans hd) hcalls.conn.nwMgmtEvent
          rcases r with ⟨_ | pc, y⟩ <;> cases hd
  | left =>
      rw [hpc] at hst
      obtain rfl := Option.some.inj hst
      refine ⟨⟨?_, h.cfg.service rfl rfl (fun _ => Or.inr (by rw [hpc]; decide)) id ?_ id rfl⟩, id⟩
      · rcases h.phase.of_left hpc with hr | ⟨hr, hops⟩
        · refine .running ⟨hr.flag, hr.check, ?_, hr.ops, ?_⟩
          · dsimp only
            rw [if_neg (by rw [hr.flag]; decide)]
            rfl
          · dsimp only
            rw [if_neg (by rw [hr.flag]; decide)]
            nofun
        · exact .abort ⟨hr.flag, hr.ackDue, hr.provisioned, hr.accepted⟩ .stopPing
            (if_pos hr.flag) hops (fun hne => absurd rfl hne) (fun hd => by simp at hd)
      · dsimp only
        split <;> nofun
  | release =>
      rw [hpc] at hst
      obtain rfl := Option.some.inj hst
      refine ⟨⟨?_, h.cfg.service rfl rfl (fun _ => Or.inr (by rw [hpc]; decide)) id nofun id rfl⟩,
        id⟩
      obtain ⟨hr, hops, hping, hconn⟩ := h.phase.of_release hpc
      exact .released ⟨⟨hr.flag, hr.ackDue, hr.provisioned, hr.accepted⟩, ⟨x.ops, rfl, hops⟩, hping,
        hconn, fun hne => absurd rfl hne⟩ (Or.inl rfl)
  | timerStop =>
      rw [hpc] at hst
      obtain rfl := Option.some.inj hst
      refine ⟨⟨?_, h.cfg.service rfl rfl (fun _ => Or.inr (by rw [hpc]; decide)) id nofun id rfl⟩,
        id⟩
      obtain ⟨hr, hops, hping, hconn, -⟩ := h.phase.of_released (Or.inl hpc)
      exact .released ⟨⟨hr.flag, hr.ackDue, hr.provisioned, hr.accepted⟩, hops, hping, hconn,
        fun _ => rfl⟩ (Or.inr (Or.inl rfl))
  | connSem =>
      rw [hpc] at hst
      obtain rfl := Option.some.inj hst
      refine ⟨⟨?_, h.cfg.service rfl rfl (fun _ => Or.inr (by rw [hpc]; decide)) id
        (fun _ _ => rfl) id rfl⟩, id⟩
      obtain ⟨hr, hops, hping, hconn, htimer⟩ := h.phase.of_released (Or.inr hpc)
      exact .released ⟨⟨hr.flag, hr.ackDue, hr.provisioned, hr.accepted⟩, hops, hping, hconn,
        fun _ => htimer (by rw [hpc]; decide)⟩ (Or.inr (Or.inr rfl))
  | done =>
      rw [hpc] at hst
      cases hst

/-! ### The configuration thread at work -/

/-- What the calls of the configuration thread do to what the two threads share. -/
structure Aside (x y : Life) : Prop where
  flag : y.s.isThreadTermiSet = x.s.isThreadTermiSet
  st : y.s.oobConnSt = .nwMgmtEventStop → x.s.oobConnSt = .nwMgmtEventStop
  nwMgmtEvent : y.s.nwMgmtEvent = x.s.nwMgmtEvent
  oobCfgSem : y.oobCfgSem = x.oobCfgSem
  oobConnSem : y.oobConnSem = x.oobConnSem
  upLost : y.upLost = x.upLost
  cfgSem : x.service = .cfgSem → y.service = .cfgSem

theorem Aside.refl (x : Life) : Aside x x := ⟨rfl, id, rfl, rfl, rfl, rfl, id⟩

/-- A step before the configuration is complete. -/
theorem CfgInv.startup {y : Life} (h : CfgInv x) (hy : Aside x y) (hold : x.cfg.started = false)
    (pc : CfgPc) (htake : pc ≠ .take) (hstop : pc ≠ .setStop) : CfgInv { y with cfg := pc } := by
  have hnot : ¬ (x.oobCfgSem = true ∨ x.service ≠ .cfgSem) := fun hx => by
    rw [(h.gave hx).1] at hold
    cases hold
  obtain ⟨hsem, hservice⟩ := not_or.1 hnot
  refine ⟨fun hx => ?_, fun _ _ ht => absurd ht htake, fun hx => ?_⟩
  · rcases hx with hx | hx
    · exact absurd (hy.oobCfgSem.symm.trans hx) hsem
    · exact absurd (hy.cfgSem (not_not.1 hservice)) hx
  · refine (hy.nwMgmtEvent.symm ▸ hy.upLost.symm ▸ h.parks (Or.inr (hy.st ?_)))
    exact hx.resolve_left hstop

/-- A step afterwards. -/
theorem CfgInv.moves {y : Life} (h : CfgInv x) (hy : Aside x y) (pc : CfgPc)
    (hstarted : pc.started = true) (hdone : pc ≠ .done) (htake : pc ≠ .take)
    (hstop : pc ≠ .setStop) : CfgInv { y with cfg := pc } := by
  refine ⟨fun _ => ⟨hstarted, fun hd => absurd hd hdone⟩, fun _ _ ht => absurd ht htake,
    fun hx => ?_⟩
  refine (hy.nwMgmtEvent.symm ▸ hy.upLost.symm ▸ h.parks (Or.inr (hy.st ?_)))
  exact hx.resolve_left hstop

theorem Phase.cancelWait (h : Phase x) : Phase x.cancelWait := by
  unfold Life.cancelWait
  split
  next hw =>
    have hr := h.running_of (by rw [hw.1]; rfl)
    exact .running ⟨hr.flag, hr.check, rfl, hr.ops, nofun⟩
  next => exact h

theorem aside_cancelWait (x : Life) : Aside x x.cancelWait := by
  unfold Life.cancelWait
  split
  next hw => exact ⟨rfl, id, rfl, rfl, rfl, rfl, fun h => absurd (hw.1.symm.trans h) nofun⟩
  next => exact Aside.refl x

/-- **The fifo is initialised**: a thread that waits is lost, or has its message already. -/
theorem fifoInit_cases (x : Life) : (∃ q, x.fifoInit = { x with s := { x.s with
      managabilityFifo := q } }) ∨ x.service = .waits ∧
    ((∃ q, x.fifoInit = { x with service := .lost, s := { x.s with managabilityFifo := q } }) ∨
      ∃ n q q', x.fifoInit =
        { x.take n q with s := { x.s.take n q with managabilityFifo := q' } }) := by
  unfold Life.fifoInit
  dsimp only
  split
  next hw =>
    refine Or.inr ⟨hw, ?_⟩
    split
    · exact Or.inl ⟨_, rfl⟩
    · exact Or.inr ⟨_, _, _, rfl⟩
  next => exact Or.inl ⟨_, rfl⟩

theorem Phase.fifoInit (h : Phase x) : Phase x.fifoInit := by
  rcases fifoInit_cases x with ⟨q, hx⟩ | ⟨hw, ⟨q, hx⟩ | ⟨n, q, q', hx⟩⟩
  · rw [hx]
    exact h.congr ⟨rfl, rfl, rfl⟩ rfl rfl rfl rfl id id id
  · have hr := h.running_of (by rw [hw]; rfl)
    rw [hx]
    exact .running ⟨hr.flag, hr.check, rfl, hr.ops, nofun⟩
  · have hr := h.running_of (by rw [hw]; rfl)
    rw [hx]
    exact .running ⟨hr.flag, checkAll_waitForEvents _, rfl, hr.ops, nofun⟩

theorem aside_fifoInit (x : Life) : Aside x x.fifoInit := by
  rcases fifoInit_cases x with ⟨q, hx⟩ | ⟨hw, ⟨q, hx⟩ | ⟨n, q, q', hx⟩⟩
  · rw [hx]
    exact ⟨rfl, id, rfl, rfl, rfl, rfl, id⟩
  · rw [hx]
    exact ⟨rfl, id, rfl, rfl, rfl, rfl, fun h => absurd (hw.symm.trans h) nofun⟩
  · rw [hx]
    exact ⟨rfl, id, rfl, rfl, rfl, rfl, fun h => absurd (hw.symm.trans h) nofun⟩

/-- `device_cloud_abort`, called by the configuration thread. -/
theorem Phase.abort_cfg {pc : AbortPc} {r : Option AbortPc × Life} (h : Phase x)
    (hr : deviceCloudAbort c ok evts x pc = some r) : Phase r.2 ∧ Aside x r.2 := by
  cases pc with
  | stopPing =>
      obtain rfl := Option.some.inj hr
      exact ⟨h.congr ⟨rfl, rfl, rfl⟩ rfl rfl rfl rfl (fun _ => rfl) id id,
        ⟨rfl, id, rfl, rfl, rfl, rfl, id⟩⟩
  | disconnect =>
      obtain rfl := Option.some.inj hr
      exact ⟨h.congr ⟨rfl, rfl, rfl⟩ rfl rfl rfl rfl id (fun _ => rfl) id,
        ⟨rfl, id, rfl, rfl, rfl, rfl, id⟩⟩
  | mqttAbort =>
      rw [deviceCloudAbort, Option.ite_none_right_eq_some] at hr
      obtain ⟨hall, hr⟩ := hr
      obtain ⟨y, hy, rfl⟩ := Option.map_eq_some_iff.1 hr
      obtain ⟨s, b, rfl, ht, hc, hb⟩ := mqtt_frame hy
      refine ⟨h.congr ht rfl rfl rfl rfl id (fun hx => ?_) id,
        ⟨ht.isThreadTermiSet, fun hd => hc.oobConnSt.symm.trans hd, hc.nwMgmtEvent, rfl, rfl, rfl,
          id⟩⟩
      cases b with
      | false => rfl
      | true => exact absurd ((hb hall rfl).symm.trans hx) nofun
  | cancel =>
      obtain rfl := Option.some.inj hr
      exact ⟨h.cancelWait, aside_cancelWait x⟩

/-- `device_cloud_init`. -/
theorem Phase.init_cfg (h : Phase x) (ok : Bool) (pc : InitPc) :
    Phase (deviceCloudInit ok x pc).2 ∧ Aside x (deviceCloudInit ok x pc).2 := by
  cases pc with
  | tlsInit => exact ⟨h, Aside.refl x⟩
  | setState =>
      exact ⟨h.congr ⟨rfl, rfl, rfl⟩ rfl rfl rfl rfl id id id,
        ⟨rfl, nofun, rfl, rfl, rfl, rfl, id⟩⟩
  | fifoInit => exact ⟨h.fifoInit, aside_fifoInit x⟩
  | timerInit =>
      exact ⟨h.congr ⟨rfl, rfl, rfl⟩ rfl rfl rfl rfl (fun _ => rfl) id id,
        ⟨rfl, id, rfl, rfl, rfl, rfl, id⟩⟩

/-- The configuration thread moves on. -/
theorem Phase.cfgAt (h : Phase x) (pc : CfgPc) : Phase { x with cfg := pc } :=
  h.congr ⟨rfl, rfl, rfl⟩ rfl rfl rfl rfl id id id

/-- **A step of the configuration thread.** -/
theorem LifeInv.step_cfg (h : LifeInv x) (hst : cfgStep c ok evts x = some x') :
    LifeInv x' ∧ (x.s.isThreadTermiSet = true → x'.s.isThreadTermiSet = true) := by
  rw [cfgStep] at hst
  cases hpc : x.cfg with
  | enabled =>
      rw [hpc] at hst
      obtain rfl := Option.some.inj hst
      refine ⟨⟨h.phase.cfgAt _, h.cfg.startup (Aside.refl x) (by rw [hpc]; rfl) _ ?_ ?_⟩, id⟩ <;>
        split <;> nofun
  | credential =>
      rw [hpc] at hst
      obtain rfl := Option.some.inj hst
      refine ⟨⟨h.phase.cfgAt _, h.cfg.startup (Aside.refl x) (by rw [hpc]; rfl) _ ?_ ?_⟩, id⟩ <;>
        split <;> nofun
  | iface =>
      rw [hpc] at hst
      obtain rfl := Option.some.inj hst
      refine ⟨⟨h.phase.cfgAt _, h.cfg.startup (Aside.refl x) (by rw [hpc]; rfl) _ ?_ ?_⟩, id⟩ <;>
        split <;> nofun
  | register =>
      rw [hpc] at hst
      obtain rfl := Option.some.inj hst
      have hy : Aside x { x with s := { x.s with oobConnSt := .nwMgmtEventInit } } :=
        ⟨rfl, nofun, rfl, rfl, rfl, rfl, id⟩
      exact ⟨⟨h.phase.congr ⟨rfl, rfl, rfl⟩ rfl rfl rfl rfl id id id,
        h.cfg.startup hy (by rw [hpc]; rfl) _ nofun nofun⟩, id⟩
  | init recover pc =>
      rw [hpc] at hst
      obtain rfl := Option.some.inj hst
      obtain ⟨hp, hy⟩ := h.phase.init_cfg ok pc
      refine ⟨⟨hp.cfgAt _, ?_⟩, fun hf => hy.flag.trans hf⟩
      cases recover with
      | false =>
          have hgo : afterInit false (deviceCloudInit ok x pc).1 ≠ .take ∧
              afterInit false (deviceCloudInit ok x pc).1 ≠ .setStop := by
            cases pc <;> cases ok <;> exact ⟨nofun, nofun⟩
          exact h.cfg.startup hy (by rw [hpc]; rfl) _ hgo.1 hgo.2
      | true =>
          have hgo : (afterInit true (deviceCloudInit ok x pc).1).started = true ∧
              afterInit true (deviceCloudInit ok x pc).1 ≠ .done ∧
              afterInit true (deviceCloudInit ok x pc).1 ≠ .take ∧
              afterInit true (deviceCloudInit ok x pc).1 ≠ .setStop := by
            cases pc <;> cases ok <;> exact ⟨rfl, nofun, nofun, nofun⟩
          exact h.cfg.moves hy _ hgo.1 hgo.2.1 hgo.2.2.1 hgo.2.2.2
  | cfgSem =>
      rw [hpc] at hst
      obtain rfl := Option.some.inj hst
      refine ⟨⟨h.phase.congr ⟨rfl, rfl, rfl⟩ rfl rfl rfl rfl id id id, ⟨fun _ => ⟨rfl, nofun⟩,
        fun hd _ _ => ?_, fun hx => h.cfg.parks (Or.inr (hx.resolve_left nofun))⟩⟩, id⟩
      have hstarted := (h.cfg.gave (Or.inr (by rw [show x.service = .done from hd]; decide))).1
      rw [hpc] at hstarted
      cases hstarted
  | take =>
      rw [hpc] at hst
      rw [Option.ite_none_right_eq_some] at hst
      obtain rfl := Option.some.inj hst.2
      exact ⟨⟨h.phase.congr ⟨rfl, rfl, rfl⟩ rfl rfl rfl rfl id id id, ⟨fun _ => ⟨rfl, nofun⟩,
        fun _ _ => nofun, fun hx => h.cfg.parks (Or.inr (hx.resolve_left nofun))⟩⟩, id⟩
  | testReceived =>
      rw [hpc] at hst
      obtain rfl := Option.some.inj hst
      refine ⟨⟨h.phase.cfgAt _, h.cfg.moves (Aside.refl x) _ ?_ ?_ ?_ ?_⟩, id⟩
      · split <;> rfl
      all_goals split <;> nofun
  | testDown =>
      rw [hpc] at hst
      obtain rfl := Option.some.inj hst
      refine ⟨⟨h.phase.cfgAt _, ?_⟩, id⟩
      split
      next hdown =>
        exact ⟨fun _ => ⟨rfl, nofun⟩, fun _ _ => nofun, fun _ => Or.inl hdown⟩
      next => exact h.cfg.moves (Aside.refl x) _ rfl nofun nofun nofun
  | setStop =>
      rw [hpc] at hst
      obtain rfl := Option.some.inj hst
      exact ⟨⟨h.phase.congr ⟨rfl, rfl, rfl⟩ rfl rfl rfl rfl id id id, ⟨fun _ => ⟨rfl, nofun⟩,
        fun _ _ => nofun, fun _ => h.cfg.parks (Or.inl hpc)⟩⟩, id⟩
  | abort tls pc =>
      rw [hpc] at hst
      obtain ⟨r, hr, rfl⟩ := Option.map_eq_some_iff.1 hst
      obtain ⟨hp, hy⟩ := h.phase.abort_cfg hr
      refine ⟨⟨hp.cfgAt _, h.cfg.moves hy _ ?_ ?_ ?_ ?_⟩, fun hf => hy.flag.trans hf⟩
      · rcases r with ⟨_ | pc, y⟩ <;> cases tls <;> rfl
      all_goals rcases r with ⟨_ | pc, y⟩ <;> cases tls <;> nofun
  | testTls =>
      rw [hpc] at hst
      obtain rfl := Option.some.inj hst
      refine ⟨⟨h.phase.cfgAt _, h.cfg.moves (Aside.refl x) _ ?_ ?_ ?_ ?_⟩, id⟩
      · split <;> rfl
      all_goals split <;> nofun
  | testTermi =>
      rw [hpc] at hst
      obtain rfl := Option.some.inj hst
      refine ⟨⟨h.phase.cfgAt _, ?_⟩, id⟩
      have hparks : x.s.oobConnSt = .nwMgmtEventStop →
          x.s.nwMgmtEvent = some .ifDown ∨ x.upLost = true := fun hx => h.cfg.parks (Or.inr hx)
      split
      next hf =>
        exact ⟨fun _ => ⟨rfl, fun _ => hf⟩, fun _ _ => nofun,
          fun hx => hparks (hx.resolve_left nofun)⟩
      next hf =>
        exact ⟨fun _ => ⟨rfl, nofun⟩, fun _ ht => absurd ht hf,
          fun hx => hparks (hx.resolve_left nofun)⟩
  | done =>
      rw [hpc] at hst
      cases hst

/-! ### Runs -/

/-- A callback keeps the invariant. -/
theorem LifeInv.callback {s : OobState} (h : LifeInv x) (hs : SameThread x.s s)
    (hc : SameConn x.s s) :
    LifeInv { x with s := s } ∧ (x.s.isThreadTermiSet = true → s.isThreadTermiSet = true) := by
  have hf : x.s.isThreadTermiSet = true → s.isThreadTermiSet = true :=
    fun hf => hs.isThreadTermiSet.trans hf
  refine ⟨⟨h.phase.congr hs rfl rfl rfl rfl id id id, ⟨fun hx => ?_, fun hd ht hcfg => ?_,
    fun hx => ?_⟩⟩, hf⟩
  · exact ⟨(h.cfg.gave hx).1, fun hd => hf ((h.cfg.gave hx).2 hd)⟩
  · exact h.cfg.woken hd (hs.isThreadTermiSet.symm.trans ht) hcfg
  · dsimp only
    rw [hc.nwMgmtEvent]
    exact h.cfg.parks (hx.imp_right fun hd => hc.oobConnSt.symm.trans hd)

/-- **One step.** -/
theorem LifeInv.step {l : LifeLabel} (h : LifeInv x) (hst : lifeStep c l x = some x') :
    LifeInv x' ∧ (x.s.isThreadTermiSet = true → x'.s.isThreadTermiSet = true) := by
  cases l with
  | service ok evts => exact h.step_service hst
  | cfg ok evts => exact h.step_cfg hst
  | sx event =>
      obtain rfl := Option.some.inj hst
      rw [oobSxHandler_eq]
      exact h.callback ⟨rfl, rfl, rfl⟩ ⟨rfl, rfl⟩
  | l2 mgmtEvent =>
      obtain rfl := Option.some.inj hst
      have hgave : x.oobCfgSem = true ∨ x.service ≠ .cfgSem →
          x.cfg.started = true ∧ (x.cfg = .done → x.s.isThreadTermiSet = true) := h.cfg.gave
      cases mgmtEvent with
      | outside => exact ⟨h, id⟩
      | ifUp =>
          exact ⟨⟨h.phase.congr ⟨rfl, rfl, rfl⟩ rfl rfl rfl rfl id id id,
            ⟨hgave, h.cfg.woken, fun hx => Or.inr (decide_eq_true (hx.resolve_right nofun))⟩⟩, id⟩
      | ifDown =>
          exact ⟨⟨h.phase.congr ⟨rfl, rfl, rfl⟩ rfl rfl rfl rfl id id id,
            ⟨hgave, h.cfg.woken, fun _ => Or.inl rfl⟩⟩, id⟩
  | powerTransExpiry alloc =>
      rw [lifeStep, Option.ite_none_right_eq_some] at hst
      obtain rfl := Option.some.inj hst.2
      obtain ⟨⟨h₁, h₂, h₃⟩, ⟨h₄, h₅⟩⟩ := kFifoAllocPut_frame alloc .sxTimerQ x.s
      exact h.callback ⟨h₁, h₂, h₃⟩ ⟨h₄, h₅⟩
  | tlsSessionExpiry alloc =>
      rw [lifeStep, Option.ite_none_right_eq_some] at hst
      obtain rfl := Option.some.inj hst.2
      obtain ⟨ht, hc⟩ := kFifoAllocPut_frame alloc .tlsStateQ x.s
      exact h.callback ht hc
  | pingreqExpiry alloc =>
      rw [lifeStep, Option.ite_none_right_eq_some] at hst
      obtain rfl := Option.some.inj hst.2
      obtain ⟨ht, hc⟩ := kFifoAllocPut_frame alloc .mqttStateQ x.s
      exact h.callback ht hc

theorem lifeInv_init (h : LifeInit x) : LifeInv x where
  phase := by
    refine .running ⟨h.isThreadTermiSet, ?_, ?_, ?_, fun _ => h.oobTlsSessionTimer⟩
    · rw [h.todo]
      rfl
    · rw [h.service]
      rfl
    · rw [h.ops]
      exact List.not_mem_nil
  cfg := by
    refine ⟨fun hx => ?_, fun hd => ?_, fun hx => ?_⟩
    · rcases hx with hx | hx
      · rw [h.oobCfgSem] at hx
        cases hx
      · exact absurd h.service hx
    · rw [h.service] at hd
      cases hd
    · rw [h.cfg, h.oobConnSt] at hx
      rcases hx with hx | hx <;> cases hx

theorem lifeInv_of_reachable (h : LifeReachable c x) : LifeInv x := by
  unfold LifeReachable at h
  exact h.invariant (fun _ hs => lifeInv_init hs) fun _ _ _ hx _ hst => (hx.step hst).1

end PseFw.Oob
