/-
**The end of the out-of-band service.**

A command from the cloud decommissions the device: the security engine forgets what it was
provisioned with, and the service has to let go of the cloud for good.  It closes the connection,
erases its credentials and stops, while the configuration thread may be in the middle of a
reconnection and the callbacks go on.

Main definitions:

* `PseFw.Oob.Decommissioned` — what is true once the credentials are erased;
* `PseFw.Oob.Stuck`, `PseFw.Oob.Finished` — neither thread can go on; both have ended;
* `PseFw.Oob.Parked` — the service waits for the interface.

Main results:

* `PseFw.Oob.decommissioned_of_reachable` — **nothing is done with the cloud afterwards**, whatever
  the configuration thread and the callbacks do;
* `PseFw.Oob.decommission_ends` — **both threads end**, in every order of their steps;
* `PseFw.Oob.parked_down` — the service is parked while the interface is down, or when an event of
  the interface was lost.
-/

import PseFw.Oob.LifeInvariant

set_option relaxedAutoImplicit false
set_option autoImplicit false

namespace PseFw.Oob

variable {c : Credentials} {x x' : Life} {ok : Bool} {evts : List MqttEvt}

/-! ### Nothing after the release -/

/-- **What holds once the credentials are erased**: the security engine has taken the new state and
the PMC the reboot; nothing was done with the cloud since, and there is no connection; and when the
service thread has ended, no timer of the connection runs. -/
structure Decommissioned (x : Life) : Prop where
  earned : x.provisioned = true ∧ x.accepted = true ∧ x.s.isThreadTermiSet = true
  ops : ∃ pre, x.ops = pre ++ [.release] ∧ .release ∉ pre
  connected : x.connected = false
  pingReqTimer : x.pingReqTimer = false
  oobTlsSessionTimer : x.service = .done → x.oobTlsSessionTimer = false

theorem Released.decommissioned (h : Released x) : Decommissioned x where
  earned := ⟨h.closed.provisioned, h.closed.accepted, h.closed.flag⟩
  ops := h.ops
  connected := h.connected
  pingReqTimer := h.pingReqTimer
  oobTlsSessionTimer hd := h.timer (by rw [hd]; decide)

/-- **Nothing is done with the cloud after the release**, whatever the configuration thread and the
callbacks do. -/
theorem decommissioned_of_reachable (h : LifeReachable c x) (hrel : .release ∈ x.ops) :
    Decommissioned x := by
  cases (lifeInv_of_reachable h).phase with
  | running hr => exact absurd hrel hr.ops
  | reports _ _ hops _ => exact absurd hrel hops
  | left _ _ hops => exact absurd hrel hops
  | abort _ _ _ hops _ _ => exact absurd hrel hops
  | release _ _ hops _ _ => exact absurd hrel hops
  | released hr _ => exact hr.decommissioned

/-- The command to decommission the device. -/
def decommissionOne : Incoming :=
  ⟨CStr.bytes "$iothub/methods/POST/decommision_device/?$rid=1", [], [], []⟩

/-- The start of both threads, with the host running. -/
def lifeStart : Life where
  s := oobIdle.s
  connected := false
  dnsStatus := false
  pingReqTimer := false
  oobTlsSessionTimer := false
  oobCfgSem := false
  oobConnSem := false
  service := .cfgSem
  cfg := .enabled
  ops := []
  provisioned := false
  accepted := false
  upLost := false

theorem lifeInit_start : LifeInit lifeStart :=
  ⟨rfl, rfl, rfl, rfl, rfl, rfl, rfl, rfl, rfl, rfl, rfl, rfl, rfl, rfl⟩

/-- The configuration, and the connection. -/
def connectLabels : List LifeLabel :=
  List.replicate 9 (.cfg true []) ++ List.replicate 7 (.service true []) ++
    [.service true [.connack true]] ++ List.replicate 3 (.service true [])

/-- The command comes, and is worked on until the flag is set. -/
def decommissionLabels : List LifeLabel :=
  connectLabels ++ [.service true [.publish decommissionOne [] true]] ++
    List.replicate 18 (.service true [])

/-- The command is worked on to its end. -/
theorem decommissioned_azure : ∃ x, LifeReachable azureCredentials x ∧ .release ∈ x.ops ∧
    Decommissioned x := by
  obtain ⟨x, hx, hrel⟩ : ∃ x, LifeReachable azureCredentials x ∧ CloudOp.release ∈ x.ops :=
    Lts.exists_reach lifeInit_start (decommissionLabels ++ List.replicate 8 (.service true [])) _
      (by decide +kernel)
  exact ⟨x, hx, hrel, decommissioned_of_reachable hx hrel⟩

/-! ### Both threads end -/

/-- What the service thread still has to do at the end. -/
def Life.serviceRank (x : Life) : ℕ :=
  match x.service with
  | .work => 12 + x.s.todo.length
  | .left => 11
  | .abort _ .stopPing => 10
  | .abort _ .disconnect => 9
  | .abort _ .mqttAbort => 8
  | .abort _ .cancel => 7
  | .release => 6
  | .timerStop => 5
  | .connSem => 4
  | _ => 0

/-- What the configuration thread still has to do before it waits or ends. -/
def CfgPc.rank : CfgPc → ℕ
  | .testReceived => 17
  | .testDown => 16
  | .setStop => 15
  | .abort false .stopPing => 14
  | .abort false .disconnect => 13
  | .abort false .mqttAbort => 12
  | .abort false .cancel => 11
  | .testTls => 10
  | .abort true .stopPing => 9
  | .abort true .disconnect => 8
  | .abort true .mqttAbort => 7
  | .abort true .cancel => 6
  | .init true .tlsInit => 5
  | .init true .setState => 4
  | .init true .fifoInit => 3
  | .init true .timerInit => 2
  | .testTermi => 1
  | _ => 0

/-- Both, with the semaphore that lets the configuration thread go on once more. -/
def Life.rank (x : Life) : ℕ := 19 * x.serviceRank + x.cfg.rank + 18 * x.oobConnSem.toNat

/-- The steps of the two threads. -/
def LifeLabel.isThread : LifeLabel → Bool
  | .service _ _ | .cfg _ _ => true
  | _ => false

/-- Neither thread can go on. -/
def Stuck (c : Credentials) (x : Life) : Prop :=
  serviceStep c true [] x = none ∧ cfgStep c true [] x = none

/-- **Both threads have ended**, and the service is decommissioned. -/
structure Finished (x : Life) : Prop where
  service : x.service = .done
  cfg : x.cfg = .done
  decommissioned : Decommissioned x

/-- The service thread cannot wait for a message any more. -/
theorem Phase.closed (h : Phase x) (hf : x.s.isThreadTermiSet = true) :
    Closed x ∧ x.service ≠ .waits := by
  cases h with
  | running hr =>
      rw [hr.flag] at hf
      cases hf
  | reports hr hpc _ _ | left hr hpc _ | abort hr _ hpc _ _ _ | release hr hpc _ _ _ =>
      exact ⟨hr, by rw [hpc]; nofun⟩
  | released hr hpc =>
      refine ⟨hr.closed, ?_⟩
      rcases hpc with hpc | hpc | hpc <;> rw [hpc] <;> decide

/-- A step of the service thread brings it nearer to its end. -/
theorem Phase.rank_service (h : Phase x) (hf : x.s.isThreadTermiSet = true)
    (hst : serviceStep c ok evts x = some x') :
    19 * x'.serviceRank + 18 * x'.oobConnSem.toNat + 1 ≤
      19 * x.serviceRank + 18 * x.oobConnSem.toNat ∧ x'.cfg = x.cfg := by
  rw [serviceStep] at hst
  cases h with
  | running hr =>
      rw [hr.flag] at hf
      cases hf
  | reports hr hpc _ hcheck =>
      rw [hpc] at hst
      dsimp only [workStep] at hst
      rw [if_neg (by rw [hr.ackDue]; decide)] at hst
      split at hst
      next htodo =>
        obtain rfl := Option.some.inj hst
        refine ⟨?_, rfl⟩
        simp only [Life.serviceRank, hpc, hr.flag, if_true]
        omega
      next op todo htodo =>
        rw [htodo, checkAll] at hcheck
        obtain ⟨text, rfl⟩ := exists_event_of_check hcheck
        obtain ⟨y, hy, rfl⟩ := Option.map_eq_some_iff.1 hst
        obtain ⟨s, b, rfl, ht, -, -⟩ := mqtt_frame hy
        refine ⟨?_, rfl⟩
        have hlen : s.todo.length + 1 = x.s.todo.length := by
          rw [ht.todo, htodo]
          rfl
        simp only [Life.serviceRank, hpc, runOp, Life.log]
        omega
  | left hr hpc _ =>
      rw [hpc] at hst
      obtain rfl := Option.some.inj hst
      refine ⟨?_, rfl⟩
      simp only [Life.serviceRank, hpc, hr.flag, if_true]
      omega
  | abort hr pc hpc _ _ _ =>
      rw [hpc] at hst
      obtain ⟨r, hr', rfl⟩ := Option.map_eq_some_iff.1 hst
      have hcalls :=
        calls_deviceCloudAbort (fun hw => ServicePc.noConfusion (hpc.symm.trans hw)) hr'
      refine ⟨?_, hcalls.cfg⟩
      simp only [Life.serviceRank, hpc, hcalls.oobConnSem]
      cases pc with
      | stopPing =>
          obtain rfl := Option.some.inj hr'
          simp only [afterAbort]
          omega
      | disconnect =>
          obtain rfl := Option.some.inj hr'
          simp only [afterAbort]
          omega
      | mqttAbort =>
          rw [deviceCloudAbort, Option.ite_none_right_eq_some] at hr'
          obtain ⟨y, -, rfl⟩ := Option.map_eq_some_iff.1 hr'.2
          cases ok with
          | true =>
              simp only [afterAbort, if_true]
              omega
          | false =>
              simp only [afterAbort, Bool.false_eq_true, if_false, if_true]
              omega
      | cancel =>
          obtain rfl := Option.some.inj hr'
          simp only [afterAbort, if_true]
          omega
  | release hr hpc _ _ _ =>
      rw [hpc] at hst
      obtain rfl := Option.some.inj hst
      refine ⟨?_, rfl⟩
      simp only [Life.serviceRank, hpc, Life.log]
      omega
  | released hr hpc =>
      rcases hpc with hpc | hpc | hpc
      · rw [hpc] at hst
        obtain rfl := Option.some.inj hst
        refine ⟨?_, rfl⟩
        simp only [Life.serviceRank, hpc]
        omega
      · rw [hpc] at hst
        obtain rfl := Option.some.inj hst
        refine ⟨?_, rfl⟩
        simp only [Life.serviceRank, hpc, Bool.toNat_true]
        omega
      · rw [hpc] at hst
        cases hst

/-- What a step of the configuration thread leaves alone when the service thread does not wait. -/
structure Apart (x y : Life) : Prop where
  service : y.service = x.service
  todo : y.s.todo = x.s.todo
  oobConnSem : y.oobConnSem = x.oobConnSem

theorem Apart.serviceRank (h : Apart x x') : x'.serviceRank = x.serviceRank := by
  unfold Life.serviceRank
  rw [h.service, h.todo]

theorem apart_deviceCloudInit (hw : x.service ≠ .waits) (ok : Bool) (pc : InitPc) :
    Apart x (deviceCloudInit ok x pc).2 := by
  cases pc with
  | tlsInit | setState | timerInit => exact ⟨rfl, rfl, rfl⟩
  | fifoInit =>
      rcases fifoInit_cases x with ⟨q, hx⟩ | ⟨hw', -⟩
      · dsimp only [deviceCloudInit]
        rw [hx]
        exact ⟨rfl, rfl, rfl⟩
      · exact absurd hw' hw

/-- A step of the configuration thread brings it nearer to its end, or takes the semaphore. -/
theorem rank_cfg (h : LifeInv x) (hf : x.s.isThreadTermiSet = true)
    (hst : cfgStep c ok evts x = some x') :
    x'.serviceRank = x.serviceRank ∧
      x'.cfg.rank + 18 * x'.oobConnSem.toNat + 1 ≤ x.cfg.rank + 18 * x.oobConnSem.toNat := by
  obtain ⟨-, hw⟩ := h.phase.closed hf
  have hstarted : x.cfg.started = true := by
    refine (h.cfg.gave (Or.inr ?_)).1
    intro hs
    have hr := h.phase.running_of (by rw [hs]; rfl)
    rw [hr.flag] at hf
    cases hf
  rw [cfgStep] at hst
  cases hpc : x.cfg with
  | enabled | credential | iface | register | cfgSem =>
      rw [hpc] at hstarted
      cases hstarted
  | init recover pc =>
      rw [hpc] at hst hstarted
      obtain rfl := Option.some.inj hst
      have hy := apart_deviceCloudInit hw ok pc
      refine ⟨(⟨hy.service, hy.todo, hy.oobConnSem⟩ : Apart x _).serviceRank, ?_⟩
      dsimp only
      rw [hy.oobConnSem]
      cases recover with
      | false => cases hstarted
      | true =>
          have hlt : (afterInit true (deviceCloudInit ok x pc).1).rank + 1 ≤
              (CfgPc.init true pc).rank := by
            cases pc <;> cases ok <;> exact Nat.le_of_ble_eq_true rfl
          omega
  | take =>
      rw [hpc] at hst
      rw [Option.ite_none_right_eq_some] at hst
      obtain ⟨hsem, hst⟩ := hst
      obtain rfl := Option.some.inj hst
      rw [hsem]
      exact ⟨rfl, Nat.le_of_ble_eq_true rfl⟩
  | abort tls pc =>
      rw [hpc] at hst
      obtain ⟨r, hr, rfl⟩ := Option.map_eq_some_iff.1 hst
      have hy := calls_deviceCloudAbort hw hr
      refine ⟨(⟨hy.service, hy.thread.todo, hy.oobConnSem⟩ : Apart x _).serviceRank, ?_⟩
      dsimp only
      rw [hy.oobConnSem]
      have hlt : (afterTeardown tls r.1).rank + 1 ≤ (CfgPc.abort tls pc).rank := by
        cases pc with
        | stopPing | disconnect | cancel =>
            obtain rfl := Option.some.inj hr
            cases tls <;> exact Nat.le_of_ble_eq_true rfl
        | mqttAbort =>
            rw [deviceCloudAbort, Option.ite_none_right_eq_some] at hr
            obtain ⟨y, -, rfl⟩ := Option.map_eq_some_iff.1 hr.2
            cases tls <;> cases ok <;> exact Nat.le_of_ble_eq_true rfl
      omega
  | testReceived =>
      rw [hpc] at hst
      obtain rfl := Option.some.inj hst
      refine ⟨rfl, ?_⟩
      dsimp only
      split <;> simp only [CfgPc.rank] <;> omega
  | testDown =>
      rw [hpc] at hst
      obtain rfl := Option.some.inj hst
      refine ⟨rfl, ?_⟩
      dsimp only
      split <;> simp only [CfgPc.rank] <;> omega
  | setStop =>
      rw [hpc] at hst
      obtain rfl := Option.some.inj hst
      refine ⟨rfl, ?_⟩
      simp only [CfgPc.rank]
      omega
  | testTls =>
      rw [hpc] at hst
      obtain rfl := Option.some.inj hst
      refine ⟨rfl, ?_⟩
      dsimp only
      split <;> simp only [CfgPc.rank] <;> omega
  | testTermi =>
      rw [hpc] at hst
      obtain rfl := Option.some.inj hst
      refine ⟨rfl, ?_⟩
      dsimp only
      rw [if_pos hf]
      simp only [CfgPc.rank]
      omega
  | done =>
      rw [hpc] at hst
      cases hst

/-- A callback leaves both threads where they are. -/
theorem rank_callback {s : OobState} (hs : SameThread x.s s) : { x with s := s }.rank = x.rank := by
  unfold Life.rank Life.serviceRank
  rw [hs.todo]

/-- **The steps of the two threads are counted down.** -/
theorem rank_step {l : LifeLabel} (h : LifeInv x) (hf : x.s.isThreadTermiSet = true)
    (hst : lifeStep c l x = some x') : x'.rank + l.isThread.toNat ≤ x.rank := by
  cases l with
  | service ok evts =>
      obtain ⟨hlt, hcfg⟩ := h.phase.rank_service hf hst
      unfold Life.rank
      rw [hcfg]
      simp only [LifeLabel.isThread, Bool.toNat_true]
      omega
  | cfg ok evts =>
      obtain ⟨heq, hlt⟩ := rank_cfg h hf hst
      unfold Life.rank
      rw [heq]
      simp only [LifeLabel.isThread, Bool.toNat_true]
      omega
  | sx event =>
      obtain rfl := Option.some.inj hst
      rw [oobSxHandler_eq]
      exact (rank_callback ⟨rfl, rfl, rfl⟩).le
  | l2 mgmtEvent =>
      obtain rfl := Option.some.inj hst
      cases mgmtEvent <;> exact le_rfl
  | powerTransExpiry alloc =>
      rw [lifeStep, Option.ite_none_right_eq_some] at hst
      obtain rfl := Option.some.inj hst.2
      obtain ⟨⟨h₁, h₂, h₃⟩, -⟩ := kFifoAllocPut_frame alloc .sxTimerQ x.s
      exact (rank_callback (s := oobPowerTransExpiry alloc x.s) ⟨h₁, h₂, h₃⟩).le
  | tlsSessionExpiry alloc =>
      rw [lifeStep, Option.ite_none_right_eq_some] at hst
      obtain rfl := Option.some.inj hst.2
      exact (rank_callback (kFifoAllocPut_frame alloc .tlsStateQ x.s).1).le
  | pingreqExpiry alloc =>
      rw [lifeStep, Option.ite_none_right_eq_some] at hst
      obtain rfl := Option.some.inj hst.2
      exact (rank_callback (kFifoAllocPut_frame alloc .mqttStateQ x.s).1).le

/-- Two threads that cannot go on have ended. -/
theorem LifeInv.finished (h : LifeInv x) (hf : x.s.isThreadTermiSet = true) (hst : Stuck c x) :
    Finished x := by
  obtain ⟨hservice, hcfg⟩ := hst
  rw [serviceStep] at hservice
  have hdone : x.service = .done ∧ Released x := by
    cases h.phase with
    | running hr =>
        rw [hr.flag] at hf
        cases hf
    | reports hr hpc _ hcheck =>
        rw [hpc] at hservice
        dsimp only [workStep] at hservice
        rw [if_neg (by rw [hr.ackDue]; decide)] at hservice
        split at hservice
        next => cases hservice
        next op todo htodo =>
          rw [htodo, checkAll] at hcheck
          obtain ⟨text, rfl⟩ := exists_event_of_check hcheck
          cases hservice
    | left _ hpc _ | release _ hpc _ _ _ =>
        rw [hpc] at hservice
        cases hservice
    | abort _ pc hpc _ _ _ =>
        rw [hpc] at hservice
        cases pc <;> cases hservice
    | released hr hpc =>
        rcases hpc with hpc | hpc | hpc
        · rw [hpc] at hservice
          cases hservice
        · rw [hpc] at hservice
          cases hservice
        · exact ⟨hpc, hr⟩
  refine ⟨hdone.1, ?_, hdone.2.decommissioned⟩
  rw [cfgStep] at hcfg
  cases hpc : x.cfg with
  | take =>
      rw [hpc] at hcfg
      dsimp only at hcfg
      rw [if_pos (h.cfg.woken hdone.1 hf hpc)] at hcfg
      cases hcfg
  | abort tls pc =>
      rw [hpc] at hcfg
      cases pc <;> cases hcfg
  | done => rfl
  | _ =>
      rw [hpc] at hcfg
      cases hcfg

/-- **The service comes to its end** once the loop is left: in every order of steps the two threads
take only so many more, and when neither can go on, both have ended. -/
theorem decommission_ends (h : LifeReachable c x) (hf : x.s.isThreadTermiSet = true) :
    ∃ N, ∀ ls x', Lts.run (lifeStep c) x ls = some x' →
      ls.countP LifeLabel.isThread ≤ N ∧ (Stuck c x' → Finished x') := by
  refine ⟨x.rank, fun ls x' hr => ?_⟩
  obtain ⟨hrank, hinv, hf'⟩ := Lts.rank_add_countP_le
    (I := fun x => LifeInv x ∧ x.s.isThreadTermiSet = true) Life.rank LifeLabel.isThread
    (fun y l y' hy hst => ⟨⟨(hy.1.step hst).1, (hy.1.step hst).2 hy.2⟩, rank_step hy.1 hy.2 hst⟩)
    ⟨lifeInv_of_reachable h, hf⟩ hr
  exact ⟨by omega, hinv.finished hf'⟩

/-- The command is worked on until the flag is set. -/
theorem decommission_ends_azure : ∃ x, LifeReachable azureCredentials x ∧
    x.s.isThreadTermiSet = true ∧ x.service = .work ∧
    ∃ N, ∀ ls x', Lts.run (lifeStep azureCredentials) x ls = some x' →
      ls.countP LifeLabel.isThread ≤ N ∧ (Stuck azureCredentials x' → Finished x') := by
  obtain ⟨x, hx, hf, hpc⟩ : ∃ x, LifeReachable azureCredentials x ∧
      x.s.isThreadTermiSet = true ∧ x.service = .work :=
    Lts.exists_reach lifeInit_start decommissionLabels _ (by decide +kernel)
  exact ⟨x, hx, hf, hpc, decommission_ends hx hf⟩

/-! ### The parked service -/

/-- The service waits for the interface to come up. -/
structure Parked (x : Life) : Prop where
  service : x.service = .top
  oobConnSt : x.s.oobConnSt = .nwMgmtEventStop

/-- **The service is parked only while the interface is down**, or when it came up between the test
and the assignment of the configuration thread. -/
theorem parked_down (h : LifeReachable c x) (hp : Parked x) :
    x.s.nwMgmtEvent = some .ifDown ∨ x.upLost = true :=
  (lifeInv_of_reachable h).cfg.parks (Or.inr hp.oobConnSt)

/-- The interface goes down, and the configuration thread finds it down. -/
def downLabels : List LifeLabel :=
  connectLabels ++ List.replicate 10 (.service true []) ++ [.l2 .ifDown] ++
    List.replicate 2 (.service true []) ++ List.replicate 3 (.cfg true [])

/-- The connection is torn down, and the service leaves its loop. -/
def parkLabels : List LifeLabel :=
  List.replicate 3 (.cfg true []) ++ List.replicate 3 (.service true [])

/-- The interface goes down. -/
theorem parked_down_azure : ∃ x, LifeReachable azureCredentials x ∧ Parked x ∧
    x.upLost = false ∧ (x.s.nwMgmtEvent = some .ifDown ∨ x.upLost = true) := by
  obtain ⟨x, hx, hpc, hst, hup⟩ : ∃ x, LifeReachable azureCredentials x ∧
      x.service = .top ∧ x.s.oobConnSt = .nwMgmtEventStop ∧ x.upLost = false :=
    Lts.exists_reach lifeInit_start (downLabels ++ parkLabels) _ (by decide +kernel)
  exact ⟨x, hx, ⟨hpc, hst⟩, hup, parked_down hx ⟨hpc, hst⟩⟩

/-- The interface comes up again before the configuration thread has declared it down: the service
is parked, although the interface is up. -/
theorem exists_parked_up : ∃ x, LifeReachable azureCredentials x ∧ Parked x ∧
    x.s.nwMgmtEvent = some .ifUp := by
  obtain ⟨x, hx, hpc, hst, hup⟩ : ∃ x, LifeReachable azureCredentials x ∧
      x.service = .top ∧ x.s.oobConnSt = .nwMgmtEventStop ∧ x.s.nwMgmtEvent = some .ifUp :=
    Lts.exists_reach lifeInit_start (downLabels ++ [.l2 .ifUp] ++ parkLabels) _
      (by decide +kernel)
  exact ⟨x, hx, ⟨hpc, hst⟩, hup⟩

end PseFw.Oob
