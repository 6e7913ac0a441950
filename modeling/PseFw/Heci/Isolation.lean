/-
**Connections do not interfere.**

All connections share one table, and all connections of a client share its receive buffer.  A frame
names the connection it is about by a pair of addresses: the bus messages about one connection carry
it in their payload, the client frames in their header.  This module proves that processing a frame
leaves every other connection and every other receive buffer alone, whatever the senders that run at
the same time have done to the tables.

There are two exceptions the handlers make.  A connect request writes to the first unused entry also
when it is refused because the client's buffer is locked; and two clients that were registered with
the same buffer share it.

Main definitions:

* `PseFw.Heci.namedPair` — the pair of addresses a frame names;
* `PseFw.Heci.PtrInv` — the connections, their clients and their buffers;
* `PseFw.Heci.Confined` — a step that is confined to the connection and the buffer a frame names.

Main results:

* `PseFw.Heci.keeps_ptrInv`, `PseFw.Heci.ptrInv_of_reachable` — the invariant, also while senders
  interleave;
* `PseFw.Heci.recv_confined` — **a frame touches what it names, and nothing else**.
-/

import PseFw.Heci.Threads

set_option relaxedAutoImplicit false
set_option autoImplicit false

namespace PseFw.Heci

/-! ### What a frame names -/

/-- The commands about one connection, which carry its addresses in the payload. -/
def connCommands : List UInt8 :=
  [busMsgClientConnectReq, busMsgClientDisconnectReq, busMsgFlowControl, busMsgResetReq]

/-- **The pair of addresses a frame names**, firmware side first. -/
def namedPair (msg : HeciBusMsg) : Option (UInt8 × UInt8) :=
  if msg.hdr.fwAddr = heciDriverAddress then
    if msg.byte 0 ∈ connCommands then some (msg.byte 1, msg.byte 2) else none
  else some (msg.hdr.fwAddr, msg.hdr.hostAddr)

/-- The pair of addresses of a connection. -/
def HeciConn.pair (x : HeciConn) : UInt8 × UInt8 := (x.fwAddr, x.hostAddr)

/-- The client is the one the frame is addressed to. -/
def Addressed (msg : HeciBusMsg) (s : HeciDev) (i : ClientId) : Prop :=
  ∃ pr ∈ namedPair msg, (s.clients i).clientAddr = pr.1

instance (msg : HeciBusMsg) (s : HeciDev) (i : ClientId) : Decidable (Addressed msg s i) :=
  inferInstanceAs (Decidable (∃ pr ∈ namedPair msg, _))

/-- The frame is the host's request to stop, which closes every connection. -/
def IsHostStop (msg : HeciBusMsg) : Prop :=
  msg.hdr.fwAddr = heciDriverAddress ∧ msg.byte 0 = busMsgHostStopReq

instance (msg : HeciBusMsg) : Decidable (IsHostStop msg) := inferInstanceAs (Decidable (_ ∧ _))

/-- What a connect request does to the unused entry it picks: it opens the connection, or, when the
buffer of the client is locked, leaves the entry unused. -/
def FillsIdle (msg : HeciBusMsg) (s s' : HeciDev) (c : ConnId) : Prop :=
  IsBusMsg busMsgClientConnectReq 4 msg ∧ findIdleConn s = some c ∧
    ((s'.connections c).state = connStateOpen ∧ namedPair msg = some (s'.connections c).pair ∨
      s'.connections c = { s.connections c with
        connectionId := UInt8.ofNat c
        rxBuffer := none })

/-- **A step that is confined to what the frame names.** -/
structure Confined (msg : HeciBusMsg) (s s' : HeciDev) : Prop where
  connections : ∀ c, namedPair msg ≠ some (s.connections c).pair →
    s'.connections c = s.connections c ∨ FillsIdle msg s s' c
  rxMsgs : ∀ p, (∀ i, Addressed msg s i → (s.clients i).properties.rxMsg ≠ some p) →
    s'.rxMsgs p = s.rxMsgs p

/-! ### The invariant -/

/-- Two connections with the same client and the same buffer. -/
structure SamePtr (x y : HeciConn) : Prop where
  client : y.client = x.client
  fwAddr : y.fwAddr = x.fwAddr
  rxBuffer : y.rxBuffer = x.rxBuffer

/-- **A connection carries the address of its client and points to its buffer.**  Unlike the
invariant of the tables, this one survives senders that write to a connection after it was freed. -/
structure PtrInv (s : HeciDev) : Prop where
  free : ∀ i, ¬ Registered s i → (s.clients i).properties.rxMsg = none
  client : ∀ c i, (s.connections c).client = some i →
    Registered s i ∧ (s.connections c).fwAddr = (s.clients i).clientAddr
  pointer : ∀ c p, (s.connections c).rxBuffer = some p →
    ∃ i, (s.connections c).client = some i ∧ (s.clients i).properties.rxMsg = some p

namespace PtrInv

variable {s s' : HeciDev}

/-- One connection is replaced by another one that fits. -/
theorem setConn (h : PtrInv s) {c : ConnId} {x : HeciConn}
    (hcl : ∀ i, x.client = some i → Registered s i ∧ x.fwAddr = (s.clients i).clientAddr)
    (hptr : ∀ p, x.rxBuffer = some p →
      ∃ i, x.client = some i ∧ (s.clients i).properties.rxMsg = some p) :
    PtrInv (s.setConn c x) := by
  refine ⟨h.free, ?_, ?_⟩
  · intro d i hd
    rw [HeciDev.setConn_connections] at hd ⊢
    by_cases hdc : d = c
    · subst hdc
      rw [Function.update_self] at hd ⊢
      exact hcl i hd
    · rw [Function.update_of_ne hdc] at hd ⊢
      exact h.client d i hd
  · intro d p hd
    rw [HeciDev.setConn_connections] at hd ⊢
    by_cases hdc : d = c
    · subst hdc
      rw [Function.update_self] at hd ⊢
      exact hptr p hd
    · rw [Function.update_of_ne hdc] at hd ⊢
      exact h.pointer d p hd

/-- One connection is replaced by one with the same client and the same buffer. -/
theorem setConn_same (h : PtrInv s) {c : ConnId} {x : HeciConn} (hx : SamePtr (s.connections c) x) :
    PtrInv (s.setConn c x) := by
  refine h.setConn (fun i hi => ?_) fun p hp => ?_
  · rw [hx.fwAddr]
    exact h.client c i (hx.client ▸ hi)
  · rw [hx.client]
    exact h.pointer c p (hx.rxBuffer ▸ hp)

/-- A connection loses its buffer. -/
theorem setConn_none (h : PtrInv s) {c : ConnId} {x : HeciConn}
    (hcl : x.client = (s.connections c).client) (hfw : x.fwAddr = (s.connections c).fwAddr)
    (hrx : x.rxBuffer = none) : PtrInv (s.setConn c x) := by
  refine h.setConn (fun i hi => ?_) fun p hp => ?_
  · rw [hfw]
    exact h.client c i (hcl ▸ hi)
  · rw [hrx] at hp
    cases hp

/-- Registered clients keep their address and what they registered, free entries stay free. -/
theorem setClients (h : PtrInv s) (hco : s'.connections = s.connections)
    (hcl : ∀ i, Registered s i → (s'.clients i).clientAddr = (s.clients i).clientAddr ∧
      (s'.clients i).properties = (s.clients i).properties)
    (hfree : ∀ i, ¬ Registered s' i → (s'.clients i).properties.rxMsg = none) : PtrInv s' := by
  refine ⟨hfree, ?_, ?_⟩
  · intro c i hi
    rw [hco] at hi ⊢
    obtain ⟨hreg, hfw⟩ := h.client c i hi
    have haddr := (hcl i hreg).1
    refine ⟨fun h0 => hreg (haddr ▸ h0), ?_⟩
    rw [haddr]
    exact hfw
  · intro c p hp
    rw [hco] at hp ⊢
    obtain ⟨i, hi, hrx⟩ := h.pointer c p hp
    refine ⟨i, hi, ?_⟩
    rw [(hcl i (h.client c i hi).1).2]
    exact hrx

/-- What a client registered does not change, whatever else does. -/
theorem updateClients (h : PtrInv s) (hco : s'.connections = s.connections)
    (haddr : ∀ i, (s'.clients i).clientAddr = (s.clients i).clientAddr)
    (hprop : ∀ i, (s'.clients i).properties = (s.clients i).properties) : PtrInv s' := by
  refine h.setClients hco (fun i _ => ⟨haddr i, hprop i⟩) fun i hi => ?_
  rw [hprop]
  exact h.free i fun hreg => hi (by unfold Registered; rw [haddr]; exact hreg)

theorem of_eq (h : PtrInv s) (hcl : s'.clients = s.clients)
    (hco : s'.connections = s.connections) : PtrInv s' :=
  h.updateClients hco (fun i => by rw [hcl]) fun i => by rw [hcl]

theorem log (h : PtrInv s) (e : Event) : PtrInv (s.log e) := h.of_eq rfl rfl

theorem setRx (h : PtrInv s) (p : RxPtr) (x : HeciRxMsg) : PtrInv (s.setRx p x) := h.of_eq rfl rfl

theorem setSem (h : PtrInv s) (c : ConnId) (n : ℕ) : PtrInv (s.setSem c n) := h.of_eq rfl rfl

theorem io {W : HeciBusMsg → Prop} (h : PtrInv s) (hio : IoStep W s s') : PtrInv s' :=
  h.of_eq hio.clients hio.connections

theorem busReply (h : PtrInv s) (P : Platform) (data : List UInt8) : PtrInv (busReply P data s) :=
  h.io (IoStep.sendProtoMsg (W := fun _ => True) P trivial s)

/-- An entry of the client table is replaced by one with the same address and properties. -/
theorem setClient_same (h : PtrInv s) {i : ClientId} {x : HeciClientCtrl}
    (haddr : x.clientAddr = (s.clients i).clientAddr)
    (hprop : x.properties = (s.clients i).properties) : PtrInv (s.setClient i x) := by
  have hsame : ∀ j, ((s.setClient i x).clients j).clientAddr = (s.clients j).clientAddr ∧
      ((s.setClient i x).clients j).properties = (s.clients j).properties := by
    intro j
    rw [HeciDev.setClient_clients]
    by_cases hj : j = i
    · subst hj
      rw [Function.update_self]
      exact ⟨haddr, hprop⟩
    · rw [Function.update_of_ne hj]
      exact ⟨rfl, rfl⟩
  exact h.updateClients rfl (fun j => (hsame j).1) fun j => (hsame j).2

theorem resetConn (h : PtrInv s) (c : ConnId) : PtrInv (resetConn s c) := by
  have hset : ∀ st, PtrInv (s.setConn c { s.connections c with state := st }) :=
    fun st => h.setConn_same ⟨rfl, rfl, rfl⟩
  unfold Heci.resetConn
  split
  · unfold heciConnectionReset
    split
    · exact h
    · exact (hset _).log _
  · split
    · exact hset _
    · exact h

theorem foldl_resetConn (h : PtrInv s) (l : List ConnId) : PtrInv (l.foldl Heci.resetConn s) := by
  induction l generalizing s with
  | nil => exact h
  | cons c l ih => exact ih (h.resetConn c)

theorem heciRegister (h : PtrInv s) (P : Platform) (client : Option HeciClient) :
    PtrInv (heciRegister P client s).2 := by
  unfold Heci.heciRegister
  cases registerParamsOk client s with
  | none => exact h
  | some cl =>
      dsimp only
      split
      · exact h
      · split
        · exact h
        · next i hi =>
            have hnew : PtrInv ({ s with registeredClients := s.registeredClients + 1 }.setClient i
                (registeredClient i cl)) := by
              refine h.setClients rfl (fun j hj => ?_) fun j hj => ?_
              · -- the entry that is filled in was free
                have hji : j ≠ i := by
                  rintro rfl
                  exact hj (findClient_some hi)
                simp only [HeciDev.setClient_clients, Function.update_of_ne hji, and_self]
              · unfold Registered at hj
                rw [HeciDev.setClient_clients] at hj ⊢
                by_cases hji : j = i
                · subst hji
                  rw [Function.update_self] at hj
                  exact absurd (TableInv.clientAddr_register j) hj
                · rw [Function.update_of_ne hji] at hj ⊢
                  exact h.free j hj
            unfold heciSendNewClientMsg
            dsimp only
            split
            · exact hnew.busReply P _
            · exact hnew

theorem heciEnumResp (h : PtrInv s) (P : Platform) (msg : HeciBusMsg) :
    PtrInv (heciEnumResp P msg s) := by
  have hact : PtrInv { s with
      clients := fun i =>
        if i.val < s.registeredClients then { s.clients i with active := true }
        else s.clients i } := by
    refine h.updateClients rfl (fun i => ?_) fun i => ?_
    · dsimp only
      split <;> rfl
    · dsimp only
      split <;> rfl
  unfold Heci.heciEnumResp
  split
  · exact h
  · dsimp only
    split
    · exact (hact.busReply P _).of_eq rfl rfl
    · exact hact.busReply P _

theorem heciAddClientResp (h : PtrInv s) (msg : HeciBusMsg) : PtrInv (heciAddClientResp msg s) := by
  unfold Heci.heciAddClientResp
  split
  · exact h
  · split
    · exact h
    · split
      · exact h
      · exact h.setClient_same rfl rfl

theorem heciConnectHost (h : PtrInv s) (P : Platform) (msg : HeciBusMsg)
    (hs : heciConnectHost P msg s = some s') : PtrInv s' := by
  cases heciConnectHost_cases hs with
  | ignored _ => exact h
  | refused st _ => exact h.busReply P _
  | noBuffer c _ =>
      exact (h.setConn_none (x := { s.connections c with
        connectionId := UInt8.ofNat c
        rxBuffer := none }) rfl rfl rfl).busReply P _
  | opened i c p _ hi _ _ _ _ hp _ =>
      have hreg : Registered s i := by
        by_contra hreg
        rw [h.free i hreg] at hp
        cases hp
      have h₁ : PtrInv ((lockRx p s).setClient i { s.clients i with
          nOfConns := (s.clients i).nOfConns + 1 }) :=
        (h.setRx p _).setClient_same rfl rfl
      refine PtrInv.busReply (PtrInv.log (PtrInv.setRx (PtrInv.setSem (PtrInv.log
        (h₁.setConn ?_ ?_) _) c 0) p _) _) P _
      · intro j hj
        obtain rfl : i = j := by simpa [connectedConn] using hj
        simp only [HeciDev.setClient_clients, Function.update_self]
        unfold Registered
        simp only [HeciDev.setClient_clients, Function.update_self]
        exact ⟨hreg, (findClient_some hi).symm⟩
      · intro q hq
        obtain rfl : p = q := by simpa [connectedConn] using hq
        exact ⟨i, rfl, by simpa using hp⟩

theorem heciDisconnect (h : PtrInv s) (P : Platform) (msg : HeciBusMsg) :
    PtrInv (heciDisconnect P msg s) := by
  unfold Heci.heciDisconnect
  split
  · exact h
  · dsimp only
    split
    · next c hc =>
        have hset : PtrInv (s.setConn c { s.connections c with
            state := connStateDisconnecting ||| connStateSendDisconnectResp }) :=
          h.setConn_same ⟨rfl, rfl, rfl⟩
        split
        · exact hset
        · exact hset.log _
    · exact h.busReply P _

theorem heciFlowControlRecv (h : PtrInv s) (msg : HeciBusMsg)
    (hs : heciFlowControlRecv msg s = some s') : PtrInv s' := by
  unfold Heci.heciFlowControlRecv at hs
  split at hs
  · cases hs; exact h
  · split at hs
    · cases hs; exact h
    · next c hc =>
        have hcr := (h.setConn_same (x := { s.connections c with
          hostBuffers := (s.connections c).hostBuffers + (grantedPackets (msg.byte 3)).toUInt32 })
          ⟨rfl, rfl, rfl⟩).log (.creditGranted c (grantedPackets (msg.byte 3)).toNat)
        unfold heciWakeupSender at hs
        dsimp only at hs
        split at hs
        · split at hs
          · cases hs; exact hcr
          · cases hs
        · cases hs; exact hcr.setSem _ _

theorem heciResetResp (h : PtrInv s) (P : Platform) (msg : HeciBusMsg) :
    PtrInv (heciResetResp P msg s) := by
  unfold Heci.heciResetResp
  split
  · exact h
  · split
    · exact h
    · next c hc =>
        exact ((h.setConn_same (x := { s.connections c with hostBuffers := 0 })
          ⟨rfl, rfl, rfl⟩).log _).busReply P _

theorem heciFindActiveConn (h : PtrInv s) (msg : HeciBusMsg) {r : Option ConnId × HeciDev}
    (hr : heciFindActiveConn msg s = some r) : PtrInv r.2 := by
  unfold Heci.heciFindActiveConn at hr
  split at hr
  · cases hr; exact h
  · next c hc =>
      have hlog := h.log (.fragment c msg.payload msg.hdr.lastFrag)
      dsimp only at hr
      split at hr
      · cases hr; exact hlog
      · split at hr
        · cases hr
        · next s₁ hb =>
            cases hr
            obtain ⟨rfl, -⟩ := heciGetBufferFromPool_none hb
            exact hlog.setConn_none rfl rfl rfl
        · next p s₁ hb =>
            cases hr
            obtain ⟨i, hi, hp, -, rfl⟩ := heciGetBufferFromPool_some hb
            refine PtrInv.setRx (PtrInv.setConn (hlog.setRx p _) (fun j hj => ?_)
              fun q hq => ?_) p _
            · exact h.client c j hj
            · obtain rfl : p = q := by simpa using hq
              exact ⟨i, hi, hp⟩

theorem heciCopyToClientBuf (h : PtrInv s) (P : Platform) (c : ConnId) (data : List UInt8)
    (hs : heciCopyToClientBuf P c data s = some s') : PtrInv s' := by
  unfold Heci.heciCopyToClientBuf at hs
  dsimp only at hs
  split at hs
  · next p i hp hi =>
      split at hs
      · cases hs
        have herr : PtrInv ((heciConnectionError P c s).setRx p
            { (heciConnectionError P c s).rxMsgs p with msgLock := false }) :=
          (h.busReply P _).setRx p _
        refine herr.setConn_same ?_
        rw [HeciDev.setRx_connections, heciConnectionError, busReply_eq, HeciDev.emit_connections]
        exact ⟨rfl, rfl, rfl⟩
      · split at hs
        · cases hs
        · cases hs
          exact h.setRx p _
  · cases hs

theorem heciSendFlowControl (h : PtrInv s) (P : Platform) (n : ℕ) :
    PtrInv (heciSendFlowControl P n s).2 := by
  unfold Heci.heciSendFlowControl
  split
  · next hn =>
      dsimp only
      split
      · exact h
      · refine PtrInv.busReply ?_ P _
        split
        · exact h
        · next p hp => exact PtrInv.setConn_none (h.setRx p _) rfl rfl rfl
  · exact h

theorem heciCompleteDisconnect (h : PtrInv s) (P : Platform) (n : ℕ) {r : ℤ × HeciDev}
    (hr : heciCompleteDisconnect P n s = some r) : PtrInv r.2 := by
  unfold Heci.heciCompleteDisconnect at hr
  split at hr
  · next hn =>
      dsimp only at hr
      split at hr
      · cases hr; exact h
      · split at hr
        · cases hr
        · next i hi =>
            cases hr
            have hout : PtrInv (releaseRx ⟨n, hn⟩ s) := h.of_eq (by simp) (by simp)
            have hrel : PtrInv (respondDisconnect P ⟨n, hn⟩ (releaseRx ⟨n, hn⟩ s)) :=
              hout.io (ioStep_respondDisconnect P _ _)
            generalize respondDisconnect P ⟨n, hn⟩ (releaseRx ⟨n, hn⟩ s) = s₁ at hrel ⊢
            have hcount : PtrInv (s₁.setClient i { s₁.clients i with
                nOfConns := (s₁.clients i).nOfConns - 1 }) := hrel.setClient_same rfl rfl
            have hfreed : PtrInv ((s₁.setClient i { s₁.clients i with
                nOfConns := (s₁.clients i).nOfConns - 1 }).setConn ⟨n, hn⟩ HeciConn.zero) :=
              hcount.setConn (fun j hj => by cases hj) fun q hq => by cases hq
            exact hfreed.of_eq rfl rfl
  · cases hr; exact h

end PtrInv

/-- **Every operation keeps the pointers.** -/
theorem keeps_ptrInv (P : Platform) : Keeps P PtrInv where
  io hio h := h.io hio
  recv _ h := h.log _
  fwst _ h := h.log _
  clientRead _ h := h.log _
  register client h := h.heciRegister P client
  reset h := (h.log _).foldl_resetConn _
  enum msg h := h.heciEnumResp P msg
  addClient msg h := h.heciAddClientResp msg
  connect msg h hs := h.heciConnectHost P msg hs
  disconnect msg h := h.heciDisconnect P msg
  flowControl msg h hs := h.heciFlowControlRecv msg hs
  resetResp msg h := h.heciResetResp P msg
  findActive msg h hr := h.heciFindActiveConn msg hr
  copy c data h hs := h.heciCopyToClientBuf P c data hs
  finish {s} c h := (h.setConn_same (x := { s.connections c with
    state := (s.connections c).state &&& ~~~ connStateProcessingMsg }) ⟨rfl, rfl, rfl⟩).log _
  sendFlowControl n h := h.heciSendFlowControl P n
  complete n h hr := h.heciCompleteDisconnect P n hr
  waiter {s} c n q h _ := (h.setConn_same (x := { s.connections c with
    waitThreadCount := n }) ⟨rfl, rfl, rfl⟩).setSem q 0
  credit _ h _ _ := (h.log _).setConn_same ⟨rfl, rfl, rfl⟩

/-! ### Senders -/

section senders

variable {c : ConnId} {f k : UInt8} {th : Thread} {ph : Phase} {s s' : HeciDev}

theorem SendIo.ptrInv (hs : SendIo c f k s s') (h : PtrInv s) : PtrInv s' := by
  obtain ⟨s₀, rfl | rfl, hio⟩ := hs
  · exact h.io hio
  · exact (h.log _).io hio

/-- The end of a call keeps the pointers, also when the connection was freed in the meantime. -/
theorem outcome_ptrInv (ho : Outcome c f k s ph s') (h : PtrInv s) : PtrInv s' := by
  cases ho with
  | fault => exact h.log _
  | failed hs => exact hs.ptrInv h
  | @sent s₁ hs =>
      have htaken : PtrInv (finishSend c true s₁) :=
        ((hs.ptrInv h).log _).setConn_same ⟨rfl, rfl, rfl⟩
      exact htaken.log _
  | copying m ms b hs => exact hs.ptrInv h

theorem threadCase_ptrInv (hcase : ThreadCase th s ph s') (h : PtrInv s) : PtrInv s' := by
  cases hcase with
  | refused _ _ => exact h
  | checked _ _ _ _ => exact h.log _
  | waits _ n _ _ => exact h.setConn_same ⟨rfl, rfl, rfl⟩
  | queued _ _ _ hs =>
      rcases hs with rfl | ⟨q, n, rfl⟩
      · exact h
      · exact h.setSem q n
  | acquires _ n _ _ => exact h.setConn_same ⟨rfl, rfl, rfl⟩
  | sends _ _ _ _ ho => exact outcome_ptrInv ho h
  | resumes _ _ _ ho => exact outcome_ptrInv ho h
  | copied _ _ _ _ _ _ _ ho => exact outcome_ptrInv ho h

end senders

theorem ptrInv_initial {s : HeciDev} (h : HeciDev.Initial s) : PtrInv s := by
  refine ⟨fun i _ => ?_, fun c i hi => ?_, fun c p hp => ?_⟩
  · rw [h.clients i]
    rfl
  · rw [h.connections c] at hi
    cases hi
  · rw [h.connections c] at hp
    cases hp

/-- **The pointers are sound in every state the system reaches.** -/
theorem ptrInv_of_reachable {n : ℕ} {P : Platform} {x : Sys n}
    (h : Lts.Reach Sys.Initial (sysStep P) Lts.Free x) : PtrInv x.dev := by
  refine h.invariant (I := fun x => PtrInv x.dev) (fun x hx => ptrInv_initial hx.dev) ?_
  intro x l x' hx _ hst
  cases sysStep_cases hst with
  | op hop => exact (keeps_ptrInv P).opStep hx hop
  | call t c msg _ => exact hx
  | act hcase => exact threadCase_ptrInv hcase hx

/-! ### Confinement -/

namespace Confined

variable {msg : HeciBusMsg} {s s' : HeciDev}

/-- Neither the connections nor the buffers change. -/
theorem of_eq (hco : s'.connections = s.connections) (hrx : s'.rxMsgs = s.rxMsgs) :
    Confined msg s s' :=
  ⟨fun c _ => Or.inl (by rw [hco]), fun p _ => by rw [hrx]⟩

theorem io {W : HeciBusMsg → Prop} (hio : IoStep W s s') : Confined msg s s' :=
  of_eq hio.connections hio.rxMsgs

/-- One connection changes, which the frame names. -/
theorem setConn {c : ConnId} {x : HeciConn} (hc : namedPair msg = some (s.connections c).pair)
    (hco : s'.connections = Function.update s.connections c x) (hrx : s'.rxMsgs = s.rxMsgs) :
    Confined msg s s' := by
  refine ⟨fun d hd => Or.inl ?_, fun p _ => by rw [hrx]⟩
  have hdc : d ≠ c := by
    rintro rfl
    exact hd hc
  rw [hco, Function.update_of_ne hdc]

end Confined

/-- The connection a search finds is the one the frame names. -/
theorem namedPair_of_findConn {msg : HeciBusMsg} {s : HeciDev} {c : ConnId} {st : UInt8}
    (hfw : msg.hdr.fwAddr = heciDriverAddress) (hb : msg.byte 0 ∈ connCommands)
    (hc : heciFindConn (msg.byte 1) (msg.byte 2) st s = some c) :
    namedPair msg = some (s.connections c).pair := by
  obtain ⟨-, hf, hh⟩ := heciFindConn_some hc
  rw [namedPair, if_pos hfw, if_pos hb, HeciConn.pair, hf, hh]

section handlers

variable {P : Platform} {msg : HeciBusMsg} {s s' : HeciDev}

theorem confined_connect (hfw : msg.hdr.fwAddr = heciDriverAddress)
    (hb : msg.byte 0 = busMsgClientConnectReq) (hs : heciConnectHost P msg s = some s') :
    Confined msg s s' := by
  by_cases hlen : msg.hdr.len = 4
  · have hpair : namedPair msg = some (msg.byte 1, msg.byte 2) := by
      rw [namedPair, if_pos hfw, if_pos (by rw [hb]; decide)]
    -- the entries other than the unused one are as before
    have hconns : ∀ (c : ConnId) (x : HeciConn), findIdleConn s = some c →
        s'.connections = Function.update s.connections c x →
        (x.state = connStateOpen ∧ namedPair msg = some x.pair ∨ x = { s.connections c with
          connectionId := UInt8.ofNat c
          rxBuffer := none }) →
        ∀ d, s'.connections d = s.connections d ∨ FillsIdle msg s s' d := by
      intro c x hc hco hx d
      by_cases hdc : d = c
      · subst hdc
        refine Or.inr ⟨⟨hfw, hlen, hb⟩, hc, ?_⟩
        rw [hco, Function.update_self]
        exact hx
      · rw [hco, Function.update_of_ne hdc]
        exact Or.inl rfl
    cases heciConnectHost_cases hs with
    | ignored hne => exact absurd hlen hne
    | refused st _ => exact Confined.of_eq (by simp) (by simp)
    | noBuffer c hc =>
        exact ⟨fun d _ => hconns c _ hc (by simp) (Or.inr rfl) d, fun p _ => by simp⟩
    | opened i c p _ hi _ _ _ hc hp _ =>
        refine ⟨fun d _ => hconns c (connectedConn (s.connections c) c i (s.clients i).properties
          (msg.byte 1) (msg.byte 2) p) hc (by simp [openConn, heciNotifyClient, lockRx])
          (Or.inl ⟨rfl, hpair⟩) d, fun q hq => ?_⟩
        have hqp : q ≠ p := by
          rintro rfl
          exact hq i ⟨_, hpair, findClient_some hi⟩ hp
        simp [openConn, heciNotifyClient, lockRx, Function.update_of_ne hqp]
  · rw [heciConnectHost, if_pos hlen] at hs
    cases hs
    exact Confined.of_eq rfl rfl

theorem confined_disconnect (hfw : msg.hdr.fwAddr = heciDriverAddress)
    (hb : msg.byte 0 = busMsgClientDisconnectReq) : Confined msg s (heciDisconnect P msg s) := by
  unfold heciDisconnect
  split
  · exact Confined.of_eq rfl rfl
  · dsimp only
    split
    · next c hc =>
        have hpair := namedPair_of_findConn hfw (by rw [hb]; decide) hc
        split
        · exact Confined.setConn hpair rfl rfl
        · exact Confined.setConn hpair rfl rfl
    · exact Confined.of_eq (by simp) (by simp)

theorem confined_flowControl (hfw : msg.hdr.fwAddr = heciDriverAddress)
    (hb : msg.byte 0 = busMsgFlowControl) (hs : heciFlowControlRecv msg s = some s') :
    Confined msg s s' := by
  unfold heciFlowControlRecv at hs
  split at hs
  · cases hs
    exact Confined.of_eq rfl rfl
  · split at hs
    · cases hs
      exact Confined.of_eq rfl rfl
    · next c hc =>
        have hpair := namedPair_of_findConn hfw (by rw [hb]; decide) hc
        unfold heciWakeupSender at hs
        dsimp only at hs
        split at hs
        · split at hs
          · cases hs
            exact Confined.setConn hpair rfl rfl
          · cases hs
        · cases hs
          exact Confined.setConn hpair rfl rfl

theorem confined_resetResp (hfw : msg.hdr.fwAddr = heciDriverAddress)
    (hb : msg.byte 0 = busMsgResetReq) : Confined msg s (heciResetResp P msg s) := by
  unfold heciResetResp
  split
  · exact Confined.of_eq rfl rfl
  · split
    · exact Confined.of_eq rfl rfl
    · next c hc =>
        have hpair := namedPair_of_findConn hfw (by rw [hb]; decide) hc
        exact Confined.setConn hpair (by simp; rfl) (by simp)

/-- **A bus message is confined**, unless it is the request to stop. -/
theorem confined_busMessage (hfw : msg.hdr.fwAddr = heciDriverAddress)
    (hstop : msg.byte 0 ≠ busMsgHostStopReq) (hs : heciProcessBusMessage P msg s = some s') :
    Confined msg s s' := by
  have hc := heciProcessBusMessage_cases P msg s
  rw [hs] at hc
  cases hc with
  | io _ hio => exact Confined.io hio
  | stop hb => exact absurd hb hstop
  | enum _ =>
      unfold heciEnumResp
      split
      · exact Confined.of_eq rfl rfl
      · dsimp only
        split
        · exact Confined.of_eq (by simp) (by simp)
        · exact Confined.of_eq (by simp) (by simp)
  | connect hb hr => exact confined_connect hfw hb hr.symm
  | disconnect hb => exact confined_disconnect hfw hb
  | flowControl hb hr => exact confined_flowControl hfw hb hr.symm
  | resetResp hb => exact confined_resetResp hfw hb
  | addClient _ =>
      unfold heciAddClientResp
      split
      · exact Confined.of_eq rfl rfl
      · split
        · exact Confined.of_eq rfl rfl
        · split
          · exact Confined.of_eq rfl rfl
          · exact Confined.of_eq rfl rfl

/-! ### Client frames -/

/-- **Only the connection and the buffer of its client change**, and the connection keeps its
client. -/
structure OnlyConn (c : ConnId) (s s' : HeciDev) : Prop where
  clients : s'.clients = s.clients
  client : (s'.connections c).client = (s.connections c).client
  connections : ∀ d, d ≠ c → s'.connections d = s.connections d
  rxMsgs : ∀ p, (∀ i, (s.connections c).client = some i →
    (s.clients i).properties.rxMsg ≠ some p) → s'.rxMsgs p = s.rxMsgs p

namespace OnlyConn

variable {c : ConnId} {s'' : HeciDev}

theorem refl (c : ConnId) (s : HeciDev) : OnlyConn c s s :=
  ⟨rfl, rfl, fun _ _ => rfl, fun _ _ => rfl⟩

theorem trans (h : OnlyConn c s s') (h' : OnlyConn c s' s'') : OnlyConn c s s'' := by
  refine ⟨h'.clients.trans h.clients, h'.client.trans h.client,
    fun d hd => (h'.connections d hd).trans (h.connections d hd), fun p hp => ?_⟩
  refine (h'.rxMsgs p fun i hi => ?_).trans (h.rxMsgs p hp)
  rw [h.clients]
  exact hp i (h.client ▸ hi)

theorem log (h : OnlyConn c s s') (e : Event) : OnlyConn c s (s'.log e) :=
  ⟨h.clients, h.client, h.connections, h.rxMsgs⟩

theorem setConn (h : OnlyConn c s s') {x : HeciConn} (hx : x.client = (s.connections c).client) :
    OnlyConn c s (s'.setConn c x) := by
  refine ⟨h.clients, ?_, fun d hd => ?_, h.rxMsgs⟩
  · rw [HeciDev.setConn_connections, Function.update_self]
    exact hx
  · rw [HeciDev.setConn_connections, Function.update_of_ne hd]
    exact h.connections d hd

theorem setRx (h : OnlyConn c s s') {i : ClientId} {p : RxPtr}
    (hi : (s.connections c).client = some i) (hp : (s.clients i).properties.rxMsg = some p)
    (x : HeciRxMsg) : OnlyConn c s (s'.setRx p x) := by
  refine ⟨h.clients, h.client, h.connections, fun q hq => ?_⟩
  have hqp : q ≠ p := by
    rintro rfl
    exact hq i hi hp
  rw [HeciDev.setRx_rxMsgs, Function.update_of_ne hqp]
  exact h.rxMsgs q hq

theorem io {W : HeciBusMsg → Prop} (h : OnlyConn c s s') (hio : IoStep W s' s'') :
    OnlyConn c s s'' :=
  ⟨hio.clients.trans h.clients, by rw [hio.connections]; exact h.client,
    fun d hd => by rw [hio.connections]; exact h.connections d hd,
    fun p hp => by rw [hio.rxMsgs]; exact h.rxMsgs p hp⟩

end OnlyConn

theorem onlyConn_findActive {c : ConnId} {r : Option ConnId × HeciDev}
    (hc : fragmentConn msg s = some c) (hr : heciFindActiveConn msg s = some r) :
    OnlyConn c s r.2 ∧ ∀ d ∈ r.1, d = c := by
  unfold heciFindActiveConn at hr
  unfold fragmentConn at hc
  rw [hc] at hr
  dsimp only at hr
  have hlog := (OnlyConn.refl c s).log (.fragment c msg.payload msg.hdr.lastFrag)
  split at hr
  · cases hr
    exact ⟨hlog, fun d hd => (Option.some.inj hd).symm⟩
  · split at hr
    · cases hr
    · next s₁ hb =>
        cases hr
        obtain ⟨rfl, -⟩ := heciGetBufferFromPool_none hb
        exact ⟨hlog.setConn rfl, fun d hd => by cases hd⟩
    · next p s₁ hb =>
        cases hr
        obtain ⟨i, hi, hp, -, rfl⟩ := heciGetBufferFromPool_some hb
        have hlock := hlog.setRx hi hp { s.rxMsgs p with msgLock := true }
        refine ⟨OnlyConn.setRx (OnlyConn.setConn hlock (x := { s.connections c with
          rxBuffer := some p
          state := (s.connections c).state ||| connStateProcessingMsg }) rfl) hi hp _, ?_⟩
        exact fun d hd => (Option.some.inj hd).symm

theorem onlyConn_copy {c : ConnId} {data : List UInt8} (hinv : PtrInv s)
    (hs : heciCopyToClientBuf P c data s = some s') : OnlyConn c s s' := by
  unfold heciCopyToClientBuf at hs
  dsimp only at hs
  split at hs
  · next p i hp hi =>
      obtain ⟨j, hj, hjp⟩ := hinv.pointer c p hp
      rw [hi] at hj
      cases hj
      split at hs
      · cases hs
        have herr : OnlyConn c s (heciConnectionError P c s) :=
          (OnlyConn.refl c s).io (IoStep.sendProtoMsg (W := fun _ => True) P trivial s)
        exact (herr.setRx hi hjp _).setConn rfl
      · split at hs
        · cases hs
        · cases hs
          exact (OnlyConn.refl c s).setRx hi hjp _
  · cases hs

/-- **A client frame is confined.** -/
theorem confined_clientMessage (hfw : msg.hdr.fwAddr ≠ heciDriverAddress) (hinv : PtrInv s)
    (hs : heciProcessClientMessage P msg s = some s') : Confined msg s s' := by
  rw [heciProcessClientMessage_eq] at hs
  obtain ⟨⟨oc, s₁⟩, hr, hs⟩ := Option.bind_eq_some_iff.1 hs
  cases hc : fragmentConn msg s with
  | none =>
      unfold heciFindActiveConn at hr
      unfold fragmentConn at hc
      rw [hc] at hr
      cases hr
      cases hs
      exact Confined.of_eq rfl rfl
  | some c =>
      obtain ⟨h₁, hoc⟩ := onlyConn_findActive hc hr
      have hinv₁ : PtrInv s₁ := hinv.heciFindActiveConn msg hr
      have honly : OnlyConn c s s' := by
        cases oc with
        | none =>
            cases hs
            exact h₁
        | some d =>
            obtain rfl : d = c := hoc d rfl
            obtain ⟨s₂, hs₂, rfl⟩ := Option.map_eq_some_iff.1 hs
            have h₂ := h₁.trans (onlyConn_copy hinv₁ hs₂)
            split
            · exact (h₂.setConn (x := { s₂.connections d with
                state := (s₂.connections d).state &&& ~~~ connStateProcessingMsg }) h₂.client).log _
            · exact h₂
      obtain ⟨-, hf, hh⟩ := heciFindConn_some hc
      have hpair : namedPair msg = some (s.connections c).pair := by
        rw [namedPair, if_neg hfw, HeciConn.pair, hf, hh]
      refine ⟨fun d hd => Or.inl (honly.connections d ?_), fun p hp => honly.rxMsgs p ?_⟩
      · rintro rfl
        exact hd hpair
      · intro i hi
        refine hp i ⟨_, hpair, ?_⟩
        exact (hinv.client c i hi).2.symm

/-- **Processing a frame is confined to what the frame names.** -/
theorem confined_message (hinv : PtrInv s) (hstop : ¬ IsHostStop msg)
    (hs : heciProcessMessage P msg s = some s') : Confined msg s s' := by
  -- taking the frame into the trace changes neither table
  have hlog : Confined msg (s.log (.recv msg)) s' → Confined msg s s' :=
    fun h => ⟨h.connections, h.rxMsgs⟩
  refine hlog ?_
  unfold heciProcessMessage at hs
  dsimp only at hs
  by_cases hfw : msg.hdr.fwAddr = heciDriverAddress
  · rw [if_pos hfw] at hs
    exact confined_busMessage hfw (fun hb => hstop ⟨hfw, hb⟩) hs
  · rw [if_neg hfw] at hs
    split at hs
    · cases hs
      exact Confined.of_eq rfl rfl
    · split at hs
      · cases hs
        exact Confined.of_eq rfl rfl
      · exact confined_clientMessage hfw (hinv.log _) hs

end handlers

/-- **A frame touches what it names, and nothing else**: in every state the system reaches, and for
every frame but the request to stop, a connection between other addresses is unchanged, unless it is
the unused entry a connect request picks; and a receive buffer that is not that of the client the
frame is addressed to is unchanged. -/
theorem recv_confined {n : ℕ} {P : Platform} {x x' : Sys n} {msg : HeciBusMsg}
    (hx : Lts.Reach Sys.Initial (sysStep P) Lts.Free x) (hstop : ¬ IsHostStop msg)
    (hst : sysStep P (.op (.recv msg)) x = some x') : Confined msg x.dev x'.dev := by
  obtain ⟨s', hs', rfl⟩ := Option.map_eq_some_iff.1 hst
  exact confined_message (ptrInv_of_reachable hx) hstop hs'

/-- Two clients with one connection each; a fragment for the second one leaves the first connection
and its buffer alone. -/
theorem recv_confined_two_clients :
    ∃ x x' : Sys 0, Lts.Reach Sys.Initial (sysStep Platform.nominal) Lts.Free x ∧
      sysStep Platform.nominal (.op (.recv (HeciBusMsg.mk' 8 33 true [5]))) x = some x' ∧
      (x.dev.connections 0).state = connStateOpen ∧ (x.dev.connections 1).pair = (33, 8) ∧
      x'.dev.connections 0 = x.dev.connections 0 ∧ x'.dev.rxMsgs 0 = x.dev.rxMsgs 0 := by
  obtain ⟨x, hx, hopen, hpair₀, hpair, hidle, hcl, hdefined⟩ :=
    exists_sysReachable (n := 0) Platform.nominal
    ([.op (.register (some (plainClient 1 0 4096 1))),
      .op (.register (some (plainClient 2 1 4096 1))), busLabel [busMsgHostEnumReq, 0, 0, 0],
      busLabel [busMsgClientConnectReq, 32, 7, 0], busLabel [busMsgClientConnectReq, 33, 8, 0],
      .op (.sendFlowControl 1)])
    (fun x => (x.dev.connections 0).state = connStateOpen ∧
      (x.dev.connections 0).pair = (32, 7) ∧ (x.dev.connections 1).pair = (33, 8) ∧
      findIdleConn x.dev ≠ some 0 ∧
      (∀ i, (x.dev.clients i).clientAddr = 33 → (x.dev.clients i).properties.rxMsg ≠ some 0) ∧
      (sysStep Platform.nominal (.op (.recv (HeciBusMsg.mk' 8 33 true [5]))) x).isSome = true)
    (by decide +kernel)
  obtain ⟨x', hx'⟩ := Option.isSome_iff_exists.1 hdefined
  have hconf := recv_confined hx (by decide) hx'
  refine ⟨x, x', hx, hx', hopen, hpair, ?_, hconf.rxMsgs 0 fun i hi => ?_⟩
  · rcases hconf.connections 0 (by rw [hpair₀]; decide) with h | h
    · exact h
    · exact absurd h.2.1 hidle
  · obtain ⟨pr, hpr, haddr⟩ := hi
    cases hpr
    exact hcl i haddr

/-- A client with room for two connections has its buffer locked when the host connects again: the
request is rejected, and yet the unused entry changes.  And two clients that were registered with
one buffer share it: a connect request for the first one locks it for both. -/
theorem recv_not_isolated :
    (∃ x x' : Sys 0, Lts.Reach Sys.Initial (sysStep Platform.nominal) Lts.Free x ∧
      sysStep Platform.nominal (busLabel [busMsgClientConnectReq, 32, 8, 0]) x = some x' ∧
      (x.dev.connections 1).pair ≠ (32, 8) ∧
      (x'.dev.connections 1).state = connStateUnused ∧
      x'.dev.connections 1 ≠ x.dev.connections 1) ∧
    ∃ x x' : Sys 0, Lts.Reach Sys.Initial (sysStep Platform.nominal) Lts.Free x ∧
      sysStep Platform.nominal (busLabel [busMsgClientConnectReq, 32, 7, 0]) x = some x' ∧
      (x.dev.clients 1).clientAddr ≠ 32 ∧ (x.dev.clients 1).properties.rxMsg = some 0 ∧
      (x'.dev.rxMsgs 0).msgLock ≠ (x.dev.rxMsgs 0).msgLock := by
  constructor
  · obtain ⟨x, hx, hpair, hnext⟩ := exists_sysReachable (n := 0) Platform.nominal
      (connectLabels (plainClient 1 0 4096 2) 7)
      (fun x => (x.dev.connections 1).pair ≠ (32, 8) ∧
        (sysStep Platform.nominal (busLabel [busMsgClientConnectReq, 32, 8, 0]) x).any
          (fun x' => decide ((x'.dev.connections 1).state = connStateUnused ∧
            x'.dev.connections 1 ≠ x.dev.connections 1)) = true) (by decide +kernel)
    obtain ⟨x', hx', hmem⟩ := (Option.any_eq_true _ _).1 hnext
    exact ⟨x, x', hx, hx', hpair, of_decide_eq_true hmem⟩
  · obtain ⟨x, hx, haddr, hrx, hnext⟩ := exists_sysReachable (n := 0) Platform.nominal
      [.op (.register (some (plainClient 1 0 4096 1))),
        .op (.register (some (plainClient 2 0 4096 1))), busLabel [busMsgHostEnumReq, 0, 0, 0]]
      (fun x => (x.dev.clients 1).clientAddr ≠ 32 ∧
        (x.dev.clients 1).properties.rxMsg = some 0 ∧
        (sysStep Platform.nominal (busLabel [busMsgClientConnectReq, 32, 7, 0]) x).any
          (fun x' => decide ((x'.dev.rxMsgs 0).msgLock ≠ (x.dev.rxMsgs 0).msgLock)) = true)
      (by decide +kernel)
    obtain ⟨x', hx', hmem⟩ := (Option.any_eq_true _ _).1 hnext
    exact ⟨x, x', hx, hx', haddr, hrx, of_decide_eq_true hmem⟩

end PseFw.Heci
