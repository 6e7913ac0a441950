/-
**What an operation can do.**

With the invariant of the tables at hand the branches of the handlers can be listed once and for
all: which connection is touched, in which state it was, and what it becomes.  Every further
invariant of the layer is proved from these lists, without looking into the handlers again.

Main definitions:

* `PseFw.Heci.resetEntry`, `PseFw.Heci.disconnEvent` — what a reset does to one connection;
* `PseFw.Heci.AcceptCase`, `PseFw.Heci.CopyCase` — the two phases of taking a fragment;
* `PseFw.Heci.RecvCase`, `PseFw.Heci.OpCase` — the cases of a frame and of an operation.

Main results:

* `PseFw.Heci.heciReset_eq` — **a reset in one formula**;
* `PseFw.Heci.recv_cases`, `PseFw.Heci.opStep_cases` — **the cases are exhaustive**.
-/

import PseFw.Heci.ConnTable

set_option relaxedAutoImplicit false
set_option autoImplicit false

namespace PseFw.Heci

/-! ### A reset -/

/-- The callback that tells a client that its connection is closed. -/
def disconnEvent (conns : ConnId → HeciConn) (c : ConnId) : Event :=
  .notify c (conns c).eventCb (conns c).param .disconn

/-- What a reset makes of a connection. -/
def resetEntry (x : HeciConn) : HeciConn :=
  if x.has connStateOpen || x.has connStateDisconnecting then
    { x with state := connStateDisconnecting }
  else x

/-- The callbacks of a reset: one for each open connection. -/
def resetEvents (conns : ConnId → HeciConn) (l : List ConnId) : List Event :=
  (l.filter fun c => (conns c).has connStateOpen).map (disconnEvent conns)

theorem resetEvents_congr {conns conns' : ConnId → HeciConn} {l : List ConnId}
    (h : ∀ c ∈ l, conns' c = conns c) : resetEvents conns' l = resetEvents conns l := by
  unfold resetEvents
  have hf : l.filter (fun c => (conns' c).has connStateOpen) =
      l.filter fun c => (conns c).has connStateOpen :=
    List.filter_congr fun c hc => by rw [h c hc]
  rw [hf]
  refine List.map_congr_left fun c hc => ?_
  unfold disconnEvent
  rw [h c (List.mem_of_mem_filter hc)]

theorem resetEvents_cons (conns : ConnId → HeciConn) (d : ConnId) (l : List ConnId) :
    resetEvents conns (d :: l) = resetEvents conns [d] ++ resetEvents conns l := by
  unfold resetEvents
  rw [← List.map_append, ← List.filter_append, List.singleton_append]

/-- A connection that is open is one that has a client. -/
def OpenOwned (s : HeciDev) : Prop :=
  ∀ c, (s.connections c).has connStateOpen = true → (s.connections c).client.isSome

theorem not_open_resetEntry (x : HeciConn) : (resetEntry x).has connStateOpen = false := by
  unfold resetEntry
  split
  · show (connStateDisconnecting &&& connStateOpen != 0) = false
    decide
  · next h =>
      simp only [Bool.or_eq_true, not_or] at h
      simpa using h.1

theorem resetConn_eq {s : HeciDev} (h : OpenOwned s) (c : ConnId) :
    resetConn s c =
      (s.setConn c (resetEntry (s.connections c))).emit (resetEvents s.connections [c]) := by
  unfold resetConn resetEntry resetEvents
  by_cases ho : (s.connections c).has connStateOpen = true
  · obtain ⟨i, hi⟩ := Option.isSome_iff_exists.1 (h c ho)
    rw [if_pos ho, ho]
    simp only [heciConnectionReset, hi, Bool.true_or, ↓reduceIte, ho, List.filter_cons_of_pos,
      List.filter_nil, List.map_cons, List.map_nil]
    simp [heciNotifyClient, HeciDev.log, HeciDev.emit, disconnEvent]
  · have ho' : (s.connections c).has connStateOpen = false := by simpa using ho
    rw [if_neg ho, ho']
    by_cases hd : (s.connections c).has connStateDisconnecting = true
    · simp [hd, ho']
    · have hd' : (s.connections c).has connStateDisconnecting = false := by simpa using hd
      simp [hd', ho', HeciDev.setConn]

theorem OpenOwned.resetConn {s : HeciDev} (h : OpenOwned s) (d : ConnId) :
    OpenOwned (resetConn s d) := by
  intro c hc
  rw [resetConn_eq h] at hc ⊢
  simp only [HeciDev.emit_connections, HeciDev.setConn_connections] at hc ⊢
  by_cases hcd : c = d
  · subst hcd
    rw [Function.update_self, not_open_resetEntry] at hc
    cases hc
  · rw [Function.update_of_ne hcd] at hc ⊢
    exact h c hc

/-- The loop of a reset, over any list of distinct connections. -/
theorem foldl_resetConn {l : List ConnId} (hl : l.Nodup) {s : HeciDev} (h : OpenOwned s) :
    l.foldl resetConn s = { s with
      connections := fun c => if c ∈ l then resetEntry (s.connections c) else s.connections c
      events := s.events ++ resetEvents s.connections l } := by
  induction l generalizing s with
  | nil => simp [resetEvents]
  | cons d l ih =>
      obtain ⟨hd, hl⟩ := List.nodup_cons.1 hl
      have hstep := resetConn_eq h d
      -- the entries that are still to come are those of the state the loop started from
      have hne : ∀ c ∈ l, (resetConn s d).connections c = s.connections c := by
        intro c hc
        rw [hstep]
        exact Function.update_of_ne (fun he => hd (by rwa [he] at hc)) _ _
      have hconn : (fun c => if c ∈ l then resetEntry ((resetConn s d).connections c)
          else (resetConn s d).connections c) =
          fun c => if c ∈ d :: l then resetEntry (s.connections c) else s.connections c := by
        funext c
        by_cases hc : c ∈ l
        · rw [if_pos hc, if_pos (List.mem_cons_of_mem d hc), hne c hc]
        · rw [if_neg hc, hstep, HeciDev.emit_connections, HeciDev.setConn_connections]
          by_cases hcd : c = d
          · subst hcd
            rw [Function.update_self, if_pos (List.mem_cons_self ..)]
          · rw [Function.update_of_ne hcd, if_neg (by simp [hc, hcd])]
      rw [List.foldl_cons, ih hl (h.resetConn d), hconn, resetEvents_congr hne, resetEvents_cons,
        hstep]
      simp only [HeciDev.emit, HeciDev.setConn, List.append_assoc]

/-- **A reset in one formula.** -/
theorem heciReset_eq {s : HeciDev} (h : TableInv s) :
    heciReset s = { s with
      connections := fun c => resetEntry (s.connections c)
      events := s.events ++ .reset :: resetEvents s.connections (List.finRange _) } := by
  have hopen : OpenOwned (s.log .reset) := by
    intro c hc
    obtain ⟨i, hi, -⟩ := (h.conns c).used (h.used_of_open hc)
    simp [hi]
  unfold heciReset
  rw [foldl_resetConn (List.nodup_finRange _) hopen]
  simp

/-! ### Taking a fragment -/

/-- The state of a connection that is open. -/
def IsOpen (x : HeciConn) : Prop := x.state = 1 ∨ x.state = 3

instance (x : HeciConn) : Decidable (IsOpen x) := inferInstanceAs (Decidable (_ ∨ _))

/-- The connection is between the two addresses. -/
def Between (x : HeciConn) (fwAddr hostAddr : UInt8) : Prop :=
  x.fwAddr = fwAddr ∧ x.hostAddr = hostAddr

instance (x : HeciConn) (fwAddr hostAddr : UInt8) : Decidable (Between x fwAddr hostAddr) :=
  inferInstanceAs (Decidable (_ ∧ _))

/-- **A fragment finds its buffer**: the first fragment of a message locks the client's buffer, the
others go to the buffer the connection holds. -/
inductive AcceptCase (s : HeciDev) (c : ConnId) (i : ClientId) (p : RxPtr) : HeciDev → Prop
  | first : (s.connections c).state = 1 → (s.clients i).properties.rxMsg = some p →
      (s.rxMsgs p).msgLock = false →
      AcceptCase s c i p ((s.setConn c { s.connections c with
        rxBuffer := some p
        state := 3 }).setRx p { s.rxMsgs p with
          msgLock := true
          type := .request
          connectionId := (s.connections c).connectionId
          length := 0 })
  | next : (s.connections c).state = 3 → (s.connections c).rxBuffer = some p → AcceptCase s c i p s

/-- Then the connection is in the middle of a message. -/
theorem accept_state {s s₁ : HeciDev} {c : ConnId} {i : ClientId} {p : RxPtr}
    (h : AcceptCase s c i p s₁) :
    (s₁.connections c).state = 3 ∧ (s₁.connections c).rxBuffer = some p := by
  cases h with
  | first _ _ _ => simp
  | next hst hp => exact ⟨hst, hp⟩

/-- The message would not fit. -/
def Oversize (s : HeciDev) (i : ClientId) (p : RxPtr) (n : ℕ) : Prop :=
  (s.rxMsgs p).length + n > (s.clients i).properties.rxBufferLen ∨
    (s.rxMsgs p).length + n > (s.clients i).properties.maxMsgSize

/-- **A fragment is copied** to the buffer, or the buffer is given up. -/
inductive CopyCase (P : Platform) (s : HeciDev) (c : ConnId) (i : ClientId) (p : RxPtr)
    (data : List UInt8) : HeciDev → Prop
  | oversize : Oversize s i p data.length →
      CopyCase P s c i p data (((heciConnectionError P c s).setRx p { s.rxMsgs p with
        msgLock := false }).setConn c { s.connections c with state := 1 })
  | copied (b : ℕ → UInt8) : ¬ Oversize s i p data.length → (s.rxMsgs p).buffer = some b →
      CopyCase P s c i p data (s.setRx p { s.rxMsgs p with
        buffer := some (memcpyTo b (s.rxMsgs p).length data)
        length := ((s.rxMsgs p).length + data.length) % 2 ^ 16
        type := .request
        connectionId := (s.connections c).connectionId })

theorem heciCopyToClientBuf_cases {P : Platform} {s s' : HeciDev} {c : ConnId} {i : ClientId}
    {data : List UInt8} (hst : (s.connections c).state = 3)
    (hcl : (s.connections c).client = some i)
    (h : heciCopyToClientBuf P c data s = some s') :
    ∃ p, (s.connections c).rxBuffer = some p ∧ CopyCase P s c i p data s' := by
  unfold heciCopyToClientBuf at h
  dsimp only at h
  split at h
  · next p j hp hj =>
      rw [hcl] at hj
      cases hj
      refine ⟨p, hp, ?_⟩
      split at h
      · next hover =>
          cases h
          have hclear : (s.connections c).state &&& ~~~ connStateProcessingMsg = 1 := by
            rw [hst]; decide
          have hrx : (heciConnectionError P c s).rxMsgs = s.rxMsgs := by simp [heciConnectionError]
          rw [hclear, hrx]
          exact CopyCase.oversize hover
      · next hfit =>
          split at h
          · cases h
          · next b hb =>
              cases h
              exact CopyCase.copied b hfit hb
  · cases h

/-- **What a fragment does** to the connection it is addressed to. -/
inductive FragmentCase (P : Platform) (msg : HeciBusMsg) (s : HeciDev) (c : ConnId) :
    HeciDev → Prop
  | refused (i : ClientId) (p : RxPtr) : (s.connections c).state = 1 →
      (s.connections c).client = some i → (s.clients i).properties.rxMsg = some p →
      (s.rxMsgs p).msgLock = true →
      FragmentCase P msg s c ((s.log (.fragment c msg.payload msg.hdr.lastFrag)).setConn c
        { s.connections c with rxBuffer := none })
  | taken (i : ClientId) (p : RxPtr) (s₁ s₂ : HeciDev) : (s.connections c).client = some i →
      AcceptCase (s.log (.fragment c msg.payload msg.hdr.lastFrag)) c i p s₁ →
      CopyCase P s₁ c i p msg.payload s₂ →
      FragmentCase P msg s c (if msg.hdr.lastFrag then finishFragment c s₂ else s₂)

/-- The connection a fragment is for. -/
def fragmentConn (msg : HeciBusMsg) (s : HeciDev) : Option ConnId :=
  heciFindConn msg.hdr.fwAddr msg.hdr.hostAddr (connStateOpen ||| connStateProcessingMsg) s

/-- Locking a buffer and filling it in is one write. -/
theorem setRx_lockRx (s : HeciDev) (c : ConnId) (x : HeciConn) (p : RxPtr) (n : UInt8) :
    ((lockRx p s).setConn c x).setRx p { ((lockRx p s).setConn c x).rxMsgs p with
      type := .request
      connectionId := n
      length := 0 } =
    (s.setConn c x).setRx p { s.rxMsgs p with
      msgLock := true
      type := .request
      connectionId := n
      length := 0 } := by
  simp [lockRx, HeciDev.setRx, HeciDev.setConn]

/-- **The cases of a client frame.** -/
theorem heciProcessClientMessage_cases {P : Platform} {msg : HeciBusMsg} {s s' : HeciDev}
    (hT : TableInv s) (h : heciProcessClientMessage P msg s = some s') :
    (fragmentConn msg s = none ∧ s' = s) ∨
      ∃ c, fragmentConn msg s = some c ∧ FragmentCase P msg s c s' := by
  rw [heciProcessClientMessage_eq] at h
  obtain ⟨⟨oc, s₁⟩, hr, h⟩ := Option.bind_eq_some_iff.1 h
  unfold heciFindActiveConn at hr
  cases hc : fragmentConn msg s with
  | none =>
      left
      rw [fragmentConn] at hc
      rw [hc] at hr
      cases hr
      cases h
      exact ⟨rfl, rfl⟩
  | some c =>
      right
      refine ⟨c, rfl, ?_⟩
      rw [fragmentConn] at hc
      rw [hc] at hr
      dsimp only at hr
      have hopen := (hT.conns c).active_iff.1 (heciFindConn_some hc).1
      have hused : (s.connections c).state ≠ connStateUnused := by
        rcases hopen with hs | hs <;> rw [hs] <;> decide
      obtain ⟨i, hi, -⟩ := (hT.conns c).used hused
      by_cases hproc : (s.connections c).has connStateProcessingMsg = true
      · -- a later fragment of a message
        have hst := (hT.conns c).processing_iff.1 hproc
        rw [HeciDev.log_connections, if_pos hproc] at hr
        cases hr
        obtain ⟨s₂, hs₂, rfl⟩ := Option.map_eq_some_iff.1 h
        obtain ⟨p, hp, hcopy⟩ := heciCopyToClientBuf_cases
          (s := s.log (.fragment c msg.payload msg.hdr.lastFrag)) hst hi hs₂
        exact FragmentCase.taken i p _ s₂ hi (AcceptCase.next hst hp) hcopy
      · have hst : (s.connections c).state = 1 := by
          rcases hopen with hs | hs
          · exact hs
          · exact absurd ((hT.conns c).processing_iff.2 hs) hproc
        rw [HeciDev.log_connections, if_neg hproc] at hr
        split at hr
        · cases hr
        · next s₂ hb =>
            cases hr
            cases h
            obtain ⟨rfl, hlock⟩ := heciGetBufferFromPool_none hb
            obtain ⟨p, hp⟩ := hT.exists_rxMsg hused hi
            exact FragmentCase.refused i p hst hi hp (hlock i p hi hp)
        · next p s₂ hb =>
            cases hr
            obtain ⟨j, hj, hp, hl, rfl⟩ := heciGetBufferFromPool_some hb
            rw [hi] at hj
            cases hj
            obtain ⟨s₂, hs₂, rfl⟩ := Option.map_eq_some_iff.1 h
            have hset : (s.connections c).state ||| connStateProcessingMsg = 3 := by
              rw [hst]; decide
            have hacc := AcceptCase.first (s := s.log (.fragment c msg.payload msg.hdr.lastFrag))
              (c := c) (i := i) (p := p) hst hp hl
            rw [hset, setRx_lockRx] at hs₂
            obtain ⟨q, hq, hcopy⟩ := heciCopyToClientBuf_cases (i := i)
              (by simp) (by simpa using hi) hs₂
            obtain rfl : p = q := by simpa using hq
            exact FragmentCase.taken i p _ s₂ hi hacc hcopy

/-! ### A frame -/

/-- A well-formed bus message with the given command. -/
def IsBusMsg (command : UInt8) (len : ℕ) (msg : HeciBusMsg) : Prop :=
  msg.hdr.fwAddr = heciDriverAddress ∧ msg.hdr.len = len ∧ msg.byte 0 = command

instance (command : UInt8) (len : ℕ) (msg : HeciBusMsg) : Decidable (IsBusMsg command len msg) :=
  inferInstanceAs (Decidable (_ ∧ _ ∧ _))

/-- A bus message goes to the dispatch. -/
theorem step_busMsg {P : Platform} {b : UInt8} {n : ℕ} {msg : HeciBusMsg} (hm : IsBusMsg b n msg)
    (s : HeciDev) :
    step P (.op (.recv msg)) s = heciProcessBusMessage P msg (s.log (.recv msg)) := by
  simp only [step, opStep, heciProcessMessage, hm.1, ↓reduceIte]

/-- A connect request goes to its handler. -/
theorem step_connect {P : Platform} {msg : HeciBusMsg} (hm : IsBusMsg busMsgClientConnectReq 4 msg)
    (s : HeciDev) :
    step P (.op (.recv msg)) s = heciConnectHost P msg (s.log (.recv msg)) := by
  rw [step_busMsg hm, heciProcessBusMessage]
  simp only [hm.2.2]
  rfl

/-- A well-formed disconnect request. -/
abbrev IsDisconnReq (msg : HeciBusMsg) : Prop := IsBusMsg busMsgClientDisconnectReq 4 msg

/-- Frames that are not responses to a disconnect request. -/
abbrev NotDisconnResp (f : HeciBusMsg) : Prop := ¬ IsDisconnResp f

/-- **What a frame does**, in the state `s` in which it is already in the trace. -/
inductive RecvCase (P : Platform) (msg : HeciBusMsg) (s : HeciDev) : HeciDev → Prop
  /-- Nothing, or a talk with the platform. -/
  | quiet {s' : HeciDev} : ¬ IsDisconnReq msg → IoStep NotDisconnResp s s' → RecvCase P msg s s'
  /-- The host stops. -/
  | stop : ¬ IsDisconnReq msg → msg.hdr.fwAddr = heciDriverAddress →
      msg.byte 0 = busMsgHostStopReq → RecvCase P msg s (heciStopResp P s)
  /-- Clients become active. -/
  | flags {s' : HeciDev} (act : ClientId → Bool) (b : Bool) : ¬ IsDisconnReq msg →
      IoStep NotDisconnResp { s with
        clients := fun i => { s.clients i with active := act i }
        notifyNewClients := b } s' → RecvCase P msg s s'
  /-- A connect request is refused because the buffer is locked. -/
  | noBuffer {s' : HeciDev} (c : ConnId) : ¬ IsDisconnReq msg →
      (s.connections c).state = connStateUnused →
      IoStep NotDisconnResp (s.setConn c { s.connections c with
        connectionId := UInt8.ofNat c
        rxBuffer := none }) s' → RecvCase P msg s s'
  /-- A connection is opened. -/
  | opened (i : ClientId) (c : ConnId) (p : RxPtr) : IsBusMsg busMsgClientConnectReq 4 msg →
      findClient (msg.byte 1) s = some i → msg.byte 2 ≠ 0 → (s.clients i).active = true →
      (s.clients i).nOfConns ≠ (s.clients i).properties.maxNOfConnections →
      findIdleConn s = some c → (s.clients i).properties.rxMsg = some p →
      (s.rxMsgs p).msgLock = false →
      RecvCase P msg s (busReply P (connRespBytes (msg.byte 1) (msg.byte 2) .success)
        (openConn c i p (msg.byte 1) (msg.byte 2) (lockRx p s)))
  /-- The host closes a connection. -/
  | closed (c : ConnId) : IsDisconnReq msg → heciFindConn (msg.byte 1) (msg.byte 2)
        (connStateOpen ||| connStateConnectionRequest) s = some c → IsOpen (s.connections c) →
      Between (s.connections c) (msg.byte 1) (msg.byte 2) →
      RecvCase P msg s (heciNotifyClient c .disconn (s.setConn c { s.connections c with
        state := connStateDisconnecting ||| connStateSendDisconnectResp }))
  /-- The host wants to close a connection that does not exist. -/
  | unknown : IsDisconnReq msg →
      RecvCase P msg s (busReply P (disconnRespBytes (msg.byte 1) (msg.byte 2) .clientNotFound) s)
  /-- The host grants credit. -/
  | granted (c : ConnId) (n : ℕ) : IsBusMsg busMsgFlowControl 8 msg →
      heciFindConn (msg.byte 1) (msg.byte 2) connStateOpen s = some c → IsOpen (s.connections c) →
      Between (s.connections c) (msg.byte 1) (msg.byte 2) →
      RecvCase P msg s (((s.setConn c { s.connections c with
        hostBuffers := (s.connections c).hostBuffers +
          (grantedPackets (msg.byte 3)).toUInt32 }).log
            (.creditGranted c (grantedPackets (msg.byte 3)).toNat)).setSem c n)
  /-- The host takes the credit back. -/
  | creditReset (c : ConnId) : IsBusMsg busMsgResetReq 4 msg →
      heciFindConn (msg.byte 1) (msg.byte 2) connStateOpen s = some c → IsOpen (s.connections c) →
      Between (s.connections c) (msg.byte 1) (msg.byte 2) →
      RecvCase P msg s (busReply P (resetRespBytes (msg.byte 1) (msg.byte 2) .success)
        ((s.setConn c { s.connections c with hostBuffers := 0 }).log (.creditReset c)))
  /-- A fragment for a client. -/
  | fragment {s' : HeciDev} (c : ConnId) : msg.hdr.fwAddr ≠ heciDriverAddress →
      fragmentConn msg s = some c → FragmentCase P msg s c s' → RecvCase P msg s s'

theorem not_isDisconnReq {msg : HeciBusMsg} {b : UInt8} (hb : msg.byte 0 = b)
    (hne : b ≠ busMsgClientDisconnectReq) : ¬ IsDisconnReq msg := by
  rintro ⟨-, -, h⟩
  exact hne (hb.symm.trans h)

/-- A bus message that is no disconnect response is sent. -/
theorem ioStep_busReply (P : Platform) {b : UInt8} {data : List UInt8}
    (hb : b ≠ genResp busMsgClientDisconnectReq) (s : HeciDev) :
    IoStep NotDisconnResp s (busReply P (b :: data) s) :=
  IoStep.sendProtoMsg P (not_isDisconnResp_busFrame hb) s

/-- A connection found for one of the handlers of an open connection is open. -/
theorem TableInv.isOpen {s : HeciDev} (hT : TableInv s) {c : ConnId}
    (h : (s.connections c).has connStateOpen = true) : IsOpen (s.connections c) :=
  (hT.conns c).open_iff.1 h

section handlers

variable {P : Platform} {msg : HeciBusMsg} {s s' : HeciDev}

theorem recvCase_enum (hb : msg.byte 0 = busMsgHostEnumReq) :
    RecvCase P msg s (heciEnumResp P msg s) := by
  have hreq : ¬ IsDisconnReq msg := not_isDisconnReq hb (by decide)
  unfold heciEnumResp
  split
  · exact RecvCase.quiet hreq (IoStep.refl _ s)
  · have hact : (fun i : ClientId => if i.val < s.registeredClients then
        { s.clients i with active := true } else s.clients i) =
        fun i => { s.clients i with
          active := if i.val < s.registeredClients then true else (s.clients i).active } := by
      funext i
      split <;> rfl
    have hresp : NotDisconnResp (busFrame (hostEnumRespBytes (validAddresses s))) :=
      not_isDisconnResp_busFrame (by decide)
    dsimp only
    rw [hact, busReply_eq]
    split
    · exact RecvCase.flags (fun i => if i.val < s.registeredClients then true
        else (s.clients i).active) true hreq (IoStep.emit P hresp _)
    · exact RecvCase.flags (fun i => if i.val < s.registeredClients then true
        else (s.clients i).active) s.notifyNewClients hreq (IoStep.emit P hresp _)

theorem recvCase_addClient (hb : msg.byte 0 = genResp busMsgAddClientReq) :
    RecvCase P msg s (heciAddClientResp msg s) := by
  have hreq : ¬ IsDisconnReq msg := not_isDisconnReq hb (by decide)
  unfold heciAddClientResp
  split
  · exact RecvCase.quiet hreq (IoStep.refl _ s)
  · split
    · exact RecvCase.quiet hreq (IoStep.refl _ s)
    · split
      · exact RecvCase.quiet hreq (IoStep.refl _ s)
      · next i _ =>
          have hact : Function.update s.clients i { s.clients i with active := true } =
              fun j => { s.clients j with
                active := if j = i then true else (s.clients j).active } := by
            funext j
            by_cases hj : j = i
            · subst hj; simp
            · simp [hj]
          refine RecvCase.flags (fun j => if j = i then true else (s.clients j).active)
            s.notifyNewClients hreq ?_
          rw [← hact]
          exact IoStep.refl _ _

theorem recvCase_connect (hfw : msg.hdr.fwAddr = heciDriverAddress)
    (hb : msg.byte 0 = busMsgClientConnectReq) (h : heciConnectHost P msg s = some s') :
    RecvCase P msg s s' := by
  have hreq : ¬ IsDisconnReq msg := not_isDisconnReq hb (by decide)
  cases heciConnectHost_cases h with
  | ignored _ => exact RecvCase.quiet hreq (IoStep.refl _ s)
  | refused st _ => exact RecvCase.quiet hreq (ioStep_busReply P (by decide) s)
  | noBuffer c hc =>
      exact RecvCase.noBuffer c hreq (findIdleConn_some hc) (ioStep_busReply P (by decide) _)
  | opened i c p hlen hi hhost hact hroom hc hp hl =>
      exact RecvCase.opened i c p ⟨hfw, hlen, hb⟩ hi hhost hact hroom hc hp hl

theorem recvCase_disconnect (hT : TableInv s) (hfw : msg.hdr.fwAddr = heciDriverAddress)
    (hb : msg.byte 0 = busMsgClientDisconnectReq) :
    RecvCase P msg s (heciDisconnect P msg s) := by
  unfold heciDisconnect
  split
  · next hlen => exact RecvCase.quiet (fun hreq => hlen hreq.2.1) (IoStep.refl _ s)
  · next hlen =>
      have hreq : IsDisconnReq msg := ⟨hfw, not_not.1 hlen, hb⟩
      dsimp only
      split
      · next c hc =>
          obtain ⟨hst, hbetween⟩ := heciFindConn_some hc
          have hopen := (hT.conns c).closable_iff.1 hst
          -- the branch for a connection that is already disconnecting is never taken
          have hnot : (s.connections c).has connStateDisconnecting = false := by
            unfold HeciConn.has
            rcases hopen with hs | hs <;> rw [hs] <;> decide
          rw [hnot]
          exact RecvCase.closed c hreq hc hopen hbetween
      · exact RecvCase.unknown hreq

theorem recvCase_flowControl (hT : TableInv s) (hfw : msg.hdr.fwAddr = heciDriverAddress)
    (hb : msg.byte 0 = busMsgFlowControl) (h : heciFlowControlRecv msg s = some s') :
    RecvCase P msg s s' := by
  have hreq : ¬ IsDisconnReq msg := not_isDisconnReq hb (by decide)
  unfold heciFlowControlRecv at h
  split at h
  · cases h
    exact RecvCase.quiet hreq (IoStep.refl _ s)
  · next hlen =>
      split at h
      · cases h
        exact RecvCase.quiet hreq (IoStep.refl _ s)
      · next c hc =>
          obtain ⟨hst, hbetween⟩ := heciFindConn_some hc
          obtain ⟨i, -, -, -, -, hsem, -⟩ := (hT.conns c).used (hT.used_of_open hst)
          dsimp only at h
          rw [heciWakeupSender_of_sem (q := c) (by simpa using hsem)] at h
          cases h
          exact RecvCase.granted c _ ⟨hfw, not_not.1 hlen, hb⟩ hc (hT.isOpen hst) hbetween

theorem recvCase_resetResp (hT : TableInv s) (hfw : msg.hdr.fwAddr = heciDriverAddress)
    (hb : msg.byte 0 = busMsgResetReq) : RecvCase P msg s (heciResetResp P msg s) := by
  have hreq : ¬ IsDisconnReq msg := not_isDisconnReq hb (by decide)
  unfold heciResetResp
  split
  · exact RecvCase.quiet hreq (IoStep.refl _ s)
  · next hlen =>
      split
      · exact RecvCase.quiet hreq (IoStep.refl _ s)
      · next c hc =>
          obtain ⟨hst, hbetween⟩ := heciFindConn_some hc
          exact RecvCase.creditReset c ⟨hfw, not_not.1 hlen, hb⟩ hc (hT.isOpen hst) hbetween

end handlers

/-- **The cases of a frame are exhaustive.** -/
theorem recv_cases {P : Platform} {msg : HeciBusMsg} {s s' : HeciDev} (hT : TableInv s)
    (h : heciProcessMessage P msg s = some s') : RecvCase P msg (s.log (.recv msg)) s' := by
  have hT₀ : TableInv (s.log (.recv msg)) := hT.log _
  unfold heciProcessMessage at h
  dsimp only at h
  by_cases hfw : msg.hdr.fwAddr = heciDriverAddress
  · rw [if_pos hfw] at h
    have hc := heciProcessBusMessage_cases P msg (s.log (.recv msg))
    rw [h] at hc
    cases hc with
    | io hb hio =>
        refine RecvCase.quiet (fun hreq => hb ?_) hio
        rw [hreq.2.2]
        decide
    | stop hb => exact RecvCase.stop (not_isDisconnReq hb (by decide)) hfw hb
    | enum hb => exact recvCase_enum hb
    | connect hb hr => exact recvCase_connect hfw hb hr.symm
    | disconnect hb => exact recvCase_disconnect hT₀ hfw hb
    | flowControl hb hr => exact recvCase_flowControl hT₀ hfw hb hr.symm
    | resetResp hb => exact recvCase_resetResp hT₀ hfw hb
    | addClient hb => exact recvCase_addClient hb
  · have hreq : ¬ IsDisconnReq msg := fun hreq => hfw hreq.1
    rw [if_neg hfw] at h
    split at h
    · cases h
      exact RecvCase.quiet hreq (IoStep.refl _ _)
    · split at h
      · cases h
        exact RecvCase.quiet hreq (IoStep.refl _ _)
      · rcases heciProcessClientMessage_cases hT₀ h with ⟨-, rfl⟩ | ⟨c, hc, hcase⟩
        · exact RecvCase.quiet hreq (IoStep.refl _ _)
        · exact RecvCase.fragment c hfw hc hcase

/-! ### An operation -/

/-- **What an operation does.** -/
inductive OpCase (P : Platform) (s : HeciDev) : Op → HeciDev → Prop
  | recv {msg : HeciBusMsg} {s' : HeciDev} : RecvCase P msg (s.log (.recv msg)) s' →
      OpCase P s (.recv msg) s'
  /-- The call is refused. -/
  | refused {o : Op} : (∀ msg, o ≠ .recv msg) → OpCase P s o s
  | registered {s' : HeciDev} {o : Op} (i : ClientId) (client : HeciClient) (p : RxPtr) :
      o = .register (some client) → findClient 0 s = some i → client.rxMsg = some p →
      (s.rxMsgs p).buffer.isSome → client.maxMsgSize ≤ heciMaxMsgSize →
      heciClientFind client s = false →
      IoStep NotDisconnResp ({ s with registeredClients := s.registeredClients + 1 }.setClient i
        (registeredClient i client)) s' → OpCase P s o s'
  | reset : OpCase P s .reset (heciReset s)
  /-- A flow control message without a buffer to give back. -/
  | flowControl {o : Op} {s' : HeciDev} (c : ConnId) : o = .sendFlowControl c →
      IsOpen (s.connections c) → (s.connections c).rxBuffer = none → IoStep NotDisconnResp s s' →
      OpCase P s o s'
  /-- A flow control message that gives the buffer back. -/
  | release {o : Op} {s' : HeciDev} (c : ConnId) (p : RxPtr) : o = .sendFlowControl c →
      IsOpen (s.connections c) → (s.connections c).rxBuffer = some p →
      IoStep NotDisconnResp ((s.setRx p { s.rxMsgs p with
        length := 0
        type := .request
        msgLock := false }).setConn c { s.connections c with rxBuffer := none }) s' →
      OpCase P s o s'
  /-- A disconnection is completed. -/
  | freed {o : Op} (c : ConnId) (i : ClientId) : o = .completeDisconnect c →
      ((s.connections c).state = 4 ∨ (s.connections c).state = 20) →
      (s.connections c).client = some i →
      OpCase P s o (freeConn c i (respondDisconnect P c (releaseRx c s)))

theorem opCase_register {P : Platform} {s : HeciDev} (client : Option HeciClient) :
    OpCase P s (.register client) (heciRegister P client s).2 := by
  unfold heciRegister
  cases hcl : registerParamsOk client s with
  | none => exact OpCase.refused nofun
  | some cl =>
      obtain ⟨rfl, p, hp, hbuf, hsize⟩ := registerParamsOk_some hcl
      dsimp only
      split
      · exact OpCase.refused nofun
      · next hfind =>
          split
          · exact OpCase.refused nofun
          · next i hi =>
              refine OpCase.registered i cl p rfl hi hp hbuf hsize (by simpa using hfind) ?_
              unfold heciSendNewClientMsg
              split
              · exact ioStep_busReply P (by decide) _
              · exact IoStep.refl _ _

theorem opCase_sendFlowControl {P : Platform} {s : HeciDev} (hT : TableInv s) (n : ℕ) :
    OpCase P s (.sendFlowControl n) (heciSendFlowControl P n s).2 := by
  unfold heciSendFlowControl
  split
  · next hn =>
      dsimp only
      split
      · exact OpCase.refused nofun
      · next hst =>
          have hopen := hT.isOpen (c := ⟨n, hn⟩) (by simpa using hst)
          have hio : ∀ s₁ : HeciDev, IoStep NotDisconnResp s₁ (heciSendProtoMsg P heciDriverAddress
              heciDriverAddress true (flowCtrlBytes (s.connections ⟨n, hn⟩).fwAddr
                (s.connections ⟨n, hn⟩).hostAddr 1) s₁).2 :=
            fun s₁ => IoStep.sendProtoMsg P (not_isDisconnResp_busFrame (by decide)) s₁
          cases hp : (s.connections ⟨n, hn⟩).rxBuffer with
          | none => exact OpCase.flowControl ⟨n, hn⟩ rfl hopen hp (hio _)
          | some p => exact OpCase.release ⟨n, hn⟩ p rfl hopen hp (hio _)
  · exact OpCase.refused nofun

theorem opCase_completeDisconnect {P : Platform} {s : HeciDev} (hT : TableInv s) {n : ℕ}
    {r : ℤ × HeciDev} (h : heciCompleteDisconnect P n s = some r) :
    OpCase P s (.completeDisconnect n) r.2 := by
  unfold heciCompleteDisconnect at h
  split at h
  · next hn =>
      dsimp only at h
      split at h
      · cases h
        exact OpCase.refused nofun
      · next hdis =>
          have hst := (hT.conns ⟨n, hn⟩).disconnecting_iff.1 (by simpa using hdis)
          split at h
          · cases h
          · next i hi =>
              cases h
              exact OpCase.freed ⟨n, hn⟩ i rfl hst hi
  · cases h
    exact OpCase.refused nofun

/-- **The cases of an operation are exhaustive.** -/
theorem opStep_cases {P : Platform} {s s' : HeciDev} {o : Op} (hT : TableInv s)
    (h : opStep P o s = some s') : OpCase P s o s' := by
  cases o with
  | register client =>
      cases h
      exact opCase_register client
  | recv msg => exact OpCase.recv (recv_cases hT h)
  | sendFlowControl n =>
      cases h
      exact opCase_sendFlowControl hT n
  | completeDisconnect n =>
      obtain ⟨r, hr, rfl⟩ := Option.map_eq_some_iff.1 h
      exact opCase_completeDisconnect hT hr
  | reset =>
      cases h
      exact OpCase.reset

/-! ### A whole call of `heci_send` -/

/-- **What an uninterrupted call of `heci_send` does.** -/
inductive SendCase (s : HeciDev) (c : ConnId) : HeciDev → Prop
  | refused : SendCase s c s
  /-- There is no credit, and none comes before the timeout. -/
  | timedOut (n : UInt8) : IsOpen (s.connections c) → (s.connections c).hostBuffers = 0 →
      SendCase s c ((s.setConn c { s.connections c with waitThreadCount := n }).setSem c 0)
  /-- The message, or a part of it, is written. -/
  | written (s₁ s₂ : HeciDev) (sent : Bool) : IsOpen (s.connections c) →
      (s.connections c).hostBuffers ≠ 0 → (s₁ = s ∨ s₁ = s.log (.clientRead c)) →
      IoStep NotDisconnResp s₁ s₂ → SendCase s c (finishSend c sent s₂)

theorem notDisconnResp_clientFrame {f h : UInt8} (hf : f ≠ heciDriverAddress) {msg : HeciBusMsg}
    (hmsg : IsClientFrame f h msg) : NotDisconnResp msg := by
  rintro ⟨hfw, -⟩
  exact hf (hmsg.1.symm.trans hfw)

theorem notDisconnResp_dmaXferReq {f h : UInt8} {msg : HeciBusMsg} (hmsg : IsDmaXferReq f h msg) :
    NotDisconnResp msg := by
  obtain ⟨addr, len, rfl⟩ := hmsg
  exact not_isDisconnResp_busFrame (by decide)

/-- The address of a connection in use is not that of the driver. -/
theorem TableInv.fwAddr_ne_zero {s : HeciDev} (hT : TableInv s) {c : ConnId}
    (hc : (s.connections c).state ≠ connStateUnused) :
    (s.connections c).fwAddr ≠ heciDriverAddress := by
  obtain ⟨i, -, hne, hfw, -⟩ := (hT.conns c).used hc
  rw [hfw]
  exact hne

theorem sendCase_sendByIpc {P : Platform} {s s₁ s₂ : HeciDev} {c : ConnId} (hT : TableInv s)
    (hopen : IsOpen (s.connections c)) (hhb : (s.connections c).hostBuffers ≠ 0)
    (hs₁ : s₁ = s ∨ s₁ = s.log (.clientRead c)) (hio : IoStep NotDisconnResp s₁ s₂)
    (msg : List Mrd) : SendCase s c (sendByIpc P c msg s₂).2 := by
  have hused : (s.connections c).state ≠ connStateUnused := by
    rcases hopen with h | h <;> rw [h] <;> decide
  have hconn : s₂.connections = s.connections := by
    rw [hio.connections]
    rcases hs₁ with rfl | rfl <;> rfl
  have hframes := ioStep_sendClientMsgIpc P (s₂.connections c) msg s₂
  have hquiet : IoStep NotDisconnResp s₂ (sendClientMsgIpc P (s₂.connections c) msg s₂).2 :=
    hframes.mono fun f hf => notDisconnResp_clientFrame
      (by rw [hconn]; exact hT.fwAddr_ne_zero hused) hf
  exact SendCase.written s₁ _ _ hopen hhb hs₁ (hio.trans hquiet)

/-- **The cases of a send are exhaustive.** -/
theorem heciSend_cases {P : Platform} {s : HeciDev} {c : ConnId} {msg : List Mrd}
    {r : Bool × HeciDev} (hT : TableInv s) (h : heciSend P c msg s = some r) :
    SendCase s c r.2 := by
  unfold heciSend at h
  cases hl : calSendMsgLen c msg s with
  | none => simp [hl] at h
  | some n =>
      rw [hl] at h
      dsimp only at h
      by_cases hn : n < 0
      · rw [if_pos hn] at h
        cases h
        exact SendCase.refused
      rw [if_neg hn] at h
      have hopen : IsOpen (s.connections c) := by
        refine hT.isOpen ?_
        by_contra hc
        have hc' : (s.connections c).has connStateOpen = false := by simpa using hc
        simp only [calSendMsgLen, hc', ↓reduceIte, Option.some.injEq] at hl
        omega
      have hused : (s.connections c).state ≠ connStateUnused := by
        rcases hopen with h | h <;> rw [h] <;> decide
      by_cases hhb : (s.connections c).hostBuffers = 0
      · rw [if_pos hhb] at h
        obtain ⟨i, -, -, -, -, hsem, -⟩ := (hT.conns c).used hused
        split at h
        · cases h
        · next q hq =>
            rw [hsem] at hq
            cases hq
            cases h
            exact SendCase.timedOut _ hopen hhb
      rw [if_neg hhb] at h
      unfold heciTransmit at h
      cases hw : wantsDma P c n s with
      | none => simp [hw] at h
      | some w =>
          obtain ⟨b, s₁⟩ := w
          have hs₁ : s₁ = s ∨ s₁ = s.log (.clientRead c) := by
            unfold wantsDma at hw
            split at hw
            · dsimp only at hw
              split at hw
              · cases hw
              · cases hw
                exact Or.inr rfl
            · cases hw
              exact Or.inl rfl
          rw [hw] at h
          cases b with
          | false =>
              cases h
              exact sendCase_sendByIpc hT hopen hhb hs₁ (IoStep.refl _ s₁) msg
          | true =>
              have hio := (ioStep_sendClientMsgDma P (s₁.connections c).fwAddr
                (s₁.connections c).hostAddr msg s₁).mono fun _ => notDisconnResp_dmaXferReq
              dsimp only at h
              split at h
              · next s₂ hd =>
                  rw [hd] at hio
                  cases h
                  exact SendCase.written s₁ s₂ true hopen hhb hs₁ hio
              · next s₂ hd =>
                  rw [hd] at hio
                  cases h
                  exact sendCase_sendByIpc hT hopen hhb hs₁ hio msg

end PseFw.Heci
