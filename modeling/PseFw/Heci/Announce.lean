/-
**The clients that come later.**

An enumeration names the clients of one moment.  A host that sets `client_req_bits` in its request
is told of the later ones too: the layer announces each client that registers from then on, with
the properties a request would have found, and one thing more, a fixed address that a response never
has.

This module reads the announcements off the trace as the host does.  Nothing else the layer writes
is read as one, and a registration writes exactly one, so a host that adds what is announced to what
the bitmap named knows the clients there are.

Main definitions:

* `PseFw.Heci.hostAnnouncement`, `PseFw.Heci.announcements` — how the host reads an announcement,
  and those of a run;
* `PseFw.Heci.Unnoticed` — a step that registers nobody and announces nobody;
* `PseFw.Heci.News` — what is announced between two states.

Main results:

* `PseFw.Heci.unnoticed_step` — every step other than a registration is of this kind;
* `PseFw.Heci.announcements_unasked` — before the host asks, nobody is announced;
* `PseFw.Heci.hostClients` — **the host knows the clients**: in every run, whatever happens in
  between, the bitmap and the announcements together name each client once and no other.
-/

import PseFw.Heci.Enumerate

set_option relaxedAutoImplicit false
set_option autoImplicit false

namespace PseFw.Heci

/-! ### What the host reads -/

/-- **What the host learns of a new client**: its properties, and the member `fixed_address`. -/
structure Announcement where
  client : HostClient
  fixedAddress : UInt8
  deriving DecidableEq, Repr

/-- A request to add a client. -/
def hostAnnouncement (bytes : List UInt8) : Option Announcement :=
  if bytes.getD 0 0 = busMsgAddClientReq then
    some
      { client :=
          { address := bytes.getD 1 0
            protocolId := BitVec.ofNat 128 (Mem.ofLe ((bytes.drop 4).take 16))
            protocolVer := bytes.getD 20 0
            maxNOfConnections := bytes.getD 21 0
            maxMsgSize := Mem.ofLe ((bytes.drop 24).take 4)
            dmaHeaderLength := bytes.getD 28 0 &&& 0x7F
            dmaEnabled := bytes.getD 28 0 &&& 0x80 != 0 }
        fixedAddress := bytes.getD 22 0 }
  else none

/-- **What the host is to learn** of a new client: it has its address as a fixed address. -/
def toldNew (client : HeciClientCtrl) : Announcement :=
  ⟨told client.clientAddr client.properties, client.clientAddr⟩

/-- **An announcement is read as the client registered**, and as a response would be read. -/
theorem hostAnnouncement_addClientReqBytes (client : HeciClientCtrl)
    (h : client.properties.maxMsgSize ≤ heciMaxMsgSize) :
    hostAnnouncement (addClientReqBytes client.clientAddr client.properties) =
      some (toldNew client) := by
  have hsame : hostAnnouncement (addClientReqBytes client.clientAddr client.properties) =
      (hostClient (clientPropRespBytes client.clientAddr client.properties)).map
        (⟨·, client.clientAddr⟩) := rfl
  rw [hsame, hostClient_clientPropRespBytes _ h]
  rfl

/-- What the host reads from an event: an announcement, if the driver sends it and the mailbox takes
it. -/
def announcementOf : Event → Option Announcement
  | .ipcWrite _ msg _ ret =>
      if ret = 0 ∧ msg.hdr.fwAddr = heciDriverAddress ∧ msg.hdr.hostAddr = heciDriverAddress then
        hostAnnouncement msg.payload
      else none
  | _ => none

/-- A bus message that is written is read. -/
theorem announcementOf_busFrame (data : List UInt8) :
    announcementOf (writeEvent (busFrame data) 0) = hostAnnouncement data := by
  simp [announcementOf, writeEvent, busFrame, HeciBusMsg.mk']

/-- **The announcements of a run.** -/
def announcements (s : HeciDev) : List Announcement := s.events.filterMap announcementOf

/-- A frame that announces nobody. -/
def Plain (f : HeciBusMsg) : Prop :=
  f.hdr.fwAddr = heciDriverAddress → f.byte 0 ≠ busMsgAddClientReq

theorem plain_busFrame {b : UInt8} {data : List UInt8} (hb : b ≠ busMsgAddClientReq) :
    Plain (busFrame (b :: data)) := fun _ => hb

theorem plain_clientFrame {f h : UInt8} (hf : f ≠ heciDriverAddress) {msg : HeciBusMsg}
    (hmsg : IsClientFrame f h msg) : Plain msg := fun hfw => absurd (hmsg.1.symm.trans hfw) hf

theorem announcementOf_ioEvent {e : Event} (he : IoEvent Plain e) : announcementOf e = none := by
  cases he with
  | hostAccessReq r => rfl
  | hostAccessDereq r => rfl
  | write r hf =>
      refine (if_congr Iff.rfl rfl rfl).trans (ite_eq_right_iff.2 fun hw => ?_)
      exact if_neg (hf hw.2.1)

/-! ### Steps the host does not notice -/

/-- **A step that registers nobody and announces nobody.** -/
structure Unnoticed (s s' : HeciDev) : Prop where
  registeredClients : s'.registeredClients = s.registeredClients
  notify : s.notifyNewClients = true → s'.notifyNewClients = true
  clientAddr : ∀ i, (s'.clients i).clientAddr = (s.clients i).clientAddr
  properties : ∀ i, (s'.clients i).properties = (s.clients i).properties
  announcements : announcements s' = announcements s

namespace Unnoticed

variable {s s' s'' : HeciDev}

theorem refl (s : HeciDev) : Unnoticed s s := ⟨rfl, id, fun _ => rfl, fun _ => rfl, rfl⟩

theorem trans (h : Unnoticed s s') (h' : Unnoticed s' s'') : Unnoticed s s'' where
  registeredClients := h'.registeredClients.trans h.registeredClients
  notify := fun hn => h'.notify (h.notify hn)
  clientAddr := fun i => (h'.clientAddr i).trans (h.clientAddr i)
  properties := fun i => (h'.properties i).trans (h.properties i)
  announcements := h'.announcements.trans h.announcements

theorem io (h : Unnoticed s s') (hio : IoStep Plain s' s'') : Unnoticed s s'' :=
  h.trans
    { registeredClients := hio.registeredClients
      notify := fun hn => hio.notifyNewClients.trans hn
      clientAddr := fun i => by rw [hio.clients]
      properties := fun i => by rw [hio.clients]
      announcements := hio.filterMap_events fun _ he => announcementOf_ioEvent he }

/-- A bus message that is no announcement. -/
theorem busReply (h : Unnoticed s s') (P : Platform) {b : UInt8} {data : List UInt8}
    (hb : b ≠ busMsgAddClientReq) : Unnoticed s (busReply P (b :: data) s') :=
  h.io (IoStep.sendProtoMsg P (plain_busFrame hb) s')

theorem log {e : Event} (h : Unnoticed s s') (he : announcementOf e = none) :
    Unnoticed s (s'.log e) := by
  refine h.trans ⟨rfl, id, fun _ => rfl, fun _ => rfl, ?_⟩
  unfold Heci.announcements
  rw [HeciDev.log_events, List.filterMap_append, List.filterMap_cons_none he, List.filterMap_nil,
    List.append_nil]

theorem setConn (h : Unnoticed s s') (c : ConnId) (x : HeciConn) : Unnoticed s (s'.setConn c x) :=
  h.trans ⟨rfl, id, fun _ => rfl, fun _ => rfl, rfl⟩

theorem setRx (h : Unnoticed s s') (p : RxPtr) (x : HeciRxMsg) : Unnoticed s (s'.setRx p x) :=
  h.trans ⟨rfl, id, fun _ => rfl, fun _ => rfl, rfl⟩

theorem setSem (h : Unnoticed s s') (c : ConnId) (n : ℕ) : Unnoticed s (s'.setSem c n) :=
  h.trans ⟨rfl, id, fun _ => rfl, fun _ => rfl, rfl⟩

/-- An entry keeps its address and its properties. -/
theorem setClient (h : Unnoticed s s') {i : ClientId} {x : HeciClientCtrl}
    (ha : x.clientAddr = (s'.clients i).clientAddr)
    (hp : x.properties = (s'.clients i).properties) : Unnoticed s (s'.setClient i x) := by
  have hself : ∀ j, (s'.setClient i x).clients j = x ∧ j = i ∨
      (s'.setClient i x).clients j = s'.clients j := by
    intro j
    by_cases hj : j = i
    · exact Or.inl ⟨by rw [hj, HeciDev.setClient_clients, Function.update_self], hj⟩
    · exact Or.inr (by rw [HeciDev.setClient_clients, Function.update_of_ne hj])
  refine h.trans ⟨rfl, id, fun j => ?_, fun j => ?_, rfl⟩
  · rcases hself j with ⟨hx, rfl⟩ | hx
    · rw [hx, ha]
    · rw [hx]
  · rcases hself j with ⟨hx, rfl⟩ | hx
    · rw [hx, hp]
    · rw [hx]

/-! ### The handlers -/

variable {P : Platform}

theorem heciReset (h : Unnoticed s s') : Unnoticed s (heciReset s') := by
  have hconn : ∀ (s'' : HeciDev) (c : ConnId), Unnoticed s s'' → Unnoticed s (resetConn s'' c) := by
    intro s'' c h
    unfold resetConn heciConnectionReset
    split
    · split
      · exact h
      · exact (h.setConn c _).log rfl
    · split
      · exact h.setConn c _
      · exact h
  unfold Heci.heciReset
  exact List.foldlRecOn _ _ (h.log rfl) fun s'' hs c _ => hconn s'' c hs

theorem heciEnumResp (h : Unnoticed s s') (msg : HeciBusMsg) :
    Unnoticed s (heciEnumResp P msg s') := by
  have hact : Unnoticed s { s' with
      clients := fun i =>
        if i.val < s'.registeredClients then { s'.clients i with active := true }
        else s'.clients i } := by
    refine h.trans ⟨rfl, id, fun i => ?_, fun i => ?_, rfl⟩ <;> dsimp only <;> split <;> rfl
  have hflag : ∀ s'' : HeciDev, Unnoticed s s'' →
      Unnoticed s { s'' with notifyNewClients := true } := fun s'' h =>
    h.trans ⟨rfl, fun _ => rfl, fun _ => rfl, fun _ => rfl, rfl⟩
  unfold Heci.heciEnumResp
  split
  · exact h
  · dsimp only
    split
    · exact hflag _ (hact.busReply P (by decide))
    · exact hact.busReply P (by decide)

theorem heciAddClientResp (h : Unnoticed s s') (msg : HeciBusMsg) :
    Unnoticed s (heciAddClientResp msg s') := by
  unfold Heci.heciAddClientResp
  split
  · exact h
  · split
    · exact h
    · split
      · exact h
      · exact h.setClient rfl rfl

theorem openConn (h : Unnoticed s s') (c : ConnId) (i : ClientId) (p : RxPtr) (f a : UInt8) :
    Unnoticed s (openConn c i p f a s') := by
  unfold Heci.openConn
  refine log (setRx (setSem (log (setConn (setClient h ?_ ?_) c _) ?_) c 0) p _) ?_ <;> rfl

theorem heciConnectHost (h : Unnoticed s s') {msg : HeciBusMsg}
    (hs : heciConnectHost P msg s' = some s'') : Unnoticed s s'' := by
  cases heciConnectHost_cases hs with
  | ignored => exact h
  | refused st => exact h.busReply P (by decide)
  | noBuffer c => exact (h.setConn c _).busReply P (by decide)
  | opened i c p =>
      have hlock : Unnoticed s (lockRx p s') := h.setRx p _
      exact (hlock.openConn c i p _ _).busReply P (by decide)

theorem heciDisconnect (h : Unnoticed s s') (msg : HeciBusMsg) :
    Unnoticed s (heciDisconnect P msg s') := by
  unfold Heci.heciDisconnect
  split
  · exact h
  · dsimp only
    split
    · split
      · exact h.setConn _ _
      · exact (h.setConn _ _).log rfl
    · exact h.busReply P (by decide)

theorem heciFlowControlRecv (h : Unnoticed s s') {msg : HeciBusMsg}
    (hs : heciFlowControlRecv msg s' = some s'') : Unnoticed s s'' := by
  unfold Heci.heciFlowControlRecv at hs
  split at hs
  · cases hs
    exact h
  split at hs
  · cases hs
    exact h
  next c _ =>
    dsimp only at hs
    unfold heciWakeupSender at hs
    split at hs
    · split at hs
      · cases hs
        exact (h.setConn c _).log rfl
      · cases hs
    · cases hs
      exact ((h.setConn c _).log rfl).setSem _ _

theorem heciResetResp (h : Unnoticed s s') (msg : HeciBusMsg) :
    Unnoticed s (heciResetResp P msg s') := by
  unfold Heci.heciResetResp
  split
  · exact h
  · split
    · exact h
    · exact ((h.setConn _ _).log rfl).busReply P (by decide)

theorem getBuffer (h : Unnoticed s s') {cl : Option ClientId} {r : Option RxPtr × HeciDev}
    (hr : heciGetBufferFromPool cl s' = some r) : Unnoticed s r.2 := by
  obtain ⟨op, s''⟩ := r
  cases op with
  | none =>
      obtain ⟨rfl, -⟩ := heciGetBufferFromPool_none hr
      exact h
  | some p =>
      obtain ⟨i, -, -, -, rfl⟩ := heciGetBufferFromPool_some hr
      exact h.setRx p _

/-- A fragment of a client, up to what is told the client. -/
theorem heciProcessClientMessage (h : Unnoticed s s') {msg : HeciBusMsg}
    (hs : heciProcessClientMessage P msg s' = some s'') : Unnoticed s s'' := by
  rw [heciProcessClientMessage_eq] at hs
  obtain ⟨⟨oc, s₁⟩, hr, hs⟩ := Option.bind_eq_some_iff.1 hs
  have h₁ : Unnoticed s s₁ := by
    unfold heciFindActiveConn at hr
    split at hr
    · cases hr
      exact h
    next c _ =>
    have hlog : Unnoticed s (s'.log (.fragment c msg.payload msg.hdr.lastFrag)) := h.log rfl
    dsimp only at hr
    split at hr
    · cases hr
      exact hlog
    split at hr
    · cases hr
    · next hb =>
        cases hr
        exact (hlog.getBuffer hb).setConn c _
    · next p _ hb =>
        cases hr
        exact ((hlog.getBuffer hb).setConn c _).setRx p _
  cases oc with
  | none =>
      cases hs
      exact h₁
  | some c =>
      obtain ⟨s₂, hs₂, rfl⟩ := Option.map_eq_some_iff.1 hs
      have h₂ : Unnoticed s s₂ := by
        unfold heciCopyToClientBuf at hs₂
        dsimp only at hs₂
        split at hs₂
        · split at hs₂
          · cases hs₂
            exact ((h₁.busReply P (by decide)).setRx _ _).setConn c _
          split at hs₂
          · cases hs₂
          · cases hs₂
            exact h₁.setRx _ _
        · cases hs₂
      split
      · exact (h₂.setConn c _).log rfl
      · exact h₂

/-- Every bus message. -/
theorem heciProcessBusMessage (h : Unnoticed s s') {msg : HeciBusMsg}
    (hs : heciProcessBusMessage P msg s' = some s'') : Unnoticed s s'' := by
  unfold Heci.heciProcessBusMessage at hs
  dsimp only at hs
  rcases ite_eq_iff.1 hs with ⟨-, hs⟩ | ⟨-, hs⟩
  · cases hs
    unfold heciVersionResp
    split
    · exact h
    · exact h.busReply P (by decide)
  rcases ite_eq_iff.1 hs with ⟨-, hs⟩ | ⟨-, hs⟩
  · cases hs
    exact (heciReset (h.log rfl)).busReply P (by decide)
  rcases ite_eq_iff.1 hs with ⟨-, hs⟩ | ⟨-, hs⟩
  · cases hs
    exact h.heciEnumResp msg
  rcases ite_eq_iff.1 hs with ⟨-, hs⟩ | ⟨-, hs⟩
  · cases hs
    unfold heciClientProp
    split
    · exact h
    · split <;> exact h.busReply P (by decide)
  rcases ite_eq_iff.1 hs with ⟨-, hs⟩ | ⟨-, hs⟩
  · exact h.heciConnectHost hs
  rcases ite_eq_iff.1 hs with ⟨-, hs⟩ | ⟨-, hs⟩
  · cases hs
    exact h.heciDisconnect msg
  rcases ite_eq_iff.1 hs with ⟨-, hs⟩ | ⟨-, hs⟩
  · exact h.heciFlowControlRecv hs
  rcases ite_eq_iff.1 hs with ⟨-, hs⟩ | ⟨-, hs⟩
  · cases hs
    exact h.heciResetResp msg
  rcases ite_eq_iff.1 hs with ⟨-, hs⟩ | ⟨-, hs⟩
  · cases hs
    exact h.heciAddClientResp msg
  rcases ite_eq_iff.1 hs with ⟨-, hs⟩ | ⟨-, hs⟩
  · cases hs
    refine h.io ((ioStep_heciDmaAllocNotification P msg s').mono ?_)
    rintro f ⟨st, rfl⟩
    exact plain_busFrame (by decide)
  rcases ite_eq_iff.1 hs with ⟨-, hs⟩ | ⟨-, hs⟩
  · cases hs
    exact h.io (ioStep_heciDmaXferAck _ P msg s')
  · cases hs
    exact h

theorem heciSendFlowControl (h : Unnoticed s s') (n : ℕ) :
    Unnoticed s (heciSendFlowControl P n s').2 := by
  unfold Heci.heciSendFlowControl
  split
  · dsimp only
    split
    · exact h
    · refine io ?_ (IoStep.sendProtoMsg P (plain_busFrame (by decide)) _)
      split
      · exact h
      · exact (h.setRx _ _).setConn _ _
  · exact h

theorem freeConn (h : Unnoticed s s') (c : ConnId) (i : ClientId) :
    Unnoticed s (freeConn c i s') := by
  have he : Heci.freeConn c i s' = (((s'.setClient i { s'.clients i with
      nOfConns := (s'.clients i).nOfConns - 1 }).setConn c HeciConn.zero).log (.freed c)).log
        (.creditReset c) := by
    simp [Heci.freeConn, HeciDev.emit, HeciDev.log]
  rw [he]
  refine log (log (setConn (setClient h ?_ ?_) c _) ?_) ?_ <;> rfl

theorem heciCompleteDisconnect (h : Unnoticed s s') {n : ℕ} {r : ℤ × HeciDev}
    (hr : heciCompleteDisconnect P n s' = some r) : Unnoticed s r.2 := by
  have hrelease : ∀ c, Unnoticed s (releaseRx c s') := by
    intro c
    unfold releaseRx
    split
    · exact h
    · exact h.setRx _ _
  unfold Heci.heciCompleteDisconnect at hr
  split at hr
  · next hn =>
    dsimp only at hr
    split at hr
    · cases hr
      exact h
    split at hr
    · cases hr
    · next i _ =>
        cases hr
        refine freeConn (io (hrelease ⟨n, hn⟩) ((ioStep_respondDisconnect P ⟨n, hn⟩ _).mono ?_)) _ i
        rintro f rfl
        exact plain_busFrame (by decide)
  · cases hr
    exact h

/-- A message that goes out by IPC, from an open connection. -/
theorem sendByIpc (h : Unnoticed s s') {c : ConnId}
    (hf : (s'.connections c).fwAddr ≠ heciDriverAddress) (msg : List Mrd) :
    Unnoticed s (sendByIpc P c msg s').2 := by
  have hsent := h.io ((ioStep_sendClientMsgIpc P (s'.connections c) msg s').mono fun f =>
    plain_clientFrame hf)
  unfold Heci.sendByIpc finishSend
  dsimp only
  split
  · exact (hsent.log rfl).setConn c _
  · exact hsent

/-- A whole call of `heci_send`. -/
theorem heciSend (hT : TableInv s) {c : ConnId} {msg : List Mrd} {r : Bool × HeciDev}
    (hr : heciSend P c msg s = some r) : Unnoticed s r.2 := by
  have h := refl s
  unfold Heci.heciSend at hr
  cases hl : calSendMsgLen c msg s with
  | none => simp [hl] at hr
  | some n =>
      rw [hl] at hr
      dsimp only at hr
      by_cases hn : n < 0
      · rw [if_pos hn] at hr
        cases hr
        exact h
      rw [if_neg hn] at hr
      have hopen : IsOpen (s.connections c) := by
        refine hT.isOpen ?_
        by_contra hc
        have hc' : (s.connections c).has connStateOpen = false := by simpa using hc
        simp only [calSendMsgLen, hc', ↓reduceIte, Option.some.injEq] at hl
        omega
      have hf : (s.connections c).fwAddr ≠ heciDriverAddress := hT.fwAddr_ne_zero (by
        rcases hopen with h | h <;> rw [h] <;> decide)
      split at hr
      · split at hr
        · cases hr
        · cases hr
          exact (h.setConn c _).setSem _ 0
      unfold heciTransmit at hr
      cases hw : wantsDma P c n s with
      | none => simp [hw] at hr
      | some w =>
          obtain ⟨b, s₁⟩ := w
          have hs₁ : Unnoticed s s₁ ∧ s₁.connections = s.connections := by
            unfold wantsDma at hw
            split at hw
            · dsimp only at hw
              split at hw
              · cases hw
              · cases hw
                exact ⟨h.log rfl, rfl⟩
            · cases hw
              exact ⟨h, rfl⟩
          rw [hw] at hr
          cases b with
          | false =>
              cases hr
              exact hs₁.1.sendByIpc (hs₁.2 ▸ hf) msg
          | true =>
              have hio := ioStep_sendClientMsgDma P (s₁.connections c).fwAddr
                (s₁.connections c).hostAddr msg s₁
              have hsent := hs₁.1.io (hio.mono fun f hf => by
                obtain ⟨addr, len, rfl⟩ := hf
                exact plain_busFrame (by decide))
              dsimp only at hr
              split at hr
              · next s₂ hd =>
                  rw [hd] at hsent
                  cases hr
                  exact (hsent.log rfl).setConn c _
              · next s₂ hd =>
                  rw [hd] at hsent hio
                  cases hr
                  refine hsent.sendByIpc ?_ msg
                  rw [hio.connections, hs₁.2]
                  exact hf

end Unnoticed

/-- The call registers a client. -/
def IsRegister (l : Call) : Prop := ∃ client, l = .op (.register client)

/-- **A step that registers nobody is not noticed.** -/
theorem unnoticed_step {P : Platform} {s s' : HeciDev} {l : Call} (hT : TableInv s)
    (hl : ¬ IsRegister l) (h : step P l s = some s') : Unnoticed s s' := by
  have h₀ := Unnoticed.refl s
  cases l with
  | send c msg =>
      obtain ⟨r, hr, rfl⟩ := Option.map_eq_some_iff.1 h
      exact Unnoticed.heciSend hT hr
  | op o =>
      cases o with
      | register client => exact absurd ⟨client, rfl⟩ hl
      | recv msg =>
          have hlog : Unnoticed s (s.log (.recv msg)) := h₀.log rfl
          simp only [step, opStep, heciProcessMessage] at h
          rcases ite_eq_iff.1 h with ⟨-, h⟩ | ⟨-, h⟩
          · exact hlog.heciProcessBusMessage h
          rcases ite_eq_iff.1 h with ⟨-, h⟩ | ⟨-, h⟩
          · cases h
            exact hlog
          rcases ite_eq_iff.1 h with ⟨-, h⟩ | ⟨-, h⟩
          · cases h
            exact hlog
          · exact hlog.heciProcessClientMessage h
      | sendFlowControl n =>
          cases h
          exact h₀.heciSendFlowControl n
      | completeDisconnect n =>
          obtain ⟨r, hr, rfl⟩ := Option.map_eq_some_iff.1 h
          exact h₀.heciCompleteDisconnect hr
      | reset =>
          cases h
          exact h₀.heciReset

/-! ### Registrations -/

section registrations

variable {P : Platform} {s s' : HeciDev}

/-- **A registration**: it is refused, or it takes the next entry and is announced if the host has
asked for that. -/
inductive RegisterCase (P : Platform) (s : HeciDev) : HeciDev → Prop
  | refused : RegisterCase P s s
  | taken (i : ClientId) (client : HeciClient) : i.val = s.registeredClients →
      client.maxMsgSize ≤ heciMaxMsgSize →
      RegisterCase P s (heciSendNewClientMsg P (registeredClient i client)
        ({ s with registeredClients := s.registeredClients + 1 }.setClient i
          (registeredClient i client)))

theorem heciRegister_cases (hT : TableInv s) (client : Option HeciClient) :
    RegisterCase P s (heciRegister P client s).2 := by
  unfold heciRegister
  split
  · exact .refused
  next cl hcl =>
  split
  · exact .refused
  split
  · exact .refused
  next i hi =>
  obtain ⟨-, p, hp, -, hsize⟩ := registerParamsOk_some hcl
  -- the entry was free, and is the last of the registered ones now
  have hlt := ((hT.register hi hsize (by rw [hp]; rfl)).registered i).2 (by
    rw [HeciDev.setClient_clients, Function.update_self]
    exact TableInv.clientAddr_register i)
  have hge : ¬ i.val < s.registeredClients := fun hlt =>
    (hT.registered i).1 hlt (findClient_some hi)
  have hpos : i.val < s.registeredClients + 1 := hlt
  exact .taken i cl (by omega) hsize

/-- **Before the host asks, nobody is announced.** -/
theorem announcements_unasked (h : Reachable P s) (hn : s.notifyNewClients = false) :
    announcements s = [] := by
  suffices hI : TableInv s ∧ (s.notifyNewClients = false → announcements s = []) from hI.2 hn
  refine h.invariant (I := fun s => TableInv s ∧ (s.notifyNewClients = false →
    announcements s = [])) ?_ ?_
  · intro s hs
    exact ⟨tableInv_of_reachable (P := P) (.init hs), fun _ => by
      unfold announcements
      rw [hs.events]
      rfl⟩
  rintro s l s' ⟨hT, h⟩ - hst
  refine ⟨(keeps_tableInv P).step hT hst, fun hn => ?_⟩
  by_cases hl : IsRegister l
  · obtain ⟨client, rfl⟩ := hl
    have hc := heciRegister_cases (P := P) hT client
    rw [Option.some.inj hst] at hc
    cases hc with
    | refused => exact h hn
    | taken i cl =>
        unfold heciSendNewClientMsg at hn ⊢
        split at hn
        · next hask =>
            rw [busReply_eq] at hn
            exact Bool.noConfusion (hask.symm.trans hn)
        · next hask =>
            rw [if_neg hask]
            exact h (Bool.eq_false_of_not_eq_true hask)
  · have hu := unnoticed_step hT hl hst
    rw [hu.announcements]
    refine h (Bool.eq_false_of_not_eq_true fun ht => ?_)
    rw [hu.notify ht] at hn
    cases hn

/-- **What is announced between two states**: the clients that registered in between, each once, in
the order of their registration and as they are registered; and those that were there stay. -/
structure News (s s' : HeciDev) : Prop where
  notify : s'.notifyNewClients = true
  registeredClients : s.registeredClients ≤ s'.registeredClients
  clientAddr : ∀ i : ClientId, i.val < s.registeredClients →
    (s'.clients i).clientAddr = (s.clients i).clientAddr
  announced : ∃ is : List ClientId,
    is.map Fin.val = List.range' s.registeredClients (s'.registeredClients - s.registeredClients) ∧
      announcements s' = announcements s ++ is.map fun i => toldNew (s'.clients i)

theorem News.refl (hn : s.notifyNewClients = true) : News s s where
  notify := hn
  registeredClients := le_refl _
  clientAddr := fun _ _ => rfl
  announced := ⟨[], by simp, by simp⟩

theorem News.unnoticed {s'' : HeciDev} (h : News s s') (hu : Unnoticed s' s'') : News s s'' := by
  obtain ⟨is, his, hann⟩ := h.announced
  refine ⟨hu.notify h.notify, hu.registeredClients ▸ h.registeredClients,
    fun i hi => (hu.clientAddr i).trans (h.clientAddr i hi), is, hu.registeredClients ▸ his, ?_⟩
  rw [hu.announcements, hann]
  refine congrArg _ (List.map_congr_left fun i _ => ?_)
  unfold toldNew
  rw [hu.clientAddr, hu.properties]

/-- The entries of the client table that were filled between two states. -/
theorem News.mem_iff (h : News s s') {is : List ClientId}
    (his : is.map Fin.val =
      List.range' s.registeredClients (s'.registeredClients - s.registeredClients))
    (i : ClientId) : i ∈ is ↔ s.registeredClients ≤ i.val ∧ i.val < s'.registeredClients := by
  have hge := h.registeredClients
  rw [← List.mem_map_of_injective Fin.val_injective, his, List.mem_range'_1]
  omega

/-- A registration is announced. -/
theorem News.registered {s'' : HeciDev} (hP : P.Succeeds) (h : News s s')
    (hc : RegisterCase P s' s'') : News s s'' := by
  cases hc with
  | refused => exact h
  | taken i cl hi hsize =>
      obtain ⟨is, his, hann⟩ := h.announced
      have hge := h.registeredClients
      have hbefore : ∀ j : ClientId, j.val < s'.registeredClients →
          Function.update s'.clients i (registeredClient i cl) j = s'.clients j := fun j hj =>
        Function.update_of_ne (fun he => absurd (he ▸ hj) (by omega)) _ _
      have hsend : heciSendNewClientMsg P (registeredClient i cl)
          ({ s' with registeredClients := s'.registeredClients + 1 }.setClient i
            (registeredClient i cl)) = busReply P (addClientReqBytes
              (registeredClient i cl).clientAddr (registeredClient i cl).properties)
            ({ s' with registeredClients := s'.registeredClients + 1 }.setClient i
              (registeredClient i cl)) := if_pos h.notify
      rw [hsend, busReply_eq]
      refine ⟨h.notify, Nat.le_succ_of_le hge, fun j hj => ?_, is ++ [i], ?_, ?_⟩
      · exact (congrArg _ (hbefore j (lt_of_lt_of_le hj hge))).trans (h.clientAddr j hj)
      · have hlen : s'.registeredClients + 1 - s.registeredClients =
            s'.registeredClients - s.registeredClients + 1 := by omega
        have hlast : i.val = s.registeredClients +
            1 * (s'.registeredClients - s.registeredClients) := by omega
        rw [HeciDev.emit_registeredClients, HeciDev.setClient_registeredClients, hlen,
          List.range'_concat, ← hlast, ← his, List.map_append]
        rfl
      · have hread := (announcementOf_busFrame _).trans
          (hostAnnouncement_addClientReqBytes (registeredClient i cl) hsize)
        unfold announcements at hann ⊢
        rw [HeciDev.emit_events, List.filterMap_append,
          filterMap_protoEvents_of_succeeds (fun _ => rfl) (fun _ => rfl) hP, hread,
          HeciDev.setClient_events, hann, List.map_append, List.append_assoc]
        congr 2
        · exact List.map_congr_left fun j hj =>
            congrArg _ (hbefore j ((h.mem_iff his j).1 hj).2).symm
        · rw [List.map_singleton, HeciDev.emit_clients, HeciDev.setClient_clients,
            Function.update_self]
          rfl

/-- **A run announces what registers in it.** -/
theorem news_run (hP : P.Succeeds) (hT : TableInv s) (hn : s.notifyNewClients = true)
    {ls : List Call} (hr : Lts.run (step P) s ls = some s') : News s s' := by
  suffices hI : ∀ {s₁ : HeciDev}, TableInv s₁ → News s s₁ → Lts.run (step P) s₁ ls = some s' →
      News s s' from hI hT (News.refl hn) hr
  clear hr
  induction ls with
  | nil =>
      rintro s₁ - h hr
      obtain rfl := Option.some.inj hr
      exact h
  | cons l ls ih =>
      intro s₁ hT₁ h hr
      rw [Lts.run_cons] at hr
      obtain ⟨s₂, hs₂, hr⟩ := Option.bind_eq_some_iff.1 hr
      refine ih ((keeps_tableInv P).step hT₁ hs₂) ?_ hr
      by_cases hl : IsRegister l
      · obtain ⟨client, rfl⟩ := hl
        have hc := heciRegister_cases (P := P) hT₁ client
        rw [Option.some.inj hs₂] at hc
        exact h.registered hP hc
      · exact h.unnoticed (unnoticed_step hT₁ hl hs₂)

/-- The addresses of the clients that registered between two states. -/
theorem News.assigned (h : News s s') {is : List ClientId}
    (his : is.map Fin.val =
      List.range' s.registeredClients (s'.registeredClients - s.registeredClients)) (a : UInt8) :
    Assigned s' a ↔ Assigned s a ∨ ∃ i ∈ is, (s'.clients i).clientAddr = a := by
  have hge := h.registeredClients
  constructor
  · rintro ⟨i, hi, ha⟩
    by_cases hold : i.val < s.registeredClients
    · exact Or.inl ⟨i, hold, (h.clientAddr i hold).symm.trans ha⟩
    · exact Or.inr ⟨i, (h.mem_iff his i).2 ⟨not_lt.1 hold, hi⟩, ha⟩
  · rintro (⟨i, hi, ha⟩ | ⟨i, hi, ha⟩)
    · exact ⟨i, lt_of_lt_of_le hi hge, (h.clientAddr i hi).trans ha⟩
    · exact ⟨i, ((h.mem_iff his i).1 hi).2, ha⟩

/-- **The host knows the clients**: it asks which there are and to be told of the later ones, and at
any later time, whatever has happened in between, the bitmap it was answered with and the
announcements it has read since name the clients that are registered, each of them once; and an
announcement says what its client registered with. -/
theorem hostClients {s₁ s₂ : HeciDev} (hP : P.Succeeds) {msg : HeciBusMsg} {ls : List Call}
    (h : Reachable P s) (hm : IsBusMsg busMsgHostEnumReq 4 msg) (hask : msg.byte 1 ≠ 0)
    (h₁ : step P (.op (.recv msg)) s = some s₁) (h₂ : Lts.run (step P) s₁ ls = some s₂) :
    ∃ data news, s₁.events = answered P msg data s ∧
      announcements s₂ = announcements s ++ news ∧
      (∀ a : UInt8, Assigned s₂ a ↔
        a.toNat ∈ hostAddresses data ∨ a ∈ news.map fun n => n.client.address) ∧
      (news.map fun n => n.client.address).Nodup ∧
      ∀ n ∈ news, n.client.address.toNat ∉ hostAddresses data ∧
        ∃ i : ClientId, i.val < s₂.registeredClients ∧ n = toldNew (s₂.clients i) := by
  have hT := tableInv_of_reachable h
  have hu := unnoticed_step hT (fun ⟨_, hl⟩ => by cases hl) h₁
  have hT₁ := (keeps_tableInv P).step hT h₁
  have hT₂ := keeps_run (keeps_tableInv P) hT₁ h₂
  have hnotify : s₁.notifyNewClients = true := by
    rw [step_hostEnum hm, heciEnumResp, if_neg (not_not.2 hm.2.1)] at h₁
    dsimp only at h₁
    rw [if_pos hask] at h₁
    rw [← Option.some.inj h₁]
  have hevents : s₁.events = answered P msg (hostEnumRespBytes (validAddresses s)) s := by
    rw [step_hostEnum hm] at h₁
    rw [← Option.some.inj h₁, events_heciEnumResp hm]
  have hnews := news_run hP hT₁ hnotify h₂
  obtain ⟨is, his, hann⟩ := hnews.announced
  have hassigned : ∀ a, Assigned s₁ a ↔ Assigned s a := by
    intro a
    unfold Assigned
    rw [hu.registeredClients]
    exact exists_congr fun i => by rw [hu.clientAddr]
  have hmem : ∀ a, a ∈ (is.map fun i => toldNew (s₂.clients i)).map (fun n => n.client.address) ↔
      ∃ i ∈ is, (s₂.clients i).clientAddr = a := by
    intro a
    rw [List.map_map, List.mem_map]
    rfl
  have hrange : ∀ i ∈ is, s₁.registeredClients ≤ i.val ∧ i.val < s₂.registeredClients :=
    fun i => (hnews.mem_iff his i).1
  refine ⟨_, _, hevents, hu.announcements ▸ hann, fun a => ?_, ?_, ?_⟩
  · rw [mem_hostAddresses, hmem, hnews.assigned his, hassigned]
  · have hnodup : is.Nodup := List.Nodup.of_map Fin.val (his ▸ List.nodup_range')
    rw [List.map_map]
    exact hnodup.map_on fun i hi j hj he =>
      hT₂.clientAddr_inj ((hT₂.registered i).1 (hrange i hi).2) he
  · intro n hn
    obtain ⟨i, hi, rfl⟩ := List.mem_map.1 hn
    refine ⟨fun ha => ?_, i, (hrange i hi).2, rfl⟩
    obtain ⟨j, hj, hja⟩ := (mem_hostAddresses s _).1 ha
    have hj₁ : j.val < s₁.registeredClients := hu.registeredClients.symm ▸ hj
    have heq := hT₂.clientAddr_inj
      ((hT₂.registered j).1 (lt_of_lt_of_le hj₁ hnews.registeredClients))
      ((hnews.clientAddr j hj₁).trans ((hu.clientAddr j).trans hja))
    exact absurd (heq ▸ hj₁) (not_lt.2 (hrange i hi).1)

/-- The host asks for the clients and to be told of later ones; then another client registers. -/
def laterCalls : List Call :=
  [busCall [busMsgHostEnumReq, 1, 0, 0], .op (.register (some (plainClient 2 1 4096 1)))]

/-- A client registers, the host asks, and the client that comes then is announced. -/
theorem hostClients_later :
    ∃ (s s₁ s₂ : HeciDev) (data : List UInt8) (news : List Announcement),
    Reachable Platform.nominal s ∧ s.registeredClients = 1 ∧ s₂.registeredClients = 2 ∧
    s₁.events = answered Platform.nominal (busFrame [busMsgHostEnumReq, 1, 0, 0]) data s ∧
    announcements s₂ = announcements s ++ news ∧
    ∀ a : UInt8, Assigned s₂ a ↔
      a.toNat ∈ hostAddresses data ∨ a ∈ news.map fun n => n.client.address := by
  obtain ⟨s, hs, hone, hrun⟩ : ∃ s, Reachable Platform.nominal s ∧ s.registeredClients = 1 ∧
      ((Lts.run (step Platform.nominal) s laterCalls).any fun s₂ =>
        decide (s₂.registeredClients = 2)) = true :=
    exists_reachable Platform.nominal [.op (.register (some (plainClient 1 0 4096 1)))] _
      (by decide +kernel)
  obtain ⟨s₂, hs₂, htwo⟩ := (Option.any_eq_true _ _).1 hrun
  obtain ⟨s₁, hs₁, hs₂⟩ := Option.bind_eq_some_iff.1 hs₂
  obtain ⟨data, news, hev, hnews, hall, -, -⟩ := hostClients Platform.nominal_succeeds hs
    (⟨rfl, rfl, rfl⟩ : IsBusMsg busMsgHostEnumReq 4 _) (by decide) hs₁ hs₂
  exact ⟨s, s₁, s₂, data, news, hs, hone, of_decide_eq_true htwo, hev, hnews, hall⟩

end registrations

end PseFw.Heci
