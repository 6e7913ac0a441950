/-
**The invariant of the connection table.**

A dozen handlers write to the connection table, the address zero doubles as the mark of a free entry
of the client table, and the credit of a connection that is reused is only cleared when its
predecessor is freed.  This module finds the invariant that ties the two tables together and shows
that every operation keeps it.

The proof goes by kinds of writes rather than by handlers: an entry is replaced by one with the same
owner, a connection is opened, a connection is freed, a client is registered, the activity flags
change.  Each handler is a composition of such writes.

Main definitions:

* `PseFw.Heci.ClientOk`, `PseFw.Heci.ConnOk` — what an entry of each table satisfies;
* `PseFw.Heci.TableInv` — the invariant;
* `PseFw.Heci.ConnTableOk` — the part of it that is about the connection table as such.

Main results:

* `PseFw.Heci.keeps_tableInv` — every operation keeps the invariant;
* `PseFw.Heci.connTableOk_of_reachable` — **the connection table is sound in every reachable
  state**.  -/

import PseFw.Lib.Table
import PseFw.Heci.Step

set_option relaxedAutoImplicit false
set_option autoImplicit false

namespace PseFw.Heci

open Table

/-! ### Entries -/

/-- The states a connection can be in. -/
def validStates : List UInt8 :=
  [connStateUnused, connStateOpen, connStateOpen ||| connStateProcessingMsg, connStateDisconnecting,
    connStateDisconnecting ||| connStateSendDisconnectResp]

/-- An entry of the client table is either free or was filled in by a registration. -/
structure ClientOk (i : ClientId) (x : HeciClientCtrl) : Prop where
  free : x.clientAddr = 0 → x.properties = HeciClient.zero ∧ x.nOfConns = 0
  addr : x.clientAddr ≠ 0 → x.clientAddr = UInt8.ofNat (i + heciFixedClientNum)
  maxMsgSize : x.properties.maxMsgSize ≤ heciMaxMsgSize
  rxMsg : x.clientAddr ≠ 0 → x.properties.rxMsg.isSome

/-- An entry of the connection table agrees with the client table. -/
structure ConnOk (clients : ClientId → HeciClientCtrl) (c : ConnId) (x : HeciConn) : Prop where
  state : x.state ∈ validStates
  unused : x.state = connStateUnused → x.hostBuffers = 0
  used : x.state ≠ connStateUnused → ∃ i, x.client = some i ∧ (clients i).clientAddr ≠ 0 ∧
    x.fwAddr = (clients i).clientAddr ∧ x.connectionId = UInt8.ofNat c ∧ x.flowCtrlSem = some c ∧
    x.eventCb = (clients i).properties.eventCb ∧ x.param = (clients i).properties.param

/-- The connection is in use and belongs to the client. -/
def ownedBy (i : ClientId) (x : HeciConn) : Bool :=
  x.state != connStateUnused && x.client == some i

/-- **The invariant of the two tables.** -/
structure TableInv (s : HeciDev) : Prop where
  clients : ∀ i, ClientOk i (s.clients i)
  registered : ∀ i : ClientId, i.val < s.registeredClients ↔ (s.clients i).clientAddr ≠ 0
  conns : ∀ c, ConnOk s.clients c (s.connections c)
  count : ∀ i, (s.clients i).nOfConns.toNat = tally (ownedBy i) s.connections
  limit : ∀ i, (s.clients i).nOfConns.toNat ≤ (s.clients i).properties.maxNOfConnections.toNat

namespace ConnOk

variable {clients clients' : ClientId → HeciClientCtrl} {c : ConnId} {x : HeciConn}

theorem state_cases (h : ConnOk clients c x) :
    x.state = 0 ∨ x.state = 1 ∨ x.state = 3 ∨ x.state = 4 ∨ x.state = 20 := by
  have hst := h.state
  simp only [validStates, List.mem_cons, List.not_mem_nil, or_false] at hst
  exact hst

/-- The open connections are those in one of two states. -/
theorem open_iff (h : ConnOk clients c x) :
    x.has connStateOpen = true ↔ x.state = 1 ∨ x.state = 3 := by
  unfold HeciConn.has
  rcases h.state_cases with hs | hs | hs | hs | hs <;> rw [hs] <;> decide

theorem processing_iff (h : ConnOk clients c x) :
    x.has connStateProcessingMsg = true ↔ x.state = 3 := by
  unfold HeciConn.has
  rcases h.state_cases with hs | hs | hs | hs | hs <;> rw [hs] <;> decide

theorem disconnecting_iff (h : ConnOk clients c x) :
    x.has connStateDisconnecting = true ↔ x.state = 4 ∨ x.state = 20 := by
  unfold HeciConn.has
  rcases h.state_cases with hs | hs | hs | hs | hs <;> rw [hs] <;> decide

theorem sendResp_iff (h : ConnOk clients c x) :
    x.has connStateSendDisconnectResp = true ↔ x.state = 20 := by
  unfold HeciConn.has
  rcases h.state_cases with hs | hs | hs | hs | hs <;> rw [hs] <;> decide

/-- A connection that takes fragments is open. -/
theorem active_iff (h : ConnOk clients c x) :
    x.has (connStateOpen ||| connStateProcessingMsg) = true ↔ x.state = 1 ∨ x.state = 3 := by
  unfold HeciConn.has
  rcases h.state_cases with hs | hs | hs | hs | hs <;> rw [hs] <;> decide

/-- A connection a disconnect request applies to is open: no connection is ever in the state of a
pending connection request. -/
theorem closable_iff (h : ConnOk clients c x) :
    x.has (connStateOpen ||| connStateConnectionRequest) = true ↔ x.state = 1 ∨ x.state = 3 := by
  unfold HeciConn.has
  rcases h.state_cases with hs | hs | hs | hs | hs <;> rw [hs] <;> decide

/-- The entry only depends on the addresses and properties of the registered clients. -/
theorem congr (h : ConnOk clients c x)
    (hcl : ∀ i, (clients i).clientAddr ≠ 0 → (clients' i).clientAddr = (clients i).clientAddr ∧
      (clients' i).properties = (clients i).properties) : ConnOk clients' c x := by
  refine ⟨h.state, h.unused, fun hu => ?_⟩
  obtain ⟨i, hi, hne, hfw, hid, hsem, hcb⟩ := h.used hu
  obtain ⟨ha, hp⟩ := hcl i hne
  exact ⟨i, hi, by rw [ha]; exact hne, by rw [ha]; exact hfw, hid, hsem, by rw [hp]; exact hcb⟩

/-- Replacing the state of an entry in use, and fields that are not constrained. -/
theorem of_used (h : ConnOk clients c x) {y : HeciConn} (hx : x.state ≠ connStateUnused)
    (hst : y.state ∈ validStates) (hy : y.state ≠ connStateUnused) (hcl : y.client = x.client)
    (hfw : y.fwAddr = x.fwAddr) (hid : y.connectionId = x.connectionId)
    (hsem : y.flowCtrlSem = x.flowCtrlSem) (hcb : y.eventCb = x.eventCb)
    (hpar : y.param = x.param) : ConnOk clients c y := by
  refine ⟨hst, fun hu => absurd hu hy, fun _ => ?_⟩
  obtain ⟨i, hi, hne, h₁, h₂, h₃, h₄, h₅⟩ := h.used hx
  exact ⟨i, hcl.trans hi, hne, hfw.trans h₁, hid.trans h₂, hsem.trans h₃, hcb.trans h₄,
    hpar.trans h₅⟩

end ConnOk

theorem ownedBy_eq {i : ClientId} {x y : HeciConn} (hcl : y.client = x.client)
    (hst : y.state = connStateUnused ↔ x.state = connStateUnused) : ownedBy i y = ownedBy i x := by
  unfold ownedBy
  rw [hcl]
  by_cases hx : x.state = connStateUnused
  · rw [hst.2 hx, hx]
  · have hy : y.state ≠ connStateUnused := fun h => hx (hst.1 h)
    rw [bne_iff_ne.2 hx, bne_iff_ne.2 hy]

/-! ### Kinds of writes -/

namespace TableInv

variable {s s' : HeciDev}

/-- A step that leaves both tables alone. -/
theorem of_eq (h : TableInv s) (hcl : s'.clients = s.clients)
    (hco : s'.connections = s.connections) (hreg : s'.registeredClients = s.registeredClients) :
    TableInv s' := by
  constructor
  · rw [hcl]; exact h.clients
  · rw [hcl, hreg]; exact h.registered
  · rw [hcl, hco]; exact h.conns
  · rw [hcl, hco]; exact h.count
  · rw [hcl]; exact h.limit

/-- A connection is replaced by one with the same owner. -/
theorem setConn (h : TableInv s) {c : ConnId} {x : HeciConn} (hx : ConnOk s.clients c x)
    (hown : ∀ i, ownedBy i x = ownedBy i (s.connections c)) : TableInv (s.setConn c x) := by
  refine ⟨h.clients, h.registered, ?_, ?_, h.limit⟩
  · intro d
    by_cases hd : d = c
    · subst hd
      simpa using hx
    · simpa [Function.update_of_ne hd] using h.conns d
  · intro i
    rw [HeciDev.setConn_clients, HeciDev.setConn_connections, tally_update_of_eq (hown i)]
    exact h.count i

/-- The state and unconstrained fields of a connection in use are replaced. -/
theorem setConn_used (h : TableInv s) {c : ConnId} {x : HeciConn}
    (hc : (s.connections c).state ≠ connStateUnused) (hst : x.state ∈ validStates)
    (hx : x.state ≠ connStateUnused) (hcl : x.client = (s.connections c).client)
    (hfw : x.fwAddr = (s.connections c).fwAddr)
    (hid : x.connectionId = (s.connections c).connectionId)
    (hsem : x.flowCtrlSem = (s.connections c).flowCtrlSem)
    (hcb : x.eventCb = (s.connections c).eventCb)
    (hpar : x.param = (s.connections c).param) : TableInv (s.setConn c x) :=
  h.setConn ((h.conns c).of_used hc hst hx hcl hfw hid hsem hcb hpar)
    fun _ => ownedBy_eq hcl ⟨fun hu => absurd hu hx, fun hu => absurd hu hc⟩

/-- The activity flags of the clients change. -/
theorem setActive (h : TableInv s) (act : ClientId → Bool) :
    TableInv { s with clients := fun i => { s.clients i with active := act i } } := by
  refine ⟨?_, h.registered, ?_, h.count, h.limit⟩
  · intro i
    exact ⟨(h.clients i).free, (h.clients i).addr, (h.clients i).maxMsgSize, (h.clients i).rxMsg⟩
  · intro c
    exact (h.conns c).congr fun i _ => ⟨rfl, rfl⟩

/-- A client that accepts one more connection is registered: a free entry has no room for any. -/
theorem clientAddr_ne_zero (h : TableInv s) {i : ClientId}
    (hroom : (s.clients i).nOfConns ≠ (s.clients i).properties.maxNOfConnections) :
    (s.clients i).clientAddr ≠ 0 := by
  intro h0
  obtain ⟨hp, hn⟩ := (h.clients i).free h0
  exact hroom (by rw [hp, hn]; rfl)

/-- An unused entry belongs to nobody. -/
theorem ownedBy_unused {i : ClientId} {x : HeciConn} (hx : x.state = connStateUnused) :
    ownedBy i x = false := by
  simp [ownedBy, hx]

/-- The count of a client and one connection change together. -/
theorem replace (h : TableInv s) {c : ConnId} {i : ClientId} {n : UInt8} {x : HeciConn}
    (hreg : (s.clients i).clientAddr ≠ 0) (hx : ConnOk s.clients c x)
    (hn : n.toNat + (ownedBy i (s.connections c)).toNat =
      (s.clients i).nOfConns.toNat + (ownedBy i x).toNat)
    (hother : ∀ j, j ≠ i → ownedBy j x = ownedBy j (s.connections c))
    (hlimit : n.toNat ≤ (s.clients i).properties.maxNOfConnections.toNat) :
    TableInv ((s.setClient i { s.clients i with nOfConns := n }).setConn c x) := by
  have hkeep : ∀ j, (Function.update s.clients i { s.clients i with nOfConns := n } j).clientAddr =
        (s.clients j).clientAddr ∧
      (Function.update s.clients i { s.clients i with nOfConns := n } j).properties =
        (s.clients j).properties := by
    intro j
    by_cases hj : j = i
    · subst hj; simp
    · simp [Function.update_of_ne hj]
  refine ⟨?_, ?_, ?_, ?_, ?_⟩
  · intro j
    by_cases hj : j = i
    · subst hj
      simp only [HeciDev.setConn_clients, HeciDev.setClient_clients, Function.update_self]
      exact ⟨fun h0 => absurd h0 hreg, (h.clients j).addr, (h.clients j).maxMsgSize,
        (h.clients j).rxMsg⟩
    · simpa [Function.update_of_ne hj] using h.clients j
  · intro j
    simp only [HeciDev.setConn_clients, HeciDev.setClient_clients, (hkeep j).1]
    exact h.registered j
  · intro d
    by_cases hd : d = c
    · subst hd
      simpa using hx.congr fun j _ => hkeep j
    · simpa [Function.update_of_ne hd] using (h.conns d).congr fun j _ => hkeep j
  · intro j
    have ht := tally_update (ownedBy j) s.connections c x
    have hc := h.count j
    by_cases hj : j = i
    · subst hj
      simp only [HeciDev.setConn_clients, HeciDev.setClient_clients, Function.update_self,
        HeciDev.setConn_connections, HeciDev.setClient_connections]
      omega
    · rw [hother j hj] at ht
      simp only [HeciDev.setConn_clients, HeciDev.setClient_clients, Function.update_of_ne hj,
        HeciDev.setConn_connections, HeciDev.setClient_connections]
      omega
  · intro j
    by_cases hj : j = i
    · subst hj
      simpa using hlimit
    · simpa [Function.update_of_ne hj] using h.limit j

/-- **A connection is opened.** -/
theorem opened (h : TableInv s) {c : ConnId} {i : ClientId} {x : HeciConn}
    (hidle : (s.connections c).state = connStateUnused)
    (hroom : (s.clients i).nOfConns ≠ (s.clients i).properties.maxNOfConnections)
    (hst : x.state = connStateOpen) (hcl : x.client = some i)
    (hx : ConnOk s.clients c x) :
    TableInv ((s.setClient i { s.clients i with nOfConns := (s.clients i).nOfConns + 1 }).setConn c
      x) := by
  have hlt : (s.clients i).nOfConns.toNat < (s.clients i).properties.maxNOfConnections.toNat :=
    lt_of_le_of_ne (h.limit i) fun he => hroom (UInt8.toNat_inj.1 he)
  have hmax := (s.clients i).properties.maxNOfConnections.toNat_lt
  have hsucc : ((s.clients i).nOfConns + 1).toNat = (s.clients i).nOfConns.toNat + 1 := by
    rw [UInt8.toNat_add]
    simp only [UInt8.toNat_one]
    omega
  have hown : ownedBy i x = true := by
    rw [ownedBy, hst, hcl, bne_iff_ne.2 (by decide)]
    simp
  refine h.replace (h.clientAddr_ne_zero hroom) hx ?_ ?_ ?_
  · rw [ownedBy_unused hidle, hown, hsucc]
    rfl
  · intro j hj
    rw [ownedBy_unused hidle, ownedBy, hcl]
    simp [Ne.symm hj]
  · rw [hsucc]
    omega

/-- **A connection is freed.** -/
theorem freed (h : TableInv s) {c : ConnId} {i : ClientId}
    (hused : (s.connections c).state ≠ connStateUnused) (hcl : (s.connections c).client = some i) :
    TableInv ((s.setClient i { s.clients i with nOfConns := (s.clients i).nOfConns - 1 }).setConn c
      HeciConn.zero) := by
  have hown : ownedBy i (s.connections c) = true := by
    rw [ownedBy, hcl, bne_iff_ne.2 hused]
    simp
  have hpos : 0 < (s.clients i).nOfConns.toNat := by
    rw [h.count i]
    exact tally_pos hown
  have hpred : ((s.clients i).nOfConns - 1).toNat = (s.clients i).nOfConns.toNat - 1 := by
    rw [UInt8.toNat_sub_of_le]
    · rfl
    · rw [UInt8.le_iff_toNat_le]
      simp only [UInt8.toNat_one]
      omega
  have hreg : (s.clients i).clientAddr ≠ 0 := by
    obtain ⟨j, hj, hne, -⟩ := (h.conns c).used hused
    rw [hcl] at hj
    cases hj
    exact hne
  have hzero : ∀ j, ownedBy j HeciConn.zero = false := fun j => ownedBy_unused rfl
  refine h.replace hreg ⟨by decide, fun _ => rfl, fun hu => absurd rfl hu⟩ ?_ ?_ ?_
  · rw [hzero, hown, hpred]
    simp only [Bool.toNat_true, Bool.toNat_false]
    omega
  · intro j hj
    rw [hzero, ownedBy, hcl]
    simp [Ne.symm hj]
  · have := h.limit i
    rw [hpred]
    omega

/-- The address of a registered client is not zero. -/
theorem clientAddr_register (i : ClientId) : UInt8.ofNat (i + heciFixedClientNum) ≠ 0 := by
  revert i
  decide

/-- Two entries of the client table that are in use have different addresses. -/
theorem clientAddr_inj (hT : TableInv s) {i j : ClientId} (hi : (s.clients i).clientAddr ≠ 0)
    (he : (s.clients i).clientAddr = (s.clients j).clientAddr) : i = j := by
  have hofNat : ∀ a b : ClientId, UInt8.ofNat (a + heciFixedClientNum) =
      UInt8.ofNat (b + heciFixedClientNum) → a = b := by decide
  have hj : (s.clients j).clientAddr ≠ 0 := he ▸ hi
  rw [(hT.clients i).addr hi, (hT.clients j).addr hj] at he
  exact hofNat i j he

/-- **A client is registered** in a free entry that follows the registered ones. -/
theorem register (h : TableInv s) {i : ClientId} {client : HeciClient}
    (hi : findClient 0 s = some i) (hsize : client.maxMsgSize ≤ heciMaxMsgSize)
    (hrx : client.rxMsg.isSome) :
    TableInv ({ s with registeredClients := s.registeredClients + 1 }.setClient i
      (registeredClient i client)) := by
  have hfree : (s.clients i).clientAddr = 0 := findClient_some hi
  have haddr : UInt8.ofNat (i + heciFixedClientNum) ≠ 0 := clientAddr_register i
  -- the free entry that is found is the one the registered entries end at
  have hpos : i.val = s.registeredClients := by
    have hge : ¬ i.val < s.registeredClients := fun hlt => (h.registered i).1 hlt hfree
    by_contra hne
    have hlt : s.registeredClients < i.val := by omega
    have hj := find?_finRange_first hi ⟨s.registeredClients, lt_trans hlt i.isLt⟩ hlt
    have hreg := (h.registered ⟨s.registeredClients, lt_trans hlt i.isLt⟩).2 (by simpa using hj)
    exact lt_irrefl _ hreg
  have hcount : tally (ownedBy i) s.connections = 0 := by
    rw [← h.count i, ((h.clients i).free hfree).2]
    rfl
  refine ⟨?_, ?_, ?_, ?_, ?_⟩
  · intro j
    by_cases hj : j = i
    · subst hj
      simp only [HeciDev.setClient_clients, Function.update_self]
      exact ⟨fun h0 => absurd h0 haddr, fun _ => rfl, hsize, fun _ => hrx⟩
    · simpa [Function.update_of_ne hj] using h.clients j
  · intro j
    by_cases hj : j = i
    · subst hj
      simp only [HeciDev.setClient_clients, Function.update_self,
        HeciDev.setClient_registeredClients]
      exact ⟨fun _ => haddr, fun _ => by omega⟩
    · have hji : j.val ≠ i.val := fun he => hj (Fin.ext he)
      simp only [HeciDev.setClient_clients, Function.update_of_ne hj,
        HeciDev.setClient_registeredClients]
      rw [← h.registered j]
      omega
  · intro d
    refine (h.conns d).congr fun j hj => ?_
    have hji : j ≠ i := fun he => hj (he ▸ hfree)
    simp [Function.update_of_ne hji]
  · intro j
    by_cases hj : j = i
    · subst hj
      simpa [registeredClient] using hcount.symm
    · simpa [Function.update_of_ne hj] using h.count j
  · intro j
    by_cases hj : j = i
    · subst hj
      simp [registeredClient]
    · simpa [Function.update_of_ne hj] using h.limit j

/-! ### Handlers -/

theorem log (h : TableInv s) (e : Event) : TableInv (s.log e) := h.of_eq rfl rfl rfl

theorem setRx (h : TableInv s) (p : RxPtr) (x : HeciRxMsg) : TableInv (s.setRx p x) :=
  h.of_eq rfl rfl rfl

theorem setSem (h : TableInv s) (c : ConnId) (n : ℕ) : TableInv (s.setSem c n) :=
  h.of_eq rfl rfl rfl

theorem io {W : HeciBusMsg → Prop} (h : TableInv s) (hio : IoStep W s s') : TableInv s' :=
  h.of_eq hio.clients hio.connections hio.registeredClients

theorem busReply (h : TableInv s) (P : Platform) (data : List UInt8) :
    TableInv (busReply P data s) :=
  h.io (IoStep.sendProtoMsg (W := fun _ => True) P trivial s)

theorem notify (h : TableInv s) (c : ConnId) (e : HeciEvent) :
    TableInv (heciNotifyClient c e s) := h.log _

theorem heciRegister (h : TableInv s) (P : Platform) (client : Option HeciClient) :
    TableInv (heciRegister P client s).2 := by
  unfold Heci.heciRegister
  split
  · exact h
  · next cl hcl =>
      split
      · exact h
      · split
        · exact h
        · next i hi =>
            obtain ⟨-, p, hp, -, hsize⟩ := registerParamsOk_some hcl
            have hrx : cl.rxMsg.isSome := by rw [hp]; rfl
            have hreg := h.register hi hsize hrx
            unfold heciSendNewClientMsg
            dsimp only
            split
            · exact hreg.busReply P _
            · exact hreg

/-- The state of a connection in use changes. -/
theorem setState (h : TableInv s) {c : ConnId} {st : UInt8}
    (hc : (s.connections c).state ≠ connStateUnused) (hst : st ∈ validStates)
    (hne : st ≠ connStateUnused) : TableInv (s.setConn c { s.connections c with state := st }) :=
  h.setConn_used hc hst hne rfl rfl rfl rfl rfl rfl

theorem resetConn (h : TableInv s) (c : ConnId) : TableInv (resetConn s c) := by
  unfold Heci.resetConn
  split
  · next hopen =>
      have hused : (s.connections c).state ≠ connStateUnused := by
        rcases (h.conns c).open_iff.1 hopen with hs | hs <;> rw [hs] <;> decide
      unfold heciConnectionReset
      split
      · exact h
      · exact (h.setState hused (by decide) (by decide)).notify c _
  · split
    · next hdis =>
        have hused : (s.connections c).state ≠ connStateUnused := by
          rcases (h.conns c).disconnecting_iff.1 hdis with hs | hs <;> rw [hs] <;> decide
        exact h.setState hused (by decide) (by decide)
    · exact h

theorem heciReset (h : TableInv s) : TableInv (heciReset s) := by
  unfold Heci.heciReset
  exact List.foldlRecOn _ _ (h.log _) fun s hs c _ => hs.resetConn c

theorem heciEnumResp (h : TableInv s) (P : Platform) (msg : HeciBusMsg) :
    TableInv (heciEnumResp P msg s) := by
  have hact : TableInv
      { s with clients := fun i =>
          if i.val < s.registeredClients then { s.clients i with active := true }
          else s.clients i } := by
    refine (h.setActive fun i =>
      if i.val < s.registeredClients then true else (s.clients i).active).of_eq ?_ rfl rfl
    funext i
    dsimp only
    split <;> rfl
  unfold Heci.heciEnumResp
  split
  · exact h
  · dsimp only
    split
    · exact (hact.busReply P _).of_eq rfl rfl rfl
    · exact hact.busReply P _

theorem heciAddClientResp (h : TableInv s) (msg : HeciBusMsg) :
    TableInv (heciAddClientResp msg s) := by
  unfold Heci.heciAddClientResp
  split
  · exact h
  · split
    · exact h
    · split
      · exact h
      · next i hi =>
          refine (h.setActive fun j => if j = i then true else (s.clients j).active).of_eq
            ?_ rfl rfl
          funext j
          by_cases hj : j = i
          · subst hj; simp
          · simp [hj]

theorem heciConnectHost (h : TableInv s) (P : Platform) (msg : HeciBusMsg)
    (hs : heciConnectHost P msg s = some s') : TableInv s' := by
  cases heciConnectHost_cases hs with
  | ignored _ => exact h
  | refused st _ => exact h.busReply P _
  | noBuffer c hc =>
      have hidle : (s.connections c).state = connStateUnused := findIdleConn_some hc
      exact (h.setConn (x := { s.connections c with
        connectionId := UInt8.ofNat c
        rxBuffer := none })
        ⟨(h.conns c).state, (h.conns c).unused, fun hu => absurd hidle hu⟩
        fun i => ownedBy_eq rfl Iff.rfl).busReply P _
  | opened i c p _ hi hhost _ hroom hc hp hl =>
      have hidle : (s.connections c).state = connStateUnused := findIdleConn_some hc
      have hreg := h.clientAddr_ne_zero hroom
      have hx : ConnOk s.clients c (connectedConn (s.connections c) c i (s.clients i).properties
          (msg.byte 1) (msg.byte 2) p) := by
        have hst : connStateOpen ∈ validStates ∧ connStateOpen ≠ connStateUnused := by decide
        refine ⟨hst.1, fun hu => absurd hu hst.2, fun _ => ⟨i, rfl, hreg, ?_⟩⟩
        exact ⟨(findClient_some hi).symm, rfl, rfl, rfl, rfl⟩
      have ho := (h.setRx p { s.rxMsgs p with msgLock := true }).opened (c := c) (i := i)
        hidle hroom
        rfl rfl hx
      exact ((((ho.log _).setSem c 0).setRx p _).notify c _).busReply P _

theorem heciDisconnect (h : TableInv s) (P : Platform) (msg : HeciBusMsg) :
    TableInv (heciDisconnect P msg s) := by
  unfold Heci.heciDisconnect
  split
  · exact h
  · dsimp only
    split
    · next c hc =>
        have hused : (s.connections c).state ≠ connStateUnused := by
          rcases (h.conns c).closable_iff.1 (heciFindConn_some hc).1 with hs | hs <;> rw [hs] <;>
            decide
        have hclosed : TableInv (s.setConn c { s.connections c with
            state := connStateDisconnecting ||| connStateSendDisconnectResp }) :=
          h.setState hused (by decide) (by decide)
        split
        · exact hclosed
        · exact hclosed.notify c _
    · exact h.busReply P _

/-- A connection that was found open is in use. -/
theorem used_of_open (h : TableInv s) {c : ConnId}
    (hopen : (s.connections c).has connStateOpen = true) :
    (s.connections c).state ≠ connStateUnused := by
  rcases (h.conns c).open_iff.1 hopen with hs | hs <;> rw [hs] <;> decide

/-- The client of a connection in use has a receive buffer. -/
theorem exists_rxMsg (h : TableInv s) {c : ConnId} {i : ClientId}
    (hused : (s.connections c).state ≠ connStateUnused) (hcl : (s.connections c).client = some i) :
    ∃ p, (s.clients i).properties.rxMsg = some p := by
  obtain ⟨j, hj, hne, -⟩ := (h.conns c).used hused
  rw [hcl] at hj
  cases hj
  exact Option.isSome_iff_exists.1 ((h.clients i).rxMsg hne)

/-- Fields of an open connection that are not constrained change. -/
theorem setConn_open (h : TableInv s) {c : ConnId} {x : HeciConn}
    (hopen : (s.connections c).has connStateOpen = true) (hst : x.state = (s.connections c).state)
    (hcl : x.client = (s.connections c).client) (hfw : x.fwAddr = (s.connections c).fwAddr)
    (hid : x.connectionId = (s.connections c).connectionId)
    (hsem : x.flowCtrlSem = (s.connections c).flowCtrlSem)
    (hcb : x.eventCb = (s.connections c).eventCb)
    (hpar : x.param = (s.connections c).param) : TableInv (s.setConn c x) := by
  have hused := h.used_of_open hopen
  exact h.setConn_used hused (by rw [hst]; exact (h.conns c).state) (by rw [hst]; exact hused)
    hcl hfw hid hsem hcb hpar

theorem heciFlowControlRecv (h : TableInv s) (msg : HeciBusMsg)
    (hs : heciFlowControlRecv msg s = some s') : TableInv s' := by
  unfold Heci.heciFlowControlRecv at hs
  split at hs
  · cases hs; exact h
  · split at hs
    · cases hs; exact h
    · next c hc =>
        have hcr := (h.setConn_open (heciFindConn_some hc).1 (x := { s.connections c with
          hostBuffers := (s.connections c).hostBuffers + (grantedPackets (msg.byte 3)).toUInt32 })
          rfl rfl rfl rfl rfl rfl rfl).log (.creditGranted c (grantedPackets (msg.byte 3)).toNat)
        unfold heciWakeupSender at hs
        dsimp only at hs
        split at hs
        · split at hs
          · cases hs; exact hcr
          · cases hs
        · cases hs; exact hcr.setSem _ _

theorem heciResetResp (h : TableInv s) (P : Platform) (msg : HeciBusMsg) :
    TableInv (heciResetResp P msg s) := by
  unfold Heci.heciResetResp
  split
  · exact h
  · split
    · exact h
    · next c hc =>
        exact ((h.setConn_open (x := { s.connections c with hostBuffers := 0 })
          (heciFindConn_some hc).1 rfl rfl rfl rfl rfl rfl rfl).log _).busReply P _

/-- Fragments move a connection between its two open states. -/
theorem heciFindActiveConn (h : TableInv s) (msg : HeciBusMsg) {r : Option ConnId × HeciDev}
    (hr : heciFindActiveConn msg s = some r) : TableInv r.2 := by
  unfold Heci.heciFindActiveConn at hr
  split at hr
  · cases hr; exact h
  · next c hc =>
      have hact := (h.conns c).active_iff.1 (heciFindConn_some hc).1
      have hused : (s.connections c).state ≠ connStateUnused := by
        rcases hact with hs | hs <;> rw [hs] <;> decide
      have hlog := h.log (.fragment c msg.payload msg.hdr.lastFrag)
      dsimp only at hr
      split at hr
      · cases hr; exact hlog
      · split at hr
        · cases hr
        · next s₁ hb =>
            cases hr
            obtain ⟨rfl, -⟩ := heciGetBufferFromPool_none hb
            exact hlog.setConn_used hused (h.conns c).state hused rfl rfl rfl rfl rfl rfl
        · next p s₁ hb =>
            cases hr
            obtain ⟨i, -, -, -, rfl⟩ := heciGetBufferFromPool_some hb
            refine TableInv.setRx (TableInv.setConn_used (x := { s.connections c with
              rxBuffer := some p
              state := (s.connections c).state ||| connStateProcessingMsg })
              (hlog.setRx p _) hused ?_ ?_ rfl rfl rfl rfl rfl rfl) p _
            · show (s.connections c).state ||| connStateProcessingMsg ∈ validStates
              rcases hact with hs | hs <;> rw [hs] <;> decide
            · show (s.connections c).state ||| connStateProcessingMsg ≠ connStateUnused
              rcases hact with hs | hs <;> rw [hs] <;> decide

/-- Ending a message leaves a connection in one of the valid states. -/
theorem clearProcessing (h : TableInv s) (c : ConnId) :
    TableInv (s.setConn c { s.connections c with
      state := (s.connections c).state &&& ~~~ connStateProcessingMsg }) := by
  have hst : (s.connections c).state &&& ~~~ connStateProcessingMsg ∈ validStates ∧
      ((s.connections c).state &&& ~~~ connStateProcessingMsg = connStateUnused ↔
        (s.connections c).state = connStateUnused) := by
    rcases (h.conns c).state_cases with hs | hs | hs | hs | hs <;> rw [hs] <;> decide
  refine h.setConn ⟨hst.1, ?_, ?_⟩ fun i => ownedBy_eq rfl hst.2
  · exact fun hu => (h.conns c).unused (hst.2.1 hu)
  · exact fun hu => (h.conns c).used fun hs => hu (hst.2.2 hs)

theorem heciCopyToClientBuf (h : TableInv s) (P : Platform) (c : ConnId) (data : List UInt8)
    (hs : heciCopyToClientBuf P c data s = some s') : TableInv s' := by
  unfold Heci.heciCopyToClientBuf at hs
  dsimp only at hs
  split at hs
  · next p i hp hi =>
      split at hs
      · cases hs
        have hconn : (heciConnectionError P c s).connections = s.connections := by
          simp [heciConnectionError]
        have herr : TableInv (heciConnectionError P c s) := h.busReply P _
        have hend := TableInv.clearProcessing
          (herr.setRx p { (heciConnectionError P c s).rxMsgs p with
          msgLock := false }) c
        rw [HeciDev.setRx_connections, hconn] at hend
        exact hend
      · split at hs
        · cases hs
        · cases hs
          exact h.setRx p _
  · cases hs

theorem heciSendFlowControl (h : TableInv s) (P : Platform) (n : ℕ) :
    TableInv (heciSendFlowControl P n s).2 := by
  unfold Heci.heciSendFlowControl
  split
  · next hn =>
      dsimp only
      split
      · exact h
      · next hopen =>
          have hopen' : (s.connections ⟨n, hn⟩).has connStateOpen = true := by simpa using hopen
          refine TableInv.busReply ?_ P _
          split
          · exact h
          · next p hp =>
              exact TableInv.setConn_open (h.setRx p _) hopen' rfl rfl rfl rfl rfl rfl rfl
  · exact h

theorem heciCompleteDisconnect (h : TableInv s) (P : Platform) (n : ℕ) {r : ℤ × HeciDev}
    (hr : heciCompleteDisconnect P n s = some r) : TableInv r.2 := by
  unfold Heci.heciCompleteDisconnect at hr
  split at hr
  · next hn =>
      dsimp only at hr
      split at hr
      · cases hr; exact h
      · next hdis =>
          have hused : (s.connections ⟨n, hn⟩).state ≠ connStateUnused := by
            have := (h.conns ⟨n, hn⟩).disconnecting_iff.1 (by simpa using hdis)
            rcases this with hs | hs <;> rw [hs] <;> decide
          split at hr
          · cases hr
          · next i hi =>
              cases hr
              have hrel : TableInv (releaseRx ⟨n, hn⟩ s) := h.of_eq (by simp) (by simp) (by simp)
              have hio := ioStep_respondDisconnect P ⟨n, hn⟩ (releaseRx ⟨n, hn⟩ s)
              have hconn : (respondDisconnect P ⟨n, hn⟩ (releaseRx ⟨n, hn⟩ s)).connections =
                  s.connections := by rw [hio.connections, releaseRx_connections]
              have hfreed := (hrel.io hio).freed (c := ⟨n, hn⟩) (i := i)
                (by rw [hconn]; exact hused)
                (by rw [hconn]; exact hi)
              exact hfreed.of_eq rfl rfl rfl
  · cases hr; exact h

end TableInv

/-- **Every operation keeps the tables sound.** -/
theorem keeps_tableInv (P : Platform) : Keeps P TableInv where
  io hio h := h.io hio
  recv _ h := h.log _
  fwst _ h := h.log _
  clientRead _ h := h.log _
  register client h := h.heciRegister P client
  reset h := h.heciReset
  enum msg h := h.heciEnumResp P msg
  addClient msg h := h.heciAddClientResp msg
  connect msg h hs := h.heciConnectHost P msg hs
  disconnect msg h := h.heciDisconnect P msg
  flowControl msg h hs := h.heciFlowControlRecv msg hs
  resetResp msg h := h.heciResetResp P msg
  findActive msg h hr := h.heciFindActiveConn msg hr
  copy c data h hs := h.heciCopyToClientBuf P c data hs
  finish c h := (h.clearProcessing c).notify c _
  sendFlowControl n h := h.heciSendFlowControl P n
  complete n h hr := h.heciCompleteDisconnect P n hr
  waiter {s} c n q h hopen := (h.setConn_open (x := { s.connections c with waitThreadCount := n })
    hopen rfl rfl rfl rfl rfl rfl rfl).setSem q 0
  credit _ h hopen _ := (h.log _).setConn_open hopen rfl rfl rfl rfl rfl rfl rfl

theorem tableInv_initial {s : HeciDev} (h : HeciDev.Initial s) : TableInv s := by
  refine ⟨?_, ?_, ?_, ?_, ?_⟩
  · intro i
    rw [h.clients i]
    exact ⟨fun _ => ⟨rfl, rfl⟩, fun hne => absurd rfl hne, Nat.zero_le _, fun hne => absurd rfl hne⟩
  · intro i
    rw [h.registeredClients, h.clients i]
    exact ⟨fun hlt => absurd hlt (Nat.not_lt_zero _), fun hne => absurd rfl hne⟩
  · intro c
    rw [h.connections c]
    exact ⟨by decide, fun _ => rfl, fun hu => absurd rfl hu⟩
  · intro i
    rw [h.clients i, tally_eq_zero]
    · rfl
    · intro c
      rw [h.connections c]
      exact TableInv.ownedBy_unused rfl
  · intro i
    rw [h.clients i]
    exact Nat.zero_le _

theorem tableInv_of_reachable {P : Platform} {s : HeciDev} (h : Reachable P s) : TableInv s :=
  (keeps_tableInv P).reachable (fun _ => tableInv_initial) h

/-! ### The connection table -/

/-- **The connection table is sound**: every client's count is the number of its connections in use
and within its limit, every connection is in one of five states, a connection in use belongs to a
registered client whose address it carries and knows its own index, and an unused one has no
credit. -/
structure ConnTableOk (s : HeciDev) : Prop where
  count : ∀ i, (s.clients i).nOfConns.toNat =
    (Finset.univ.filter fun c => (s.connections c).state ≠ connStateUnused ∧
      (s.connections c).client = some i).card
  limit : ∀ i, (s.clients i).nOfConns ≤ (s.clients i).properties.maxNOfConnections
  states : ∀ c, (s.connections c).state ∈ validStates
  owner : ∀ c, (s.connections c).state ≠ connStateUnused → ∃ i : ClientId,
    (s.connections c).client = some i ∧ i.val < s.registeredClients ∧
      (s.connections c).fwAddr = (s.clients i).clientAddr ∧ (s.clients i).clientAddr ≠ 0 ∧
      (s.connections c).connectionId = UInt8.ofNat c
  unused : ∀ c, (s.connections c).state = connStateUnused → (s.connections c).hostBuffers = 0

/-- Every state a run reaches has a sound connection table. -/
theorem connTableOk_of_reachable {P : Platform} {s : HeciDev} (h : Reachable P s) :
    ConnTableOk s := by
  have hI := tableInv_of_reachable h
  refine ⟨?_, ?_, fun c => (hI.conns c).state, ?_, fun c => (hI.conns c).unused⟩
  · intro i
    rw [hI.count i]
    exact tally_eq_card fun c => by simp [ownedBy]
  · intro i
    exact UInt8.le_iff_toNat_le.2 (hI.limit i)
  · intro c hc
    obtain ⟨i, hi, hne, hfw, hid, -⟩ := (hI.conns c).used hc
    exact ⟨i, hi, (hI.registered i).2 hne, hfw, hne, hid⟩

/-- The table after a client has connected. -/
theorem connTableOk_connected :
    ∃ s, Reachable Platform.nominal s ∧ (s.connections 0).state = connStateOpen ∧
      ConnTableOk s := by
  obtain ⟨s, hs, hopen⟩ := exists_reachable Platform.nominal
    (connectCalls (plainClient 1 0 4096 1) 7) (fun s => (s.connections 0).state = connStateOpen)
    (by decide +kernel)
  exact ⟨s, hs, hopen, connTableOk_of_reachable hs⟩

end PseFw.Heci
