/-
**The host finds the clients.**

A host that starts asks for the clients: the answer is a bitmap of addresses, and for each address
the host then asks for the properties of the client.  In between anything may happen: other clients
register, connections are opened and reset, messages are sent.

This module reads the answers as the host does, and puts the two requests together over such a run:
the bitmap names the clients that are registered, and whenever the host asks for one of them it
learns what that client registered with.

Main definitions:

* `PseFw.Heci.hostAddresses`, `PseFw.Heci.hostClient` — how the host reads the two answers;
* `PseFw.Heci.told` — what the host is to learn of a client;
* `PseFw.Heci.Listed` — a client the host has found.

Main results:

* `PseFw.Heci.mem_hostAddresses` — the bitmap names the clients that are registered;
* `PseFw.Heci.hostClient_clientPropRespBytes` — the properties are read as they were registered;
* `PseFw.Heci.keeps_listed` — a client that was found stays as it is;
* `PseFw.Heci.enumeration` — **what the host learns is what was registered**, in every run.
-/

import PseFw.Heci.Clients
import PseFw.Lib.Memory

set_option relaxedAutoImplicit false
set_option autoImplicit false

namespace PseFw.Heci

/-! ### What the host reads -/

/-- The addresses in an enumeration response: one bit for each, behind four bytes. -/
def hostAddresses (bytes : List UInt8) : List ℕ :=
  (List.range 256).filter fun a => (bytes.getD (4 + a / 8) 0).toNat.testBit (a % 8)

/-- **What the host learns of a client.** -/
structure HostClient where
  address : UInt8
  protocolId : BitVec 128
  protocolVer : UInt8
  maxNOfConnections : UInt8
  maxMsgSize : ℕ
  dmaHeaderLength : UInt8
  dmaEnabled : Bool
  deriving DecidableEq, Repr

/-- A response to a request for properties, when it reports success. -/
def hostClient (bytes : List UInt8) : Option HostClient :=
  if bytes.getD 0 0 = genResp busMsgHostClientPropReq ∧
      bytes.getD 2 0 = BusMsgStatus.success.code then
    some
      { address := bytes.getD 1 0
        protocolId := BitVec.ofNat 128 (Mem.ofLe ((bytes.drop 4).take 16))
        protocolVer := bytes.getD 20 0
        maxNOfConnections := bytes.getD 21 0
        maxMsgSize := Mem.ofLe ((bytes.drop 24).take 4)
        dmaHeaderLength := bytes.getD 28 0 &&& 0x7F
        dmaEnabled := bytes.getD 28 0 &&& 0x80 != 0 }
  else none

/-- **What the host is to learn** of a client with an address; the header length has seven bits. -/
def told (address : UInt8) (client : HeciClient) : HostClient where
  address := address
  protocolId := client.protocolId
  protocolVer := client.protocolVer
  maxNOfConnections := client.maxNOfConnections
  maxMsgSize := client.maxMsgSize
  dmaHeaderLength := client.dmaHeaderLength &&& 0x7F
  dmaEnabled := client.dmaEnabled

/-- The two fields of the packed byte. -/
theorem dmaByte_bits (client : HeciClient) :
    dmaByte client &&& 0x7F = client.dmaHeaderLength &&& 0x7F ∧
      (dmaByte client &&& 0x80 != 0) = client.dmaEnabled := by
  have h : ∀ n : Fin 256, ∀ b : Bool,
      (UInt8.ofNat n &&& 0x7F ||| if b then 0x80 else 0) &&& 0x7F = UInt8.ofNat n &&& 0x7F ∧
        ((UInt8.ofNat n &&& 0x7F ||| if b then 0x80 else 0) &&& 0x80 != 0) = b := by
    decide +kernel
  have hn := h ⟨client.dmaHeaderLength.toNat, client.dmaHeaderLength.toNat_lt⟩ client.dmaEnabled
  rwa [UInt8.ofNat_toNat] at hn

/-- **The properties are read as they were registered.** -/
theorem hostClient_clientPropRespBytes (address : UInt8) {client : HeciClient}
    (h : client.maxMsgSize ≤ heciMaxMsgSize) :
    hostClient (clientPropRespBytes address client) = some (told address client) := by
  have hid : BitVec.ofNat 128 (Mem.ofLe (guidBytes client.protocolId)) = client.protocolId := by
    have hlt : client.protocolId.toNat < 256 ^ 16 := client.protocolId.isLt
    have hle : guidBytes client.protocolId = Mem.leBytes 16 client.protocolId.toNat := rfl
    rw [hle, Mem.ofLe_leBytes hlt, BitVec.ofNat_toNat, BitVec.setWidth_eq]
  have hsize : Mem.ofLe (le32 client.maxMsgSize) = client.maxMsgSize := by
    have hle : le32 client.maxMsgSize = Mem.leBytes 4 client.maxMsgSize := rfl
    rw [hle, Mem.ofLe_leBytes (lt_of_le_of_lt h (by decide))]
  obtain ⟨hlen, hdma⟩ := dmaByte_bits client
  have hread : hostClient (clientPropRespBytes address client) = some
      { address := address
        protocolId := BitVec.ofNat 128 (Mem.ofLe (guidBytes client.protocolId))
        protocolVer := client.protocolVer
        maxNOfConnections := client.maxNOfConnections
        maxMsgSize := Mem.ofLe (le32 client.maxMsgSize)
        dmaHeaderLength := dmaByte client &&& 0x7F
        dmaEnabled := dmaByte client &&& 0x80 != 0 } := rfl
  rw [hread, hid, hsize, hlen, hdma]
  rfl

/-! ### The bitmap -/

section bitmap

variable {ι : Type} (f : ι → Prop) [DecidablePred f] (g : ι → ℕ)

/-- The bits of a word into which bits are put one after the other. -/
theorem testBit_foldl_bits (hg : ∀ i, g i < 32) (l : List ι) (acc : UInt32) (k : ℕ) :
    (l.foldl (fun acc i => if f i then acc ||| ((1 : UInt32) <<< UInt32.ofNat (g i)) else acc)
      acc).toNat.testBit k = true ↔ acc.toNat.testBit k = true ∨ ∃ i ∈ l, f i ∧ g i = k := by
  induction l generalizing acc with
  | nil => simp
  | cons i l ih =>
      rw [List.foldl_cons, ih]
      have hbit : ((1 : UInt32) <<< UInt32.ofNat (g i)).toNat = 2 ^ g i := by
        have hlt := hg i
        have hpow : 2 ^ g i < 2 ^ 32 := Nat.pow_lt_pow_right (by decide) hlt
        rw [UInt32.toNat_shiftLeft, UInt32.toNat_ofNat', Nat.mod_eq_of_lt (by omega : g i < 2 ^ 32),
          Nat.mod_eq_of_lt hlt]
        change 1 <<< g i % 2 ^ 32 = _
        rw [Nat.one_shiftLeft, Nat.mod_eq_of_lt hpow]
      by_cases hf : f i
      · rw [if_pos hf, UInt32.toNat_or, hbit, Nat.testBit_or, Nat.testBit_two_pow, Bool.or_eq_true,
          decide_eq_true_iff, List.exists_mem_cons_iff, or_assoc]
        simp only [hf, true_and]
      · rw [if_neg hf, List.exists_mem_cons_iff]
        simp only [hf, false_and, false_or]

end bitmap

/-- The bytes of the words. -/
theorem getD_flatMap_le32 (ws : List UInt32) (w : ℕ) {j : ℕ} (hj : j < 4) :
    ((ws.flatMap fun x => le32 x.toNat).getD (4 * w + j) 0).toNat =
      (ws.getD w 0).toNat / 2 ^ (8 * j) % 256 := by
  have hle : ∀ x : ℕ, (le32 x).length = 4 := fun x => by simp [le32]
  induction ws generalizing w with
  | nil => simp
  | cons x ws ih =>
      rw [List.flatMap_cons]
      cases w with
      | zero =>
          rw [List.getD_append _ _ _ _ (by rw [hle]; omega), Nat.mul_zero, Nat.zero_add]
          rw [List.getD_eq_getElem _ _ (by rw [hle]; omega)]
          simp only [le32, List.getElem_map, List.getElem_range, UInt8.toNat_ofNat',
            List.getD_cons_zero, Nat.pow_mul]
      | succ w =>
          rw [List.getD_append_right _ _ _ _ (by rw [hle]; omega), hle, List.getD_cons_succ, ← ih w]
          have hidx : 4 * (w + 1) + j - 4 = 4 * w + j := by omega
          rw [hidx]

/-- The bit of an address in the response. -/
theorem testBit_hostEnumRespBytes (ws : List UInt32) (a : ℕ) :
    ((hostEnumRespBytes ws).getD (4 + a / 8) 0).toNat.testBit (a % 8) =
      (ws.getD (a / 32) 0).toNat.testBit (a % 32) := by
  have hsplit : a / 8 = 4 * (a / 32) + a % 32 / 8 := by omega
  have hbit : a % 8 + 8 * (a % 32 / 8) = a % 32 := by omega
  rw [hostEnumRespBytes, List.getD_append_right _ _ _ _ (by simp), hsplit]
  have hlen : [genResp busMsgHostEnumReq, (0 : UInt8), 0, 0].length = 4 := rfl
  rw [hlen, Nat.add_sub_cancel_left, getD_flatMap_le32 ws _ (by omega)]
  have h256 : (256 : ℕ) = 2 ^ 8 := rfl
  rw [h256, Nat.testBit_mod_two_pow, Nat.testBit_div_two_pow, hbit]
  simp only [Nat.mod_lt a (by decide : 0 < 8), decide_true, Bool.true_and]

/-- **The bitmap names the clients that are registered.** -/
theorem mem_hostAddresses (s : HeciDev) (a : UInt8) :
    a.toNat ∈ hostAddresses (hostEnumRespBytes (validAddresses s)) ↔ Assigned s a := by
  have ha := a.toNat_lt
  have hword : (validAddresses s).getD (a.toNat / 32) 0 =
      (List.finRange heciMaxNumOfClients).foldl
        (fun acc i => if i.val < s.registeredClients ∧
            (s.clients i).clientAddr.toNat / bitsPerDw = a.toNat / 32 then
          acc ||| ((1 : UInt32) <<< UInt32.ofNat ((s.clients i).clientAddr.toNat % bitsPerDw))
        else acc) 0 := by
    unfold validAddresses
    rw [List.getD_eq_getElem _ _ (by simp; omega), List.getElem_map, List.getElem_range]
  rw [hostAddresses, List.mem_filter, testBit_hostEnumRespBytes, hword,
    testBit_foldl_bits _ _ (fun i => Nat.mod_lt _ (by decide)), List.mem_range]
  simp only [UInt32.toNat_zero, Nat.zero_testBit, Bool.false_eq_true, false_or,
    List.mem_finRange, true_and, and_iff_right ha]
  refine exists_congr fun i => ?_
  rw [and_assoc]
  refine and_congr_right fun _ => ?_
  rw [← UInt8.toNat_inj]
  have hdw : bitsPerDw = 32 := rfl
  rw [hdw]
  omega

/-! ### A client that was found -/

/-- **A client the host has found**: it is registered at the index, with the properties, and it
answers connect requests. -/
structure Listed (i : ClientId) (client : HeciClient) (s : HeciDev) : Prop where
  address : (s.clients i).clientAddr = UInt8.ofNat (i + heciFixedClientNum)
  properties : (s.clients i).properties = client
  active : (s.clients i).active = true

section listed

variable {P : Platform} {s s' : HeciDev} {i : ClientId} {client : HeciClient}

theorem Listed.congr (h : Listed i client s)
    (ha : (s'.clients i).clientAddr = (s.clients i).clientAddr)
    (hp : (s'.clients i).properties = (s.clients i).properties)
    (hact : (s.clients i).active = true → (s'.clients i).active = true) : Listed i client s' :=
  ⟨ha.trans h.address, hp.trans h.properties, hact h.active⟩

/-- The client table is the same. -/
theorem Listed.of_clients (h : Listed i client s) (hc : s'.clients = s.clients) :
    Listed i client s' := by
  refine h.congr ?_ ?_ ?_ <;> rw [hc]
  exact id

/-- One entry changes, and only in its connections or towards activity. -/
theorem Listed.setClient (h : Listed i client s) {j : ClientId} {x : HeciClientCtrl}
    (ha : x.clientAddr = (s.clients j).clientAddr) (hp : x.properties = (s.clients j).properties)
    (hact : (s.clients j).active = true → x.active = true) :
    Listed i client (s.setClient j x) := by
  have hself : ∀ {y : HeciClientCtrl}, (s.setClient j x).clients i = y → y = x ∧ i = j ∨
      y = s.clients i := by
    intro y hy
    rw [HeciDev.setClient_clients] at hy
    by_cases hij : i = j
    · subst hij
      rw [Function.update_self] at hy
      exact Or.inl ⟨hy.symm, rfl⟩
    · rw [Function.update_of_ne hij] at hy
      exact Or.inr hy.symm
  rcases hself rfl with ⟨hx, rfl⟩ | hx
  · exact h.congr (by rw [hx, ha]) (by rw [hx, hp]) (by rw [hx]; exact hact)
  · exact h.congr (by rw [hx]) (by rw [hx]) (by rw [hx]; exact id)

theorem clients_heciReset (s : HeciDev) : (heciReset s).clients = s.clients := by
  have hfold : ∀ (l : List ConnId) (s : HeciDev),
      (l.foldl resetConn s).clients = s.clients := by
    intro l
    induction l with
    | nil => exact fun s => rfl
    | cons c l ih =>
        intro s
        rw [List.foldl_cons, ih]
        unfold resetConn heciConnectionReset
        split
        · split <;> rfl
        · split <;> rfl
  exact hfold _ _

/-! The operations that do not touch the client table. -/

theorem clients_heciDisconnect (P : Platform) (msg : HeciBusMsg) (s : HeciDev) :
    (heciDisconnect P msg s).clients = s.clients := by
  unfold heciDisconnect
  split
  · rfl
  · dsimp only
    split
    · split <;> rfl
    · rw [busReply_eq]
      rfl

theorem clients_heciFlowControlRecv {msg : HeciBusMsg}
    (h : heciFlowControlRecv msg s = some s') : s'.clients = s.clients := by
  unfold heciFlowControlRecv heciWakeupSender at h
  split at h
  · cases h
    rfl
  · split at h
    · cases h
      rfl
    · dsimp only at h
      split at h
      · split at h
        · cases h
          rfl
        · cases h
      · cases h
        rfl

theorem clients_heciResetResp (P : Platform) (msg : HeciBusMsg) (s : HeciDev) :
    (heciResetResp P msg s).clients = s.clients := by
  unfold heciResetResp
  split
  · rfl
  · split
    · rfl
    · rw [busReply_eq]
      rfl

theorem clients_heciFindActiveConn {msg : HeciBusMsg} {r : Option ConnId × HeciDev}
    (h : heciFindActiveConn msg s = some r) : r.2.clients = s.clients := by
  unfold heciFindActiveConn at h
  split at h
  · cases h
    rfl
  · dsimp only at h
    split at h
    · cases h
      rfl
    · split at h
      · cases h
      · next hb =>
          cases h
          obtain ⟨rfl, -⟩ := heciGetBufferFromPool_none hb
          rfl
      · next hb =>
          cases h
          obtain ⟨j, -, -, -, rfl⟩ := heciGetBufferFromPool_some hb
          rfl

theorem clients_heciCopyToClientBuf {c : ConnId} {data : List UInt8}
    (h : heciCopyToClientBuf P c data s = some s') : s'.clients = s.clients := by
  unfold heciCopyToClientBuf at h
  dsimp only at h
  split at h
  · split at h
    · cases h
      simp [heciConnectionError]
    · split at h
      · cases h
      · cases h
        rfl
  · cases h

theorem clients_heciSendFlowControl (P : Platform) (n : ℕ) (s : HeciDev) :
    (heciSendFlowControl P n s).2.clients = s.clients := by
  unfold heciSendFlowControl
  split
  · dsimp only
    split
    · rfl
    · rw [heciSendProtoMsg_snd]
      split <;> rfl
  · rfl

/-- **Every operation leaves a client that was found as it is.** -/
theorem keeps_listed (P : Platform) (i : ClientId) (client : HeciClient) :
    Keeps P (Listed i client) where
  io hio h := h.of_clients hio.clients
  recv _ h := h.of_clients rfl
  fwst _ h := h.of_clients rfl
  clientRead _ h := h.of_clients rfl
  register {s} cl h := by
    unfold heciRegister
    split
    · exact h
    next client' _ =>
    split
    · exact h
    · split
      · exact h
      · next j hj =>
          have hij : i ≠ j := by
            rintro rfl
            have hzero := findClient_some hj
            rw [h.address] at hzero
            exact TableInv.clientAddr_register i hzero
          have hset : Listed i client ({ s with
              registeredClients := s.registeredClients + 1 }.setClient j
                (registeredClient j client')) := by
            refine h.congr ?_ ?_ ?_ <;> rw [HeciDev.setClient_clients, Function.update_of_ne hij]
            exact id
          unfold heciSendNewClientMsg
          dsimp only
          split
          · exact hset.of_clients (by rw [busReply_eq]; rfl)
          · exact hset
  reset h := h.of_clients (clients_heciReset _)
  enum msg h := by
    have hact : ∀ {s : HeciDev}, Listed i client s → Listed i client
        { s with clients := fun i =>
            if i.val < s.registeredClients then { s.clients i with active := true }
            else s.clients i } := by
      intro s h
      refine h.congr ?_ ?_ fun hact => ?_ <;> dsimp only <;> split
      · rfl
      · rfl
      · rfl
      · rfl
      · rfl
      · exact hact
    unfold heciEnumResp
    split
    · exact h
    · dsimp only
      split <;> exact (hact h).of_clients (by rw [busReply_eq]; rfl)
  addClient msg h := by
    unfold heciAddClientResp
    split
    · exact h
    · split
      · exact h
      · split
        · exact h
        · exact h.setClient rfl rfl fun _ => rfl
  connect {s s'} msg h hs := by
    cases heciConnectHost_cases hs with
    | ignored => exact h
    | refused st => exact h.of_clients (by rw [busReply_eq]; rfl)
    | noBuffer c => exact h.of_clients (by rw [busReply_eq]; rfl)
    | opened j c p =>
        have hset := h.setClient (j := j) (x := { s.clients j with
          nOfConns := (s.clients j).nOfConns + 1 }) rfl rfl id
        exact hset.of_clients (by rw [busReply_eq]; rfl)
  disconnect msg h := h.of_clients (clients_heciDisconnect P msg _)
  flowControl msg h hs := h.of_clients (clients_heciFlowControlRecv hs)
  resetResp msg h := h.of_clients (clients_heciResetResp P msg _)
  findActive msg h hr := h.of_clients (clients_heciFindActiveConn hr)
  copy c data h hs := h.of_clients (clients_heciCopyToClientBuf hs)
  finish c h := h.of_clients rfl
  sendFlowControl n h := h.of_clients (clients_heciSendFlowControl P n _)
  complete {s r} n h hr := by
    unfold heciCompleteDisconnect at hr
    split at hr
    · next hn =>
      dsimp only at hr
      split at hr
      · cases hr
        exact h
      · split at hr
        · cases hr
        · next j _ =>
            cases hr
            have hio := ioStep_respondDisconnect P ⟨n, hn⟩ (releaseRx ⟨n, hn⟩ s)
            have hresp : Listed i client (respondDisconnect P ⟨n, hn⟩ (releaseRx ⟨n, hn⟩ s)) :=
              h.of_clients (by rw [hio.clients, releaseRx_clients])
            have hfreed := hresp.setClient (j := j)
              (x := { (respondDisconnect P ⟨n, hn⟩ (releaseRx ⟨n, hn⟩ s)).clients j with
                nOfConns := ((respondDisconnect P ⟨n, hn⟩ (releaseRx ⟨n, hn⟩ s)).clients
                  j).nOfConns - 1 }) rfl rfl id
            exact hfreed.of_clients rfl
    · cases hr
      exact h
  waiter c n q h _ := h.of_clients rfl
  credit c h _ _ := h.of_clients rfl

/-- What every step keeps is kept by a run. -/
theorem keeps_run {I : HeciDev → Prop} (hI : Keeps P I) {ls : List Call} (h : I s)
    (hr : Lts.run (step P) s ls = some s') : I s' := by
  induction ls generalizing s with
  | nil =>
      obtain rfl := Option.some.inj hr
      exact h
  | cons l ls ih =>
      rw [Lts.run_cons] at hr
      obtain ⟨s₁, hs₁, hr⟩ := Option.bind_eq_some_iff.1 hr
      exact ih (hI.step h hs₁) hr

end listed

/-! ### The two requests -/

section enumeration

variable {P : Platform} {s s₁ s₂ : HeciDev} {i : ClientId}

/-- An enumeration request goes to its handler. -/
theorem step_hostEnum {msg : HeciBusMsg} (hm : IsBusMsg busMsgHostEnumReq 4 msg) (s : HeciDev) :
    step P (.op (.recv msg)) s = some (heciEnumResp P msg (s.log (.recv msg))) := by
  rw [step_busMsg hm, heciProcessBusMessage]
  simp only [hm.2.2]
  rfl

/-- The request is answered with the bitmap. -/
theorem events_heciEnumResp {msg : HeciBusMsg} (hm : IsBusMsg busMsgHostEnumReq 4 msg)
    (s : HeciDev) : (heciEnumResp P msg (s.log (.recv msg))).events =
      answered P msg (hostEnumRespBytes (validAddresses s)) s := by
  have hlen : ¬ msg.hdr.len ≠ 4 := not_not.2 hm.2.1
  have hev : ∀ s' : HeciDev, s'.events = s.events ++ [.recv msg] →
      (busReply P (hostEnumRespBytes (validAddresses s)) s').events =
        answered P msg (hostEnumRespBytes (validAddresses s)) s := by
    intro s' hs'
    rw [busReply_eq, HeciDev.emit_events, hs', List.length_append, List.append_assoc]
    rfl
  unfold heciEnumResp
  rw [if_neg hlen]
  dsimp only
  split <;> exact hev _ rfl

/-- The clients that are registered are found. -/
theorem listed_heciEnumResp {msg : HeciBusMsg} (hT : TableInv s)
    (hm : IsBusMsg busMsgHostEnumReq 4 msg) (hi : i.val < s.registeredClients) :
    Listed i (s.clients i).properties (heciEnumResp P msg (s.log (.recv msg))) := by
  have hlen : ¬ msg.hdr.len ≠ 4 := not_not.2 hm.2.1
  have hact : Listed i (s.clients i).properties { s.log (.recv msg) with
      clients := fun j =>
        if j.val < s.registeredClients then { s.clients j with active := true }
        else s.clients j } := by
    have haddr := (hT.clients i).addr ((hT.registered i).1 hi)
    refine ⟨?_, ?_, ?_⟩ <;> dsimp only <;> rw [if_pos hi]
    exact haddr
  unfold heciEnumResp
  rw [if_neg hlen]
  dsimp only
  split <;> exact hact.of_clients (by rw [busReply_eq]; rfl)

/-- A client that was found is the one its address names. -/
theorem Listed.findClient {client : HeciClient} (h : Listed i client s) (hT : TableInv s) :
    findClient (s.clients i).clientAddr s = some i := by
  cases hf : Heci.findClient (s.clients i).clientAddr s with
  | none => exact absurd rfl (findClient_none hf i)
  | some j =>
      have hj := findClient_some hf
      have hne : (s.clients i).clientAddr ≠ 0 := by
        rw [h.address]
        exact TableInv.clientAddr_register i
      rw [hT.clientAddr_inj hne hj.symm]

/-- **What the host learns is what was registered**: the bitmap names the clients that are
registered, and at any later time, whatever has happened in between, each of them is active, and a
request for its properties is answered with what it registered with. -/
theorem enumeration {msg : HeciBusMsg} {ls : List Call} (h : Reachable P s)
    (hm : IsBusMsg busMsgHostEnumReq 4 msg) (h₁ : step P (.op (.recv msg)) s = some s₁)
    (h₂ : Lts.run (step P) s₁ ls = some s₂) :
    (∃ data, s₁.events = answered P msg data s ∧
      ∀ a : UInt8, a.toNat ∈ hostAddresses data ↔ Assigned s a) ∧
    ∀ i : ClientId, i.val < s.registeredClients → (s₂.clients i).active = true ∧
      ∀ q, IsBusMsg busMsgHostClientPropReq 4 q → q.byte 1 = (s.clients i).clientAddr →
        ∃ s₃ reply, step P (.op (.recv q)) s₂ = some s₃ ∧
          s₃.events = answered P q reply s₂ ∧
          hostClient reply = some (told (s.clients i).clientAddr (s.clients i).properties) := by
  have hT := tableInv_of_reachable h
  rw [step_hostEnum hm] at h₁
  obtain rfl := Option.some.inj h₁
  have hT₁ : TableInv (heciEnumResp P msg (s.log (.recv msg))) :=
    (hT.log _).heciEnumResp P msg
  have hT₂ : TableInv s₂ := keeps_run (keeps_tableInv P) hT₁ h₂
  refine ⟨⟨_, events_heciEnumResp hm s, mem_hostAddresses s⟩, fun i hi => ?_⟩
  have hl : Listed i (s.clients i).properties s₂ :=
    keeps_run (keeps_listed P i _) (listed_heciEnumResp hT hm hi) h₂
  have haddr : (s.clients i).clientAddr = (s₂.clients i).clientAddr :=
    ((hT.clients i).addr ((hT.registered i).1 hi)).trans hl.address.symm
  refine ⟨hl.active, fun q hq hqi => ?_⟩
  have hfind : findClient (q.byte 1) (s₂.log (.recv q)) = some i := by
    rw [hqi, haddr]
    exact hl.findClient hT₂
  have hreply : heciClientProp P q (s₂.log (.recv q)) =
      busReply P (clientPropRespBytes (q.byte 1) (s₂.clients i).properties)
        (s₂.log (.recv q)) := by
    rw [heciClientProp, if_neg (not_not.2 hq.2.1), hfind]
    rfl
  refine ⟨_, clientPropRespBytes (q.byte 1) (s₂.clients i).properties, step_clientProp hq s₂, ?_,
    ?_⟩
  · rw [hreply, busReply_eq, HeciDev.emit_events, HeciDev.log_events, List.length_append,
      List.append_assoc]
    rfl
  · rw [hqi, hl.properties]
    exact hostClient_clientPropRespBytes _ (hT.clients i).maxMsgSize

/-- A client registers, the host enumerates, the link is reset, and the host asks for the client. -/
theorem enumeration_reset : ∃ s s₁ s₂, Reachable Platform.nominal s ∧ s.registeredClients = 1 ∧
    step Platform.nominal (busCall [busMsgHostEnumReq, 0, 0, 0]) s = some s₁ ∧
    Lts.run (step Platform.nominal) s₁ [.op .reset] = some s₂ ∧
    ∀ i : ClientId, i.val < 1 → ∃ s₃ reply,
      step Platform.nominal (busCall [busMsgHostClientPropReq, (s.clients i).clientAddr, 0, 0]) s₂ =
        some s₃ ∧
      hostClient reply = some (told (s.clients i).clientAddr (s.clients i).properties) := by
  obtain ⟨s, hs, hreg⟩ := exists_reachable Platform.nominal
    [.op (.register (some (plainClient 1 0 4096 1)))] (fun s => s.registeredClients = 1)
    (by decide +kernel)
  have hm : IsBusMsg busMsgHostEnumReq 4 (busFrame [busMsgHostEnumReq, 0, 0, 0]) := ⟨rfl, rfl, rfl⟩
  have h₁ := step_hostEnum (P := Platform.nominal) hm s
  refine ⟨s, _, _, hs, hreg, h₁, rfl, fun i hi => ?_⟩
  obtain ⟨-, hfound⟩ := enumeration hs hm h₁ (rfl : Lts.run _ _ [Call.op .reset] = _)
  obtain ⟨s₃, reply, hs₃, -, hreply⟩ := (hfound i (hreg ▸ hi)).2
    (busFrame [busMsgHostClientPropReq, (s.clients i).clientAddr, 0, 0]) ⟨rfl, rfl, rfl⟩ rfl
  exact ⟨s₃, reply, hs₃, hreply⟩

end enumeration

end PseFw.Heci
