/-
**The addresses of the clients.**

Three bus messages name a client by its address: the request for its properties, the response that
activates it, and the connect request.  Their handlers search the whole client table, and an entry
that nobody registered has the address zero.  So the address zero finds a client as long as there is
a free entry, and no other address does so unless it was assigned.

Main definitions:

* `PseFw.Heci.Assigned` — the addresses that registrations have assigned;
* `PseFw.Heci.AnsweredNotFound` — what the three handlers do with an address that belongs to nobody;
* `PseFw.Heci.OnlyRegistered` — they do so for every address that was not assigned.

Main results:

* `PseFw.Heci.answeredNotFound_of_none` — the handlers answer an address the search does not find;
* `PseFw.Heci.onlyRegistered_iff` — **the handlers respect the registrations for every address but
  zero, and for zero exactly when the table is full**.
-/

import PseFw.Heci.Cases

set_option relaxedAutoImplicit false
set_option autoImplicit false

namespace PseFw.Heci

/-! ### Assigned addresses -/

/-- The address was assigned to a client by a registration. -/
def Assigned (s : HeciDev) (a : UInt8) : Prop :=
  ∃ i : ClientId, i.val < s.registeredClients ∧ (s.clients i).clientAddr = a

instance (s : HeciDev) (a : UInt8) : Decidable (Assigned s a) := Nat.decidableExistsFin _

theorem TableInv.not_assigned_zero {s : HeciDev} (hT : TableInv s) : ¬ Assigned s 0 := by
  rintro ⟨i, hi, ha⟩
  exact (hT.registered i).1 hi ha

/-- An address that is not zero and was not assigned is not found. -/
theorem TableInv.findClient_eq_none {s : HeciDev} (hT : TableInv s) {a : UInt8} (ha : a ≠ 0)
    (hna : ¬ Assigned s a) : findClient a s = none := by
  cases hf : findClient a s with
  | none => rfl
  | some i =>
      have hi := findClient_some hf
      exact absurd ⟨i, (hT.registered i).2 (hi ▸ ha), hi⟩ hna

/-- Zero is found exactly as long as the table is not full. -/
theorem TableInv.findClient_zero {s : HeciDev} (hT : TableInv s) :
    findClient 0 s = none ↔ ∀ i : ClientId, i.val < s.registeredClients := by
  constructor
  · intro hf i
    exact (hT.registered i).2 (findClient_none hf i)
  · intro hall
    cases hf : findClient 0 s with
    | none => rfl
    | some i => exact absurd (findClient_some hf) ((hT.registered i).1 (hall i))

/-! ### The three handlers -/

/-- The events of a frame that is answered with a bus message. -/
def answered (P : Platform) (msg : HeciBusMsg) (data : List UInt8) (s : HeciDev) : List Event :=
  s.events ++ .recv msg :: protoEvents P (busFrame data) (s.events.length + 1)

/-- **The address belongs to nobody**: a request for its properties and a connect request are
answered so, nothing becomes active, and neither table changes. -/
structure AnsweredNotFound (P : Platform) (s : HeciDev) (a : UInt8) : Prop where
  prop : ∀ msg, IsBusMsg busMsgHostClientPropReq 4 msg → msg.byte 1 = a →
    ∃ s', step P (.op (.recv msg)) s = some s' ∧ s'.clients = s.clients ∧
      s'.connections = s.connections ∧ s'.events = answered P msg (clientPropMissingBytes a) s
  addClient : ∀ msg, IsBusMsg (genResp busMsgAddClientReq) 3 msg → msg.byte 1 = a →
    ∃ s', step P (.op (.recv msg)) s = some s' ∧ s'.clients = s.clients ∧
      s'.connections = s.connections
  connect : ∀ msg, IsBusMsg busMsgClientConnectReq 4 msg → msg.byte 1 = a →
    ∃ s', step P (.op (.recv msg)) s = some s' ∧ s'.clients = s.clients ∧
      s'.connections = s.connections ∧
      s'.events = answered P msg (connRespBytes a (msg.byte 2) .clientNotFound) s

/-- A property request goes to its handler. -/
theorem step_clientProp {P : Platform} {msg : HeciBusMsg}
    (hm : IsBusMsg busMsgHostClientPropReq 4 msg) (s : HeciDev) :
    step P (.op (.recv msg)) s = some (heciClientProp P msg (s.log (.recv msg))) := by
  rw [step_busMsg hm, heciProcessBusMessage]
  simp only [hm.2.2]
  rfl

/-- The response of the host to a new client goes to its handler. -/
theorem step_addClient {P : Platform} {msg : HeciBusMsg}
    (hm : IsBusMsg (genResp busMsgAddClientReq) 3 msg) (s : HeciDev) :
    step P (.op (.recv msg)) s = some (heciAddClientResp msg (s.log (.recv msg))) := by
  rw [step_busMsg hm, heciProcessBusMessage]
  simp only [hm.2.2]
  rfl

/-- **The handlers answer an address the search does not find.** -/
theorem answeredNotFound_of_none {s : HeciDev} {a : UInt8} (h : findClient a s = none)
    (P : Platform) : AnsweredNotFound P s a := by
  have hfind : ∀ msg : HeciBusMsg, msg.byte 1 = a →
      findClient (msg.byte 1) (s.log (.recv msg)) = none := by
    intro msg ha
    rw [ha]
    exact h
  constructor
  · intro msg hm ha
    have hp : heciClientProp P msg (s.log (.recv msg)) =
        busReply P (clientPropMissingBytes a) (s.log (.recv msg)) := by
      rw [heciClientProp, if_neg (not_not.2 hm.2.1), hfind msg ha, ha]
    refine ⟨_, step_clientProp hm s, ?_, ?_, ?_⟩ <;> rw [hp] <;> simp [answered]
  · intro msg hm ha
    refine ⟨s.log (.recv msg), ?_, rfl, rfl⟩
    rw [step_addClient hm, heciAddClientResp, if_neg (not_not.2 hm.2.1), hfind msg ha]
    split <;> rfl
  · intro msg hm ha
    have hc : heciConnectHost P msg (s.log (.recv msg)) =
        some (busReply P (connRespBytes a (msg.byte 2) .clientNotFound) (s.log (.recv msg))) := by
      rw [heciConnectHost, if_neg (not_not.2 hm.2.1)]
      dsimp only
      rw [hfind msg ha, ha]
    refine ⟨_, (step_connect hm s).trans hc, ?_, ?_, ?_⟩ <;> simp [answered]

/-- A property request for an address the search finds is answered with success. -/
theorem not_answeredNotFound_of_some {s : HeciDev} {a : UInt8} {i : ClientId}
    (h : findClient a s = some i) : ¬ AnsweredNotFound Platform.nominal s a := by
  intro hno
  have hm : IsBusMsg busMsgHostClientPropReq 4 (busFrame [busMsgHostClientPropReq, a, 0, 0]) :=
    ⟨rfl, rfl, rfl⟩
  obtain ⟨s', hs', -, -, hev⟩ := hno.prop _ hm rfl
  have hp : heciClientProp Platform.nominal (busFrame [busMsgHostClientPropReq, a, 0, 0])
      (s.log (.recv (busFrame [busMsgHostClientPropReq, a, 0, 0]))) =
      busReply Platform.nominal (clientPropRespBytes a (s.clients i).properties)
        (s.log (.recv (busFrame [busMsgHostClientPropReq, a, 0, 0]))) := by
    have hb : (busFrame [busMsgHostClientPropReq, a, 0, 0]).byte 1 = a := rfl
    have hf : findClient a (s.log (.recv (busFrame [busMsgHostClientPropReq, a, 0, 0]))) =
        some i := h
    rw [heciClientProp, if_neg (not_not.2 hm.2.1), hb, hf]
    rfl
  rw [step_clientProp hm, hp] at hs'
  cases hs'
  rw [busReply_eq, HeciDev.emit_events, HeciDev.log_events, answered, List.append_assoc,
    List.singleton_append, List.append_cancel_left_eq, List.cons.injEq] at hev
  have hwrite : writeEvent (busFrame (clientPropRespBytes a (s.clients i).properties)) 0 =
      writeEvent (busFrame (clientPropMissingBytes a)) 0 := List.head_eq_of_cons_eq hev.2
  -- the two answers differ in the status byte
  simp only [writeEvent, Event.ipcWrite.injEq] at hwrite
  exact absurd (congrArg (fun f => HeciBusMsg.byte f 2) hwrite.2.1) (by
    show BusMsgStatus.success.code ≠ BusMsgStatus.clientNotFound.code
    decide)

/-! ### The registrations are respected -/

/-- **Every address that was not assigned is answered so**, whatever the services below do. -/
def OnlyRegistered (s : HeciDev) (a : UInt8) : Prop :=
  ¬ Assigned s a → ∀ P, AnsweredNotFound P s a

/-- **The handlers respect the registrations** for every address but zero, and for zero exactly when
the table is full. -/
theorem onlyRegistered_iff {P : Platform} {s : HeciDev} (h : Reachable P s) (a : UInt8) :
    OnlyRegistered s a ↔ a ≠ 0 ∨ ∀ i : ClientId, i.val < s.registeredClients := by
  have hT := tableInv_of_reachable h
  constructor
  · intro ho
    by_contra hno
    push Not at hno
    obtain ⟨rfl, i, hi⟩ := hno
    cases hf : findClient 0 s with
    | none => exact absurd (hT.findClient_zero.1 hf i) (not_lt.2 hi)
    | some j => exact not_answeredNotFound_of_some hf (ho hT.not_assigned_zero _)
  · intro hc hna P
    refine answeredNotFound_of_none ?_ P
    by_cases ha : a = 0
    · subst ha
      exact hT.findClient_zero.2 (hc.resolve_left fun hne => hne rfl)
    · exact hT.findClient_eq_none ha hna

/-- An address that no client has, while one client is registered. -/
theorem onlyRegistered_unassigned :
    ∃ s, Reachable Platform.nominal s ∧ ¬ Assigned s 33 ∧ ∀ P, AnsweredNotFound P s 33 := by
  obtain ⟨s, hs, hna⟩ := exists_reachable Platform.nominal
    (connectCalls (plainClient 1 0 4096 1) 7) (fun s => ¬ Assigned s 33) (by decide +kernel)
  exact ⟨s, hs, hna, (onlyRegistered_iff hs 33).2 (Or.inl (by decide)) hna⟩

/-- Before any client registers, the properties of the client at address zero are reported with
success, and it can be activated. -/
theorem zero_found_coldStart :
    ∃ s, Reachable Platform.nominal s ∧ ¬ Assigned s 0 ∧
      writeEvent (busFrame (clientPropRespBytes 0 HeciClient.zero)) 0 ∈ s.events ∧
      (s.clients 0).clientAddr = 0 ∧ (s.clients 0).active = true := by
  obtain ⟨s, hs, h⟩ := exists_reachable Platform.nominal
    [busCall [busMsgHostClientPropReq, 0, 0, 0], busCall [genResp busMsgAddClientReq, 0, 0]]
    (fun s => ¬ Assigned s 0 ∧
      writeEvent (busFrame (clientPropRespBytes 0 HeciClient.zero)) 0 ∈ s.events ∧
      (s.clients 0).clientAddr = 0 ∧ (s.clients 0).active = true) (by decide +kernel)
  exact ⟨s, hs, h⟩

end PseFw.Heci
