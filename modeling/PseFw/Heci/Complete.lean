/-
**The contract of `heci_complete_disconnect`.**

A client that was told of a disconnection cleans up and calls `heci_complete_disconnect`; the call
frees the connection, and answers the host if it waits for an answer.  Clients go by what it
returns: after a zero they forget the connection.  They may rely on it only if a zero means that the
connection was disconnecting.

The function has a status for the other case, and does not return it: every index of the table is
answered with a zero.

Main definitions:

* `PseFw.Heci.IsDisconnecting` — the index names a connection that is disconnecting;
* `PseFw.Heci.Completed` — what the call leaves of such a connection;
* `PseFw.Heci.CompleteContract` — what a client relies on.

Main results:

* `PseFw.Heci.completed_freeConn` — **a disconnection that is completed leaves nothing behind**;
* `PseFw.Heci.completeContract_iff` — the indices for which the contract is kept;
* `PseFw.Heci.not_completeContract_open` — a connection in use is answered with a zero.
-/

import PseFw.Heci.Disconnect
import PseFw.Heci.RxBuffer

set_option relaxedAutoImplicit false
set_option autoImplicit false

namespace PseFw.Heci

open Table

/-- The index names a connection that is disconnecting. -/
def IsDisconnecting (connId : ℕ) (s : HeciDev) : Prop :=
  ∃ c : ConnId, c.val = connId ∧ (s.connections c).has connStateDisconnecting = true

instance (connId : ℕ) (s : HeciDev) : Decidable (IsDisconnecting connId s) :=
  inferInstanceAs (Decidable (∃ _, _ ∧ _))

/-- The response the host waits for, if it does. -/
def owedResponse (c : ConnId) (s : HeciDev) : List (UInt8 × UInt8) :=
  if (s.connections c).has connStateSendDisconnectResp then
    [((s.connections c).fwAddr, (s.connections c).hostAddr)]
  else []

/-- **What the call leaves of a connection that was disconnecting**: its entry is zero, its client
has one connection less, its receive buffer is unlocked, and nothing was sent but the response the
host waits for.  Where sending succeeds, the host gets it. -/
structure Completed (P : Platform) (c : ConnId) (s s' : HeciDev) : Prop where
  connections : s'.connections = Function.update s.connections c HeciConn.zero
  client : ∃ i, (s.connections c).client = some i ∧
    (s'.clients i).nOfConns.toNat + 1 = (s.clients i).nOfConns.toNat ∧
    s'.clients =
      Function.update s.clients i { s.clients i with nOfConns := (s'.clients i).nOfConns }
  unlocked : ∀ p, (s.connections c).rxBuffer = some p → (s'.rxMsgs p).msgLock = false
  buffers : ∀ q, (s.connections c).rxBuffer ≠ some q → s'.rxMsgs q = s.rxMsgs q
  trace : s'.events = s.events ++ ((owedResponse c s).flatMap fun a =>
    protoEvents P (busFrame (disconnRespBytes a.1 a.2 .success)) s.events.length) ++
      [.freed c, .creditReset c]
  answered : P.Succeeds → responses s' = responses s ++ owedResponse c s

/-- **What a client relies on**: the call returns, a zero says that the connection was disconnecting
and is now freed, and otherwise nothing has happened and the status is negative. -/
structure CompleteContract (P : Platform) (connId : ℕ) (s : HeciDev) : Prop where
  returns : ∃ r, heciCompleteDisconnect P connId s = some r
  zero_iff : ∀ r, heciCompleteDisconnect P connId s = some r →
    (r.1 = 0 ↔ IsDisconnecting connId s)
  completed : ∀ r, heciCompleteDisconnect P connId s = some r →
    ∀ c : ConnId, c.val = connId → (s.connections c).has connStateDisconnecting = true →
      Completed P c s r.2
  refused : ∀ r, heciCompleteDisconnect P connId s = some r → ¬ IsDisconnecting connId s →
    r.1 < 0 ∧ r.2 = s

theorem einval_neg : einval < 0 := by decide

section completion

variable {P : Platform} {s : HeciDev} {c : ConnId}

theorem releaseRx_events (c : ConnId) (s : HeciDev) : (releaseRx c s).events = s.events := by
  unfold releaseRx
  split <;> rfl

/-- The response is the only thing that is sent. -/
theorem respondDisconnect_events (P : Platform) (c : ConnId) (s : HeciDev) :
    (respondDisconnect P c s).events = s.events ++ (owedResponse c s).flatMap fun a =>
      protoEvents P (busFrame (disconnRespBytes a.1 a.2 .success)) s.events.length := by
  unfold respondDisconnect owedResponse
  split
  · rw [busReply_eq, HeciDev.emit_events, List.flatMap_singleton]
  · rw [List.flatMap_nil, List.append_nil]

/-- Where sending succeeds, the host gets the response. -/
theorem responses_respondDisconnect (hP : P.Succeeds) (c : ConnId) (s : HeciDev) :
    responses (respondDisconnect P c s) = responses s ++ owedResponse c s := by
  unfold respondDisconnect owedResponse
  split
  · rw [responses_busReply hP]
  · rw [List.append_nil]

/-- A connection in use is counted by its client. -/
theorem nOfConns_pos (hT : TableInv s) {i : ClientId} (hi : (s.connections c).client = some i)
    (hc : (s.connections c).state ≠ connStateUnused) : 0 < (s.clients i).nOfConns.toNat := by
  rw [hT.count i]
  refine tally_pos (i := c) ?_
  simp [ownedBy, hi, hc]

/-- **A disconnection that is completed leaves nothing behind.** -/
theorem completed_freeConn (hT : TableInv s) {i : ClientId}
    (hi : (s.connections c).client = some i) (hc : (s.connections c).state ≠ connStateUnused) :
    Completed P c s (freeConn c i (respondDisconnect P c (releaseRx c s))) := by
  have hrx := completed_rxMsgs P c i s
  have howed : owedResponse c (releaseRx c s) = owedResponse c s := by
    rw [owedResponse, releaseRx_connections]
    rfl
  have hcl : (freeConn c i (respondDisconnect P c (releaseRx c s))).clients =
      Function.update s.clients i { s.clients i with nOfConns := (s.clients i).nOfConns - 1 } := by
    rw [freeConn, HeciDev.emit_clients, HeciDev.setConn_clients, HeciDev.setClient_clients,
      (ioStep_respondDisconnect P c _).clients, releaseRx_clients]
  refine ⟨completed_connections P c i s, ⟨i, hi, ?_, ?_⟩, fun p hp => ?_, fun q hq => ?_, ?_,
    fun hP => ?_⟩
  · have hle : (1 : UInt8) ≤ (s.clients i).nOfConns :=
      UInt8.le_iff_toNat_le.2 (nOfConns_pos hT hi hc)
    rw [hcl, Function.update_self]
    show ((s.clients i).nOfConns - 1).toNat + 1 = _
    rw [UInt8.toNat_sub_of_le _ _ hle]
    exact Nat.sub_add_cancel (UInt8.le_iff_toNat_le.1 hle)
  · rw [hcl, Function.update_self]
  · rw [hrx, releaseRx_of_some hp, Function.update_self]
  · rw [hrx, releaseRx]
    cases hp : (s.connections c).rxBuffer with
    | none => rfl
    | some p =>
        have hne : q ≠ p := by
          rintro rfl
          exact hq hp
        exact Function.update_of_ne hne ..
  · rw [freeConn, HeciDev.emit_events, HeciDev.setConn_events, HeciDev.setClient_events,
      respondDisconnect_events, releaseRx_events, howed]
  · have hresp : responses (freeConn c i (respondDisconnect P c (releaseRx c s))) =
        responses (respondDisconnect P c (releaseRx c s)) := by
      unfold responses
      rw [freeConn, HeciDev.emit_events, List.filterMap_append]
      exact List.append_nil _
    have hrel : responses (releaseRx c s) = responses s := by
      unfold responses
      rw [releaseRx_events]
    rw [hresp, responses_respondDisconnect hP, hrel, howed]

/-- Which branch the call takes. -/
theorem heciCompleteDisconnect_cases (hT : TableInv s) (P : Platform) (connId : ℕ) :
    (heciMaxNumOfConnections ≤ connId ∧ heciCompleteDisconnect P connId s = some (einval, s)) ∨
    (∃ c : ConnId, c.val = connId ∧ (s.connections c).has connStateDisconnecting = false ∧
      heciCompleteDisconnect P connId s = some (0, s)) ∨
    ∃ (c : ConnId) (s' : HeciDev), c.val = connId ∧
      (s.connections c).has connStateDisconnecting = true ∧
      heciCompleteDisconnect P connId s = some (0, s') ∧ Completed P c s s' := by
  unfold heciCompleteDisconnect
  -- the index is checked first, then the state
  by_cases hn : connId < heciMaxNumOfConnections
  · rw [dif_pos hn]
    dsimp only
    cases hd : (s.connections ⟨connId, hn⟩).has connStateDisconnecting with
    | false =>
        rw [if_pos rfl]
        exact Or.inr (Or.inl ⟨⟨connId, hn⟩, rfl, hd, rfl⟩)
    | true =>
        rw [if_neg (Bool.noConfusion ·)]
        have hused : (s.connections ⟨connId, hn⟩).state ≠ connStateUnused := by
          intro hst
          rw [HeciConn.has, hst] at hd
          exact absurd hd (by decide)
        obtain ⟨i, hi, -⟩ := (hT.conns ⟨connId, hn⟩).used hused
        rw [hi]
        exact Or.inr (Or.inr ⟨⟨connId, hn⟩, _, rfl, hd, rfl, completed_freeConn hT hi hused⟩)
  · rw [dif_neg hn]
    exact Or.inl ⟨not_lt.1 hn, rfl⟩

end completion

/-- **The contract is kept exactly for the indices behind the table and for the connections that are
disconnecting.** -/
theorem completeContract_iff {P : Platform} {s : HeciDev} (h : Reachable P s) (connId : ℕ) :
    CompleteContract P connId s ↔
      heciMaxNumOfConnections ≤ connId ∨ IsDisconnecting connId s := by
  rcases heciCompleteDisconnect_cases (tableInv_of_reachable h) P connId with
    ⟨hn, hr⟩ | ⟨c, hc, hd, hr⟩ | ⟨c, s', hc, hd, hr, hdone⟩
  · have hno : ¬ IsDisconnecting connId s := by
      rintro ⟨c, hc, -⟩
      exact absurd c.isLt (by omega)
    refine iff_of_true ⟨⟨_, hr⟩, fun r hr' => ?_, fun r _ c hc => ?_, fun r hr' _ => ?_⟩
      (Or.inl hn)
    · rw [hr] at hr'
      cases hr'
      exact iff_of_false einval_neg.ne hno
    · exact absurd c.isLt (by omega)
    · rw [hr] at hr'
      cases hr'
      exact ⟨einval_neg, rfl⟩
  · have hno : ¬ IsDisconnecting connId s := by
      rintro ⟨d, hd', hdis⟩
      rw [Fin.ext (hd'.trans hc.symm), hd] at hdis
      cases hdis
    -- the error is logged, and the result stays zero
    refine iff_of_false (fun hcon => hno ((hcon.zero_iff _ hr).1 rfl)) (not_or.2 ⟨?_, hno⟩)
    have hlt := c.isLt
    omega
  · have hyes : IsDisconnecting connId s := ⟨c, hc, hd⟩
    refine iff_of_true ⟨⟨_, hr⟩, fun r hr' => ?_, fun r hr' d hd' _ => ?_,
      fun r _ hno => absurd hyes hno⟩ (Or.inr hyes)
    · rw [hr] at hr'
      cases hr'
      exact iff_of_true rfl hyes
    · rw [hr] at hr'
      cases hr'
      rw [Fin.ext (hd'.trans hc.symm)]
      exact hdone

/-- The host closes the connection of a client, and the client completes it. -/
theorem completeContract_disconnecting :
    ∃ s, Reachable Platform.nominal s ∧ IsDisconnecting 0 s ∧
      CompleteContract Platform.nominal 0 s := by
  obtain ⟨s, hs, hd⟩ := exists_reachable Platform.nominal
    (connectCalls (plainClient 1 0 4096 1) 7 ++ [busCall [busMsgClientDisconnectReq, 32, 7, 0]])
    (IsDisconnecting 0) (by decide +kernel)
  exact ⟨s, hs, hd, (completeContract_iff hs 0).2 (Or.inr hd)⟩

/-- A connection that is open, and one that is not in use, are answered with a zero. -/
theorem not_completeContract_open :
    ∃ s, Reachable Platform.nominal s ∧ (s.connections 0).state = connStateOpen ∧
      (heciCompleteDisconnect Platform.nominal 0 s).map Prod.fst = some 0 ∧
      (heciCompleteDisconnect Platform.nominal 1 s).map Prod.fst = some 0 ∧
      ¬ CompleteContract Platform.nominal 0 s ∧ ¬ CompleteContract Platform.nominal 1 s := by
  obtain ⟨s, hs, hopen, h₀, h₁, hd₀, hd₁⟩ := exists_reachable Platform.nominal
    (connectCalls (plainClient 1 0 4096 1) 7)
    (fun s => (s.connections 0).state = connStateOpen ∧
      (heciCompleteDisconnect Platform.nominal 0 s).map Prod.fst = some 0 ∧
      (heciCompleteDisconnect Platform.nominal 1 s).map Prod.fst = some 0 ∧
      ¬ IsDisconnecting 0 s ∧ ¬ IsDisconnecting 1 s) (by decide +kernel)
  have hbad : ∀ n, (heciCompleteDisconnect Platform.nominal n s).map Prod.fst = some 0 →
      ¬ IsDisconnecting n s → ¬ CompleteContract Platform.nominal n s := by
    intro n hzero hno hcon
    obtain ⟨r, hr, hr₀⟩ := Option.map_eq_some_iff.1 hzero
    exact hno ((hcon.zero_iff r hr).1 hr₀)
  exact ⟨s, hs, hopen, h₀, h₁, hbad 0 h₀ hd₀, hbad 1 h₁ hd₁⟩

end PseFw.Heci
