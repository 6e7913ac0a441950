/-
**Disconnect requests and their responses.**

The host waits for a response to every disconnect request.  The response to a request for a
connection that exists is only sent when the client completes the disconnection; until then the
connection carries the flag that a response is owed.  A request for any other connection is answered
at once.  A reset forgets what is owed.

The accounts are kept for an arbitrary test `q` on the pair of addresses: with the test that is
always true they count all requests, and with the test for one pair they say that every response
goes to the addresses of a request.

Main definitions:

* `PseFw.Heci.requests`, `PseFw.Heci.responses` — the addresses of the requests received and of the
  responses sent, in the order of the trace;
* `PseFw.Heci.owed` — the number of connections that owe a response;
* `PseFw.Heci.DisconnAccount` — the accounts.

Main results:

* `PseFw.Heci.account_effect` — what each effect of a call does to the accounts;
* `PseFw.Heci.disconnAccount_of_reachable` — **responses sent and owed never exceed the requests,
  and equal them until a reset**.  -/

import PseFw.Heci.Effect

set_option relaxedAutoImplicit false
set_option autoImplicit false

namespace PseFw.Heci

open Table

/-! ### Requests, responses, and what is owed -/

instance (f : HeciBusMsg) : Decidable (IsDisconnResp f) :=
  inferInstanceAs (Decidable (_ ∧ _ ∧ _))

/-- The addresses of a well-formed disconnect request. -/
def requestEvent : Event → Option (UInt8 × UInt8)
  | .recv msg => if IsDisconnReq msg then some (msg.byte 1, msg.byte 2) else none
  | _ => none

/-- The addresses of a disconnect response that was written. -/
def responseEvent : Event → Option (UInt8 × UInt8)
  | .ipcWrite _ msg _ ret =>
      if IsDisconnResp msg ∧ ret = 0 then some (msg.byte 1, msg.byte 2) else none
  | _ => none

/-- The disconnect requests that were received. -/
def requests (s : HeciDev) : List (UInt8 × UInt8) := s.events.filterMap requestEvent

/-- The disconnect responses that were sent. -/
def responses (s : HeciDev) : List (UInt8 × UInt8) := s.events.filterMap responseEvent

/-- The connection owes a response to a pair of addresses that passes the test. -/
def owes (q : UInt8 × UInt8 → Bool) (x : HeciConn) : Bool :=
  x.has connStateSendDisconnectResp && q (x.fwAddr, x.hostAddr)

/-- The number of connections that owe a response. -/
def owed (q : UInt8 × UInt8 → Bool) (s : HeciDev) : ℕ := tally (owes q) s.connections

/-- What a call adds to the requests. -/
def requestOf : Call → List (UInt8 × UInt8)
  | .op (.recv msg) => (requestEvent (.recv msg)).toList
  | _ => []

theorem requestOf_of_not {l : Call} (h : ¬ IsRequest l) : requestOf l = [] := by
  unfold requestOf
  split
  · next msg =>
      have hm : ¬ IsDisconnReq msg := fun hm => h ⟨msg, rfl, hm⟩
      rw [requestEvent, if_neg hm]
      rfl
  · rfl

theorem requestOf_recv {msg : HeciBusMsg} (h : IsDisconnReq msg) :
    requestOf (.op (.recv msg)) = [(msg.byte 1, msg.byte 2)] := by
  rw [requestOf, requestEvent, if_pos h]
  rfl

/-! ### The lists of the trace -/

theorem requests_enter (l : Call) (s : HeciDev) :
    requests (enter l s) = requests s ++ requestOf l := by
  have hother : requests s = requests s ++ [] := (List.append_nil _).symm
  cases l with
  | send c msg => exact hother
  | op o =>
      cases o with
      | recv msg =>
          unfold enter requestOf requests
          rw [HeciDev.log_events, List.filterMap_append]
          cases h : requestEvent (.recv msg) <;> simp [h]
      | register client => exact hother
      | sendFlowControl n => exact hother
      | completeDisconnect n => exact hother
      | reset => exact hother

theorem responses_enter (l : Call) (s : HeciDev) : responses (enter l s) = responses s := by
  unfold enter
  split
  · unfold responses
    rw [HeciDev.log_events, List.filterMap_append]
    exact List.append_nil _
  · rfl

theorem Event.Quiet.lists {e : Event} (he : e.Quiet) :
    requestEvent e = none ∧ responseEvent e = none ∧ e ≠ .reset := by
  cases e with
  | recv msg => exact absurd he id
  | reset => exact absurd he id
  | ipcWrite d msg len ret =>
      refine ⟨rfl, ?_, nofun⟩
      have hno : ¬ (IsDisconnResp msg ∧ ret = 0) := fun h => he h.1
      rw [responseEvent, if_neg hno]
  | _ => exact ⟨rfl, rfl, nofun⟩

/-- A tame step changes neither list, and is no reset. -/
theorem lists_tame {s s' : HeciDev} (h : Tame s s') :
    requests s' = requests s ∧ responses s' = responses s ∧
      (.reset ∈ s'.events ↔ .reset ∈ s.events) := by
  obtain ⟨evs, he, hev⟩ := h.events
  have hreq : evs.filterMap requestEvent = [] :=
    List.filterMap_eq_nil_iff.2 fun e hmem => (hev e hmem).lists.1
  have hresp : evs.filterMap responseEvent = [] :=
    List.filterMap_eq_nil_iff.2 fun e hmem => (hev e hmem).lists.2.1
  have hreset : Event.reset ∉ evs := fun hmem => (hev _ hmem).lists.2.2 rfl
  unfold requests responses
  rw [he, List.filterMap_append, List.filterMap_append, hreq, hresp]
  simp [hreset]

/-- On a platform where sending succeeds, a disconnect response is one entry of the list. -/
theorem responses_busReply {P : Platform} (hP : P.Succeeds) (f h : UInt8) (st : BusMsgStatus)
    (s : HeciDev) : responses (busReply P (disconnRespBytes f h st) s) =
      responses s ++ [(f, h)] := by
  have hlist := filterMap_protoEvents_of_succeeds (f := responseEvent) (fun _ => rfl) (fun _ => rfl)
    hP (busFrame (disconnRespBytes f h st)) s.events.length
  have hframe : IsDisconnResp (busFrame (disconnRespBytes f h st)) := ⟨rfl, rfl, rfl⟩
  unfold responses
  rw [busReply_eq, HeciDev.emit_events, List.filterMap_append, hlist, writeEvent, responseEvent,
    if_pos ⟨hframe, rfl⟩]
  rfl

theorem requests_io {W : HeciBusMsg → Prop} {s s' : HeciDev} (h : IoStep W s s') :
    requests s' = requests s :=
  h.filterMap_events fun e he => by cases he <;> rfl

theorem reset_mem_io {W : HeciBusMsg → Prop} {s s' : HeciDev} (h : IoStep W s s') :
    .reset ∈ s'.events ↔ .reset ∈ s.events := by
  obtain ⟨evs, he, hev⟩ := h.events
  have hno : Event.reset ∉ evs := fun hmem => nomatch hev _ hmem
  simp [he, hno]

/-! ### What is owed -/

theorem owes_eq_false {x : HeciConn} (hx : x.has connStateSendDisconnectResp = false)
    (q : UInt8 × UInt8 → Bool) : owes q x = false := by
  rw [owes, hx, Bool.false_and]

theorem not_send_of_open {x : HeciConn} (h : IsOpen x) :
    x.has connStateSendDisconnectResp = false := by
  unfold HeciConn.has
  rcases h with hs | hs <;> rw [hs] <;> decide

theorem owes_sameLife {x y : HeciConn} (h : SameLife x y) (q : UInt8 × UInt8 → Bool) :
    owes q y = owes q x := by
  rcases h.state with hs | ⟨hx, hy⟩
  · unfold owes HeciConn.has
    rw [hs, h.fwAddr, h.hostAddr]
  · rw [owes_eq_false (not_send_of_open hx), owes_eq_false (not_send_of_open hy)]

theorem owed_tame {s s' : HeciDev} (h : Tame s s') (q : UInt8 × UInt8 → Bool) :
    owed q s' = owed q s :=
  tally_congr fun c => owes_sameLife (h.connections c) q

theorem not_send_resetEntry {x : HeciConn}
    (h : x.has connStateSendDisconnectResp = true → x.has connStateDisconnecting = true) :
    (resetEntry x).has connStateSendDisconnectResp = false := by
  unfold resetEntry
  split
  · show (connStateDisconnecting &&& connStateSendDisconnectResp != 0) = false
    decide
  · next hno =>
      rw [Bool.or_eq_true, not_or] at hno
      by_contra hs
      exact hno.2 (h (by simpa using hs))

/-- A reset forgets every response that is owed. -/
theorem owed_reset {s : HeciDev} (hT : TableInv s) (q : UInt8 × UInt8 → Bool) :
    owed q (heciReset s) = 0 := by
  unfold owed
  rw [heciReset_eq hT]
  refine tally_eq_zero fun c => owes_eq_false (not_send_resetEntry fun hs => ?_) q
  exact (hT.conns c).disconnecting_iff.2 (Or.inr ((hT.conns c).sendResp_iff.1 hs))

/-! ### The accounts -/

/-- What was sent and what is owed, together. -/
def account (q : UInt8 × UInt8 → Bool) (s : HeciDev) : ℤ := (responses s).countP q + owed q s

/-- The step moves the account by `n`; only a reset may lower it beyond that. -/
structure Books (q : UInt8 × UInt8 → Bool) (n : ℤ) (s s' : HeciDev) : Prop where
  requests : requests s' = requests s
  le : account q s' ≤ account q s + n
  eq : .reset ∉ s'.events → account q s' = account q s + n
  reset : .reset ∈ s.events → .reset ∈ s'.events

namespace Books

variable {q : UInt8 × UInt8 → Bool} {n m : ℤ} {s s' s'' : HeciDev}

theorem trans (h : Books q n s s') (h' : Books q m s' s'') : Books q (n + m) s s'' := by
  refine ⟨h'.requests.trans h.requests, ?_, ?_, fun hr => h'.reset (h.reset hr)⟩
  · have := h.le
    have := h'.le
    omega
  · intro hr
    have := h.eq fun hr' => hr (h'.reset hr')
    have := h'.eq hr
    omega

theorem tame (h : Tame s s') : Books q 0 s s' := by
  obtain ⟨hreq, hresp, hreset⟩ := lists_tame h
  have hacc : account q s' = account q s := by rw [account, account, hresp, owed_tame h q]
  exact ⟨hreq, by omega, fun _ => by omega, hreset.2⟩

/-- A connection changes, without a word to the host. -/
theorem setConn {c : ConnId} {x : HeciConn} {e : Event} (hreq : requestEvent e = none)
    (hresp : responseEvent e = none)
    (hx : ((owes q x).toNat : ℤ) = (owes q (s.connections c)).toNat + n) :
    Books q n s ((s.setConn c x).log e) := by
  have hlists : Heci.requests ((s.setConn c x).log e) = Heci.requests s ∧
      responses ((s.setConn c x).log e) = responses s := by
    unfold Heci.requests responses
    simp [hreq, hresp]
  have hacc : account q ((s.setConn c x).log e) = account q s + n := by
    have how := tally_update (owes q) s.connections c x
    unfold account owed
    rw [hlists.2, HeciDev.log_connections, HeciDev.setConn_connections]
    omega
  exact ⟨hlists.1, by omega, fun _ => by omega, fun hr => by simp [hr]⟩

/-- A reset. -/
theorem heciReset (hT : TableInv s) : Books q 0 s (heciReset s) := by
  have hmem : Event.reset ∈ (Heci.heciReset s).events := by rw [heciReset_eq hT]; simp
  have hlists : ∀ {β : Type} (f : Event → Option β), f .reset = none →
      (∀ c cb p, f (.notify c cb p .disconn) = none) →
      (Heci.heciReset s).events.filterMap f = s.events.filterMap f := by
    intro β f hf hn
    have hevs : (resetEvents s.connections (List.finRange heciMaxNumOfConnections)).filterMap f =
        [] := by
      rw [List.filterMap_eq_nil_iff]
      intro e he
      obtain ⟨c, -, rfl⟩ := List.mem_map.1 he
      exact hn c _ _
    rw [heciReset_eq hT]
    simp only [List.filterMap_append, List.filterMap_cons, hf, hevs, List.append_nil]
  refine ⟨hlists _ rfl fun _ _ _ => rfl, ?_, fun hr => absurd hmem hr, fun _ => hmem⟩
  have hresp : responses (Heci.heciReset s) = responses s := hlists _ rfl fun _ _ _ => rfl
  rw [account, account, hresp, owed_reset hT]
  omega

/-- A response is sent. -/
theorem respond {P : Platform} (hP : P.Succeeds) (f h : UInt8) (st : BusMsgStatus) (s : HeciDev) :
    Books q (q (f, h)).toNat s (busReply P (disconnRespBytes f h st) s) := by
  have hio : IoStep (fun _ => True) s (busReply P (disconnRespBytes f h st) s) :=
    IoStep.sendProtoMsg P trivial s
  have hacc : account q (busReply P (disconnRespBytes f h st) s) =
      account q s + (q (f, h)).toNat := by
    unfold account owed
    rw [hio.connections, responses_busReply hP, List.countP_append, List.countP_singleton]
    cases q (f, h)
    · simp
    · simp
      omega
  exact ⟨requests_io hio, by omega, fun _ => by omega, (reset_mem_io hio).2⟩

/-- **A disconnection is completed**: a response that was owed is sent, and no longer owed. -/
theorem complete {P : Platform} (hP : P.Succeeds) (c : ConnId) (s : HeciDev) :
    Books q 0 s (((respondDisconnect P c s).setConn c HeciConn.zero).log (.freed c)) := by
  have hzero : owes q HeciConn.zero = false := owes_eq_false (by decide) q
  have hco := (ioStep_respondDisconnect P c s).connections
  have hfree : Books q (-(owes q (s.connections c)).toNat) (respondDisconnect P c s)
      (((respondDisconnect P c s).setConn c HeciConn.zero).log (.freed c)) := by
    refine Books.setConn rfl rfl ?_
    rw [hzero, hco]
    simp
  have hresp : Books q (owes q (s.connections c)).toNat s (respondDisconnect P c s) := by
    unfold respondDisconnect owes
    by_cases hs : (s.connections c).has connStateSendDisconnectResp = true
    · rw [if_pos hs, hs, Bool.true_and]
      exact Books.respond hP _ _ _ s
    · have hs' : (s.connections c).has connStateSendDisconnectResp = false := by simpa using hs
      rw [if_neg hs, hs', Bool.false_and]
      exact Books.tame (Tame.refl s)
  simpa using hresp.trans hfree

end Books

/-! ### Runs -/

/-- **What each effect of a call does to the accounts.** -/
theorem account_effect {P : Platform} (hP : P.Succeeds) {l : Call} {s s' : HeciDev}
    (q : UInt8 × UInt8 → Bool) (he : Effect P l s s') :
    Books q ((requestOf l).countP q) s s' := by
  cases he with
  | tame hl ht =>
      rw [requestOf_of_not hl]
      exact Books.tame ht
  | reset hl ht hT ht' =>
      rw [requestOf_of_not hl]
      simpa using ((Books.tame ht).trans (Books.heciReset hT)).trans (Books.tame ht')
  | opened msg i c p hl hm _ _ _ _ hc _ _ ht =>
      have hno : requestOf l = [] := by
        refine requestOf_of_not ?_
        rintro ⟨msg', he, hm'⟩
        rw [hl] at he
        cases he
        exact not_isDisconnReq hm.2.2 (by decide) hm'
      have hidle : (s.connections c).has connStateSendDisconnectResp = false := by
        rw [HeciConn.has, findIdleConn_some hc]
        decide
      have hopened : (connectedConn (s.connections c) c i (s.clients i).properties (msg.byte 1)
          (msg.byte 2) p).has connStateSendDisconnectResp = false := not_send_of_open (Or.inl rfl)
      have hbook : Books q 0 s ((s.setConn c (connectedConn (s.connections c) c i
          (s.clients i).properties (msg.byte 1) (msg.byte 2) p)).log (.opened c i)) := by
        refine Books.setConn rfl rfl ?_
        rw [owes_eq_false hidle, owes_eq_false hopened]
        rfl
      rw [hno]
      simpa using hbook.trans (Books.tame ht)
  | closed msg c hl hm hopen hb =>
      rw [hl, requestOf_recv hm, List.countP_singleton]
      refine Books.setConn rfl rfl ?_
      rw [owes_eq_false (not_send_of_open hopen), owes, ← hb.1, ← hb.2]
      have hsend : ({ s.connections c with
          state := connStateDisconnecting ||| connStateSendDisconnectResp } : HeciConn).has
            connStateSendDisconnectResp = true := by
        show (connStateDisconnecting ||| connStateSendDisconnectResp) &&&
          connStateSendDisconnectResp != 0
        decide
      rw [hsend, Bool.true_and]
      dsimp only
      cases q ((s.connections c).fwAddr, (s.connections c).hostAddr) <;> rfl
  | unknown msg hl hm =>
      rw [hl, requestOf_recv hm, List.countP_singleton]
      have hbook := Books.respond (q := q) hP (msg.byte 1) (msg.byte 2) .clientNotFound s
      cases hq : q (msg.byte 1, msg.byte 2) <;> simpa [hq] using hbook
  | freed c i hl _ _ ht _ ht' =>
      have hno : requestOf l = [] := by rw [hl]; rfl
      rw [hno]
      simpa using ((Books.tame ht).trans (Books.complete hP c _)).trans (Books.tame ht')

/-- The accounts of a run so far, for every test on the addresses. -/
def AccountInv (s : HeciDev) : Prop :=
  ∀ q, account q s ≤ (requests s).countP q ∧
    (.reset ∉ s.events → account q s = (requests s).countP q)

theorem accountInv_step {P : Platform} (hP : P.Succeeds) {l : Call} {s s' : HeciDev}
    (hT : TableInv s) (h : AccountInv s) (hst : step P l s = some s') : AccountInv s' := by
  intro q
  have hbook := account_effect hP q (step_effect hT hst)
  have hreq : (requests s').countP q = (requests s).countP q + (requestOf l).countP q := by
    rw [hbook.requests, requests_enter, List.countP_append]
  have hacc : account q (enter l s) = account q s := by
    unfold account owed
    rw [responses_enter]
    cases l with
    | send _ _ => rfl
    | op o => cases o <;> rfl
  have hreset : Event.reset ∈ s.events → Event.reset ∈ (enter l s).events := by
    intro hr
    cases l with
    | send _ _ => exact hr
    | op o =>
        cases o with
        | recv msg => exact List.mem_append_left _ hr
        | _ => exact hr
  obtain ⟨hle, heq⟩ := h q
  constructor
  · have := hbook.le
    omega
  · intro hr
    have := hbook.eq hr
    have := heq fun hr' => hr (hbook.reset (hreset hr'))
    omega

theorem accountInv_initial {s : HeciDev} (h : HeciDev.Initial s) : AccountInv s := by
  have hnone : ∀ q, owed q s = 0 := by
    intro q
    refine tally_eq_zero fun c => owes_eq_false ?_ q
    rw [h.connections c]
    decide
  intro q
  have hacc : account q s = 0 := by
    rw [account, hnone, responses, h.events]
    rfl
  rw [hacc, requests, h.events]
  exact ⟨le_refl 0, fun _ => rfl⟩

/-- **The accounts of the disconnect requests.**  Responses sent and connections that still owe one
are together at most the requests received; and this holds for every pair of addresses by itself, so
that every response goes to the addresses of a request it answers. -/
structure DisconnAccount (s : HeciDev) : Prop where
  total : (responses s).length + (Finset.univ.filter fun c =>
    (s.connections c).has connStateSendDisconnectResp = true).card ≤ (requests s).length
  pair : ∀ f h, (responses s).count (f, h) + (Finset.univ.filter fun c =>
    (s.connections c).has connStateSendDisconnectResp = true ∧ Between (s.connections c) f h).card ≤
      (requests s).count (f, h)
  total_eq : .reset ∉ s.events → (responses s).length + (Finset.univ.filter fun c =>
    (s.connections c).has connStateSendDisconnectResp = true).card = (requests s).length
  pair_eq : .reset ∉ s.events → ∀ f h, (responses s).count (f, h) + (Finset.univ.filter fun c =>
    (s.connections c).has connStateSendDisconnectResp = true ∧ Between (s.connections c) f h).card =
      (requests s).count (f, h)

theorem owed_eq_card (q : UInt8 × UInt8 → Bool) (s : HeciDev) {r : ConnId → Prop} [DecidablePred r]
    (h : ∀ c, ((s.connections c).has connStateSendDisconnectResp = true ∧
      q ((s.connections c).fwAddr, (s.connections c).hostAddr) = true) ↔ r c) :
    owed q s = (Finset.univ.filter r).card :=
  tally_eq_card fun c => by rw [owes, Bool.and_eq_true]; exact h c

/-- **Disconnect requests and responses are accounted for.** -/
theorem disconnAccount_of_reachable {P : Platform} (hP : P.Succeeds) {s : HeciDev}
    (h : Reachable P s) : DisconnAccount s := by
  have hI : TableInv s ∧ AccountInv s := by
    refine h.invariant (I := fun s => TableInv s ∧ AccountInv s) ?_ ?_
    · exact fun s hs => ⟨tableInv_initial hs, accountInv_initial hs⟩
    · intro s l s' hs _ hst
      exact ⟨(keeps_tableInv P).step hs.1 hst, accountInv_step hP hs.1 hs.2 hst⟩
  have htotal : owed (fun _ => true) s = (Finset.univ.filter fun c =>
      (s.connections c).has connStateSendDisconnectResp = true).card :=
    owed_eq_card _ s fun c => by simp
  have hpair : ∀ f h, owed (fun x => x == (f, h)) s = (Finset.univ.filter fun c =>
      (s.connections c).has connStateSendDisconnectResp = true ∧
        Between (s.connections c) f h).card :=
    fun f h => owed_eq_card _ s fun c => by simp [Between]
  obtain ⟨ht, ht'⟩ := hI.2 fun _ => true
  refine ⟨?_, fun f h => ?_, fun hr => ?_, fun hr f h => ?_⟩
  · rw [account, htotal, List.countP_true] at ht
    omega
  · have hq := (hI.2 fun x => x == (f, h)).1
    rw [account, hpair f h] at hq
    unfold List.count
    omega
  · have hq := ht' hr
    rw [account, htotal, List.countP_true] at hq
    omega
  · have hq := (hI.2 fun x => x == (f, h)).2 hr
    rw [account, hpair f h] at hq
    unfold List.count
    omega

/-- Two requests: one for a connection, which is still owed its response, and one for none. -/
theorem disconnAccount_two_requests :
    ∃ s, Reachable Platform.nominal s ∧ requests s = [(32, 7), (32, 9)] ∧
      responses s = [(32, 9)] ∧ DisconnAccount s := by
  obtain ⟨s, hs, hreq, hresp⟩ := exists_reachable Platform.nominal
    (connectCalls (plainClient 1 0 4096 1) 7 ++ [busCall [busMsgClientDisconnectReq, 32, 7, 0],
      busCall [busMsgClientDisconnectReq, 32, 9, 0]])
    (fun s => requests s = [(32, 7), (32, 9)] ∧ responses s = [(32, 9)]) (by decide +kernel)
  exact ⟨s, hs, hreq, hresp, disconnAccount_of_reachable Platform.nominal_succeeds hs⟩

end PseFw.Heci
