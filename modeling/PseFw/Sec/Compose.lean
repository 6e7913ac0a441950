/-
**Composing a response.**

A response is composed TLV by TLV in the transmit buffer.  The length that is counted starts at the
four bytes of the command header.  When the response is sent, it goes to the field `length` of
that header, and the message is given the four bytes of the header once more.

What the BIOS takes out of a response by the rule of `sec_hc_process_cmd_data` is what was put in,
as long as the length fits into the twelve bits it has.  But the message is always four bytes
longer than its header says; and the check for room compares an unsigned number with zero, so that
a response that is too long is written beyond the end of the buffer.

Main definitions:

* `secHcMaxRxSize`, `composedLen` — the room in the buffer, and what is needed;
* `secHcResponseDataAll` — the TLVs of a list, one after the other;
* `ComposesRight` — what composing a response promises.

Main results:

* `responseDataAll_success` — composing never fails;
* `responseDataAll_composed` — the buffer holds what was composed;
* `responseTlvs_respond` — **what was composed is what is taken out**;
* `length_respond` — the message is longer than its header says;
* `composesRight_never` — **the promise is never kept**.
-/

import PseFw.Sec.Sealing

set_option relaxedAutoImplicit false
set_option autoImplicit false

namespace PseFw.Sec

open Mem

/-- `SEC_HC_MAX_RX_SIZE`: the size of `sec_hc_tx_buffer`, too. -/
def secHcMaxRxSize : ℕ := 4096

/-- The length of a response with these TLVs, its command header included. -/
def composedLen (l : List (DataType × List UInt8)) : ℕ :=
  hdrSize + (l.map fun q => hdrSize + q.2.length).sum

variable (env : Env)

/-- The calls of `sec_hc_response_data_once` for a list of TLVs, until one fails. -/
def secHcResponseDataAll : List (DataType × List UInt8) → SecState → Status × SecState
  | [], s => (.success, s)
  | (t, data) :: l, s =>
      andThen (secHcResponseDataOnce env t s.composeNext data s) (secHcResponseDataAll l)

/-- The client when it begins to compose. -/
def SecState.compose (s : SecState) : SecState :=
  { secHcRespDataInt s with composeNext := bufCompose }

/-- The message that is sent when a list has been composed. -/
def respond (l : List (DataType × List UInt8)) (s : SecState) : List UInt8 :=
  let s := (secHcResponseDataAll env l s.compose).2
  let s := s.setTxhdr fun h => { h with length := s.accumComposeLen }
  read s.tx 0 (hdrSize + s.accumComposeLen)

/-- **What composing a response promises.**  A list that needs more than the buffer has is
refused, and nothing behind the buffer is written; any other one is taken out of the message
again, and the message is as long as its header says. -/
structure ComposesRight (s : SecState) (l : List (DataType × List UInt8)) : Prop where
  refuses : secHcMaxRxSize < composedLen l →
    (secHcResponseDataAll env l s.compose).1 ≠ .success ∧
      ∀ i, secHcMaxRxSize ≤ i → (secHcResponseDataAll env l s.compose).2.tx i = s.tx i
  composes : composedLen l ≤ secHcMaxRxSize →
    (secHcResponseDataAll env l s.compose).1 = .success ∧
      (responseTlvs (respond env l s)).map (List.map Tlv.content) = some l ∧
      (respond env l s).length = (cmdHdr (message (respond env l s))).length

variable {env}

/-! ### What is composed -/

/-- **Composing never fails**: an unsigned number is not less than zero. -/
theorem responseDataAll_success (l : List (DataType × List UInt8)) (s : SecState) :
    (secHcResponseDataAll env l s).1 = .success := by
  induction l generalizing s with
  | nil => rfl
  | cons q l ih =>
      unfold secHcResponseDataAll andThen
      rw [if_pos (responseDataOnce_success _ _ _ _)]
      exact ih _

theorem composedLen_cons (q : DataType × List UInt8) (l : List (DataType × List UInt8)) :
    composedLen (q :: l) = hdrSize + q.2.length + composedLen l := by
  simp only [composedLen, List.map_cons, List.sum_cons]
  omega

/-- The buffer holds what was composed. -/
theorem responseDataAll_composed (env : Env) {l : List (DataType × List UInt8)} {s : SecState}
    {ts : List Tlv} (h : Composing s ts) (hlen : (payload ts).length + composedLen l < 2 ^ 12) :
    ∃ new, new.map Tlv.content = l ∧
      Composing (secHcResponseDataAll env l s).2 (ts ++ new) := by
  induction l generalizing s ts with
  | nil => exact ⟨[], rfl, by rwa [List.append_nil]⟩
  | cons q l ih =>
      rw [composedLen_cons] at hlen
      have hd : hdrSize + q.2.length < 2 ^ 12 := by omega
      obtain ⟨hs, hc, hn, -⟩ := responseDataOnce_composed env h.toComposed h.next q.1 hd
      obtain ⟨new, hnew, hend⟩ := ih ⟨hc, hn⟩ (by
        rw [payload_append, List.length_append, length_payload_cons]
        simp only [Tlv.size, payload_nil, List.length_nil]
        omega)
      refine ⟨⟨q.1, env.rsvd s.composeNext, q.2⟩ :: new, by rw [List.map_cons, hnew]; rfl, ?_⟩
      unfold secHcResponseDataAll andThen
      rw [if_pos hs]
      rwa [List.append_assoc] at hend

theorem composing_compose (s : SecState) : Composing s.compose [] := ⟨⟨rfl, rfl⟩, rfl⟩

/-! ### The message -/

theorem respond_eq (l : List (DataType × List UInt8)) (s : SecState) :
    (sendResponse (secHcResponseDataAll env l s.compose).2).sent =
      (secHcResponseDataAll env l s.compose).2.sent ++ [respond env l s] := rfl

/-- **What was composed is what is taken out**, as long as its length has twelve bits. -/
theorem responseTlvs_respond {l : List (DataType × List UInt8)} (s : SecState)
    (hlen : composedLen l < 2 ^ 12) :
    (responseTlvs (respond env l s)).map (List.map Tlv.content) = some l := by
  obtain ⟨new, hnew, hc⟩ := responseDataAll_composed env (composing_compose s)
    (by rwa [payload_nil, List.length_nil, Nat.zero_add])
  rw [List.nil_append] at hc
  have hsz : hdrSize + (payload new).length = composedLen l := by
    rw [← hnew]
    clear hc hnew hlen
    induction new with
    | nil => rfl
    | cons t new ih =>
        rw [length_payload_cons, List.map_cons, composedLen_cons, ← ih]
        exact Nat.add_left_comm _ _ _
  obtain ⟨resp, hsent, htlvs⟩ := sendResponse_spec hc.toComposed (by rw [hsz]; exact hlen)
  rw [respond_eq] at hsent
  obtain rfl : respond env l s = resp := List.singleton_inj.1 (List.append_cancel_left hsent)
  rw [htlvs, Option.map_some, List.map_map, ← hnew]
  rfl

/-- **The message is longer than its header says.** -/
theorem length_respond (l : List (DataType × List UInt8)) (s : SecState) :
    (cmdHdr (message (respond env l s))).length < (respond env l s).length := by
  obtain ⟨w, hw, hlen, hsent⟩ :=
    sendResponse_sent (secHcResponseDataAll env l s.compose).2
  rw [respond_eq] at hsent
  rw [List.singleton_inj.1 (List.append_cancel_left hsent), cmdHdr_message hw, hlen,
    List.length_append, length_leBytes, length_read]
  have := Nat.mod_le (secHcResponseDataAll env l s.compose).2.accumComposeLen (2 ^ 12)
  omega

/-- **The promise is never kept.** -/
theorem composesRight_never (env : Env) (s : SecState) (l : List (DataType × List UInt8)) :
    ¬ ComposesRight env s l := by
  intro h
  rcases Nat.lt_or_ge secHcMaxRxSize (composedLen l) with hlt | hge
  · exact (h.refuses hlt).1 (responseDataAll_success l s.compose)
  · exact absurd (h.composes hge).2.2 (Nat.ne_of_gt (length_respond l s))

/-- The status of the service is sent. -/
theorem not_composesRight_status :
    ¬ ComposesRight plainEnv (freshState plainCrypto) [(.oobStatus, [3, 0, 0, 0])] := by
  intro h
  exact absurd (h.composes (by decide)).2.2 (Nat.ne_of_gt (length_respond _ _))

end PseFw.Sec
