/-
**What Azure IoT and ThingsBoard look at.**

Whether a message is a command should depend on the message.  The adapters search the topic and the
payload as strings, and a string goes on until there is a zero: when the data have none, what
happens to stand behind them is searched too, and can make a command of a message, or hide one.
This module says exactly for which messages the bytes behind them do not matter.

The topic of the acknowledgement is made from a copy of the topic in a buffer of 64 bytes, by
searching for a key, and has to fit into a buffer of that size itself.

Main definitions:

* `RpcAdapter.Decided` — the messages that decide everything themselves;
* `RpcAdapter.Fits` — the request ids that arrive in the topic of the acknowledgement.

Main results:

* `rpc_sameOutcome_iff` — **when the decision depends on the message only**;
* `rpc_reply_iff` — **when the request id arrives**.
-/

import PseFw.Oob.Adapter

set_option relaxedAutoImplicit false
set_option autoImplicit false

namespace PseFw.Oob

open CStr

variable {a : RpcAdapter} {topic payload : List UInt8}

/-! ### The decision -/

/-- What is used of the constants of an adapter. -/
structure RpcAdapter.Literals (a : RpcAdapter) : Prop where
  reboot : 0 ∉ a.reboot
  template : 0 ∉ a.replyTemplate
  /-- The last byte of the template does not occur in the command. -/
  last : ∃ front b, a.replyTemplate = front ++ [b] ∧ b ∉ a.reboot

theorem azureIot_literals : azureIot.Literals :=
  ⟨by decide +kernel, by decide +kernel, bytes "$iothub/methods/res/201/?$%", 115,
    by decide +kernel,
    by decide +kernel⟩

theorem thingsboard_literals : thingsboard.Literals :=
  ⟨by decide +kernel, by decide +kernel, bytes "v1/devices/me/rpc/response/%", 115,
    by decide +kernel,
    by decide +kernel⟩

/-- The kind of message, as far as it is searched for. -/
def RpcAdapter.kind (a : RpcAdapter) (m : Incoming) : OobMessage :=
  if (strstr m.topicMem a.replyTemplate).isSome then .ignore
  else a.command (if a.commandInTopic then m.topicMem else m.payloadMem)

/-- The decision and the text of `rpcProcessMessage`. -/
def rpcOutcome (a : RpcAdapter) (m : Incoming) : OobMessage × Option (List UInt8) :=
  ((rpcProcessMessage a m).msg, (rpcProcessMessage a m).nextMsg)

theorem rpcOutcome_long {m : Incoming} (h : maxMsgBufLen < m.topic.length) :
    rpcOutcome a m = (.ignore, none) := by
  unfold rpcOutcome rpcProcessMessage
  rw [if_pos h]

theorem rpcOutcome_short {m : Incoming} (h : ¬ maxMsgBufLen < m.topic.length) :
    rpcOutcome a m = (a.kind m, some (if a.kind m = .ignore then [] else statusText)) := by
  unfold rpcOutcome rpcProcessMessage
  rw [if_neg h]
  rfl

theorem strstr_isSome_congr {m m' : List UInt8} (h : str m = str m') (needle : List UInt8) :
    (strstr m needle).isSome = (strstr m' needle).isSome := by
  unfold strstr
  rw [Option.isSome_map, Option.isSome_map, h]

/-- There is a command in a string. -/
def RpcAdapter.HasCommand (a : RpcAdapter) (m : List UInt8) : Prop :=
  ∃ c ∈ [a.reboot, a.powerup, a.powerdown, a.decommission], c <:+: str m

theorem command_eq_ignore_iff {m : List UInt8} : a.command m = .ignore ↔ ¬ a.HasCommand m := by
  unfold RpcAdapter.command RpcAdapter.HasCommand
  simp only [strstr_isSome_iff, List.mem_cons, List.not_mem_nil, or_false, exists_eq_or_imp,
    exists_eq_left]
  split
  · next h => simp only [h, true_or, not_true, reduceCtorEq]
  · next h =>
      simp only [h, false_or]
      split
      · next h => simp only [h, true_or, not_true, reduceCtorEq]
      · next h =>
          simp only [h, false_or]
          split
          · next h => simp only [h, true_or, not_true, reduceCtorEq]
          · next h =>
              simp only [h, false_or]
              split
              · next h => simp only [h, not_true, reduceCtorEq]
              · next h => simp only [h, not_false_eq_true]

theorem command_congr {m m' : List UInt8} (h : str m = str m') : a.command m = a.command m' := by
  unfold RpcAdapter.command
  rw [strstr_isSome_congr h, strstr_isSome_congr h, strstr_isSome_congr h, strstr_isSome_congr h]

theorem command_reboot {m : List UInt8} (h : a.reboot <:+: str m) : a.command m = .reboot := by
  unfold RpcAdapter.command
  rw [if_pos (strstr_isSome_iff.2 h)]

theorem command_ne_reboot {m : List UInt8} (h : ¬ a.reboot <:+: str m) : a.command m ≠ .reboot := by
  unfold RpcAdapter.command
  rw [if_neg (mt strstr_isSome_iff.1 h)]
  split
  · decide
  · split
    · decide
    · split <;> decide

/-- A literal behind data without a zero is found. -/
theorem infix_str_append {m needle : List UInt8} (hm : 0 ∉ m) (hn : 0 ∉ needle) :
    needle <:+: str (m ++ needle) := by
  rw [str_append_of_not_mem hm, str_of_not_mem hn]
  exact List.infix_append_right

theorem kind_of_template {m : Incoming} (h : a.replyTemplate <:+: str m.topicMem) :
    a.kind m = .ignore := by
  unfold RpcAdapter.kind
  rw [if_pos (strstr_isSome_iff.2 h)]

theorem kind_of_not_template {m : Incoming} (h : ¬ a.replyTemplate <:+: str m.topicMem) :
    a.kind m = a.command (if a.commandInTopic then m.topicMem else m.payloadMem) := by
  unfold RpcAdapter.kind
  rw [if_neg (mt strstr_isSome_iff.1 h)]

/-- **The messages that decide themselves.**  The topic is too long, or it holds the template of the
reply, or it holds a zero; where the command stands in the payload, the payload holds a zero too, or
the first of the commands that are searched for.  If the topic has no zero, what is behind it can
still hold the template, so there must be no command. -/
def RpcAdapter.Decided (a : RpcAdapter) (topic payload : List UInt8) : Prop :=
  maxMsgBufLen < topic.length ∨ a.replyTemplate <:+: str topic ∨
    if a.commandInTopic = true then 0 ∈ topic
    else 0 ∈ topic ∧ (0 ∈ payload ∨ a.reboot <:+: payload) ∨
      0 ∉ topic ∧ 0 ∈ payload ∧ ¬ a.HasCommand payload

/-- The template is found in the topic and stays there. -/
theorem template_append (h : a.replyTemplate <:+: str topic) (ta : List UInt8) :
    a.replyTemplate <:+: str (topic ++ ta) := by
  by_cases h0 : 0 ∈ topic
  · rw [str_append_of_mem h0]
    exact h
  · rw [str_append_of_not_mem h0]
    rw [str_of_not_mem h0] at h
    exact List.infix_append_of_infix_left h

/-- The commands in a payload that decides itself. -/
theorem command_payload_append (h : 0 ∈ payload ∨ a.reboot <:+: payload) (pa : List UInt8) :
    a.command (payload ++ pa) = a.command payload := by
  by_cases h0 : 0 ∈ payload
  · exact command_congr (str_append_of_mem h0 pa)
  · have hr := h.resolve_left h0
    rw [command_reboot, command_reboot]
    · rw [str_of_not_mem h0]
      exact hr
    · rw [str_append_of_not_mem h0]
      exact List.infix_append_of_infix_left hr

/-- A message that decides itself has one kind. -/
theorem kind_of_decided (h : a.Decided topic payload) (hlen : ¬ maxMsgBufLen < topic.length)
    (ta pa : List UInt8) :
    a.kind ⟨topic, ta, payload, pa⟩ = a.kind ⟨topic, [], payload, []⟩ := by
  rcases h with h | h | h
  · exact absurd h hlen
  · rw [kind_of_template (template_append h ta), kind_of_template (template_append h [])]
  · unfold RpcAdapter.kind Incoming.topicMem Incoming.payloadMem
    simp only [List.append_nil]
    split at h
    · next hin =>
        rw [strstr_isSome_congr (str_append_of_mem h ta), if_pos hin, if_pos hin,
          command_congr (str_append_of_mem h ta)]
    · next hin =>
        simp only [if_neg hin]
        rcases h with ⟨h0, hp⟩ | ⟨-, hp, hi⟩
        · rw [strstr_isSome_congr (str_append_of_mem h0 ta), command_payload_append hp pa]
        · rw [command_payload_append (.inl hp) pa, command_eq_ignore_iff.2 hi, ite_self, ite_self]

/-- The bytes behind an undecided message can hide a command or make one. -/
theorem kind_of_undecided (hl : a.Literals) (h : ¬ a.Decided topic payload) :
    ∃ ta pa ta' pa', a.kind ⟨topic, ta, payload, pa⟩ ≠ a.kind ⟨topic, ta', payload, pa'⟩ := by
  obtain ⟨-, h⟩ := not_or.1 h
  obtain ⟨htemp, h⟩ := not_or.1 h
  obtain ⟨front, b, heq, hb⟩ := hl.last
  by_cases h0 : 0 ∈ topic
  · -- the topic is closed: the command is searched for in an open payload
    split at h
    · exact absurd h0 h
    · next hin =>
        have hp := (not_and.1 (not_or.1 h).1) h0
        obtain ⟨hp0, hpr⟩ := not_or.1 hp
        have hno : ∀ pa,
            ¬ a.replyTemplate <:+: str (Incoming.topicMem ⟨topic, [], payload, pa⟩) := by
          intro pa
          unfold Incoming.topicMem
          rw [List.append_nil]
          exact htemp
        refine ⟨[], [], [], a.reboot, ?_⟩
        rw [kind_of_not_template (hno _), kind_of_not_template (hno _), if_neg hin, if_neg hin]
        unfold Incoming.payloadMem
        rw [command_reboot (infix_str_append hp0 hl.reboot)]
        refine command_ne_reboot ?_
        rw [List.append_nil, str_of_not_mem hp0]
        exact hpr
  · -- the topic is open: the template may follow, or not
    have htop : ∀ payload pa, a.kind ⟨topic, a.replyTemplate, payload, pa⟩ = .ignore := fun _ _ =>
      kind_of_template (infix_str_append h0 hl.template)
    rw [str_of_not_mem h0] at htemp
    split at h
    · next hin =>
        refine ⟨a.reboot, [], a.replyTemplate, [], ?_⟩
        rw [htop, kind_of_not_template, if_pos hin]
        · rw [Incoming.topicMem, command_reboot (infix_str_append h0 hl.reboot)]
          decide
        · rw [Incoming.topicMem, str_append_of_not_mem h0, str_of_not_mem hl.reboot, heq]
          rw [heq] at htemp
          exact fun hi => htemp (infix_of_infix_append hb hi)
    · next hin =>
        have hno : ∀ pa,
            ¬ a.replyTemplate <:+: str (Incoming.topicMem ⟨topic, [], payload, pa⟩) := by
          intro pa
          unfold Incoming.topicMem
          rw [List.append_nil, str_of_not_mem h0]
          exact htemp
        have hp : ∃ pa, a.command (payload ++ pa) ≠ .ignore := by
          by_cases hp0 : 0 ∈ payload
          · refine ⟨[], fun hi => (not_or.1 h).2 ⟨h0, hp0, ?_⟩⟩
            rw [List.append_nil] at hi
            exact command_eq_ignore_iff.1 hi
          · refine ⟨a.reboot, ?_⟩
            rw [command_reboot (infix_str_append hp0 hl.reboot)]
            decide
        obtain ⟨pa, hpa⟩ := hp
        refine ⟨[], pa, a.replyTemplate, pa, ?_⟩
        rw [htop, kind_of_not_template (hno pa), if_neg hin]
        exact hpa

/-- **When the decision of Azure IoT and ThingsBoard depends on the message only.** -/
theorem rpc_sameOutcome_iff (hl : a.Literals) :
    (∀ ta ta' pa pa', rpcOutcome a ⟨topic, ta, payload, pa⟩ =
      rpcOutcome a ⟨topic, ta', payload, pa'⟩) ↔ a.Decided topic payload := by
  by_cases hlen : maxMsgBufLen < topic.length
  · refine ⟨fun _ => .inl hlen, fun _ ta ta' pa pa' => ?_⟩
    rw [rpcOutcome_long hlen, rpcOutcome_long hlen]
  · refine ⟨fun h => ?_, fun h ta ta' pa pa' => ?_⟩
    · by_contra hd
      obtain ⟨ta, pa, ta', pa', hne⟩ := kind_of_undecided hl hd
      have heq := h ta ta' pa pa'
      rw [rpcOutcome_short hlen, rpcOutcome_short hlen] at heq
      exact hne (Prod.mk.inj heq).1
    · rw [rpcOutcome_short hlen, rpcOutcome_short hlen, kind_of_decided h hlen ta pa,
        kind_of_decided h hlen ta' pa']

/-! ### The topic of the acknowledgement -/

/-- The bytes of the request that the topic of the acknowledgement has room for. -/
def RpcAdapter.room (a : RpcAdapter) : ℕ := maxMsgBufLen - 1 - a.replyPrefix.length

/-- **The request ids that arrive**: the text from the first occurrence of the key on, cut to what
there is room for, is what the request carries; and the topic ends in its buffer, or fills the room
without what is behind it. -/
def RpcAdapter.Fits (a : RpcAdapter) (topic part : List UInt8) : Prop :=
  ∃ i, find a.requestId (str topic) = some i ∧ ((str topic).drop i).take a.room = part ∧
    (topic.length < maxMsgBufLen ∨ 0 ∈ topic ∨ a.room ≤ ((str topic).drop i).length)

/-- The topic of the acknowledgement, in terms of the string in the buffer. -/
theorem preparePubAckTopic_eq (hroom : a.replyPrefix.length ≤ maxMsgBufLen - 1) (m : List UInt8) :
    preparePubAckTopic a m = ((find a.requestId (str m)).map fun i =>
      a.replyPrefix ++ ((str m).drop i).take a.room).getD [] := by
  unfold preparePubAckTopic strstr
  rw [Option.map_map]
  cases hf : find a.requestId (str m) with
  | none => rfl
  | some i =>
      simp only [Option.map_some, Option.getD_some, Function.comp_apply, snprintf]
      rw [str_drop (find_le hf), List.take_append, List.take_of_length_le hroom]
      rfl

/-- The buffer of a topic that leaves room for a zero, or has one. -/
theorem str_buffer_closed (hlen : topic.length ≤ maxMsgBufLen)
    (h : topic.length < maxMsgBufLen ∨ 0 ∈ topic) (after : List UInt8) :
    str (memcpy topic maxMsgBufLen ++ after) = str topic := by
  rw [memcpy_of_le hlen, List.append_assoc]
  by_cases h0 : 0 ∈ topic
  · exact str_append_of_mem h0 _
  · obtain ⟨k, hk⟩ := Nat.exists_eq_add_of_lt (h.resolve_right h0)
    rw [str_append_of_not_mem h0, str_of_not_mem h0,
      show maxMsgBufLen - topic.length = k + 1 by omega, List.replicate_succ]
    exact List.append_nil _

/-- The buffer of a topic that fills it. -/
theorem str_buffer_open (hlen : topic.length = maxMsgBufLen) (h0 : 0 ∉ topic)
    (after : List UInt8) : str (memcpy topic maxMsgBufLen ++ after) = topic ++ str after := by
  rw [memcpy_of_ge hlen.ge, List.take_of_length_le hlen.le, str_append_of_not_mem h0]

/-- **When the request id arrives** in the topic of the acknowledgement, whatever is behind the
buffer. -/
theorem rpc_reply_iff (hroom : a.replyPrefix.length ≤ maxMsgBufLen - 1) (hne : a.replyPrefix ≠ [])
    (hlen : topic.length ≤ maxMsgBufLen) (part : List UInt8) :
    (∀ after, preparePubAckTopic a (memcpy topic maxMsgBufLen ++ after) = a.replyPrefix ++ part) ↔
      a.Fits topic part := by
  have hnone : ([] : List UInt8) ≠ a.replyPrefix ++ part := fun h =>
    hne (List.append_eq_nil_iff.1 h.symm).1
  by_cases hclosed : topic.length < maxMsgBufLen ∨ 0 ∈ topic
  · simp only [preparePubAckTopic_eq hroom, str_buffer_closed hlen hclosed, forall_const]
    unfold RpcAdapter.Fits
    cases hf : find a.requestId (str topic) with
    | none =>
        refine ⟨fun h => absurd h hnone, ?_⟩
        rintro ⟨i, hi, -⟩
        cases hi
    | some i =>
        rw [Option.map_some, Option.getD_some]
        constructor
        · intro h
          exact ⟨i, rfl, List.append_cancel_left h, hclosed.imp_right .inl⟩
        · rintro ⟨j, hj, hpart, -⟩
          cases hj
          rw [hpart]
  · obtain ⟨hlt, h0⟩ := not_or.1 hclosed
    have hfull : topic.length = maxMsgBufLen := by omega
    simp only [preparePubAckTopic_eq hroom, str_buffer_open hfull h0]
    unfold RpcAdapter.Fits
    rw [str_of_not_mem h0]
    constructor
    · intro h
      have hnil := h []
      rw [show str [] = [] from rfl, List.append_nil] at hnil
      cases hf : find a.requestId topic with
      | none =>
          rw [hf] at hnil
          exact absurd hnil hnone
      | some i =>
          rw [hf, Option.map_some, Option.getD_some] at hnil
          have hpart := List.append_cancel_left hnil
          refine ⟨i, rfl, hpart, .inr (.inr ?_)⟩
          -- one more byte behind the buffer would show in the topic
          by_contra hshort
          have hone := h [65]
          rw [show str [65] = [65] from rfl, find_append hf, Option.map_some, Option.getD_some,
            List.drop_append_of_le_length (find_le hf)] at hone
          have hone := List.append_cancel_left hone
          rw [← hpart] at hone
          have hl := congrArg List.length hone
          rw [List.length_take, List.length_take, List.length_append, List.length_singleton] at hl
          omega
    · rintro ⟨i, hi, hpart, hfit⟩ after
      have hfit := (hfit.resolve_left hlt).resolve_left h0
      rw [find_append hi, Option.map_some, Option.getD_some,
        List.drop_append_of_le_length (find_le hi), List.take_append_of_le_length hfit, hpart]

end PseFw.Oob
