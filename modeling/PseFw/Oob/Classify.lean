/-
**What decides about a message.**

For each of the three adapters: the kind of a message and the text of its acknowledgement should
depend on the topic, the payload and the credentials, and on nothing else in memory; and an accepted
request should be acknowledged under its own id.  The adapters meet this exactly for the messages
that decide themselves and whose id fits.

The topic of a method call of Azure IoT ends with `?$rid=` and the id; the topic of a call of
ThingsBoard is `v1/devices/me/rpc/request/` and the id.  For Telit the topic carries no id.

Main definitions:

* `SameOutcome`, `RepliesExactly` — what is expected;
* `Decided`, `IdFits` — the messages for which it is so.

Main results:

* `adapters_exact_iff` — **for which messages the adapters decide by the message alone and answer
  under its id**;
* `not_adapters_exact_open_topic` — a topic that is continued by what is behind it.
-/

import PseFw.Oob.Telit

set_option relaxedAutoImplicit false
set_option autoImplicit false

namespace PseFw.Oob

open CStr

variable {a : RpcAdapter} {topic payload : List UInt8}

/-! ### What is expected -/

/-- The decision about a message and the text in `next_msg`. -/
def outcome (c : Credentials) (stack : List UInt8) (m : Incoming) :
    Option (OobMessage × Option (List UInt8)) :=
  (processMessage c stack m).map fun r => (r.msg, r.nextMsg)

/-- Two calls with the same message have the same outcome, whatever else is in memory. -/
def SameOutcome (c : Credentials) (topic payload : List UInt8) : Prop :=
  ∀ stack stack' ta ta' pa pa', outcome c stack ⟨topic, ta, payload, pa⟩ =
    outcome c stack' ⟨topic, ta', payload, pa'⟩

/-- The request in a topic of Azure IoT, from `rid` on. -/
def azureRequest (topic : List UInt8) : Option (List UInt8) :=
  (find (bytes "?$rid=") topic).map fun i => topic.drop (i + 2)

/-- The request in a topic of ThingsBoard. -/
def thingsboardRequest (topic : List UInt8) : Option (List UInt8) :=
  if bytes "v1/devices/me/rpc/request/" <+: topic then
    some (topic.drop (bytes "v1/devices/me/rpc/request/").length)
  else none

/-- The topic under which a request is to be acknowledged. -/
def replyTopic (c : CloudAdapter) (topic : List UInt8) : Option (List UInt8) :=
  match c with
  | .telit => none
  | .azure => (azureRequest topic).map (azureIot.replyPrefix ++ ·)
  | .thingsboard => (thingsboardRequest topic).map (thingsboard.replyPrefix ++ ·)

/-- An accepted request is acknowledged under its own id. -/
def RepliesExactly (c : Credentials) (topic payload : List UInt8) : Prop :=
  ∀ stack ta pa r, processMessage c stack ⟨topic, ta, payload, pa⟩ = some r → r.msg ≠ .ignore →
    ∀ reply, replyTopic c.cloudAdapter topic = some reply →
      ∃ buf, r.topicBuf = some buf ∧ ∀ after, getMqttPubTopic c.cloudAdapter buf after = reply

/-! ### For which messages it is so -/

/-- The message decides everything itself. -/
def Decided (c : Credentials) (topic payload : List UInt8) : Prop :=
  match c.cloudAdapter with
  | .telit => TelitDecided c.username topic payload
  | .azure => azureIot.Decided topic payload
  | .thingsboard => thingsboard.Decided topic payload

/-- If there is a command, the id of the request arrives. -/
def RpcAdapter.IdFits (a : RpcAdapter) (request : List UInt8 → Option (List UInt8))
    (topic payload : List UInt8) : Prop :=
  topic.length ≤ maxMsgBufLen → ¬ a.replyTemplate <:+: str topic →
    a.HasCommand (if a.commandInTopic then topic else payload) →
      ∀ part, request topic = some part → a.Fits topic part

/-- The same for the adapter in use. -/
def IdFits (c : CloudAdapter) (topic payload : List UInt8) : Prop :=
  match c with
  | .telit => True
  | .azure => azureIot.IdFits azureRequest topic payload
  | .thingsboard => thingsboard.IdFits thingsboardRequest topic payload

theorem processMessage_msg (hlen : ¬ maxMsgBufLen < topic.length) (ta pa : List UInt8) :
    (rpcProcessMessage a ⟨topic, ta, payload, pa⟩).msg = a.kind ⟨topic, ta, payload, pa⟩ :=
  congrArg Prod.fst (rpcOutcome_short hlen)

theorem processMessage_topicBuf (hlen : ¬ maxMsgBufLen < topic.length) (ta pa : List UInt8) :
    (rpcProcessMessage a ⟨topic, ta, payload, pa⟩).topicBuf = some (memcpy topic maxMsgBufLen) := by
  unfold rpcProcessMessage
  rw [if_neg hlen]

/-- The messages that are accepted, when nothing is behind them. -/
theorem kind_ne_ignore_iff : a.kind ⟨topic, [], payload, []⟩ ≠ .ignore ↔
    ¬ a.replyTemplate <:+: str topic ∧
      a.HasCommand (if a.commandInTopic then topic else payload) := by
  have htop : Incoming.topicMem ⟨topic, [], payload, []⟩ = topic := List.append_nil topic
  have hpay : Incoming.payloadMem ⟨topic, [], payload, []⟩ = payload := List.append_nil payload
  by_cases ht : a.replyTemplate <:+: str topic
  · rw [kind_of_template (by rw [htop]; exact ht)]
    exact ⟨fun h => absurd rfl h, fun h => absurd ht h.1⟩
  · rw [kind_of_not_template (by rw [htop]; exact ht), htop, hpay, ne_eq, command_eq_ignore_iff,
      not_not]
    exact ⟨fun h => ⟨ht, h⟩, And.right⟩

/-- For Azure IoT and ThingsBoard: the answers to messages that decide themselves. -/
theorem rpc_replies_iff (hroom : a.replyPrefix.length ≤ maxMsgBufLen - 1) (hne : a.replyPrefix ≠ [])
    (request : List UInt8 → Option (List UInt8)) (hd : a.Decided topic payload) :
    (∀ ta pa, (rpcProcessMessage a ⟨topic, ta, payload, pa⟩).msg ≠ .ignore →
      ∀ part, request topic = some part →
        ∃ buf, (rpcProcessMessage a ⟨topic, ta, payload, pa⟩).topicBuf = some buf ∧
          ∀ after, preparePubAckTopic a (buf ++ after) = a.replyPrefix ++ part) ↔
      a.IdFits request topic payload := by
  constructor
  · intro h hlen ht hcmd part hpart
    have hlen' : ¬ maxMsgBufLen < topic.length := Nat.not_lt.2 hlen
    have hmsg := kind_ne_ignore_iff.2 ⟨ht, hcmd⟩
    rw [← processMessage_msg hlen'] at hmsg
    obtain ⟨buf, hbuf, hall⟩ := h [] [] hmsg part hpart
    rw [processMessage_topicBuf hlen'] at hbuf
    cases hbuf
    exact (rpc_reply_iff hroom hne hlen part).1 hall
  · intro h ta pa hmsg part hpart
    by_cases hlen : maxMsgBufLen < topic.length
    · exact absurd (congrArg Prod.fst (rpcOutcome_long hlen)) hmsg
    · rw [processMessage_msg hlen, kind_of_decided hd hlen] at hmsg
      obtain ⟨ht, hcmd⟩ := kind_ne_ignore_iff.1 hmsg
      refine ⟨_, processMessage_topicBuf hlen ta pa, ?_⟩
      exact (rpc_reply_iff hroom hne (Nat.not_lt.1 hlen) part).2
        (h (Nat.not_lt.1 hlen) ht hcmd part hpart)

/-- When the decision depends on the message only, for the adapter in use. -/
theorem sameOutcome_iff_decided (c : Credentials) :
    SameOutcome c topic payload ↔ Decided c topic payload := by
  unfold SameOutcome Decided outcome processMessage
  cases c.cloudAdapter with
  | telit => exact telit_sameOutcome_iff c.zero_not_mem
  | azure =>
      rw [← rpc_sameOutcome_iff azureIot_literals]
      exact ⟨fun h ta ta' pa pa' => Option.some.inj (h [] [] ta ta' pa pa'),
        fun h _ _ ta ta' pa pa' => congrArg some (h ta ta' pa pa')⟩
  | thingsboard =>
      rw [← rpc_sameOutcome_iff thingsboard_literals]
      exact ⟨fun h ta ta' pa pa' => Option.some.inj (h [] [] ta ta' pa pa'),
        fun h _ _ ta ta' pa pa' => congrArg some (h ta ta' pa pa')⟩

/-- What is expected of the answers of one adapter, without the options around it. -/
theorem repliesExactly_iff_of {request : List UInt8 → Option (List UInt8)} :
    (∀ (_ : List UInt8) ta pa r, some (rpcProcessMessage a ⟨topic, ta, payload, pa⟩) = some r →
      r.msg ≠ .ignore → ∀ reply, (request topic).map (a.replyPrefix ++ ·) = some reply →
        ∃ buf, r.topicBuf = some buf ∧ ∀ after, preparePubAckTopic a (buf ++ after) = reply) ↔
    ∀ ta pa, (rpcProcessMessage a ⟨topic, ta, payload, pa⟩).msg ≠ .ignore →
      ∀ part, request topic = some part →
        ∃ buf, (rpcProcessMessage a ⟨topic, ta, payload, pa⟩).topicBuf = some buf ∧
          ∀ after, preparePubAckTopic a (buf ++ after) = a.replyPrefix ++ part := by
  constructor
  · intro h ta pa hmsg part hpart
    exact h [] ta pa _ rfl hmsg _ (Option.map_eq_some_iff.2 ⟨part, hpart, rfl⟩)
  · intro h _ ta pa r hr hmsg reply hreply
    obtain ⟨part, hpart, rfl⟩ := Option.map_eq_some_iff.1 hreply
    cases hr
    exact h ta pa hmsg part hpart

theorem repliesExactly_iff (c : Credentials) (hd : Decided c topic payload) :
    RepliesExactly c topic payload ↔ IdFits c.cloudAdapter topic payload := by
  revert hd
  unfold RepliesExactly Decided IdFits processMessage replyTopic getMqttPubTopic
  cases c.cloudAdapter with
  | telit => exact fun _ => ⟨fun _ => trivial, fun _ _ _ _ _ _ _ _ hreply => (by cases hreply)⟩
  | azure =>
      intro hd
      exact repliesExactly_iff_of.trans
        (rpc_replies_iff (by decide +kernel) (by decide +kernel) azureRequest hd)
  | thingsboard =>
      intro hd
      exact repliesExactly_iff_of.trans
        (rpc_replies_iff (by decide +kernel) (by decide +kernel) thingsboardRequest hd)

/-- **For which messages the adapters decide by the message alone and answer under its id.** -/
theorem adapters_exact_iff (c : Credentials) (topic payload : List UInt8) :
    SameOutcome c topic payload ∧ RepliesExactly c topic payload ↔
      Decided c topic payload ∧ IdFits c.cloudAdapter topic payload := by
  rw [sameOutcome_iff_decided]
  exact and_congr_right (repliesExactly_iff c)

theorem zero_not_mem_device : 0 ∉ bytes "device" := by decide +kernel

/-- The credentials of a device of Azure IoT. -/
def azureDevice : Credentials where
  cloudAdapter := .azure
  username := bytes "device"
  zero_not_mem := zero_not_mem_device

/-- A method that is none of the four, with the name of one behind the topic. -/
theorem not_adapters_exact_open_topic :
    outcome azureDevice [] ⟨bytes "$iothub/methods/POST/foo/?$rid=1", [0], bytes "x", [0]⟩ =
        some (.ignore, some []) ∧
      outcome azureDevice [] ⟨bytes "$iothub/methods/POST/foo/?$rid=1",
        bytes "reboot_device", bytes "x", [0]⟩ = some (.reboot, some statusText) ∧
      ¬ SameOutcome azureDevice (bytes "$iothub/methods/POST/foo/?$rid=1") (bytes "x") := by
  refine ⟨by decide +kernel, by decide +kernel, fun h => ?_⟩
  have heq := h [] [] [0] (bytes "reboot_device") [0] [0]
  exact absurd heq (by decide +kernel)

end PseFw.Oob
