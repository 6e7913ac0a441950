/-
**The topics Azure IoT is published on.**

The topic of telemetry and of events holds the client id, the topic of an acknowledgement holds the
request id of the command.  Both are printed into a buffer of 64 bytes, which has room for 63
characters: beside the text of the templates, 38 for the client id and 37 for the request.  Ids that
are longer are cut, and nothing is said about it.

Main definitions:

* `AppMessageType`, `azureIotGetMqttPubTopic` — the topic of a message;
* `ClientId`, `CommandTopic` — the ids the topics are made from;
* `TopicsExact` — what is wanted;
* `CommandTopic.RequestFits` — the requests that arrive.

Main results:

* `fits_iff_requestFits` — when the request arrives;
* `topicsExact_iff` — **for which ids the topics are exact**;
* `not_topicsExact_longId` — a client id of 39 bytes.
-/

import PseFw.Oob.Classify

set_option relaxedAutoImplicit false
set_option autoImplicit false

namespace PseFw.Oob

open CStr

/-! ### The topic of a message -/

/-- `enum app_message_type`, and the values outside of it. -/
inductive AppMessageType
  | static
  | dynamic
  | event
  | api
  | other
  deriving DecidableEq, Repr

/-- `AZURE_IOT_MQTT_PUB_ATTRIB_TOPIC`. -/
def azureIotMqttPubAttribTopic : List UInt8 := bytes "$iothub/twin/PATCH/properties/reported/"

/-- `AZURE_IOT_MQTT_PUB_TELEM_TOPIC`, with the text for its `%s`. -/
def azureIotMqttPubTelemTopic (value : List UInt8) : List UInt8 :=
  bytes "devices/" ++ value ++ bytes "/messages/events/"

/-- `azure_iot_prepare_pub_telem_topic`, on the memory from the value on. -/
def preparePubTelemTopic (value : List UInt8) : List UInt8 :=
  snprintf maxMsgBufLen (azureIotMqttPubTelemTopic (str value))

/-- `azure_iot_get_mqtt_pub_topic`, on the memory from `mqtt_client_id` on and on that from
`az_payload` on. -/
def azureIotGetMqttPubTopic (mqttClientId azPayload : List UInt8) :
    AppMessageType → Option (List UInt8)
  | .static => some azureIotMqttPubAttribTopic
  | .api => some (preparePubAckTopic azureIot azPayload)
  | .dynamic | .event => some (preparePubTelemTopic mqttClientId)
  | .other => none

/-! ### What is wanted -/

/-- A client id of the credential store. -/
structure ClientId where
  text : List UInt8
  short : text.length ≤ 64
  zero_not_mem : 0 ∉ text

/-- The topic of a command, which carries a request id. -/
structure CommandTopic where
  topic : List UInt8
  short : topic.length ≤ maxMsgBufLen
  zero_not_mem : 0 ∉ topic
  /-- The text from `rid` on. -/
  request : List UInt8
  carries : azureRequest topic = some request

/-- **The topics are exact**, whatever stands in memory behind the client id and behind the buffer
with the topic of the command. -/
structure TopicsExact (id : ClientId) (t : CommandTopic) : Prop where
  telemetry : ∀ after azPayload, ∀ type ∈ [AppMessageType.dynamic, AppMessageType.event],
    azureIotGetMqttPubTopic (id.text ++ 0 :: after) azPayload type =
      some (azureIotMqttPubTelemTopic id.text)
  acknowledgement : ∀ mqttClientId m buf after, m.topic = t.topic →
    (azureIotProcessMessage m).topicBuf = some buf →
      azureIotGetMqttPubTopic mqttClientId (buf ++ after) .api =
        some (azureIot.replyPrefix ++ t.request)

/-- **The request arrives**: it is at most 37 bytes long, it stands where `rid` stands first, and it
is either as long as there is room, or the end of a topic that leaves a byte of its buffer free. -/
def CommandTopic.RequestFits (t : CommandTopic) : Prop :=
  t.request.length ≤ 37 ∧ ∃ i, find azureIot.requestId t.topic = some i ∧
    t.request <+: t.topic.drop i ∧
    (t.request.length = 37 ∨ (i + t.request.length = t.topic.length ∧ t.topic.length < 64))

/-! ### Telemetry -/

theorem telem_length (value : List UInt8) :
    (azureIotMqttPubTelemTopic value).length = 25 + value.length := by
  have hpre : (bytes "devices/").length = 8 := by decide +kernel
  have hpost : (bytes "/messages/events/").length = 17 := by decide +kernel
  unfold azureIotMqttPubTelemTopic
  rw [List.length_append, List.length_append, hpre, hpost]
  omega

/-- **When the topic of telemetry is complete.** -/
theorem preparePubTelemTopic_eq_iff (id : ClientId) (after : List UInt8) :
    preparePubTelemTopic (id.text ++ 0 :: after) = azureIotMqttPubTelemTopic id.text ↔
      id.text.length ≤ 38 := by
  have hstr : str (id.text ++ 0 :: after) = id.text := by
    rw [str_append_of_not_mem id.zero_not_mem]
    exact List.append_nil _
  have hlen := telem_length id.text
  unfold preparePubTelemTopic snprintf
  rw [hstr, List.take_eq_self_iff, hlen]
  show 25 + id.text.length ≤ 63 ↔ _
  omega

/-! ### Acknowledgements -/

/-- The room for the request. -/
theorem room_azureIot : azureIot.room = 37 := by decide +kernel

/-- A beginning that ends where its text ends, or where there is no more room. -/
theorem take_eq_iff {l part : List UInt8} {n : ℕ} :
    l.take n = part ↔
      part <+: l ∧ part.length ≤ n ∧ (part.length = n ∨ part.length = l.length) := by
  constructor
  · rintro rfl
    have hlen := List.length_take (i := n) (l := l)
    exact ⟨List.take_prefix n l, by omega, by omega⟩
  · rintro ⟨hpre, hle, hlen⟩
    obtain ⟨rest, rfl⟩ := hpre
    rcases hlen with hlen | hlen
    · rw [← hlen, List.take_left]
    · have hnil : rest = [] := by
        rw [List.length_append] at hlen
        exact List.length_eq_zero_iff.1 (by omega)
      rw [hnil, List.append_nil, List.take_of_length_le hle]

/-- **When the request arrives.** -/
theorem fits_iff_requestFits (t : CommandTopic) :
    azureIot.Fits t.topic t.request ↔ t.RequestFits := by
  have hstr : str t.topic = t.topic := str_of_not_mem t.zero_not_mem
  have hzero := t.zero_not_mem
  unfold RpcAdapter.Fits CommandTopic.RequestFits
  rw [hstr, room_azureIot]
  constructor
  · rintro ⟨i, hi, hpart, hroom⟩
    obtain ⟨hpre, hle, hlen⟩ := take_eq_iff.1 hpart
    have hil := find_le hi
    rw [List.length_drop] at hroom hlen
    refine ⟨hle, i, hi, hpre, ?_⟩
    rcases hroom with hroom | hroom | hroom
    · rcases hlen with hlen | hlen
      · exact .inl hlen
      · exact .inr ⟨by omega, hroom⟩
    · exact absurd hroom hzero
    · exact .inl (by omega)
  · rintro ⟨hle, i, hi, hpre, hend⟩
    have hil := find_le hi
    have hpl := hpre.length_le
    rw [List.length_drop] at hpl
    refine ⟨i, hi, take_eq_iff.2 ⟨hpre, hle, ?_⟩, ?_⟩
    · rw [List.length_drop]
      rcases hend with hend | ⟨hend, -⟩
      · exact .inl hend
      · exact .inr (by omega)
    · rw [List.length_drop]
      rcases hend with hend | ⟨-, hend⟩
      · exact .inr (.inr (by omega))
      · exact .inl hend

/-! ### The topics -/

/-- **For which ids the topics are exact.** -/
theorem topicsExact_iff (id : ClientId) (t : CommandTopic) :
    TopicsExact id t ↔ id.text.length ≤ 38 ∧ t.RequestFits := by
  have hreply := @rpc_reply_iff azureIot t.topic (by decide +kernel) (by decide +kernel) t.short
    t.request
  have hbuf : ∀ m : Incoming, m.topic = t.topic →
      (azureIotProcessMessage m).topicBuf = some (memcpy t.topic maxMsgBufLen) := by
    rintro ⟨topic, ta, payload, pa⟩ rfl
    exact processMessage_topicBuf (Nat.not_lt.2 t.short) ta pa
  rw [← fits_iff_requestFits, ← hreply]
  constructor
  · rintro ⟨htelem, hack⟩
    constructor
    · have hdynamic := htelem [] [] .dynamic List.mem_cons_self
      exact (preparePubTelemTopic_eq_iff id []).1 (Option.some.inj hdynamic)
    · intro after
      have happ := hack [] ⟨t.topic, [], [], []⟩ _ after rfl (hbuf _ rfl)
      exact Option.some.inj happ
  · rintro ⟨hid, hack⟩
    constructor
    · intro after azPayload type htype
      have htelem := congrArg some ((preparePubTelemTopic_eq_iff id after).2 hid)
      simp only [List.mem_cons, List.not_mem_nil, or_false] at htype
      rcases htype with rfl | rfl
      · exact htelem
      · exact htelem
    · intro mqttClientId m buf after hm hb
      rw [hbuf m hm] at hb
      cases hb
      exact congrArg some (hack after)

/-- A client id of 39 bytes. -/
def longId : ClientId where
  text := List.replicate 39 97
  short := by decide
  zero_not_mem := by decide

/-- The command with the request 1. -/
def rebootTopic : CommandTopic where
  topic := bytes "$iothub/methods/POST/reboot_device/?$rid=1"
  short := by decide +kernel
  zero_not_mem := by decide +kernel
  request := bytes "rid=1"
  carries := by decide +kernel

/-- The last character of its topic is missing. -/
theorem not_topicsExact_longId : ¬ TopicsExact longId rebootTopic := by
  intro h
  have hdynamic := h.telemetry [] [] .dynamic List.mem_cons_self
  have hid := (preparePubTelemTopic_eq_iff longId []).1 (Option.some.inj hdynamic)
  exact absurd hid (by decide)

end PseFw.Oob
