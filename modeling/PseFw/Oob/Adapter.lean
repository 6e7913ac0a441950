/-
**The cloud adapters.**

A message from the cloud comes in on a topic and has a payload.  The adapter of the cloud decides
whether it is a command, puts the text of the acknowledgement into `next_msg`, and, for Azure IoT
and ThingsBoard, keeps the topic, from which the topic of the acknowledgement is made later.

The adapters work with the functions for strings, which look for a zero.  The topic of an MQTT
message has none; behind it stands what the receive buffer holds otherwise.  So an `Incoming`
message has, besides its topic and payload, the bytes behind both.

Main definitions:

* `OobMessage`, `CloudAdapter`, `Incoming`, `Processed`;
* `rpcProcessMessage` — Azure IoT and ThingsBoard, `azureIot` and `thingsboard`;
* `telitProcessMessage`, `telitPrepareMailboxAck` — Telit;
* `processMessage`, `getMqttPubTopic` — the adapter in use.
-/

import PseFw.Lib.CString

set_option relaxedAutoImplicit false
set_option autoImplicit false

namespace PseFw.Oob

open CStr

/-- `enum oob_messages`. -/
inductive OobMessage
  | reboot
  | decommission
  | poweron
  | poweroff
  | ignore
  | relay
  | pltStateChangeEvent
  | pltStateTimerEvent
  | tlsSessionStateEvent
  | mqttStateChangeEvent
  | pltNwMgmtEvent
  deriving DecidableEq, Repr

/-- `enum cloud_adapter`, without `NOADAPTER`, for which there are no functions. -/
inductive CloudAdapter
  | telit
  | azure
  | thingsboard
  deriving DecidableEq, Repr

/-- What the adapters read of the credentials. -/
structure Credentials where
  cloudAdapter : CloudAdapter
  username : List UInt8
  /-- A string ends with a zero. -/
  zero_not_mem : 0 ∉ username

/-- A message, with the bytes that stand behind its topic and behind its payload. -/
structure Incoming where
  topic : List UInt8
  topicAfter : List UInt8
  payload : List UInt8
  payloadAfter : List UInt8

/-- The memory from the topic on. -/
def Incoming.topicMem (m : Incoming) : List UInt8 := m.topic ++ m.topicAfter

/-- The memory from the payload on. -/
def Incoming.payloadMem (m : Incoming) : List UInt8 := m.payload ++ m.payloadAfter

/-- What an adapter makes of a message: the kind of message, the string in `next_msg`, and the
buffer with the topic; `none` stands for a buffer that is not touched. -/
structure Processed where
  msg : OobMessage
  nextMsg : Option (List UInt8)
  topicBuf : Option (List UInt8)
  deriving DecidableEq, Repr

/-- `MAX_MSG_BUF_LEN`. -/
abbrev maxMsgBufLen : ℕ := 64

/-- `BIG_GENERAL_BUF_SIZE`, the size of `next_msg`. -/
abbrev bigGeneralBufSize : ℕ := 1024

/-! ### Azure IoT and ThingsBoard -/

/-- What the two adapters differ in. -/
structure RpcAdapter where
  /-- The template of the reply topic as it stands in the source, which is also searched for. -/
  replyTemplate : List UInt8
  /-- The part of the template before `%s`. -/
  replyPrefix : List UInt8
  requestId : List UInt8
  reboot : List UInt8
  powerup : List UInt8
  powerdown : List UInt8
  decommission : List UInt8
  /-- The commands stand in the topic, or else in the payload. -/
  commandInTopic : Bool

/-- The constants of `azure_iot.h`. -/
def azureIot : RpcAdapter where
  replyTemplate := bytes "$iothub/methods/res/201/?$%s"
  replyPrefix := bytes "$iothub/methods/res/201/?$"
  requestId := bytes "rid"
  reboot := bytes "reboot_device"
  powerup := bytes "powerup_device"
  powerdown := bytes "powerdown_device"
  decommission := bytes "decommision_device"
  commandInTopic := true

/-- The constants of `thingsboard.h`. -/
def thingsboard : RpcAdapter where
  replyTemplate := bytes "v1/devices/me/rpc/response/%s"
  replyPrefix := bytes "v1/devices/me/rpc/response/"
  requestId := bytes "requestID"
  reboot := bytes "reboot_device"
  powerup := bytes "powerup_device"
  powerdown := bytes "powerdown_device"
  decommission := bytes "decommission_device"
  commandInTopic := false

/-- The text both adapters acknowledge a command with. -/
def statusText : List UInt8 := snprintf bigGeneralBufSize (bytes "\x7b\"status\":\"200\"\x7d")

/-- The command in a string: the first of the four that occurs. -/
def RpcAdapter.command (a : RpcAdapter) (m : List UInt8) : OobMessage :=
  if (strstr m a.reboot).isSome then .reboot
  else if (strstr m a.powerup).isSome then .poweron
  else if (strstr m a.powerdown).isSome then .poweroff
  else if (strstr m a.decommission).isSome then .decommission
  else .ignore

/-- `azure_iot_process_message` and `thingsboard_process_message`. -/
def rpcProcessMessage (a : RpcAdapter) (m : Incoming) : Processed :=
  if maxMsgBufLen < m.topic.length then ⟨.ignore, none, none⟩
  else
    let topicBuf := memcpy m.topic maxMsgBufLen
    let oobCmdMsg :=
      if (strstr m.topicMem a.replyTemplate).isSome then .ignore
      else a.command (if a.commandInTopic then m.topicMem else m.payloadMem)
    ⟨oobCmdMsg, some (if oobCmdMsg = .ignore then [] else statusText), some topicBuf⟩

/-- `azure_iot_process_message`. -/
def azureIotProcessMessage : Incoming → Processed := rpcProcessMessage azureIot

/-- `thingsboard_process_message`. -/
def thingsboardProcessMessage : Incoming → Processed := rpcProcessMessage thingsboard

/-- `azure_iot_prepare_pub_ack_topic` and `thingsboard_prepare_pub_ack_topic`, on the memory from
the buffer with the topic on. -/
def preparePubAckTopic (a : RpcAdapter) (payload : List UInt8) : List UInt8 :=
  ((strstr payload a.requestId).map fun tempBuf =>
    snprintf maxMsgBufLen (a.replyPrefix ++ str tempBuf)).getD []

/-! ### Telit -/

/-- The constants of `telit.h`. -/
def telitReplyTopic : List UInt8 := bytes "reply"
def telitNotifyTopic : List UInt8 := bytes "notify/mailbox_activity"
def telitCmdReplyMessage : List UInt8 := bytes "\x7b\"cmd\":\x7b\"success\":true\x7d\x7d"
def telitMethodExec : List UInt8 := bytes "method.exec"
def telitReboot : List UInt8 := bytes "reboot_device"
def telitPowerup : List UInt8 := bytes "powerup_device"
def telitPowerdown : List UInt8 := bytes "powerdown_device"
def telitDecommission : List UInt8 := bytes "decommision_device"
def telitRequestId : List UInt8 := bytes "id"
abbrev telitIdLen : ℕ := 24

/-- `telit_check_exists_ignore_list`; the list has one message. -/
def telitCheckExistsIgnoreList (msg : List UInt8) (msgLen : ℕ) : Bool :=
  strncmpEq msg telitCmdReplyMessage msgLen

/-- `telit_prepare_mailbox_check`. -/
def telitPrepareMailboxCheck : List UInt8 :=
  snprintf bigGeneralBufSize (bytes ("\x7b\"cmd\":\x7b\"command\":\"mailbox.check\"," ++
    "\"params\":\x7b\"autocomplete\": false,\"limit\":1\x7d\x7d\x7d"))

/-- The text of `TELIT_MAILBOX_ACK_MESSAGE_TEMPLATE` around the id. -/
def telitAckBefore : List UInt8 :=
  bytes ("\x7b\"cmd\":\x7b\"command\":\"mailbox.ack\"," ++ "\"params\":\x7b\"id\":\"")
def telitAckAfter : List UInt8 :=
  bytes ("\",\"errorCode\":0," ++
    "\"params\":\x7b\"Response\":\"Command Received\"\x7d\x7d\x7d\x7d")

/-- `telit_prepare_mailbox_ack`: the string in `msg_buf`.  The id is copied without a zero, so the
bytes `stack` that stand behind `bufout` matter too.  The result is `none` when there are not two
quotation marks behind the key, and the code follows a null pointer. -/
def telitPrepareMailboxAck (stack payload : List UInt8) : Option (List UInt8) :=
  match strstr payload telitRequestId with
  | none => some []
  | some tempBuf =>
      (strchr tempBuf 34).bind fun first =>
        (strchr first.tail 34).map fun second =>
          let bufout := memcpy second.tail telitIdLen
          snprintf bigGeneralBufSize (telitAckBefore ++ str (bufout ++ stack) ++ telitAckAfter)

/-- The command in a payload. -/
def telitCommand (username payload : List UInt8) : OobMessage :=
  if (strstr payload telitMethodExec).isSome ∧ (strstr payload username).isSome then
    if (strstr payload telitReboot).isSome then .reboot
    else if (strstr payload telitPowerup).isSome then .poweron
    else if (strstr payload telitPowerdown).isSome then .poweroff
    else if (strstr payload telitDecommission).isSome then .decommission
    else .ignore
  else .ignore

/-- `telit_process_message`; `none` when the code follows a null pointer. -/
def telitProcessMessage (username stack : List UInt8) (m : Incoming) : Option Processed :=
  if strncmpEq m.topicMem telitReplyTopic m.topic.length &&
      telitCheckExistsIgnoreList m.payloadMem m.payload.length then
    some ⟨.ignore, none, none⟩
  else if strncmpEq m.topicMem telitNotifyTopic telitNotifyTopic.length then
    some ⟨.relay, some telitPrepareMailboxCheck, none⟩
  else if strncmpEq m.topicMem telitReplyTopic telitReplyTopic.length then
    match telitCommand username m.payloadMem with
    | .ignore => some ⟨.ignore, none, none⟩
    | cmd => (telitPrepareMailboxAck stack m.payloadMem).map fun text => ⟨cmd, some text, none⟩
  else some ⟨.ignore, none, none⟩

/-! ### The adapter in use -/

/-- `cloud_adapter.process_message`. -/
def processMessage (c : Credentials) (stack : List UInt8) (m : Incoming) : Option Processed :=
  match c.cloudAdapter with
  | .telit => telitProcessMessage c.username stack m
  | .azure => some (azureIotProcessMessage m)
  | .thingsboard => some (thingsboardProcessMessage m)

/-- `cloud_adapter.get_mqtt_pub_topic(API)`, with the bytes behind the buffer with the topic. -/
def getMqttPubTopic (c : CloudAdapter) (topicBuf after : List UInt8) : List UInt8 :=
  match c with
  | .telit => bytes "api"
  | .azure => preparePubAckTopic azureIot (topicBuf ++ after)
  | .thingsboard => preparePubAckTopic thingsboard (topicBuf ++ after)

end PseFw.Oob
