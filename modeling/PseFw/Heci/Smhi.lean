/-
**The answers of the SMHI client.**

The host asks the SMHI client for the version of the firmware or for the time, and it orders a
reset.  The three answers are built in one static buffer, and each handler fills in its own part of
it: the version and the time write the command into the header, the reset does not.  What the buffer
holds depends on the requests before, so the answers are a matter of whole runs: requests come
between connections and disconnections, and a reset takes effect only when the connection is gone.

The header is a packed record of bit fields, so a store to one field keeps the bits of the others.
The version numbers come from strings the build writes, and the time from a clock; both are
parameters.

Main definitions:

* `PseFw.Smhi.Client`, `PseFw.Smhi.smhiProcessMsg`, `PseFw.Smhi.smhiTask` — the static variables,
  and the functions of the client;
* `PseFw.Smhi.Matched` — a request is answered by its own answer;
* `PseFw.Smhi.RunMatched` — every supported request of a run is.

Main results:

* `PseFw.Smhi.payloads_smhiProcessMsg` — the payload of every answer is that of its command;
* `PseFw.Smhi.command_ne_smhiPseReset` — no run leaves the command of a reset in the buffer;
* `PseFw.Smhi.runMatched_iff` — **the runs whose requests are matched**: those without a reset.
-/

import PseFw.Heci.Dma
import PseFw.Heci.HostIo
import PseFw.Lib.Memory

set_option relaxedAutoImplicit false
set_option autoImplicit false

namespace PseFw.Smhi

open Heci (HeciRxMsg Mrd)

/-! ### The header of a message -/

/-- `SMHI_GET_VERSION`. -/
abbrev smhiGetVersion : UInt8 := 1
/-- `SMHI_PSE_RESET`. -/
abbrev smhiPseReset : UInt8 := 2
/-- `SMHI_GET_TIME`. -/
abbrev smhiGetTime : UInt8 := 8

/-- `sizeof(smhi_msg_hdr_t)`. -/
abbrev smhiMsgHdrSize : ℕ := 4

/-- `command`: the lower seven bits of the first byte. -/
def command (hdr : ℕ → UInt8) : UInt8 := hdr 0 &&& 0x7F

/-- A store to `command`. -/
def setCommand (c : UInt8) (hdr : ℕ → UInt8) : ℕ → UInt8 :=
  Mem.write hdr 0 [(hdr 0 &&& 0x80) ||| (c &&& 0x7F)]

/-- `is_response = 1`: the highest bit of the first byte. -/
def setIsResponse (hdr : ℕ → UInt8) : ℕ → UInt8 := Mem.write hdr 0 [hdr 0 ||| 0x80]

/-- `has_next = 0`: the lowest bit of the second byte. -/
def clearHasNext (hdr : ℕ → UInt8) : ℕ → UInt8 := Mem.write hdr 1 [hdr 1 &&& 0xFE]

/-- `reserved = 0`: the fifteen bits above. -/
def clearReserved (hdr : ℕ → UInt8) : ℕ → UInt8 := Mem.write hdr 1 [hdr 1 &&& 1, 0]

/-- `status = 0`. -/
def clearStatus (hdr : ℕ → UInt8) : ℕ → UInt8 := Mem.write hdr 3 [0]

/-! ### The client -/

/-- `SMHI_CONN_FLAG`. -/
abbrev smhiConnFlag : UInt32 := 2
/-- `REBOOT_FLAG`. -/
abbrev rebootFlag : UInt32 := 1

/-- `FWVER_MAJOR`, `FWVER_MINOR` and `FWVER_PATCH`, as `strtoul` reads them. -/
structure FwVersion where
  major : UInt16
  minor : UInt16
  patch : UInt16
  deriving DecidableEq, Repr

/-- **The static variables**: `smhi_tx_buffer`, `smhi_conn_id` and `smhi_flag`. -/
structure Client where
  txBuffer : ℕ → UInt8
  connId : UInt32
  flag : UInt32

/-- Static variables start at zero. -/
def Client.start : Client where
  txBuffer := fun _ => 0
  connId := 0
  flag := 0

/-- What the client calls. -/
inductive SmhiOut
  /-- `heci_send`. -/
  | heciSend (connId : UInt32) (msg : List Mrd)
  /-- `heci_send_flow_control`. -/
  | sendFlowControl (connId : UInt32)
  /-- `heci_complete_disconnect`. -/
  | completeDisconnect (connId : UInt32)
  /-- `sys_reboot`. -/
  | sysReboot

/-- The descriptor of the first `len` bytes of the buffer. -/
def mrd (txhdr : ℕ → UInt8) (len : ℕ) : Mrd where
  len := len
  buf := some (Mem.read txhdr 0 len)
  len_eq := fun _ h => Option.some.inj h ▸ Mem.length_read txhdr 0 len

/-- Send the header and `size` bytes behind it. -/
def sendResp (size : ℕ) (txhdr : ℕ → UInt8) (x : Client) : List SmhiOut × Client :=
  ([.heciSend x.connId [mrd txhdr (size + smhiMsgHdrSize)]], { x with txBuffer := txhdr })

/-- `smhi_get_version_resp`. -/
def versionResp (V : FwVersion) : List UInt8 :=
  [V.major, V.minor, V.patch, 0].flatMap fun n => Mem.leBytes 2 n.toNat

/-- `smhi_ret_version`. -/
def smhiRetVersion (V : FwVersion) (txhdr : ℕ → UInt8) (x : Client) : List SmhiOut × Client :=
  sendResp 8 (Mem.write (setCommand smhiGetVersion txhdr) smhiMsgHdrSize (versionResp V)) x

/-- `smhi_ret_time`: `now` is what `sedi_rtc_get` returns. -/
def smhiRetTime (now : UInt64) (txhdr : ℕ → UInt8) (x : Client) : List SmhiOut × Client :=
  let txhdr := Mem.write txhdr smhiMsgHdrSize (List.replicate 48 0)
  sendResp 48 (Mem.write (setCommand smhiGetTime txhdr) smhiMsgHdrSize (Heci.le64 now.toNat)) x

/-- `smhi_handle_reset_resp`. -/
def smhiHandleResetResp (txhdr : ℕ → UInt8) (x : Client) : List SmhiOut × Client :=
  sendResp 4 (Mem.write txhdr smhiMsgHdrSize (List.replicate 4 0)) x

/-- The header every request writes. -/
def respHdr (txhdr : ℕ → UInt8) : ℕ → UInt8 :=
  clearStatus (clearReserved (clearHasNext (setIsResponse txhdr)))

/-- **`smhi_process_msg`**. -/
def smhiProcessMsg (V : FwVersion) (now : UInt64) (buf : ℕ → UInt8) (x : Client) :
    List SmhiOut × Client :=
  let txhdr := respHdr x.txBuffer
  if command buf = smhiGetVersion then smhiRetVersion V txhdr x
  else if command buf = smhiGetTime then smhiRetTime now txhdr x
  else if command buf = smhiPseReset then
    let r := smhiHandleResetResp txhdr x
    (r.1, { r.2 with flag := r.2.flag ||| rebootFlag })
  else ([], { x with txBuffer := txhdr })

/-- `post_smhi_process`: a reset starts everything over. -/
def postSmhiProcess (x : Client) : List SmhiOut × Client :=
  if x.flag &&& rebootFlag ≠ 0 ∧ x.flag &&& smhiConnFlag = 0 then ([.sysReboot], Client.start)
  else ([], x)

/-- What the task finds when it has taken the semaphore: the event, with `smhi_rx_msg` and the
time. -/
inductive SmhiEvent
  | newMsg (rx : HeciRxMsg) (now : UInt64)
  | disconn
  | other

/-- `smhi_rx_buffer`. -/
def rxBuffer (rx : HeciRxMsg) : ℕ → UInt8 := rx.buffer.getD fun _ => 0

/-- The `switch` of `smhi_task`. -/
def dispatch (V : FwVersion) : SmhiEvent → Client → List SmhiOut × Client
  | .newMsg rx now, x =>
      if rx.msgLock = false then ([], x)
      else
        let r := match rx.type with
          | .connect => ([], { x with
              flag := x.flag ||| smhiConnFlag
              connId := rx.connectionId.toUInt32 })
          | .request => smhiProcessMsg V now (rxBuffer rx) x
        (r.1 ++ [.sendFlowControl r.2.connId], r.2)
  | .disconn, x =>
      ([.completeDisconnect x.connId], { x with flag := x.flag &&& ~~~smhiConnFlag })
  | .other, x => ([], x)

/-- **A round of the loop of `smhi_task`.** -/
def smhiTask (V : FwVersion) (e : SmhiEvent) (x : Client) : List SmhiOut × Client :=
  let r := dispatch V e x
  let r' := postSmhiProcess r.2
  (r.1 ++ r'.1, r'.2)

/-! ### What the host relies on -/

/-- The response in an entry of the list of calls: the connection and the bytes. -/
def SmhiOut.response : SmhiOut → Option (UInt32 × List UInt8)
  | .heciSend connId msg => some (connId, msg.flatMap Mrd.bytes)
  | _ => none

/-- The responses among the calls. -/
def responses (outs : List SmhiOut) : List (UInt32 × List UInt8) := outs.filterMap SmhiOut.response

/-- The command in the header of a response. -/
def respCommand (bytes : List UInt8) : UInt8 := command fun i => bytes.getD i 0

/-- The payloads of the responses among the calls. -/
def payloads (outs : List SmhiOut) : List (List UInt8) :=
  (responses outs).map fun r => r.2.drop smhiMsgHdrSize

/-- The commands that are supported. -/
def Supported (c : UInt8) : Prop := c = smhiGetVersion ∨ c = smhiGetTime ∨ c = smhiPseReset

instance (c : UInt8) : Decidable (Supported c) := inferInstanceAs (Decidable (_ ∨ _ ∨ _))

/-- The request the task finds: its command, and the time it is handled at. -/
def SmhiEvent.request : SmhiEvent → Option (UInt8 × UInt64)
  | .newMsg rx now =>
      if rx.msgLock ∧ rx.type = .request then some (command (rxBuffer rx), now) else none
  | _ => none

/-- The command of the request the task finds. -/
def SmhiEvent.command (e : SmhiEvent) : Option UInt8 := e.request.map Prod.fst

/-- **A request is matched**: the round sends one response, on the connection of the client; its
header has the command of the request; and the payload is the same for every request with this
command at this time, whatever the state of the client and its buffer. -/
structure Matched (V : FwVersion) (e : SmhiEvent) (x : Client) : Prop where
  one : ∃ bytes, responses (smhiTask V e x).1 = [(x.connId, bytes)] ∧
    some (respCommand bytes) = e.command
  payload : ∀ e' x', SmhiEvent.request e' = e.request →
    payloads (smhiTask V e' x').1 = payloads (smhiTask V e x).1

/-- **Every supported request of a run is matched.** -/
def RunMatched (V : FwVersion) : Client → List SmhiEvent → Prop
  | _, [] => True
  | x, e :: es =>
      (∀ c ∈ e.command, Supported c → Matched V e x) ∧ RunMatched V (smhiTask V e x).2 es

/-! ### The header and the payload of an answer -/

section answer

variable (V : FwVersion) (now : UInt64) (buf hdr : ℕ → UInt8) (x : Client)

theorem and_or_distrib_right (a b c : UInt8) : (a ||| b) &&& c = (a &&& c) ||| (b &&& c) := by
  refine UInt8.toBitVec_inj.1 (BitVec.eq_of_getElem_eq fun i hi => ?_)
  simp only [UInt8.toBitVec_and, UInt8.toBitVec_or, BitVec.getElem_and, BitVec.getElem_or,
    Bool.and_or_distrib_right]

/-- A store to `command` is read back. -/
theorem command_setCommand (c : UInt8) : command (setCommand c hdr) = c &&& 0x7F := by
  show ((hdr 0 &&& 0x80) ||| (c &&& 0x7F)) &&& 0x7F = c &&& 0x7F
  have hlow : (0x80 : UInt8) &&& 0x7F = 0 := by decide
  have hidem : (0x7F : UInt8) &&& 0x7F = 0x7F := by decide
  rw [and_or_distrib_right, UInt8.and_assoc, UInt8.and_assoc, hlow, hidem, UInt8.and_zero,
    UInt8.zero_or]

/-- The fields every request writes do not meet `command`. -/
theorem command_respHdr : command (respHdr hdr) = command hdr := by
  show (hdr 0 ||| 0x80) &&& 0x7F = hdr 0 &&& 0x7F
  have hlow : (0x80 : UInt8) &&& 0x7F = 0 := by decide
  rw [and_or_distrib_right, hlow, UInt8.or_zero]

/-- The payload does not meet the header. -/
theorem command_write (l : List UInt8) : command (Mem.write hdr smhiMsgHdrSize l) = command hdr :=
  rfl

theorem bytes_mrd (len : ℕ) : [mrd hdr len].flatMap Mrd.bytes = Mem.read hdr 0 len :=
  List.append_nil _

/-- What is sent. -/
theorem responses_sendResp (size : ℕ) : responses (sendResp size hdr x).1 =
    [(x.connId, Mem.read hdr 0 (size + smhiMsgHdrSize))] := by
  rw [← bytes_mrd]
  rfl

theorem payloads_sendResp (size : ℕ) :
    payloads (sendResp size hdr x).1 = [Mem.read hdr smhiMsgHdrSize size] := by
  rw [payloads, responses_sendResp, List.map_singleton, Mem.drop_read, Nat.zero_add,
    Nat.add_sub_cancel]

/-- The command of what is sent is that of the buffer. -/
theorem respCommand_read (size : ℕ) :
    respCommand (Mem.read hdr 0 (size + smhiMsgHdrSize)) = command hdr := by
  have hpos : 0 < (Mem.read hdr 0 (size + smhiMsgHdrSize)).length := by
    rw [Mem.length_read]
    exact Nat.succ_pos _
  show (Mem.read hdr 0 (size + smhiMsgHdrSize)).getD 0 0 &&& 0x7F = hdr 0 &&& 0x7F
  rw [List.getD_eq_getElem _ _ hpos, Mem.getElem_read]

theorem length_versionResp : (versionResp V).length = 8 := by
  simp [versionResp]

/-- **The payload of a command.** -/
def payload (c : UInt8) : List UInt8 :=
  if c = smhiGetVersion then versionResp V
  else if c = smhiGetTime then Heci.le64 now.toNat ++ List.replicate 40 0
  else List.replicate 4 0

/-- The payload of the time: the fields behind the first one are cleared before. -/
theorem read_time : Mem.read (Mem.write (setCommand smhiGetTime
      (Mem.write hdr smhiMsgHdrSize (List.replicate 48 0))) smhiMsgHdrSize
        (Heci.le64 now.toNat)) smhiMsgHdrSize 48 =
    Heci.le64 now.toNat ++ List.replicate 40 0 := by
  have hlen : (Heci.le64 now.toNat).length = 8 := by simp [Heci.le64]
  rw [Mem.read_write_le _ _ (by rw [hlen]; decide), Mem.drop_read, hlen, setCommand,
    Mem.read_write_disjoint _ (Or.inr (Nat.le_add_left 1 11)),
    Mem.read_write_replicate _ _ (by decide) (by decide)]

/-- The command of an answer: that of a reset is not written. -/
def answerCommand (c : UInt8) : UInt8 := if c = smhiPseReset then command x.txBuffer else c

/-- **What a supported request does**: one answer is sent, from the beginning of the buffer. -/
theorem smhiProcessMsg_spec (h : Supported (command buf)) : ∃ tx n flag,
    smhiProcessMsg V now buf x = ((sendResp n tx x).1, ⟨tx, x.connId, flag⟩) ∧
      command tx = answerCommand x (command buf) ∧
      Mem.read tx smhiMsgHdrSize n = payload V now (command buf) := by
  unfold smhiProcessMsg
  dsimp only
  generalize command buf = c at h ⊢
  -- the version, the time, the reset
  rcases h with rfl | rfl | rfl
  · refine ⟨_, 8, x.flag, rfl, ?_, ?_⟩
    · rw [command_write, command_setCommand]
      rfl
    · rw [← length_versionResp V, Mem.read_write_self]
      rfl
  · refine ⟨_, 48, x.flag, rfl, ?_, read_time now _⟩
    rw [command_write, command_setCommand]
    rfl
  · refine ⟨_, 4, x.flag ||| rebootFlag, rfl, ?_, ?_⟩
    -- nothing has written the command
    · rw [command_write, command_respHdr]
      rfl
    · exact Mem.read_write_self _ smhiMsgHdrSize (List.replicate 4 0)

/-- A request that is not supported has no answer. -/
theorem smhiProcessMsg_unsupported (h : ¬ Supported (command buf)) :
    smhiProcessMsg V now buf x = ([], { x with txBuffer := respHdr x.txBuffer }) := by
  unfold smhiProcessMsg
  dsimp only
  rw [if_neg fun h' => h (Or.inl h'), if_neg fun h' => h (Or.inr (Or.inl h')),
    if_neg fun h' => h (Or.inr (Or.inr h'))]

/-- **A supported request has one answer.** -/
theorem responses_smhiProcessMsg (h : Supported (command buf)) :
    ∃ bytes, responses (smhiProcessMsg V now buf x).1 = [(x.connId, bytes)] ∧
      respCommand bytes = answerCommand x (command buf) := by
  obtain ⟨tx, n, flag, hspec, hcmd, -⟩ := smhiProcessMsg_spec V now buf x h
  exact ⟨_, by rw [hspec, responses_sendResp], by rw [respCommand_read, hcmd]⟩

/-- **The payload of every answer is that of its command.** -/
theorem payloads_smhiProcessMsg (h : Supported (command buf)) :
    payloads (smhiProcessMsg V now buf x).1 = [payload V now (command buf)] := by
  obtain ⟨tx, n, flag, hspec, -, hread⟩ := smhiProcessMsg_spec V now buf x h
  rw [hspec, payloads_sendResp, hread]

/-- The command in the buffer, after a request. -/
theorem command_smhiProcessMsg (h : command x.txBuffer ≠ smhiPseReset) :
    command (smhiProcessMsg V now buf x).2.txBuffer ≠ smhiPseReset := by
  by_cases hsup : Supported (command buf)
  · obtain ⟨tx, n, flag, hspec, hcmd, -⟩ := smhiProcessMsg_spec V now buf x hsup
    rw [hspec, hcmd, answerCommand]
    split
    · exact h
    · assumption
  · rw [smhiProcessMsg_unsupported V now buf x hsup, command_respHdr]
    exact h

end answer

/-! ### A round of the task -/

section round

variable (V : FwVersion) {e : SmhiEvent} {x : Client}

/-- Neither a reset nor a credit is a response. -/
theorem responses_smhiTask (e : SmhiEvent) (x : Client) :
    responses (smhiTask V e x).1 = responses (dispatch V e x).1 := by
  have hpost : ∀ y : Client, responses (postSmhiProcess y).1 = [] := by
    intro y
    unfold postSmhiProcess
    split
    · rfl
    · rfl
  unfold smhiTask
  dsimp only
  rw [responses, List.filterMap_append, ← responses, ← responses, hpost, List.append_nil]

/-- The round of a request. -/
theorem responses_of_request {c : UInt8} {now : UInt64} (h : e.request = some (c, now)) :
    ∃ buf, command buf = c ∧ ∀ x,
      responses (smhiTask V e x).1 = responses (smhiProcessMsg V now buf x).1 := by
  cases e with
  | newMsg rx now' =>
      unfold SmhiEvent.request at h
      dsimp only at h
      split at h
      · next hrx =>
          cases h
          refine ⟨rxBuffer rx, rfl, fun x => ?_⟩
          have hlock : ¬ rx.msgLock = false := by
            rw [hrx.1]
            exact Bool.noConfusion
          rw [responses_smhiTask, dispatch, if_neg hlock, hrx.2]
          dsimp only
          rw [responses, List.filterMap_append]
          exact List.append_nil _
      · cases h
  | disconn => cases h
  | other => cases h

/-- **No run leaves the command of a reset in the buffer.** -/
theorem command_ne_smhiPseReset (e : SmhiEvent) (h : command x.txBuffer ≠ smhiPseReset) :
    command (smhiTask V e x).2.txBuffer ≠ smhiPseReset := by
  have hdispatch : command (dispatch V e x).2.txBuffer ≠ smhiPseReset := by
    cases e with
    | newMsg rx now =>
        rw [dispatch]
        split
        · exact h
        · cases rx.type with
          | connect => exact h
          | request => exact command_smhiProcessMsg V now _ x h
    | disconn => exact h
    | other => exact h
  unfold smhiTask postSmhiProcess
  dsimp only
  split
  · decide
  · exact hdispatch

/-- **A request is matched, unless it is a reset.** -/
theorem matched_iff_ne {c : UInt8} (hc : e.command = some c) (hsup : Supported c)
    (h : command x.txBuffer ≠ smhiPseReset) : Matched V e x ↔ c ≠ smhiPseReset := by
  obtain ⟨⟨c', now⟩, hreq, rfl⟩ := Option.map_eq_some_iff.1 hc
  obtain ⟨buf, rfl, hresp⟩ := responses_of_request V hreq
  obtain ⟨bytes, hone, hcmd⟩ := responses_smhiProcessMsg V now buf x hsup
  constructor
  · intro hm hreset
    obtain ⟨bytes', hone', hcmd'⟩ := hm.one
    rw [hresp, hone] at hone'
    cases hone'
    -- the answer to a reset has the command that is in the buffer
    rw [hc, hcmd, answerCommand, if_pos hreset] at hcmd'
    exact h ((Option.some.inj hcmd').trans hreset)
  · intro hne
    refine ⟨⟨bytes, (hresp x).trans hone, ?_⟩, fun e' x' heq => ?_⟩
    · rw [hcmd, hc, answerCommand, if_neg hne]
    · obtain ⟨buf', hbuf', hresp'⟩ := responses_of_request V (heq.trans hreq)
      have hpay := payloads_smhiProcessMsg V now buf' x' (hbuf' ▸ hsup)
      rw [hbuf', ← payloads_smhiProcessMsg V now buf x hsup] at hpay
      rw [payloads, payloads, hresp, hresp']
      exact hpay

end round

/-! ### Runs -/

/-- **The runs whose requests are matched**: those without a reset. -/
theorem runMatched_iff (V : FwVersion) (es : List SmhiEvent) :
    RunMatched V Client.start es ↔ ∀ e ∈ es, e.command ≠ some smhiPseReset := by
  -- the invariant is that the command in the buffer is not that of a reset
  have hrun : ∀ x : Client, command x.txBuffer ≠ smhiPseReset →
      (RunMatched V x es ↔ ∀ e ∈ es, e.command ≠ some smhiPseReset) := by
    induction es with
    | nil => exact fun x _ => iff_of_true trivial fun _ hmem => absurd hmem List.not_mem_nil
    | cons e es ih =>
        intro x hx
        rw [RunMatched, ih _ (command_ne_smhiPseReset V e hx), List.forall_mem_cons]
        refine and_congr ⟨fun h hc => ?_, fun h c hc hsup => ?_⟩ Iff.rfl
        · have hsup : Supported smhiPseReset := Or.inr (Or.inr rfl)
          exact (matched_iff_ne V hc hsup hx).1 (h _ hc hsup) rfl
        · refine (matched_iff_ne V hc hsup hx).2 fun hreset => h ?_
          rw [← hreset]
          exact hc
  exact hrun Client.start (by decide)

/-! ### A reset after the time -/

/-- A message for the client, of one byte. -/
def rxOf (type : Heci.RxMsgType) (b : UInt8) : HeciRxMsg where
  type := type
  connectionId := 1
  msgLock := true
  length := 1
  buffer := some fun _ => b

/-- A release. -/
def release : FwVersion := ⟨1, 2, 3⟩

/-- The host has connected and has asked for the time. -/
def timeAsked : Client :=
  (smhiTask release (.newMsg (rxOf .request smhiGetTime) 0)
    (smhiTask release (.newMsg (rxOf .connect 0) 0) Client.start).2).2

/-- The order to reset. -/
def resetOrder : SmhiEvent := .newMsg (rxOf .request smhiPseReset) 0

/-- After a request for the time, the answer to a reset has the command `SMHI_GET_TIME`. -/
theorem not_runMatched_reset :
    timeAsked.flag = smhiConnFlag ∧ resetOrder.command = some smhiPseReset ∧
      responses (smhiTask release resetOrder timeAsked).1 =
        [(1, [0x88, 0, 0, 0, 0, 0, 0, 0])] ∧
      respCommand [0x88, 0, 0, 0, 0, 0, 0, 0] = smhiGetTime ∧
      ¬ RunMatched release Client.start [.newMsg (rxOf .connect 0) 0,
        .newMsg (rxOf .request smhiGetTime) 0, resetOrder] := by
  have hresp : responses (smhiTask release resetOrder timeAsked).1 =
      [(1, [0x88, 0, 0, 0, 0, 0, 0, 0])] := by decide +kernel
  refine ⟨by decide +kernel, by decide +kernel, hresp, by decide, fun h => ?_⟩
  have hm : Matched release resetOrder timeAsked :=
    h.2.2.1 smhiPseReset (by decide +kernel) (by decide)
  obtain ⟨bytes, hone, hcmd⟩ := hm.one
  rw [hresp] at hone
  cases hone
  exact absurd hcmd (by decide +kernel)

end PseFw.Smhi
