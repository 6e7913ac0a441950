/-
**The management messages.**

Besides HECI frames the mailbox carries management messages: the two sides tell each other that they
were reset, the host says that it goes to sleep or wakes up, it switches the indication of received
messages on and off, and it sends its time.  `sys_mng_handler` answers them.  A management message
is mostly its doorbell; only some of them have a payload.

This module is the part of `sys_mng.c` that reads and writes these messages.  What the messages
about sleep do to the semaphores is the subject of `PseFw.Mng.HostAccess`; here only their answers
matter.

The host sends its time together with the count of the timer both sides share at that moment.  The
firmware adds the time that has passed since, which it computes from its own count of the timer in
64-bit numbers, the multiplication first.

Main definitions:

* `PseFw.SysMng.ipcBuildMngDrbl`, `PseFw.SysMng.IpcMsg` — management doorbells, and what is written;
* `PseFw.SysMng.sendResetToPeer`, `PseFw.SysMng.sendRxComplete`, `PseFw.SysMng.handleHostTimeSync`,
  `PseFw.SysMng.sysMngHandler` — the functions;
* `PseFw.SysMng.TimeSyncOk` — what the host relies on when it sends its time.

Main results:

* `PseFw.SysMng.sysMngHandler_cases` — the cases of a message;
* `PseFw.SysMng.timeSyncOk_iff` — **the times that are set exactly**;
* `PseFw.SysMng.sysMngHandler_clock` — nothing but `MNG_TIME_UPDATE` sets the clock.
-/

import PseFw.Heci.HostIo

set_option relaxedAutoImplicit false
set_option autoImplicit false

namespace PseFw.SysMng

/-! ### Doorbells -/

/-- `IPC_PROTOCOL_MNG`. -/
abbrev ipcProtocolMng : UInt32 := 3

/-- `IPC_HEADER_GET_PROTOCOL`. -/
def ipcHeaderGetProtocol (drbl : UInt32) : UInt32 := (drbl >>> 10) &&& 0x0F

/-- `IPC_HEADER_GET_MNG_CMD`. -/
def ipcHeaderGetMngCmd (drbl : UInt32) : UInt32 := (drbl >>> 16) &&& 0x0F

/-- `IPC_BUILD_MNG_DRBL`. -/
def ipcBuildMngDrbl (cmd length : UInt32) : UInt32 :=
  ((1 : UInt32) <<< 31) ||| (ipcProtocolMng <<< 10) ||| (cmd <<< 16) ||| (length <<< 0)

/-- `MNG_RX_CMPL_ENABLE`. -/
abbrev mngRxCmplEnable : UInt32 := 0
/-- `MNG_RX_CMPL_DISABLE`. -/
abbrev mngRxCmplDisable : UInt32 := 1
/-- `MNG_RX_CMPL_INDICATION`. -/
abbrev mngRxCmplIndication : UInt32 := 2
/-- `MNG_RESET_NOTIFY`. -/
abbrev mngResetNotify : UInt32 := 3
/-- `MNG_RESET_NOTIFY_ACK`. -/
abbrev mngResetNotifyAck : UInt32 := 4
/-- `MNG_TIME_UPDATE`. -/
abbrev mngTimeUpdate : UInt32 := 5
/-- `MNG_RESET_REQUEST`. -/
abbrev mngResetRequest : UInt32 := 6
/-- `MNG_RTD3_NOTIFY`. -/
abbrev mngRtd3Notify : UInt32 := 7
/-- `MNG_RTD3_NOTIFY_ACK`. -/
abbrev mngRtd3NotifyAck : UInt32 := 8
/-- `MNG_D0_NOTIFY`. -/
abbrev mngD0Notify : UInt32 := 9
/-- `MNG_D0_NOTIFY_ACK`. -/
abbrev mngD0NotifyAck : UInt32 := 10

/-! ### State -/

/-- **A call of `ipc_write_msg`**: the doorbell, the bytes the pointer points to, and the number of
them that is passed.  `protocol` and `command` are what the caller built the doorbell from. -/
structure IpcMsg where
  protocol : UInt32
  command : Option UInt32
  drbl : UInt32
  data : List UInt8
  size : ℕ
  deriving DecidableEq, Repr

/-- A management message: `length` is the length in its doorbell. -/
def mngMsg (cmd length : UInt32) (data : List UInt8) (size : ℕ) : IpcMsg where
  protocol := ipcProtocolMng
  command := some cmd
  drbl := ipcBuildMngDrbl cmd length
  data := data
  size := size

/-- `struct timespec`. -/
structure Timespec where
  tvSec : ℕ
  tvNsec : ℕ
  deriving DecidableEq, Repr

/-- What the functions do to the rest of the system. -/
inductive MngOut
  /-- `ipc_write_msg` returned. -/
  | ipcWrite (msg : IpcMsg) (ret : ℤ)
  /-- `ipc_send_ack`. -/
  | ipcSendAck (drbl : UInt32)
  /-- `heci_reset`. -/
  | heciReset
  /-- `sedi_fwst_set(ILUP_HOST, 1)` and `sedi_fwst_set(HECI_READY, 1)`. -/
  | linkUp
  /-- `sedi_pm_set_hostipc_event`. -/
  | hostipcEvent (cmd : UInt32)
  /-- `sedi_tsync_sync`. -/
  | tsyncSync
  deriving DecidableEq, Repr

/-- **The variables of `sys_mng.c` the messages touch**, the real-time clock, and what was done so
far. -/
structure MngLink where
  rxCompleteEnabled : Bool
  rxCompleteChanged : Bool
  lastResetNotifyTime : UInt64
  clock : Timespec
  out : List MngOut

/-- The state the firmware starts in. -/
def MngLink.start : MngLink where
  rxCompleteEnabled := true
  rxCompleteChanged := false
  lastResetNotifyTime := 0
  clock := ⟨0, 0⟩
  out := []

/-- Something is done. -/
def MngLink.log (x : MngLink) (o : MngOut) : MngLink := { x with out := x.out ++ [o] }

/-- **The services below**, and the two rates of the shared timer: the answer of each service to the
call that is made when the list of what was done has the given length. -/
structure MngPlatform where
  hostTimeSync : Bool
  ipcWriteMsg : ℕ → ℤ
  rtcGetUs : ℕ → UInt64
  tsyncGetTime : ℕ → UInt64
  semRtd3Taken : ℕ → Bool
  tsyncHostLocalMulti : UInt64
  tsyncDefaultFreq : UInt64
  multi_ne : tsyncHostLocalMulti ≠ 0
  freq_ne : tsyncDefaultFreq ≠ 0

/-! ### Writing -/

/-- `ipc_write_msg`. -/
def writeMsg (P : MngPlatform) (msg : IpcMsg) (x : MngLink) : ℤ × MngLink :=
  (P.ipcWriteMsg x.out.length, x.log (.ipcWrite msg (P.ipcWriteMsg x.out.length)))

/-- A 16-bit word, least significant byte first. -/
def le16 (n : UInt16) : List UInt8 := [n.toUInt8, (n >>> 8).toUInt8]

/-- `struct reset_payload_tpye`, with `MNG_CAP_SUPPORTED`. -/
def resetPayload (resetId : UInt16) : List UInt8 := le16 resetId ++ le16 1

/-- `MIN_RESET_INTV`. -/
abbrev minResetIntv : UInt64 := 100000

/-- `send_reset_to_peer`. -/
def sendResetToPeer (P : MngPlatform) (command : UInt32) (resetId : UInt16) (x : MngLink) :
    ℤ × MngLink :=
  let currentTime := P.rtcGetUs x.out.length
  if x.lastResetNotifyTime ≠ 0 ∧ currentTime - x.lastResetNotifyTime < minResetIntv ∧
      command = mngResetNotify then (-1, x)
  else
    let r := writeMsg P (mngMsg command 4 (resetPayload resetId) 4) x
    (r.1, if command = mngResetNotify then { r.2 with lastResetNotifyTime := currentTime } else r.2)

/-- `send_rx_complete`. -/
def sendRxComplete (P : MngPlatform) (x : MngLink) : ℤ × MngLink :=
  if x.rxCompleteEnabled then writeMsg P (mngMsg mngRxCmplIndication 0 [] 0) x else (0, x)

/-! ### The time of the host -/

/-- `USEC_PER_SEC`. -/
abbrev usecPerSec : UInt64 := 1000000

/-- `NSEC_PER_USEC`. -/
abbrev nsecPerUsec : UInt64 := 1000

/-- `TFMT_ART_TIME`. -/
abbrev tfmtArtTime : UInt8 := 2

/-- `sizeof(struct host_clock_data)`. -/
abbrev hostClockDataSize : ℕ := 20

/-- A little-endian number of `n` bytes at offset `i`. -/
def wordAt (data : ℕ → UInt8) (n i : ℕ) : ℕ :=
  ((List.range n).map fun k => (data (i + k)).toNat * 256 ^ k).sum

/-- `primary_host_time`. -/
def primaryHostTime (data : ℕ → UInt8) : UInt64 := UInt64.ofNat (wordAt data 8 0)

/-- `time_format.primary_source`. -/
def primarySource (data : ℕ → UInt8) : UInt8 := data 8

/-- `secondary_host_time`. -/
def secondaryHostTime (data : ℕ → UInt8) : UInt64 := UInt64.ofNat (wordAt data 8 12)

/-- `clock_settime`, for a number of microseconds. -/
def clockSettime (us : UInt64) (x : MngLink) : MngLink :=
  { x with clock := ⟨(us / usecPerSec).toNat, (us % usecPerSec * nsecPerUsec).toNat⟩ }

/-- The count of the timer when the host took its time. -/
def hostArtCnt (P : MngPlatform) (data : ℕ → UInt8) : UInt64 :=
  primaryHostTime data / P.tsyncHostLocalMulti

/-- The time since then, in microseconds. -/
def transUs (P : MngPlatform) (data : ℕ → UInt8) (tsyncCnt : UInt64) : UInt64 :=
  (tsyncCnt - hostArtCnt P data) * usecPerSec / P.tsyncDefaultFreq

/-- `handle_host_time_sync`. -/
def handleHostTimeSync (P : MngPlatform) (data : ℕ → UInt8) (dataLen : UInt8) (x : MngLink) :
    MngLink :=
  if dataLen.toNat ≠ hostClockDataSize ∨ primarySource data ≠ tfmtArtTime then x
  else
    let x := x.log .tsyncSync
    let tsyncCnt := P.tsyncGetTime x.out.length
    -- a host that is ahead is not believed
    if tsyncCnt < hostArtCnt P data then x
    else clockSettime (secondaryHostTime data + transUs P data tsyncCnt) x

/-! ### The handler -/

/-- `sys_mng_handler`, up to the dispatch: the message is acknowledged. -/
def mngReceive (P : MngPlatform) (drbl : UInt32) (x : MngLink) : MngLink :=
  (sendRxComplete P (x.log (.ipcSendAck (drbl &&& ~~~((1 : UInt32) <<< 31))))).2

/-- The bytes of a truth value, as an `int`. -/
def intBytes (b : Bool) : List UInt8 := Heci.le32 b.toNat

/-- **`sys_mng_handler`**: `mngInMsg` is what was read from the mailbox. -/
def sysMngHandler (P : MngPlatform) (drbl : UInt32) (mngInMsg : ℕ → UInt8) (x : MngLink) :
    ℤ × MngLink :=
  let cmd := ipcHeaderGetMngCmd drbl
  let x := mngReceive P drbl x
  if cmd = mngRxCmplEnable then
    (0, { x with rxCompleteEnabled := true, rxCompleteChanged := true })
  else if cmd = mngRxCmplDisable then
    (0, { x with rxCompleteEnabled := false, rxCompleteChanged := true })
  else if cmd = mngRxCmplIndication then (0, x)
  else if cmd = mngD0Notify then
    (0, (writeMsg P (mngMsg mngD0NotifyAck 0 [] 0) (x.log (.hostipcEvent cmd))).2)
  else if cmd = mngResetNotify then
    let resetId := UInt16.ofNat (wordAt mngInMsg 2 0)
    (0, (sendResetToPeer P mngResetNotifyAck resetId (x.log .heciReset)).2.log .linkUp)
  else if cmd = mngResetNotifyAck then (0, x.log .linkUp)
  else if cmd = mngTimeUpdate then
    (0, if P.hostTimeSync then
      handleHostTimeSync P mngInMsg (Heci.ipcHeaderGetLength drbl).toUInt8 x
    else x)
  else if cmd = mngResetRequest then (0, x)
  else if cmd = mngRtd3Notify then
    let rtd3Ready := P.semRtd3Taken x.out.length
    let x := if rtd3Ready then x.log (.hostipcEvent cmd) else x
    -- the doorbell announces four bytes, and the length that is passed is zero
    (0, (writeMsg P (mngMsg mngRtd3NotifyAck 4 (intBytes rtd3Ready) 0) x).2)
  else (-1, x)

/-- **What the handler does**, after the message is acknowledged. -/
inductive MngCase (P : MngPlatform) (drbl : UInt32) (mngInMsg : ℕ → UInt8) (x : MngLink) :
    ℤ × MngLink → Prop
  | rxCmpl (b : Bool) : MngCase P drbl mngInMsg x
      (0, { x with rxCompleteEnabled := b, rxCompleteChanged := true })
  | nothing : MngCase P drbl mngInMsg x (0, x)
  | d0Notify : MngCase P drbl mngInMsg x (0, (writeMsg P (mngMsg mngD0NotifyAck 0 [] 0)
      (x.log (.hostipcEvent (ipcHeaderGetMngCmd drbl)))).2)
  | resetNotify : MngCase P drbl mngInMsg x (0, (sendResetToPeer P mngResetNotifyAck
      (UInt16.ofNat (wordAt mngInMsg 2 0)) (x.log .heciReset)).2.log .linkUp)
  | resetNotifyAck : MngCase P drbl mngInMsg x (0, x.log .linkUp)
  | timeUpdate : ipcHeaderGetMngCmd drbl = mngTimeUpdate → MngCase P drbl mngInMsg x
      (0, if P.hostTimeSync then
        handleHostTimeSync P mngInMsg (Heci.ipcHeaderGetLength drbl).toUInt8 x
      else x)
  | rtd3Notify : MngCase P drbl mngInMsg x
      (0, (writeMsg P (mngMsg mngRtd3NotifyAck 4 (intBytes (P.semRtd3Taken x.out.length)) 0)
        (if P.semRtd3Taken x.out.length then x.log (.hostipcEvent (ipcHeaderGetMngCmd drbl))
        else x)).2)
  | invalid : MngCase P drbl mngInMsg x (-1, x)

/-- **The cases of a management message.** -/
theorem sysMngHandler_cases (P : MngPlatform) (drbl : UInt32) (mngInMsg : ℕ → UInt8)
    (x : MngLink) :
    MngCase P drbl mngInMsg (mngReceive P drbl x) (sysMngHandler P drbl mngInMsg x) := by
  unfold sysMngHandler
  dsimp only
  by_cases h₁ : ipcHeaderGetMngCmd drbl = mngRxCmplEnable
  · rw [if_pos h₁]
    exact .rxCmpl true
  rw [if_neg h₁]
  by_cases h₂ : ipcHeaderGetMngCmd drbl = mngRxCmplDisable
  · rw [if_pos h₂]
    exact .rxCmpl false
  rw [if_neg h₂]
  by_cases h₃ : ipcHeaderGetMngCmd drbl = mngRxCmplIndication
  · rw [if_pos h₃]
    exact .nothing
  rw [if_neg h₃]
  by_cases h₄ : ipcHeaderGetMngCmd drbl = mngD0Notify
  · rw [if_pos h₄]
    exact .d0Notify
  rw [if_neg h₄]
  by_cases h₅ : ipcHeaderGetMngCmd drbl = mngResetNotify
  · rw [if_pos h₅]
    exact .resetNotify
  rw [if_neg h₅]
  by_cases h₆ : ipcHeaderGetMngCmd drbl = mngResetNotifyAck
  · rw [if_pos h₆]
    exact .resetNotifyAck
  rw [if_neg h₆]
  by_cases h₇ : ipcHeaderGetMngCmd drbl = mngTimeUpdate
  · rw [if_pos h₇]
    exact .timeUpdate h₇
  rw [if_neg h₇]
  by_cases h₈ : ipcHeaderGetMngCmd drbl = mngResetRequest
  · rw [if_pos h₈]
    exact .nothing
  rw [if_neg h₈]
  by_cases h₉ : ipcHeaderGetMngCmd drbl = mngRtd3Notify
  · rw [if_pos h₉]
    exact .rtd3Notify
  rw [if_neg h₉]
  exact .invalid

/-! ### What the host relies on when it sends its time -/

/-- The payload is a time of the host, with the count of the timer. -/
def IsArtSync (data : ℕ → UInt8) (dataLen : UInt8) : Prop :=
  dataLen.toNat = hostClockDataSize ∧ primarySource data = tfmtArtTime

instance (data : ℕ → UInt8) (dataLen : UInt8) : Decidable (IsArtSync data dataLen) :=
  inferInstanceAs (Decidable (_ ∧ _))

/-- The count the firmware reads when it handles the payload. -/
def syncCnt (P : MngPlatform) (x : MngLink) : UInt64 := P.tsyncGetTime (x.out.length + 1)

/-- A point in time, from its number of microseconds. -/
def Timespec.ofMicros (us : ℕ) : Timespec := ⟨us / 1000000, us % 1000000 * 1000⟩

/-- The ticks since the host took its time. -/
def elapsedTicks (P : MngPlatform) (data : ℕ → UInt8) (x : MngLink) : ℕ :=
  (syncCnt P x).toNat - (hostArtCnt P data).toNat

/-- The microseconds since the host took its time, rounded down. -/
def elapsedMicros (P : MngPlatform) (data : ℕ → UInt8) (x : MngLink) : ℕ :=
  elapsedTicks P data x * 1000000 / P.tsyncDefaultFreq.toNat

/-- The count of the firmware is not behind that of the host. -/
def NotBehind (P : MngPlatform) (data : ℕ → UInt8) (x : MngLink) : Prop :=
  hostArtCnt P data ≤ syncCnt P x

/-- **What the host relies on**: its time is set, as much later as the timer says, no step of the
computation wraps around, and a payload that is not a time, or not one of the past, leaves the clock
alone. -/
structure TimeSyncOk (P : MngPlatform) (data : ℕ → UInt8) (dataLen : UInt8) (x : MngLink) :
    Prop where
  exact : IsArtSync data dataLen → NotBehind P data x →
    (handleHostTimeSync P data dataLen x).clock =
      Timespec.ofMicros ((secondaryHostTime data).toNat + elapsedMicros P data x)
  range : IsArtSync data dataLen → NotBehind P data x →
    (handleHostTimeSync P data dataLen x).clock.tvNsec < 10 ^ 9
  product : IsArtSync data dataLen → NotBehind P data x →
    ((syncCnt P x - hostArtCnt P data) * usecPerSec).toNat = elapsedTicks P data x * 1000000
  sum : IsArtSync data dataLen → NotBehind P data x →
    (secondaryHostTime data + transUs P data (syncCnt P x)).toNat =
      (secondaryHostTime data).toNat + elapsedMicros P data x
  refused : ¬ (IsArtSync data dataLen ∧ NotBehind P data x) →
    (handleHostTimeSync P data dataLen x).clock = x.clock

/-- **The times that fit**: the ticks are few enough for a number of microseconds, and the time is
one of 64 bits. -/
def SyncFits (P : MngPlatform) (data : ℕ → UInt8) (dataLen : UInt8) (x : MngLink) : Prop :=
  IsArtSync data dataLen → NotBehind P data x →
    elapsedTicks P data x * 1000000 < 2 ^ 64 ∧
      (secondaryHostTime data).toNat + elapsedMicros P data x < 2 ^ 64

section timesync

variable {P : MngPlatform} {data : ℕ → UInt8} {dataLen : UInt8} {x : MngLink}

theorem toNat_usecPerSec : usecPerSec.toNat = 1000000 := rfl

theorem toNat_nsecPerUsec : nsecPerUsec.toNat = 1000 := rfl

/-- A number of microseconds of 64 bits is set exactly. -/
theorem clockSettime_clock (us : UInt64) (x : MngLink) :
    (clockSettime us x).clock = Timespec.ofMicros us.toNat := by
  have hsec : (us / usecPerSec).toNat = us.toNat / 1000000 := by
    rw [UInt64.toNat_div, toNat_usecPerSec]
  have hnsec : (us % usecPerSec * nsecPerUsec).toNat = us.toNat % 1000000 * 1000 := by
    have hlt : us.toNat % 1000000 * 1000 < 2 ^ 64 := by omega
    rw [UInt64.toNat_mul, UInt64.toNat_mod, toNat_usecPerSec, toNat_nsecPerUsec,
      Nat.mod_eq_of_lt hlt]
  rw [clockSettime, hsec, hnsec, Timespec.ofMicros]

/-- The timer is read after it was synchronised. -/
theorem tsyncGetTime_log : P.tsyncGetTime (x.log .tsyncSync).out.length = syncCnt P x := by
  rw [syncCnt, MngLink.log, List.length_append]
  rfl

/-- A payload that is a time passes the first check. -/
theorem handleHostTimeSync_of_isArtSync (h : IsArtSync data dataLen) :
    handleHostTimeSync P data dataLen x =
      if syncCnt P x < hostArtCnt P data then x.log .tsyncSync
      else clockSettime (secondaryHostTime data + transUs P data (syncCnt P x))
        (x.log .tsyncSync) := by
  have hacc : ¬ (dataLen.toNat ≠ hostClockDataSize ∨ primarySource data ≠ tfmtArtTime) :=
    not_or.2 ⟨not_not.2 h.1, not_not.2 h.2⟩
  rw [← tsyncGetTime_log]
  exact if_neg hacc

/-- A payload that is not a time, or not one of the past, leaves the clock alone. -/
theorem handleHostTimeSync_refused (h : ¬ (IsArtSync data dataLen ∧ NotBehind P data x)) :
    (handleHostTimeSync P data dataLen x).clock = x.clock := by
  by_cases hart : IsArtSync data dataLen
  · have hcnt : syncCnt P x < hostArtCnt P data := UInt64.not_le.1 fun hle => h ⟨hart, hle⟩
    rw [handleHostTimeSync_of_isArtSync hart, if_pos hcnt]
    rfl
  · rw [handleHostTimeSync, if_pos]
    by_contra hno
    obtain ⟨hlen, hsource⟩ := not_or.1 hno
    exact hart ⟨not_not.1 hlen, not_not.1 hsource⟩

/-- A time is set to what the code computes. -/
theorem handleHostTimeSync_clock (h : IsArtSync data dataLen) (hcnt : NotBehind P data x) :
    (handleHostTimeSync P data dataLen x).clock =
      Timespec.ofMicros (secondaryHostTime data + transUs P data (syncCnt P x)).toNat := by
  have hcnt' : ¬ syncCnt P x < hostArtCnt P data := UInt64.not_lt.2 hcnt
  rw [handleHostTimeSync_of_isArtSync h, if_neg hcnt', clockSettime_clock]

/-- The ticks, as the code computes them. -/
theorem toNat_elapsed (hcnt : NotBehind P data x) :
    (syncCnt P x - hostArtCnt P data).toNat = elapsedTicks P data x :=
  UInt64.toNat_sub_of_le _ _ hcnt

/-- The product is exact if it fits. -/
theorem toNat_product (hcnt : NotBehind P data x) :
    ((syncCnt P x - hostArtCnt P data) * usecPerSec).toNat =
      elapsedTicks P data x * 1000000 % 2 ^ 64 := by
  rw [UInt64.toNat_mul, toNat_elapsed hcnt, toNat_usecPerSec]

/-- **The times that are set exactly.** -/
theorem timeSyncOk_iff (P : MngPlatform) (data : ℕ → UInt8) (dataLen : UInt8) (x : MngLink) :
    TimeSyncOk P data dataLen x ↔ SyncFits P data dataLen x := by
  -- a number that is represented exactly is below the modulus
  refine ⟨fun h hart hcnt => ⟨?_, ?_⟩, fun h => ?_⟩
  · rw [← h.product hart hcnt]
    exact UInt64.toNat_lt _
  · rw [← h.sum hart hcnt]
    exact UInt64.toNat_lt _
  · have hprod : IsArtSync data dataLen → NotBehind P data x →
        ((syncCnt P x - hostArtCnt P data) * usecPerSec).toNat =
          elapsedTicks P data x * 1000000 := by
      intro hart hcnt
      rw [toNat_product hcnt]
      exact Nat.mod_eq_of_lt (h hart hcnt).1
    have hsum : IsArtSync data dataLen → NotBehind P data x →
        (secondaryHostTime data + transUs P data (syncCnt P x)).toNat =
          (secondaryHostTime data).toNat + elapsedMicros P data x := by
      intro hart hcnt
      rw [UInt64.toNat_add, transUs, UInt64.toNat_div, hprod hart hcnt]
      exact Nat.mod_eq_of_lt (h hart hcnt).2
    refine ⟨fun hart hcnt => ?_, fun hart hcnt => ?_, hprod, hsum, handleHostTimeSync_refused⟩
    · rw [handleHostTimeSync_clock hart hcnt, hsum hart hcnt]
    · rw [handleHostTimeSync_clock hart hcnt]
      show _ % 1000000 * 1000 < 10 ^ 9
      omega

end timesync

/-! ### The clock and the other messages -/

section clock

variable (P : MngPlatform) (x : MngLink)

theorem writeMsg_clock (m : IpcMsg) : (writeMsg P m x).2.clock = x.clock := rfl

theorem mngReceive_clock (drbl : UInt32) : (mngReceive P drbl x).clock = x.clock := by
  unfold mngReceive sendRxComplete
  split
  · rfl
  · rfl

theorem sendResetToPeer_clock (command : UInt32) (resetId : UInt16) :
    (sendResetToPeer P command resetId x).2.clock = x.clock := by
  unfold sendResetToPeer
  dsimp only
  split
  · rfl
  · split
    · rfl
    · rfl

/-- **Nothing but `MNG_TIME_UPDATE` sets the clock.** -/
theorem sysMngHandler_clock {drbl : UInt32} (h : ipcHeaderGetMngCmd drbl ≠ mngTimeUpdate)
    (mngInMsg : ℕ → UInt8) : (sysMngHandler P drbl mngInMsg x).2.clock = x.clock := by
  rw [← mngReceive_clock P x drbl]
  have hcase := sysMngHandler_cases P drbl mngInMsg x
  generalize sysMngHandler P drbl mngInMsg x = r at hcase ⊢
  cases hcase with
  | rxCmpl b => rfl
  | nothing => rfl
  | d0Notify => rfl
  | resetNotify => exact sendResetToPeer_clock P _ mngResetNotifyAck _
  | resetNotifyAck => rfl
  | timeUpdate hcmd => exact absurd hcmd h
  | rtd3Notify =>
      rw [writeMsg_clock]
      split
      · rfl
      · rfl
  | invalid => rfl

/-- `MNG_TIME_UPDATE` hands the payload on, with the length of its doorbell as a byte. -/
theorem sysMngHandler_timeUpdate {drbl : UInt32} (h : ipcHeaderGetMngCmd drbl = mngTimeUpdate)
    (hP : P.hostTimeSync = true) (mngInMsg : ℕ → UInt8) :
    sysMngHandler P drbl mngInMsg x = (0, handleHostTimeSync P mngInMsg
      (Heci.ipcHeaderGetLength drbl).toUInt8 (mngReceive P drbl x)) := by
  have hne : mngTimeUpdate ≠ mngRxCmplEnable ∧ mngTimeUpdate ≠ mngRxCmplDisable ∧
      mngTimeUpdate ≠ mngRxCmplIndication ∧ mngTimeUpdate ≠ mngD0Notify ∧
      mngTimeUpdate ≠ mngResetNotify ∧ mngTimeUpdate ≠ mngResetNotifyAck := by decide
  obtain ⟨h₁, h₂, h₃, h₄, h₅, h₆⟩ := hne
  rw [sysMngHandler, h]
  dsimp only
  rw [if_neg h₁, if_neg h₂, if_neg h₃, if_neg h₄, if_neg h₅, if_neg h₆, if_pos rfl, if_pos hP]

end clock

/-! ### A host that is late -/

/-- A platform with a timer of 100 MHz that stands at the given count. -/
def MngPlatform.nominal (tsyncCnt : UInt64) : MngPlatform where
  hostTimeSync := true
  ipcWriteMsg := fun _ => 0
  rtcGetUs := fun _ => 0
  tsyncGetTime := fun _ => tsyncCnt
  semRtd3Taken := fun _ => true
  tsyncHostLocalMulti := 1
  tsyncDefaultFreq := 100000000
  multi_ne := by decide
  freq_ne := by decide

/-- The host took its time when both the time and the count of the timer were zero. -/
def timeAtZero : ℕ → UInt8 := fun i => if i = 8 then tfmtArtTime else 0

/-- After 200000 seconds, which are more than two days, the clock is set to the first day. -/
theorem not_timeSyncOk_days :
    IsArtSync timeAtZero 20 ∧
      elapsedMicros (MngPlatform.nominal 20000000000000) timeAtZero MngLink.start =
        200000000000 ∧
      (handleHostTimeSync (MngPlatform.nominal 20000000000000) timeAtZero 20 MngLink.start).clock =
        ⟨15532, 559262000⟩ ∧
      ¬ TimeSyncOk (MngPlatform.nominal 20000000000000) timeAtZero 20 MngLink.start := by
  have hart : IsArtSync timeAtZero 20 := by decide
  have hset : (handleHostTimeSync (MngPlatform.nominal 20000000000000) timeAtZero 20
      MngLink.start).clock = ⟨15532, 559262000⟩ := by decide +kernel
  refine ⟨hart, by decide +kernel, hset, fun h => ?_⟩
  have hexact := h.exact hart (by decide +kernel : _ ≤ _)
  rw [hset] at hexact
  exact absurd hexact (by decide +kernel)

end PseFw.SysMng
