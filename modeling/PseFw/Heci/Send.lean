/-
**Sending to the host: length check, fragmentation, credit.**

`heci_send` takes a chain of memory descriptors.  It checks the length of the message against the
limit of the client, waits for flow-control credit, writes the message either by DMA or as a
sequence of frames of at most 124 bytes, and takes one credit for it.

The two loops of `send_client_msg_ipc` walk descriptors and fragments with independent boundaries:
`PseFw.Heci.fillFragment` is the inner loop, which fills one fragment from the chain, and
`PseFw.Heci.sendFragments` the outer one, which writes a fragment in each turn.

The device lock is released while a sender waits and while a DMA copy runs.  This module describes
the call as it runs when nobody else intervenes; the interleavings are those of
`PseFw.Heci.Threads`, which uses the same pieces.

Main definitions:

* `PseFw.Heci.calSendMsgLen` — the length check;
* `PseFw.Heci.fillFragment`, `PseFw.Heci.sendFragments`, `PseFw.Heci.sendClientMsgIpc` — the frames;
* `PseFw.Heci.wantsDma`, `PseFw.Heci.finishSend` — the choice of the path, and the credit;
* `PseFw.Heci.heciSend` — the uninterrupted call.

Main results:

* `PseFw.Heci.ioStep_sendClientMsgIpc` — writing the frames leaves the tables alone.
-/

import PseFw.Heci.ClientMsg

set_option relaxedAutoImplicit false
set_option autoImplicit false

namespace PseFw.Heci

/-! ### The length check -/

/-- The loop of `cal_send_msg_len`: the total length, or a negative number.  The sum is a 32-bit
number. -/
def sumMrdLen (maxSize : ℕ) : List Mrd → ℕ → ℤ
  | [], totalLen => totalLen
  | m :: ms, totalLen =>
      if m.len = 0 ∨ m.buf.isNone then -1
      else
        let totalLen := (totalLen + m.len) % 2 ^ 32
        if totalLen > maxSize ∨ totalLen > heciMaxMsgSize ∨ m.len > heciMaxMsgSize then -1
        else sumMrdLen maxSize ms totalLen

/-- `cal_send_msg_len`. -/
def calSendMsgLen (c : ConnId) (msg : List Mrd) (s : HeciDev) : Option ℤ :=
  let conn := s.connections c
  if conn.has connStateOpen = false then some (-1)
  else
    match conn.client with
    | none => none
    | some i => some (sumMrdLen (s.clients i).properties.maxMsgSize msg 0)

/-! ### The frames of a message -/

/-- The inner loop of `send_client_msg_ipc`: copy from the chain, of whose first descriptor
`doneBytes` are already sent, until the fragment is full or the chain is at its end. -/
def fillFragment : List Mrd → ℕ → List UInt8 → List UInt8 × List Mrd × ℕ
  | [], doneBytes, frag => (frag, [], doneBytes)
  | m :: ms, doneBytes, frag =>
      if frag.length < heciMaxPayloadSize then
        let copySize := min (m.len - doneBytes) (heciMaxPayloadSize - frag.length)
        let frag := frag ++ (m.bytes.drop doneBytes).take copySize
        let doneBytes := doneBytes + copySize
        if doneBytes = m.len then fillFragment ms 0 frag
        -- the descriptor has bytes left, so the fragment is full and the loop ends
        else (frag, m :: ms, doneBytes)
      else (frag, m :: ms, doneBytes)

/-- The outer loop of `send_client_msg_ipc`: one frame a turn, the last one marked. -/
def sendFragments (P : Platform) (hostAddr fwAddr : UInt8) :
    ℕ → List Mrd → ℕ → HeciDev → Bool × HeciDev
  | _, [], _, s => (true, s)
  | 0, _ :: _, _, s => (false, s)
  | fuel + 1, m :: ms, doneBytes, s =>
      match fillFragment (m :: ms) doneBytes [] with
      | (frag, rest, doneBytes) =>
          let busMsg := HeciBusMsg.mk' hostAddr fwAddr rest.isEmpty frag
          let fragmentSize := frag.length + heciHdrSize
          let outDrbl := ipcBuildDrbl (UInt32.ofNat fragmentSize) ipcProtocolHeci
          let r := ipcWriteMsg P outDrbl busMsg fragmentSize s
          if r.1 ≠ 0 then (false, r.2) else sendFragments P hostAddr fwAddr fuel rest doneBytes r.2

/-- A bound on the turns of the outer loop: each one takes a byte or a descriptor. -/
def fragmentTurns (msg : List Mrd) : ℕ := (chainBytes msg).length + msg.length

/-- `send_client_msg_ipc`. -/
def sendClientMsgIpc (P : Platform) (conn : HeciConn) (msg : List Mrd) (s : HeciDev) :
    Bool × HeciDev :=
  withHostAccess P false
    (sendFragments P conn.hostAddr conn.fwAddr (fragmentTurns msg) msg 0) s

/-! ### The whole call -/

/-- Whether `heci_send` tries DMA.  The client is only looked at for long messages. -/
def wantsDma (P : Platform) (c : ConnId) (totalLen : ℤ) (s : HeciDev) : Option (Bool × HeciDev) :=
  if P.useDma = true ∧ totalLen > configHeciDmaThreshold then
    let s := s.log (.clientRead c)
    match (s.connections c).client with
    | none => none
    | some i => some ((s.clients i).properties.dmaEnabled, s)
  else some (false, s)

/-- The end of `heci_send`: a message that was sent takes one credit. -/
def finishSend (c : ConnId) (sent : Bool) (s : HeciDev) : HeciDev :=
  if sent then
    let conn := s.connections c
    (s.log (.creditTaken c conn.hostBuffers)).setConn c
      { conn with hostBuffers := conn.hostBuffers - 1 }
  else s

/-- The part of `heci_send` after a failed attempt at DMA, or without one. -/
def sendByIpc (P : Platform) (c : ConnId) (msg : List Mrd) (s : HeciDev) : Bool × HeciDev :=
  let r := sendClientMsgIpc P (s.connections c) msg s
  (r.1, finishSend c r.1 r.2)

/-- The part of `heci_send` that runs once there is credit, without interruption. -/
def heciTransmit (P : Platform) (c : ConnId) (totalLen : ℤ) (msg : List Mrd) (s : HeciDev) :
    Option (Bool × HeciDev) :=
  match wantsDma P c totalLen s with
  | none => none
  | some (false, s) => some (sendByIpc P c msg s)
  | some (true, s) =>
      match sendClientMsgDma P (s.connections c).fwAddr (s.connections c).hostAddr msg s with
      | (true, s) => some (true, finishSend c true s)
      | (false, s) => some (sendByIpc P c msg s)

/-- **`heci_send`, run without interruption.**  Without credit the call registers as a waiter, uses
up what the semaphore holds, and gives up at its timeout. -/
def heciSend (P : Platform) (c : ConnId) (msg : List Mrd) (s : HeciDev) :
    Option (Bool × HeciDev) :=
  match calSendMsgLen c msg s with
  | none => none
  | some totalLen =>
      if totalLen < 0 then some (false, s)
      else
        let conn := s.connections c
        if conn.hostBuffers = 0 then
          match conn.flowCtrlSem with
          | none => none
          | some q =>
              some (false, (s.setConn c { conn with
                waitThreadCount := conn.waitThreadCount + 1 }).setSem q 0)
        else heciTransmit P c totalLen msg s

/-! ### What writing the frames leaves alone -/

/-- A frame between the two addresses. -/
def IsClientFrame (fwAddr hostAddr : UInt8) (f : HeciBusMsg) : Prop :=
  f.hdr.fwAddr = fwAddr ∧ f.hdr.hostAddr = hostAddr

theorem ioStep_ipcWriteMsg {W : HeciBusMsg → Prop} (P : Platform) {msg : HeciBusMsg} (hW : W msg)
    (s : HeciDev) :
    IoStep W s (ipcWriteMsg P (frameDrbl msg) msg (msg.hdr.len + heciHdrSize) s).2 :=
  IoStep.log_access (IoEvent.write _ hW) s

theorem ioStep_withHostAccess {α : Type} {W : HeciBusMsg → Prop} (P : Platform) (failed : α)
    {body : HeciDev → α × HeciDev} (hbody : ∀ s, IoStep W s (body s).2) (s : HeciDev) :
    IoStep W s (withHostAccess P failed body s).2 := by
  unfold withHostAccess
  split
  · dsimp only
    have hreq := IoStep.log_access (W := W)
      (IoEvent.hostAccessReq (P.hostAccessReq s.events.length)) s
    split
    · exact hreq
    · exact (hreq.trans (hbody _)).trans (IoStep.log_access (IoEvent.hostAccessDereq _) _)
  · exact hbody s

theorem ioStep_sendFragments (P : Platform) (h f : UInt8) (fuel : ℕ) (msg : List Mrd)
    (doneBytes : ℕ) (s : HeciDev) :
    IoStep (IsClientFrame f h) s (sendFragments P h f fuel msg doneBytes s).2 := by
  induction fuel generalizing msg doneBytes s with
  | zero =>
      cases msg with
      | nil => exact IoStep.refl _ s
      | cons m ms => exact IoStep.refl _ s
  | succ fuel ih =>
      cases msg with
      | nil => exact IoStep.refl _ s
      | cons m ms =>
          simp only [sendFragments]
          have hframe : IsClientFrame f h (HeciBusMsg.mk' h f
              (fillFragment (m :: ms) doneBytes []).2.1.isEmpty
              (fillFragment (m :: ms) doneBytes []).1) := ⟨rfl, rfl⟩
          have hw := ioStep_ipcWriteMsg P hframe s
          split
          · exact hw
          · exact hw.trans (ih _ _ _)

/-- **Writing the frames of a message leaves the tables alone.** -/
theorem ioStep_sendClientMsgIpc (P : Platform) (conn : HeciConn) (msg : List Mrd) (s : HeciDev) :
    IoStep (IsClientFrame conn.fwAddr conn.hostAddr) s (sendClientMsgIpc P conn msg s).2 :=
  ioStep_withHostAccess P false (fun s => ioStep_sendFragments P _ _ _ msg 0 s) s

end PseFw.Heci
