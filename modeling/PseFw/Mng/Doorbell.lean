/-
**Doorbells that tell the truth.**

The host takes the doorbell's word for the length, the protocol and the command of a message.  Every
function that writes a message builds the doorbell itself, and passes the length to `ipc_write_msg`
once more; the two have to agree.  This module goes through all the places in which the firmware
writes to the host: the bus messages and the frames of HECI, and the messages of the system
management.

In one place they do not agree: the answer to `MNG_RTD3_NOTIFY` announces the four bytes of its
payload, and no byte is passed.

Main definitions:

* `PseFw.SysMng.HostWrite` — the messages the firmware writes;
* `PseFw.SysMng.DoorbellOk` — the doorbell of a message tells the truth.

Main results:

* `PseFw.SysMng.doorbellOk_frame`, `PseFw.SysMng.doorbellOk_mngMsg` — the doorbells that are built
  from the length that is passed;
* `PseFw.SysMng.doorbellOk_iff` — **every doorbell but one tells the truth**.
-/

import PseFw.Heci.Fragment
import PseFw.Mng.Handler

set_option relaxedAutoImplicit false
set_option autoImplicit false

namespace PseFw.SysMng

open Heci (HeciDev HeciBusMsg Platform Mrd)

/-! ### What a doorbell says -/

/-- **The doorbell tells the truth**: decoded, it gives the number of bytes that are passed, the
protocol, and the command of a management message. -/
structure DoorbellOk (m : IpcMsg) : Prop where
  length : (Heci.ipcHeaderGetLength m.drbl).toNat = m.size
  protocol : ipcHeaderGetProtocol m.drbl = m.protocol
  command : ∀ c ∈ m.command, ipcHeaderGetMngCmd m.drbl = c

/-- The command, without a quantifier. -/
theorem command_iff (m : IpcMsg) : (∀ c ∈ m.command, ipcHeaderGetMngCmd m.drbl = c) ↔
    m.command = none ∨ m.command = some (ipcHeaderGetMngCmd m.drbl) := by
  cases m.command with
  | none => exact iff_of_true (fun c hc => absurd hc (Option.not_mem_none c)) (Or.inl rfl)
  | some c =>
      rw [or_iff_right (Option.some_ne_none c), Option.some.injEq]
      exact ⟨fun h => (h c rfl).symm, fun h d hd => h.symm.trans (Option.some.inj hd)⟩

instance (m : IpcMsg) : Decidable (DoorbellOk m) :=
  decidable_of_iff ((Heci.ipcHeaderGetLength m.drbl).toNat = m.size ∧
      ipcHeaderGetProtocol m.drbl = m.protocol ∧
      (m.command = none ∨ m.command = some (ipcHeaderGetMngCmd m.drbl)))
    ⟨fun h => ⟨h.1, h.2.1, (command_iff m).2 h.2.2⟩,
      fun h => ⟨h.length, h.protocol, (command_iff m).1 h.command⟩⟩

/-- The protocol is read back from the doorbell of a frame. -/
theorem ipcHeaderGetProtocol_ipcBuildDrbl {n : ℕ} (hn : n ≤ Heci.heciIpcPacketSize) :
    ipcHeaderGetProtocol (Heci.ipcBuildDrbl (UInt32.ofNat n) Heci.ipcProtocolHeci) =
      Heci.ipcProtocolHeci := by
  have h : ∀ k : Fin 129, ipcHeaderGetProtocol
      (Heci.ipcBuildDrbl (UInt32.ofNat k) Heci.ipcProtocolHeci) = Heci.ipcProtocolHeci := by
    decide
  exact h ⟨n, by simp only [Heci.heciIpcPacketSize] at hn; omega⟩

/-- The length, the protocol and the command are read back from a management doorbell. -/
theorem decode_ipcBuildMngDrbl {cmd : UInt32} {n : ℕ} (hcmd : cmd ≤ mngD0NotifyAck)
    (hn : n ≤ Heci.heciIpcPacketSize) :
    (Heci.ipcHeaderGetLength (ipcBuildMngDrbl cmd (UInt32.ofNat n))).toNat = n ∧
      ipcHeaderGetProtocol (ipcBuildMngDrbl cmd (UInt32.ofNat n)) = ipcProtocolMng ∧
      ipcHeaderGetMngCmd (ipcBuildMngDrbl cmd (UInt32.ofNat n)) = cmd := by
  have h : ∀ c : Fin 11, ∀ k : Fin 129,
      (Heci.ipcHeaderGetLength (ipcBuildMngDrbl (UInt32.ofNat c) (UInt32.ofNat k))).toNat = k ∧
        ipcHeaderGetProtocol (ipcBuildMngDrbl (UInt32.ofNat c) (UInt32.ofNat k)) =
          ipcProtocolMng ∧
        ipcHeaderGetMngCmd (ipcBuildMngDrbl (UInt32.ofNat c) (UInt32.ofNat k)) =
          UInt32.ofNat c := by decide +kernel
  have hlt : cmd.toNat < 11 := Nat.lt_succ_of_le (UInt32.le_iff_toNat_le.1 hcmd)
  have hdec := h ⟨cmd.toNat, hlt⟩ ⟨n, by simp only [Heci.heciIpcPacketSize] at hn; omega⟩
  rwa [UInt32.ofNat_toNat] at hdec

/-- **A management message whose doorbell is built from the length that is passed.** -/
theorem doorbellOk_mngMsg {cmd : UInt32} {n : ℕ} (hcmd : cmd ≤ mngD0NotifyAck)
    (hn : n ≤ Heci.heciIpcPacketSize) (data : List UInt8) :
    DoorbellOk (mngMsg cmd (UInt32.ofNat n) data n) := by
  obtain ⟨hlen, hproto, hc⟩ := decode_ipcBuildMngDrbl hcmd hn
  refine ⟨hlen, hproto, fun c hmem => ?_⟩
  cases hmem
  exact hc

/-! ### The frames of HECI -/

/-- A frame that is written, with the doorbell and the number of bytes that are passed. -/
def frameMsg (drbl : UInt32) (msg : HeciBusMsg) (len : ℕ) : IpcMsg where
  protocol := Heci.ipcProtocolHeci
  command := none
  drbl := drbl
  data := Heci.packetBytes msg
  size := len

/-- What an event of the HECI layer writes. -/
def heciMsg : Heci.Event → Option IpcMsg
  | .ipcWrite drbl msg len _ => some (frameMsg drbl msg len)
  | _ => none

/-- **A frame that fits into a packet**, written with the length of its header. -/
theorem doorbellOk_frame {msg : HeciBusMsg} (h : msg.hdr.len ≤ Heci.heciMaxPayloadSize) :
    DoorbellOk (frameMsg (Heci.frameDrbl msg) msg (msg.hdr.len + Heci.heciHdrSize)) := by
  have hn : msg.hdr.len + Heci.heciHdrSize ≤ Heci.heciIpcPacketSize := by
    simp only [Heci.heciMaxPayloadSize, Heci.heciIpcPacketSize, Heci.heciHdrSize] at h ⊢
    omega
  exact ⟨Heci.ipcHeaderGetLength_frameDrbl h, ipcHeaderGetProtocol_ipcBuildDrbl hn, nofun⟩

/-- The frames fit into packets. -/
def FitsPacket (msg : HeciBusMsg) : Prop := msg.hdr.len ≤ Heci.heciMaxPayloadSize

/-- What a step writes that only writes frames that fit. -/
theorem doorbellOk_of_ioStep {s s' : HeciDev} (h : Heci.IoStep FitsPacket s s') {m : IpcMsg}
    (hm : m ∈ (s'.events.drop s.events.length).filterMap heciMsg) :
    DoorbellOk m ∧ m.protocol = Heci.ipcProtocolHeci ∧ m.command = none := by
  obtain ⟨evs, he, hev⟩ := h.events
  rw [he, List.drop_left] at hm
  -- requests for access to the host are no messages
  obtain ⟨e, hmem, heq⟩ := List.mem_filterMap.1 hm
  cases hev e hmem with
  | hostAccessReq r => cases heq
  | hostAccessDereq r => cases heq
  | write r hfits =>
      cases heq
      exact ⟨doorbellOk_frame hfits, rfl, rfl⟩

/-- A fragment fits into a packet. -/
theorem length_fillFragment_le (msg : List Mrd) (doneBytes : ℕ) (frag : List UInt8)
    (h : frag.length ≤ Heci.heciMaxPayloadSize) :
    (Heci.fillFragment msg doneBytes frag).1.length ≤ Heci.heciMaxPayloadSize := by
  induction msg generalizing doneBytes frag with
  | nil => exact h
  | cons m ms ih =>
      rw [Heci.fillFragment]
      split
      · next hlt =>
          have hgrow : (frag ++ (m.bytes.drop doneBytes).take (min (m.len - doneBytes)
              (Heci.heciMaxPayloadSize - frag.length))).length ≤ Heci.heciMaxPayloadSize := by
            rw [List.length_append, List.length_take]
            omega
          dsimp only
          split
          · exact ih 0 _ hgrow
          · exact hgrow
      · exact h

/-- The frames of a message fit into packets. -/
theorem ioStep_sendFragments_fits (P : Platform) (h f : UInt8) (fuel : ℕ) (msg : List Mrd)
    (doneBytes : ℕ) (s : HeciDev) :
    Heci.IoStep FitsPacket s (Heci.sendFragments P h f fuel msg doneBytes s).2 := by
  induction fuel generalizing msg doneBytes s with
  | zero =>
      cases msg with
      | nil => exact Heci.IoStep.refl _ s
      | cons m ms => exact Heci.IoStep.refl _ s
  | succ fuel ih =>
      cases msg with
      | nil => exact Heci.IoStep.refl _ s
      | cons m ms =>
          simp only [Heci.sendFragments]
          have hfits : FitsPacket (HeciBusMsg.mk' h f
              (Heci.fillFragment (m :: ms) doneBytes []).2.1.isEmpty
              (Heci.fillFragment (m :: ms) doneBytes []).1) :=
            length_fillFragment_le _ _ [] (Nat.zero_le _)
          have hw := Heci.ioStep_ipcWriteMsg (W := FitsPacket) P hfits s
          split
          · exact hw
          · exact hw.trans (ih _ _ _)

theorem ioStep_sendClientMsgIpc_fits (P : Platform) (conn : Heci.HeciConn) (msg : List Mrd)
    (s : HeciDev) : Heci.IoStep FitsPacket s (Heci.sendClientMsgIpc P conn msg s).2 :=
  Heci.ioStep_withHostAccess P false (fun s => ioStep_sendFragments_fits P _ _ _ msg 0 s) s

/-! ### The messages of the system management -/

/-- What an entry of the list of what was done writes. -/
def MngOut.msg : MngOut → Option IpcMsg
  | .ipcWrite m _ => some m
  | _ => none

/-- The messages a function of the system management has written. -/
def written (x x' : MngLink) : List IpcMsg := (x'.out.drop x.out.length).filterMap MngOut.msg

/-- A step that only writes messages that satisfy `Q`. -/
def OnlyWrites (Q : IpcMsg → Prop) (x x' : MngLink) : Prop :=
  ∃ outs, x'.out = x.out ++ outs ∧ ∀ o ∈ outs, ∀ m ∈ o.msg, Q m

/-- The doorbell tells the truth, unless the message is the answer to `MNG_RTD3_NOTIFY`. -/
def Announced (m : IpcMsg) : Prop := DoorbellOk m ↔ m.command ≠ some mngRtd3NotifyAck

namespace OnlyWrites

variable {Q : IpcMsg → Prop} {P : MngPlatform} {x x' x'' : MngLink}

theorem mem_written (h : OnlyWrites Q x x') {m : IpcMsg} (hm : m ∈ written x x') : Q m := by
  obtain ⟨outs, he, hout⟩ := h
  rw [written, he, List.drop_left] at hm
  obtain ⟨o, hmem, heq⟩ := List.mem_filterMap.1 hm
  exact hout o hmem m heq

/-- Nothing is done. -/
theorem of_out (h : x'.out = x.out) : OnlyWrites Q x x' :=
  ⟨[], by rw [h, List.append_nil], fun _ hmem => absurd hmem List.not_mem_nil⟩

theorem trans (h : OnlyWrites Q x x') (h' : OnlyWrites Q x' x'') : OnlyWrites Q x x'' := by
  obtain ⟨outs, he, hout⟩ := h
  obtain ⟨outs', he', hout'⟩ := h'
  refine ⟨outs ++ outs', by rw [he', he, List.append_assoc], fun o hmem => ?_⟩
  rcases List.mem_append.1 hmem with hmem | hmem
  · exact hout o hmem
  · exact hout' o hmem

/-- Something is done. -/
theorem log (h : OnlyWrites Q x x') {o : MngOut} (ho : ∀ m ∈ o.msg, Q m) :
    OnlyWrites Q x (x'.log o) := by
  refine h.trans ⟨[o], rfl, fun o' hmem => ?_⟩
  rw [List.mem_singleton.1 hmem]
  exact ho

/-- A message is written. -/
theorem write (h : OnlyWrites Q x x') {m : IpcMsg} (hm : Q m) :
    OnlyWrites Q x (writeMsg P m x').2 := by
  refine h.log fun m' hmem => ?_
  cases hmem
  exact hm

end OnlyWrites

/-- A message whose doorbell is built from the length that is passed, and which is not the answer to
`MNG_RTD3_NOTIFY`. -/
theorem announced_mngMsg {cmd : UInt32} {n : ℕ} (hcmd : cmd ≤ mngD0NotifyAck)
    (hne : cmd ≠ mngRtd3NotifyAck) (hn : n ≤ Heci.heciIpcPacketSize) (data : List UInt8) :
    Announced (mngMsg cmd (UInt32.ofNat n) data n) :=
  iff_of_true (doorbellOk_mngMsg hcmd hn data) fun h => hne (Option.some.inj h)

/-- The answer to `MNG_RTD3_NOTIFY` announces four bytes. -/
theorem announced_rtd3NotifyAck (data : List UInt8) :
    Announced (mngMsg mngRtd3NotifyAck 4 data 0) := by
  refine iff_of_false (fun h => ?_) (not_not.2 rfl)
  -- the decoded length against the one that is passed
  have hlen : (Heci.ipcHeaderGetLength (ipcBuildMngDrbl mngRtd3NotifyAck 4)).toNat = 4 :=
    (decode_ipcBuildMngDrbl (by decide) (n := 4) (by decide)).1
  have hzero : 4 = 0 := hlen.symm.trans h.length
  cases hzero

section handler

variable (P : MngPlatform) (x : MngLink)

theorem onlyWrites_sendRxComplete : OnlyWrites Announced x (sendRxComplete P x).2 := by
  unfold sendRxComplete
  split
  · exact (OnlyWrites.of_out rfl).write
      (announced_mngMsg (n := 0) (by decide) (by decide) (by decide) [])
  · exact OnlyWrites.of_out rfl

theorem onlyWrites_sendResetToPeer {command : UInt32}
    (hcmd : command = mngResetNotify ∨ command = mngResetNotifyAck) (resetId : UInt16) :
    OnlyWrites Announced x (sendResetToPeer P command resetId x).2 := by
  have hmsg : Announced (mngMsg command (UInt32.ofNat 4) (resetPayload resetId) 4) := by
    rcases hcmd with rfl | rfl
    · exact announced_mngMsg (by decide) (by decide) (by decide) _
    · exact announced_mngMsg (by decide) (by decide) (by decide) _
  unfold sendResetToPeer
  dsimp only
  split
  · exact OnlyWrites.of_out rfl
  · have hw : OnlyWrites Announced x
        (writeMsg P (mngMsg command (UInt32.ofNat 4) (resetPayload resetId) 4) x).2 :=
      (OnlyWrites.of_out rfl).write hmsg
    split
    · exact hw.trans (OnlyWrites.of_out rfl)
    · exact hw

theorem onlyWrites_handleHostTimeSync (data : ℕ → UInt8) (dataLen : UInt8) :
    OnlyWrites Announced x (handleHostTimeSync P data dataLen x) := by
  have hsync : OnlyWrites Announced x (x.log .tsyncSync) :=
    (OnlyWrites.of_out rfl).log fun _ hmem => absurd hmem (Option.not_mem_none _)
  unfold handleHostTimeSync
  split
  · exact OnlyWrites.of_out rfl
  · dsimp only
    split
    · exact hsync
    · exact hsync.trans (OnlyWrites.of_out rfl)

/-- **What the handler writes.** -/
theorem onlyWrites_sysMngHandler (drbl : UInt32) (mngInMsg : ℕ → UInt8) :
    OnlyWrites Announced x (sysMngHandler P drbl mngInMsg x).2 := by
  -- an entry that is not a message
  have hother : ∀ {y : MngLink} {o : MngOut}, o.msg = none → OnlyWrites Announced x y →
      OnlyWrites Announced x (y.log o) := by
    intro y o ho hy
    refine hy.log fun m hmem => ?_
    rw [ho] at hmem
    exact absurd hmem (Option.not_mem_none _)
  have hrecv : OnlyWrites Announced x (mngReceive P drbl x) :=
    (hother rfl (OnlyWrites.of_out rfl)).trans (onlyWrites_sendRxComplete P _)
  have hcase := sysMngHandler_cases P drbl mngInMsg x
  generalize sysMngHandler P drbl mngInMsg x = r at hcase ⊢
  cases hcase with
  | rxCmpl b => exact hrecv.trans (OnlyWrites.of_out rfl)
  | nothing => exact hrecv
  | d0Notify =>
      exact (hother rfl hrecv).write
        (announced_mngMsg (n := 0) (by decide) (by decide) (by decide) [])
  | resetNotify =>
      have hreset := (hother (o := .heciReset) rfl hrecv).trans
        (onlyWrites_sendResetToPeer P _ (Or.inr rfl) (UInt16.ofNat (wordAt mngInMsg 2 0)))
      exact hother rfl hreset
  | resetNotifyAck => exact hother rfl hrecv
  | timeUpdate _ =>
      split
      · exact hrecv.trans (onlyWrites_handleHostTimeSync P _ _ _)
      · exact hrecv
  | rtd3Notify =>
      refine OnlyWrites.write ?_ (announced_rtd3NotifyAck _)
      split
      · exact hother rfl hrecv
      · exact hrecv
  | invalid => exact hrecv

end handler

/-! ### The messages the firmware writes -/

/-- **The messages the firmware writes to the host.**  A bus message fits into a packet, and only
two commands are passed to `send_reset_to_peer`. -/
inductive HostWrite : IpcMsg → Prop
  | proto {P : Platform} {hostAddr fwAddr : UInt8} {lastFrag : Bool} {data : List UInt8}
      {s : HeciDev} {m : IpcMsg} : data.length ≤ Heci.heciMaxPayloadSize →
      m ∈ ((Heci.heciSendProtoMsg P hostAddr fwAddr lastFrag data s).2.events.drop
        s.events.length).filterMap heciMsg → HostWrite m
  | client {P : Platform} {conn : Heci.HeciConn} {msg : List Mrd} {s : HeciDev} {m : IpcMsg} :
      m ∈ ((Heci.sendClientMsgIpc P conn msg s).2.events.drop s.events.length).filterMap heciMsg →
      HostWrite m
  | resetToPeer {P : MngPlatform} {command : UInt32} {resetId : UInt16} {x : MngLink}
      {m : IpcMsg} : command = mngResetNotify ∨ command = mngResetNotifyAck →
      m ∈ written x (sendResetToPeer P command resetId x).2 → HostWrite m
  | rxComplete {P : MngPlatform} {x : MngLink} {m : IpcMsg} :
      m ∈ written x (sendRxComplete P x).2 → HostWrite m
  | handler {P : MngPlatform} {drbl : UInt32} {mngInMsg : ℕ → UInt8} {x : MngLink}
      {m : IpcMsg} : m ∈ written x (sysMngHandler P drbl mngInMsg x).2 → HostWrite m

/-- **Every doorbell but that of the answer to `MNG_RTD3_NOTIFY` tells the truth.** -/
theorem doorbellOk_iff {m : IpcMsg} (h : HostWrite m) :
    DoorbellOk m ↔ m.command ≠ some mngRtd3NotifyAck := by
  have hheci : DoorbellOk m ∧ m.protocol = Heci.ipcProtocolHeci ∧ m.command = none →
      (DoorbellOk m ↔ m.command ≠ some mngRtd3NotifyAck) := by
    rintro ⟨hok, -, hnone⟩
    refine iff_of_true hok ?_
    rw [hnone]
    exact (Option.some_ne_none _).symm
  cases h with
  | proto hlen hm => exact hheci (doorbellOk_of_ioStep (Heci.IoStep.sendProtoMsg _ hlen _) hm)
  | client hm => exact hheci (doorbellOk_of_ioStep (ioStep_sendClientMsgIpc_fits _ _ _ _) hm)
  | resetToPeer hcmd hm => exact (onlyWrites_sendResetToPeer _ _ hcmd _).mem_written hm
  | rxComplete hm => exact (onlyWrites_sendRxComplete _ _).mem_written hm
  | handler hm => exact (onlyWrites_sysMngHandler _ _ _ _).mem_written hm

/-- The indication that a message was received. -/
theorem doorbellOk_rxComplete :
    ∃ m, HostWrite m ∧ m.command = some mngRxCmplIndication ∧ DoorbellOk m := by
  have hw : HostWrite (mngMsg mngRxCmplIndication 0 [] 0) :=
    .rxComplete (P := MngPlatform.nominal 0) (x := MngLink.start) (List.mem_singleton.2 rfl)
  exact ⟨_, hw, rfl, (doorbellOk_iff hw).2 (by decide)⟩

/-- The answer to `MNG_RTD3_NOTIFY` announces four bytes, and none is passed. -/
theorem not_doorbellOk_rtd3NotifyAck :
    ∃ m, HostWrite m ∧ m.command = some mngRtd3NotifyAck ∧
      (Heci.ipcHeaderGetLength m.drbl).toNat = 4 ∧ m.size = 0 ∧ ¬ DoorbellOk m := by
  have hw : HostWrite (mngMsg mngRtd3NotifyAck 4 (intBytes true) 0) := by
    refine @HostWrite.handler (MngPlatform.nominal 0) (ipcBuildMngDrbl mngRtd3Notify 0)
      (fun _ => 0) MngLink.start _ ?_
    decide +kernel
  exact ⟨_, hw, rfl, by decide +kernel, rfl, by decide +kernel⟩

end PseFw.SysMng
