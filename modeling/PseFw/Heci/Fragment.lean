/-
**Fragmentation and reassembly.**

`send_client_msg_ipc` walks a chain of descriptors with two nested loops: the inner one fills a
fragment from the chain, the outer one writes a fragment a turn.  A fragment can span many
descriptors and a descriptor many fragments; what comes out is a cut of the bytes of the chain into
pieces of 124 bytes, whatever the descriptors were.

The other side is a peer that runs the same layer.  It takes the frames one by one, and after the
last one its client is told about one message: the bytes of the chain.

Main definitions:

* `PseFw.Heci.remaining`, `PseFw.Heci.Cursor` — what is left of a chain, and where the walk is;
* `PseFw.Heci.FramesOf` — the frames of a message;
* `PseFw.Heci.Ready`, `PseFw.Heci.feed` — a peer, and what it does with frames.

Main results:

* `PseFw.Heci.fillFragment_spec` — the inner loop takes the next 124 bytes;
* `PseFw.Heci.sendFragments_spec` — the outer loop writes a cut of the message;
* `PseFw.Heci.sendClientMsgIpc_roundTrip` — **the frames are the message, and the peer gets it
  back**.  -/

import PseFw.Lib.Chunks
import PseFw.Heci.Step

set_option relaxedAutoImplicit false
set_option autoImplicit false

namespace PseFw.Heci

open Chunks

/-! ### The inner loop -/

/-- What is left of a chain of whose first descriptor `doneBytes` are sent. -/
def remaining (msg : List Mrd) (doneBytes : ℕ) : List UInt8 := (chainBytes msg).drop doneBytes

/-- **The position of the walk**: the first descriptor has bytes left, and none is empty. -/
structure Cursor (msg : List Mrd) (doneBytes : ℕ) : Prop where
  pos : ∀ m ∈ msg, 0 < m.len
  nil : msg = [] → doneBytes = 0
  cons : ∀ m ∈ msg.head?, doneBytes < m.len

theorem chainBytes_cons (m : Mrd) (ms : List Mrd) :
    chainBytes (m :: ms) = m.bytes ++ chainBytes ms := rfl

theorem remaining_cons {m : Mrd} {ms : List Mrd} {doneBytes : ℕ} (h : doneBytes ≤ m.len) :
    remaining (m :: ms) doneBytes = m.bytes.drop doneBytes ++ chainBytes ms := by
  rw [remaining, chainBytes_cons, List.drop_append_of_le_length (by simpa using h)]

theorem Cursor.start {msg : List Mrd} (h : ∀ m ∈ msg, 0 < m.len) : Cursor msg 0 := by
  refine ⟨h, fun _ => rfl, fun m hm => h m ?_⟩
  exact List.mem_of_mem_head? hm

/-- There is a descriptor as long as there are bytes. -/
theorem Cursor.remaining_ne_nil {m : Mrd} {ms : List Mrd} {doneBytes : ℕ}
    (h : Cursor (m :: ms) doneBytes) : remaining (m :: ms) doneBytes ≠ [] := by
  have hlt : doneBytes < m.len := h.cons m rfl
  rw [remaining_cons hlt.le]
  intro hnil
  have hlen := congrArg List.length (List.append_eq_nil_iff.1 hnil).1
  simp only [List.length_drop, Mrd.length_bytes, List.length_nil] at hlen
  omega

/-- **The inner loop takes the next bytes of the chain**, as many as fit into the fragment. -/
theorem fillFragment_spec (msg : List Mrd) (doneBytes : ℕ) (frag : List UInt8)
    (h : Cursor msg doneBytes) (hfrag : frag.length ≤ heciMaxPayloadSize) :
    (fillFragment msg doneBytes frag).1 =
        frag ++ (remaining msg doneBytes).take (heciMaxPayloadSize - frag.length) ∧
      remaining (fillFragment msg doneBytes frag).2.1 (fillFragment msg doneBytes frag).2.2 =
        (remaining msg doneBytes).drop (heciMaxPayloadSize - frag.length) ∧
      Cursor (fillFragment msg doneBytes frag).2.1 (fillFragment msg doneBytes frag).2.2 := by
  induction msg generalizing doneBytes frag with
  | nil =>
      rw [fillFragment]
      refine ⟨?_, ?_, h⟩ <;> simp [remaining, chainBytes]
  | cons m ms ih =>
      have hlt : doneBytes < m.len := h.cons m rfl
      have hrem : remaining (m :: ms) doneBytes = m.bytes.drop doneBytes ++ chainBytes ms :=
        remaining_cons hlt.le
      have hlen : (m.bytes.drop doneBytes).length = m.len - doneBytes := by simp
      rw [fillFragment]
      by_cases hfull : frag.length < heciMaxPayloadSize
      · rw [if_pos hfull]
        dsimp only
        by_cases hdone : doneBytes + min (m.len - doneBytes) (heciMaxPayloadSize - frag.length) =
            m.len
        · -- the descriptor is used up, and the fragment takes from the next one
          have hcopy : min (m.len - doneBytes) (heciMaxPayloadSize - frag.length) =
              m.len - doneBytes := by omega
          rw [if_pos hdone, hcopy, List.take_of_length_le hlen.le]
          have hms : Cursor ms 0 := Cursor.start fun m' hm' => h.pos m' (List.mem_cons_of_mem _ hm')
          have hlen' : (frag ++ m.bytes.drop doneBytes).length =
              frag.length + (m.len - doneBytes) := by
            rw [List.length_append, hlen]
          obtain ⟨h₁, h₂, h₃⟩ := ih 0 (frag ++ m.bytes.drop doneBytes) hms (by rw [hlen']; omega)
          have hle : (m.bytes.drop doneBytes).length ≤ heciMaxPayloadSize - frag.length := by omega
          have hsub : heciMaxPayloadSize - frag.length - (m.bytes.drop doneBytes).length =
              heciMaxPayloadSize - (frag ++ m.bytes.drop doneBytes).length := by omega
          rw [h₁, h₂, hrem, List.take_append, List.drop_append, List.take_of_length_le hle,
            List.drop_of_length_le hle, hsub, List.append_assoc]
          exact ⟨rfl, rfl, h₃⟩
        · -- the fragment is full
          have hcopy : min (m.len - doneBytes) (heciMaxPayloadSize - frag.length) =
              heciMaxPayloadSize - frag.length := by omega
          rw [hcopy] at hdone ⊢
          rw [if_neg hdone]
          refine ⟨?_, ?_, h.pos, nofun, fun m' hm' => ?_⟩
          · rw [hrem, List.take_append_of_le_length (by omega)]
          · rw [remaining, remaining, List.drop_drop]
          · cases hm'
            show doneBytes + (heciMaxPayloadSize - frag.length) < m.len
            omega
      · rw [if_neg hfull]
        have hzero : heciMaxPayloadSize - frag.length = 0 := by omega
        rw [hzero]
        refine ⟨by simp, by simp, h⟩

/-! ### The outer loop -/

/-- **The frames of a message**: its cut into pieces of 124 bytes, the last one marked. -/
def FramesOf (hostAddr fwAddr : UInt8) (data : List UInt8) (frames : List HeciBusMsg) : Prop :=
  ∃ pieces, IsChunking heciMaxPayloadSize data pieces ∧
    frames = markLast (HeciBusMsg.mk' hostAddr fwAddr) pieces

theorem FramesOf.last {h f : UInt8} {data : List UInt8} (hne : data ≠ [])
    (hle : data.length ≤ heciMaxPayloadSize) : FramesOf h f data [HeciBusMsg.mk' h f true data] :=
  ⟨[data], IsChunking.last hne hle, rfl⟩

theorem FramesOf.cons {h f : UInt8} {piece data : List UInt8} {frames : List HeciBusMsg}
    (hlen : piece.length = heciMaxPayloadSize) (hframes : FramesOf h f data frames) :
    FramesOf h f (piece ++ data) (HeciBusMsg.mk' h f false piece :: frames) := by
  obtain ⟨pieces, hcut, rfl⟩ := hframes
  exact ⟨piece :: pieces, IsChunking.cons hlen hcut, (markLast_cons _ piece hcut.ne_nil).symm⟩

/-- Write frames one after the other, each with the doorbell and the length of its header, up to the
first that the mailbox does not take. -/
def writeFrames (P : Platform) : List HeciBusMsg → HeciDev → Bool × HeciDev
  | [], s => (true, s)
  | f :: fs, s =>
      let r := ipcWriteMsg P (frameDrbl f) f (f.hdr.len + heciHdrSize) s
      if r.1 ≠ 0 then (false, r.2) else writeFrames P fs r.2

/-- What writing the frames leaves in the trace when every write succeeds. -/
def writeEvents (frames : List HeciBusMsg) : List Event := frames.map fun f => writeEvent f 0

theorem writeFrames_of_succeeds {P : Platform} (hP : ∀ n, P.ipcWriteMsg n = 0)
    (frames : List HeciBusMsg) (s : HeciDev) :
    writeFrames P frames s = (true, s.emit (writeEvents frames)) := by
  induction frames generalizing s with
  | nil => simp [writeFrames, writeEvents, HeciDev.emit]
  | cons f fs ih =>
      have hwrite : ipcWriteMsg P (frameDrbl f) f (f.hdr.len + heciHdrSize) s =
          (0, s.emit [writeEvent f 0]) := by
        rw [ipcWriteMsg, hP]
        rfl
      rw [writeFrames, hwrite]
      simp only [ne_eq, not_true_eq_false, ↓reduceIte]
      rw [ih, HeciDev.emit_emit]
      rfl

/-- **The outer loop writes the frames of what is left of the chain**, which do not depend on the
platform, and ends: every turn takes at least a byte. -/
theorem sendFragments_spec (h f : UInt8) (fuel : ℕ) (m : Mrd) (ms : List Mrd) (doneBytes : ℕ)
    (hcur : Cursor (m :: ms) doneBytes)
    (hfuel : (remaining (m :: ms) doneBytes).length ≤ fuel) :
    ∃ frames, FramesOf h f (remaining (m :: ms) doneBytes) frames ∧
      ∀ P s, sendFragments P h f fuel (m :: ms) doneBytes s = writeFrames P frames s := by
  induction fuel generalizing m ms doneBytes with
  | zero =>
      have hpos := List.length_pos_iff.2 hcur.remaining_ne_nil
      omega
  | succ fuel ih =>
      obtain ⟨hfrag, hrem, hcur'⟩ := fillFragment_spec (m :: ms) doneBytes [] hcur (by simp)
      simp only [List.nil_append, List.length_nil, Nat.sub_zero] at hfrag hrem
      have hpos := List.length_pos_iff.2 hcur.remaining_ne_nil
      have hsplit := List.take_append_drop heciMaxPayloadSize (remaining (m :: ms) doneBytes)
      rcases hr : fillFragment (m :: ms) doneBytes [] with ⟨frag, rest, doneBytes'⟩
      rw [hr] at hfrag hrem hcur'
      dsimp only at hfrag hrem hcur'
      cases rest with
      | nil =>
          -- the chain is at its end: this was the last fragment
          have hle : (remaining (m :: ms) doneBytes).length ≤ heciMaxPayloadSize := by
            have hnil : remaining [] doneBytes' = [] := by simp [remaining, chainBytes]
            rw [hnil, eq_comm, List.drop_eq_nil_iff] at hrem
            exact hrem
          rw [List.take_of_length_le hle] at hfrag
          subst hfrag
          refine ⟨_, FramesOf.last hcur.remaining_ne_nil hle, fun P s => ?_⟩
          simp [sendFragments, hr, writeFrames, frameDrbl, HeciBusMsg.mk']
      | cons m' ms' =>
          have hgt : heciMaxPayloadSize < (remaining (m :: ms) doneBytes).length := by
            have hpos' := List.length_pos_iff.2 hcur'.remaining_ne_nil
            rw [hrem, List.length_drop] at hpos'
            omega
          have hfull : frag.length = heciMaxPayloadSize := by
            rw [hfrag, List.length_take]
            omega
          have hless : (remaining (m' :: ms') doneBytes').length ≤ fuel := by
            rw [hrem, List.length_drop]
            simp only [heciMaxPayloadSize, heciIpcPacketSize, heciHdrSize] at hgt ⊢
            omega
          obtain ⟨frames, hframes, hsend⟩ := ih m' ms' doneBytes' hcur' hless
          have hdata : frag ++ remaining (m' :: ms') doneBytes' =
              remaining (m :: ms) doneBytes := by
            rw [hrem, hfrag, hsplit]
          refine ⟨HeciBusMsg.mk' h f false frag :: frames, ?_, fun P s => ?_⟩
          · rw [← hdata]
            exact FramesOf.cons hfull hframes
          · rw [sendFragments, hr]
            dsimp only
            rw [hsend, writeFrames]
            rfl

/-! ### The frames on the wire -/

/-- **What the host sees of a message**: as few frames as possible, all but the last one full, only
the last one marked, and together the message. -/
structure WellFragmented (hostAddr fwAddr : UInt8) (data : List UInt8) (frames : List HeciBusMsg) :
    Prop where
  count : frames.length = (data.length + heciMaxPayloadSize - 1) / heciMaxPayloadSize
  addr : ∀ f ∈ frames, f.hdr.hostAddr = hostAddr ∧ f.hdr.fwAddr = fwAddr
  len : ∀ f ∈ frames, 1 ≤ f.hdr.len ∧ f.hdr.len ≤ heciMaxPayloadSize
  lastFrag : ∀ (k : ℕ) (hk : k < frames.length),
    frames[k].hdr.lastFrag = decide (k + 1 = frames.length)
  full : ∀ (k : ℕ) (hk : k + 1 < frames.length), frames[k].hdr.len = heciMaxPayloadSize
  payload : (frames.map HeciBusMsg.payload).flatten = data

theorem FramesOf.wellFragmented {h f : UInt8} {data : List UInt8} {frames : List HeciBusMsg}
    (hframes : FramesOf h f data frames) : WellFragmented h f data frames := by
  obtain ⟨pieces, hcut, rfl⟩ := hframes
  have hpos : 0 < heciMaxPayloadSize := by decide
  have hmem : ∀ x ∈ markLast (HeciBusMsg.mk' h f) pieces,
      ∃ b, ∃ piece ∈ pieces, x = HeciBusMsg.mk' h f b piece := by
    intro x hx
    obtain ⟨k, hk, rfl⟩ := List.mem_iff_getElem.1 hx
    have hk' : k < pieces.length := by simpa using hk
    exact ⟨_, pieces[k], List.getElem_mem hk', getElem_markLast _ pieces k hk hk'⟩
  refine ⟨?_, ?_, ?_, ?_, ?_, ?_⟩
  · rw [length_markLast, hcut.length_eq hpos]
  · intro x hx
    obtain ⟨b, piece, -, rfl⟩ := hmem x hx
    exact ⟨rfl, rfl⟩
  · intro x hx
    obtain ⟨b, piece, hp, rfl⟩ := hmem x hx
    exact hcut.length_mem hpos hp
  · intro k hk
    have hk' : k < pieces.length := by simpa using hk
    rw [getElem_markLast _ pieces k hk hk', length_markLast]
    rfl
  · intro k hk
    have hk' : k + 1 < pieces.length := by simpa using hk
    rw [getElem_markLast _ pieces k (by omega) (by omega)]
    exact hcut.getElem_length k hk'
  · have hpay : ∀ b piece, (HeciBusMsg.mk' h f b piece).payload = id piece := fun _ _ => rfl
    rw [map_markLast hpay, List.map_id, hcut.flatten_eq]

/-- The packets written to the mailbox, with their doorbells. -/
def writtenPackets (evs : List Event) : List (UInt32 × HeciBusMsg) :=
  evs.filterMap fun
    | .ipcWrite drbl msg _ _ => some (drbl, msg)
    | _ => none

theorem writtenPackets_writeEvents (frames : List HeciBusMsg) :
    writtenPackets (writeEvents frames) = frames.map fun f => (frameDrbl f, f) := by
  rw [writtenPackets, writeEvents, List.filterMap_map]
  exact congrFun List.filterMap_eq_map' frames

theorem ipcHeaderGetLength_frameDrbl {msg : HeciBusMsg} (h : msg.hdr.len ≤ heciMaxPayloadSize) :
    (ipcHeaderGetLength (frameDrbl msg)).toNat = msg.hdr.len + heciHdrSize := by
  simp only [heciMaxPayloadSize, heciIpcPacketSize, heciHdrSize] at h
  rw [frameDrbl,
    ipcHeaderGetLength_ipcBuildDrbl (by simp only [heciIpcPacketSize, heciHdrSize]; omega)]
  simp only [heciHdrSize, UInt32.toNat_ofNat']
  omega

/-- The packet of a frame. -/
def packetBytes (msg : HeciBusMsg) : List UInt8 :=
  [msg.hdr.fwAddr, msg.hdr.hostAddr, UInt8.ofNat (msg.hdr.len % 256),
    UInt8.ofNat (msg.hdr.len / 256 % 2 + if msg.hdr.lastFrag then 128 else 0)] ++ msg.payload

/-- What the handler reads of a packet of length `n`. -/
def packetBuf (msg : HeciBusMsg) (n : ℕ) : ℕ → UInt8 :=
  fun k => if k < n then (packetBytes msg).getD k 0 else 0

theorem packetHdr_packetBuf {msg : HeciBusMsg} (h : msg.hdr.len ≤ heciMaxPayloadSize) :
    packetHdr (packetBuf msg (msg.hdr.len + heciHdrSize)) = msg.hdr := by
  have hbyte : ∀ k, k < 4 →
      packetBuf msg (msg.hdr.len + heciHdrSize) k = (packetBytes msg).getD k 0 := fun k hk =>
    if_pos (Nat.lt_of_lt_of_le hk (Nat.le_add_left _ _))
  obtain ⟨⟨fw, host, len, lastFrag⟩, payload, hpay⟩ := msg
  simp only [heciMaxPayloadSize, heciIpcPacketSize, heciHdrSize] at h
  have hmod : len % 256 = len := Nat.mod_eq_of_lt (by omega)
  have hdiv : len / 256 % 2 = 0 := by omega
  have hlow : (UInt8.ofNat len).toNat = len := by
    simp only [UInt8.toNat_ofNat']
    omega
  rw [packetHdr, hbyte 0 (by decide), hbyte 1 (by decide), hbyte 2 (by decide), hbyte 3 (by decide)]
  cases lastFrag with
  | false => simp [packetBytes, hmod, hdiv, hlow]
  | true => simp [packetBytes, hmod, hdiv, hlow]

theorem map_packetBuf (msg : HeciBusMsg) :
    ((List.range msg.hdr.len).map fun k => packetBuf msg (msg.hdr.len + heciHdrSize)
      (k + heciHdrSize)) = msg.payload := by
  refine List.ext_getElem (by simp [msg.len_eq]) fun k hk hk' => ?_
  have hlt : k + heciHdrSize < msg.hdr.len + heciHdrSize := by
    simpa using hk
  have hdrop : (packetBytes msg).getD (k + heciHdrSize) 0 = msg.payload.getD k 0 := rfl
  rw [List.getElem_map, List.getElem_range, packetBuf, if_pos hlt, hdrop]
  simp [hk']

theorem packetFrame_packetBuf {msg : HeciBusMsg} (h : msg.hdr.len ≤ heciMaxPayloadSize) :
    packetFrame (packetBuf msg (msg.hdr.len + heciHdrSize)) = msg := by
  have hhdr := packetHdr_packetBuf h
  refine HeciBusMsg.ext hhdr ?_
  show (List.range (packetHdr _).len).map _ = _
  rw [hhdr]
  exact map_packetBuf msg

/-- **The handler of the mailbox reads a frame back from its packet and its doorbell.** -/
theorem ipcHeciHandler_packetBytes (P : Platform) {msg : HeciBusMsg}
    (h : msg.hdr.len ≤ heciMaxPayloadSize) (s : HeciDev) :
    ipcHeciHandler P 0 (fun k => (packetBytes msg).getD k 0) (frameDrbl msg) s =
      (0, heciProcessMessage P msg s) := by
  have hlen := ipcHeaderGetLength_frameDrbl h
  have hframe : packetFrame (fun k => if k < msg.hdr.len + heciHdrSize then
      (packetBytes msg).getD k 0 else 0) = msg := packetFrame_packetBuf h
  have hmax : ¬ msg.hdr.len + heciHdrSize > ipcDataLenMax := by
    simp only [heciMaxPayloadSize, heciIpcPacketSize, heciHdrSize, ipcDataLenMax] at h ⊢
    omega
  simp only [ipcHeciHandler, hlen, hframe, hmax, ↓reduceIte, ne_eq, not_true_eq_false]

/-- `send_client_msg_ipc` writes the frames of its chain, within a host access. -/
theorem sendClientMsgIpc_frames (conn : HeciConn) {msg : List Mrd} (hne : msg ≠ [])
    (hpos : ∀ m ∈ msg, 0 < m.len) :
    ∃ frames, FramesOf conn.hostAddr conn.fwAddr (chainBytes msg) frames ∧
      ∀ P s, sendClientMsgIpc P conn msg s = withHostAccess P false (writeFrames P frames) s := by
  cases msg with
  | nil => exact absurd rfl hne
  | cons m ms =>
      have hfuel : (remaining (m :: ms) 0).length ≤ fragmentTurns (m :: ms) := Nat.le_add_right _ _
      obtain ⟨frames, hframes, hsend⟩ := sendFragments_spec conn.hostAddr conn.fwAddr _ m ms 0
        (Cursor.start hpos) hfuel
      refine ⟨frames, hframes, fun P s => ?_⟩
      exact congrFun (congrArg (withHostAccess P false) (funext (hsend P))) s

/-- **What `send_client_msg_ipc` writes** when nothing fails. -/
theorem sendClientMsgIpc_spec {P : Platform} (hP : P.Succeeds) (conn : HeciConn) {msg : List Mrd}
    (hne : msg ≠ []) (hpos : ∀ m ∈ msg, 0 < m.len) (s : HeciDev) :
    ∃ frames, FramesOf conn.hostAddr conn.fwAddr (chainBytes msg) frames ∧
      (sendClientMsgIpc P conn msg s).1 = true ∧
        writtenPackets ((sendClientMsgIpc P conn msg s).2.events.drop s.events.length) =
          frames.map fun f => (frameDrbl f, f) := by
  obtain ⟨frames, hframes, heq⟩ := sendClientMsgIpc_frames conn hne hpos
  have hsend := writeFrames_of_succeeds hP.ipcWriteMsg frames
  refine ⟨frames, hframes, ?_⟩
  rw [heq, withHostAccess]
  by_cases hmng : P.sysMng = true
  · have hreq : ¬ P.hostAccessReq s.events.length < 0 := not_lt.2 (hP.hostAccessReq _)
    refine ⟨by simp [hmng, hreq, hsend], ?_⟩
    simp only [hmng, ↓reduceIte, hreq, hsend, HeciDev.log_events, HeciDev.emit_events,
      List.append_assoc, List.drop_left]
    rw [← writtenPackets_writeEvents frames]
    simp [writtenPackets]
  · refine ⟨by simp [hmng, hsend], ?_⟩
    simp only [hmng, Bool.false_eq_true, ↓reduceIte, hsend, HeciDev.emit_events,
      List.drop_left, writtenPackets_writeEvents]

/-! ### The peer -/

/-- What a peer does with frames, one after the other. -/
def feed (P : Platform) (frames : List HeciBusMsg) (s : HeciDev) : Option HeciDev :=
  Lts.run (heciProcessClientMessage P) s frames

/-- The search of a fragment for its connection. -/
abbrev findActive (fwAddr hostAddr : UInt8) (s : HeciDev) : Option ConnId :=
  heciFindConn fwAddr hostAddr (connStateOpen ||| connStateProcessingMsg) s

/-- **A peer that is ready for a message of length `n`**: the connection between the two addresses
is open, and its client has an unlocked buffer in which the message fits. -/
structure Ready (s : HeciDev) (fwAddr hostAddr : UInt8) (c : ConnId) (i : ClientId) (p : RxPtr)
    (n : ℕ) : Prop where
  found : findActive fwAddr hostAddr s = some c
  state : (s.connections c).state = connStateOpen
  client : (s.connections c).client = some i
  rxMsg : (s.clients i).properties.rxMsg = some p
  unlocked : (s.rxMsgs p).msgLock = false
  buffer : (s.rxMsgs p).buffer.isSome
  rxBufferLen : n ≤ (s.clients i).properties.rxBufferLen
  maxMsgSize : n ≤ (s.clients i).properties.maxMsgSize

/-- **The peer has received `got`** since it was in the state `s₀`. -/
structure Receiving (s₀ : HeciDev) (c : ConnId) (p : RxPtr) (got : List UInt8) (s : HeciDev) :
    Prop where
  clients : s.clients = s₀.clients
  connections : s.connections = Function.update s₀.connections c { s₀.connections c with
    rxBuffer := some p
    state := 3 }
  msgLock : (s.rxMsgs p).msgLock = true
  type : (s.rxMsgs p).type = .request
  bytes : (s.rxMsgs p).bytes = got
  buffer : (s.rxMsgs p).buffer.isSome
  events : ∃ evs, s.events = s₀.events ++ evs ∧ ∀ e ∈ evs, ∃ data b, e = .fragment c data b

/-- Before the first fragment, or between two of them. -/
def Accepting (s₀ : HeciDev) (c : ConnId) (p : RxPtr) (got : List UInt8) (s : HeciDev) : Prop :=
  (s = s₀ ∧ got = []) ∨ Receiving s₀ c p got s

theorem has_of_state {x : HeciConn} {n bits : UInt8} (h : x.state = n) :
    x.has bits = (n &&& bits != 0) := by
  rw [HeciConn.has, h]

section peer

variable {P : Platform} {s₀ s : HeciDev} {f h : UInt8} {c : ConnId} {i : ClientId} {p : RxPtr}
  {n : ℕ} {got : List UInt8}

/-- A message in the middle does not hide its connection from the search. -/
theorem Receiving.found (hs : Receiving s₀ c p got s) (hr : Ready s₀ f h c i p n) :
    findActive f h s = some c := by
  rw [← hr.found]
  refine congrArg (fun q => (List.finRange heciMaxNumOfConnections).find? q) (funext fun d => ?_)
  rw [hs.connections]
  by_cases hd : d = c
  · subst hd
    have hopen : (s₀.connections d).has (connStateOpen ||| connStateProcessingMsg) = true :=
      (has_of_state hr.state).trans (by decide)
    have hproc : HeciConn.has { s₀.connections d with rxBuffer := some p, state := 3 }
        (connStateOpen ||| connStateProcessingMsg) = true :=
      (has_of_state (n := 3) rfl).trans (by decide)
    rw [Function.update_self, hopen, hproc]
  · rw [Function.update_of_ne hd]

/-- **Every fragment finds the buffer of the message.** -/
theorem findActive_accepting (hr : Ready s₀ f h c i p n) (hs : Accepting s₀ c p got s)
    (b : Bool) (data : List UInt8) :
    ∃ s₁, heciFindActiveConn (HeciBusMsg.mk' h f b data) s = some (some c, s₁) ∧
      Receiving s₀ c p got s₁ := by
  have hfragment : ∀ {s s' : HeciDev}, s'.events = s.events ++ [Event.fragment c data b] →
      (∃ evs, s.events = s₀.events ++ evs ∧ ∀ e ∈ evs, ∃ data b, e = .fragment c data b) →
      ∃ evs, s'.events = s₀.events ++ evs ∧ ∀ e ∈ evs, ∃ data b, e = .fragment c data b := by
    rintro s s' hs' ⟨evs, he, hev⟩
    refine ⟨evs ++ [Event.fragment c data b], by rw [hs', he, List.append_assoc], fun e hmem => ?_⟩
    rcases List.mem_append.1 hmem with hmem | hmem
    · exact hev e hmem
    · exact ⟨data, b, List.mem_singleton.1 hmem⟩
  rcases hs with ⟨rfl, rfl⟩ | hs
  · -- the first fragment locks the buffer
    have hnot : (s.connections c).has connStateProcessingMsg = false :=
      (has_of_state hr.state).trans (by decide)
    have hset : (s.connections c).state ||| connStateProcessingMsg = 3 := by
      rw [hr.state]
      decide
    have hfound : heciFindConn (HeciBusMsg.mk' h f b data).hdr.fwAddr
        (HeciBusMsg.mk' h f b data).hdr.hostAddr (connStateOpen ||| connStateProcessingMsg) s =
          some c := hr.found
    have hpool : ∀ e, heciGetBufferFromPool (s.connections c).client (s.log e) =
        some (some p, lockRx p (s.log e)) := by
      intro e
      simp [heciGetBufferFromPool, hr.client, hr.rxMsg, hr.unlocked]
    unfold heciFindActiveConn
    rw [hfound]
    simp only [HeciDev.log_connections, hnot, Bool.false_eq_true, ↓reduceIte, hpool, hset]
    refine ⟨_, rfl, ?_⟩
    refine ⟨rfl, rfl, ?_, ?_, ?_, ?_, hfragment (s := s) rfl ⟨[], by simp, by simp⟩⟩
    · simp [lockRx]
    · simp
    · simp [HeciRxMsg.bytes]
    · simpa [lockRx] using hr.buffer
  · have hproc : (s.connections c).has connStateProcessingMsg = true := by
      rw [hs.connections, Function.update_self]
      exact (has_of_state (n := 3) rfl).trans (by decide)
    have hfound : heciFindConn (HeciBusMsg.mk' h f b data).hdr.fwAddr
        (HeciBusMsg.mk' h f b data).hdr.hostAddr (connStateOpen ||| connStateProcessingMsg) s =
          some c := hs.found hr
    unfold heciFindActiveConn
    rw [hfound]
    simp only [HeciDev.log_connections, hproc, ↓reduceIte]
    exact ⟨_, rfl, hs.clients, hs.connections, hs.msgLock, hs.type, hs.bytes, hs.buffer,
      hfragment (s := s) rfl hs.events⟩

/-- **Every fragment that fits is appended.** -/
theorem copy_receiving (hr : Ready s₀ f h c i p n) (hs : Receiving s₀ c p got s)
    {data : List UInt8} (hn : n ≤ heciMaxMsgSize) (hle : got.length + data.length ≤ n) :
    ∃ s₂, heciCopyToClientBuf P c data s = some s₂ ∧ Receiving s₀ c p (got ++ data) s₂ := by
  obtain ⟨b, hb⟩ := Option.isSome_iff_exists.1 hs.buffer
  have hrx : (s.connections c).rxBuffer = some p := by rw [hs.connections, Function.update_self]
  have hcl : (s.connections c).client = some i := by
    rw [hs.connections, Function.update_self]
    exact hr.client
  have hlen : (s.rxMsgs p).length = got.length := by rw [← hs.bytes, HeciRxMsg.length_bytes]
  have hfit : ¬ ((s.rxMsgs p).length + data.length > (s.clients i).properties.rxBufferLen ∨
      (s.rxMsgs p).length + data.length > (s.clients i).properties.maxMsgSize) := by
    have h₁ := hr.rxBufferLen
    have h₂ := hr.maxMsgSize
    rw [hs.clients, hlen]
    omega
  have hlt : (s.rxMsgs p).length + data.length < 2 ^ 16 := by
    simp only [heciMaxMsgSize] at hn
    omega
  unfold heciCopyToClientBuf
  simp only [hrx, hcl, hb]
  rw [if_neg hfit]
  refine ⟨_, rfl, hs.clients, hs.connections, ?_, ?_, ?_, ?_, hs.events⟩
  · simpa using hs.msgLock
  · simp
  · rw [HeciDev.setRx_rxMsgs, Function.update_self, ← hs.bytes]
    exact HeciRxMsg.bytes_append hb hlt rfl rfl
  · simp

/-- The notifications of new messages. -/
def newMsgs (evs : List Event) : List Event :=
  evs.filter fun
    | .notify _ _ _ .newMsg => true
    | _ => false

/-- **The peer has received the message**, and its client was told once. -/
structure Received (s₀ : HeciDev) (c : ConnId) (p : RxPtr) (data : List UInt8) (s : HeciDev) :
    Prop where
  notified : newMsgs (s.events.drop s₀.events.length) =
    [.notify c (s₀.connections c).eventCb (s₀.connections c).param .newMsg]
  msgLock : (s.rxMsgs p).msgLock = true
  type : (s.rxMsgs p).type = .request
  bytes : (s.rxMsgs p).bytes = data

/-- After the last fragment the client is told. -/
theorem received_finish (hs : Receiving s₀ c p got s) :
    Received s₀ c p got (finishFragment c s) := by
  obtain ⟨evs, he, hev⟩ := hs.events
  have hnone : newMsgs evs = [] := by
    rw [newMsgs, List.filter_eq_nil_iff]
    intro e hmem
    obtain ⟨data, b, rfl⟩ := hev e hmem
    exact Bool.false_ne_true
  refine ⟨?_, hs.msgLock, hs.type, hs.bytes⟩
  have hevents : (finishFragment c s).events = s₀.events ++ (evs ++ [Event.notify c
      (s₀.connections c).eventCb (s₀.connections c).param .newMsg]) := by
    simp [finishFragment, heciNotifyClient, hs.connections, he]
  rw [hevents, List.drop_left]
  show newMsgs _ = _
  rw [newMsgs, List.filter_append]
  rw [newMsgs] at hnone
  rw [hnone]
  rfl

/-- **One fragment of a message.** -/
theorem receive_fragment (hr : Ready s₀ f h c i p n) (hs : Accepting s₀ c p got s)
    {data : List UInt8} (hn : n ≤ heciMaxMsgSize) (hle : got.length + data.length ≤ n) (b : Bool) :
    ∃ s₂, heciProcessClientMessage P (HeciBusMsg.mk' h f b data) s =
        some (if b then finishFragment c s₂ else s₂) ∧
      Receiving s₀ c p (got ++ data) s₂ := by
  obtain ⟨s₁, hfind, hs₁⟩ := findActive_accepting hr hs b data
  obtain ⟨s₂, hcopy, hs₂⟩ := copy_receiving (P := P) hr hs₁ hn hle
  refine ⟨s₂, ?_, hs₂⟩
  rw [heciProcessClientMessage_eq, hfind, Option.bind_some]
  show (heciCopyToClientBuf P c data s₁).map _ = _
  rw [hcopy]
  rfl

/-- **All fragments of a message.** -/
theorem feed_pieces (hr : Ready s₀ f h c i p n) (hn : n ≤ heciMaxMsgSize) {data : List UInt8}
    {pieces : List (List UInt8)} (hcut : IsChunking heciMaxPayloadSize data pieces)
    (hs : Accepting s₀ c p got s) (hle : got.length + data.length ≤ n) :
    ∃ s', feed P (markLast (HeciBusMsg.mk' h f) pieces) s = some s' ∧
      Received s₀ c p (got ++ data) s' := by
  induction hcut generalizing got s with
  | @last xs _ _ =>
      obtain ⟨s₂, hstep, hs₂⟩ := receive_fragment (P := P) hr hs hn hle true
      refine ⟨finishFragment c s₂, ?_, received_finish hs₂⟩
      rw [markLast, feed, Lts.run_cons, hstep]
      rfl
  | @cons xs ys pieces hlen hcut ih =>
      rw [List.length_append] at hle
      have hxs : _ + xs.length ≤ _ := (Nat.add_le_add_left (Nat.le_add_right _ _) _).trans hle
      obtain ⟨s₂, hstep, hs₂⟩ := receive_fragment (P := P) hr hs hn hxs false
      obtain ⟨s', hfeed, hrec⟩ := ih (Or.inr hs₂) (by rw [List.length_append]; omega)
      refine ⟨s', ?_, by rwa [List.append_assoc] at hrec⟩
      rw [markLast_cons _ _ hcut.ne_nil, feed, Lts.run_cons, hstep]
      exact hfeed

end peer

/-! ### The round trip -/

/-- The length of a chain. -/
def totalLen (msg : List Mrd) : ℕ := (msg.map Mrd.len).sum

theorem length_chainBytes (msg : List Mrd) : (chainBytes msg).length = totalLen msg := by
  simp [chainBytes, totalLen, List.length_flatMap]

/-- **Fragmentation and reassembly**: the frames `send_client_msg_ipc` writes for a chain without
empty descriptors are the message, cut as far as necessary, each with its length in the doorbell, by
which the handler of a mailbox recognises it; and a peer that is ready for the message has it, whole
and once, after it was fed the frames. -/
theorem sendClientMsgIpc_roundTrip {P : Platform} (hP : P.Succeeds) (conn : HeciConn)
    {msg : List Mrd} (hpos : ∀ m ∈ msg, m.len ≠ 0) (hlow : 1 ≤ totalLen msg)
    (hhigh : totalLen msg ≤ heciMaxMsgSize) (s : HeciDev) :
    ∃ frames, (sendClientMsgIpc P conn msg s).1 = true ∧
      writtenPackets ((sendClientMsgIpc P conn msg s).2.events.drop s.events.length) =
        frames.map (fun f => (frameDrbl f, f)) ∧
      WellFragmented conn.hostAddr conn.fwAddr (chainBytes msg) frames ∧
      (∀ f ∈ frames, (ipcHeaderGetLength (frameDrbl f)).toNat = f.hdr.len + heciHdrSize ∧
        ∀ P' peer, ipcHeciHandler P' 0 (fun k => (packetBytes f).getD k 0) (frameDrbl f) peer =
          (0, heciProcessMessage P' f peer)) ∧
      ∀ (P' : Platform) (peer : HeciDev) (c : ConnId) (i : ClientId) (p : RxPtr),
        Ready peer conn.fwAddr conn.hostAddr c i p (totalLen msg) →
          ∃ peer', feed P' frames peer = some peer' ∧ Received peer c p (chainBytes msg) peer' := by
  have hne : msg ≠ [] := by
    rintro rfl
    simp [totalLen] at hlow
  obtain ⟨frames, hframes, hsent, hwritten⟩ :=
    sendClientMsgIpc_spec hP conn hne (fun m hm => Nat.pos_of_ne_zero (hpos m hm)) s
  have hwell := hframes.wellFragmented
  refine ⟨frames, hsent, hwritten, hwell, fun f hf => ?_, ?_⟩
  · have hlen := (hwell.len f hf).2
    exact ⟨ipcHeaderGetLength_frameDrbl hlen,
      fun P' peer => ipcHeciHandler_packetBytes P' hlen peer⟩
  intro P' peer c i p hready
  obtain ⟨pieces, hcut, rfl⟩ := hframes
  have hle : ([] : List UInt8).length + (chainBytes msg).length ≤ totalLen msg := by
    rw [length_chainBytes, List.length_nil, Nat.zero_add]
  exact feed_pieces hready hhigh hcut (Or.inl ⟨rfl, rfl⟩) hle

/-- The firmware's end of a connection. -/
def sampleConn : HeciConn := { HeciConn.zero with fwAddr := 32, hostAddr := 7 }

/-- A message of 130 bytes in three descriptors. -/
def sampleMsg : List Mrd :=
  [Mrd.ofBytes (List.replicate 100 1), Mrd.ofBytes (List.replicate 28 2), Mrd.ofBytes [3, 4]]

instance (s : HeciDev) (f h : UInt8) (c : ConnId) (i : ClientId) (p : RxPtr) (n : ℕ) :
    Decidable (Ready s f h c i p n) :=
  decidable_of_iff (findActive f h s = some c ∧ (s.connections c).state = connStateOpen ∧
    (s.connections c).client = some i ∧ (s.clients i).properties.rxMsg = some p ∧
    (s.rxMsgs p).msgLock = false ∧ (s.rxMsgs p).buffer.isSome ∧
    n ≤ (s.clients i).properties.rxBufferLen ∧ n ≤ (s.clients i).properties.maxMsgSize)
    ⟨fun ⟨h₁, h₂, h₃, h₄, h₅, h₆, h₇, h₈⟩ => ⟨h₁, h₂, h₃, h₄, h₅, h₆, h₇, h₈⟩,
      fun h => ⟨h.found, h.state, h.client, h.rxMsg, h.unlocked, h.buffer, h.rxBufferLen,
        h.maxMsgSize⟩⟩

/-- The message goes out in two frames, and a peer that is connected and has given its buffer back
receives it. -/
theorem sendClientMsgIpc_three_descriptors :
    ∃ frames peer peer', frames.map (fun f => (f.hdr.len, f.hdr.lastFrag)) =
        [(124, false), (6, true)] ∧
      Reachable Platform.nominal peer ∧ feed Platform.nominal frames peer = some peer' ∧
        Received peer 0 0 (chainBytes sampleMsg) peer' := by
  obtain ⟨frames, -, hwritten, -, -, hpeer⟩ := sendClientMsgIpc_roundTrip Platform.nominal_succeeds
    sampleConn (show ∀ m ∈ sampleMsg, m.len ≠ 0 by decide) (by decide) (by decide) coldStart
  obtain ⟨peer, hreach, hready⟩ := exists_reachable Platform.nominal
    (connectCalls (plainClient 1 0 4096 1) 7 ++ ([.op (.sendFlowControl 0)] : List Call))
    (fun s => Ready s 32 7 0 0 0 130) (by decide +kernel)
  obtain ⟨peer', hfeed, hrec⟩ := hpeer Platform.nominal peer 0 0 0 hready
  refine ⟨frames, peer, peer', ?_, hreach, hfeed, hrec⟩
  have hlens : (writtenPackets ((sendClientMsgIpc Platform.nominal sampleConn sampleMsg
      coldStart).2.events.drop coldStart.events.length)).map (fun x => (x.2.hdr.len,
        x.2.hdr.lastFrag)) = [(124, false), (6, true)] := by decide +kernel
  rw [hwritten, List.map_map] at hlens
  exact hlens

/-- A buffer that is long enough is not enough: the client does not get a message that is longer
than the limit it registered with. -/
theorem not_roundTrip_max_msg_size :
    ∃ peer peer', Reachable Platform.nominal peer ∧ findActive 32 7 peer = some 0 ∧
      (peer.connections 0).state = connStateOpen ∧ (peer.connections 0).client = some 0 ∧
      (peer.clients 0).properties.rxMsg = some 0 ∧ (peer.rxMsgs 0).msgLock = false ∧
      totalLen sampleMsg ≤ (peer.clients 0).properties.rxBufferLen ∧
      feed Platform.nominal ((writtenPackets (sendClientMsgIpc Platform.nominal sampleConn sampleMsg
        coldStart).2.events).map Prod.snd) peer = some peer' ∧
      (peer'.rxMsgs 0).bytes ≠ chainBytes sampleMsg := by
  obtain ⟨peer, hreach, h₁, h₂, h₃, h₄, h₅, h₆, hfeed⟩ := exists_reachable Platform.nominal
    (connectCalls { plainClient 1 0 4096 1 with maxMsgSize := 128 } 7 ++
      ([.op (.sendFlowControl 0)] : List Call))
    (fun s => findActive 32 7 s = some 0 ∧ (s.connections 0).state = connStateOpen ∧
      (s.connections 0).client = some 0 ∧ (s.clients 0).properties.rxMsg = some 0 ∧
      (s.rxMsgs 0).msgLock = false ∧ totalLen sampleMsg ≤ (s.clients 0).properties.rxBufferLen ∧
      (feed Platform.nominal ((writtenPackets (sendClientMsgIpc Platform.nominal sampleConn
        sampleMsg
        coldStart).2.events).map Prod.snd) s).any (fun s' => decide
          ((s'.rxMsgs 0).bytes ≠ chainBytes sampleMsg)) = true) (by decide +kernel)
  obtain ⟨peer', hpeer', hne⟩ := (Option.any_eq_true _ _).1 hfeed
  exact ⟨peer, peer', hreach, h₁, h₂, h₃, h₄, h₅, h₆, hpeer', of_decide_eq_true hne⟩

end PseFw.Heci
