/-
**Messages by DMA: the pages of the host buffer.**

For long messages the host lends the firmware a buffer in its own memory.  The firmware divides it
into pages, keeps a bitmap of the pages in use, copies a message into free pages by DMA and tells
the host where it is; the host acknowledges the pages when it has read them.

While the copy runs the device lock is released.  `send_client_msg_dma` is therefore cut at that
point into `PseFw.Heci.dmaBlockBegin`, up to the release, and `PseFw.Heci.dmaBlockEnd`, from the
moment the lock is held again; the loop over the descriptors composes the two.

Main definitions:

* `PseFw.Heci.firstFit` — the scan of the bitmap;
* `PseFw.Heci.heciDmaGetTxBuffer`, `PseFw.Heci.heciDmaFreeTxBuffer` — taking and freeing pages;
* `PseFw.Heci.heciDmaAllocNotification`, `PseFw.Heci.heciDmaXferAck` — the two bus messages;
* `PseFw.Heci.Mrd`, `PseFw.Heci.sendClientMsgDma` — sending a chain of descriptors.

Main results:

* `PseFw.Heci.ioStep_sendClientMsgDma` — sending by DMA leaves the tables alone, and the only
  frames it writes are the `DMA_XFER_REQ` messages of its descriptors.
-/

import PseFw.Heci.HostIo

set_option relaxedAutoImplicit false
set_option autoImplicit false

namespace PseFw.Heci

/-! ### Descriptors -/

/-- `mrd_t`: a piece of a message.  `buf` is the memory it points to, `none` for a null pointer; the
chain of the `next` pointers is a list. -/
structure Mrd where
  len : ℕ
  buf : Option (List UInt8)
  len_eq : ∀ b ∈ buf, b.length = len

/-- The bytes of a descriptor. -/
def Mrd.bytes (m : Mrd) : List UInt8 := m.buf.getD (List.replicate m.len 0)

@[simp] theorem Mrd.length_bytes (m : Mrd) : m.bytes.length = m.len := by
  unfold Mrd.bytes
  cases hb : m.buf with
  | none => simp
  | some b => simpa using m.len_eq b hb

/-- The descriptor of a piece of memory. -/
def Mrd.ofBytes (b : List UInt8) : Mrd where
  len := b.length
  buf := some b
  len_eq := by simp

/-- The bytes a chain describes. -/
def chainBytes (msg : List Mrd) : List UInt8 := msg.flatMap Mrd.bytes

/-! ### The page allocator -/

/-- `GET_NUM_PAGE_BITMAPS`. -/
def getNumPageBitmaps (size : UInt32) : UInt32 := (size + 32 - 1) / 32

/-- `GET_NUM_PAGES`. -/
def getNumPages (size : UInt32) : UInt32 := (size + 4096 - 1) / 4096

/-- The first page in use among the `k` pages from `j` on. -/
def firstUsed (bitmap : ℕ → Bool) : ℕ → ℕ → Option ℕ
  | 0, _ => none
  | k + 1, j => if bitmap j then some j else firstUsed bitmap k (j + 1)

/-- The scan for `pages` free pages: `i` runs up to `bound`, and a page in use found behind `i`
becomes the page the scan continues after. -/
def firstFit (bitmap : ℕ → Bool) (pages bound : ℕ) : ℕ → ℕ → Option ℕ
  | 0, _ => none
  | fuel + 1, i =>
      if i ≤ bound then
        if bitmap i then firstFit bitmap pages bound fuel (i + 1)
        else
          match firstUsed bitmap pages i with
          | some j => firstFit bitmap pages bound fuel (j + 1)
          | none => some i
      else none

/-- The bitmap with the `pages` pages from `i` on set to `v`. -/
def markPages (bitmap : ℕ → Bool) (i pages : ℕ) (v : Bool) : ℕ → Bool :=
  fun k => if i ≤ k ∧ k < i + pages then v else bitmap k

/-- `heci_dma_get_tx_buffer`: the address of enough free pages, which are then in use.  The bound of
the scan is computed in unsigned arithmetic. -/
def heciDmaGetTxBuffer (reqLen : UInt32) (s : HeciDev) : Option UInt64 × HeciDev :=
  let info := s.hostRxDma
  if info.numPages = 0 then (none, s)
  else
    let pages := getNumPages reqLen
    if pages.toNat > pageBitmapNum * bitsPerDw then (none, s)
    else
      let bound := (info.numPages - pages).toNat
      match firstFit info.pageBitmap pages.toNat bound (bound + 1) 0 with
      | none => (none, s)
      | some i =>
          (some (info.dmaAddr + UInt64.ofNat (i * configHeciPageSize)),
            { s with hostRxDma :=
              { info with pageBitmap := markPages info.pageBitmap i pages.toNat true } })

/-- `heci_dma_free_tx_buffer`: clear the bits of the pages.  The loop counts in signed 32-bit
numbers and stops at an unsigned bound, so it does nothing when the bound wraps around. -/
def heciDmaFreeTxBuffer (dmaAddr : UInt64) (len : UInt32) (s : HeciDev) : HeciDev :=
  let info := s.hostRxDma
  let pageIndex := ((dmaAddr - info.dmaAddr) / UInt64.ofNat configHeciPageSize).toUInt32
  let pages := getNumPages len
  if pageIndex ≤ pageIndex + pages then
    { s with hostRxDma :=
      { info with pageBitmap := markPages info.pageBitmap pageIndex.toNat pages.toNat false } }
  else s

/-! ### The bus messages of the host buffer -/

/-- A little-endian number of `n` bytes at offset `i` of the payload.  Past the packet it reads the
stack. -/
def HeciBusMsg.word (P : Platform) (m : HeciBusMsg) (n i : ℕ) : ℕ :=
  ((List.range n).map fun k =>
    (if i + k < heciMaxPayloadSize then m.byte (i + k) else P.stack (i + k)).toNat * 256 ^ k).sum

/-- `heci_dma_alloc_notification`: the host announces its buffer. -/
def heciDmaAllocNotification (P : Platform) (msg : HeciBusMsg) (s : HeciDev) : HeciDev :=
  if msg.hdr.len < 4 + 12 then busReply P (dmaAllocRespBytes 1) s
  else
    let size := UInt32.ofNat (msg.word P 4 4)
    let dmaAddr := UInt64.ofNat (msg.word P 8 8)
    let s := { s with hostRxDma := { HostRxDmaInfo.zero with dmaAddr := dmaAddr, size := size } }
    if size.toNat % configHeciPageSize ≠ 0 ∨ dmaAddr.toNat % configHeciPageSize ≠ 0 then
      busReply P (dmaAllocRespBytes 1) s
    else
      let size := if size.toNat > maxHostSize then UInt32.ofNat maxHostSize else size
      let s := { s with hostRxDma :=
        { s.hostRxDma with
          size := size
          dmaSem := 0
          dmaLock := 0
          numPages := getNumPageBitmaps size } }
      busReply P (dmaAllocRespBytes 0) s

/-- The loop of `heci_dma_xfer_ack` over the records of sixteen bytes from offset `i` on. -/
def xferAckLoop (P : Platform) (msg : HeciBusMsg) : ℕ → ℕ → HeciDev → HeciDev
  | 0, _, s => s
  | fuel + 1, i, s =>
      if i < msg.hdr.len then
        xferAckLoop P msg fuel (i + 16)
          (heciDmaFreeTxBuffer (UInt64.ofNat (msg.word P 8 i))
            (UInt32.ofNat (msg.word P 4 (i + 8))) s)
      else s

/-- `heci_dma_xfer_ack`: the host is done with some pages. -/
def heciDmaXferAck (P : Platform) (msg : HeciBusMsg) (s : HeciDev) : HeciDev :=
  if msg.hdr.len < 4 then s else xferAckLoop P msg msg.hdr.len 4 s

/-! ### Sending by DMA -/

/-- A block of a message that is being copied: its address in the host buffer and the handler of the
host access it holds. -/
structure DmaBlock where
  dramAddr : UInt64
  hostReqHandler : ℤ
  deriving DecidableEq, Repr

/-- The body of the loop of `send_client_msg_dma` up to the copy: take pages and ask for host
access.  A non-zero handler counts as a failure here. -/
def dmaBlockBegin (P : Platform) (m : Mrd) (s : HeciDev) : Option DmaBlock × HeciDev :=
  match heciDmaGetTxBuffer (UInt32.ofNat m.len) s with
  | (none, s) => (none, s)
  | (some dramAddr, s) =>
      if P.sysMng then
        let hostReqHandler := P.hostAccessReq s.events.length
        let s := s.log (.hostAccessReq hostReqHandler)
        if hostReqHandler ≠ 0 then (none, heciDmaFreeTxBuffer dramAddr (UInt32.ofNat m.len) s)
        else (some ⟨dramAddr, hostReqHandler⟩, s)
      else (some ⟨dramAddr, 0⟩, s)

/-- The body of the loop of `send_client_msg_dma` after the copy, which returned `ret`: release the
host access and tell the host where the block is, or free its pages. -/
def dmaBlockEnd (P : Platform) (fwAddr hostAddr : UInt8) (m : Mrd) (b : DmaBlock) (ret : ℤ)
    (s : HeciDev) : Bool × HeciDev :=
  let s := if P.sysMng then s.log (.hostAccessDereq b.hostReqHandler) else s
  if ret ≠ 0 then (false, heciDmaFreeTxBuffer b.dramAddr (UInt32.ofNat m.len) s)
  else
    match heciSendProtoMsg P heciDriverAddress heciDriverAddress true
        (dmaXferReqBytes fwAddr hostAddr b.dramAddr m.len) s with
    | (true, s) => (true, s)
    | (false, s) => (false, heciDmaFreeTxBuffer b.dramAddr (UInt32.ofNat m.len) s)

/-- `send_client_msg_dma`, run without interruption. -/
def sendClientMsgDma (P : Platform) (fwAddr hostAddr : UInt8) : List Mrd → HeciDev → Bool × HeciDev
  | [], s => (true, s)
  | m :: ms, s =>
      match dmaBlockBegin P m s with
      | (none, s) => (false, s)
      | (some b, s) =>
          match dmaBlockEnd P fwAddr hostAddr m b (P.dmaCopy s.events.length) s with
          | (false, s) => (false, s)
          | (true, s) => sendClientMsgDma P fwAddr hostAddr ms s

/-! ### What sending by DMA leaves alone -/

/-- The announcement of a block. -/
def IsDmaXferReq (fwAddr hostAddr : UInt8) (f : HeciBusMsg) : Prop :=
  ∃ addr len, f = busFrame (dmaXferReqBytes fwAddr hostAddr addr len)

theorem ioStep_heciDmaGetTxBuffer (W : HeciBusMsg → Prop) (n : UInt32) (s : HeciDev) :
    IoStep W s (heciDmaGetTxBuffer n s).2 := by
  unfold heciDmaGetTxBuffer
  dsimp only
  split
  · exact IoStep.refl W s
  · split
    · exact IoStep.refl W s
    · split
      · exact IoStep.refl W s
      · exact IoStep.dma _ s

theorem ioStep_heciDmaFreeTxBuffer (W : HeciBusMsg → Prop) (a : UInt64) (n : UInt32)
    (s : HeciDev) : IoStep W s (heciDmaFreeTxBuffer a n s) := by
  unfold heciDmaFreeTxBuffer
  dsimp only
  split
  · exact IoStep.dma _ s
  · exact IoStep.refl W s

theorem ioStep_dmaBlockBegin (W : HeciBusMsg → Prop) (P : Platform) (m : Mrd) (s : HeciDev) :
    IoStep W s (dmaBlockBegin P m s).2 := by
  have hget := ioStep_heciDmaGetTxBuffer W (UInt32.ofNat m.len) s
  unfold dmaBlockBegin
  split
  · next h => rw [h] at hget; exact hget
  · next a s₁ h =>
      rw [h] at hget
      have hacc := IoStep.log_access (W := W)
        (IoEvent.hostAccessReq (P.hostAccessReq s₁.events.length)) s₁
      split
      · dsimp only
        split
        · exact (hget.trans hacc).trans (ioStep_heciDmaFreeTxBuffer W _ _ _)
        · exact hget.trans hacc
      · exact hget

theorem ioStep_dmaBlockEnd (P : Platform) (f h : UInt8) (m : Mrd) (b : DmaBlock) (ret : ℤ)
    (s : HeciDev) : IoStep (IsDmaXferReq f h) s (dmaBlockEnd P f h m b ret s).2 := by
  have hdereq : IoStep (IsDmaXferReq f h) s
      (if P.sysMng then s.log (.hostAccessDereq b.hostReqHandler) else s) := by
    split
    · exact IoStep.log_access (IoEvent.hostAccessDereq _) s
    · exact IoStep.refl _ s
  unfold dmaBlockEnd
  dsimp only
  generalize (if P.sysMng then s.log (.hostAccessDereq b.hostReqHandler) else s) = s₁ at hdereq ⊢
  have hsend : IoStep (IsDmaXferReq f h) s₁ (heciSendProtoMsg P heciDriverAddress heciDriverAddress
      true (dmaXferReqBytes f h b.dramAddr m.len) s₁).2 :=
    IoStep.sendProtoMsg P ⟨b.dramAddr, m.len, rfl⟩ s₁
  split
  · exact hdereq.trans (ioStep_heciDmaFreeTxBuffer _ _ _ _)
  · split
    · next hr => rw [hr] at hsend; exact hdereq.trans hsend
    · next hr =>
        rw [hr] at hsend
        exact (hdereq.trans hsend).trans (ioStep_heciDmaFreeTxBuffer _ _ _ _)

/-- **Sending by DMA leaves the tables alone**, and announces blocks of the given connection only.
-/
theorem ioStep_sendClientMsgDma (P : Platform) (f h : UInt8) (msg : List Mrd) (s : HeciDev) :
    IoStep (IsDmaXferReq f h) s (sendClientMsgDma P f h msg s).2 := by
  induction msg generalizing s with
  | nil => exact IoStep.refl _ s
  | cons m ms ih =>
      have hbegin := ioStep_dmaBlockBegin (IsDmaXferReq f h) P m s
      unfold sendClientMsgDma
      split
      · next hb => rw [hb] at hbegin; exact hbegin
      · next b s₁ hb =>
          rw [hb] at hbegin
          have hend := ioStep_dmaBlockEnd P f h m b (P.dmaCopy s₁.events.length) s₁
          split
          · next he => rw [he] at hend; exact hbegin.trans hend
          · next s₂ he =>
              rw [he] at hend
              exact (hbegin.trans hend).trans (ih s₂)

theorem ioStep_heciDmaAllocNotification (P : Platform) (msg : HeciBusMsg) (s : HeciDev) :
    IoStep (fun f => ∃ st, f = busFrame (dmaAllocRespBytes st)) s
      (heciDmaAllocNotification P msg s) := by
  unfold heciDmaAllocNotification
  dsimp only
  split
  · exact IoStep.sendProtoMsg P ⟨1, rfl⟩ s
  · split
    · exact (IoStep.dma _ s).trans (IoStep.sendProtoMsg P ⟨1, rfl⟩ _)
    · exact (IoStep.dma _ s).trans (IoStep.sendProtoMsg P ⟨0, rfl⟩ _)

theorem ioStep_xferAckLoop (W : HeciBusMsg → Prop) (P : Platform) (msg : HeciBusMsg) (fuel i : ℕ)
    (s : HeciDev) : IoStep W s (xferAckLoop P msg fuel i s) := by
  induction fuel generalizing i s with
  | zero => exact IoStep.refl W s
  | succ fuel ih =>
      unfold xferAckLoop
      split
      · exact (ioStep_heciDmaFreeTxBuffer W _ _ s).trans (ih _ _)
      · exact IoStep.refl W s

theorem ioStep_heciDmaXferAck (W : HeciBusMsg → Prop) (P : Platform) (msg : HeciBusMsg)
    (s : HeciDev) : IoStep W s (heciDmaXferAck P msg s) := by
  unfold heciDmaXferAck
  split
  · exact IoStep.refl W s
  · exact ioStep_xferAckLoop W P msg _ _ s

end PseFw.Heci
