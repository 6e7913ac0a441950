/-
**The messages of the host about its buffer.**

With a `DMA_ALLOC_NOTIFY` message the host announces its buffer.  A message that is refused should
leave the buffer as it was.  The record of the buffer is cleared and written before the message is
looked at, though, so a refused message leaves the record as it was only if it is too short to be
looked at, or finds the record as it would leave it.

With a `DMA_XFER_RESP` message the host says which blocks it has read.  The message is a list of
records of sixteen bytes, each an address and a length, and for every record `heci_dma_xfer_ack`
clears the bits of its pages.

A record deserves that if it lies wholly inside the payload and names pages of the host buffer that
are in use; any other record should be passed over.  The loop compares the start of a record with
the end of the payload, so it also reads a record that is cut off, and the function it calls takes
every address for one of the buffer.  Whether that does harm depends on which bits the record
reaches: the records that are passed over in effect are those that reach only clear bits of the
bitmap.

Main definitions:

* `PseFw.Heci.ackRecord`, `PseFw.Heci.ReadsRecord`, `PseFw.Heci.HoldsRecord` — the records of a
  message;
* `PseFw.Heci.RangeInUse` — the record names pages of the host buffer that are in use;
* `PseFw.Heci.ackState` — the state before each record;
* `PseFw.Heci.ackSpec` — the pages the host is entitled to free;
* `PseFw.Heci.AckOk` — the message frees these pages, and touches nothing else;
* `PseFw.Heci.allocStatus` — the status an announcement is answered with;
* `PseFw.Heci.RefusalKeeps` — a refused announcement leaves the buffer as it was.

Main results:

* `PseFw.Heci.heciDmaXferAck_eq_ackState` — the loop, record by record;
* `PseFw.Heci.free_of_rangeInUse` — **a record that names pages in use frees exactly these**;
* `PseFw.Heci.ackOk_iff` — **the messages that are acknowledged correctly**;
* `PseFw.Heci.refusalKeeps_iff` — **the announcements that are refused without harm**.
-/

import PseFw.Heci.Pages

set_option relaxedAutoImplicit false
set_option autoImplicit false

namespace PseFw.Heci

/-! ### The records of a message -/

/-- Record `j` of the message. -/
def ackRecord (P : Platform) (msg : HeciBusMsg) (j : ℕ) : PageRange where
  addr := UInt64.ofNat (msg.word P 8 (4 + 16 * j))
  len := UInt32.ofNat (msg.word P 4 (4 + 16 * j + 8))

/-- The record begins inside the payload: the loop reads it. -/
def ReadsRecord (msg : HeciBusMsg) (j : ℕ) : Prop := 4 + 16 * j < msg.hdr.len

/-- The record lies wholly inside the payload. -/
def HoldsRecord (msg : HeciBusMsg) (j : ℕ) : Prop := 4 + 16 * (j + 1) ≤ msg.hdr.len

instance (msg : HeciBusMsg) (j : ℕ) : Decidable (HoldsRecord msg j) :=
  inferInstanceAs (Decidable (_ ≤ _))

/-- The number of records the loop reads. -/
def recordCount (msg : HeciBusMsg) : ℕ := (msg.hdr.len - 4 + 15) / 16

theorem readsRecord_iff {msg : HeciBusMsg} {j : ℕ} : ReadsRecord msg j ↔ j < recordCount msg := by
  unfold ReadsRecord recordCount
  omega

/-- **The state before record `j` is read.** -/
def ackState (P : Platform) (msg : HeciBusMsg) (s : HeciDev) : ℕ → HeciDev
  | 0 => s
  | j + 1 =>
      heciDmaFreeTxBuffer (ackRecord P msg j).addr (ackRecord P msg j).len (ackState P msg s j)

theorem xferAckLoop_eq_ackState (P : Platform) (msg : HeciBusMsg) (s : HeciDev) (fuel j : ℕ)
    (hfuel : recordCount msg ≤ j + fuel) (hj : j ≤ recordCount msg) :
    xferAckLoop P msg fuel (4 + 16 * j) (ackState P msg s j) =
      ackState P msg s (recordCount msg) := by
  induction fuel generalizing j with
  | zero =>
      have hend : j = recordCount msg := by omega
      rw [xferAckLoop, hend]
  | succ fuel ih =>
      rw [xferAckLoop]
      -- only the beginning of the record is compared with the end of the payload
      by_cases hread : 4 + 16 * j < msg.hdr.len
      · have hlt := readsRecord_iff.1 hread
        rw [if_pos hread]
        exact ih (j + 1) (by omega) hlt
      · have hend : j = recordCount msg := by
          have hge := mt readsRecord_iff.2 hread
          omega
        rw [if_neg hread, hend]

/-- **The loop, record by record.** -/
theorem heciDmaXferAck_eq_ackState (P : Platform) (msg : HeciBusMsg) (s : HeciDev) :
    heciDmaXferAck P msg s = ackState P msg s (recordCount msg) := by
  unfold heciDmaXferAck
  split
  · next hlen =>
      have hzero : recordCount msg = 0 := by
        unfold recordCount
        omega
      rw [hzero]
      rfl
  · refine xferAckLoop_eq_ackState P msg s msg.hdr.len 0 ?_ (Nat.zero_le _)
    unfold recordCount
    omega

/-! ### The pages a record names -/

/-- The first page of the range. -/
def firstPage (info : HostRxDmaInfo) (r : PageRange) : ℕ :=
  (r.addr.toNat - info.dmaAddr.toNat) / configHeciPageSize

/-- The number of pages the range covers. -/
def pageCount (r : PageRange) : ℕ := (r.len.toNat + configHeciPageSize - 1) / configHeciPageSize

/-- **The range is a range of the host buffer that is in use**: it begins at a page of the buffer,
ends inside it, and its pages are marked in the bitmap. -/
structure RangeInUse (info : HostRxDmaInfo) (r : PageRange) : Prop where
  base : info.dmaAddr ≤ r.addr
  aligned : (r.addr.toNat - info.dmaAddr.toNat) % configHeciPageSize = 0
  inside : r.addr.toNat - info.dmaAddr.toNat + r.len.toNat ≤ info.size.toNat
  used : ∀ k < pageCount r, firstPage info r + k < pageBitmapBits ∧
    info.pageBitmap (firstPage info r + k) = true

instance (info : HostRxDmaInfo) (r : PageRange) : Decidable (RangeInUse info r) :=
  decidable_of_iff (info.dmaAddr ≤ r.addr ∧
      (r.addr.toNat - info.dmaAddr.toNat) % configHeciPageSize = 0 ∧
      r.addr.toNat - info.dmaAddr.toNat + r.len.toNat ≤ info.size.toNat ∧
      ∀ k < pageCount r, firstPage info r + k < pageBitmapBits ∧
        info.pageBitmap (firstPage info r + k) = true)
    ⟨fun h => ⟨h.1, h.2.1, h.2.2.1, h.2.2.2⟩, fun h => ⟨h.base, h.aligned, h.inside, h.used⟩⟩

/-- The buffer without the pages of the range. -/
def HostRxDmaInfo.release (info : HostRxDmaInfo) (r : PageRange) : HostRxDmaInfo :=
  { info with pageBitmap := markPages info.pageBitmap (firstPage info r) (pageCount r) false }

/-- Every bit a record reaches is clear afterwards, and no other bit changes. -/
theorem free_pageBitmap (dmaAddr : UInt64) (len : UInt32) (s : HeciDev) (k : ℕ) :
    (heciDmaFreeTxBuffer dmaAddr len s).hostRxDma.pageBitmap k =
      if k ∈ freeTouches dmaAddr len s.hostRxDma then false else s.hostRxDma.pageBitmap k := by
  by_cases hruns : FreeRuns s.hostRxDma dmaAddr len
  · rw [free_of_runs hruns, freeTouches, if_pos hruns]
    exact if_congr List.mem_range'_1.symm rfl rfl
  · rw [free_of_not_runs hruns, freeTouches, if_neg hruns, if_neg List.not_mem_nil]

/-- Freeing changes nothing but the bitmap. -/
theorem free_hostRxDma (dmaAddr : UInt64) (len : UInt32) (s : HeciDev) :
    (heciDmaFreeTxBuffer dmaAddr len s).hostRxDma = { s.hostRxDma with
      pageBitmap := (heciDmaFreeTxBuffer dmaAddr len s).hostRxDma.pageBitmap } := by
  by_cases hruns : FreeRuns s.hostRxDma dmaAddr len
  · rw [free_of_runs hruns]
  · rw [free_of_not_runs hruns]

section range

variable {info : HostRxDmaInfo} {r : PageRange}

/-- The page computed for the address is the first page of the range. -/
theorem RangeInUse.pageIndex_eq (h : RangeInUse info r) :
    (pageIndex info r.addr).toNat = firstPage info r := by
  have hinside := h.inside
  have hsize := info.size.toNat_lt
  rw [pageIndex, firstPage, UInt64.toNat_toUInt32, UInt64.toNat_div,
    UInt64.toNat_sub_of_le _ _ h.base]
  simp only [configHeciPageSize, UInt64.toNat_ofNat', show 4096 % 2 ^ 64 = 4096 from rfl]
  omega

/-- The number of pages computed for the length is the number of pages of the range. -/
theorem RangeInUse.getNumPages_eq (h : RangeInUse info r) :
    (getNumPages r.len).toNat = pageCount r ∧ pageCount r ≤ pageBitmapBits := by
  have hcount : pageCount r ≤ pageBitmapBits := by
    by_contra hlt
    have := (h.used (pageCount r - 1) (by omega)).1
    omega
  refine ⟨?_, hcount⟩
  unfold pageCount at hcount ⊢
  unfold getNumPages
  simp only [UInt32.toNat_div, UInt32.toNat_sub, UInt32.toNat_add, UInt32.reduceToNat,
    configHeciPageSize, pageBitmapBits, bitsPerDw] at hcount ⊢
  omega

theorem RangeInUse.freeRuns (h : RangeInUse info r) : FreeRuns info r.addr r.len := by
  obtain ⟨hpages, hcount⟩ := h.getNumPages_eq
  have hinside := h.inside
  have hsize := info.size.toNat_lt
  have hfirst : firstPage info r < 2 ^ 20 := by
    unfold firstPage
    simp only [configHeciPageSize]
    omega
  rw [FreeRuns, UInt32.le_iff_toNat_le, UInt32.toNat_add, h.pageIndex_eq, hpages]
  simp only [pageBitmapBits, bitsPerDw] at hcount
  omega

end range

/-- **A record that names pages in use frees exactly these.** -/
theorem free_of_rangeInUse {s : HeciDev} {r : PageRange} (h : RangeInUse s.hostRxDma r) :
    (heciDmaFreeTxBuffer r.addr r.len s).hostRxDma = s.hostRxDma.release r := by
  rw [free_of_runs h.freeRuns, h.pageIndex_eq, h.getNumPages_eq.1]
  rfl

/-! ### What the host is entitled to -/

/-- The buffer after a record: the pages are free if the record is whole and names pages in use. -/
def ackOne (whole : Prop) [Decidable whole] (r : PageRange) (info : HostRxDmaInfo) :
    HostRxDmaInfo :=
  if whole ∧ RangeInUse info r then info.release r else info

/-- **The buffer the host is entitled to**, before record `j`. -/
def ackSpec (P : Platform) (msg : HeciBusMsg) (info : HostRxDmaInfo) : ℕ → HostRxDmaInfo
  | 0 => info
  | j + 1 => ackOne (HoldsRecord msg j) (ackRecord P msg j) (ackSpec P msg info j)

/-- **A record is dealt with correctly**: if it is whole and names pages in use, they are freed;
otherwise no bit changes, and no bit behind the bitmap is touched. -/
structure RecordOk (whole : Prop) (r : PageRange) (s : HeciDev) : Prop where
  frees : whole ∧ RangeInUse s.hostRxDma r →
    (heciDmaFreeTxBuffer r.addr r.len s).hostRxDma = s.hostRxDma.release r
  leaves : ¬ (whole ∧ RangeInUse s.hostRxDma r) →
    (heciDmaFreeTxBuffer r.addr r.len s).hostRxDma = s.hostRxDma ∧
      ∀ k ∈ freeTouches r.addr r.len s.hostRxDma, k < pageBitmapBits

/-- **The message is acknowledged correctly**: every record that is read is dealt with correctly in
its turn, and in the end the buffer is what the host is entitled to. -/
structure AckOk (P : Platform) (msg : HeciBusMsg) (s : HeciDev) : Prop where
  records : ∀ j, ReadsRecord msg j →
    RecordOk (HoldsRecord msg j) (ackRecord P msg j) (ackState P msg s j)
  result : (heciDmaXferAck P msg s).hostRxDma = ackSpec P msg s.hostRxDma (recordCount msg)

/-- The record reaches only clear bits of the bitmap. -/
def Harmless (info : HostRxDmaInfo) (r : PageRange) : Prop :=
  ∀ k ∈ freeTouches r.addr r.len info, k < pageBitmapBits ∧ info.pageBitmap k = false

/-- **Every record that is read**, also one that is cut off, names pages that are in use when its
turn comes, or reaches only clear bits. -/
def AckFits (P : Platform) (msg : HeciBusMsg) (info : HostRxDmaInfo) : Prop :=
  ∀ j, ReadsRecord msg j →
    HoldsRecord msg j ∧ RangeInUse (ackSpec P msg info j) (ackRecord P msg j) ∨
      Harmless (ackSpec P msg info j) (ackRecord P msg j)

section records

variable {P : Platform} {msg : HeciBusMsg} {s : HeciDev}

/-- **The records that are dealt with correctly.** -/
theorem recordOk_iff {whole : Prop} {r : PageRange} :
    RecordOk whole r s ↔ whole ∧ RangeInUse s.hostRxDma r ∨ Harmless s.hostRxDma r := by
  by_cases huse : whole ∧ RangeInUse s.hostRxDma r
  · exact iff_of_true ⟨fun h => free_of_rangeInUse h.2, fun h => absurd huse h⟩ (Or.inl huse)
  · rw [or_iff_right huse]
    refine ⟨fun h k hk => ?_, fun h => ⟨fun h' => absurd h' huse, fun _ => ⟨?_, fun k hk => ?_⟩⟩⟩
    · obtain ⟨hsame, hin⟩ := h.leaves huse
      have hbit := free_pageBitmap r.addr r.len s k
      rw [hsame, if_pos hk] at hbit
      exact ⟨hin k hk, hbit⟩
    · have hsame : (heciDmaFreeTxBuffer r.addr r.len s).hostRxDma.pageBitmap =
          s.hostRxDma.pageBitmap := by
        funext k
        rw [free_pageBitmap]
        split
        · next hk => exact (h k hk).2.symm
        · rfl
      rw [free_hostRxDma, hsame]
    · exact (h k hk).1

/-- A record that is dealt with correctly leaves what the host is entitled to. -/
theorem RecordOk.hostRxDma_eq {whole : Prop} [Decidable whole] {r : PageRange}
    (h : RecordOk whole r s) :
    (heciDmaFreeTxBuffer r.addr r.len s).hostRxDma = ackOne whole r s.hostRxDma := by
  unfold ackOne
  split
  · next huse => exact h.frees huse
  · next huse => exact (h.leaves huse).1

/-- As long as the records are dealt with correctly, the buffer is what the host is entitled to. -/
theorem ackState_hostRxDma {j : ℕ}
    (h : ∀ i < j, RecordOk (HoldsRecord msg i) (ackRecord P msg i) (ackState P msg s i)) :
    (ackState P msg s j).hostRxDma = ackSpec P msg s.hostRxDma j := by
  induction j with
  | zero => rfl
  | succ j ih =>
      have hj := (h j (Nat.lt_succ_self j)).hostRxDma_eq
      rw [ih fun i hi => h i (by omega)] at hj
      exact hj

/-- **The messages that are acknowledged correctly.** -/
theorem ackOk_iff (P : Platform) (msg : HeciBusMsg) (s : HeciDev) :
    AckOk P msg s ↔ AckFits P msg s.hostRxDma := by
  refine ⟨fun h j hread => ?_, fun h => ?_⟩
  · -- the records before this one were dealt with correctly
    have hspec : (ackState P msg s j).hostRxDma = ackSpec P msg s.hostRxDma j := by
      refine ackState_hostRxDma fun i hi => h.records i (readsRecord_iff.2 ?_)
      exact hi.trans (readsRecord_iff.1 hread)
    rw [← hspec]
    exact recordOk_iff.1 (h.records j hread)
  · have hall : ∀ j, ReadsRecord msg j →
        RecordOk (HoldsRecord msg j) (ackRecord P msg j) (ackState P msg s j) := by
      intro j
      induction j using Nat.strong_induction_on with
      | _ j ih =>
          intro hread
          have hspec : (ackState P msg s j).hostRxDma = ackSpec P msg s.hostRxDma j := by
            refine ackState_hostRxDma fun i hi => ih i hi (readsRecord_iff.2 ?_)
            exact hi.trans (readsRecord_iff.1 hread)
          rw [recordOk_iff, hspec]
          exact h j hread
    refine ⟨hall, ?_⟩
    rw [heciDmaXferAck_eq_ackState]
    exact ackState_hostRxDma fun i hi => hall i (readsRecord_iff.2 hi)

end records

/-! ### Messages that do harm -/

/-- A host buffer of sixteen pages, the first of which is in use. -/
def onePageInUse : HeciDev :=
  { coldStart with hostRxDma := { HostRxDmaInfo.zero with
    dmaAddr := 0x10000000
    size := 65536
    numPages := 2048
    pageBitmap := fun k => k == 0 } }

/-- An acknowledgement of one page, cut off after the length. -/
def cutOffAck : HeciBusMsg :=
  busFrame ([genResp busMsgDmaXferReq, 32, 7, 0] ++ le64 0x10000000 ++ le32 4096)

/-- An acknowledgement of a page far behind the buffer. -/
def strayAck : HeciBusMsg :=
  busFrame ([genResp busMsgDmaXferReq, 32, 7, 0] ++ le64 (0x10000000 + 4096 * 5000) ++ le32 4096 ++
    [0, 0, 0, 0])

/-- A record that is cut off frees its page, and a record behind the buffer reaches behind the
bitmap. -/
theorem not_ackOk_stray :
    ¬ HoldsRecord cutOffAck 0 ∧ onePageInUse.hostRxDma.pageBitmap 0 = true ∧
      (heciDmaXferAck Platform.nominal cutOffAck onePageInUse).hostRxDma.pageBitmap 0 = false ∧
      ¬ AckOk Platform.nominal cutOffAck onePageInUse ∧
      5000 ∈ freeTouches (ackRecord Platform.nominal strayAck 0).addr
        (ackRecord Platform.nominal strayAck 0).len onePageInUse.hostRxDma ∧
      ¬ AckOk Platform.nominal strayAck onePageInUse := by
  have hcut : ¬ HoldsRecord cutOffAck 0 := by decide
  have hfreed : (heciDmaXferAck Platform.nominal cutOffAck onePageInUse).hostRxDma.pageBitmap 0 =
      false := by decide +kernel
  have hstray : 5000 ∈ freeTouches (ackRecord Platform.nominal strayAck 0).addr
      (ackRecord Platform.nominal strayAck 0).len onePageInUse.hostRxDma := by decide +kernel
  have houtside : ¬ RangeInUse onePageInUse.hostRxDma (ackRecord Platform.nominal strayAck 0) := by
    decide +kernel
  refine ⟨hcut, rfl, hfreed, fun h => ?_, hstray, fun h => ?_⟩
  · have hspec : (ackSpec Platform.nominal cutOffAck onePageInUse.hostRxDma
        (recordCount cutOffAck)).pageBitmap 0 = true := by decide +kernel
    rw [← h.result, hfreed] at hspec
    cases hspec
  · have hrec := h.records 0 (by decide : 4 + 16 * 0 < strayAck.hdr.len)
    have hlt := (hrec.leaves fun huse => houtside huse.2).2 5000 hstray
    exact absurd hlt (by decide)

/-! ### Announcements that are refused -/

/-- The size a `DMA_ALLOC_NOTIFY` message announces. -/
def announcedSize (P : Platform) (msg : HeciBusMsg) : UInt32 := UInt32.ofNat (msg.word P 4 4)

/-- The address a `DMA_ALLOC_NOTIFY` message announces. -/
def announcedAddr (P : Platform) (msg : HeciBusMsg) : UInt64 := UInt64.ofNat (msg.word P 8 8)

/-- The message is too short to announce a buffer. -/
def TooShort (msg : HeciBusMsg) : Prop := msg.hdr.len < 4 + 12

/-- Neither the size nor the address of the buffer may begin or end inside a page. -/
def Misaligned (P : Platform) (msg : HeciBusMsg) : Prop :=
  (announcedSize P msg).toNat % configHeciPageSize ≠ 0 ∨
    (announcedAddr P msg).toNat % configHeciPageSize ≠ 0

instance (msg : HeciBusMsg) : Decidable (TooShort msg) := inferInstanceAs (Decidable (_ < _))

instance (P : Platform) (msg : HeciBusMsg) : Decidable (Misaligned P msg) :=
  inferInstanceAs (Decidable (_ ∨ _))

/-- **The status a `DMA_ALLOC_NOTIFY` message is answered with.** -/
def allocStatus (P : Platform) (msg : HeciBusMsg) : UInt8 :=
  if TooShort msg ∨ Misaligned P msg then 1 else 0

/-- The record a refused message leaves. -/
def clearedBuffer (P : Platform) (msg : HeciBusMsg) : HostRxDmaInfo :=
  { HostRxDmaInfo.zero with
    dmaAddr := announcedAddr P msg
    size := announcedSize P msg }

/-- **What a message that is refused does**: it is answered, and if it is long enough, the record is
overwritten before. -/
theorem heciDmaAllocNotification_refused {P : Platform} {msg : HeciBusMsg} {s : HeciDev}
    (h : allocStatus P msg ≠ 0) :
    heciDmaAllocNotification P msg s = busReply P (dmaAllocRespBytes (allocStatus P msg))
      (if TooShort msg then s else { s with hostRxDma := clearedBuffer P msg }) := by
  have hbad : TooShort msg ∨ Misaligned P msg := by
    by_contra hgood
    exact h (if_neg hgood)
  rw [allocStatus, if_pos hbad]
  unfold heciDmaAllocNotification
  by_cases hshort : TooShort msg
  · rw [if_pos hshort]
    exact if_pos hshort
  · rw [if_neg hshort]
    exact (if_neg hshort).trans (if_pos (hbad.resolve_left hshort))

/-- A message that is not refused is answered with zero. -/
theorem heciDmaAllocNotification_accepted {P : Platform} {msg : HeciBusMsg} {s : HeciDev}
    (h : allocStatus P msg = 0) :
    ∃ s₁, heciDmaAllocNotification P msg s = busReply P (dmaAllocRespBytes 0) s₁ := by
  have hgood : ¬ (TooShort msg ∨ Misaligned P msg) := by
    intro hbad
    rw [allocStatus, if_pos hbad] at h
    cases h
  obtain ⟨hlong, hal⟩ := not_or.1 hgood
  unfold heciDmaAllocNotification
  exact ⟨_, (if_neg hlong).trans (if_neg hal)⟩

/-- The two records have the same address, size, number of pages, bitmap and locks. -/
structure SameBuffer (a b : HostRxDmaInfo) : Prop where
  dmaAddr : a.dmaAddr = b.dmaAddr
  size : a.size = b.size
  numPages : a.numPages = b.numPages
  pageBitmap : ∀ k < pageBitmapBits, a.pageBitmap k = b.pageBitmap k
  dmaSem : a.dmaSem = b.dmaSem
  dmaLock : a.dmaLock = b.dmaLock

instance (a b : HostRxDmaInfo) : Decidable (SameBuffer a b) :=
  decidable_of_iff (a.dmaAddr = b.dmaAddr ∧ a.size = b.size ∧ a.numPages = b.numPages ∧
      (∀ k < pageBitmapBits, a.pageBitmap k = b.pageBitmap k) ∧ a.dmaSem = b.dmaSem ∧
      a.dmaLock = b.dmaLock)
    ⟨fun h => ⟨h.1, h.2.1, h.2.2.1, h.2.2.2.1, h.2.2.2.2.1, h.2.2.2.2.2⟩,
      fun h => ⟨h.dmaAddr, h.size, h.numPages, h.pageBitmap, h.dmaSem, h.dmaLock⟩⟩

/-- **A message that is refused leaves the buffer as it was.** -/
def RefusalKeeps (P : Platform) (msg : HeciBusMsg) (s : HeciDev) : Prop :=
  allocStatus P msg ≠ 0 →
    SameBuffer (heciDmaAllocNotification P msg s).hostRxDma s.hostRxDma

/-- The record is as a refused message leaves it: nothing but its address and its size is set, and
these are not aligned. -/
structure LeftByRefusal (info : HostRxDmaInfo) (dmaAddr : UInt64) (size : UInt32) : Prop where
  dmaAddr : info.dmaAddr = dmaAddr
  size : info.size = size
  numPages : info.numPages = 0
  pageBitmap : ∀ k < pageBitmapBits, info.pageBitmap k = false
  dmaSem : info.dmaSem = 0
  dmaLock : info.dmaLock = 0

/-- **The announcements that are refused without harm**: those that are too short, and those that
find the record as they would leave it. -/
theorem refusalKeeps_iff (P : Platform) (msg : HeciBusMsg) (s : HeciDev) :
    RefusalKeeps P msg s ↔ allocStatus P msg = 0 ∨ TooShort msg ∨
      LeftByRefusal s.hostRxDma (announcedAddr P msg) (announcedSize P msg) := by
  by_cases hok : allocStatus P msg = 0
  · exact iff_of_true (fun h => absurd hok h) (Or.inl hok)
  rw [or_iff_right hok]
  have hst := heciDmaAllocNotification_refused (s := s) hok
  by_cases hshort : TooShort msg
  · refine iff_of_true (fun _ => ?_) (Or.inl hshort)
    rw [hst, if_pos hshort, busReply_eq]
    exact ⟨rfl, rfl, rfl, fun _ _ => rfl, rfl, rfl⟩
  · -- the record is overwritten, so it has to be that record already
    rw [or_iff_right hshort]
    rw [if_neg hshort, busReply_eq] at hst
    refine ⟨fun h => ?_, fun h _ => ?_⟩
    · have hsame := h hok
      rw [hst] at hsame
      exact ⟨hsame.dmaAddr.symm, hsame.size.symm, hsame.numPages.symm,
        fun k hk => (hsame.pageBitmap k hk).symm, hsame.dmaSem.symm, hsame.dmaLock.symm⟩
    · rw [hst]
      exact ⟨h.dmaAddr.symm, h.size.symm, h.numPages.symm,
        fun k hk => (h.pageBitmap k hk).symm, h.dmaSem.symm, h.dmaLock.symm⟩

/-- An announcement whose size is not a multiple of the page size. -/
def oddAnnouncement : HeciBusMsg :=
  busFrame ([busMsgDmaAllocNotifyReq, 0, 0, 0] ++ le32 4097 ++ le64 0x20000000)

/-- A refused announcement takes the buffer away: the page in use is forgotten, and the next message
finds no buffer. -/
theorem not_refusalKeeps_odd :
    allocStatus Platform.nominal oddAnnouncement = 1 ∧
      (heciDmaGetTxBuffer 4096 onePageInUse).1.isSome = true ∧
      (heciDmaAllocNotification Platform.nominal oddAnnouncement onePageInUse).hostRxDma.pageBitmap
        0 = false ∧
      (heciDmaGetTxBuffer 4096
        (heciDmaAllocNotification Platform.nominal oddAnnouncement onePageInUse)).1 = none ∧
      ¬ RefusalKeeps Platform.nominal oddAnnouncement onePageInUse := by
  have hstatus : allocStatus Platform.nominal oddAnnouncement = 1 := by decide +kernel
  have hbit : (heciDmaAllocNotification Platform.nominal oddAnnouncement
      onePageInUse).hostRxDma.pageBitmap 0 = false := by decide +kernel
  refine ⟨hstatus, by decide +kernel, hbit, by decide +kernel, fun h => ?_⟩
  have hsame := (h (by rw [hstatus]; decide)).pageBitmap 0 (by decide)
  rw [hbit] at hsame
  cases hsame

end PseFw.Heci
