/-
**First fit: which pages a request gets.**

The bitmap of the pages is an array of 32 words.  The scan for free pages steps behind a page in use
as soon as it meets one, and continues there; no start in between could have worked.

With the bitmap in its words, the allocator of `PseFw.Heci.Dma` sees the bits `atomic_test_bit`
reads and leaves those `atomic_set_bit` writes.  When the number of pages fits the bitmap, a request
that is not too large gets the first free run there is.  What is too large is decided by a constant
that is smaller than the bitmap: 320 pages.

Main definitions:

* `PseFw.Heci.DmaWords` — the host buffer with the words of its bitmap;
* `PseFw.Heci.heciDmaGetTxBufferWords` — the allocator on the words;
* `PseFw.Heci.FreePages` — a free run among the first pages;
* `PseFw.Heci.TakesFirst` — what a request is to do.

Main results:

* `PseFw.Heci.heciDmaGetTxBuffer_view` — the allocator on the words is the allocator;
* `PseFw.Heci.takesFirst_of_fits` — **a request takes the first free run**.
-/

import PseFw.Lib.Bitmap
import PseFw.Heci.Pages

set_option relaxedAutoImplicit false
set_option autoImplicit false

namespace PseFw.Heci

/-! ### The bitmap in its words -/

/-- `struct host_rx_dma_info`, the fields of the allocator, with the words of `page_bitmap`. -/
structure DmaWords where
  dmaAddr : UInt64
  numPages : UInt32
  pageBitmap : ℕ → BitVec bitsPerDw

/-- `BITMAP_SLC`. -/
def bitmapSlc (idx : ℕ) : ℕ := idx / bitsPerDw

/-- `BITMAP_BIT`. -/
def bitmapBit (idx : ℕ) : ℕ := idx % bitsPerDw

/-- `atomic_test_bit`, of the bit of a page. -/
def pageUsed (pageBitmap : ℕ → BitVec bitsPerDw) (idx : ℕ) : Bool :=
  (pageBitmap (bitmapSlc idx)).getLsbD (bitmapBit idx)

/-- `atomic_set_bit`, of the bit of a page. -/
def usePage (pageBitmap : ℕ → BitVec bitsPerDw) (idx : ℕ) : ℕ → BitVec bitsPerDw :=
  Function.update pageBitmap (bitmapSlc idx)
    (pageBitmap (bitmapSlc idx) ||| BitVec.twoPow bitsPerDw (bitmapBit idx))

/-- The loop that marks the pages that were found. -/
def usePages (pageBitmap : ℕ → BitVec bitsPerDw) : ℕ → ℕ → ℕ → BitVec bitsPerDw
  | 0, _ => pageBitmap
  | pages + 1, j => usePages (usePage pageBitmap j) pages (j + 1)

/-- `heci_dma_get_tx_buffer`. -/
def heciDmaGetTxBufferWords (reqLen : UInt32) (info : DmaWords) : Option UInt64 × DmaWords :=
  if info.numPages = 0 then (none, info)
  else
    let pages := getNumPages reqLen
    if pages.toNat > pageBitmapNum * bitsPerDw then (none, info)
    else
      let bound := (info.numPages - pages).toNat
      match firstFit (pageUsed info.pageBitmap) pages.toNat bound (bound + 1) 0 with
      | none => (none, info)
      | some i =>
          (some (info.dmaAddr + UInt64.ofNat (i * configHeciPageSize)),
            { info with pageBitmap := usePages info.pageBitmap pages.toNat i })

/-! ### The words and their bits -/

/-- The record of the device whose bitmap has these words. -/
def DmaWords.view (d : DmaWords) (info : HostRxDmaInfo) : HostRxDmaInfo :=
  { info with dmaAddr := d.dmaAddr, numPages := d.numPages, pageBitmap := pageUsed d.pageBitmap }

theorem usePages_eq_setRange (pageBitmap : ℕ → BitVec bitsPerDw) (pages j : ℕ) :
    usePages pageBitmap pages j = Bitmap.setRange pages j pageBitmap := by
  induction pages generalizing pageBitmap j with
  | zero => rfl
  | succ pages ih => exact ih (usePage pageBitmap j) (j + 1)

/-- **The pages in use behind the marking loop.** -/
theorem pageUsed_usePages (pageBitmap : ℕ → BitVec bitsPerDw) (pages i k : ℕ) :
    pageUsed (usePages pageBitmap pages i) k =
      (pageUsed pageBitmap k || decide (i ≤ k ∧ k < i + pages)) := by
  rw [usePages_eq_setRange]
  exact Bitmap.testBit_setRange (by decide) pages i pageBitmap k

theorem pageUsed_usePages_eq_markPages (pageBitmap : ℕ → BitVec bitsPerDw) (pages i : ℕ) :
    pageUsed (usePages pageBitmap pages i) = markPages (pageUsed pageBitmap) i pages true := by
  funext k
  rw [pageUsed_usePages]
  unfold markPages
  by_cases h : i ≤ k ∧ k < i + pages
  · simp [h]
  · simp [h]

/-- **The allocator on the words is the allocator.** -/
theorem heciDmaGetTxBuffer_view (reqLen : UInt32) (d : DmaWords) (s : HeciDev)
    (h : s.hostRxDma = d.view s.hostRxDma) :
    heciDmaGetTxBuffer reqLen s =
      ((heciDmaGetTxBufferWords reqLen d).1,
        { s with hostRxDma := (heciDmaGetTxBufferWords reqLen d).2.view s.hostRxDma }) := by
  have hkeep : s = { s with hostRxDma := d.view s.hostRxDma } := by rw [← h]
  have haddr : s.hostRxDma.dmaAddr = d.dmaAddr := by rw [h]; rfl
  have hnum : s.hostRxDma.numPages = d.numPages := by rw [h]; rfl
  have hbits : s.hostRxDma.pageBitmap = pageUsed d.pageBitmap := by rw [h]; rfl
  unfold heciDmaGetTxBuffer heciDmaGetTxBufferWords
  dsimp only
  rw [haddr, hnum, hbits]
  split
  · rw [← hkeep]
  · split
    · rw [← hkeep]
    · cases firstFit (pageUsed d.pageBitmap) (getNumPages reqLen).toNat
        (d.numPages - getNumPages reqLen).toNat
        ((d.numPages - getNumPages reqLen).toNat + 1) 0 with
      | none => rw [← hkeep]
      | some i =>
          dsimp only
          rw [← pageUsed_usePages_eq_markPages]
          rfl

/-! ### First fit -/

/-- The `pages` pages from `i` on are free, and are among the first `num_pages` ones. -/
def FreePages (d : DmaWords) (pages i : ℕ) : Prop :=
  i + pages ≤ d.numPages.toNat ∧ ∀ k < pages, pageUsed d.pageBitmap (i + k) = false

/-- **A request takes the first free run**: it succeeds when it is allowed and there is one, takes
the one with the lowest start, which is inside the bitmap, and marks its pages, or leaves everything
as it is. -/
structure TakesFirst (allowed : ℕ → Prop) (d : DmaWords) (pages : ℕ)
    (r : Option UInt64 × DmaWords) : Prop where
  succeeds : r.1.isSome = true ↔ allowed pages ∧ ∃ i, FreePages d pages i
  taken : ∀ addr, r.1 = some addr → ∃ i, FreePages d pages i ∧
    (∀ i', FreePages d pages i' → i ≤ i') ∧ i + pages ≤ pageBitmapBits ∧
    addr = d.dmaAddr + UInt64.ofNat (i * configHeciPageSize) ∧
    r.2.dmaAddr = d.dmaAddr ∧ r.2.numPages = d.numPages ∧
    ∀ k, pageUsed r.2.pageBitmap k = (pageUsed d.pageBitmap k || decide (i ≤ k ∧ k < i + pages))
  failed : r.1 = none → r.2 = d

variable {d : DmaWords} {reqLen : UInt32}

/-- The runs the scan looks for are the free runs. -/
theorem freePages_iff (hone : 1 ≤ (getNumPages reqLen).toNat)
    (hle : (getNumPages reqLen).toNat ≤ d.numPages.toNat) (i : ℕ) :
    FreePages d (getNumPages reqLen).toNat i ↔
      i ≤ (d.numPages - getNumPages reqLen).toNat ∧
        FreeRun (pageUsed d.pageBitmap) (getNumPages reqLen).toNat i := by
  have hbound : (d.numPages - getNumPages reqLen).toNat =
      d.numPages.toNat - (getNumPages reqLen).toNat :=
    UInt32.toNat_sub_of_le _ _ (UInt32.le_iff_toNat_le.2 hle)
  unfold FreePages FreeRun
  rw [hbound]
  constructor
  · rintro ⟨hfit, hfree⟩
    exact ⟨by omega, hfree 0 hone, hfree⟩
  · rintro ⟨hfit, -, hfree⟩
    exact ⟨by omega, hfree⟩

/-- A request that is refused leaves everything as it is. -/
theorem takesFirst_none {allowed : ℕ → Prop} {pages : ℕ}
    (h : ¬ (allowed pages ∧ ∃ i, FreePages d pages i)) : TakesFirst allowed d pages (none, d) := by
  constructor
  · exact ⟨fun hsome => absurd hsome (by simp), fun hfree => absurd hfree h⟩
  · intro addr haddr
    cases haddr
  · exact fun _ => rfl

/-- **First fit is complete.**  A request of at most all the pages, which fit the bitmap, takes the
first free run unless it is for more than 320 pages. -/
theorem takesFirst_of_fits (d : DmaWords) (reqLen : UInt32)
    (hfits : d.numPages.toNat ≤ pageBitmapBits) (hone : 1 ≤ (getNumPages reqLen).toNat)
    (hle : (getNumPages reqLen).toNat ≤ d.numPages.toNat) :
    TakesFirst (· ≤ pageBitmapNum * bitsPerDw) d (getNumPages reqLen).toNat
      (heciDmaGetTxBufferWords reqLen d) := by
  have hnum : d.numPages ≠ 0 := by
    intro h
    rw [h] at hle
    simp at hle
    omega
  have hiff := freePages_iff hone hle
  unfold heciDmaGetTxBufferWords
  rw [if_neg hnum]
  dsimp only
  by_cases hpages : (getNumPages reqLen).toNat > pageBitmapNum * bitsPerDw
  · rw [if_pos hpages]
    exact takesFirst_none fun h => absurd h.1 (Nat.not_le.2 hpages)
  · rw [if_neg hpages]
    cases hscan : firstFit (pageUsed d.pageBitmap) (getNumPages reqLen).toNat
      (d.numPages - getNumPages reqLen).toNat
      ((d.numPages - getNumPages reqLen).toNat + 1) 0 with
    | none =>
        have hnone : ¬ ∃ i, FreePages d (getNumPages reqLen).toNat i := by
          rintro ⟨i, hi⟩
          obtain ⟨hbound, hrun⟩ := (hiff i).1 hi
          exact firstFit_none (by omega) hscan i (Nat.zero_le i) hbound hrun
        exact takesFirst_none fun h => hnone h.2
    | some i =>
        obtain ⟨-, hbound, hrun, hleast⟩ := firstFit_least hscan
        have hfree := (hiff i).2 ⟨hbound, hrun⟩
        constructor
        · exact ⟨fun _ => ⟨Nat.le_of_not_lt hpages, i, hfree⟩, fun _ => rfl⟩
        · intro addr haddr
          cases haddr
          refine ⟨i, hfree, fun i' hi' => ?_, hfree.1.trans hfits, rfl, rfl, rfl, fun k => ?_⟩
          · exact hleast i' (Nat.zero_le i') ((hiff i').1 hi').2
          · exact pageUsed_usePages d.pageBitmap _ i k
        · intro h
          cases h

/-- A buffer of 512 pages, the first of which is in use. -/
def dma512 : DmaWords where
  dmaAddr := 0x100000
  numPages := 512
  pageBitmap := fun k => if k = 0 then 1#32 else 0#32

/-- 5000 bytes are two pages, and get the second and the third one. -/
theorem takesFirst_dma512 :
    TakesFirst (· ≤ 320) dma512 2 (heciDmaGetTxBufferWords 5000 dma512) :=
  takesFirst_of_fits dma512 5000 (by decide) (by decide) (by decide)

/-- A request for 321 of 512 pages, all but the first of which are free, is refused. -/
theorem refused_dma512 :
    ¬ ((heciDmaGetTxBufferWords 0x141000 dma512).1.isSome = true ↔
      ∃ i, FreePages dma512 (getNumPages 0x141000).toNat i) := by
  intro h
  have hfree : FreePages dma512 (getNumPages 0x141000).toNat 1 := by
    refine ⟨by decide, fun k _ => ?_⟩
    show (if (1 + k) / 32 = 0 then 1#32 else 0#32).getLsbD ((1 + k) % 32) = false
    split
    · next hword =>
        rw [BitVec.getLsbD_one]
        simp
        omega
    · simp
  have hsome := h.2 ⟨1, hfree⟩
  exact absurd hsome (by decide)

end PseFw.Heci
