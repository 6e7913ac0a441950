/-
**The page allocator of the host buffer.**

The host announces a buffer in its memory, the firmware hands out pages of it and takes them back.
What is wanted of the allocator: it only looks at bits that belong to the bitmap, it only hands out
what the host announced, and it hands out nothing twice.

The allocator derives the number of pages from the number of bytes by a macro that is meant for the
words of the bitmap, so it believes in 128 pages for each real one; and it takes back whatever it is
told to.  So the three wishes are granted only in runs that keep a discipline: a request finds a
free run inside the buffer and inside the bitmap whenever the scan can find one at all, and what is
taken back stays inside the bitmap and covers every outstanding range wholly or not at all.

Main definitions:

* `PseFw.Heci.firstFitLog`, `PseFw.Heci.getTouches`, `PseFw.Heci.freeTouches` — the bits that are
  touched;
* `PseFw.Heci.PageSys`, `PseFw.Heci.pageStep` — the allocator, with the ranges it has handed out;
* `PseFw.Heci.PagesSafe` — what is wanted;
* `PseFw.Heci.PageDiscipline` — the discipline.

Main results:

* `PseFw.Heci.firstFitLog_fst` — the instrumented scan is the scan;
* `PseFw.Heci.firstFit_least`, `PseFw.Heci.firstFit_none` — what the scan finds;
* `PseFw.Heci.pagesSafe_of_disciplined` — **every disciplined run is safe**;
* `PseFw.Heci.not_pagesSafe_get` — a request outside of the discipline is answered unsafely.
-/

import PseFw.Lib.Transition
import PseFw.Heci.Step

set_option relaxedAutoImplicit false
set_option autoImplicit false

namespace PseFw.Heci

/-! ### The bits that are touched -/

/-- The number of bits of `page_bitmap`: an array of 32 words. -/
abbrev pageBitmapBits : ℕ := bitsPerDw * bitsPerDw

/-- The bits the inner loop of the scan tests. -/
def firstUsedLog (bitmap : ℕ → Bool) : ℕ → ℕ → List ℕ
  | 0, _ => []
  | k + 1, j => j :: if bitmap j then [] else firstUsedLog bitmap k (j + 1)

/-- The scan, together with the bits it tests and sets. -/
def firstFitLog (bitmap : ℕ → Bool) (pages bound : ℕ) : ℕ → ℕ → Option ℕ × List ℕ
  | 0, _ => (none, [])
  | fuel + 1, i =>
      if i ≤ bound then
        if bitmap i then
          let r := firstFitLog bitmap pages bound fuel (i + 1)
          (r.1, i :: r.2)
        else
          match firstUsed bitmap pages i with
          | some j =>
              let r := firstFitLog bitmap pages bound fuel (j + 1)
              (r.1, i :: (firstUsedLog bitmap pages i ++ r.2))
          | none => (some i, i :: (firstUsedLog bitmap pages i ++ List.range' i pages))
      else (none, [])

/-- The instrumented scan is the scan. -/
theorem firstFitLog_fst (bitmap : ℕ → Bool) (pages bound fuel i : ℕ) :
    (firstFitLog bitmap pages bound fuel i).1 = firstFit bitmap pages bound fuel i := by
  induction fuel generalizing i with
  | zero => rfl
  | succ fuel ih =>
      rw [firstFitLog, firstFit]
      split
      · split
        · exact ih (i + 1)
        · cases firstUsed bitmap pages i with
          | some j => exact ih (j + 1)
          | none => rfl
      · rfl

/-- The bound of the scan, in unsigned arithmetic. -/
def scanBound (info : HostRxDmaInfo) (reqLen : UInt32) : ℕ :=
  (info.numPages - getNumPages reqLen).toNat

/-- The bits `heci_dma_get_tx_buffer` touches. -/
def getTouches (reqLen : UInt32) (info : HostRxDmaInfo) : List ℕ :=
  if info.numPages = 0 then []
  else if (getNumPages reqLen).toNat > pageBitmapNum * bitsPerDw then []
  else (firstFitLog info.pageBitmap (getNumPages reqLen).toNat (scanBound info reqLen)
    (scanBound info reqLen + 1) 0).2

/-- The page index `heci_dma_free_tx_buffer` computes from an address. -/
def pageIndex (info : HostRxDmaInfo) (dmaAddr : UInt64) : UInt32 :=
  ((dmaAddr - info.dmaAddr) / UInt64.ofNat configHeciPageSize).toUInt32

/-- The loop of `heci_dma_free_tx_buffer` runs: its bound does not wrap around. -/
def FreeRuns (info : HostRxDmaInfo) (dmaAddr : UInt64) (len : UInt32) : Prop :=
  pageIndex info dmaAddr ≤ pageIndex info dmaAddr + getNumPages len

instance (info : HostRxDmaInfo) (dmaAddr : UInt64) (len : UInt32) :
    Decidable (FreeRuns info dmaAddr len) := inferInstanceAs (Decidable (_ ≤ _))

/-- The bits `heci_dma_free_tx_buffer` touches. -/
def freeTouches (dmaAddr : UInt64) (len : UInt32) (info : HostRxDmaInfo) : List ℕ :=
  if FreeRuns info dmaAddr len then
    List.range' (pageIndex info dmaAddr).toNat (getNumPages len).toNat
  else []

/-! ### The allocator as a transition system -/

/-- A range the allocator has handed out. -/
structure PageRange where
  addr : UInt64
  len : UInt32
  deriving DecidableEq, Repr

/-- **The allocator**, with the size the host announced last, the ranges that are handed out and not
yet freed, and the bits that were touched. -/
structure PageSys where
  dev : HeciDev
  announced : ℕ
  outstanding : List PageRange
  touched : List ℕ

/-- The calls of the allocator. -/
inductive PageCall
  /-- The host sends `DMA_ALLOC_NOTIFY`. -/
  | notify (msg : HeciBusMsg)
  /-- `heci_dma_get_tx_buffer`. -/
  | get (reqLen : UInt32)
  /-- `heci_dma_free_tx_buffer`. -/
  | free (dmaAddr : UInt64) (len : UInt32)

/-- The run of pages a call of `heci_dma_free_tx_buffer` clears contains those of the range. -/
def Covers (info : HostRxDmaInfo) (dmaAddr : UInt64) (len : UInt32) (r : PageRange) : Prop :=
  FreeRuns info dmaAddr len ∧ (pageIndex info dmaAddr).toNat ≤ (pageIndex info r.addr).toNat ∧
    (pageIndex info r.addr).toNat + (getNumPages r.len).toNat ≤
      (pageIndex info dmaAddr).toNat + (getNumPages len).toNat

instance (info : HostRxDmaInfo) (dmaAddr : UInt64) (len : UInt32) (r : PageRange) :
    Decidable (Covers info dmaAddr len r) := inferInstanceAs (Decidable (_ ∧ _ ∧ _))

/-- **A call of the allocator.**  A notification that is long enough forgets all ranges; a call that
frees pages frees the ranges it covers. -/
def pageStep (P : Platform) : PageCall → PageSys → Option PageSys
  | .notify msg, x =>
      if msg.hdr.len < 4 + 12 then some { x with dev := heciDmaAllocNotification P msg x.dev }
      else
        some { x with
          dev := heciDmaAllocNotification P msg x.dev
          announced := (UInt32.ofNat (msg.word P 4 4)).toNat
          outstanding := [] }
  | .get reqLen, x =>
      let r := heciDmaGetTxBuffer reqLen x.dev
      some { x with
        dev := r.2
        outstanding := (r.1.map fun a => ⟨a, reqLen⟩).toList ++ x.outstanding
        touched := x.touched ++ getTouches reqLen x.dev.hostRxDma }
  | .free dmaAddr len, x =>
      some { x with
        dev := heciDmaFreeTxBuffer dmaAddr len x.dev
        outstanding := x.outstanding.filter fun r =>
          ¬ Covers x.dev.hostRxDma dmaAddr len r
        touched := x.touched ++ freeTouches dmaAddr len x.dev.hostRxDma }

/-- The allocator before the host has announced anything. -/
structure PageSys.Initial (x : PageSys) : Prop where
  dev : HeciDev.Initial x.dev
  announced : x.announced = 0
  outstanding : x.outstanding = []
  touched : x.touched = []

/-- The range lies in the buffer the host announced. -/
def InRegion (x : PageSys) (r : PageRange) : Prop :=
  (r.addr - x.dev.hostRxDma.dmaAddr).toNat + r.len.toNat ≤ x.announced

instance (x : PageSys) (r : PageRange) : Decidable (InRegion x r) :=
  inferInstanceAs (Decidable (_ ≤ _))

/-- Two ranges have no byte in common. -/
def Apart (r r' : PageRange) : Prop :=
  ∀ k < r.len.toNat, ∀ k' < r'.len.toNat, r.addr + UInt64.ofNat k ≠ r'.addr + UInt64.ofNat k'

/-- **What is wanted of the allocator.** -/
structure PagesSafe (x : PageSys) : Prop where
  touched : ∀ k ∈ x.touched, k < pageBitmapBits
  inRegion : ∀ r ∈ x.outstanding, InRegion x r
  apart : x.outstanding.Pairwise Apart

/-! ### The discipline -/

/-- `pages` free pages from `i` on; the first of them is tested in any case. -/
def FreeRun (bitmap : ℕ → Bool) (pages i : ℕ) : Prop :=
  bitmap i = false ∧ ∀ k < pages, bitmap (i + k) = false

instance (bitmap : ℕ → Bool) (pages i : ℕ) : Decidable (FreeRun bitmap pages i) :=
  inferInstanceAs (Decidable (_ ∧ ∀ k < pages, _))

/-- The run of pages from `i` on is inside the bitmap and inside the buffer. -/
def RunFits (x : PageSys) (reqLen : UInt32) (i : ℕ) : Prop :=
  i + max (getNumPages reqLen).toNat 1 ≤ pageBitmapBits ∧
    i * configHeciPageSize + reqLen.toNat ≤ x.announced

instance (x : PageSys) (reqLen : UInt32) (i : ℕ) : Decidable (RunFits x reqLen i) :=
  inferInstanceAs (Decidable (_ ∧ _))

/-- **A request keeps the discipline** if it is refused at once, or if one of the free runs the scan
may find, provided there are any, fits. -/
def GetFits (x : PageSys) (reqLen : UInt32) : Prop :=
  x.dev.hostRxDma.numPages = 0 ∨
    (getNumPages reqLen).toNat > pageBitmapNum * bitsPerDw ∨
    ((∃ i ≤ scanBound x.dev.hostRxDma reqLen,
        FreeRun x.dev.hostRxDma.pageBitmap (getNumPages reqLen).toNat i) →
      ∃ i ≤ scanBound x.dev.hostRxDma reqLen,
        FreeRun x.dev.hostRxDma.pageBitmap (getNumPages reqLen).toNat i ∧ RunFits x reqLen i)

/-- The run of pages that is freed does not meet the pages of the range. -/
def Misses (info : HostRxDmaInfo) (dmaAddr : UInt64) (len : UInt32) (r : PageRange) : Prop :=
  (pageIndex info r.addr).toNat + (getNumPages r.len).toNat ≤ (pageIndex info dmaAddr).toNat ∨
    (pageIndex info dmaAddr).toNat + (getNumPages len).toNat ≤ (pageIndex info r.addr).toNat

/-- **What is freed keeps the discipline** if it stays inside the bitmap and covers every range
that is handed out wholly or not at all. -/
def FreeFits (x : PageSys) (dmaAddr : UInt64) (len : UInt32) : Prop :=
  FreeRuns x.dev.hostRxDma dmaAddr len →
    ((getNumPages len).toNat = 0 ∨
      (pageIndex x.dev.hostRxDma dmaAddr).toNat + (getNumPages len).toNat ≤ pageBitmapBits) ∧
    ∀ r ∈ x.outstanding, Covers x.dev.hostRxDma dmaAddr len r ∨ Misses x.dev.hostRxDma dmaAddr len r

/-- **The discipline of the allocator.** -/
def PageDiscipline (x : PageSys) : PageCall → Prop
  | .notify _ => True
  | .get reqLen => GetFits x reqLen
  | .free dmaAddr len => FreeFits x dmaAddr len

instance (x : PageSys) (l : PageCall) : Decidable (PageDiscipline x l) := by
  cases l with
  | notify _ => exact inferInstanceAs (Decidable True)
  | get _ => exact inferInstanceAs (Decidable (_ ∨ _ ∨ (_ → _)))
  | free _ _ => exact inferInstanceAs (Decidable (_ → _ ∧ ∀ r ∈ _, _ ∨ (_ ∨ _)))

/-! ### What the scan finds -/

section scan

variable {bitmap : ℕ → Bool} {pages bound : ℕ}

theorem firstUsed_none {k j : ℕ} (h : firstUsed bitmap k j = none) :
    ∀ t < k, bitmap (j + t) = false := by
  induction k generalizing j with
  | zero => intro t ht; omega
  | succ k ih =>
      rw [firstUsed] at h
      split at h
      · cases h
      · next hj =>
          intro t ht
          cases t with
          | zero => simpa using hj
          | succ t =>
              have := ih h t (by omega)
              rwa [show j + (t + 1) = j + 1 + t by omega]

theorem firstUsed_some {k j m : ℕ} (h : firstUsed bitmap k j = some m) :
    j ≤ m ∧ m < j + k ∧ bitmap m = true := by
  induction k generalizing j with
  | zero => cases h
  | succ k ih =>
      rw [firstUsed] at h
      split at h
      · next hj =>
          cases h
          exact ⟨le_refl _, by omega, hj⟩
      · obtain ⟨h₁, h₂, h₃⟩ := ih h
        exact ⟨by omega, by omega, h₃⟩

/-- A run that starts behind `i` and not behind a page in use contains that page. -/
theorem not_freeRun_of_used {i j k : ℕ} (hj : bitmap j = true) (hij : j < i + pages)
    (hik : i ≤ k) (hkj : k ≤ j) : ¬ FreeRun bitmap pages k := by
  rintro ⟨-, hrun⟩
  have := hrun (j - k) (by omega)
  rw [show k + (j - k) = j by omega, hj] at this
  cases this

/-- **The scan finds the first free run.** -/
theorem firstFit_least {fuel i r : ℕ} (h : firstFit bitmap pages bound fuel i = some r) :
    i ≤ r ∧ r ≤ bound ∧ FreeRun bitmap pages r ∧
      ∀ k, i ≤ k → FreeRun bitmap pages k → r ≤ k := by
  induction fuel generalizing i with
  | zero => cases h
  | succ fuel ih =>
      rw [firstFit] at h
      split at h
      · next hib =>
          split at h
          · next hused =>
              obtain ⟨h₁, h₂, h₃, h₄⟩ := ih h
              refine ⟨by omega, h₂, h₃, fun k hk hrun => ?_⟩
              have hki : k ≠ i := by
                rintro rfl
                rw [hrun.1] at hused
                cases hused
              exact h₄ k (by omega) hrun
          · next hfree =>
              cases hf : firstUsed bitmap pages i with
              | some j =>
                  rw [hf] at h
                  obtain ⟨hij, hjp, hj⟩ := firstUsed_some hf
                  obtain ⟨h₁, h₂, h₃, h₄⟩ := ih h
                  refine ⟨by omega, h₂, h₃, fun k hk hrun => ?_⟩
                  by_contra hrk
                  by_cases hkj : k ≤ j
                  · exact not_freeRun_of_used hj hjp hk hkj hrun
                  · exact hrk (h₄ k (by omega) hrun)
              | none =>
                  rw [hf] at h
                  cases h
                  exact ⟨le_refl _, hib, ⟨by simpa using hfree, firstUsed_none hf⟩,
                    fun k hk _ => hk⟩
      · cases h

/-- **The scan misses no free run.** -/
theorem firstFit_none {fuel i : ℕ} (hfuel : bound + 1 ≤ i + fuel)
    (h : firstFit bitmap pages bound fuel i = none) :
    ∀ k, i ≤ k → k ≤ bound → ¬ FreeRun bitmap pages k := by
  induction fuel generalizing i with
  | zero => intro k hk hkb; omega
  | succ fuel ih =>
      rw [firstFit] at h
      split at h
      · split at h
        · next hused =>
            intro k hk hkb hrun
            have hki : k ≠ i := by
              rintro rfl
              rw [hrun.1] at hused
              cases hused
            exact ih (by omega) h k (by omega) hkb hrun
        · cases hf : firstUsed bitmap pages i with
          | some j =>
              rw [hf] at h
              obtain ⟨hij, hjp, hj⟩ := firstUsed_some hf
              intro k hk hkb hrun
              by_cases hkj : k ≤ j
              · exact not_freeRun_of_used hj hjp hk hkj hrun
              · exact ih (by omega) h k (by omega) hkb hrun
          | none =>
              rw [hf] at h
              cases h
      · intro k hk hkb
        omega

theorem mem_firstUsedLog {k j m : ℕ} (hm : m ∈ firstUsedLog bitmap k j) :
    m < j + k ∧ ∀ u, firstUsed bitmap k j = some u → m ≤ u := by
  induction k generalizing j with
  | zero => cases hm
  | succ k ih =>
      rw [firstUsedLog] at hm
      rw [firstUsed]
      rcases List.mem_cons.1 hm with rfl | hm
      · refine ⟨by omega, fun u hu => ?_⟩
        split at hu
        · cases hu
          exact le_refl _
        · obtain ⟨h₁, -⟩ := firstUsed_some hu
          omega
      · split at hm
        · cases hm
        · next hj =>
            obtain ⟨h₁, h₂⟩ := ih hm
            rw [if_neg hj]
            exact ⟨by omega, h₂⟩

/-- **The bits a scan touches**: those up to the end of the run it finds; or, when it finds none,
those up to its bound and up to the last page in use. -/
theorem mem_firstFitLog {fuel i k : ℕ}
    (hk : k ∈ (firstFitLog bitmap pages bound fuel i).2) :
    (∀ r, firstFit bitmap pages bound fuel i = some r → k < r + max pages 1) ∧
      (firstFit bitmap pages bound fuel i = none → k ≤ bound ∨ ∃ u, bitmap u = true ∧ k ≤ u) := by
  induction fuel generalizing i with
  | zero => cases hk
  | succ fuel ih =>
      rw [firstFitLog] at hk
      rw [firstFit]
      by_cases hib : i ≤ bound
      · rw [if_pos hib] at hk ⊢
        by_cases hused : bitmap i = true
        · rw [if_pos hused] at hk ⊢
          rcases List.mem_cons.1 hk with rfl | hk
          · refine ⟨fun r hr => ?_, fun _ => Or.inl hib⟩
            obtain ⟨h₁, -⟩ := firstFit_least hr
            omega
          · exact ih hk
        · rw [if_neg hused] at hk ⊢
          cases hf : firstUsed bitmap pages i with
          | some j =>
              rw [hf] at hk
              obtain ⟨hij, -, hj⟩ := firstUsed_some hf
              rcases List.mem_cons.1 hk with rfl | hk
              · refine ⟨fun r hr => ?_, fun _ => Or.inl hib⟩
                obtain ⟨h₁, -⟩ := firstFit_least hr
                omega
              · rcases List.mem_append.1 hk with hk | hk
                · have hkj := (mem_firstUsedLog hk).2 j hf
                  refine ⟨fun r hr => ?_, fun _ => Or.inr ⟨j, hj, hkj⟩⟩
                  obtain ⟨h₁, -⟩ := firstFit_least hr
                  omega
                · exact ih hk
          | none =>
              rw [hf] at hk
              refine ⟨fun r hr => ?_, fun hr => by cases hr⟩
              cases hr
              rcases List.mem_cons.1 hk with rfl | hk
              · omega
              · rcases List.mem_append.1 hk with hk | hk
                · have := (mem_firstUsedLog hk).1
                  omega
                · have := List.mem_range'_1.1 hk
                  omega
      · rw [if_neg hib] at hk
        cases hk

/-- The run a scan finds is touched. -/
theorem found_mem_firstFitLog {fuel i r : ℕ} (h : firstFit bitmap pages bound fuel i = some r) :
    ∀ k < max pages 1, r + k ∈ (firstFitLog bitmap pages bound fuel i).2 := by
  induction fuel generalizing i with
  | zero => cases h
  | succ fuel ih =>
      intro k hk
      rw [firstFit] at h
      rw [firstFitLog]
      by_cases hib : i ≤ bound
      · rw [if_pos hib] at h ⊢
        by_cases hused : bitmap i = true
        · rw [if_pos hused] at h ⊢
          exact List.mem_cons_of_mem _ (ih h k hk)
        · rw [if_neg hused] at h ⊢
          cases hf : firstUsed bitmap pages i with
          | some j =>
              rw [hf] at h
              exact List.mem_cons_of_mem _ (List.mem_append_right _ (ih h k hk))
          | none =>
              rw [hf] at h
              cases h
              cases k with
              | zero => exact List.mem_cons_self ..
              | succ k =>
                  refine List.mem_cons_of_mem _ (List.mem_append_right _ ?_)
                  exact List.mem_range'_1.2 ⟨by omega, by omega⟩
      · rw [if_neg hib] at h
        cases h

end scan

/-! ### Pages and addresses -/

/-- The page of an address the allocator computes. -/
theorem pageIndex_addr (info : HostRxDmaInfo) {i : ℕ} (hi : i ≤ pageBitmapBits) :
    (pageIndex info (info.dmaAddr + UInt64.ofNat (i * configHeciPageSize))).toNat = i := by
  have hsub : info.dmaAddr + UInt64.ofNat (i * configHeciPageSize) - info.dmaAddr =
      UInt64.ofNat (i * configHeciPageSize) := by
    rw [UInt64.add_comm, UInt64.add_sub_cancel]
  have hi' : i ≤ 1024 := hi
  rw [pageIndex, hsub]
  simp only [UInt64.toNat_toUInt32, UInt64.toNat_div, UInt64.toNat_ofNat', configHeciPageSize,
    show 4096 % 2 ^ 64 = 4096 from rfl]
  omega

/-- The distance of such an address from the start of the buffer. -/
theorem offset_addr (base : UInt64) {i : ℕ} (hi : i ≤ pageBitmapBits) :
    (base + UInt64.ofNat (i * configHeciPageSize) - base).toNat = i * configHeciPageSize := by
  have hi' : i ≤ 1024 := hi
  rw [UInt64.add_comm, UInt64.add_sub_cancel, UInt64.toNat_ofNat']
  simp only [configHeciPageSize]
  omega

/-- A request that does not wrap around gets enough pages. -/
theorem len_le_pages {len : UInt32} (h : len.toNat + 4096 ≤ 2 ^ 32) :
    len.toNat ≤ (getNumPages len).toNat * configHeciPageSize := by
  unfold getNumPages
  simp only [UInt32.toNat_div, UInt32.toNat_sub, UInt32.toNat_add, UInt32.reduceToNat,
    configHeciPageSize]
  omega

/-- Two offsets from the start of the buffer are told apart by their addresses. -/
theorem add_ofNat_inj {base : UInt64} {a b : ℕ} (ha : a < 2 ^ 64) (hb : b < 2 ^ 64)
    (h : base + UInt64.ofNat a = base + UInt64.ofNat b) : a = b := by
  have hab : UInt64.ofNat a = UInt64.ofNat b := by
    rw [← UInt64.add_sub_cancel (UInt64.ofNat a) base, UInt64.add_comm, h, UInt64.add_comm,
      UInt64.add_sub_cancel]
  have := congrArg UInt64.toNat hab
  rw [UInt64.toNat_ofNat', UInt64.toNat_ofNat'] at this
  omega

/-! ### The invariant -/

/-- The first page of a range. -/
def PageRange.first (info : HostRxDmaInfo) (r : PageRange) : ℕ := (pageIndex info r.addr).toNat

/-- The number of pages of a range. -/
def PageRange.pages (r : PageRange) : ℕ := (getNumPages r.len).toNat

/-- **Where a range is**: it begins at a page, fits, is covered by its pages, and these are in use.
-/
structure Placed (x : PageSys) (r : PageRange) : Prop where
  addr : r.addr = x.dev.hostRxDma.dmaAddr +
    UInt64.ofNat (r.first x.dev.hostRxDma * configHeciPageSize)
  fits : RunFits x r.len (r.first x.dev.hostRxDma)
  covered : r.len.toNat ≤ r.pages * configHeciPageSize
  used : ∀ k < r.pages, x.dev.hostRxDma.pageBitmap (r.first x.dev.hostRxDma + k) = true

/-- The two ranges have no page in common; a range of length zero has no page at all. -/
def PagesApart (info : HostRxDmaInfo) (r r' : PageRange) : Prop :=
  r.pages = 0 ∨ r'.pages = 0 ∨ r.first info + r.pages ≤ r'.first info ∨
    r'.first info + r'.pages ≤ r.first info

/-- **The invariant**: the pages in use are those of the ranges that are handed out, each of them
once. -/
structure PageInv (x : PageSys) : Prop where
  touched : ∀ k ∈ x.touched, k < pageBitmapBits
  aligned : x.dev.hostRxDma.numPages ≠ 0 → x.announced % configHeciPageSize = 0
  announced : x.announced < 2 ^ 32
  placed : ∀ r ∈ x.outstanding, Placed x r
  owned : ∀ k, x.dev.hostRxDma.pageBitmap k = true → ∃ r ∈ x.outstanding,
    r.first x.dev.hostRxDma ≤ k ∧ k < r.first x.dev.hostRxDma + r.pages
  apart : x.outstanding.Pairwise (PagesApart x.dev.hostRxDma)

/-- Ranges without a common page have no common byte. -/
theorem Placed.apart {x : PageSys} {r r' : PageRange} (h : Placed x r) (h' : Placed x r')
    (hp : PagesApart x.dev.hostRxDma r r') : Apart r r' := by
  obtain ⟨hbits, -⟩ := h.fits
  obtain ⟨hbits', -⟩ := h'.fits
  have hcov := h.covered
  have hcov' := h'.covered
  have haddr := h.addr
  have haddr' := h'.addr
  unfold PagesApart at hp
  change _ + max r.pages 1 ≤ _ at hbits
  change _ + max r'.pages 1 ≤ _ at hbits'
  generalize r.first x.dev.hostRxDma = i at *
  generalize r'.first x.dev.hostRxDma = i' at *
  intro k hk k' hk' heq
  simp only [pageBitmapBits, bitsPerDw, configHeciPageSize] at *
  rw [haddr, haddr', UInt64.add_assoc, UInt64.add_assoc, ← UInt64.ofNat_add,
    ← UInt64.ofNat_add] at heq
  have := add_ofNat_inj (by omega) (by omega) heq
  omega

/-- **The invariant is what is wanted.** -/
theorem PageInv.safe {x : PageSys} (h : PageInv x) : PagesSafe x := by
  refine ⟨h.touched, fun r hr => ?_, ?_⟩
  · have hpl := h.placed r hr
    obtain ⟨hbits, hregion⟩ := hpl.fits
    rw [InRegion, hpl.addr, offset_addr _ (by omega)]
    exact hregion
  · refine List.Pairwise.imp_of_mem ?_ h.apart
    intro r r' hr hr' hp
    exact (h.placed r hr).apart (h.placed r' hr') hp

/-- Pages in use are inside the bitmap. -/
theorem PageInv.used_lt {x : PageSys} (h : PageInv x) {k : ℕ}
    (hk : x.dev.hostRxDma.pageBitmap k = true) : k < pageBitmapBits := by
  obtain ⟨r, hr, -, hlt⟩ := h.owned k hk
  obtain ⟨hbits, -⟩ := (h.placed r hr).fits
  change _ + max r.pages 1 ≤ _ at hbits
  omega

/-! ### The calls keep the invariant -/

section calls

variable {P : Platform} {x : PageSys}

theorem free_of_runs {dmaAddr : UInt64} {len : UInt32} {s : HeciDev}
    (h : FreeRuns s.hostRxDma dmaAddr len) :
    heciDmaFreeTxBuffer dmaAddr len s = { s with hostRxDma := { s.hostRxDma with
      pageBitmap := markPages s.hostRxDma.pageBitmap (pageIndex s.hostRxDma dmaAddr).toNat
        (getNumPages len).toNat false } } :=
  if_pos h

theorem free_of_not_runs {dmaAddr : UInt64} {len : UInt32} {s : HeciDev}
    (h : ¬ FreeRuns s.hostRxDma dmaAddr len) : heciDmaFreeTxBuffer dmaAddr len s = s :=
  if_neg h

/-- **What a request does**: it is refused, the scan finds nothing, or it finds a run. -/
inductive GetCase (reqLen : UInt32) (s : HeciDev) : Option UInt64 × HeciDev → List ℕ → Prop
  | refused : s.hostRxDma.numPages = 0 ∨
      (getNumPages reqLen).toNat > pageBitmapNum * bitsPerDw → GetCase reqLen s (none, s) []
  | notFound {touched : List ℕ} :
      (∀ k ≤ scanBound s.hostRxDma reqLen,
        ¬ FreeRun s.hostRxDma.pageBitmap (getNumPages reqLen).toNat k) →
      (∀ k ∈ touched, k ≤ scanBound s.hostRxDma reqLen ∨
        ∃ u, s.hostRxDma.pageBitmap u = true ∧ k ≤ u) →
      GetCase reqLen s (none, s) touched
  | found {touched : List ℕ} (i : ℕ) : s.hostRxDma.numPages ≠ 0 →
      (getNumPages reqLen).toNat ≤ pageBitmapNum * bitsPerDw →
      i ≤ scanBound s.hostRxDma reqLen →
      FreeRun s.hostRxDma.pageBitmap (getNumPages reqLen).toNat i →
      (∀ k, FreeRun s.hostRxDma.pageBitmap (getNumPages reqLen).toNat k → i ≤ k) →
      (∀ k ∈ touched, k < i + max (getNumPages reqLen).toNat 1) →
      (∀ k < max (getNumPages reqLen).toNat 1, i + k ∈ touched) →
      GetCase reqLen s (some (s.hostRxDma.dmaAddr + UInt64.ofNat (i * configHeciPageSize)),
        { s with hostRxDma := { s.hostRxDma with
          pageBitmap := markPages s.hostRxDma.pageBitmap i (getNumPages reqLen).toNat true } })
        touched

/-- **The cases of a request.** -/
theorem get_cases (reqLen : UInt32) (s : HeciDev) :
    GetCase reqLen s (heciDmaGetTxBuffer reqLen s) (getTouches reqLen s.hostRxDma) := by
  unfold heciDmaGetTxBuffer getTouches
  dsimp only
  split
  · next hnum => exact GetCase.refused (Or.inl hnum)
  · next hnum =>
      split
      · next hpages => exact GetCase.refused (Or.inr hpages)
      · next hpages =>
          have hbound : (s.hostRxDma.numPages - getNumPages reqLen).toNat =
              scanBound s.hostRxDma reqLen := rfl
          rw [hbound]
          cases hf : firstFit s.hostRxDma.pageBitmap (getNumPages reqLen).toNat
            (scanBound s.hostRxDma reqLen) (scanBound s.hostRxDma reqLen + 1) 0 with
          | none =>
              refine GetCase.notFound (fun k hk => ?_) fun k hk => ?_
              · exact firstFit_none (by omega) hf k (Nat.zero_le _) hk
              · exact (mem_firstFitLog hk).2 hf
          | some i =>
              obtain ⟨-, hib, hrun, hleast⟩ := firstFit_least hf
              refine GetCase.found i hnum (by omega) hib hrun
                (fun k hk => hleast k (Nat.zero_le _) hk) (fun k hk => ?_)
                (found_mem_firstFitLog hf)
              exact (mem_firstFitLog hk).1 i hf

/-- Only the pages in use and the ranges change. -/
theorem PageInv.replace {x x' : PageSys} (h : PageInv x)
    (hdev : ∃ bm, x'.dev.hostRxDma = { x.dev.hostRxDma with pageBitmap := bm })
    (hann : x'.announced = x.announced)
    (htouched : ∀ k ∈ x'.touched, k < pageBitmapBits)
    (hplaced : ∀ r ∈ x'.outstanding, Placed x' r)
    (howned : ∀ k, x'.dev.hostRxDma.pageBitmap k = true → ∃ r ∈ x'.outstanding,
      r.first x.dev.hostRxDma ≤ k ∧ k < r.first x.dev.hostRxDma + r.pages)
    (hapart : x'.outstanding.Pairwise (PagesApart x.dev.hostRxDma)) : PageInv x' := by
  obtain ⟨bm, hbm⟩ := hdev
  refine ⟨htouched, fun hnum => ?_, by rw [hann]; exact h.announced, hplaced, fun k hk => ?_, ?_⟩
  · rw [hbm] at hnum
    rw [hann]
    exact h.aligned hnum
  · obtain ⟨r, hr, hlo, hhi⟩ := howned k hk
    refine ⟨r, hr, ?_⟩
    rw [hbm]
    exact ⟨hlo, hhi⟩
  · rw [hbm]
    exact hapart

/-- A range stays where it is when its pages stay in use. -/
theorem Placed.congr {x x' : PageSys} {r : PageRange} (h : Placed x r) {bm : ℕ → Bool}
    (hdev : x'.dev.hostRxDma = { x.dev.hostRxDma with pageBitmap := bm })
    (hann : x'.announced = x.announced)
    (hbm : ∀ k < r.pages, bm (r.first x.dev.hostRxDma + k) = true) : Placed x' r := by
  have hfirst : r.first x'.dev.hostRxDma = r.first x.dev.hostRxDma := by rw [hdev]; rfl
  refine ⟨?_, ?_, h.covered, fun k hk => ?_⟩
  · rw [hfirst, hdev]
    exact h.addr
  · rw [hfirst, RunFits, hann]
    exact h.fits
  · rw [hfirst, hdev]
    exact hbm k hk

/-- The run that is found fits: it begins no later than the one that the discipline speaks of. -/
theorem GetFits.runFits {x : PageSys} {reqLen : UInt32} (hd : GetFits x reqLen)
    (hnum : x.dev.hostRxDma.numPages ≠ 0)
    (hpages : (getNumPages reqLen).toNat ≤ pageBitmapNum * bitsPerDw) {i : ℕ}
    (hib : i ≤ scanBound x.dev.hostRxDma reqLen)
    (hrun : FreeRun x.dev.hostRxDma.pageBitmap (getNumPages reqLen).toNat i)
    (hleast : ∀ k, FreeRun x.dev.hostRxDma.pageBitmap (getNumPages reqLen).toNat k → i ≤ k) :
    RunFits x reqLen i := by
  rcases hd with hd | hd | hd
  · exact absurd hd hnum
  · omega
  · obtain ⟨k, -, hk, hbits, hregion⟩ := hd ⟨i, hib, hrun⟩
    have hik := hleast k hk
    have hmul := Nat.mul_le_mul_right configHeciPageSize hik
    exact ⟨by omega, le_trans (Nat.add_le_add_right hmul _) hregion⟩

/-- A range that is handed out has no page in a free run: the page would be free and in use. -/
theorem Placed.apart_freeRun {x : PageSys} {r : PageRange} (h : Placed x r) {pages i : ℕ}
    (hrun : FreeRun x.dev.hostRxDma.pageBitmap pages i) :
    pages = 0 ∨ r.pages = 0 ∨ i + pages ≤ r.first x.dev.hostRxDma ∨
      r.first x.dev.hostRxDma + r.pages ≤ i := by
  by_contra hmeet
  let k := max i (r.first x.dev.hostRxDma)
  have hused := h.used (k - r.first x.dev.hostRxDma) (by omega)
  have hfree := hrun.2 (k - i) (by omega)
  have hk : r.first x.dev.hostRxDma + (k - r.first x.dev.hostRxDma) = i + (k - i) := by omega
  rw [hk, hfree] at hused
  cases hused

/-- A page in use stays in use. -/
theorem markPages_of_used {bitmap : ℕ → Bool} {k : ℕ} (h : bitmap k = true) (i pages : ℕ) :
    markPages bitmap i pages true k = true := by
  unfold markPages
  split
  · rfl
  · exact h

/-- **A request keeps the invariant.** -/
theorem pageInv_get (h : PageInv x) {reqLen : UInt32} (hd : GetFits x reqLen) {x' : PageSys}
    (hst : pageStep P (.get reqLen) x = some x') : PageInv x' := by
  have hcase := get_cases reqLen x.dev
  simp only [pageStep, Option.some.injEq] at hst
  subst hst
  generalize heciDmaGetTxBuffer reqLen x.dev = r at hcase ⊢
  generalize getTouches reqLen x.dev.hostRxDma = touched at hcase ⊢
  -- nothing is handed out, and what is touched is inside the bitmap
  have hsame : (∀ k ∈ touched, k < pageBitmapBits) → PageInv { x with
      outstanding := ((none : Option UInt64).map fun a => (⟨a, reqLen⟩ : PageRange)).toList ++
        x.outstanding
      touched := x.touched ++ touched } := by
    intro ht
    refine ⟨fun k hk => ?_, h.aligned, h.announced,
      fun r hr => (h.placed r hr).congr rfl rfl (h.placed r hr).used, h.owned, h.apart⟩
    rcases List.mem_append.1 hk with hk | hk
    · exact h.touched k hk
    · exact ht k hk
  cases hcase with
  | refused _ => exact hsame fun k hk => by cases hk
  | notFound hnone ht =>
      refine hsame fun k hk => ?_
      rcases ht k hk with hkb | ⟨u, hu, hku⟩
      · -- beyond the bitmap all pages are free, so the bound of the scan is inside
        by_contra hlt
        refine hnone k hkb ⟨?_, fun j _ => ?_⟩
        · by_contra hused
          exact hlt (h.used_lt (by simpa using hused))
        · by_contra hused
          have := h.used_lt (by simpa using hused)
          omega
      · have := h.used_lt hu
        omega
  | found i hnum hpages hib hrun hleast ht _ =>
      obtain ⟨hbits, hregion⟩ := hd.runFits hnum hpages hib hrun hleast
      have hal := h.aligned hnum
      have hlt := h.announced
      have hfirst : PageRange.first x.dev.hostRxDma
          ⟨x.dev.hostRxDma.dmaAddr + UInt64.ofNat (i * configHeciPageSize), reqLen⟩ = i :=
        pageIndex_addr _ (by omega)
      refine h.replace ⟨_, rfl⟩ rfl ?_ ?_ ?_ ?_
      · intro k hk
        rcases List.mem_append.1 hk with hk | hk
        · exact h.touched k hk
        · exact lt_of_lt_of_le (ht k hk) hbits
      · intro r hr
        rcases List.mem_cons.1 hr with rfl | hr
        · constructor
          · show _ = _ + UInt64.ofNat (PageRange.first x.dev.hostRxDma _ * _)
            rw [hfirst]
          · show RunFits _ _ (PageRange.first x.dev.hostRxDma _)
            rw [hfirst]
            exact ⟨hbits, hregion⟩
          · refine @len_le_pages reqLen ?_
            simp only [configHeciPageSize] at hal hregion
            omega
          · intro k hk
            show markPages _ _ _ _ (PageRange.first x.dev.hostRxDma _ + k) = true
            rw [hfirst, markPages, if_pos ⟨by omega, by change k < (getNumPages reqLen).toNat at hk
                                                        omega⟩]
        · refine (h.placed r hr).congr rfl rfl fun k hk => ?_
          exact markPages_of_used ((h.placed r hr).used k hk) _ _
      · intro k hk
        change markPages _ _ _ _ k = true at hk
        unfold markPages at hk
        split at hk
        · next hin =>
            refine ⟨_, List.mem_cons_self .., ?_⟩
            rw [hfirst]
            exact hin
        · obtain ⟨r, hr, hrk⟩ := h.owned k hk
          exact ⟨r, List.mem_cons_of_mem _ hr, hrk⟩
      · refine List.pairwise_cons.2 ⟨fun r hr => ?_, h.apart⟩
        unfold PagesApart
        rw [hfirst]
        exact (h.placed r hr).apart_freeRun hrun

/-- **Freeing keeps the invariant.** -/
theorem pageInv_free (h : PageInv x) {dmaAddr : UInt64} {len : UInt32}
    (hd : FreeFits x dmaAddr len) {x' : PageSys}
    (hst : pageStep P (.free dmaAddr len) x = some x') : PageInv x' := by
  simp only [pageStep, Option.some.injEq] at hst
  subst hst
  by_cases hruns : FreeRuns x.dev.hostRxDma dmaAddr len
  · obtain ⟨hbits, hranges⟩ := hd hruns
    rw [free_of_runs hruns, freeTouches, if_pos hruns]
    -- a range that stays misses what is freed
    have hmiss : ∀ r ∈ x.outstanding.filter (fun r => ¬ Covers x.dev.hostRxDma dmaAddr len r),
        r ∈ x.outstanding ∧ Misses x.dev.hostRxDma dmaAddr len r := by
      intro r hr
      obtain ⟨hmem, hnc⟩ := List.mem_filter.1 hr
      have hnc : ¬ Covers x.dev.hostRxDma dmaAddr len r := by simpa using hnc
      exact ⟨hmem, (hranges r hmem).resolve_left hnc⟩
    refine h.replace ⟨_, rfl⟩ rfl ?_ ?_ ?_ (h.apart.filter _)
    · intro k hk
      rcases List.mem_append.1 hk with hk | hk
      · exact h.touched k hk
      · have := List.mem_range'_1.1 hk
        omega
    · intro r hr
      obtain ⟨hmem, hm⟩ := hmiss r hr
      refine (h.placed r hmem).congr rfl rfl fun k hk => ?_
      have hout : ¬ ((pageIndex x.dev.hostRxDma dmaAddr).toNat ≤ r.first x.dev.hostRxDma + k ∧
          r.first x.dev.hostRxDma + k <
            (pageIndex x.dev.hostRxDma dmaAddr).toNat + (getNumPages len).toNat) := by
        change r.first x.dev.hostRxDma + r.pages ≤ _ ∨ _ ≤ r.first x.dev.hostRxDma at hm
        omega
      rw [markPages, if_neg hout]
      exact (h.placed r hmem).used k hk
    · intro k hk
      change markPages _ _ _ _ k = true at hk
      unfold markPages at hk
      split at hk
      · cases hk
      · next hout =>
          obtain ⟨r, hmem, hlo, hhi⟩ := h.owned k hk
          refine ⟨r, List.mem_filter.2 ⟨hmem, ?_⟩, hlo, hhi⟩
          -- a covered range has all its pages freed
          suffices hnc : ¬ Covers x.dev.hostRxDma dmaAddr len r by simpa using hnc
          rintro ⟨-, h₁, h₂⟩
          change _ ≤ r.first x.dev.hostRxDma at h₁
          change r.first x.dev.hostRxDma + r.pages ≤ _ at h₂
          omega
  · have hall : x.outstanding.filter (fun r => ¬ Covers x.dev.hostRxDma dmaAddr len r) =
        x.outstanding := by
      refine List.filter_eq_self.2 fun r _ => ?_
      have hnc : ¬ Covers x.dev.hostRxDma dmaAddr len r := fun hc => hruns hc.1
      simpa using hnc
    rw [free_of_not_runs hruns, freeTouches, if_neg hruns, hall, List.append_nil]
    exact h

/-- **An announcement keeps the invariant**: it starts over. -/
theorem pageInv_notify (h : PageInv x) {msg : HeciBusMsg} {x' : PageSys}
    (hst : pageStep P (.notify msg) x = some x') : PageInv x' := by
  unfold pageStep heciDmaAllocNotification at hst
  dsimp only at hst
  split at hst
  · cases hst
    refine ⟨h.touched, ?_, h.announced, fun r hr => ?_, ?_, ?_⟩
    · simpa using h.aligned
    · exact @Placed.congr x _ r (h.placed r hr) x.dev.hostRxDma.pageBitmap (by simp) rfl
        (h.placed r hr).used
    · simpa using h.owned
    · simpa using h.apart
  · cases hst
    have hlt := (UInt32.ofNat (msg.word P 4 4)).toNat_lt
    refine ⟨h.touched, ?_, by simpa using hlt, fun r hr => absurd hr List.not_mem_nil, ?_,
      List.Pairwise.nil⟩
    · split
      · intro hnum
        simp [HostRxDmaInfo.zero] at hnum
      · next hal =>
          intro _
          by_contra hne
          exact hal (Or.inl hne)
    · intro k hk
      split at hk
      · simp [HostRxDmaInfo.zero] at hk
      · simp [HostRxDmaInfo.zero] at hk

end calls

theorem pageInv_initial {x : PageSys} (h : x.Initial) : PageInv x := by
  refine ⟨?_, fun hnum => ?_, ?_, ?_, fun k hk => ?_, ?_⟩
  · intro k hk
    rw [h.touched] at hk
    cases hk
  · rw [h.dev.hostRxDma] at hnum
    exact absurd rfl hnum
  · rw [h.announced]
    decide
  · intro r hr
    rw [h.outstanding] at hr
    cases hr
  · rw [h.dev.hostRxDma] at hk
    cases hk
  · rw [h.outstanding]
    exact List.Pairwise.nil

/-- **Every disciplined run of the allocator is safe.** -/
theorem pagesSafe_of_disciplined {P : Platform} {x : PageSys}
    (h : Lts.Reach PageSys.Initial (pageStep P) PageDiscipline x) : PagesSafe x := by
  refine PageInv.safe (h.invariant (fun _ => pageInv_initial) ?_)
  intro x l x' hx hd hst
  cases l with
  | notify msg => exact pageInv_notify hx hst
  | get reqLen => exact pageInv_get hx hd hst
  | free dmaAddr len => exact pageInv_free hx hd hst

/-- **A request outside of the discipline is answered unsafely**: the bit behind the bitmap is
touched, or the range that is handed out is not inside the buffer. -/
theorem not_pagesSafe_get {P : Platform} {x x' : PageSys} {reqLen : UInt32}
    (hd : ¬ GetFits x reqLen) (hst : pageStep P (.get reqLen) x = some x') : ¬ PagesSafe x' := by
  have hcase := get_cases reqLen x.dev
  simp only [pageStep, Option.some.injEq] at hst
  subst hst
  intro hsafe
  generalize heciDmaGetTxBuffer reqLen x.dev = r at hcase hsafe
  generalize getTouches reqLen x.dev.hostRxDma = touched at hcase hsafe
  cases hcase with
  | refused href =>
      rcases href with h | h
      · exact hd (Or.inl h)
      · exact hd (Or.inr (Or.inl h))
  | notFound hnone _ =>
      refine hd (Or.inr (Or.inr ?_))
      rintro ⟨k, hkb, hk⟩
      exact absurd hk (hnone k hkb)
  | found i _ _ hib hrun _ _ hmem =>
      have hbits : i + max (getNumPages reqLen).toNat 1 ≤ pageBitmapBits := by
        have := hsafe.touched _ (List.mem_append_right _
          (hmem (max (getNumPages reqLen).toNat 1 - 1) (by omega)))
        omega
      have hregion := hsafe.inRegion _ (List.mem_append_left _ (List.mem_singleton.2 rfl))
      simp only [InRegion] at hregion
      rw [offset_addr _ (by omega)] at hregion
      exact hd (Or.inr (Or.inr fun _ => ⟨i, hib, hrun, hbits, hregion⟩))

/-- Two ranges in a buffer of two pages, after a third one was freed. -/
theorem pagesSafe_two_ranges :
    ∃ x, Lts.Reach PageSys.Initial (pageStep Platform.nominal) PageDiscipline x ∧
      x.outstanding.map PageRange.addr = [0x100000, 0x101000] ∧ PagesSafe x := by
  have hinit : PageSys.Initial ⟨coldStart, 0, [], []⟩ := ⟨coldStart_initial, rfl, rfl, rfl⟩
  obtain ⟨x, hx, hout⟩ : ∃ x, Lts.Reach PageSys.Initial (pageStep Platform.nominal)
      PageDiscipline x ∧ x.outstanding.map PageRange.addr = [0x100000, 0x101000] :=
    Lts.exists_reach_guarded hinit
      [.notify (busFrame
        ([busMsgDmaAllocNotifyReq, 0, 0, 0] ++ le32 0x2000 ++ le64 0x100000)),
      .get 4096, .get 100, .free 0x100000 4096, .get 1] _ (by decide +kernel)
  exact ⟨x, hx, hout, pagesSafe_of_disciplined hx⟩

/-- The second request for a buffer of one page gets a page behind it. -/
theorem not_pagesSafe_one_page :
    ∃ x, Lts.Reach PageSys.Initial (pageStep Platform.nominal) Lts.Free x ∧
      x.announced = 4096 ∧ x.dev.hostRxDma.dmaAddr = 0x100000 ∧
      x.outstanding = [⟨0x101000, 4096⟩, ⟨0x100000, 4096⟩] ∧ ¬ PagesSafe x := by
  have hinit : PageSys.Initial ⟨coldStart, 0, [], []⟩ := ⟨coldStart_initial, rfl, rfl, rfl⟩
  obtain ⟨x, hx, hann, haddr, hout, hregion⟩ : ∃ x,
      Lts.Reach PageSys.Initial (pageStep Platform.nominal) Lts.Free x ∧ x.announced = 4096 ∧
      x.dev.hostRxDma.dmaAddr = 0x100000 ∧
      x.outstanding = [⟨0x101000, 4096⟩, ⟨0x100000, 4096⟩] ∧ ¬ InRegion x ⟨0x101000, 4096⟩ :=
    Lts.exists_reach hinit [.notify (busFrame
      ([busMsgDmaAllocNotifyReq, 0, 0, 0] ++ le32 4096 ++ le64 0x100000)),
      .get 4096, .get 4096] _ (by decide +kernel)
  refine ⟨x, hx, hann, haddr, hout, fun hsafe => hregion (hsafe.inRegion _ ?_)⟩
  rw [hout]
  exact List.mem_cons_self ..

end PseFw.Heci
