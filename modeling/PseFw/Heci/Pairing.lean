/-
**Host accesses are released.**

Before the layer touches the host it calls `host_access_req`, which returns a handle, or a negative
number; afterwards it gives the handle back with `host_access_dereq`.  Handles are small numbers,
and zero is only the first of them: it is the handle of a caller that finds nobody else in.

Three functions make such requests.  `heci_send_proto_msg` and `send_client_msg_ipc` take every
non-negative number for a handle and give it back on every way out.  `send_client_msg_dma` takes
every number but zero for a failure: it returns at once, and a positive handle is never given back.

Main definitions:

* `PseFw.Heci.accessMarks` — the handles that are taken and given back in a trace;
* `PseFw.Heci.SendPath`, `PseFw.Heci.runPath` — the three functions;
* `PseFw.Heci.blockAnswers` — the answers the loop of `send_client_msg_dma` gets to its requests.

Main results:

* `PseFw.Heci.balanced_withHostAccess` — the bracket of the two good paths;
* `PseFw.Heci.dma_balanced_or_leaves` — what the loop over the descriptors does;
* `PseFw.Heci.accessPaired_iff` — **a path gives back what it took exactly when none of the requests
  of that loop is answered with a positive handle**.
-/

import PseFw.Lib.Brackets
import PseFw.Heci.Step

set_option relaxedAutoImplicit false
set_option autoImplicit false

namespace PseFw.Heci

open Brackets

/-! ### Handles in the trace -/

/-- The handle an event takes or gives back.  A negative answer is no handle. -/
def accessMark : Event → Option (Mark ℤ)
  | .hostAccessReq r => if r < 0 then none else some (.take r)
  | .hostAccessDereq h => some (.give h)
  | _ => none

/-- **The handles taken and given back** in a trace. -/
def accessMarks (evs : List Event) : List (Mark ℤ) := evs.filterMap accessMark

/-- What happened between two states. -/
def newEvents (s s' : HeciDev) : List Event := s'.events.drop s.events.length

theorem newEvents_eq {s s' : HeciDev} {evs : List Event} (h : s'.events = s.events ++ evs) :
    newEvents s s' = evs := by
  rw [newEvents, h, List.drop_left]

/-- The step from `s` to `s'` extends the trace by events with the given marks. -/
def Marks (s s' : HeciDev) (ms : List (Mark ℤ)) : Prop :=
  ∃ evs, s'.events = s.events ++ evs ∧ accessMarks evs = ms

namespace Marks

variable {s s' s'' : HeciDev} {ms ms' : List (Mark ℤ)}

theorem of_eq (h : s'.events = s.events) : Marks s s' [] := ⟨[], by simp [h], rfl⟩

theorem log (s : HeciDev) (e : Event) : Marks s (s.log e) (accessMark e).toList := by
  refine ⟨[e], rfl, ?_⟩
  rw [accessMarks, List.filterMap_cons, List.filterMap_nil]
  cases accessMark e <;> rfl

theorem trans (h : Marks s s' ms) (h' : Marks s' s'' ms') : Marks s s'' (ms ++ ms') := by
  obtain ⟨evs, he, rfl⟩ := h
  obtain ⟨evs', he', rfl⟩ := h'
  refine ⟨evs ++ evs', by rw [he', he, List.append_assoc], ?_⟩
  exact List.filterMap_append ..

theorem newEvents (h : Marks s s' ms) : accessMarks (newEvents s s') = ms := by
  obtain ⟨evs, he, rfl⟩ := h
  rw [newEvents_eq he]

end Marks

/-- The step gives back what it takes. -/
def Returns (s s' : HeciDev) : Prop := ∃ ms, Marks s s' ms ∧ Balanced ms

namespace Returns

variable {s s' s'' : HeciDev}

theorem of_eq (h : s'.events = s.events) : Returns s s' := ⟨[], Marks.of_eq h, balanced_nil⟩

theorem trans (h : Returns s s') (h' : Returns s' s'') : Returns s s'' := by
  obtain ⟨ms, hm, hb⟩ := h
  obtain ⟨ms', hm', hb'⟩ := h'
  exact ⟨ms ++ ms', hm.trans hm', hb.append hb'⟩

/-- An event that is no host access. -/
theorem log {e : Event} (he : accessMark e = none) (s : HeciDev) : Returns s (s.log e) :=
  ⟨_, Marks.log s e, by rw [he]; exact balanced_nil⟩

/-- **A handle is taken, and given back after a step that returns what it takes.** -/
theorem bracket {r : ℤ} (hr : ¬ r < 0) (h : Returns (s.log (.hostAccessReq r)) s') :
    Returns s (s'.log (.hostAccessDereq r)) := by
  obtain ⟨ms, hm, hb⟩ := h
  have hreq := Marks.log s (.hostAccessReq r)
  rw [accessMark, if_neg hr] at hreq
  refine ⟨_, (hreq.trans hm).trans (Marks.log s' (.hostAccessDereq r)), ?_⟩
  exact hb.bracket r

end Returns

/-! ### The two good paths -/

/-- **The bracket of host accesses gives back what it takes.** -/
theorem balanced_withHostAccess {α : Type} (P : Platform) (failed : α)
    {body : HeciDev → α × HeciDev} (hbody : ∀ s, Returns s (body s).2) (s : HeciDev) :
    Returns s (withHostAccess P failed body s).2 := by
  unfold withHostAccess
  split
  · dsimp only
    split
    · next hr => exact Returns.log (e := .hostAccessReq _) (if_pos hr) s
    · next hr => exact Returns.bracket hr (hbody _)
  · exact hbody s

theorem returns_ipcWriteMsg (P : Platform) (drbl : UInt32) (msg : HeciBusMsg) (len : ℕ)
    (s : HeciDev) : Returns s (ipcWriteMsg P drbl msg len s).2 :=
  Returns.log rfl s

theorem returns_sendProtoMsg (P : Platform) (h f : UInt8) (l : Bool) (data : List UInt8)
    (s : HeciDev) : Returns s (heciSendProtoMsg P h f l data s).2 :=
  balanced_withHostAccess P false (fun s => returns_ipcWriteMsg P _ _ _ s) s

theorem returns_sendFragments (P : Platform) (h f : UInt8) (fuel : ℕ) (msg : List Mrd)
    (doneBytes : ℕ) (s : HeciDev) : Returns s (sendFragments P h f fuel msg doneBytes s).2 := by
  induction fuel generalizing msg doneBytes s with
  | zero =>
      cases msg with
      | nil => exact Returns.of_eq rfl
      | cons m ms => exact Returns.of_eq rfl
  | succ fuel ih =>
      cases msg with
      | nil => exact Returns.of_eq rfl
      | cons m ms =>
          simp only [sendFragments]
          have hw := fun drbl len => returns_ipcWriteMsg P drbl (HeciBusMsg.mk' h f
            (fillFragment (m :: ms) doneBytes []).2.1.isEmpty
            (fillFragment (m :: ms) doneBytes []).1) len s
          split
          · exact hw _ _
          · exact (hw _ _).trans (ih _ _ _)

theorem returns_sendClientMsgIpc (P : Platform) (conn : HeciConn) (msg : List Mrd) (s : HeciDev) :
    Returns s (sendClientMsgIpc P conn msg s).2 :=
  balanced_withHostAccess P false (fun s => returns_sendFragments P _ _ _ msg 0 s) s

/-! ### The loop over the descriptors -/

/-- **The answers the loop of `send_client_msg_dma` gets** to the requests it makes for its blocks,
as far as it comes. -/
def blockAnswers (P : Platform) (fwAddr hostAddr : UInt8) : List Mrd → HeciDev → List ℤ
  | [], _ => []
  | m :: ms, s =>
      match heciDmaGetTxBuffer (UInt32.ofNat m.len) s with
      | (none, _) => []
      | (some dramAddr, s) =>
          if P.sysMng then
            let r := P.hostAccessReq s.events.length
            if r ≠ 0 then [r]
            else
              let s := s.log (.hostAccessReq r)
              match dmaBlockEnd P fwAddr hostAddr m ⟨dramAddr, r⟩ (P.dmaCopy s.events.length) s with
              | (false, _) => [r]
              | (true, s) => r :: blockAnswers P fwAddr hostAddr ms s
          else
            match dmaBlockEnd P fwAddr hostAddr m ⟨dramAddr, 0⟩ (P.dmaCopy s.events.length) s with
            | (false, _) => []
            | (true, s) => blockAnswers P fwAddr hostAddr ms s

@[simp] theorem get_events (n : UInt32) (s : HeciDev) :
    (heciDmaGetTxBuffer n s).2.events = s.events := by
  unfold heciDmaGetTxBuffer
  dsimp only
  split
  · rfl
  · split
    · rfl
    · split <;> rfl

@[simp] theorem free_events (a : UInt64) (n : UInt32) (s : HeciDev) :
    (heciDmaFreeTxBuffer a n s).events = s.events := by
  unfold heciDmaFreeTxBuffer
  dsimp only
  split <;> rfl

/-- The end of a block gives back what it takes, once the handle of the block is given back. -/
theorem returns_dmaBlockEnd (P : Platform) (f h : UInt8) (m : Mrd) (b : DmaBlock) (ret : ℤ)
    (s : HeciDev) :
    Returns (if P.sysMng then s.log (.hostAccessDereq b.hostReqHandler) else s)
      (dmaBlockEnd P f h m b ret s).2 := by
  unfold dmaBlockEnd
  dsimp only
  generalize (if P.sysMng then s.log (.hostAccessDereq b.hostReqHandler) else s) = s₁
  have hsend := returns_sendProtoMsg P heciDriverAddress heciDriverAddress true
    (dmaXferReqBytes f h b.dramAddr m.len) s₁
  split
  · exact Returns.of_eq (free_events ..)
  · split
    · next hr => rw [hr] at hsend; exact hsend
    · next hr =>
        rw [hr] at hsend
        exact hsend.trans (Returns.of_eq (free_events ..))

/-- A block that is granted the handle zero gives it back. -/
theorem returns_block {P : Platform} (hm : P.sysMng = true) (f h : UInt8) (m : Mrd) (a : UInt64)
    (ret : ℤ) (s : HeciDev) :
    Returns s (dmaBlockEnd P f h m ⟨a, 0⟩ ret (s.log (.hostAccessReq 0))).2 := by
  have hend := returns_dmaBlockEnd P f h m ⟨a, 0⟩ ret (s.log (.hostAccessReq 0))
  rw [if_pos hm] at hend
  exact (Returns.bracket (by decide) (Returns.of_eq rfl)).trans hend

/-- **What the loop does with its handles**: it gives them all back, as long as no answer is
positive; a positive one it keeps. -/
theorem dma_balanced_or_leaves (P : Platform) (f h : UInt8) (msg : List Mrd) (s : HeciDev) :
    ((∀ r ∈ blockAnswers P f h msg s, r ≤ 0) ∧ Returns s (sendClientMsgDma P f h msg s).2) ∨
      ∃ r ∈ blockAnswers P f h msg s, 0 < r ∧
        ∃ ms, Marks s (sendClientMsgDma P f h msg s).2 ms ∧ Leaves r ms := by
  induction msg generalizing s with
  | nil => exact Or.inl ⟨by simp [blockAnswers], Returns.of_eq rfl⟩
  | cons m ms ih =>
      rw [sendClientMsgDma, blockAnswers, dmaBlockBegin]
      have hget : (heciDmaGetTxBuffer (UInt32.ofNat m.len) s).2.events = s.events := get_events ..
      rcases hg : heciDmaGetTxBuffer (UInt32.ofNat m.len) s with ⟨_ | a, s₁⟩
      · rw [hg] at hget
        exact Or.inl ⟨by simp, Returns.of_eq hget⟩
      rw [hg] at hget
      have hget : Returns s s₁ := Returns.of_eq hget
      cases hm : P.sysMng with
      | true =>
          dsimp only
          by_cases hr : P.hostAccessReq s₁.events.length = 0
          · -- the block is granted the handle zero, and the loop goes on if the block succeeds
            simp only [↓reduceIte, hr, ne_eq, not_true_eq_false]
            have hblock := hget.trans (returns_block hm f h m a
              (P.dmaCopy (s₁.log (.hostAccessReq 0)).events.length) s₁)
            rcases hend : dmaBlockEnd P f h m ⟨a, 0⟩ (P.dmaCopy (s₁.log
              (.hostAccessReq 0)).events.length) (s₁.log (.hostAccessReq 0)) with ⟨_ | _, s₂⟩
            · rw [hend] at hblock
              exact Or.inl ⟨by simp, hblock⟩
            · rw [hend] at hblock
              rcases ih s₂ with ⟨hall, hret⟩ | ⟨r, hmem, hpos, ms', hmarks, hleaves⟩
              · exact Or.inl ⟨by simpa using hall, hblock.trans hret⟩
              · obtain ⟨ms₁, hm₁, hb₁⟩ := hblock
                exact Or.inr ⟨r, List.mem_cons_of_mem _ hmem, hpos, ms₁ ++ ms', hm₁.trans hmarks,
                  hleaves.append hb₁⟩
          · -- the loop returns, and only a negative answer is no handle
            simp only [↓reduceIte, hr, ne_eq, not_false_eq_true]
            by_cases hneg : P.hostAccessReq s₁.events.length < 0
            · refine Or.inl ⟨by simpa using hneg.le, ?_⟩
              have hlog : Returns s₁ (s₁.log (.hostAccessReq (P.hostAccessReq s₁.events.length))) :=
                Returns.log (e := .hostAccessReq _) (if_pos hneg) s₁
              exact (hget.trans hlog).trans (Returns.of_eq (free_events ..))
            · refine Or.inr ⟨_, List.mem_singleton.2 rfl, by omega, ?_⟩
              obtain ⟨ms₁, hm₁, hb₁⟩ := hget
              have hlog := Marks.log s₁ (.hostAccessReq (P.hostAccessReq s₁.events.length))
              rw [accessMark, if_neg hneg] at hlog
              exact ⟨_, (hm₁.trans hlog).trans (Marks.of_eq (free_events ..)), by
                rw [List.append_nil]
                exact (leaves_take _).append hb₁⟩
      | false =>
          simp only [Bool.false_eq_true, ↓reduceIte]
          have hend := returns_dmaBlockEnd P f h m ⟨a, 0⟩ (P.dmaCopy s₁.events.length) s₁
          rw [hm, if_neg (by decide)] at hend
          rcases he : dmaBlockEnd P f h m ⟨a, 0⟩ (P.dmaCopy s₁.events.length) s₁ with ⟨_ | _, s₂⟩
          · rw [he] at hend
            exact Or.inl ⟨by simp, hget.trans hend⟩
          · rw [he] at hend
            rcases ih s₂ with ⟨hall, hret⟩ | ⟨r, hmem, hpos, ms', hmarks, hleaves⟩
            · exact Or.inl ⟨hall, (hget.trans hend).trans hret⟩
            · obtain ⟨ms₁, hm₁, hb₁⟩ := hget.trans hend
              exact Or.inr ⟨r, hmem, hpos, ms₁ ++ ms', hm₁.trans hmarks, hleaves.append hb₁⟩

/-! ### The three paths -/

/-- **The functions that ask for host access.** -/
inductive SendPath
  /-- `heci_send_proto_msg`. -/
  | proto (hostAddr fwAddr : UInt8) (lastFrag : Bool) (data : List UInt8)
  /-- `send_client_msg_ipc`. -/
  | ipc (conn : HeciConn) (msg : List Mrd)
  /-- `send_client_msg_dma`. -/
  | dma (fwAddr hostAddr : UInt8) (msg : List Mrd)

/-- What the function returns, and what it leaves. -/
def runPath (P : Platform) : SendPath → HeciDev → Bool × HeciDev
  | .proto hostAddr fwAddr lastFrag data => heciSendProtoMsg P hostAddr fwAddr lastFrag data
  | .ipc conn msg => sendClientMsgIpc P conn msg
  | .dma fwAddr hostAddr msg => sendClientMsgDma P fwAddr hostAddr msg

/-- The answers to requests that are made for the blocks of a message. -/
def pathBlockAnswers (P : Platform) : SendPath → HeciDev → List ℤ
  | .proto _ _ _ _, _ => []
  | .ipc _ _, _ => []
  | .dma fwAddr hostAddr msg, s => blockAnswers P fwAddr hostAddr msg s

/-- **Host accesses are released**: every handle the function gets it gives back exactly once before
it returns, and nothing else. -/
def AccessPaired (P : Platform) (path : SendPath) (s : HeciDev) : Prop :=
  Paired (accessMarks (newEvents s (runPath P path s).2))

instance (P : Platform) (path : SendPath) (s : HeciDev) : Decidable (AccessPaired P path s) :=
  inferInstanceAs (Decidable (Paired _))

theorem Returns.paired {s s' : HeciDev} (h : Returns s s') :
    Paired (accessMarks (newEvents s s')) := by
  obtain ⟨ms, hm, hb⟩ := h
  rw [hm.newEvents]
  exact hb.paired

/-- **A path gives back what it took exactly when no request for a block of a message is answered
with a positive handle.** -/
theorem accessPaired_iff (P : Platform) (path : SendPath) (s : HeciDev) :
    AccessPaired P path s ↔ ∀ r ∈ pathBlockAnswers P path s, r ≤ 0 := by
  cases path with
  | proto h f l data =>
      exact iff_of_true (returns_sendProtoMsg P h f l data s).paired (by simp [pathBlockAnswers])
  | ipc conn msg =>
      exact iff_of_true (returns_sendClientMsgIpc P conn msg s).paired (by simp [pathBlockAnswers])
  | dma f h msg =>
      rcases dma_balanced_or_leaves P f h msg s with ⟨hall, hret⟩ | ⟨r, hmem, hpos, ms, hm, hl⟩
      · exact iff_of_true hret.paired hall
      · refine iff_of_false (fun hp => hl.not_paired ?_) fun hall => ?_
        · rw [AccessPaired, runPath, hm.newEvents] at hp
          exact hp
        · have := hall r hmem
          omega

/-- A platform with DMA and power management that answers every request with the handle one, as it
does while somebody else holds the handle zero. -/
def Platform.secondHandle : Platform :=
  { Platform.nominal with useDma := true, sysMng := true, hostAccessReq := fun _ => 1 }

/-- The host has announced a buffer of sixteen pages. -/
def announcedDev : HeciDev :=
  heciDmaAllocNotification Platform.nominal
    (busFrame ([busMsgDmaAllocNotifyReq, 0, 0, 0] ++ le32 0x10000 ++ le64 0x100000)) coldStart

/-- The handle one is not given back when a message is sent by DMA. -/
theorem not_accessPaired_dma :
    newEvents announcedDev (runPath Platform.secondHandle
      (.dma 32 7 [Mrd.ofBytes (List.replicate 400 0)]) announcedDev).2 = [.hostAccessReq 1] ∧
    ¬ AccessPaired Platform.secondHandle (.dma 32 7 [Mrd.ofBytes (List.replicate 400 0)])
      announcedDev := by
  decide +kernel

end PseFw.Heci
