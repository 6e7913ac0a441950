/-
**What the host sees of a message.**

The host gets a message in one of two ways: as fragments in the mailbox, or as blocks in its own
memory, each of them announced by a `DMA_XFER_REQ` in the mailbox.  This module is about the
receiving end.  A host has its memory, which the DMA copies of the firmware write to, and sees the
packets that were written successfully; a packet with a fragment gives it the bytes of its payload,
an announcement the bytes that are in its memory where the announcement points.

The paths of the firmware are run together with that host.  What it is given depends on where the
first failure is: the loop over the descriptors gives blocks up to the descriptor at which one of
its four steps fails, the loop over the fragments gives fragments up to the first that the mailbox
refuses.

Main definitions:

* `PseFw.Heci.HostMem`, `PseFw.Heci.readMem`, `PseFw.Heci.writeMem` — the memory of the host;
* `PseFw.Heci.Given`, `PseFw.Heci.seen` — what the host is given by a part of the trace;
* `PseFw.Heci.dmaSeen`, `PseFw.Heci.ipcSeen` — the two paths, seen by the host;
* `PseFw.Heci.BlockOk`, `PseFw.Heci.AllBlocksOk` — the four steps of a block, and of all blocks.

Main results:

* `PseFw.Heci.blockSeen_spec` — what one descriptor gives;
* `PseFw.Heci.dmaSeen_spec` — **what the loop over the descriptors gives**;
* `PseFw.Heci.writeFrames_cases` — up to where a sequence of packets is written;
* `PseFw.Heci.ipcSeen_spec` — **what the loop over the fragments gives**.
-/

import PseFw.Heci.Fragment
import PseFw.Heci.Pairing

set_option relaxedAutoImplicit false
set_option autoImplicit false

namespace PseFw.Heci

open Chunks

/-! ### Numbers on the wire -/

/-- A little-endian number. -/
def leNat (bs : List UInt8) : ℕ := bs.foldr (fun b acc => b.toNat + 256 * acc) 0

theorem leNat_le32 {x : ℕ} (hx : x < 2 ^ 32) : leNat (le32 x) = x := by
  simp only [leNat, le32, List.range_succ, List.range_zero, List.nil_append, List.map_cons,
    List.map_nil, List.cons_append, List.foldr_cons, List.foldr_nil, UInt8.toNat_ofNat']
  omega

theorem leNat_le64 {x : ℕ} (hx : x < 2 ^ 64) : leNat (le64 x) = x := by
  simp only [leNat, le64, List.range_succ, List.range_zero, List.nil_append, List.map_cons,
    List.map_nil, List.cons_append, List.foldr_cons, List.foldr_nil, UInt8.toNat_ofNat']
  omega

/-! ### The memory of the host -/

/-- The memory of the host. -/
abbrev HostMem := UInt64 → UInt8

/-- The bytes at an address. -/
def readMem (mem : HostMem) (addr : UInt64) (n : ℕ) : List UInt8 :=
  (List.range n).map fun k => mem (addr + UInt64.ofNat k)

/-- The memory after a DMA copy. -/
def writeMem (mem : HostMem) (addr : UInt64) (data : List UInt8) : HostMem :=
  fun a => if (a - addr).toNat < data.length then data.getD (a - addr).toNat 0 else mem a

/-- **What was copied is read back.** -/
theorem readMem_writeMem (mem : HostMem) (addr : UInt64) {data : List UInt8}
    (h : data.length < 2 ^ 64) : readMem (writeMem mem addr data) addr data.length = data := by
  refine List.ext_getElem (by simp [readMem]) fun k hk hk' => ?_
  have hoff : (addr + UInt64.ofNat k - addr).toNat = k := by
    rw [UInt64.add_comm, UInt64.add_sub_cancel, UInt64.toNat_ofNat']
    omega
  simp only [readMem, List.getElem_map, List.getElem_range, writeMem, hoff]
  rw [if_pos hk']
  simp [hk']

/-! ### What the host is given -/

/-- **What a packet gives to the host**: a block of its memory, or a fragment. -/
inductive Given
  | block (data : List UInt8)
  | fragment (data : List UInt8) (last : Bool)
  deriving DecidableEq, Repr

/-- The bytes. -/
def Given.bytes : Given → List UInt8
  | .block data => data
  | .fragment data _ => data

/-- **What an event gives to the host**, on the connection between the two addresses: only packets
that the mailbox took count. -/
def seenOf (fwAddr hostAddr : UInt8) (mem : HostMem) : Event → Option Given
  | .ipcWrite _ msg _ ret =>
      if ret ≠ 0 then none
      else if msg.hdr.fwAddr = heciDriverAddress then
        if msg.byte 0 = busMsgDmaXferReq ∧ msg.byte 1 = fwAddr ∧ msg.byte 2 = hostAddr then
          some (.block (readMem mem (UInt64.ofNat (leNat ((msg.payload.drop 4).take 8)))
            (leNat ((msg.payload.drop 12).take 4))))
        else none
      else if msg.hdr.fwAddr = fwAddr ∧ msg.hdr.hostAddr = hostAddr then
        some (.fragment msg.payload msg.hdr.lastFrag)
      else none
  | _ => none

/-- **What a part of the trace gives to the host.** -/
def seen (fwAddr hostAddr : UInt8) (mem : HostMem) (evs : List Event) : List Given :=
  evs.filterMap (seenOf fwAddr hostAddr mem)

section seen

variable (f h : UInt8) (mem : HostMem)

theorem seen_append (evs evs' : List Event) :
    seen f h mem (evs ++ evs') = seen f h mem evs ++ seen f h mem evs' :=
  List.filterMap_append ..

/-- An announcement gives the block it points to. -/
theorem seenOf_announcement (addr : UInt64) {n : ℕ} (hn : n < 2 ^ 32) :
    seenOf f h mem (writeEvent (busFrame (dmaXferReqBytes f h addr n)) 0) =
      some (.block (readMem mem addr n)) := by
  have haddr : ((dmaXferReqBytes f h addr n).drop 4).take 8 = le64 addr.toNat := rfl
  have hlen : ((dmaXferReqBytes f h addr n).drop 12).take 4 = le32 n := rfl
  have hseen : seenOf f h mem (writeEvent (busFrame (dmaXferReqBytes f h addr n)) 0) =
      some (.block (readMem mem (UInt64.ofNat (leNat (((dmaXferReqBytes f h addr n).drop 4).take
        8))) (leNat (((dmaXferReqBytes f h addr n).drop 12).take 4)))) := by
    unfold seenOf writeEvent
    dsimp only
    have hfw : (busFrame (dmaXferReqBytes f h addr n)).hdr.fwAddr = heciDriverAddress := rfl
    have hbytes : (busFrame (dmaXferReqBytes f h addr n)).byte 0 = busMsgDmaXferReq ∧
        (busFrame (dmaXferReqBytes f h addr n)).byte 1 = f ∧
        (busFrame (dmaXferReqBytes f h addr n)).byte 2 = h := ⟨rfl, rfl, rfl⟩
    rw [if_neg (by simp), if_pos hfw, if_pos hbytes]
    rfl
  rw [hseen, haddr, hlen, leNat_le64 addr.toNat_lt, leNat_le32 hn, UInt64.ofNat_toNat]

/-- A packet the mailbox does not take gives nothing. -/
theorem seenOf_refused (msg : HeciBusMsg) {ret : ℤ} (hret : ret ≠ 0) :
    seenOf f h mem (writeEvent msg ret) = none :=
  if_pos hret

end seen

/-! ### A block -/

/-- One turn of the loop of `send_client_msg_dma`. -/
def dmaBlock (P : Platform) (fwAddr hostAddr : UInt8) (m : Mrd) (s : HeciDev) : Bool × HeciDev :=
  match dmaBlockBegin P m s with
  | (none, s) => (false, s)
  | (some b, s) => dmaBlockEnd P fwAddr hostAddr m b (P.dmaCopy s.events.length) s

theorem sendClientMsgDma_cons (P : Platform) (f h : UInt8) (m : Mrd) (ms : List Mrd)
    (s : HeciDev) :
    sendClientMsgDma P f h (m :: ms) s =
      if (dmaBlock P f h m s).1 then sendClientMsgDma P f h ms (dmaBlock P f h m s).2
      else (false, (dmaBlock P f h m s).2) := by
  rw [sendClientMsgDma, dmaBlock]
  rcases dmaBlockBegin P m s with ⟨_ | b, s₁⟩
  · rfl
  · dsimp only
    split
    · next he => simp [he]
    · next he => simp [he]

/-- **The memory of the host after a block, and what the host is given**: the copy comes before the
announcement. -/
def blockSeen (P : Platform) (fwAddr hostAddr : UInt8) (m : Mrd) (s : HeciDev) (mem : HostMem) :
    HostMem × List Given :=
  match dmaBlockBegin P m s with
  | (none, s₁) => (mem, seen fwAddr hostAddr mem (newEvents s s₁))
  | (some b, s₁) =>
      let ret := P.dmaCopy s₁.events.length
      let mem' := if ret = 0 then writeMem mem b.dramAddr m.bytes else mem
      (mem', seen fwAddr hostAddr mem (newEvents s s₁) ++ seen fwAddr hostAddr mem'
        (newEvents s₁ (dmaBlockEnd P fwAddr hostAddr m b ret s₁).2))

/-- **The four steps of a block succeed**: there are pages, host access is granted, with the handle
zero, the copy is done, and the mailbox takes the announcement.  The numbers are the places of the
calls in the trace. -/
def BlockOk (P : Platform) (m : Mrd) (s : HeciDev) : Prop :=
  (heciDmaGetTxBuffer (UInt32.ofNat m.len) s).1.isSome ∧
    if P.sysMng then
      P.hostAccessReq s.events.length = 0 ∧ P.dmaCopy (s.events.length + 1) = 0 ∧
        0 ≤ P.hostAccessReq (s.events.length + 2) ∧ P.ipcWriteMsg (s.events.length + 3) = 0
    else P.dmaCopy s.events.length = 0 ∧ P.ipcWriteMsg s.events.length = 0

instance (P : Platform) (m : Mrd) (s : HeciDev) : Decidable (BlockOk P m s) :=
  @instDecidableAnd _ _ inferInstance (by split <;> infer_instance)

/-- The end of a block whose copy failed. -/
theorem dmaBlockEnd_of_failed (P : Platform) (f h : UInt8) (m : Mrd) (b : DmaBlock) {ret : ℤ}
    (hret : ret ≠ 0) (s : HeciDev) : (dmaBlockEnd P f h m b ret s).1 = false ∧
      (dmaBlockEnd P f h m b ret s).2.events = s.events ++
        if P.sysMng then [.hostAccessDereq b.hostReqHandler] else [] := by
  unfold dmaBlockEnd
  dsimp only
  rw [if_pos hret]
  refine ⟨rfl, ?_⟩
  rw [free_events]
  split <;> simp

/-- Whether a bus message is written, when the trace has length `n`. -/
def protoWritten (P : Platform) (n : ℕ) : Bool :=
  if P.sysMng then decide (0 ≤ P.hostAccessReq n) && (P.ipcWriteMsg (n + 1) == 0)
  else P.ipcWriteMsg n == 0

theorem heciSendProtoMsg_fst (P : Platform) (h f : UInt8) (l : Bool) (data : List UInt8)
    (s : HeciDev) :
    (heciSendProtoMsg P h f l data s).1 = protoWritten P s.events.length := by
  unfold heciSendProtoMsg withHostAccess ipcWriteMsg protoWritten
  by_cases hm : P.sysMng
  · by_cases hr : P.hostAccessReq s.events.length < 0
    · simp [hm, hr]
    · simp [hm, hr, not_lt.1 hr]
  · simp [hm]

/-- **What announcing a block gives to the host**: the block, if the announcement is written. -/
theorem seen_protoEvents (P : Platform) (f h : UInt8) (mem : HostMem) (addr : UInt64) {n k : ℕ}
    (hn : n < 2 ^ 32) :
    seen f h mem (protoEvents P (busFrame (dmaXferReqBytes f h addr n)) k) =
      if protoWritten P k then [.block (readMem mem addr n)] else [] := by
  have hwrite : ∀ ret, seenOf f h mem (writeEvent (busFrame (dmaXferReqBytes f h addr n)) ret) =
      if ret = 0 then some (.block (readMem mem addr n)) else none := by
    intro ret
    by_cases hret : ret = 0
    · rw [hret, if_pos rfl, seenOf_announcement f h mem addr hn]
    · rw [if_neg hret, seenOf_refused f h mem _ hret]
  have hreq : ∀ r, seenOf f h mem (.hostAccessReq r) = none := fun _ => rfl
  have hdereq : ∀ r, seenOf f h mem (.hostAccessDereq r) = none := fun _ => rfl
  unfold protoEvents seen protoWritten
  by_cases hm : P.sysMng
  · by_cases hr : P.hostAccessReq k < 0
    · simp [hm, hr, hreq]
    · by_cases hw : P.ipcWriteMsg (k + 1) = 0
      · simp [hm, hr, not_lt.1 hr, hw, hwrite, hreq, hdereq]
      · simp [hm, hr, hw, hwrite, hreq, hdereq]
  · by_cases hw : P.ipcWriteMsg k = 0
    · simp [hm, hw, hwrite]
    · simp [hm, hw, hwrite]

/-- The place in the trace where a block is announced, if its copy ends at place `n`. -/
def announceAt (P : Platform) (n : ℕ) : ℕ := if P.sysMng then n + 1 else n

/-- The end of a block whose copy is done. -/
theorem dmaBlockEnd_of_copied (P : Platform) (f h : UInt8) (m : Mrd) (b : DmaBlock) (s : HeciDev) :
    (dmaBlockEnd P f h m b 0 s).1 = protoWritten P (announceAt P s.events.length) ∧
      (dmaBlockEnd P f h m b 0 s).2.events = s.events ++
        ((if P.sysMng then [.hostAccessDereq b.hostReqHandler] else []) ++ protoEvents P
          (busFrame (dmaXferReqBytes f h b.dramAddr m.len)) (announceAt P s.events.length)) := by
  have hs₁ : ∃ s₁, (if P.sysMng then s.log (.hostAccessDereq b.hostReqHandler) else s) = s₁ ∧
      s₁.events = s.events ++ (if P.sysMng then [.hostAccessDereq b.hostReqHandler] else []) ∧
      s₁.events.length = announceAt P s.events.length := by
    refine ⟨_, rfl, ?_, ?_⟩
    · split <;> simp
    · unfold announceAt
      split <;> simp
  obtain ⟨s₁, hlog, hevents, hlen⟩ := hs₁
  have hfst := heciSendProtoMsg_fst P heciDriverAddress heciDriverAddress true
    (dmaXferReqBytes f h b.dramAddr m.len) s₁
  have hsnd := heciSendProtoMsg_snd P heciDriverAddress heciDriverAddress true
    (dmaXferReqBytes f h b.dramAddr m.len) s₁
  rw [hlen] at hfst hsnd
  rw [← List.append_assoc, ← hevents, ← hfst]
  unfold dmaBlockEnd
  dsimp only
  rw [hlog, if_neg (by simp)]
  rcases hp : heciSendProtoMsg P heciDriverAddress heciDriverAddress true
    (dmaXferReqBytes f h b.dramAddr m.len) s₁ with ⟨_ | _, s₂⟩
  · rw [hp] at hsnd
    refine ⟨rfl, ?_⟩
    rw [free_events]
    exact congrArg HeciDev.events hsnd
  · rw [hp] at hsnd
    exact ⟨rfl, congrArg HeciDev.events hsnd⟩

/-- Host accesses give nothing. -/
theorem seen_access (f h : UInt8) (mem : HostMem) (b : Bool) (e : ℤ) :
    seen f h mem (if b then [.hostAccessDereq e] else []) = [] := by
  split <;> rfl

/-- **The end of a block, seen by the host.** -/
theorem seen_dmaBlockEnd (P : Platform) (f h : UInt8) {m : Mrd} (b : DmaBlock) (ret : ℤ)
    (s : HeciDev) (mem : HostMem) (hm : m.len < 2 ^ 32) :
    (dmaBlockEnd P f h m b ret s).1 =
        (decide (ret = 0) && protoWritten P (announceAt P s.events.length)) ∧
      seen f h (if ret = 0 then writeMem mem b.dramAddr m.bytes else mem)
          (newEvents s (dmaBlockEnd P f h m b ret s).2) =
        if (dmaBlockEnd P f h m b ret s).1 then [.block m.bytes] else [] := by
  by_cases hret : ret = 0
  · subst hret
    obtain ⟨hfst, hevents⟩ := dmaBlockEnd_of_copied P f h m b s
    have hread : readMem (writeMem mem b.dramAddr m.bytes) b.dramAddr m.len = m.bytes := by
      have hlen : m.bytes.length < 2 ^ 64 := by
        rw [Mrd.length_bytes]
        omega
      have hback := readMem_writeMem mem b.dramAddr hlen
      rwa [Mrd.length_bytes] at hback
    rw [if_pos (rfl : (0 : ℤ) = 0), newEvents_eq hevents, seen_append, seen_access,
      seen_protoEvents P f h _ _ hm, hread, hfst]
    simp
  · obtain ⟨hfst, hevents⟩ := dmaBlockEnd_of_failed P f h m b hret s
    rw [newEvents_eq hevents, seen_access, hfst]
    simp [hret]

/-- The beginning of a block, seen by the host: nothing.  Its three outcomes are no pages, no host
access, and a block that is being copied. -/
theorem dmaBlockBegin_cases (P : Platform) (m : Mrd) (s : HeciDev) :
    (∃ s₁ evs, dmaBlockBegin P m s = (none, s₁) ∧ s₁.events = s.events ++ evs ∧
        (∀ f h mem, seen f h mem evs = []) ∧
        ((heciDmaGetTxBuffer (UInt32.ofNat m.len) s).1 = none ∨
          P.sysMng = true ∧ P.hostAccessReq s.events.length ≠ 0)) ∨
      ∃ a s₁, dmaBlockBegin P m s = (some ⟨a, 0⟩, s₁) ∧
        (heciDmaGetTxBuffer (UInt32.ofNat m.len) s).1 = some a ∧
        (P.sysMng = true → P.hostAccessReq s.events.length = 0) ∧
        s₁.events = s.events ++ if P.sysMng then [.hostAccessReq 0] else [] := by
  have hget : (heciDmaGetTxBuffer (UInt32.ofNat m.len) s).2.events = s.events := get_events ..
  unfold dmaBlockBegin
  rcases hg : heciDmaGetTxBuffer (UInt32.ofNat m.len) s with ⟨_ | a, s₁⟩
  · rw [hg] at hget
    exact Or.inl ⟨s₁, [], rfl, by simpa using hget, fun _ _ _ => rfl, Or.inl rfl⟩
  rw [hg] at hget
  dsimp only
  by_cases hm : P.sysMng
  · rw [if_pos hm, hget]
    by_cases hr : P.hostAccessReq s.events.length = 0
    · refine Or.inr ⟨a, s₁.log (.hostAccessReq 0), ?_, rfl, fun _ => hr, ?_⟩
      · rw [hr, if_neg (by simp)]
      · rw [if_pos hm, HeciDev.log_events, hget]
    · refine Or.inl ⟨_, [.hostAccessReq (P.hostAccessReq s.events.length)], if_pos hr, ?_,
        fun _ _ _ => rfl, Or.inr ⟨hm, hr⟩⟩
      rw [free_events, HeciDev.log_events, hget]
  · rw [if_neg hm]
    refine Or.inr ⟨a, s₁, rfl, rfl, fun h => absurd h hm, ?_⟩
    rw [if_neg hm, hget, List.append_nil]

/-- **A block, seen by the host**: it is given whole if the four steps succeed, and not at all
otherwise. -/
theorem blockSeen_spec (P : Platform) (f h : UInt8) {m : Mrd} (s : HeciDev) (mem : HostMem)
    (hm : m.len < 2 ^ 32) : (dmaBlock P f h m s).1 = decide (BlockOk P m s) ∧
      (blockSeen P f h m s mem).2 = if BlockOk P m s then [.block m.bytes] else [] := by
  rcases dmaBlockBegin_cases P m s with ⟨s₁, evs, hb, hev, hseen, hwhy⟩ | ⟨a, s₁, hb, hget, hr, hev⟩
  · have hnot : ¬ BlockOk P m s := by
      rintro ⟨hpages, hcalls⟩
      rcases hwhy with hnone | ⟨hsys, hreq⟩
      · rw [hnone] at hpages
        cases hpages
      · rw [if_pos hsys] at hcalls
        exact hreq hcalls.1
    unfold dmaBlock blockSeen
    rw [hb]
    refine ⟨by simp [hnot], ?_⟩
    rw [if_neg hnot]
    show seen f h mem (newEvents s s₁) = []
    rw [newEvents_eq hev, hseen]
  · obtain ⟨hfst, hend⟩ := seen_dmaBlockEnd P f h ⟨a, 0⟩ (P.dmaCopy s₁.events.length) s₁ mem hm
    have hnone : seen f h mem (newEvents s s₁) = [] := by
      rw [newEvents_eq hev]
      split <;> rfl
    have hiff : BlockOk P m s ↔ P.dmaCopy s₁.events.length = 0 ∧
        protoWritten P (announceAt P s₁.events.length) = true := by
      unfold BlockOk protoWritten announceAt
      rw [hget, hev]
      by_cases hsys : P.sysMng
      · simp [hsys, hr hsys, Nat.add_assoc]
      · simp [hsys]
    have hok : (dmaBlockEnd P f h m ⟨a, 0⟩ (P.dmaCopy s₁.events.length) s₁).1 =
        decide (BlockOk P m s) := by
      rw [hfst]
      simp [hiff]
    unfold dmaBlock blockSeen
    rw [hb]
    refine ⟨hok, ?_⟩
    dsimp only
    rw [hnone, hend, hok]
    simp

/-! ### The loop over the descriptors -/

/-- **What `send_client_msg_dma` gives to the host.** -/
def dmaSeen (P : Platform) (fwAddr hostAddr : UInt8) : List Mrd → HeciDev → HostMem → List Given
  | [], _, _ => []
  | m :: ms, s, mem =>
      (blockSeen P fwAddr hostAddr m s mem).2 ++
        if (dmaBlock P fwAddr hostAddr m s).1 then
          dmaSeen P fwAddr hostAddr ms (dmaBlock P fwAddr hostAddr m s).2
            (blockSeen P fwAddr hostAddr m s mem).1
        else []

/-- The steps of all blocks succeed. -/
def AllBlocksOk (P : Platform) (fwAddr hostAddr : UInt8) : List Mrd → HeciDev → Prop
  | [], _ => True
  | m :: ms, s =>
      BlockOk P m s ∧ AllBlocksOk P fwAddr hostAddr ms (dmaBlock P fwAddr hostAddr m s).2

instance decidableAllBlocksOk (P : Platform) (f h : UInt8) :
    ∀ (msg : List Mrd) (s : HeciDev), Decidable (AllBlocksOk P f h msg s)
  | [], _ => .isTrue trivial
  | m :: ms, s =>
      @instDecidableAnd _ _ inferInstance (decidableAllBlocksOk P f h ms (dmaBlock P f h m s).2)

/-- The steps of the first block succeed. -/
def FirstBlockOk (P : Platform) (msg : List Mrd) (s : HeciDev) : Prop :=
  ∀ m ∈ msg.head?, BlockOk P m s

/-- The blocks of descriptors. -/
def blocks (msg : List Mrd) : List Given := msg.map fun m => .block m.bytes

/-- **What the loop over the descriptors gives**: all blocks, or those before the first that fails.
-/
theorem dmaSeen_spec (P : Platform) (f h : UInt8) (msg : List Mrd) (s : HeciDev) (mem : HostMem)
    (hmsg : ∀ m ∈ msg, m.len < 2 ^ 32) :
    (AllBlocksOk P f h msg s ∧ (sendClientMsgDma P f h msg s).1 = true ∧
        dmaSeen P f h msg s mem = blocks msg) ∨
      (¬ AllBlocksOk P f h msg s ∧ (sendClientMsgDma P f h msg s).1 = false ∧
        ∃ k < msg.length, dmaSeen P f h msg s mem = blocks (msg.take k) ∧
          (k = 0 ↔ ¬ FirstBlockOk P msg s)) := by
  induction msg generalizing s mem with
  | nil => exact Or.inl ⟨trivial, rfl, rfl⟩
  | cons m ms ih =>
      obtain ⟨hfst, hseen⟩ := blockSeen_spec P f h s mem (hmsg m List.mem_cons_self)
      rw [sendClientMsgDma_cons, dmaSeen, AllBlocksOk, hseen, hfst]
      have hfirst : FirstBlockOk P (m :: ms) s ↔ BlockOk P m s := by simp [FirstBlockOk]
      rw [hfirst]
      by_cases hok : BlockOk P m s
      · simp only [hok, true_and, ↓reduceIte, decide_true]
        rcases ih (dmaBlock P f h m s).2 (blockSeen P f h m s mem).1 fun m' hm' =>
          hmsg m' (List.mem_cons_of_mem _ hm')
          with ⟨hall, hret, hgiven⟩ | ⟨hall, hret, k, hk, hgiven, -⟩
        · exact Or.inl ⟨hall, hret, by rw [hgiven]; rfl⟩
        · refine Or.inr ⟨hall, hret, k + 1, by simpa using hk, by rw [hgiven]; rfl, ?_⟩
          simp
      · refine Or.inr ⟨fun hall => hok hall.1, by simp [hok], 0, by simp, ?_, by simp [hok]⟩
        simp [hok, blocks]

/-! ### The loop over the fragments -/

/-- **Writing frames**: they all go out, or those before the first that the mailbox refuses. -/
theorem writeFrames_cases (P : Platform) (frames : List HeciBusMsg) (s : HeciDev) :
    ((∀ k < frames.length, P.ipcWriteMsg (s.events.length + k) = 0) ∧
        writeFrames P frames s = (true, s.emit (writeEvents frames))) ∨
      ∃ (j : ℕ) (hj : j < frames.length) (ret : ℤ), ret ≠ 0 ∧
        P.ipcWriteMsg (s.events.length + j) = ret ∧
        (∀ k < j, P.ipcWriteMsg (s.events.length + k) = 0) ∧
        writeFrames P frames s =
          (false, s.emit (writeEvents (frames.take j) ++ [writeEvent frames[j] ret])) := by
  induction frames generalizing s with
  | nil => exact Or.inl ⟨by simp, by simp [writeFrames, writeEvents, HeciDev.emit]⟩
  | cons x xs ih =>
      rw [writeFrames, ipcWriteMsg]
      dsimp only
      by_cases hw : P.ipcWriteMsg s.events.length = 0
      · simp only [hw, ne_eq, not_true_eq_false, ↓reduceIte]
        have hlog : s.log (.ipcWrite (frameDrbl x) x (x.hdr.len + heciHdrSize) 0) =
            s.emit [writeEvent x 0] := rfl
        have hlen : (s.emit [writeEvent x 0]).events.length = s.events.length + 1 := by simp
        rw [hlog]
        rcases ih (s.emit [writeEvent x 0]) with ⟨hall, hres⟩ | ⟨j, hj, ret, hne, hret, hall, hres⟩
        · refine Or.inl ⟨fun k hk => ?_, by rw [hres, HeciDev.emit_emit]; rfl⟩
          cases k with
          | zero => exact hw
          | succ k =>
              have := hall k (by simpa using hk)
              rwa [hlen, Nat.add_assoc, Nat.add_comm 1] at this
        · refine Or.inr ⟨j + 1, by simpa using hj, ret, hne, ?_, fun k hk => ?_, ?_⟩
          · rwa [hlen, Nat.add_assoc, Nat.add_comm 1] at hret
          · cases k with
            | zero => exact hw
            | succ k =>
                have := hall k (by omega)
                rwa [hlen, Nat.add_assoc, Nat.add_comm 1] at this
          · rw [hres, HeciDev.emit_emit]
            rfl
      · refine Or.inr ⟨0, by simp, P.ipcWriteMsg s.events.length, hw, rfl, by simp, ?_⟩
        simp only [hw, ne_eq, not_false_eq_true, ↓reduceIte]
        rfl

/-- What the host is given by a frame it gets. -/
def fragmentOf (x : HeciBusMsg) : Given := .fragment x.payload x.hdr.lastFrag

theorem seen_writeEvents {f h : UInt8} (hf : f ≠ heciDriverAddress) (mem : HostMem)
    {frames : List HeciBusMsg} (haddr : ∀ x ∈ frames, IsClientFrame f h x) :
    seen f h mem (writeEvents frames) = frames.map fragmentOf := by
  rw [seen, writeEvents, List.filterMap_map, ← List.filterMap_eq_map]
  refine List.filterMap_congr fun x hx => ?_
  obtain ⟨hfw, hhost⟩ := haddr x hx
  show seenOf f h mem (writeEvent x 0) = some (fragmentOf x)
  unfold seenOf writeEvent
  dsimp only
  rw [if_neg (by simp), if_neg (by rw [hfw]; exact hf), if_pos ⟨hfw, hhost⟩]
  rfl

/-- **What `send_client_msg_ipc` gives to the host.** -/
def ipcSeen (P : Platform) (conn : HeciConn) (msg : List Mrd) (s : HeciDev) (mem : HostMem) :
    List Given :=
  seen conn.fwAddr conn.hostAddr mem (newEvents s (sendClientMsgIpc P conn msg s).2)

/-- Host access is granted, when the trace has length `n`. -/
def Granted (P : Platform) (n : ℕ) : Prop := P.sysMng = true → 0 ≤ P.hostAccessReq n

/-- An action within a host access: it runs only if the access is granted, and the access itself
gives nothing to the host. -/
theorem withHostAccess_cases {α : Type} (P : Platform) (failed : α) (body : HeciDev → α × HeciDev)
    (s : HeciDev) (f h : UInt8) (mem : HostMem) :
    (¬ Granted P s.events.length ∧ (withHostAccess P failed body s).1 = failed ∧
        seen f h mem (newEvents s (withHostAccess P failed body s).2) = []) ∨
      (Granted P s.events.length ∧ ∃ s₁ : HeciDev,
        s₁.events.length = announceAt P s.events.length ∧
        (withHostAccess P failed body s).1 = (body s₁).1 ∧
        ∀ evs, (body s₁).2.events = s₁.events ++ evs →
          seen f h mem (newEvents s (withHostAccess P failed body s).2) = seen f h mem evs) := by
  unfold withHostAccess announceAt Granted
  by_cases hm : P.sysMng
  · simp only [hm, ↓reduceIte, forall_const]
    by_cases hr : P.hostAccessReq s.events.length < 0
    · refine Or.inl ⟨not_le.2 hr, by simp [hr], ?_⟩
      rw [if_pos hr, newEvents_eq (HeciDev.log_events ..)]
      rfl
    · refine Or.inr ⟨not_lt.1 hr, s.log (.hostAccessReq (P.hostAccessReq s.events.length)),
        by simp, by simp [hr], fun evs hevs => ?_⟩
      rw [if_neg hr]
      have hall : (((body (s.log (.hostAccessReq (P.hostAccessReq s.events.length)))).2.log
          (.hostAccessDereq (P.hostAccessReq s.events.length)))).events = s.events ++
            ([Event.hostAccessReq (P.hostAccessReq s.events.length)] ++ evs ++
              [Event.hostAccessDereq (P.hostAccessReq s.events.length)]) := by
        rw [HeciDev.log_events, hevs, HeciDev.log_events]
        simp
      rw [newEvents_eq hall, seen_append, seen_append]
      exact List.append_nil _
  · refine Or.inr ⟨fun h => absurd h hm, s, by simp [hm], by simp [hm], fun evs hevs => ?_⟩
    rw [if_neg hm, newEvents_eq hevs]

/-- The fragments of a message that is cut into pieces. -/
def fragments (pieces : List (List UInt8)) : List Given :=
  markLast (fun last data => .fragment data last) pieces

@[simp] theorem length_fragments (pieces : List (List UInt8)) :
    (fragments pieces).length = pieces.length :=
  length_markLast ..

/-- The bytes of the first fragments. -/
theorem flatMap_fragments {g : Given → List UInt8} (hg : ∀ b data, g (.fragment data b) = id data)
    (pieces : List (List UInt8)) (j : ℕ) :
    ((fragments pieces).take j).flatMap g = (pieces.take j).flatten := by
  rw [List.flatMap_def, List.map_take, fragments, map_markLast hg, List.map_id]

theorem block_notMem_fragments (pieces : List (List UInt8)) (data : List UInt8) :
    .block data ∉ fragments pieces := by
  intro hmem
  obtain ⟨k, hk, hget⟩ := List.mem_iff_getElem.1 hmem
  rw [length_fragments] at hk
  have hmark := getElem_markLast (fun last data => Given.fragment data last) pieces k
    (by simpa using hk) hk
  exact Given.noConfusion (hget.symm.trans hmark)

/-- The frames of a message, seen by the host. -/
theorem map_fragmentOf (h f : UInt8) (pieces : List (List UInt8)) :
    (markLast (HeciBusMsg.mk' h f) pieces).map fragmentOf = fragments pieces :=
  markLast_map ..

theorem isClientFrame_markLast (h f : UInt8) (pieces : List (List UInt8)) :
    ∀ x ∈ markLast (HeciBusMsg.mk' h f) pieces, IsClientFrame f h x := by
  intro x hx
  obtain ⟨k, hk, rfl⟩ := List.mem_iff_getElem.1 hx
  rw [getElem_markLast _ pieces k hk (by simpa using hk)]
  exact ⟨rfl, rfl⟩

/-- **What the loop over the fragments gives**: all of them, or those before the first that the
mailbox refuses. -/
theorem ipcSeen_spec (P : Platform) {conn : HeciConn} (hf : conn.fwAddr ≠ heciDriverAddress)
    {msg : List Mrd} (hne : msg ≠ []) (hpos : ∀ m ∈ msg, 0 < m.len) (s : HeciDev) (mem : HostMem) :
    ∃ pieces, IsChunking heciMaxPayloadSize (chainBytes msg) pieces ∧
      (((sendClientMsgIpc P conn msg s).1 = true ∧
          ipcSeen P conn msg s mem = fragments pieces ∧
          ∀ k < pieces.length, P.ipcWriteMsg (announceAt P s.events.length + k) = 0) ∨
        ((sendClientMsgIpc P conn msg s).1 = false ∧ ∃ j < pieces.length,
          ipcSeen P conn msg s mem = (fragments pieces).take j ∧
          (¬ Granted P s.events.length ∧ j = 0 ∨
            Granted P s.events.length ∧
              P.ipcWriteMsg (announceAt P s.events.length + j) ≠ 0 ∧
              ∀ k < j, P.ipcWriteMsg (announceAt P s.events.length + k) = 0))) := by
  obtain ⟨frames, ⟨pieces, hcut, rfl⟩, heq⟩ := sendClientMsgIpc_frames conn hne hpos
  have haddr := isClientFrame_markLast conn.hostAddr conn.fwAddr pieces
  refine ⟨pieces, hcut, ?_⟩
  rw [ipcSeen, heq]
  rcases withHostAccess_cases P false (writeFrames P (markLast (HeciBusMsg.mk' conn.hostAddr
    conn.fwAddr) pieces)) s conn.fwAddr conn.hostAddr mem with
      ⟨hno, hfst, hseen⟩ | ⟨hyes, s₁, hlen, hfst, hseen⟩
  · exact Or.inr ⟨hfst, 0, List.length_pos_iff.2 hcut.ne_nil, hseen, Or.inl ⟨hno, rfl⟩⟩
  rw [hfst]
  rcases writeFrames_cases P (markLast (HeciBusMsg.mk' conn.hostAddr conn.fwAddr) pieces) s₁ with
    ⟨hall, hres⟩ | ⟨j, hj, ret, hret, hwrite, hall, hres⟩
  · rw [length_markLast, hlen] at hall
    refine Or.inl ⟨by rw [hres], ?_, hall⟩
    rw [hseen _ (by rw [hres]; exact HeciDev.emit_events ..), seen_writeEvents hf mem haddr,
      map_fragmentOf]
  · rw [hlen] at hwrite hall
    refine Or.inr ⟨by rw [hres], j, by simpa using hj, ?_, Or.inr ⟨hyes, by rwa [hwrite], hall⟩⟩
    have hlast : seen conn.fwAddr conn.hostAddr mem [writeEvent (markLast (HeciBusMsg.mk'
        conn.hostAddr conn.fwAddr) pieces)[j] ret] = [] := by
      rw [seen, List.filterMap_cons, seenOf_refused _ _ _ _ hret]
      rfl
    rw [hseen _ (by rw [hres]; exact HeciDev.emit_events ..), seen_append, hlast, List.append_nil,
      seen_writeEvents hf mem fun x hx => haddr x (List.mem_of_mem_take hx), List.map_take,
      map_fragmentOf]

end PseFw.Heci
