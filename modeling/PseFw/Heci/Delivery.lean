/-
**Delivery of a sent message.**

`heci_send` has two ways to give a message to the host, and tries the second when the first fails.
The first gives one block a descriptor, and announces each of them as soon as it is copied; when it
fails in the middle of a chain, the blocks before are with the host already, and the second way
starts again with the first byte of the chain.

This module says when the host is given a message once, and when the two ways are the same to a host
that takes each announcement, and each sequence of fragments that ends with a marked one, for a
message.

Main definitions:

* `PseFw.Heci.sendChoice`, `PseFw.Heci.sendSeen` — the choice of the way, and what the host is
  given;
* `PseFw.Heci.DeliveredOnce`, `PseFw.Heci.CleanSend` — delivery, and the condition for it;
* `PseFw.Heci.logicalMsgs`, `PseFw.Heci.HostOutcome` — the messages of the host.

Main results:

* `PseFw.Heci.heciSend_choice` — the ends of the call;
* `PseFw.Heci.exactlyOnce_iff` — **a message is delivered once exactly when DMA does not fail after
  its first block, and the mailbox not after the first descriptor**;
* `PseFw.Heci.sameOutcome_iff` — **the two ways are the same exactly for one descriptor**.
-/

import PseFw.Heci.Cases
import PseFw.Heci.HostView

set_option relaxedAutoImplicit false
set_option autoImplicit false

namespace PseFw.Heci

open Chunks

/-! ### The call, seen by the host -/

/-- What `heci_send` decides before it gives the host anything: whether it tries DMA, and `none` if
it ends there. -/
def sendChoice (P : Platform) (c : ConnId) (msg : List Mrd) (s : HeciDev) :
    Option (Bool × HeciDev) :=
  match calSendMsgLen c msg s with
  | none => none
  | some totalLen =>
      if totalLen < 0 ∨ (s.connections c).hostBuffers = 0 then none
      else wantsDma P c totalLen s

/-- **What `heci_send` gives to the host.** -/
def sendSeen (P : Platform) (c : ConnId) (msg : List Mrd) (s : HeciDev) (mem : HostMem) :
    List Given :=
  match sendChoice P c msg s with
  | none => []
  | some (false, s) => ipcSeen P (s.connections c) msg s mem
  | some (true, s) =>
      let r := sendClientMsgDma P (s.connections c).fwAddr (s.connections c).hostAddr msg s
      dmaSeen P (s.connections c).fwAddr (s.connections c).hostAddr msg s mem ++
        if r.1 then [] else ipcSeen P (r.2.connections c) msg r.2 mem

/-- What a chain that passes the length check is like. -/
theorem sumMrdLen_nonneg {maxSize : ℕ} {msg : List Mrd} {n : ℕ} (hn : n ≤ heciMaxMsgSize)
    (h : 0 ≤ sumMrdLen maxSize msg n) :
    (∀ m ∈ msg, 0 < m.len ∧ m.len < 2 ^ 32) ∧ sumMrdLen maxSize msg n = n + totalLen msg := by
  induction msg generalizing n with
  | nil => exact ⟨by simp, by simp [sumMrdLen, totalLen]⟩
  | cons m ms ih =>
      rw [sumMrdLen] at h ⊢
      by_cases hbad : m.len = 0 ∨ m.buf.isNone
      · rw [if_pos hbad] at h
        omega
      rw [if_neg hbad] at h ⊢
      dsimp only at h ⊢
      by_cases hbig : (n + m.len) % 2 ^ 32 > maxSize ∨ (n + m.len) % 2 ^ 32 > heciMaxMsgSize ∨
          m.len > heciMaxMsgSize
      · rw [if_pos hbig] at h
        omega
      rw [if_neg hbig] at h ⊢
      -- the sum does not wrap around: both numbers are at most the limit
      have hmod : (n + m.len) % 2 ^ 32 = n + m.len := by
        simp only [heciMaxMsgSize] at hbig hn
        omega
      rw [hmod] at h hbig ⊢
      obtain ⟨hall, hsum⟩ := ih (by omega) h
      refine ⟨fun m' hm' => ?_, by rw [hsum]; simp [totalLen]; omega⟩
      rcases List.mem_cons.1 hm' with rfl | hm'
      · simp only [heciMaxMsgSize] at hbig
        have : ¬ m'.len = 0 := fun h0 => hbad (Or.inl h0)
        omega
      · exact hall m' hm'

/-- A connection that passes the length check is in use, and the check adds up the lengths. -/
theorem calSendMsgLen_cases {s : HeciDev} (hT : TableInv s) (c : ConnId) (msg : List Mrd) :
    ∃ n, calSendMsgLen c msg s = some n ∧ (n < 0 ∨
      (s.connections c).state ≠ connStateUnused ∧ n = totalLen msg ∧
        ∀ m ∈ msg, 0 < m.len ∧ m.len < 2 ^ 32) := by
  unfold calSendMsgLen
  dsimp only
  by_cases hopen : (s.connections c).has connStateOpen
  · have hused : (s.connections c).state ≠ connStateUnused := by
      rcases hT.isOpen hopen with h | h <;> rw [h] <;> decide
    obtain ⟨i, hi, -⟩ := (hT.conns c).used hused
    rw [if_neg (by simp [hopen]), hi]
    refine ⟨_, rfl, ?_⟩
    by_cases hn : sumMrdLen (s.clients i).properties.maxMsgSize msg 0 < 0
    · exact Or.inl hn
    · obtain ⟨hall, hsum⟩ := sumMrdLen_nonneg (Nat.zero_le _) (not_lt.1 hn)
      exact Or.inr ⟨hused, by rw [hsum]; simp, hall⟩
  · rw [if_pos (by simpa using hopen)]
    exact ⟨-1, rfl, Or.inl (by decide)⟩

/-- **The ends of the call.** -/
theorem heciSend_choice (P : Platform) {s : HeciDev} (hT : TableInv s) (c : ConnId)
    (msg : List Mrd) :
    (sendChoice P c msg s = none ∧ ∃ s', heciSend P c msg s = some (false, s')) ∨
      ∃ b s₁ s', sendChoice P c msg s = some (b, s₁) ∧ s₁.connections = s.connections ∧
        (s.connections c).fwAddr ≠ heciDriverAddress ∧
        (∀ m ∈ msg, 0 < m.len ∧ m.len < 2 ^ 32) ∧ (b = true → msg ≠ []) ∧
        heciSend P c msg s = some (if b then
          let r := sendClientMsgDma P (s₁.connections c).fwAddr (s₁.connections c).hostAddr msg s₁
          r.1 || (sendClientMsgIpc P (r.2.connections c) msg r.2).1
          else (sendClientMsgIpc P (s₁.connections c) msg s₁).1, s') := by
  obtain ⟨n, hn, hcase⟩ := calSendMsgLen_cases hT c msg
  unfold sendChoice heciSend
  rw [hn]
  dsimp only
  by_cases hneg : n < 0
  · rw [if_pos (Or.inl hneg), if_pos hneg]
    exact Or.inl ⟨rfl, s, rfl⟩
  obtain ⟨hused, hlen, hall⟩ := hcase.resolve_left hneg
  obtain ⟨i, hi, -, -, -, hsem, -⟩ := (hT.conns c).used hused
  rw [if_neg hneg]
  by_cases hhb : (s.connections c).hostBuffers = 0
  · rw [if_pos (Or.inr hhb), if_pos hhb, hsem]
    exact Or.inl ⟨rfl, _, rfl⟩
  rw [if_neg (not_or.2 ⟨hneg, hhb⟩), if_neg hhb]
  right
  have hwants : ∃ b s₁, wantsDma P c n s = some (b, s₁) ∧ s₁.connections = s.connections ∧
      (b = true → msg ≠ []) := by
    unfold wantsDma
    by_cases hdma : P.useDma = true ∧ n > configHeciDmaThreshold
    · rw [if_pos hdma]
      dsimp only
      rw [HeciDev.log_connections, hi]
      refine ⟨_, _, rfl, rfl, fun _ hnil => ?_⟩
      rw [hlen, hnil] at hdma
      simp [totalLen] at hdma
    · rw [if_neg hdma]
      exact ⟨false, s, rfl, rfl, fun hb => absurd hb (by decide)⟩
  obtain ⟨b, s₁, hw, hconn, hne⟩ := hwants
  unfold heciTransmit
  rw [hw]
  cases b with
  | false => exact ⟨false, s₁, _, rfl, hconn, hT.fwAddr_ne_zero hused, hall, hne, rfl⟩
  | true =>
      dsimp only
      rcases hd : sendClientMsgDma P (s₁.connections c).fwAddr (s₁.connections c).hostAddr msg s₁
        with ⟨_ | _, s₂⟩
      · exact ⟨true, s₁, (sendByIpc P c msg s₂).2, rfl, hconn, hT.fwAddr_ne_zero hused, hall, hne,
          by rw [hd]; rfl⟩
      · exact ⟨true, s₁, finishSend c true s₂, rfl, hconn, hT.fwAddr_ne_zero hused, hall, hne,
          by rw [hd]; rfl⟩

/-! ### Delivery -/

/-- The bytes of the fragments. -/
def fragmentBytes (g : List Given) : List UInt8 :=
  g.flatMap fun
    | .block _ => []
    | .fragment data _ => data

/-- The host has a complete copy of the descriptor `m`, which comes after `before` in its chain: a
block of it was announced, or the fragments reach to its end.  Of an empty descriptor there is no
copy in fragments. -/
def Complete (before : List Mrd) (m : Mrd) (g : List Given) : Prop :=
  .block m.bytes ∈ g ∨ m.len ≠ 0 ∧ chainBytes (before ++ [m]) <+: fragmentBytes g

/-- **A message is delivered once**: after a call that returns true the host was given the bytes of
the chain, and nothing else, and after one that returns false it has no complete copy of any
descriptor. -/
def DeliveredOnce (msg : List Mrd) (sent : Bool) (g : List Given) : Prop :=
  (sent = true → g.flatMap Given.bytes = chainBytes msg) ∧
    (sent = false → ∀ before m rest, msg = before ++ m :: rest → ¬ Complete before m g)

/-- **Delivery of a message by `heci_send`.** -/
def ExactlyOnce (P : Platform) (c : ConnId) (msg : List Mrd) (s : HeciDev) (mem : HostMem) : Prop :=
  ∃ sent s', heciSend P c msg s = some (sent, s') ∧ DeliveredOnce msg sent (sendSeen P c msg s mem)

/-- The mailbox refuses no fragment after the first descriptor is out: if it refuses the fragment
`j`, and takes those before, then these are shorter than the first descriptor.  The trace has length
`n` when the fragments are to be sent. -/
def CleanWrites (P : Platform) (msg : List Mrd) (n : ℕ) : Prop :=
  Granted P n → ∀ m ∈ msg.head?, ∀ j, heciMaxPayloadSize * j < totalLen msg →
    (∀ k < j, P.ipcWriteMsg (announceAt P n + k) = 0) →
    P.ipcWriteMsg (announceAt P n + j) ≠ 0 → heciMaxPayloadSize * j < m.len

/-- **The condition for delivery**: if DMA is tried, it does not fail after its first block; if
fragments are sent, the mailbox does not refuse one after the first descriptor is out. -/
def CleanSend (P : Platform) (c : ConnId) (msg : List Mrd) (s : HeciDev) : Prop :=
  match sendChoice P c msg s with
  | none => True
  | some (false, s) => CleanWrites P msg s.events.length
  | some (true, s) =>
      let fwAddr := (s.connections c).fwAddr
      let hostAddr := (s.connections c).hostAddr
      AllBlocksOk P fwAddr hostAddr msg s ∨ ¬ FirstBlockOk P msg s ∧
        CleanWrites P msg (sendClientMsgDma P fwAddr hostAddr msg s).2.events.length

theorem flatMap_bytes_blocks (msg : List Mrd) :
    (blocks msg).flatMap Given.bytes = chainBytes msg := by
  rw [blocks, List.flatMap_map]
  rfl

/-- What a chain of which nothing is left gives. -/
theorem ipcSeen_nil (P : Platform) (conn : HeciConn) (s : HeciDev) (mem : HostMem) :
    ipcSeen P conn [] s mem = [] := by
  rw [ipcSeen, sendClientMsgIpc]
  have hbody : ∀ s, sendFragments P conn.hostAddr conn.fwAddr (fragmentTurns []) [] 0 s =
      (true, s) := fun s => by rw [sendFragments]
  rcases withHostAccess_cases P false (sendFragments P conn.hostAddr conn.fwAddr (fragmentTurns [])
    [] 0) s conn.fwAddr conn.hostAddr mem with ⟨-, -, hseen⟩ | ⟨-, s₁, -, -, hseen⟩
  · exact hseen
  · rw [hseen [] (by rw [hbody]; simp)]
    rfl

/-- **Delivery by fragments alone.** -/
theorem deliveredOnce_ipc (P : Platform) {conn : HeciConn} (hf : conn.fwAddr ≠ heciDriverAddress)
    {msg : List Mrd} (hpos : ∀ m ∈ msg, 0 < m.len) (s : HeciDev) (mem : HostMem) :
    DeliveredOnce msg (sendClientMsgIpc P conn msg s).1 (ipcSeen P conn msg s mem) ↔
      CleanWrites P msg s.events.length := by
  cases msg with
  | nil =>
      refine iff_of_true ⟨fun _ => ?_, fun _ before m rest h => ?_⟩ fun _ m hm => by simp at hm
      · rw [ipcSeen_nil]
        rfl
      · simp at h
  | cons m ms =>
      obtain ⟨pieces, hcut, ⟨hret, hseen, hall⟩ | ⟨hret, j, hj, hseen, hwhy⟩⟩ :=
        ipcSeen_spec P hf (List.cons_ne_nil m ms) hpos s mem
      · -- all fragments are written: none is refused
        rw [hret, hseen]
        refine iff_of_true ⟨fun _ => ?_, fun hb => absurd hb (by decide)⟩
          fun _ m' _ j hj _ hwrite => ?_
        · have hbytes := flatMap_fragments (g := Given.bytes) (fun _ _ => rfl) pieces pieces.length
          rw [List.take_of_length_le (by simp), List.take_length, hcut.flatten_eq] at hbytes
          exact hbytes
        · rw [← length_chainBytes] at hj
          exact absurd (hall j (hcut.lt_length_of_mul_lt hj)) hwrite
      · rw [hret, hseen]
        have hlt := hcut.mul_lt_length hj
        have hfrag : fragmentBytes ((fragments pieces).take j) =
            (chainBytes (m :: ms)).take (heciMaxPayloadSize * j) := by
          rw [fragmentBytes, flatMap_fragments (fun _ _ => rfl), hcut.flatten_take hj]
        refine Iff.trans (b := heciMaxPayloadSize * j < m.len) ⟨fun hdel => ?_, fun hlen => ?_⟩
          ⟨fun hlen _ m' hm' j' hj' hall' hwrite' => ?_, fun hclean => ?_⟩
        · -- the fragments do not reach to the end of the first descriptor
          by_contra hge
          refine hdel.2 rfl [] m ms rfl (Or.inr ⟨(hpos m List.mem_cons_self).ne', ?_⟩)
          rw [hfrag, chainBytes_cons, List.take_append, List.take_of_length_le (by simp; omega)]
          simp [chainBytes]
        · refine ⟨fun hb => absurd hb (by decide), fun _ before m' rest heq hcomplete => ?_⟩
          rcases hcomplete with hblock | ⟨-, hfrags⟩
          · exact block_notMem_fragments pieces _ (List.mem_of_mem_take hblock)
          · have hle := hfrags.length_le
            have hhead : m.len ≤ (chainBytes (before ++ [m'])).length := by
              rw [length_chainBytes]
              cases before with
              | nil =>
                  cases heq
                  simp [totalLen]
              | cons x xs =>
                  cases heq
                  simp [totalLen]
            rw [hfrag, List.length_take] at hle
            omega
        · obtain rfl : m = m' := by simpa using hm'
          rcases hwhy with ⟨hno, -⟩ | ⟨-, hwrite, hall⟩
          · exact absurd ‹_› hno
          · obtain rfl : j = j' := by
              rcases Nat.lt_trichotomy j j' with h | h | h
              · exact absurd (hall' j h) hwrite
              · exact h
              · exact absurd (hall j' h) hwrite'
            exact hlen
        · rcases hwhy with ⟨-, rfl⟩ | ⟨hyes, hwrite, hall⟩
          · simpa using hpos m List.mem_cons_self
          · rw [length_chainBytes] at hlt
            exact hclean hyes m rfl j hlt hall hwrite

/-- **Blocks that are followed by the whole chain are too much.** -/
theorem not_deliveredOnce_blocks (P : Platform) {conn : HeciConn}
    (hf : conn.fwAddr ≠ heciDriverAddress) {msg : List Mrd} (hpos : ∀ m ∈ msg, 0 < m.len) {k : ℕ}
    (hk : k < msg.length) (hk' : k ≠ 0) (s : HeciDev) (mem : HostMem) :
    ¬ DeliveredOnce msg (sendClientMsgIpc P conn msg s).1
      (blocks (msg.take k) ++ ipcSeen P conn msg s mem) := by
  obtain ⟨m, ms, rfl⟩ : ∃ m ms, msg = m :: ms := List.exists_cons_of_length_pos (by omega)
  obtain ⟨k, rfl⟩ := Nat.exists_eq_succ_of_ne_zero hk'
  intro hdel
  obtain ⟨pieces, hcut, ⟨hret, hseen, -⟩ | ⟨hret, -⟩⟩ :=
    ipcSeen_spec P hf (List.cons_ne_nil m ms) hpos s mem
  · -- the bytes of the chain come after those of the blocks
    have hbytes := hdel.1 hret
    have hfrags := flatMap_fragments (g := Given.bytes) (fun _ _ => rfl) pieces pieces.length
    rw [List.take_of_length_le (by simp), List.take_length, hcut.flatten_eq] at hfrags
    rw [hseen, List.flatMap_append, flatMap_bytes_blocks, hfrags] at hbytes
    have hlen := congrArg List.length hbytes
    have := hpos m List.mem_cons_self
    simp only [List.length_append, length_chainBytes, List.take_succ_cons, totalLen, List.map_cons,
      List.sum_cons] at hlen
    omega
  · exact hdel.2 hret [] m ms rfl (Or.inl (by simp [blocks]))

/-- **A message is delivered once exactly when** the call is refused, or DMA, if it is tried, does
not fail after its first block, and the mailbox, if fragments are sent, refuses none after the first
descriptor is out. -/
theorem exactlyOnce_iff {P : Platform} {s : HeciDev} (hs : Reachable P s) (c : ConnId)
    (msg : List Mrd) (mem : HostMem) : ExactlyOnce P c msg s mem ↔ CleanSend P c msg s := by
  unfold ExactlyOnce sendSeen CleanSend
  rcases heciSend_choice P (tableInv_of_reachable hs) c msg with
    ⟨hnone, s', hsend⟩ | ⟨b, s₁, s', hsome, hconn, hf, hmsg, hne, hsend⟩
  · rw [hnone, hsend]
    refine iff_of_true ⟨false, s', rfl, fun hb => absurd hb (by decide),
      fun _ before m rest heq hcomplete => ?_⟩ trivial
    rcases hcomplete with hblock | ⟨hlen, hfrags⟩
    · simp at hblock
    · have hle := hfrags.length_le
      rw [length_chainBytes] at hle
      simp [fragmentBytes, totalLen] at hle
      omega
  have hpos : ∀ m ∈ msg, 0 < m.len := fun m hm => (hmsg m hm).1
  rw [hsome, hsend]
  have hret : ∀ {ok : Bool} {Q : Bool → Prop}, (∃ sent s'', some (ok, s') = some (sent, s'') ∧
      Q sent) ↔ Q ok := by
    intro ok Q
    constructor
    · rintro ⟨sent, s'', heq, hq⟩
      cases heq
      exact hq
    · intro hq
      exact ⟨_, _, rfl, hq⟩
  rw [hret]
  cases b with
  | false =>
      dsimp only
      rw [if_neg (by decide), hconn]
      exact deliveredOnce_ipc P hf hpos s₁ mem
  | true =>
      dsimp only
      rw [if_pos rfl]
      have hio := ioStep_sendClientMsgDma P (s₁.connections c).fwAddr (s₁.connections c).hostAddr
        msg s₁
      rw [hio.connections, hconn]
      rcases dmaSeen_spec P (s.connections c).fwAddr (s.connections c).hostAddr msg s₁ mem
        fun m hm => (hmsg m hm).2 with ⟨hall, hdma, hseen⟩ | ⟨hall, hdma, k, hk, hseen, hfirst⟩
      · rw [hdma, hseen]
        refine iff_of_true ⟨fun _ => ?_, fun hb => absurd hb (by simp)⟩ (Or.inl hall)
        simpa using flatMap_bytes_blocks msg
      · rw [hdma, hseen, Bool.false_or, if_neg (by decide), or_iff_right hall]
        by_cases hk0 : k = 0
        · rw [hk0, and_iff_right (hfirst.1 hk0)]
          exact deliveredOnce_ipc P hf hpos _ mem
        · refine iff_of_false (not_deliveredOnce_blocks P hf hpos hk hk0 _ mem) fun hclean => ?_
          exact hk0 (hfirst.2 hclean.1)

/-- A platform with DMA on which everything succeeds. -/
def Platform.withDma : Platform := { Platform.nominal with useDma := true }

/-- A client with DMA is connected, the host has announced a buffer and given a credit. -/
def dmaReadyCalls : List Call :=
  connectCalls { plainClient 1 0 4096 1 with dmaEnabled := true } 7 ++
    [busCall ([busMsgDmaAllocNotifyReq, 0, 0, 0] ++ le32 0x10000 ++ le64 0x100000),
      busCall (flowCtrlBytes 32 7 1)]

/-- A message of two descriptors that is long enough for DMA. -/
def twoPieces : List Mrd := [Mrd.ofBytes [1], Mrd.ofBytes (List.replicate 372 2)]

/-- When nothing fails, a message of two descriptors is delivered once. -/
theorem exactlyOnce_twoPieces :
    ∃ s, Reachable Platform.withDma s ∧
      (heciSend Platform.withDma 0 twoPieces s).map Prod.fst = some true ∧
      ExactlyOnce Platform.withDma 0 twoPieces s fun _ => 0 := by
  obtain ⟨s, hs, hsent, hchoice⟩ := exists_reachable Platform.withDma dmaReadyCalls
    (fun s => (heciSend Platform.withDma 0 twoPieces s).map Prod.fst = some true ∧
      (sendChoice Platform.withDma 0 twoPieces s).any (fun r => r.1 && decide (AllBlocksOk
        Platform.withDma (r.2.connections 0).fwAddr (r.2.connections 0).hostAddr twoPieces r.2)) =
          true) (by decide +kernel)
  refine ⟨s, hs, hsent, (exactlyOnce_iff hs 0 twoPieces _).2 ?_⟩
  obtain ⟨⟨b, s₁⟩, hsome, hok⟩ := (Option.any_eq_true _ _).1 hchoice
  simp only [Bool.and_eq_true, decide_eq_true_eq] at hok
  obtain ⟨rfl, hok⟩ := hok
  unfold CleanSend
  rw [hsome]
  exact Or.inl hok

/-- The copy of the second descriptor fails. -/
def Platform.secondCopyFails : Platform :=
  { Platform.withDma with dmaCopy := fun n => if n = 12 then -5 else 0 }

/-- When the copy of the second descriptor fails, the call returns true and the host has the first
one twice. -/
theorem not_exactlyOnce_second_copy :
    ∃ s, Reachable Platform.secondCopyFails s ∧
      (heciSend Platform.secondCopyFails 0 twoPieces s).map Prod.fst = some true ∧
      ((sendSeen Platform.secondCopyFails 0 twoPieces s fun _ => 0).map Given.bytes).map
        List.length = [1, 124, 124, 124, 1] ∧
      ¬ ExactlyOnce Platform.secondCopyFails 0 twoPieces s fun _ => 0 := by
  obtain ⟨s, hs, hsent, hlens⟩ := exists_reachable Platform.secondCopyFails dmaReadyCalls
    (fun s => (heciSend Platform.secondCopyFails 0 twoPieces s).map Prod.fst = some true ∧
      ((sendSeen Platform.secondCopyFails 0 twoPieces s fun _ => 0).map Given.bytes).map
        List.length = [1, 124, 124, 124, 1]) (by decide +kernel)
  refine ⟨s, hs, hsent, hlens, ?_⟩
  rintro ⟨sent, s', hsend, hdel⟩
  rw [hsend] at hsent
  obtain rfl : sent = true := by simpa using hsent
  have hbytes := congrArg List.length (hdel.1 rfl)
  rw [List.flatMap_def, List.length_flatten, hlens, length_chainBytes] at hbytes
  exact absurd hbytes (by decide +kernel)

/-! ### The messages of the host -/

/-- **The messages of a host** that takes each announcement, and each sequence of fragments that
ends with a marked one, for a message; `acc` are the fragments of the message that has begun. -/
def logicalMsgs : List UInt8 → List Given → List (List UInt8)
  | _, [] => []
  | acc, .block data :: g => data :: logicalMsgs acc g
  | acc, .fragment data last :: g =>
      if last then (acc ++ data) :: logicalMsgs [] g else logicalMsgs (acc ++ data) g

/-- The messages the host gets, and the credit that is taken. -/
structure HostOutcome where
  msgs : List (List UInt8)
  credit : UInt32
  deriving DecidableEq, Repr

/-- The credit that is taken from a connection. -/
def creditTaken (c : ConnId) (s s' : HeciDev) : UInt32 :=
  (s.connections c).hostBuffers - (s'.connections c).hostBuffers

/-- Sending through `send_client_msg_dma`. -/
def dmaOutcome (P : Platform) (c : ConnId) (msg : List Mrd) (s : HeciDev) (mem : HostMem) :
    HostOutcome :=
  let fwAddr := (s.connections c).fwAddr
  let hostAddr := (s.connections c).hostAddr
  let r := sendClientMsgDma P fwAddr hostAddr msg s
  ⟨logicalMsgs [] (dmaSeen P fwAddr hostAddr msg s mem), creditTaken c s (finishSend c r.1 r.2)⟩

/-- Sending through `send_client_msg_ipc`. -/
def ipcOutcome (P : Platform) (c : ConnId) (msg : List Mrd) (s : HeciDev) (mem : HostMem) :
    HostOutcome :=
  ⟨logicalMsgs [] (ipcSeen P (s.connections c) msg s mem), creditTaken c s (sendByIpc P c msg s).2⟩

/-- **The two ways are the same**: the host gets one message, the same one, for one credit. -/
def SameOutcome (P : Platform) (c : ConnId) (msg : List Mrd) (s : HeciDev) (mem : HostMem) : Prop :=
  ∃ data, dmaOutcome P c msg s mem = ⟨[data], 1⟩ ∧ ipcOutcome P c msg s mem = ⟨[data], 1⟩

theorem logicalMsgs_blocks (acc : List UInt8) (msg : List Mrd) :
    logicalMsgs acc (blocks msg) = msg.map Mrd.bytes := by
  induction msg with
  | nil => rfl
  | cons m ms ih => exact congrArg (m.bytes :: ·) ih

theorem logicalMsgs_fragments (acc : List UInt8) {pieces : List (List UInt8)} (h : pieces ≠ []) :
    logicalMsgs acc (fragments pieces) = [acc ++ pieces.flatten] := by
  induction pieces generalizing acc with
  | nil => exact absurd rfl h
  | cons x xs ih =>
      cases xs with
      | nil => simp [fragments, markLast, logicalMsgs]
      | cons y ys =>
          rw [fragments, markLast_cons _ _ (List.cons_ne_nil y ys), logicalMsgs,
            if_neg (by decide)]
          have := ih (acc ++ x) (List.cons_ne_nil y ys)
          rw [fragments] at this
          rw [this]
          simp

/-- A message that was sent takes one credit. -/
theorem creditTaken_finishSend {W : HeciBusMsg → Prop} {s s' : HeciDev} (hio : IoStep W s s')
    (c : ConnId) : creditTaken c s (finishSend c true s') = 1 := by
  simp only [creditTaken, finishSend, ↓reduceIte, HeciDev.setConn_connections,
    Function.update_self, hio.connections]
  grind

/-- **The two ways are the same exactly for a chain of one descriptor.** -/
theorem sameOutcome_iff {P : Platform} {s : HeciDev} (hs : Reachable P s) {c : ConnId}
    {msg : List Mrd} {n : ℤ} (hacc : calSendMsgLen c msg s = some n) (hn : 0 ≤ n)
    (hdma : (sendClientMsgDma P (s.connections c).fwAddr (s.connections c).hostAddr msg s).1 = true)
    (hipc : (sendClientMsgIpc P (s.connections c) msg s).1 = true) (mem : HostMem) :
    SameOutcome P c msg s mem ↔ msg.length = 1 := by
  have hT := tableInv_of_reachable hs
  obtain ⟨n', hn', hcase⟩ := calSendMsgLen_cases hT c msg
  obtain rfl : n = n' := Option.some.inj (hacc.symm.trans hn')
  obtain ⟨hused, -, hall⟩ := hcase.resolve_left (not_lt.2 hn)
  have hdmaOut : dmaOutcome P c msg s mem = ⟨msg.map Mrd.bytes, 1⟩ := by
    rcases dmaSeen_spec P (s.connections c).fwAddr (s.connections c).hostAddr msg s mem
      fun m hm => (hall m hm).2 with ⟨-, -, hseen⟩ | ⟨-, hret, -⟩
    · rw [dmaOutcome, hseen, logicalMsgs_blocks, hdma, creditTaken_finishSend
        (ioStep_sendClientMsgDma ..)]
    · rw [hdma] at hret
      cases hret
  have hcredit : creditTaken c s (sendByIpc P c msg s).2 = 1 := by
    rw [sendByIpc, hipc]
    exact creditTaken_finishSend (ioStep_sendClientMsgIpc ..) c
  rw [SameOutcome, hdmaOut, ipcOutcome, hcredit]
  cases msg with
  | nil => simp [ipcSeen_nil, logicalMsgs]
  | cons m ms =>
      obtain ⟨pieces, hcut, ⟨-, hseen, -⟩ | ⟨hret, -⟩⟩ := ipcSeen_spec P (hT.fwAddr_ne_zero hused)
        (List.cons_ne_nil m ms) (fun m hm => (hall m hm).1) s mem
      · rw [hseen, logicalMsgs_fragments [] hcut.ne_nil, hcut.flatten_eq]
        cases ms with
        | nil => simp [chainBytes]
        | cons m' ms' => simp
      · rw [hipc] at hret
        cases hret

/-- One descriptor of 373 bytes is one message either way. -/
theorem sameOutcome_one_descriptor :
    ∃ s, Reachable Platform.withDma s ∧
      SameOutcome Platform.withDma 0 [Mrd.ofBytes (List.replicate 373 2)] s fun _ => 0 := by
  obtain ⟨s, hs, hacc, hdma, hipc⟩ := exists_reachable Platform.withDma dmaReadyCalls
    (fun s => calSendMsgLen 0 [Mrd.ofBytes (List.replicate 373 2)] s = some 373 ∧
      (sendClientMsgDma Platform.withDma (s.connections 0).fwAddr (s.connections 0).hostAddr
        [Mrd.ofBytes (List.replicate 373 2)] s).1 = true ∧
      (sendClientMsgIpc Platform.withDma (s.connections 0) [Mrd.ofBytes (List.replicate 373 2)] s).1
        = true) (by decide +kernel)
  exact ⟨s, hs, (sameOutcome_iff hs hacc (by decide) hdma hipc _).2 rfl⟩

/-- Two descriptors are two messages by DMA and one by fragments. -/
theorem not_sameOutcome_twoPieces :
    ∃ s, Reachable Platform.withDma s ∧ calSendMsgLen 0 twoPieces s = some 373 ∧
      (sendClientMsgDma Platform.withDma (s.connections 0).fwAddr (s.connections 0).hostAddr
        twoPieces s).1 = true ∧
      (sendClientMsgIpc Platform.withDma (s.connections 0) twoPieces s).1 = true ∧
      (dmaOutcome Platform.withDma 0 twoPieces s fun _ => 0).msgs.map List.length = [1, 372] ∧
      (ipcOutcome Platform.withDma 0 twoPieces s fun _ => 0).msgs.map List.length = [373] ∧
      ¬ SameOutcome Platform.withDma 0 twoPieces s fun _ => 0 := by
  obtain ⟨s, hs, hacc, hdma, hipc, hdmaMsgs, hipcMsgs⟩ := exists_reachable Platform.withDma
    dmaReadyCalls (fun s => calSendMsgLen 0 twoPieces s = some 373 ∧
      (sendClientMsgDma Platform.withDma (s.connections 0).fwAddr (s.connections 0).hostAddr
        twoPieces s).1 = true ∧
      (sendClientMsgIpc Platform.withDma (s.connections 0) twoPieces s).1 = true ∧
      (dmaOutcome Platform.withDma 0 twoPieces s fun _ => 0).msgs.map List.length = [1, 372] ∧
      (ipcOutcome Platform.withDma 0 twoPieces s fun _ => 0).msgs.map List.length = [373])
    (by decide +kernel)
  refine ⟨s, hs, hacc, hdma, hipc, hdmaMsgs, hipcMsgs, ?_⟩
  rintro ⟨data, hd, -⟩
  rw [hd] at hdmaMsgs
  simp at hdmaMsgs

end PseFw.Heci
