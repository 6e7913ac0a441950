/-
**The trace dumper is the reader of a queue.**

Whatever the producer does between the accesses of the dumper, the unread bytes stand in the ring
from `head` on and the dumper finds them there: the piece it claims ends at the sampled `tail` or
at the end of the ring, and `tail` may have moved on but never over a byte of the piece.  So the
file and the bytes that are still to come are the two ends of a queue, into which the producer puts
what `tail` passes.

With the producer at rest every round of the loop makes the queue shorter, and the loop empties it.
There is one exception: a ring whose every cell holds an unread byte has `head = tail`, which the
dumper reads as "empty".  The producer has to leave a cell free.

Main definitions:

* `RingInv` — what holds between any two steps;
* `Move` — what the dumper can do next;
* `abs` — the queue that a state stands for;
* `Drains`, `Brimful` — the loop empties the ring; the ring looks empty because it is full.

Main results:

* `ringInv_of_reach` — the invariant;
* `abs_reach` — **the system refines a queue**;
* `drains_of_not_brimful`, `not_drains_of_brimful` — when the loop empties the ring;
* `dump_refines_fifo` — **the dumper**: prefix, range of `head`, bounds of the copies and progress.
-/

import PseFw.Trace.Dump

set_option relaxedAutoImplicit false
set_option autoImplicit false

namespace PseFw.Trace

variable {s s' : TraceSys}

/-! ### The invariant -/

/-- The piece of `len` bytes from `h` on that the dumper is about to take. -/
structure Claimed (head size : ℕ) (queue : List UInt8) (h len : ℕ) : Prop where
  here : h = head
  pos : 0 < len
  page : len ≤ shmemPageSize
  inside : h + len ≤ size
  unread : len ≤ queue.length

/-- What the locals of the dumper have to do with the ring. -/
def Pc.Ok (head size : ℕ) (queue : List UInt8) (stop : Bool) : Pc → Prop
  | .top => True
  | .sampled h => h = head
  | .copy h len buf => Claimed head size queue h len ∧ buf <+: queue ∧ buf.length ≤ len
  | .wrote h len => Claimed head size queue h len
  | .test => True
  | .exited => stop = true
  | .wrong => False
  | .fault => False

/-- **What holds between any two steps.** -/
structure RingInv (s : TraceSys) : Prop where
  size_eq : s.shmemSize = s.size
  size_pos : 0 < s.size
  size_lt : s.size < 2 ^ 32
  head_lt : s.head < s.size
  room : s.queue.length ≤ s.size
  tail_eq : s.tail = (s.head + s.queue.length) % s.size
  queue_eq : s.queue = Ring.window s.size s.lbuf s.head s.queue.length
  pc_ok : s.pc.Ok s.head s.size s.queue s.dumpStop

theorem ringInv_init (h : TraceInit s) : RingInv s := by
  obtain ⟨hlt, hneg, hhead, hpc, -, hroom, htail, hqueue, -⟩ := h
  obtain ⟨heq, hdvd, -⟩ := (negotiate_eq_some hlt).1 hneg
  exact ⟨heq, by omega, hlt, hhead, hroom, htail, hqueue, by rw [hpc]; trivial⟩

theorem RingInv.tail_lt (h : RingInv s) : s.tail < s.size :=
  h.tail_eq ▸ Nat.mod_lt _ h.size_pos

/-- Before the end of the ring the unread bytes stand at their own index. -/
theorem RingInv.getElem_queue (h : RingInv s) {i : ℕ} (hi : i < s.queue.length)
    (hin : s.head + i < s.size) : s.queue[i] = s.lbuf (s.head + i) := by
  have hget : s.queue[i]? = some (s.lbuf (s.head + i)) := by
    rw [h.queue_eq, List.getElem?_eq_getElem (by simpa using hi), Ring.getElem_window,
      Nat.mod_eq_of_lt hin]
  exact Option.some.inj ((List.getElem?_eq_getElem hi).symm.trans hget)

/-- The two indices agree when there is no unread byte or no other. -/
theorem RingInv.head_eq_tail_iff (h : RingInv s) :
    s.head = s.tail ↔ s.queue = [] ∨ s.queue.length = s.size := by
  rw [h.tail_eq, ← List.length_eq_zero_iff]
  have hhead := h.head_lt
  have hroom := h.room
  rcases Nat.lt_or_ge (s.head + s.queue.length) s.size with hlt | hge
  · rw [Nat.mod_eq_of_lt hlt]
    omega
  · rw [Nat.mod_eq_sub_mod hge, Nat.mod_eq_of_lt (by omega)]
    omega

/-- **The piece of one round** lies before the end of the ring, fits the local buffer and is
unread. -/
theorem RingInv.claimed (h : RingInv s) (hne : s.head ≠ s.tail) :
    Claimed s.head s.size s.queue s.head (dumpLen s.shmemSize s.head s.tail) := by
  have hhead := h.head_lt
  have hroom := h.room
  have htail := h.tail_eq
  have hsize := h.size_eq
  have hpage : shmemPageSize = 4096 := rfl
  -- `tail` is ahead of `head` in the same lap, or it is in the next lap and behind
  have hlap : (s.head < s.tail ∧ s.tail = s.head + s.queue.length ∧ s.tail ≤ s.size) ∨
      (s.tail < s.head ∧ s.size ≤ s.head + s.queue.length) := by
    rcases Nat.lt_or_ge (s.head + s.queue.length) s.size with hlt | hge
    · rw [Nat.mod_eq_of_lt hlt] at htail
      omega
    · rw [Nat.mod_eq_sub_mod hge, Nat.mod_eq_of_lt (by omega)] at htail
      omega
  rcases hlap with ⟨hlt, heq, hle⟩ | ⟨hlt, hge⟩
  · simp only [dumpLen, if_pos hlt]
    split <;> exact ⟨rfl, by omega, by omega, by omega, by omega⟩
  · simp only [dumpLen, if_neg (not_lt.2 hlt.le)]
    split <;> exact ⟨rfl, by omega, by omega, by omega, by omega⟩

/-! ### What the dumper can do -/

/-- **The next move of the dumper**, in terms of the unread bytes. -/
inductive Move (s : TraceSys) : TraceSys → Prop
  | sample : s.pc = .top → Move s { s with pc := .sampled s.head }
  | empty : s.pc = .sampled s.head → s.head = s.tail → Move s { s with pc := .test }
  | claim (len : ℕ) : s.pc = .sampled s.head → s.head ≠ s.tail →
      Claimed s.head s.size s.queue s.head len → Move s { s with pc := .copy s.head len [] }
  | byte (len : ℕ) (buf : List UInt8) (b : UInt8) : s.pc = .copy s.head len buf →
      Claimed s.head s.size s.queue s.head len → buf.length < len → buf ++ [b] <+: s.queue →
      Move s { s with pc := .copy s.head len (buf ++ [b]) }
  | write (len : ℕ) : s.pc = .copy s.head len (s.queue.take len) →
      Claimed s.head s.size s.queue s.head len →
      Move s { s with pc := .wrote s.head len, file := s.file ++ s.queue.take len }
  | release (len : ℕ) : s.pc = .wrote s.head len → Claimed s.head s.size s.queue s.head len →
      Move s { s with pc := .test, head := (s.head + len) % s.size, queue := s.queue.drop len }
  | again : s.pc = .test → s.dumpStop = false → Move s { s with pc := .top }
  | leave : s.pc = .test → s.dumpStop = true → Move s { s with pc := .exited }
  | rest : s.pc = .exited → s.dumpStop = true → Move s s

theorem dumpNext_move (h : RingInv s) : Move s (dumpNext s) := by
  have hok := h.pc_ok
  unfold dumpNext
  cases hpc : s.pc with
  | top => exact .sample hpc
  | sampled head =>
      rw [hpc] at hok
      obtain rfl : head = s.head := hok
      by_cases heq : s.head = s.tail
      · simp only [if_pos heq]
        exact .empty hpc heq
      · have hgood : ¬ (s.head > s.size ∨ s.tail ≥ s.size ∨ s.size ≠ s.shmemSize) := by
          have := h.head_lt
          have := h.tail_lt
          have := h.size_eq
          omega
        simp only [if_neg heq, if_neg hgood]
        exact .claim _ hpc heq (h.claimed heq)
  | copy head len buf =>
      rw [hpc] at hok
      obtain ⟨hcl, hbuf, hle⟩ := hok
      obtain rfl := hcl.here
      by_cases hlt : buf.length < len
      · simp only [if_pos hlt]
        have hin := hcl.inside
        have hun := hcl.unread
        have hlen : buf.length < s.queue.length := lt_of_lt_of_le hlt hun
        -- the cell holds the next unread byte
        have hnext : buf ++ [s.lbuf (s.head + buf.length)] = s.queue.take (buf.length + 1) := by
          rw [← h.getElem_queue hlen (by omega), List.take_add_one,
            List.getElem?_eq_getElem hlen, ← List.prefix_iff_eq_take.1 hbuf]
          rfl
        exact .byte len buf _ hpc hcl hlt (hnext ▸ List.take_prefix _ _)
      · simp only [if_neg hlt]
        have heq : buf = s.queue.take len := by
          rw [List.prefix_iff_eq_take.1 hbuf, Nat.le_antisymm hle (not_lt.1 hlt)]
        subst heq
        exact .write len hpc hcl
  | wrote head len =>
      rw [hpc] at hok
      have hcl : Claimed s.head s.size s.queue head len := hok
      obtain rfl := hcl.here
      have hin := hcl.inside
      have hlt := h.size_lt
      have hsize := h.size_eq
      have hmod : (s.head + len) % 2 ^ 32 = s.head + len := Nat.mod_eq_of_lt (by omega)
      have hhead : (if s.head + len = s.shmemSize then 0 else s.head + len) =
          (s.head + len) % s.size := by
        by_cases heq : s.head + len = s.size
        · rw [if_pos (heq.trans hsize.symm), heq, Nat.mod_self]
        · rw [if_neg (by omega), Nat.mod_eq_of_lt (by omega)]
      simp only [hmod, if_neg (show ¬ s.head + len > s.shmemSize by omega), hhead]
      exact .release len hpc hcl
  | test =>
      by_cases hstop : s.dumpStop = true
      · simp only [if_pos hstop]
        exact .leave hpc hstop
      · simp only [if_neg hstop]
        exact .again hpc (by simpa using hstop)
  | exited =>
      rw [hpc] at hok
      exact .rest hpc hok
  | wrong =>
      rw [hpc] at hok
      exact hok.elim
  | fault =>
      rw [hpc] at hok
      exact hok.elim

/-- A move keeps the invariant. -/
theorem RingInv.move (h : RingInv s) (hm : Move s s') : RingInv s' := by
  obtain ⟨hsize, hpos, hlt, hhead, hroom, htail, hqueue, -⟩ := h
  cases hm with
  | sample hpc => exact ⟨hsize, hpos, hlt, hhead, hroom, htail, hqueue, rfl⟩
  | empty hpc heq => exact ⟨hsize, hpos, hlt, hhead, hroom, htail, hqueue, trivial⟩
  | claim len hpc hne hcl =>
      exact ⟨hsize, hpos, hlt, hhead, hroom, htail, hqueue, hcl, List.nil_prefix, Nat.zero_le _⟩
  | byte len buf b hpc hcl hbuf hpre =>
      exact ⟨hsize, hpos, hlt, hhead, hroom, htail, hqueue, hcl, hpre,
        by simpa using Nat.succ_le_of_lt hbuf⟩
  | write len hpc hcl => exact ⟨hsize, hpos, hlt, hhead, hroom, htail, hqueue, hcl⟩
  | release len hpc hcl =>
      have hun := hcl.unread
      refine ⟨hsize, hpos, hlt, Nat.mod_lt _ hpos, ?_, ?_, ?_, trivial⟩
      · simp only [List.length_drop]
        omega
      · simp only [List.length_drop, Nat.mod_add_mod]
        rw [htail]
        congr 1
        omega
      · simp only [List.length_drop, Ring.window_mod]
        rw [← Ring.drop_window, ← hqueue]
  | again hpc hstop => exact ⟨hsize, hpos, hlt, hhead, hroom, htail, hqueue, trivial⟩
  | leave hpc hstop => exact ⟨hsize, hpos, hlt, hhead, hroom, htail, hqueue, hstop⟩
  | rest hpc hstop =>
      exact ⟨hsize, hpos, hlt, hhead, hroom, htail, hqueue, by rw [hpc]; exact hstop⟩

/-- More unread bytes, and a signal, do not disturb the dumper. -/
theorem Pc.Ok.mono {pc : Pc} {head size : ℕ} {q q' : List UInt8} {stop stop' : Bool}
    (h : pc.Ok head size q stop) (hq : q <+: q') (hstop : stop = true → stop' = true) :
    pc.Ok head size q' stop' := by
  have hcl : ∀ {h len}, Claimed head size q h len → Claimed head size q' h len := fun hc =>
    ⟨hc.here, hc.pos, hc.page, hc.inside, hc.unread.trans hq.length_le⟩
  cases pc with
  | top => trivial
  | sampled head => exact h
  | copy head len buf => exact ⟨hcl h.1, h.2.1.trans hq, h.2.2⟩
  | wrote head len => exact hcl h
  | test => trivial
  | exited => exact hstop h
  | wrong => exact h
  | fault => exact h

/-- **Every step keeps the invariant.** -/
theorem RingInv.step {l : TraceLabel} (h : RingInv s) (hst : traceStep l s = some s') :
    RingInv s' := by
  cases l with
  | dump =>
      obtain rfl := Option.some.inj hst
      exact h.move (dumpNext_move h)
  | fill p b =>
      simp only [traceStep] at hst
      split at hst
      · rename_i hguard
        obtain rfl := Option.some.inj hst
        refine ⟨h.size_eq, h.size_pos, h.size_lt, h.head_lt, h.room, h.tail_eq, ?_, h.pc_ok⟩
        exact h.queue_eq.trans (Ring.window_update _ b hguard.2).symm
      · cases hst
  | publish k =>
      simp only [traceStep] at hst
      split at hst
      · rename_i hguard
        obtain rfl := Option.some.inj hst
        refine ⟨h.size_eq, h.size_pos, h.size_lt, h.head_lt, ?_, ?_, ?_, ?_⟩
        · simpa using hguard
        · simp only [List.length_append, Ring.length_window, h.tail_eq, Nat.mod_add_mod]
          rw [Nat.add_assoc]
        · simp only [List.length_append, Ring.length_window]
          rw [Ring.window_add, ← h.queue_eq, h.tail_eq, Ring.window_mod]
        · exact h.pc_ok.mono (List.prefix_append _ _) id
      · cases hst
  | sigint =>
      obtain rfl := Option.some.inj hst
      exact ⟨h.size_eq, h.size_pos, h.size_lt, h.head_lt, h.room, h.tail_eq, h.queue_eq,
        h.pc_ok.mono List.prefix_rfl fun _ => rfl⟩

/-- **The invariant holds in every state.** -/
theorem ringInv_of_reach (h : TraceReach s) : RingInv s :=
  h.invariant (fun _ => ringInv_init) fun _ _ _ hs _ hst => hs.step hst

/-! ### The queue -/

/-- The bytes that are in the file before `head` says so. -/
def Pc.pending : Pc → ℕ
  | .wrote _ len => len
  | _ => 0

/-- **The queue that a state stands for**: what the file does not have yet, the file, and what
`tail` has passed. -/
def abs (s : TraceSys) : Fifo UInt8 := ⟨s.queue.drop s.pc.pending, s.file, s.stream⟩

/-- The dumper takes from the queue when it writes to the file, and at no other moment. -/
theorem abs_move (hm : Move s s') : abs s' = abs s ∨ Fifo.Step (abs s) (abs s') := by
  cases hm with
  | sample hpc => exact Or.inl (by simp [abs, hpc, Pc.pending])
  | empty hpc heq => exact Or.inl (by simp [abs, hpc, Pc.pending])
  | claim len hpc hne hcl => exact Or.inl (by simp [abs, hpc, Pc.pending])
  | byte len buf b hpc hcl hbuf hpre => exact Or.inl (by simp [abs, hpc, Pc.pending])
  | write len hpc hcl =>
      have habs : abs s = ⟨s.queue, s.file, s.stream⟩ := by simp [abs, hpc, Pc.pending]
      rw [habs]
      exact Or.inr (Fifo.Step.get _ len)
  | release len hpc hcl => exact Or.inl (by simp [abs, hpc, Pc.pending])
  | again hpc hstop => exact Or.inl (by simp [abs, hpc, Pc.pending])
  | leave hpc hstop => exact Or.inl (by simp [abs, hpc, Pc.pending])
  | rest hpc hstop => exact Or.inl rfl

/-- Bytes that are pending are bytes of the queue. -/
theorem RingInv.pending_le (h : RingInv s) : s.pc.pending ≤ s.queue.length := by
  have hok := h.pc_ok
  cases hpc : s.pc with
  | wrote head len =>
      rw [hpc] at hok
      exact Claimed.unread hok
  | _ => exact Nat.zero_le _

/-- **Every step is a step of the queue**, or none. -/
theorem abs_step {l : TraceLabel} (h : RingInv s) (hst : traceStep l s = some s') :
    abs s' = abs s ∨ Fifo.Step (abs s) (abs s') := by
  cases l with
  | dump =>
      obtain rfl := Option.some.inj hst
      exact abs_move (dumpNext_move h)
  | fill p b =>
      simp only [traceStep] at hst
      split at hst
      · obtain rfl := Option.some.inj hst
        exact Or.inl rfl
      · cases hst
  | publish k =>
      simp only [traceStep] at hst
      split at hst
      · obtain rfl := Option.some.inj hst
        have habs := Fifo.Step.put (abs s) (Ring.window s.size s.lbuf s.tail k)
        simp only [abs] at habs
        rw [← List.drop_append_of_le_length h.pending_le] at habs
        exact Or.inr habs
      · cases hst
  | sigint =>
      obtain rfl := Option.some.inj hst
      exact Or.inl rfl

/-- **The system refines a queue.** -/
theorem abs_reach (h : TraceReach s) : Fifo.Reach (abs s) := by
  induction h with
  | @init s hinit =>
      obtain ⟨-, -, -, hpc, hfile, -, -, -, hstream⟩ := hinit
      have habs : abs s = ⟨s.queue, [], s.queue⟩ := by simp [abs, hpc, Pc.pending, hfile, hstream]
      rw [habs]
      exact .init s.queue
  | step hr _ hst ih =>
      rcases abs_step (ringInv_of_reach hr) hst with heq | hstep
      · exact heq ▸ ih
      · exact .step ih hstep

/-- What was put in is the file, followed by what the file does not have yet. -/
theorem stream_eq (h : TraceReach s) : s.stream = s.file ++ s.queue.drop s.pc.pending :=
  (abs_reach h).inp_eq

/-! ### The dumper alone -/

/-- The dumper is between two rounds, or has sampled `head` only. -/
def Pc.Idle : Pc → Prop
  | .top => True
  | .sampled _ => True
  | .test => True
  | _ => False

/-- **The loop empties the ring**: with no further step of the producer it comes to `head = tail`,
with everything in the file that `tail` had passed, and it stays there. -/
def Drains (s : TraceSys) : Prop :=
  ∃ N, ∀ k, N ≤ k → (dumpNext^[k] s).head = (dumpNext^[k] s).tail ∧ (dumpNext^[k] s).file = s.stream

/-- Every cell holds an unread byte, and the dumper has not yet seen a `tail` from before. -/
def Brimful (s : TraceSys) : Prop := s.queue.length = s.size ∧ s.pc.Idle

/-- What is left to do: a round for every unread byte, and the rest of this round. -/
def rank (s : TraceSys) : ℕ :=
  5000 * s.queue.length +
    match s.pc with
    | .test => 4100
    | .top => 4099
    | .sampled _ => 4098
    | .copy _ len buf => len - buf.length + 1
    | _ => 0

/-- The dumper keeps these. -/
theorem move_frame (hm : Move s s') :
    s'.stream = s.stream ∧ s'.dumpStop = s.dumpStop ∧ s'.size = s.size := by
  cases hm <;> exact ⟨rfl, rfl, rfl⟩

/-- Without a signal and before the ring is empty, every move lowers the rank, unless the ring is
full to the brim. -/
theorem rank_move (h : RingInv s) (hm : Move s s') (hstop : s.dumpStop = false)
    (hbrim : ¬ Brimful s) (hnot : ¬ (s.queue = [] ∧ s.pc.Idle)) : rank s' < rank s := by
  cases hm with
  | sample hpc => simp [rank, hpc]
  | empty hpc heq =>
      have hidle : s.pc.Idle := by
        rw [hpc]
        trivial
      rcases h.head_eq_tail_iff.1 heq with hq | hq
      · exact absurd ⟨hq, hidle⟩ hnot
      · exact absurd ⟨hq, hidle⟩ hbrim
  | claim len hpc hne hcl =>
      have hpage : len ≤ 4096 := hcl.page
      simp only [rank, hpc, List.length_nil]
      omega
  | byte len buf b hpc hcl hbuf hpre =>
      simp only [rank, hpc, List.length_append, List.length_singleton]
      omega
  | write len hpc hcl => simp [rank, hpc]
  | release len hpc hcl =>
      have hun := hcl.unread
      have hpos := hcl.pos
      simp only [rank, hpc, List.length_drop]
      omega
  | again hpc _ => simp [rank, hpc]
  | leave hpc hyes => simp [hstop] at hyes
  | rest hpc hyes => simp [hstop] at hyes

/-- Between two rounds the dumper finds the ring empty as long as the indices agree: whatever the
queue holds, nothing happens. -/
theorem idle_move (hm : Move s s') (hstop : s.dumpStop = false) (heq : s.head = s.tail)
    (hidle : s.pc.Idle) : s'.pc.Idle ∧ s'.queue = s.queue := by
  cases hm with
  | sample hpc => exact ⟨trivial, rfl⟩
  | empty hpc _ => exact ⟨trivial, rfl⟩
  | claim len hpc hne hcl => exact absurd heq hne
  | byte len buf b hpc hcl hbuf hpre =>
      rw [hpc] at hidle
      exact hidle.elim
  | write len hpc hcl =>
      rw [hpc] at hidle
      exact hidle.elim
  | release len hpc hcl =>
      rw [hpc] at hidle
      exact hidle.elim
  | again hpc hno => exact ⟨trivial, rfl⟩
  | leave hpc hyes => simp [hstop] at hyes
  | rest hpc hyes => simp [hstop] at hyes

/-- A move does not fill the ring. -/
theorem brimful_of_move (h : RingInv s) (hm : Move s s') (hstop : s.dumpStop = false)
    (hbrim : Brimful s') : Brimful s := by
  cases hm with
  | sample hpc => exact ⟨hbrim.1, by rw [hpc]; trivial⟩
  | empty hpc heq => exact ⟨hbrim.1, by rw [hpc]; trivial⟩
  | claim len hpc hne hcl => exact hbrim.2.elim
  | byte len buf b hpc hcl hbuf hpre => exact hbrim.2.elim
  | write len hpc hcl => exact hbrim.2.elim
  | release len hpc hcl =>
      have hlen : s.queue.length - len = s.size := by simpa using hbrim.1
      have hroom := h.room
      have hpos := hcl.pos
      have hsize := h.size_pos
      omega
  | again hpc hno => exact ⟨hbrim.1, by rw [hpc]; trivial⟩
  | leave hpc hyes => simp [hstop] at hyes
  | rest hpc hyes => simp [hstop] at hyes

/-- The states that the dumper comes to alone, from a state with this stream. -/
structure Alone (stream : List UInt8) (s : TraceSys) : Prop where
  reach : TraceReach s
  going : s.dumpStop = false
  stream_eq : s.stream = stream

theorem Alone.move {stream : List UInt8} (h : Alone stream s) : Move s (dumpNext s) :=
  dumpNext_move (ringInv_of_reach h.reach)

theorem Alone.next {stream : List UInt8} (h : Alone stream s) : Alone stream (dumpNext s) := by
  obtain ⟨hstream, hstop, -⟩ := move_frame h.move
  exact ⟨.step (l := .dump) h.reach trivial rfl, hstop.trans h.going, hstream.trans h.stream_eq⟩

/-- **The loop empties a ring that is not full to the brim.** -/
theorem drains_of_not_brimful (h : TraceReach s) (hstop : s.dumpStop = false)
    (hbrim : ¬ Brimful s) :
    Drains s := by
  have hinv : ∀ s', Alone s.stream s' ∧ ¬ Brimful s' →
      Alone s.stream (dumpNext s') ∧ ¬ Brimful (dumpNext s') := fun s' hs =>
    ⟨hs.1.next, fun hb =>
      hs.2 (brimful_of_move (ringInv_of_reach hs.1.reach) hs.1.move hs.1.going hb)⟩
  have haim : ∀ s', Alone s.stream s' ∧ ¬ Brimful s' → s'.queue = [] ∧ s'.pc.Idle →
      (dumpNext s').queue = [] ∧ (dumpNext s').pc.Idle := by
    intro s' hs hp
    have heq := (ringInv_of_reach hs.1.reach).head_eq_tail_iff.2 (Or.inl hp.1)
    obtain ⟨hidle, hqueue⟩ := idle_move hs.1.move hs.1.going heq hp.2
    exact ⟨hqueue.trans hp.1, hidle⟩
  obtain ⟨N, hN⟩ := Lts.settles rank hinv haim
    (fun s' hs hp => rank_move (ringInv_of_reach hs.1.reach) hs.1.move hs.1.going hs.2 hp)
    (⟨⟨h, hstop, rfl⟩, hbrim⟩ : Alone s.stream s ∧ ¬ Brimful s)
  refine ⟨N, fun k hk => ?_⟩
  obtain ⟨⟨hs, -⟩, hqueue, -⟩ := hN k hk
  refine ⟨(ringInv_of_reach hs.reach).head_eq_tail_iff.2 (Or.inl hqueue), ?_⟩
  have hall := stream_eq hs.reach
  rw [hqueue, List.drop_nil, List.append_nil, hs.stream_eq] at hall
  exact hall.symm

/-- **A ring that is full to the brim stays so**: the dumper takes it for empty. -/
theorem not_drains_of_brimful (h : TraceReach s) (hstop : s.dumpStop = false) (hbrim : Brimful s) :
    ¬ Drains s := by
  rintro ⟨N, hN⟩
  have hkept : ∀ k, Alone s.stream (dumpNext^[k] s) ∧ Brimful (dumpNext^[k] s) := by
    intro k
    induction k with
    | zero => exact ⟨⟨h, hstop, rfl⟩, hbrim⟩
    | succ k ih =>
        obtain ⟨hs, hb⟩ := ih
        rw [Function.iterate_succ_apply']
        have heq := (ringInv_of_reach hs.reach).head_eq_tail_iff.2 (Or.inr hb.1)
        obtain ⟨hidle, hqueue⟩ := idle_move hs.move hs.going heq hb.2
        refine ⟨hs.next, ?_, hidle⟩
        rw [hqueue, (move_frame hs.move).2.2]
        exact hb.1
  obtain ⟨hs, hb⟩ := hkept N
  have hpos := (ringInv_of_reach hs.reach).size_pos
  have hall := stream_eq hs.reach
  have hpend : (dumpNext^[N] s).pc.pending = 0 := by
    have hidle := hb.2
    cases hpc : (dumpNext^[N] s).pc with
    | wrote head len =>
        rw [hpc] at hidle
        exact hidle.elim
    | _ => rfl
  rw [hpend, List.drop_zero, (hN N le_rfl).2, hs.stream_eq] at hall
  have hlen := congrArg List.length hall
  rw [List.length_append, hb.1] at hlen
  omega

/-- **The dumper.**  At every moment the file is a prefix of what the producer has put in, `head`
is an index of the ring and the copy that is being made fits the local buffer and the ring; and
with the producer at rest the loop empties the ring, exactly when it is not full to the brim. -/
theorem dump_refines_fifo (h : TraceReach s) :
    s.file <+: s.stream ∧ s.head < s.size ∧
    (∀ head len buf, s.pc = .copy head len buf → len ≤ shmemPageSize ∧ head + len ≤ s.size) ∧
    (s.dumpStop = false → (Drains s ↔ ¬ Brimful s)) := by
  have hinv := ringInv_of_reach h
  refine ⟨⟨_, (stream_eq h).symm⟩, hinv.head_lt, ?_, fun hstop => ⟨?_, ?_⟩⟩
  · intro head len buf hpc
    have hok := hinv.pc_ok
    rw [hpc] at hok
    exact ⟨hok.1.page, hok.1.inside⟩
  · intro hdr hbrim
    exact not_drains_of_brimful h hstop hbrim hdr
  · exact drains_of_not_brimful h hstop

/-- A ring of one page with nothing in it. -/
def emptyRing : TraceSys where
  head := 0
  size := 4032
  tail := 0
  lbuf := fun _ => 0
  shmemSize := 4032
  pc := .top
  dumpStop := false
  file := []
  queue := []
  stream := []

theorem traceInit_emptyRing : TraceInit emptyRing :=
  ⟨by decide, by decide, by decide, rfl, rfl, by decide, by decide, rfl, rfl⟩

/-- One byte is put in while the dumper waits: the loop brings it to the file. -/
theorem dump_refines_fifo_one_byte : ∃ s, TraceReach s ∧ s.stream = [7] ∧ Drains s := by
  obtain ⟨s, hr, hstop, hstream, hpc⟩ :
      ∃ s, TraceReach s ∧ s.dumpStop = false ∧ s.stream = [7] ∧ s.queue = [7] ∧ s.size = 4032 :=
    Lts.exists_reach traceInit_emptyRing [.dump, .fill 0 7, .dump, .publish 1] _ (by decide +kernel)
  refine ⟨s, hr, hstream, ((dump_refines_fifo hr).2.2.2 hstop).2 ?_⟩
  rintro ⟨hlen, -⟩
  rw [hpc.1, hpc.2] at hlen
  exact absurd hlen (by decide)

/-- The producer fills the empty ring, `4032` bytes, without touching an unread byte.  The indices
agree and the dumper waits: no byte comes to the file. -/
theorem not_drains_full_ring : ∃ s, TraceReach s ∧ s.size = 4032 ∧ s.dumpStop = false ∧
    s.head = s.tail ∧ s.file = [] ∧ s.stream.length = 4032 ∧ ¬ Drains s := by
  have hst : traceStep (.publish 4032) emptyRing = some
      { emptyRing with
        tail := 0
        queue := Ring.window 4032 (fun _ => 0) 0 4032
        stream := Ring.window 4032 (fun _ => 0) 0 4032 } := by
    simp [traceStep, emptyRing]
  have hr : TraceReach _ := .step (.init traceInit_emptyRing) trivial hst
  refine ⟨_, hr, rfl, rfl, rfl, rfl, by simp, not_drains_of_brimful hr rfl ⟨?_, trivial⟩⟩
  simp [emptyRing]

end PseFw.Trace
