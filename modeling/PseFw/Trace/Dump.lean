/-
**The trace dumper.**

The firmware writes its trace into a ring buffer in shared memory and `trace_dump` on the host
copies it into a file.  The firmware owns `tail` and the cells that hold no unread byte, the host
owns `head`.  The dumper first asks for the size of the ring and takes it when the whole mapping is
a number of pages; then it runs its loop until it is interrupted: sample `head` and `tail`, copy at
most a page up to `tail` or to the end of the ring into a local buffer, write that to the file,
store the new `head`.

The producer is not part of the repository.  All that is fixed about it here is that it writes only
to cells that hold no unread byte and that it moves `tail` forward, modulo the size, over cells
that hold no unread byte.  It may do so between any two accesses of the dumper to the shared
memory, also while `memcpy` is running.

Main definitions:

* `negotiate` — the size that the dumper accepts;
* `TraceSys`, `Pc` — the shared memory, the dumper and what the producer has put in;
* `dumpNext` — the next access of the dumper;
* `TraceLabel`, `traceStep`, `TraceInit` — the steps of the dumper, the producer and the signal.
-/

import PseFw.Lib.Transition
import PseFw.Lib.Ring

set_option relaxedAutoImplicit false
set_option autoImplicit false

namespace PseFw.Trace

/-- `SHMEM_PAGE_SIZE`. -/
abbrev shmemPageSize : ℕ := 4096

/-- `sizeof(struct shmem_mgnt)`, without the ring itself. -/
abbrev shmemMgntSize : ℕ := 64

/-- The size negotiation: `shmem_size`, which has 32 bits, for the `size` in the shared memory;
nothing when the dumper gives up. -/
def negotiate (size : ℕ) : Option ℕ :=
  if (shmemMgntSize + size) % 2 ^ 32 = 0 ∨
      (shmemMgntSize + size) % 2 ^ 32 % shmemPageSize ≠ 0 then none
  else some ((shmemMgntSize + size) % 2 ^ 32 - shmemMgntSize)

/-- Where the dumper is in its loop. -/
inductive Pc
  /-- At the start of the body: `head` is read next. -/
  | top
  /-- `head` has been read; `tail` is read next. -/
  | sampled (head : ℕ)
  /-- In `memcpy` of `len` bytes, with the bytes copied so far; then `fwrite`. -/
  | copy (head len : ℕ) (buf : List UInt8)
  /-- After `fwrite`; the new `head` is stored next. -/
  | wrote (head len : ℕ)
  /-- At `while (!dump_stop)`. -/
  | test
  /-- The loop has ended. -/
  | exited
  /-- "wrong SHMEM". -/
  | wrong
  /-- "out of range!". -/
  | fault
  deriving DecidableEq, Repr

/-- The shared memory, the dumper, and two histories: `queue` are the bytes that `tail` has passed
and `head` has not, `stream` are all the bytes that `tail` has passed since `head` was where the
dumper found it. -/
structure TraceSys where
  head : ℕ
  size : ℕ
  tail : ℕ
  lbuf : ℕ → UInt8
  shmemSize : ℕ
  pc : Pc
  dumpStop : Bool
  file : List UInt8
  queue : List UInt8
  stream : List UInt8

/-- The number of bytes of one round, from the sampled indices. -/
def dumpLen (shmemSize head tail : ℕ) : ℕ :=
  let len := if head < tail then tail - head else shmemSize - head
  if len > shmemPageSize then shmemPageSize else len

/-- **The next access of the dumper.** -/
def dumpNext (s : TraceSys) : TraceSys :=
  match s.pc with
  | .top => { s with pc := .sampled s.head }
  | .sampled head =>
      if head = s.tail then { s with pc := .test }
      else if head > s.size ∨ s.tail ≥ s.size ∨ s.size ≠ s.shmemSize then { s with pc := .wrong }
      else { s with pc := .copy head (dumpLen s.shmemSize head s.tail) [] }
  | .copy head len buf =>
      if buf.length < len then
        { s with pc := .copy head len (buf ++ [s.lbuf (head + buf.length)]) }
      else { s with pc := .wrote head len, file := s.file ++ buf }
  | .wrote head len =>
      if (head + len) % 2 ^ 32 > s.shmemSize then { s with pc := .fault }
      else
        { s with
          pc := .test
          head := if (head + len) % 2 ^ 32 = s.shmemSize then 0 else (head + len) % 2 ^ 32
          queue := s.queue.drop len }
  | .test => { s with pc := if s.dumpStop then .exited else .top }
  | .exited => s
  | .wrong => s
  | .fault => s

/-- The steps. -/
inductive TraceLabel
  /-- The dumper. -/
  | dump
  /-- The producer writes a byte into a cell. -/
  | fill (p : ℕ) (b : UInt8)
  /-- The producer moves `tail` over `k` cells. -/
  | publish (k : ℕ)
  /-- `SIGINT`. -/
  | sigint
  deriving DecidableEq, Repr

/-- **One step**: of the dumper, of the producer, which leaves the unread bytes alone, or the
signal. -/
def traceStep : TraceLabel → TraceSys → Option TraceSys
  | .dump, s => some (dumpNext s)
  | .fill p b, s =>
      if p < s.size ∧ ∀ i < s.queue.length, (s.head + i) % s.size ≠ p then
        some { s with lbuf := Function.update s.lbuf p b }
      else none
  | .publish k, s =>
      if s.queue.length + k ≤ s.size then
        some { s with
          tail := (s.tail + k) % s.size
          queue := s.queue ++ Ring.window s.size s.lbuf s.tail k
          stream := s.stream ++ Ring.window s.size s.lbuf s.tail k }
      else none
  | .sigint, s => some { s with dumpStop := true }

/-- The dumper before its loop: it has accepted the size, the file is new, and there may be unread
bytes in the ring. -/
def TraceInit (s : TraceSys) : Prop :=
  s.size < 2 ^ 32 ∧ negotiate s.size = some s.shmemSize ∧ s.head < s.size ∧ s.pc = .top ∧
    s.file = [] ∧
    s.queue.length ≤ s.size ∧ s.tail = (s.head + s.queue.length) % s.size ∧
    s.queue = Ring.window s.size s.lbuf s.head s.queue.length ∧ s.stream = s.queue

/-- The states of the system, with the producer and the signal at any moment. -/
abbrev TraceReach : TraceSys → Prop := Lts.Reach TraceInit traceStep Lts.Free

/-- **The sizes that are accepted**: those for which the mapping is a positive number of pages. -/
theorem negotiate_eq_some {size shmemSize : ℕ} (hsize : size < 2 ^ 32) :
    negotiate size = some shmemSize ↔
      shmemSize = size ∧ shmemPageSize ∣ shmemMgntSize + size ∧ shmemMgntSize + size < 2 ^ 32 := by
  simp only [negotiate, shmemMgntSize, shmemPageSize]
  constructor
  · intro h
    split at h
    · cases h
    · have heq := Option.some.inj h
      -- a sum beyond 32 bits would be below `64`, which no positive number of pages is
      omega
  · rintro ⟨rfl, hdvd, hlt⟩
    rw [Nat.mod_eq_of_lt hlt, if_neg (by omega)]
    simp

end PseFw.Trace
