/-
**Rings of cells and the queue they hold.**

A ring of `n` cells is a memory whose addresses are taken modulo `n`.  The window at `a` of length
`k` is the list of the `k` values from address `a` on, around the end of the memory where it comes
to it.  A ring buffer keeps the values that nobody has read yet in such a window: appending makes
it longer at its end, reading makes it shorter at its front.

What a ring buffer is for is a queue.  `Fifo` is that queue with the two histories that an observer
sees, what was put in and what came out; whoever implements it delivers a prefix of what was put in.

Main definitions:

* `Ring.window` — the values from an address on, around the end;
* `Fifo`, `Fifo.Step`, `Fifo.Reach` — a queue and its histories.

Main results:

* `Ring.window_add`, `Ring.drop_window` — a window grows at its end and shrinks at its front;
* `Ring.window_update` — a write outside a window does not change it;
* `Fifo.Reach.inp_eq` — **first in, first out**: what came out, followed by what is in the queue, is
  what was put in.
-/

import PseFw.Lib.Memory
import Mathlib.Logic.Function.Basic

set_option relaxedAutoImplicit false
set_option autoImplicit false

namespace Ring

variable {α : Type*}

/-- The `k` values from address `a` on in a ring of `n` cells. -/
def window (n : ℕ) (m : ℕ → α) (a k : ℕ) : List α := Mem.read (fun i => m (i % n)) a k

@[simp] theorem length_window (n : ℕ) (m : ℕ → α) (a k : ℕ) : (window n m a k).length = k := by
  simp [window]

theorem getElem_window (n : ℕ) (m : ℕ → α) (a : ℕ) {k i : ℕ} (h : i < (window n m a k).length) :
    (window n m a k)[i] = m ((a + i) % n) :=
  Mem.getElem_read _ a h

/-- A window grows at its end. -/
theorem window_add (n : ℕ) (m : ℕ → α) (a k l : ℕ) :
    window n m a (k + l) = window n m a k ++ window n m (a + k) l :=
  Mem.read_add _ a k l

/-- A window shrinks at its front. -/
theorem drop_window (n : ℕ) (m : ℕ → α) (a k l : ℕ) :
    (window n m a k).drop l = window n m (a + l) (k - l) :=
  Mem.drop_read _ a k l

/-- Where a window starts counts modulo the size. -/
theorem window_mod (n : ℕ) (m : ℕ → α) (a k : ℕ) : window n m (a % n) k = window n m a k := by
  unfold window Mem.read
  refine List.map_congr_left fun i _ => ?_
  simp

/-- A write outside a window does not change it. -/
theorem window_update {n : ℕ} (m : ℕ → α) {a k p : ℕ} (x : α) (h : ∀ i < k, (a + i) % n ≠ p) :
    window n (Function.update m p x) a k = window n m a k := by
  unfold window Mem.read
  refine List.map_congr_left fun i hi => ?_
  exact Function.update_of_ne (h i (List.mem_range.1 hi)) x m

end Ring

/-! ### The queue -/

/-- A queue, what came out of it, and what was put in. -/
structure Fifo (α : Type*) where
  queue : List α
  out : List α
  inp : List α

namespace Fifo

variable {α : Type*}

/-- Values are put in at the end, or taken out at the front. -/
inductive Step : Fifo α → Fifo α → Prop
  | put (f : Fifo α) (xs : List α) : Step f ⟨f.queue ++ xs, f.out, f.inp ++ xs⟩
  | get (f : Fifo α) (k : ℕ) : Step f ⟨f.queue.drop k, f.out ++ f.queue.take k, f.inp⟩

/-- The states of a queue from which nothing was taken at first. -/
inductive Reach : Fifo α → Prop
  | init (q : List α) : Reach ⟨q, [], q⟩
  | step {f f' : Fifo α} : Reach f → Step f f' → Reach f'

/-- **First in, first out.** -/
theorem Reach.inp_eq {f : Fifo α} (h : Reach f) : f.inp = f.out ++ f.queue := by
  induction h with
  | init q => rfl
  | step _ hst ih =>
      cases hst with
      | put xs => simp [ih]
      | get k => simp [ih]

end Fifo
