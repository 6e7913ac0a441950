/-
**Fields in one memory.**

The fields of a union share the bytes of one memory.  A number is put into a field in little-endian
order and read back from there; a field that lies apart from the one that was written is not
changed, and about any other field nothing is said.

Main definitions:

* `Overlay` — where the fields are;
* `Overlay.set`, `Overlay.get` — writing and reading a field.

Main results:

* `Overlay.get_set_self`, `Overlay.get_set_apart` — **what is read behind a write**.
-/

import PseFw.Lib.Memory

set_option relaxedAutoImplicit false
set_option autoImplicit false

/-- Where fields are in a memory, and how many bytes they have. -/
structure Overlay (F : Type*) where
  offset : F → ℕ
  size : F → ℕ

namespace Overlay

variable {F : Type*} (L : Overlay F)

/-- A number is put into a field. -/
def set (f : F) (v : ℕ) (m : ℕ → UInt8) : ℕ → UInt8 :=
  Mem.write m (L.offset f) (Mem.leBytes (L.size f) v)

/-- The number in a field. -/
def get (m : ℕ → UInt8) (f : F) : ℕ := Mem.ofLe (Mem.read m (L.offset f) (L.size f))

/-- Two fields have no byte in common. -/
def Apart (f g : F) : Prop :=
  L.offset f + L.size f ≤ L.offset g ∨ L.offset g + L.size g ≤ L.offset f

variable {L} {f g : F} {v : ℕ}

theorem Apart.symm (h : L.Apart f g) : L.Apart g f := Or.symm h

/-- The field that was written holds the number, if there is room for it. -/
theorem get_set_self (h : v < 256 ^ L.size f) (m : ℕ → UInt8) : L.get (L.set f v m) f = v := by
  have hread := Mem.read_write_self m (L.offset f) (Mem.leBytes (L.size f) v)
  rw [Mem.length_leBytes] at hread
  unfold get set
  rw [hread, Mem.ofLe_leBytes h]

/-- **A field apart from it** holds what it held. -/
theorem get_set_apart (h : L.Apart f g) (m : ℕ → UInt8) : L.get (L.set f v m) g = L.get m g := by
  unfold get set
  rw [Mem.read_write_disjoint]
  rw [Mem.length_leBytes]
  exact h.symm

end Overlay
