/-
**Patterns of texts.**

A pattern is a sequence of pieces: a fixed text, or a repetition of the characters of a class.  It
is matched against the beginning of a text with the longest repetitions first, and with shorter ones
when the rest of the pattern does not fit behind them.  What is returned is the text of each piece,
so that groups of pieces can be read off by their places.

A repetition whose characters cannot begin what follows it has nothing to give back: its text is
the longest run of its class, or there is no match.  Otherwise it is the longest run behind which
the rest of the pattern matches.

Main definitions:

* `Pattern.Piece` — a piece of a pattern;
* `Pattern.matchPre`, `Pattern.search` — matching at the beginning, and anywhere.

Main results:

* `Pattern.matchPre_lit_append`, `Pattern.matchPre_plus_append` — a text that is made of the pieces;
* `Pattern.matchPre_plus_of_some` — a run behind which the rest matches, and no longer one;
* `Pattern.matchPre_plus_eq_none` — a repetition behind no run of which the rest matches.
-/

import Mathlib.Data.List.Basic

set_option relaxedAutoImplicit false
set_option autoImplicit false

namespace Pattern

/-- A test of all characters of a text goes through the text, not through all characters there
are. -/
instance (priority := 2000) decidableForallMemText (t : List Char) (p : Char → Prop)
    [DecidablePred p] : Decidable (∀ c ∈ t, p c) :=
  List.decidableBAll p t

variable {α : Type*}

/-- A piece of a pattern. -/
inductive Piece (α : Type*)
  /-- A fixed text. -/
  | lit (t : List α)
  /-- One or more characters of a class. -/
  | plus (p : α → Bool)
  /-- Any number of characters of a class. -/
  | star (p : α → Bool)

variable {β : Type*}

/-- The longest run of characters of a class behind which `k` succeeds, with what `k` returns. -/
def greedy (p : α → Bool) (k : List α → Option β) : List α → Option (List α × β)
  | [] => none
  | c :: s =>
      if p c then
        match greedy p k s with
        | some r => some (c :: r.1, r.2)
        | none => (k s).map fun r => ([c], r)
      else none

/-- The rest of the text behind a fixed one. -/
def afterLit [DecidableEq α] : List α → List α → Option (List α)
  | [], s => some s
  | _ :: _, [] => none
  | a :: t, c :: s => if a = c then afterLit t s else none

/-- **The texts of the pieces** at the beginning of a text. -/
def matchPre [DecidableEq α] : List (Piece α) → List α → Option (List (List α))
  | [], _ => some []
  | .lit t :: ps, s => (afterLit t s).bind fun rest => (matchPre ps rest).map (t :: ·)
  | .plus p :: ps, s => (greedy p (matchPre ps) s).map fun r => r.1 :: r.2
  | .star p :: ps, s =>
      match greedy p (matchPre ps) s with
      | some r => some (r.1 :: r.2)
      | none => (matchPre ps s).map ([] :: ·)

/-- The first place at which the pattern matches. -/
def search [DecidableEq α] (ps : List (Piece α)) : List α → Option (List (List α))
  | [] => matchPre ps []
  | c :: s =>
      match matchPre ps (c :: s) with
      | some r => some r
      | none => search ps s

/-! ### Repetitions -/

variable {p : α → Bool} {k : List α → Option β} {l s : List α} {r : β}

theorem greedy_cons_of_neg {c : α} (h : p c = false) : greedy p k (c :: s) = none := by
  unfold greedy
  rw [h]
  rfl

/-- A run behind which `k` succeeds, if it does not behind a longer one. -/
theorem greedy_append (hl : l ≠ []) (hp : ∀ c ∈ l, p c = true) (hk : k s = some r)
    (hlonger : greedy p k s = none) : greedy p k (l ++ s) = some (l, r) := by
  induction l with
  | nil => exact absurd rfl hl
  | cons c l ih =>
      rw [List.cons_append, greedy, if_pos (hp c List.mem_cons_self)]
      by_cases hl' : l = []
      · subst hl'
        rw [List.nil_append, hlonger, hk]
        rfl
      · rw [ih hl' fun d hd => hp d (List.mem_cons_of_mem _ hd)]

/-- There is no run behind which `k` succeeds. -/
theorem greedy_eq_none (h : ∀ l s', s = l ++ s' → l ≠ [] → (∀ c ∈ l, p c = true) → k s' = none) :
    greedy p k s = none := by
  induction s with
  | nil => rfl
  | cons c s ih =>
      by_cases hc : p c = true
      · have hrest : greedy p k s = none := by
          refine ih fun l s' hs hl hp => ?_
          refine h (c :: l) s' (congrArg _ hs) (List.cons_ne_nil _ _) ?_
          intro d hd
          rcases List.mem_cons.1 hd with rfl | hd
          · exact hc
          · exact hp d hd
        have hone : k s = none := h [c] s rfl (List.cons_ne_nil _ _) fun d hd => by
          rw [List.mem_singleton.1 hd]
          exact hc
        rw [greedy, if_pos hc, hrest, hone]
        rfl
      · exact greedy_cons_of_neg (Bool.eq_false_iff.2 hc)

/-! ### Texts made of pieces -/

variable [DecidableEq α] {ps : List (Piece α)}

theorem afterLit_append (t s : List α) : afterLit t (t ++ s) = some s := by
  induction t with
  | nil => rfl
  | cons a t ih => rw [List.cons_append, afterLit, if_pos rfl, ih]

/-- **A fixed text** in front. -/
theorem matchPre_lit_append (t s : List α) :
    matchPre (.lit t :: ps) (t ++ s) = (matchPre ps s).map (t :: ·) := by
  rw [matchPre, afterLit_append]
  rfl

/-- A text that begins in another way than the fixed one. -/
theorem matchPre_lit_cons {a c : α} (h : a ≠ c) (t s : List α) :
    matchPre (.lit (a :: t) :: ps) (c :: s) = none := by
  rw [matchPre, afterLit, if_neg h]
  rfl

theorem matchPre_lit_nil (a : α) (t : List α) : matchPre (.lit (a :: t) :: ps) [] = none := rfl

/-- A text that does not begin with a character of the class. -/
theorem matchPre_plus_cons {c : α} (h : p c = false) (s : List α) :
    matchPre (.plus p :: ps) (c :: s) = none := by
  rw [matchPre, greedy_cons_of_neg h]
  rfl

/-- **A run behind which the rest matches**, if no longer one is matched. -/
theorem matchPre_plus_of_some {r : List (List α)} (hl : l ≠ []) (hp : ∀ c ∈ l, p c = true)
    (hk : matchPre ps s = some r) (hlonger : matchPre (.plus p :: ps) s = none) :
    matchPre (.plus p :: ps) (l ++ s) = some (l :: r) := by
  rw [matchPre] at hlonger ⊢
  rw [greedy_append hl hp hk (Option.map_eq_none_iff.1 hlonger)]
  rfl

/-- **A repetition behind no run of which the rest matches.** -/
theorem matchPre_plus_eq_none
    (h : ∀ l s', s = l ++ s' → l ≠ [] → (∀ c ∈ l, p c = true) → matchPre ps s' = none) :
    matchPre (.plus p :: ps) s = none := by
  rw [matchPre, greedy_eq_none h]
  rfl

/-- **A run** whose characters cannot begin what follows. -/
theorem matchPre_plus_append (hl : l ≠ []) (hp : ∀ c ∈ l, p c = true)
    (hs : ∀ c s', s = c :: s' → p c = false)
    (hsep : ∀ c s', p c = true → matchPre ps (c :: s') = none) :
    matchPre (.plus p :: ps) (l ++ s) = (matchPre ps s).map (l :: ·) := by
  have hlonger : matchPre (.plus p :: ps) s = none := by
    cases s with
    | nil => rfl
    | cons c s => exact matchPre_plus_cons (hs c s rfl) s
  cases hk : matchPre ps s with
  | some r => exact matchPre_plus_of_some hl hp hk hlonger
  | none =>
      refine matchPre_plus_eq_none ?_
      intro l' s' heq hl' hp'
      rcases List.append_eq_append_iff.1 heq with ⟨m, rfl, rfl⟩ | ⟨m, rfl, rfl⟩
      · cases m with
        | nil => exact hk
        | cons c m =>
            have hc := hs c _ rfl
            rw [hp' c (List.mem_append_right _ List.mem_cons_self)] at hc
            cases hc
      · cases m with
        | nil => exact hk
        | cons c m => exact hsep c _ (hp c (List.mem_append_right _ List.mem_cons_self))

end Pattern
