/-
**What Telit looks at.**

The adapter compares the topic with two literals and searches the payload for a command, for the
name of the thing, and for the id of the request, which goes into the text of the acknowledgement.
As in `PseFw.Oob.Rpc`, what is behind the data can take part in all of this: a topic that is the
beginning of a literal may be continued by what is behind it, a payload without a zero is searched
beyond its end, and the twenty-four bytes of the id may reach beyond it.  The id is copied into
twenty-four bytes and then printed as a string, so what stands behind the copy takes part too.

Main definitions:

* `telitOutcome` — the decision and the text;
* `IdEnds`, `PayloadDecided` — the payloads that decide everything themselves;
* `TelitDecided` — the same for messages.

Main results:

* `byPayload_iff` — when the decision about a payload depends on the payload only;
* `telit_sameOutcome_iff` — **when the decision depends on the message only.**
-/

import PseFw.Oob.Rpc

set_option relaxedAutoImplicit false
set_option autoImplicit false

namespace PseFw.Oob

open CStr

variable {username stack topic payload p q : List UInt8}

/-! ### The text of the acknowledgement -/

/-- The text around an id. -/
def ackText (id : List UInt8) : List UInt8 :=
  snprintf bigGeneralBufSize (telitAckBefore ++ id ++ telitAckAfter)

theorem ack_of_none (h : strstr p telitRequestId = none) :
    telitPrepareMailboxAck stack p = some [] := by
  unfold telitPrepareMailboxAck
  rw [h]

theorem ack_of_some {key first second : List UInt8} (h : strstr p telitRequestId = some key)
    (h₁ : strchr key 34 = some first) (h₂ : strchr first.tail 34 = some second) :
    telitPrepareMailboxAck stack p =
      some (ackText (str (memcpy second.tail telitIdLen ++ stack))) := by
  unfold telitPrepareMailboxAck
  rw [h]
  simp only [h₁, h₂, Option.bind_some, Option.map_some]
  rfl

theorem ack_of_no_first {key : List UInt8} (h : strstr p telitRequestId = some key)
    (h₁ : strchr key 34 = none) : telitPrepareMailboxAck stack p = none := by
  unfold telitPrepareMailboxAck
  rw [h]
  simp only [h₁, Option.bind_none]

theorem ack_of_no_second {key first : List UInt8} (h : strstr p telitRequestId = some key)
    (h₁ : strchr key 34 = some first) (h₂ : strchr first.tail 34 = none) :
    telitPrepareMailboxAck stack p = none := by
  unfold telitPrepareMailboxAck
  rw [h]
  simp only [h₁, h₂, Option.bind_some, Option.map_none]

/-- What `strchr` finds starts with the character. -/
theorem strchr_cons {m : List UInt8} {b : UInt8} (h : strchr m b = some p) :
    p = b :: p.tail := by
  obtain ⟨rest, hrest⟩ := prefix_of_strstr h
  rw [← hrest]
  rfl

theorem tail_append_of_strchr {m : List UInt8} {b : UInt8} (h : strchr m b = some p)
    (q : List UInt8) : (p ++ q).tail = p.tail ++ q := by
  rw [strchr_cons h]
  rfl

/-- The text does not depend on what is behind a payload with a zero. -/
theorem ack_append_of_mem (h0 : 0 ∈ p) (q : List UInt8) :
    telitPrepareMailboxAck stack (p ++ q) = telitPrepareMailboxAck stack p := by
  cases hk : strstr p telitRequestId with
  | none =>
      rw [ack_of_none hk, ack_of_none]
      rw [strstr_append_of_mem h0, hk]
      rfl
  | some key =>
      have hkq := strstr_append hk q
      have hk0 : 0 ∈ key := zero_mem_of_strstr h0 hk
      cases h₁ : strchr key 34 with
      | none =>
          rw [ack_of_no_first hk h₁, ack_of_no_first hkq]
          rw [strchr, strstr_append_of_mem hk0, ← strchr, h₁]
          rfl
      | some first =>
          have h₁q : strchr (key ++ q) 34 = some (first ++ q) := strstr_append h₁ q
          have ht0 : 0 ∈ first.tail := by
            have hf0 := zero_mem_of_strstr hk0 h₁
            rw [strchr_cons h₁] at hf0
            exact (List.mem_cons.1 hf0).resolve_left (by decide)
          cases h₂ : strchr first.tail 34 with
          | none =>
              rw [ack_of_no_second hk h₁ h₂, ack_of_no_second hkq h₁q]
              rw [tail_append_of_strchr h₁, strchr, strstr_append_of_mem ht0, ← strchr, h₂]
              rfl
          | some second =>
              have h₂q : strchr (first ++ q).tail 34 = some (second ++ q) := by
                rw [tail_append_of_strchr h₁]
                exact strstr_append h₂ q
              have hs0 : 0 ∈ second.tail := by
                have hf0 := zero_mem_of_strstr ht0 h₂
                rw [strchr_cons h₂] at hf0
                exact (List.mem_cons.1 hf0).resolve_left (by decide)
              rw [ack_of_some hk h₁ h₂, ack_of_some hkq h₁q h₂q, tail_append_of_strchr h₂,
                str_memcpy_append hs0]

/-- Behind two quotation marks in a row at the end there is an id. -/
theorem exists_quotes {k : List UInt8} (hk : 0 ∉ k) :
    ∃ first second,
      strchr (k ++ [34, 34]) 34 = some first ∧ strchr first.tail 34 = some second := by
  have hsome : ∀ {m : List UInt8}, 0 ∉ m → ∃ r, strchr (m ++ [34]) 34 = some r := by
    intro m hm
    refine Option.isSome_iff_exists.1 (strstr_isSome_iff.2 ?_)
    rw [str_append_of_not_mem hm]
    exact List.infix_append_right
  obtain ⟨r, hr⟩ := hsome hk
  have hfirst : strchr (k ++ [34, 34]) 34 = some (r ++ [34]) := by
    rw [show k ++ [34, 34] = k ++ [34] ++ [34] by rw [List.append_assoc]; rfl]
    exact strstr_append hr [34]
  have hr0 : 0 ∉ r.tail := fun h0 => by
    refine zero_not_mem_of_strstr ?_ hr (List.mem_of_mem_tail h0)
    exact fun h => (List.mem_append.1 h).elim hk (by decide)
  obtain ⟨second, hsecond⟩ := hsome hr0
  refine ⟨r ++ [34], second, hfirst, ?_⟩
  rw [tail_append_of_strchr hr]
  exact hsecond

/-- With two quotation marks at the end of the payload the code does not fail, and if there is a key
there is a text. -/
theorem ack_quotes (hp : 0 ∉ p) : ∃ text, telitPrepareMailboxAck stack (p ++ [34, 34]) = some text ∧
    (telitRequestId <:+: p → text ≠ []) := by
  have hp' : 0 ∉ p ++ [34, 34] := fun h => (List.mem_append.1 h).elim hp (by decide)
  cases hk : strstr (p ++ [34, 34]) telitRequestId with
  | none =>
      refine ⟨[], ack_of_none hk, fun hi => ?_⟩
      have hnot := mt strstr_isSome_iff.2 (by rw [hk]; decide)
      rw [str_of_not_mem hp'] at hnot
      exact absurd (List.infix_append_of_infix_left hi) hnot
  | some key =>
      -- the key is no part of the quotation marks, which therefore stand behind it
      have hend : [34, 34] <:+ key := by
        have hlen : telitRequestId.length ≤ key.length := (prefix_of_strstr hk).length_le
        obtain ⟨i, -, rfl⟩ := Option.map_eq_some_iff.1 hk
        exact List.suffix_of_suffix_length_le (List.suffix_append _ _) (List.drop_suffix _ _) hlen
      obtain ⟨k, rfl⟩ := hend
      have hk0 : 0 ∉ k := fun h0 =>
        zero_not_mem_of_strstr hp' hk (List.mem_append_left _ h0)
      obtain ⟨first, second, h₁, h₂⟩ := exists_quotes hk0
      refine ⟨_, ack_of_some hk h₁ h₂, fun _ => ?_⟩
      have hne : telitAckBefore.take (bigGeneralBufSize - 1) ≠ [] := by decide +kernel
      intro hnil
      unfold ackText snprintf at hnil
      rw [List.append_assoc, List.take_append] at hnil
      exact hne (List.append_eq_nil_iff.1 hnil).1

/-- One byte more of an id shows in the text. -/
theorem ackText_ne {t : List UInt8} (ht : t.length ≤ telitIdLen) (r : List UInt8) :
    ackText t ≠ ackText (t ++ 65 :: r) := by
  intro h
  have hbefore : telitAckBefore.length + telitIdLen < bigGeneralBufSize - 1 := by decide +kernel
  have hi : telitAckBefore.length + t.length < bigGeneralBufSize - 1 := by omega
  have hafter : telitAckAfter.head? = some 34 := by decide +kernel
  have hget := congrArg (fun l : List UInt8 => l[telitAckBefore.length + t.length]?) h
  simp only [ackText, snprintf, List.getElem?_take, if_pos hi, List.append_assoc,
    List.getElem?_append_right (Nat.le_add_right _ _), Nat.add_sub_cancel_left,
    List.getElem?_append_right le_rfl, Nat.sub_self, List.cons_append,
    List.getElem?_cons_zero] at hget
  rw [← List.head?_eq_getElem?, hafter] at hget
  cases hget

/-! ### The decision about a payload -/

/-- What is decided on the memory from the payload on. -/
def telitByPayload (username stack p : List UInt8) : Option (OobMessage × Option (List UInt8)) :=
  if telitCommand username p = .ignore then some (.ignore, none)
  else (telitPrepareMailboxAck stack p).map fun text => (telitCommand username p, some text)

/-- The copy of the id, if there is one, holds a zero. -/
def IdEnds (p : List UInt8) : Prop :=
  ∀ key first second, strstr p telitRequestId = some key → strchr key 34 = some first →
    strchr first.tail 34 = some second → 0 ∈ memcpy second.tail telitIdLen

/-- There is a command for the thing in a string. -/
def TelitHasCommand (username m : List UInt8) : Prop :=
  telitMethodExec <:+: str m ∧ username <:+: str m ∧
    ∃ c ∈ [telitReboot, telitPowerup, telitPowerdown, telitDecommission], c <:+: str m

theorem telitCommand_eq_ignore_iff {m : List UInt8} :
    telitCommand username m = .ignore ↔ ¬ TelitHasCommand username m := by
  unfold telitCommand TelitHasCommand
  simp only [strstr_isSome_iff, List.mem_cons, List.not_mem_nil, or_false, exists_eq_or_imp,
    exists_eq_left]
  split
  · next hc =>
      simp only [hc.1, hc.2, true_and]
      split
      · next h => simp only [h, true_or, not_true, reduceCtorEq]
      · next h =>
          simp only [h, false_or]
          split
          · next h => simp only [h, true_or, not_true, reduceCtorEq]
          · next h =>
              simp only [h, false_or]
              split
              · next h => simp only [h, true_or, not_true, reduceCtorEq]
              · next h =>
                  simp only [h, false_or]
                  split
                  · next h => simp only [h, not_true, reduceCtorEq]
                  · next h => simp only [h, not_false_eq_true]
  · next hc =>
      refine ⟨fun _ h => hc ⟨h.1, h.2.1⟩, fun _ => rfl⟩

/-- **The payloads that decide themselves**: they hold a zero, and there is no command in them or
the id ends too. -/
def PayloadDecided (username p : List UInt8) : Prop :=
  0 ∈ p ∧ (TelitHasCommand username p → IdEnds p)

theorem telitCommand_congr {m m' : List UInt8} (h : str m = str m') :
    telitCommand username m = telitCommand username m' := by
  unfold telitCommand
  simp only [strstr_isSome_congr h]

theorem telitCommand_reboot {m : List UInt8} (h : telitMethodExec <:+: str m)
    (hu : username <:+: str m) (hr : telitReboot <:+: str m) :
    telitCommand username m = .reboot := by
  unfold telitCommand
  rw [if_pos ⟨strstr_isSome_iff.2 h, strstr_isSome_iff.2 hu⟩, if_pos (strstr_isSome_iff.2 hr)]

theorem infix_of_reboot {m : List UInt8} (h : telitCommand username m = .reboot) :
    telitMethodExec <:+: str m ∧ username <:+: str m ∧ telitReboot <:+: str m := by
  unfold telitCommand at h
  split at h
  · next hc =>
      split at h
      · next hr =>
          exact ⟨strstr_isSome_iff.1 hc.1, strstr_isSome_iff.1 hc.2, strstr_isSome_iff.1 hr⟩
      · split at h
        · cases h
        · split at h
          · cases h
          · split at h <;> cases h
  · cases h

theorem telitCommand_ne_relay (m : List UInt8) : telitCommand username m ≠ .relay := by
  unfold telitCommand
  split
  · split
    · decide
    · split
      · decide
      · split
        · decide
        · split <;> decide
  · decide

/-- The kind of message in a decision. -/
theorem byPayload_fst {r : OobMessage × Option (List UInt8)}
    (h : telitByPayload username stack p = some r) : r.1 = telitCommand username p := by
  unfold telitByPayload at h
  split at h
  · next hc =>
      cases h
      exact hc.symm
  · obtain ⟨text, -, rfl⟩ := Option.map_eq_some_iff.1 h
    rfl

theorem byPayload_ignore (h : telitCommand username p = .ignore) :
    telitByPayload username stack p = some (.ignore, none) :=
  if_pos h

theorem byPayload_command (h : telitCommand username p ≠ .ignore) :
    telitByPayload username stack p =
      (telitPrepareMailboxAck stack p).map fun text => (telitCommand username p, some text) :=
  if_neg h

/-- The texts of two decisions about commands. -/
theorem ack_eq_of_byPayload {stack' : List UInt8} (hp : telitCommand username p ≠ .ignore)
    (hq : telitCommand username q ≠ .ignore)
    (h : telitByPayload username stack p = telitByPayload username stack' q) :
    telitPrepareMailboxAck stack p = telitPrepareMailboxAck stack' q := by
  rw [byPayload_command hp, byPayload_command hq] at h
  cases ha : telitPrepareMailboxAck stack p with
  | none =>
      rw [ha, Option.map_none] at h
      rw [Option.map_eq_none_iff.1 h.symm]
  | some text =>
      rw [ha, Option.map_some] at h
      obtain ⟨text', ha', heq⟩ := Option.map_eq_some_iff.1 h.symm
      rw [ha']
      exact congrArg some (Option.some.inj (Prod.mk.inj heq).2).symm

/-- What is behind an open payload can make it a command to reboot. -/
theorem exists_reboot (hu : 0 ∉ username) (hp : 0 ∉ p) : ∃ pa text,
    telitByPayload username stack (p ++ pa) = some (.reboot, some text) := by
  have h0 : 0 ∉ p ++ (telitMethodExec ++ username ++ telitReboot) := by
    intro h
    rcases List.mem_append.1 h with h | h
    · exact hp h
    · rcases List.mem_append.1 h with h | h
      · exact (List.mem_append.1 h).elim (by decide +kernel) hu
      · exact absurd h (by decide +kernel)
  obtain ⟨text, htext, -⟩ := @ack_quotes stack _ h0
  have hcmd : telitCommand username
      (p ++ (telitMethodExec ++ username ++ telitReboot) ++ [34, 34]) = .reboot := by
    have hstr : str (p ++ (telitMethodExec ++ username ++ telitReboot) ++ [34, 34]) =
        p ++ (telitMethodExec ++ username ++ telitReboot) ++ [34, 34] := by
      rw [str_append_of_not_mem h0]
      rfl
    refine telitCommand_reboot ?_ ?_ ?_ <;> rw [hstr]
    · exact ⟨p, username ++ telitReboot ++ [34, 34], by simp only [List.append_assoc]⟩
    · exact ⟨p ++ telitMethodExec, telitReboot ++ [34, 34], by simp only [List.append_assoc]⟩
    · exact ⟨p ++ (telitMethodExec ++ username), [34, 34], by simp only [List.append_assoc]⟩
  refine ⟨telitMethodExec ++ username ++ telitReboot ++ [34, 34], text, ?_⟩
  rw [← List.append_assoc, byPayload_command (by rw [hcmd]; decide), hcmd, htext]
  rfl

/-- A command to reboot in an open payload stays one. -/
theorem reboot_append (hp : 0 ∉ p) (h : telitCommand username p = .reboot) (pa : List UInt8) :
    telitCommand username (p ++ pa) = .reboot := by
  obtain ⟨h₁, h₂, h₃⟩ := infix_of_reboot h
  rw [str_of_not_mem hp] at h₁ h₂ h₃
  refine telitCommand_reboot ?_ ?_ ?_ <;> rw [str_append_of_not_mem hp]
  · exact List.infix_append_of_infix_left h₁
  · exact List.infix_append_of_infix_left h₂
  · exact List.infix_append_of_infix_left h₃

/-- What stands behind a copy with a zero does not matter. -/
theorem ack_stack (h : IdEnds p) (stack stack' : List UInt8) :
    telitPrepareMailboxAck stack p = telitPrepareMailboxAck stack' p := by
  cases hk : strstr p telitRequestId with
  | none => rw [ack_of_none hk, ack_of_none hk]
  | some key =>
      cases h₁ : strchr key 34 with
      | none => rw [ack_of_no_first hk h₁, ack_of_no_first hk h₁]
      | some first =>
          cases h₂ : strchr first.tail 34 with
          | none => rw [ack_of_no_second hk h₁ h₂, ack_of_no_second hk h₁ h₂]
          | some second =>
              have h0 := h key first second hk h₁ h₂
              rw [ack_of_some hk h₁ h₂, ack_of_some hk h₁ h₂, str_append_of_mem h0,
                str_append_of_mem h0]

/-- What stands behind a copy without a zero shows in the text. -/
theorem ack_stack_ne {key first second : List UInt8} (hk : strstr p telitRequestId = some key)
    (h₁ : strchr key 34 = some first) (h₂ : strchr first.tail 34 = some second)
    (h : 0 ∉ memcpy second.tail telitIdLen) :
    telitPrepareMailboxAck [] p ≠ telitPrepareMailboxAck [65] p := by
  rw [ack_of_some hk h₁ h₂, ack_of_some hk h₁ h₂, str_append_of_not_mem h, str_append_of_not_mem h]
  intro heq
  refine ackText_ne (length_memcpy second.tail telitIdLen).le [] ?_
  have heq := Option.some.inj heq
  rw [show str [] = [] from rfl, List.append_nil] at heq
  exact heq

/-- The text depends on more than an open payload. -/
theorem ack_of_open (hp : 0 ∉ p) : ∃ stack pa stack' pa',
    telitPrepareMailboxAck stack (p ++ pa) ≠ telitPrepareMailboxAck stack' (p ++ pa') := by
  cases hk : strstr p telitRequestId with
  | none =>
      have hid : 0 ∉ p ++ telitRequestId := fun h =>
        (List.mem_append.1 h).elim hp (by decide +kernel)
      obtain ⟨text, htext, hne⟩ := @ack_quotes [] _ hid
      refine ⟨[], [], [], telitRequestId ++ [34, 34], ?_⟩
      rw [List.append_nil, ack_of_none hk, ← List.append_assoc, htext]
      exact fun heq => hne List.infix_append_right (Option.some.inj heq).symm
  | some key =>
      have hquotes : telitPrepareMailboxAck [] p ≠ none ∨ ∃ stack pa stack' pa',
          telitPrepareMailboxAck stack (p ++ pa) ≠ telitPrepareMailboxAck stack' (p ++ pa') := by
        by_cases hnone : telitPrepareMailboxAck [] p = none
        · obtain ⟨text, htext, -⟩ := @ack_quotes [] _ hp
          refine .inr ⟨[], [], [], [34, 34], ?_⟩
          rw [List.append_nil, hnone, htext]
          exact (Option.some_ne_none _).symm
        · exact .inl hnone
      rcases hquotes with hsome | hquotes
      · cases h₁ : strchr key 34 with
        | none => exact absurd (ack_of_no_first hk h₁) hsome
        | some first =>
            cases h₂ : strchr first.tail 34 with
            | none => exact absurd (ack_of_no_second hk h₁ h₂) hsome
            | some second =>
                have ht : 0 ∉ second.tail := by
                  have hfirst := zero_not_mem_of_strstr (zero_not_mem_of_strstr hp hk) h₁
                  have hsecond := zero_not_mem_of_strstr (mt List.mem_of_mem_tail hfirst) h₂
                  exact mt List.mem_of_mem_tail hsecond
                rcases Nat.lt_or_ge second.tail.length telitIdLen with hlt | hge
                · -- the id goes on behind the payload
                  have h₂q : strchr (first ++ [65]).tail 34 = some (second ++ [65]) := by
                    rw [tail_append_of_strchr h₁]
                    exact strstr_append h₂ [65]
                  refine ⟨[], [], [], [65], ?_⟩
                  have ht' : 0 ∉ second.tail ++ [65] := fun h =>
                    (List.mem_append.1 h).elim ht (by decide)
                  rw [List.append_nil, ack_of_some hk h₁ h₂,
                    ack_of_some (strstr_append hk [65]) (strstr_append h₁ [65]) h₂q,
                    tail_append_of_strchr h₂, List.append_nil, List.append_nil,
                    str_memcpy_of_le ht hlt.le, str_memcpy_of_le ht']
                  · exact fun heq => ackText_ne hlt.le [] (Option.some.inj heq)
                  · rw [List.length_append]
                    exact hlt
                · refine ⟨[], [], [65], [], ?_⟩
                  rw [List.append_nil]
                  refine ack_stack_ne hk h₁ h₂ ?_
                  rw [memcpy_of_ge hge]
                  exact mt List.mem_of_mem_take ht
      · exact hquotes

/-- **When the decision about a payload depends on the payload only.** -/
theorem byPayload_iff (hu : 0 ∉ username) :
    (∀ stack stack' pa pa', telitByPayload username stack (p ++ pa) =
      telitByPayload username stack' (p ++ pa')) ↔ PayloadDecided username p := by
  constructor
  · intro h
    by_cases h0 : 0 ∈ p
    · refine ⟨h0, fun hcmd key first second hk h₁ h₂ => ?_⟩
      have hc : telitCommand username p ≠ .ignore := fun hc => telitCommand_eq_ignore_iff.1 hc hcmd
      by_contra hz
      have heq := h [] [65] [] []
      rw [List.append_nil] at heq
      exact ack_stack_ne hk h₁ h₂ hz (ack_eq_of_byPayload hc hc heq)
    · exfalso
      by_cases hr : telitCommand username p = .reboot
      · obtain ⟨stack, pa, stack', pa', hne⟩ := ack_of_open h0
        have hcmd : ∀ pa, telitCommand username (p ++ pa) ≠ .ignore := by
          intro pa
          rw [reboot_append h0 hr pa]
          decide
        exact hne (ack_eq_of_byPayload (hcmd pa) (hcmd pa') (h stack stack' pa pa'))
      · obtain ⟨pa, text, hreboot⟩ := @exists_reboot username [] p hu h0
        have heq := h [] [] [] pa
        rw [List.append_nil, hreboot] at heq
        exact hr (byPayload_fst heq).symm
  · rintro ⟨h0, hd⟩ stack stack' pa pa'
    have hstr : ∀ pa, telitCommand username (p ++ pa) = telitCommand username p := fun pa =>
      telitCommand_congr (str_append_of_mem h0 pa)
    unfold telitByPayload
    rw [hstr, hstr, ack_append_of_mem h0, ack_append_of_mem h0]
    by_cases hc : telitCommand username p = .ignore
    · rw [if_pos hc, if_pos hc]
    · rw [ack_stack (hd (not_not.1 (mt telitCommand_eq_ignore_iff.2 hc)))]

/-! ### The decision about a message -/

/-- The decision and the text of `telitProcessMessage`. -/
def telitOutcome (username stack : List UInt8) (m : Incoming) :
    Option (OobMessage × Option (List UInt8)) :=
  (telitProcessMessage username stack m).map fun r => (r.msg, r.nextMsg)

/-- The messages that are ignored at once.  The comparisons go over the length of the data, so they
do not look behind them. -/
def TelitIgnored (topic payload : List UInt8) : Prop :=
  str topic = telitReplyTopic.take topic.length ∧
    str payload = telitCmdReplyMessage.take payload.length

instance : Decidable (TelitIgnored topic payload) :=
  inferInstanceAs (Decidable (_ ∧ _))

theorem telitOutcome_eq (ta pa : List UInt8) :
    telitOutcome username stack ⟨topic, ta, payload, pa⟩ =
      if TelitIgnored topic payload then some (.ignore, none)
      else if telitNotifyTopic <+: str (topic ++ ta) then
        some (.relay, some telitPrepareMailboxCheck)
      else if telitReplyTopic <+: str (topic ++ ta) then
        telitByPayload username stack (payload ++ pa)
      else some (.ignore, none) := by
  have hign : (strncmpEq (topic ++ ta) telitReplyTopic topic.length &&
      telitCheckExistsIgnoreList (payload ++ pa) payload.length) = true ↔
        TelitIgnored topic payload := by
    unfold telitCheckExistsIgnoreList strncmpEq TelitIgnored
    rw [Bool.and_eq_true, decide_eq_true_eq, decide_eq_true_eq, take_str_append, take_str_append]
  unfold telitOutcome telitProcessMessage Incoming.topicMem Incoming.payloadMem
  simp only [hign, strncmpEq_length_iff]
  split
  · rfl
  · split
    · rfl
    · split
      · split
        · next hc => rw [byPayload_ignore hc]; rfl
        · next hc =>
            rw [byPayload_command hc, Option.map_map]
            rfl
      · rfl

/-- **The messages that decide themselves.**  They are ignored at once, or the topic is that of a
notification, or the topic is not the beginning of that one; then, for a reply, the payload decides
itself, and when the topic is only the beginning of that of a reply, there is no command. -/
def TelitDecided (username topic payload : List UInt8) : Prop :=
  TelitIgnored topic payload ∨ telitNotifyTopic <+: str topic ∨
    ¬ Undecided telitNotifyTopic topic ∧
      (telitReplyTopic <+: str topic → PayloadDecided username payload) ∧
      (Undecided telitReplyTopic topic → 0 ∈ payload ∧ ¬ TelitHasCommand username payload)

/-- What is behind the beginning of a literal can complete it. -/
theorem exists_completion {lit m : List UInt8} (hlit : 0 ∉ lit) (h : Undecided lit m) :
    ∃ m', lit <+: str (m ++ m') := by
  obtain ⟨-, ⟨m', rfl⟩, -⟩ := h
  refine ⟨m', ?_⟩
  rw [str_of_not_mem hlit]

theorem not_prefix_of_undecided {lit m : List UInt8} (h : Undecided lit m) : ¬ lit <+: str m := by
  obtain ⟨h0, hp, hne⟩ := h
  rw [str_of_not_mem h0]
  exact fun hp' => hne (hp.eq_of_length (Nat.le_antisymm hp.length_le hp'.length_le))

/-- A message that decides itself has one outcome. -/
theorem telitOutcome_of_decided (hu : 0 ∉ username) (h : TelitDecided username topic payload)
    (stack stack' ta ta' pa pa' : List UInt8) :
    telitOutcome username stack ⟨topic, ta, payload, pa⟩ =
      telitOutcome username stack' ⟨topic, ta', payload, pa'⟩ := by
  rw [telitOutcome_eq, telitOutcome_eq]
  by_cases hign : TelitIgnored topic payload
  · rw [if_pos hign, if_pos hign]
  · rw [if_neg hign, if_neg hign]
    rcases h.resolve_left hign with hn | ⟨hn, hreply, hbeg⟩
    · have hund : ¬ Undecided telitNotifyTopic topic := fun hx => not_prefix_of_undecided hx hn
      rw [if_pos ((prefix_str_append_iff hund ta).2 hn),
        if_pos ((prefix_str_append_iff hund ta').2 hn)]
    · simp only [prefix_str_append_iff hn]
      by_cases hpre : telitNotifyTopic <+: str topic
      · rw [if_pos hpre, if_pos hpre]
      · rw [if_neg hpre, if_neg hpre]
        by_cases hund : Undecided telitReplyTopic topic
        · obtain ⟨h0, hc⟩ := hbeg hund
          have hall : ∀ stack pa, telitByPayload username stack (payload ++ pa) =
              some (.ignore, none) := by
            intro stack pa
            refine byPayload_ignore ?_
            rw [telitCommand_congr (str_append_of_mem h0 pa)]
            exact telitCommand_eq_ignore_iff.2 hc
          rw [hall, hall, ite_self, ite_self]
        · simp only [prefix_str_append_iff hund]
          split
          · next hr => exact (byPayload_iff hu).2 (hreply hr) stack stack' pa pa'
          · rfl

/-- The outcome when the topic is that of no notification. -/
theorem telitOutcome_ne_relay {ta pa : List UInt8}
    (h : ¬ telitNotifyTopic <+: str (topic ++ ta)) (r : Option (List UInt8)) :
    telitOutcome username stack ⟨topic, ta, payload, pa⟩ ≠ some (.relay, r) := by
  rw [telitOutcome_eq, if_neg h]
  split
  · intro hx
    cases hx
  · split
    · exact fun hx => telitCommand_ne_relay _ (byPayload_fst hx).symm
    · intro hx
      cases hx

/-- **When the decision of Telit depends on the message only.** -/
theorem telit_sameOutcome_iff (hu : 0 ∉ username) :
    (∀ stack stack' ta ta' pa pa', telitOutcome username stack ⟨topic, ta, payload, pa⟩ =
      telitOutcome username stack' ⟨topic, ta', payload, pa'⟩) ↔
        TelitDecided username topic payload := by
  refine ⟨fun h => ?_, telitOutcome_of_decided hu⟩
  refine or_iff_not_imp_left.2 fun hign => or_iff_not_imp_left.2 fun hn => ?_
  have hund : ¬ Undecided telitNotifyTopic topic := by
    intro hund
    obtain ⟨ta, hta⟩ := exists_completion (by decide +kernel) hund
    have heq := h [] [] [] ta [] []
    have hnil : ¬ telitNotifyTopic <+: str (topic ++ []) := by
      rw [List.append_nil]
      exact hn
    refine telitOutcome_ne_relay hnil (some telitPrepareMailboxCheck) (heq.trans ?_)
    rw [telitOutcome_eq, if_neg hign, if_pos hta]
  simp only [telitOutcome_eq, if_neg hign, prefix_str_append_iff hund, if_neg hn] at h
  refine ⟨hund, fun hr => (byPayload_iff hu).1 fun stack stack' pa pa' => ?_, fun hbeg => ?_⟩
  · have heq := h stack stack' [] [] pa pa'
    rw [List.append_nil, if_pos hr, if_pos hr] at heq
    exact heq
  · obtain ⟨ta, hta⟩ := exists_completion (by decide +kernel) hbeg
    have hall : ∀ pa, some (OobMessage.ignore, none) =
        telitByPayload username [] (payload ++ pa) := by
      intro pa
      have heq := h [] [] [] ta [] pa
      rw [List.append_nil, if_neg (not_prefix_of_undecided hbeg), if_pos hta] at heq
      exact heq
    refine ⟨?_, ?_⟩
    · by_contra h0
      obtain ⟨pa, text, hreboot⟩ := @exists_reboot username [] payload hu h0
      rw [← hall pa] at hreboot
      cases hreboot
    · have heq := byPayload_fst (hall []).symm
      rw [List.append_nil] at heq
      exact telitCommand_eq_ignore_iff.1 heq.symm

end PseFw.Oob
