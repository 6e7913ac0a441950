/-
**The id in an acknowledgement of Telit.**

A command of Telit has an id, which the acknowledgement repeats: a member `"id":"…"` of the JSON
text, whose value has 24 characters.  The code looks for the letters `id`, goes behind the second
quotation mark from there, and copies 24 bytes to a buffer that is then printed as a string.

The specification reads the member.  The code agrees with it when the first letters `id` of the
payload are the ones of that member.  When they stand somewhere else, or when the value is no string
of that length, the bytes copied are other ones, or there are no two quotation marks and the code
follows a null pointer.  There is no zero behind the copy, so the string goes on with what is on the
stack.

Main definitions:

* `requestId` — the value of the first member `id` that is well formed;
* `idCopied` — the bytes the code copies;
* `TelitRequest`, `TelitAcknowledged` — commands, and what is expected of their acknowledgement.

Main results:

* `telitOutcome_request` — where the acknowledgement of a command goes;
* `telitAcknowledged_of_first` — a payload in which the member comes first is acknowledged;
* `telitAcknowledged_iff` — **when a command is acknowledged with its id**.
-/

import PseFw.Oob.Telit

set_option relaxedAutoImplicit false
set_option autoImplicit false

namespace PseFw.Oob

open CStr

variable {stack id : List UInt8}

/-! ### The id of a request -/

/-- The name of the member, with its quotation marks. -/
def telitIdKey : List UInt8 := 34 :: telitRequestId ++ [34]

/-- The blanks of JSON. -/
def isBlank (b : UInt8) : Bool := b == 32 || b == 9 || b == 10 || b == 13

/-- What stands behind a character, which may have blanks before it. -/
def behindMark (mark : UInt8) (s : List UInt8) : Option (List UInt8) :=
  if (s.dropWhile isBlank).head? = some mark then some (s.dropWhile isBlank).tail else none

/-- The beginning of a text up to its first quotation mark, if it has the length of an id. -/
def quotedId (s : List UInt8) : Option (List UInt8) :=
  if s[telitIdLen]? = some 34 ∧ 34 ∉ s.take telitIdLen then some (s.take telitIdLen) else none

/-- The id, if a text starts with a member that has one. -/
def memberId (s : List UInt8) : Option (List UInt8) :=
  if telitIdKey <+: s then
    ((behindMark 58 (s.drop telitIdKey.length)).bind (behindMark 34)).bind quotedId
  else none

/-- **The id of a request**: that of the first member with one. -/
def requestId : List UInt8 → Option (List UInt8)
  | [] => none
  | b :: s => (memberId (b :: s)).or (requestId s)

/-! ### What is expected -/

/-- A payload that is a command, and what stands behind the zero at its end. -/
structure TelitRequest where
  username : List UInt8
  payload : List UInt8
  after : List UInt8
  command : telitCommand username (payload ++ 0 :: after) ≠ .ignore

/-- The memory from the payload on. -/
def TelitRequest.memory (r : TelitRequest) : List UInt8 := r.payload ++ 0 :: r.after

/-- **What is read is inside**: if there is a key, there are two quotation marks behind it, and
the bytes that are copied, in the payload with its zero. -/
def ReadInside (p : List UInt8) : Prop :=
  ∀ key, strstr p telitRequestId = some key → ∃ first second, strchr key 34 = some first ∧
    strchr first.tail 34 = some second ∧ telitIdLen ≤ second.tail.length

/-- **The command is acknowledged**: with its id, or with an empty message if it has none, and
nothing is read outside the payload. -/
def TelitAcknowledged (stack : List UInt8) (r : TelitRequest) : Prop :=
  ReadInside (r.payload ++ [0]) ∧ telitPrepareMailboxAck stack r.memory =
    some (((requestId (str r.memory)).map ackText).getD [])

/-- **The id stands in its place**: behind the second quotation mark from the first letters `id` on.
The place is found by the letters and the marks alone, wherever they belong to. -/
def IdInPlace (s id : List UInt8) : Prop :=
  ∃ before letters value behind,
    s = before ++ (letters ++ 34 :: (value ++ 34 :: (id ++ behind))) ∧
    find telitRequestId s = some before.length ∧ 34 ∉ letters ∧ 34 ∉ value

/-- The bytes that are copied: those behind the second quotation mark from the first `id` on. -/
def idCopied (p : List UInt8) : Option (List UInt8) :=
  (strstr p telitRequestId).bind fun key =>
    (strchr key 34).bind fun first =>
      (strchr first.tail 34).bind fun second =>
        if telitIdLen ≤ second.tail.length then some (second.tail.take telitIdLen) else none

/-! ### Where the acknowledgement goes -/

theorem TelitRequest.memory_eq (r : TelitRequest) : r.memory = r.payload ++ [0] ++ r.after := by
  rw [List.append_assoc]
  rfl

theorem zero_mem_concat (l : List UInt8) : 0 ∈ l ++ [0] :=
  List.mem_append_right _ (List.mem_singleton_self 0)

theorem TelitRequest.str_memory (r : TelitRequest) : str r.memory = str r.payload := by
  rw [r.memory_eq, str_append_of_mem (zero_mem_concat _), str_concat_zero]

/-- **The acknowledgement of a command** is the message that is sent next. -/
theorem telitOutcome_request (r : TelitRequest) (stack : List UInt8) :
    telitOutcome r.username stack ⟨telitReplyTopic, [], r.payload, 0 :: r.after⟩ =
      (telitPrepareMailboxAck stack r.memory).map fun text =>
        (telitCommand r.username r.memory, some text) := by
  have hnotify : ¬ telitNotifyTopic <+: str (telitReplyTopic ++ []) := by decide
  have hreply : telitReplyTopic <+: str (telitReplyTopic ++ []) := by decide
  have hlisted : ¬ TelitIgnored telitReplyTopic r.payload := by
    rintro ⟨-, hp⟩
    -- the text of the list would hold the word for a command
    have hhas : TelitHasCommand r.username r.memory := by
      by_contra hnot
      exact r.command (telitCommand_eq_ignore_iff.2 hnot)
    have hexec := hhas.1
    rw [r.str_memory, hp] at hexec
    exact absurd (hexec.trans (List.take_prefix _ _).isInfix) (by decide)
  rw [telitOutcome_eq, if_neg hlisted, if_neg hnotify, if_pos hreply]
  exact byPayload_command r.command

/-! ### The specification -/

theorem requestId_cons (b : UInt8) (s : List UInt8) :
    requestId (b :: s) = (memberId (b :: s)).or (requestId s) := rfl

theorem quotedId_spec {s : List UInt8} (h : quotedId s = some id) :
    id.length = telitIdLen ∧ id <+: s := by
  unfold quotedId at h
  split at h
  · next hc =>
      obtain ⟨hlt, -⟩ := List.getElem?_eq_some_iff.1 hc.1
      rw [← Option.some.inj h]
      exact ⟨List.length_take_of_le hlt.le, List.take_prefix _ _⟩
  · cases h

theorem suffix_of_behindMark {mark : UInt8} {s s' : List UInt8} (h : behindMark mark s = some s') :
    s' <:+ s := by
  unfold behindMark at h
  split at h
  · rw [← Option.some.inj h]
    exact (List.tail_suffix _).trans (List.dropWhile_suffix _)
  · cases h

/-- The id of a member has the length of an id, and stands behind the name of the member. -/
theorem memberId_spec {s : List UInt8} (h : memberId s = some id) :
    telitIdKey <+: s ∧ id.length = telitIdLen ∧ id <:+: s := by
  unfold memberId at h
  split at h
  · next hkey =>
      obtain ⟨value, hvalue, hid⟩ := Option.bind_eq_some_iff.1 h
      obtain ⟨colon, hcolon, hquote⟩ := Option.bind_eq_some_iff.1 hvalue
      obtain ⟨hlen, hpre⟩ := quotedId_spec hid
      have hsuf : value <:+ s := (suffix_of_behindMark hquote).trans
        ((suffix_of_behindMark hcolon).trans (List.drop_suffix _ s))
      exact ⟨hkey, hlen, hpre.isInfix.trans hsuf.isInfix⟩
  · cases h

theorem requestId_spec {s : List UInt8} (h : requestId s = some id) :
    telitIdKey <:+: s ∧ id.length = telitIdLen ∧ id <:+: s := by
  induction s with
  | nil => cases h
  | cons b s ih =>
      rw [requestId_cons] at h
      cases hm : memberId (b :: s) with
      | some id' =>
          rw [hm, Option.some_or] at h
          rw [← Option.some.inj h]
          obtain ⟨hkey, hlen, hinf⟩ := memberId_spec hm
          exact ⟨hkey.isInfix, hlen, hinf⟩
      | none =>
          rw [hm, Option.none_or] at h
          obtain ⟨hkey, hlen, hinf⟩ := ih h
          have hs : s <:+: b :: s := (List.suffix_cons b s).isInfix
          exact ⟨hkey.trans hs, hlen, hinf.trans hs⟩

/-- Without the letters there is no id. -/
theorem requestId_of_no_key {p : List UInt8} (h : strstr p telitRequestId = none) :
    requestId (str p) = none := by
  cases hr : requestId (str p) with
  | none => rfl
  | some id =>
      have hletters : telitRequestId <:+: telitIdKey := ⟨[34], [34], rfl⟩
      have hsome := strstr_isSome_iff.2 (hletters.trans (requestId_spec hr).1)
      rw [h] at hsome
      cases hsome

/-- An id has the right length and no zero. -/
theorem requestId_str {p : List UInt8} (h : requestId (str p) = some id) :
    id.length = telitIdLen ∧ 0 ∉ id :=
  ⟨(requestId_spec h).2.1, fun h0 => zero_not_mem_str p ((requestId_spec h).2.2.subset h0)⟩

/-! ### The text -/

theorem length_ackText (x : List UInt8) : (ackText x).length =
    min (bigGeneralBufSize - 1) (telitAckBefore.length + x.length + telitAckAfter.length) := by
  unfold ackText snprintf
  rw [List.length_take, List.length_append, List.length_append]

theorem length_ackText_lt : 0 < telitAckBefore.length ∧
    telitAckBefore.length + telitIdLen + telitAckAfter.length < bigGeneralBufSize - 1 := by
  decide +kernel

/-- **The text shows an id** of the right length. -/
theorem eq_of_ackText_eq (hid : id.length = telitIdLen) {x : List UInt8}
    (h : ackText x = ackText id) : x = id := by
  have hroom := length_ackText_lt.2
  have hlen := congrArg List.length h
  rw [length_ackText, length_ackText, hid, Nat.min_eq_right hroom.le] at hlen
  have hx : x.length = telitIdLen := by omega
  -- neither of the texts is cut off
  have huncut : ∀ y : List UInt8, y.length = telitIdLen →
      ackText y = telitAckBefore ++ y ++ telitAckAfter := by
    intro y hy
    refine List.take_of_length_le ?_
    rw [List.length_append, List.length_append, hy]
    exact hroom.le
  rw [huncut x hx, huncut id hid] at h
  exact List.append_cancel_left (List.append_cancel_right h)

theorem ackText_ne_nil (x : List UInt8) : ackText x ≠ [] := by
  obtain ⟨hbefore, hroom⟩ := length_ackText_lt
  intro h
  have hlen := congrArg List.length h
  rw [length_ackText, List.length_nil] at hlen
  omega

/-! ### When the id is right -/

/-- The search of the code, when it stays inside. -/
theorem idCopied_eq_some_iff {p : List UInt8} : idCopied p = some id ↔
    ∃ key first second, strstr p telitRequestId = some key ∧ strchr key 34 = some first ∧
      strchr first.tail 34 = some second ∧ telitIdLen ≤ second.tail.length ∧
      second.tail.take telitIdLen = id := by
  unfold idCopied
  constructor
  · intro h
    obtain ⟨key, hkey, h⟩ := Option.bind_eq_some_iff.1 h
    obtain ⟨first, hfirst, h⟩ := Option.bind_eq_some_iff.1 h
    obtain ⟨second, hsecond, h⟩ := Option.bind_eq_some_iff.1 h
    split at h
    · next hlen => exact ⟨key, first, second, hkey, hfirst, hsecond, hlen, Option.some.inj h⟩
    · cases h
  · rintro ⟨key, first, second, hkey, hfirst, hsecond, hlen, rfl⟩
    rw [hkey, Option.bind_some, hfirst, Option.bind_some, hsecond, Option.bind_some, if_pos hlen]

theorem readInside_of_idCopied {p : List UInt8} (h : idCopied p = some id) : ReadInside p := by
  obtain ⟨key, first, second, hkey, hfirst, hsecond, hlen, -⟩ := idCopied_eq_some_iff.1 h
  intro key' hkey'
  rw [hkey] at hkey'
  rw [← Option.some.inj hkey']
  exact ⟨first, second, hfirst, hsecond, hlen⟩

/-- What is printed: the bytes that are copied, and what is on the stack behind them. -/
theorem ack_of_idCopied {p : List UInt8} (h : idCopied p = some id) :
    telitPrepareMailboxAck stack p = some (ackText (str (id ++ stack))) := by
  obtain ⟨key, first, second, hkey, hfirst, hsecond, hlen, rfl⟩ := idCopied_eq_some_iff.1 h
  rw [ack_of_some hkey hfirst hsecond, memcpy_of_ge hlen]

/-- A copy is printed as an id if and only if it is the id and nothing stands behind it. -/
theorem str_append_eq_iff {copied : List UInt8} (hc : copied.length = telitIdLen)
    (hid : id.length = telitIdLen) (h0 : 0 ∉ id) :
    str (copied ++ stack) = id ↔ str stack = [] ∧ copied = id := by
  constructor
  · intro h
    by_cases hz : 0 ∈ copied
    · have hlt : (str copied).length < copied.length := by
        refine lt_of_le_of_ne (length_str_le copied) fun heq => ?_
        have hself : str copied = copied :=
          List.IsPrefix.eq_of_length (List.takeWhile_prefix _) heq
        rw [← hself] at hz
        exact zero_not_mem_str copied hz
      rw [str_append_of_mem hz] at h
      rw [h] at hlt
      omega
    · rw [str_append_of_not_mem hz] at h
      have hlen := congrArg List.length h
      rw [List.length_append] at hlen
      have hnil : str stack = [] := List.eq_nil_of_length_eq_zero (by omega)
      rw [hnil, List.append_nil] at h
      exact ⟨hnil, h⟩
  · rintro ⟨hs, rfl⟩
    rw [str_append_of_not_mem h0, hs, List.append_nil]

/-- **When a payload is acknowledged with its id.** -/
theorem ack_iff {p : List UInt8} :
    ReadInside p ∧ telitPrepareMailboxAck stack p =
        some (((requestId (str p)).map ackText).getD []) ↔
      strstr p telitRequestId = none ∨
        str stack = [] ∧ ∃ id, requestId (str p) = some id ∧ idCopied p = some id := by
  cases hk : strstr p telitRequestId with
  | none =>
      refine ⟨fun _ => .inl rfl, fun _ => ⟨fun key hkey => ?_, ?_⟩⟩
      · rw [hk] at hkey
        cases hkey
      · rw [ack_of_none hk, requestId_of_no_key hk]
        rfl
  | some key =>
      constructor
      · rintro ⟨hinside, hack⟩
        obtain ⟨first, second, hfirst, hsecond, hlen⟩ := hinside key hk
        have hcopied := idCopied_eq_some_iff.2 ⟨key, first, second, hk, hfirst, hsecond, hlen, rfl⟩
        rw [ack_of_idCopied hcopied] at hack
        cases hr : requestId (str p) with
        | none =>
            rw [hr] at hack
            exact absurd (Option.some.inj hack) (ackText_ne_nil _)
        | some id =>
            obtain ⟨hid, h0⟩ := requestId_str hr
            rw [hr] at hack
            have heq := eq_of_ackText_eq hid (Option.some.inj hack)
            obtain ⟨hs, hc⟩ := (str_append_eq_iff (List.length_take_of_le hlen) hid h0).1 heq
            rw [hc] at hcopied
            exact .inr ⟨hs, id, rfl, hcopied⟩
      · rintro (hnone | ⟨hs, id, hr, hcopied⟩)
        · cases hnone
        · obtain ⟨hid, h0⟩ := requestId_str hr
          refine ⟨readInside_of_idCopied hcopied, ?_⟩
          rw [ack_of_idCopied hcopied, (str_append_eq_iff hid hid h0).2 ⟨hs, rfl⟩, hr]
          rfl

/-- An id that is copied stands in its place. -/
theorem idInPlace_of_idCopied {p : List UInt8} (h0 : 0 ∉ id) (h : idCopied p = some id) :
    IdInPlace (str p) id := by
  obtain ⟨key, first, second, hkey, hfirst, hsecond, -, htake⟩ := idCopied_eq_some_iff.1 h
  obtain ⟨i, hi, rfl⟩ := Option.map_eq_some_iff.1 hkey
  obtain ⟨letters, hletters, hq₁, hz₁⟩ := exists_append_of_strchr hfirst
  obtain ⟨value, hvalue, hq₂, hz₂⟩ := exists_append_of_strchr hsecond
  have hsplit : str p ++ p.dropWhile (· != 0) = p := List.takeWhile_append_dropWhile
  have hle := find_le hi
  have hbefore : p.take i = (str p).take i := by
    conv_lhs => rw [← hsplit, List.take_append_of_le_length hle]
  -- up to the end of the id there is no zero
  have hz : 0 ∉ p.take i ++ (letters ++ 34 :: (value ++ 34 :: id)) := by
    have hz₀ : 0 ∉ p.take i := fun h => zero_not_mem_str p (List.mem_of_mem_take (hbefore ▸ h))
    simp only [List.mem_append, List.mem_cons, hz₀, hz₁, hz₂, h0, or_false, false_or]
    decide
  have hp : p.take i ++ (letters ++ 34 :: (value ++ 34 :: id)) ++
      second.tail.drop telitIdLen = p := by
    simp only [List.append_assoc, List.cons_append]
    rw [← htake, List.take_append_drop, ← hvalue, ← hletters, List.take_append_drop]
  have hstr := str_append_of_not_mem hz (second.tail.drop telitIdLen)
  simp only [hp, List.append_assoc, List.cons_append] at hstr
  refine ⟨p.take i, letters, value, _, hstr, ?_, hq₁, hq₂⟩
  rw [hi, hbefore, List.length_take_of_le hle]

/-- An id in its place is copied. -/
theorem idCopied_of_idInPlace {p : List UInt8} (hid : id.length = telitIdLen)
    (h : IdInPlace (str p) id) : idCopied p = some id := by
  obtain ⟨before, letters, value, behind, hs, hfind, hq₁, hq₂⟩ := h
  have hz := zero_not_mem_str p
  rw [hs] at hz
  simp only [List.mem_append, List.mem_cons, not_or] at hz
  obtain ⟨-, hz₁, -, hz₂, -⟩ := hz
  obtain ⟨rest, hrest⟩ : ∃ rest, p = str p ++ rest :=
    ⟨p.dropWhile (· != 0), List.takeWhile_append_dropWhile.symm⟩
  have hkey : p.drop before.length =
      letters ++ 34 :: (value ++ 34 :: (id ++ (behind ++ rest))) := by
    rw [hrest, hs, List.append_assoc, List.drop_left]
    simp only [List.append_assoc, List.cons_append]
  refine idCopied_eq_some_iff.2
    ⟨p.drop before.length, 34 :: (value ++ 34 :: (id ++ (behind ++ rest))),
      34 :: (id ++ (behind ++ rest)), Option.map_eq_some_iff.2 ⟨_, hfind, rfl⟩, ?_, ?_, ?_, ?_⟩
  · rw [hkey]
    exact strchr_append_cons hz₁ hq₁ (by decide) _
  · exact strchr_append_cons hz₂ hq₂ (by decide) _
  · rw [List.tail_cons, List.length_append, hid]
    exact Nat.le_add_right _ _
  · rw [List.tail_cons, ← hid, List.take_left]

/-- **The code copies the id if and only if it stands in its place.** -/
theorem idCopied_iff_idInPlace {payload : List UInt8} (hid : id.length = telitIdLen)
    (h0 : 0 ∉ id) :
    idCopied (payload ++ [0]) = some id ↔ IdInPlace (str payload) id := by
  rw [← str_concat_zero payload]
  exact ⟨idInPlace_of_idCopied h0, idCopied_of_idInPlace hid⟩

/-- **When a command is acknowledged with its id**: there are no letters `id` in the payload; or the
id stands behind the second quotation mark from the first ones on, and the byte on the stack behind
the copy is zero. -/
theorem telitAcknowledged_iff (r : TelitRequest) (stack : List UInt8) :
    TelitAcknowledged stack r ↔
      ¬ telitRequestId <:+: str r.payload ∨
        str stack = [] ∧ ∃ id, requestId (str r.payload) = some id ∧
          IdInPlace (str r.payload) id := by
  have hletters : strstr (r.payload ++ [0]) telitRequestId = none ↔
      ¬ telitRequestId <:+: str r.payload := by
    rw [← str_concat_zero, ← strstr_isSome_iff, Option.not_isSome_iff_eq_none]
  unfold TelitAcknowledged
  rw [r.str_memory, r.memory_eq, ack_append_of_mem (zero_mem_concat _), ← hletters,
    ← str_concat_zero, ack_iff, str_concat_zero]
  refine or_congr_right (and_congr_right fun _ => exists_congr fun id => ?_)
  refine and_congr_right fun hr => ?_
  obtain ⟨hid, h0⟩ := requestId_str hr
  exact idCopied_iff_idInPlace hid h0

/-- A command whose id is a number. -/
def numberRequest : TelitRequest where
  username := bytes "m"
  payload :=
    bytes "\x7b\"cmd\":\"method.exec\",\"params\":\"reboot_device\",\"id\":7\x7d"
  after := []
  command := by decide +kernel

/-- There is no quotation mark behind the number: the code follows a null pointer. -/
theorem not_telitAcknowledged_number : ¬ TelitAcknowledged [] numberRequest := by
  intro h
  have hfails : telitPrepareMailboxAck [] numberRequest.memory = none := by decide +kernel
  have hack := h.2
  rw [hfails] at hack
  cases hack

/-! ### Payloads with the member in front -/

theorem behindMark_append {mark : UInt8} {w : List UInt8} (hw : ∀ b ∈ w, isBlank b = true)
    (hmark : isBlank mark = false) (s : List UInt8) :
    behindMark mark (w ++ mark :: s) = some s := by
  have hdrop : (w ++ mark :: s).dropWhile isBlank = mark :: s := by
    rw [List.dropWhile_append_of_pos hw, List.dropWhile_cons_of_neg (by rw [hmark]; decide)]
  unfold behindMark
  rw [hdrop, List.head?_cons, if_pos rfl, List.tail_cons]

/-- A member that is well formed. -/
theorem memberId_append {w₁ w₂ : List UInt8} (h₁ : ∀ b ∈ w₁, isBlank b = true)
    (h₂ : ∀ b ∈ w₂, isBlank b = true) (hid : id.length = telitIdLen) (hq : 34 ∉ id)
    (s : List UInt8) :
    memberId (telitIdKey ++ (w₁ ++ 58 :: (w₂ ++ 34 :: (id ++ 34 :: s)))) = some id := by
  have hquoted : quotedId (id ++ 34 :: s) = some id := by
    unfold quotedId
    rw [← hid, List.take_left, List.getElem?_append_right le_rfl, Nat.sub_self,
      List.getElem?_cons_zero, if_pos ⟨rfl, hq⟩]
  unfold memberId
  rw [if_pos (List.prefix_append _ _), List.drop_left, behindMark_append h₁ (by decide),
    Option.bind_some, behindMark_append h₂ (by decide), Option.bind_some, hquoted]

/-- The member with the first letters `id` is the first one. -/
theorem requestId_of_first {before m : List UInt8} (hm : memberId m = some id)
    (h : find telitRequestId (before ++ m) = some (before.length + 1)) :
    requestId (before ++ m) = some id := by
  induction before with
  | nil =>
      cases m with
      | nil => cases hm
      | cons b m => rw [List.nil_append, requestId_cons, hm, Option.some_or]
  | cons b before ih =>
      rw [List.cons_append, find] at h
      split at h
      · cases h
      · obtain ⟨i, hi, hadd⟩ := Option.map_eq_some_iff.1 h
        rw [List.length_cons, Nat.add_right_cancel_iff] at hadd
        rw [hadd] at hi
        have hnone : memberId (b :: (before ++ m)) = none := by
          cases hb : memberId (b :: (before ++ m)) with
          | none => rfl
          | some id' =>
              -- then the letters would already stand here
              have hkey := (List.cons_prefix_cons.1 (memberId_spec hb).1).2
              rw [find_of_isPrefix ((List.prefix_append telitRequestId [34]).trans hkey)] at hi
              cases hi
        rw [List.cons_append, requestId_cons, hnone, Option.none_or, ih hi]

/-- **A payload in which the member comes first is acknowledged** with its id, if nothing stands on
the stack behind the copy. -/
theorem telitAcknowledged_of_first {r : TelitRequest} {before w₁ w₂ behind : List UInt8}
    (hs : str r.payload =
      before ++ (telitIdKey ++ (w₁ ++ 58 :: (w₂ ++ 34 :: (id ++ 34 :: behind)))))
    (hfirst : find telitRequestId (str r.payload) = some (before.length + 1))
    (h₁ : ∀ b ∈ w₁, isBlank b = true) (h₂ : ∀ b ∈ w₂, isBlank b = true)
    (hid : id.length = telitIdLen) (hq : 34 ∉ id) (hstack : str stack = []) :
    TelitAcknowledged stack r := by
  have hblank : ∀ {w : List UInt8}, (∀ b ∈ w, isBlank b = true) → 34 ∉ w :=
    fun hw h34 => absurd (hw 34 h34) (by decide)
  refine (telitAcknowledged_iff r stack).2 (.inr ⟨hstack, id, ?_, ?_⟩)
  · rw [hs] at hfirst ⊢
    exact requestId_of_first (memberId_append h₁ h₂ hid hq behind) hfirst
  · refine ⟨before ++ [34], telitRequestId, w₁ ++ 58 :: w₂, 34 :: behind, ?_, ?_, by decide, ?_⟩
    · rw [hs]
      simp only [telitIdKey, List.append_assoc, List.cons_append, List.nil_append]
    · rw [hfirst, List.length_append, List.length_singleton]
    · intro h34
      rcases List.mem_append.1 h34 with h34 | h34
      · exact hblank h₁ h34
      · rcases List.mem_cons.1 h34 with h34 | h34
        · exact absurd h34 (by decide)
        · exact hblank h₂ h34

end PseFw.Oob
