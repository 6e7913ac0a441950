/-
**Commands from the cloud.**

A command is received in a callback, and acted on by the thread later.  What the thread needs of it
lies in static variables: the kind of command in `fmessage`, the text of the acknowledgement in
`next_msg`, and the topic, from which the topic of the acknowledgement is made, in the buffer of the
adapter.  The fifo holds one entry for each command, and all of them refer to `fmessage`.

So a message that arrives while a command waits replaces what the command has left there: the
command is acted on as another one, or acknowledged with another id.  This holds even for messages
the adapter does not take for commands, since it clears the text and copies the topic first.

Main definitions:

* `Matches` — a command was acted on with what belongs to it;
* `CommandsOk` — what is wanted: the commands that were acted on are the first ones received, in
  order, each with what belongs to it, and for each of the others the fifo has an entry;
* `CommandDiscipline` — nothing arrives that replaces what a waiting command has left.

Main results:

* `processMessage_command` — what the adapters leave behind for a command;
* `commandInv_publish`, `commandInv_get`, `commandInv_ack` — the steps of a command;
* `commandsOk_of_disciplined` — **every command is acted on once, in order, as what it is.**
-/

import PseFw.Oob.Fifo

set_option relaxedAutoImplicit false
set_option autoImplicit false

namespace PseFw.Oob

variable {c : Credentials} {x x' : OobSys} {l : OobLabel}

/-- A command was acted on as what it is, with its own text, and on the topic that is made from its
own topic. -/
structure Matches (c : Credentials) (w : Wanted) (a : Acted) : Prop where
  msg : a.msg = w.msg
  text : a.text = w.text
  topic : a.topic = getMqttPubTopic c.cloudAdapter w.topicBuf a.after

/-- The entries for commands among some nodes. -/
def OobState.commandsAt (s : OobState) (nodes : List OobNode) : ℕ :=
  nodes.countP fun n => decide (s.itemAt n = .fmessage)

/-- The commands that wait in the fifo. -/
def OobSys.queued (x : OobSys) : ℕ := x.s.commandsAt (x.puts.drop x.taken.length)

/-- The commands that have not been acted on: one more when the thread has taken one and not
acknowledged it. -/
def OobSys.unacted (x : OobSys) : ℕ := x.queued + x.s.ackDue.toNat

/-- **What is wanted of the commands**: those that were acted on are the first ones that were
received, in order and with what belongs to them, and each of the others waits. -/
def CommandsOk (c : Credentials) (x : OobSys) : Prop :=
  ∃ done pending, x.published = done ++ pending ∧ List.Forall₂ (Matches c) done x.acted ∧
    pending.length = x.unacted

/-- What a message leaves of the text and the topic a command waits with. -/
def Processed.Keeps (p : Processed) (s : OobState) : Prop :=
  p.nextMsg.getD s.nextMsg = s.nextMsg ∧ p.topicBuf.getD s.topicBuf = s.topicBuf

/-- The restriction on a message that arrives: there is memory for the entry of a command, a waiting
command keeps its text and its topic, and one that waits in the fifo keeps its kind. -/
structure ArrivesWell (p : Processed) (alloc : Bool) (x : OobSys) : Prop where
  alloc : p.msg ≠ .ignore → alloc = true
  keeps : 0 < x.unacted → p.Keeps x.s
  kind : 0 < x.queued → p.msg ≠ .ignore → p.msg = x.s.fmessage

/-- **The discipline**: the fifo is not destroyed, and no message replaces what a waiting command
has left. -/
structure CommandDiscipline (c : Credentials) (x : OobSys) (l : OobLabel) : Prop where
  fifo : FifoDiscipline x l
  publish : ∀ m stack alloc p, l = .publish m stack alloc → processMessage c stack m = some p →
    ArrivesWell p alloc x

instance (p : Processed) (s : OobState) : Decidable (p.Keeps s) :=
  inferInstanceAs (Decidable (_ ∧ _))

instance (p : Processed) (alloc : Bool) (x : OobSys) : Decidable (ArrivesWell p alloc x) :=
  decidable_of_iff ((p.msg ≠ .ignore → alloc = true) ∧ (0 < x.unacted → p.Keeps x.s) ∧
      (0 < x.queued → p.msg ≠ .ignore → p.msg = x.s.fmessage))
    ⟨fun h => ⟨h.1, h.2.1, h.2.2⟩, fun h => ⟨h.alloc, h.keeps, h.kind⟩⟩

/-- The message an event brings. -/
def OobLabel.arrival (c : Credentials) : OobLabel → Option (Processed × Bool)
  | .publish m stack alloc => (processMessage c stack m).map fun p => (p, alloc)
  | _ => none

theorem arrivesWell_iff : (∀ a ∈ l.arrival c, ArrivesWell a.1 a.2 x) ↔
    ∀ m stack alloc p, l = .publish m stack alloc → processMessage c stack m = some p →
      ArrivesWell p alloc x := by
  constructor
  · rintro h m stack alloc p rfl hp
    exact h (p, alloc) (Option.map_eq_some_iff.2 ⟨p, hp, rfl⟩)
  · intro h a ha
    cases l with
    | publish m stack alloc =>
        obtain ⟨p, hp, rfl⟩ := Option.map_eq_some_iff.1 ha
        exact h m stack alloc p rfl hp
    | _ => cases ha

instance (c : Credentials) (x : OobSys) (l : OobLabel) : Decidable (CommandDiscipline c x l) :=
  decidable_of_iff (FifoDiscipline x l ∧ ∀ a ∈ l.arrival c, ArrivesWell a.1 a.2 x)
    ⟨fun h => ⟨h.1, arrivesWell_iff.1 h.2⟩, fun h => ⟨h.fifo, arrivesWell_iff.2 h.publish⟩⟩

/-! ### What the adapters leave behind -/

theorem rpc_command_isCommand (a : RpcAdapter) (m : List UInt8) (h : a.command m ≠ .ignore) :
    (a.command m).isCommand = true := by
  unfold RpcAdapter.command at h ⊢
  split
  · rfl
  · split
    · rfl
    · split
      · rfl
      · split
        · rfl
        · simp_all

theorem telit_command_isCommand (username payload : List UInt8)
    (h : telitCommand username payload ≠ .ignore) :
    (telitCommand username payload).isCommand = true := by
  unfold telitCommand at h ⊢
  split
  · split
    · rfl
    · split
      · rfl
      · split
        · rfl
        · split
          · rfl
          · simp_all
  · simp_all

theorem rpcProcessMessage_command {a : RpcAdapter} {m : Incoming}
    (h : (rpcProcessMessage a m).msg ≠ .ignore) :
    (rpcProcessMessage a m).msg.isCommand = true ∧
      (rpcProcessMessage a m).nextMsg = some statusText ∧
      (rpcProcessMessage a m).topicBuf = some (CStr.memcpy m.topic maxMsgBufLen) := by
  unfold rpcProcessMessage at h ⊢
  split
  · next hlen =>
      rw [if_pos hlen] at h
      exact absurd rfl h
  · next hlen =>
      rw [if_neg hlen] at h
      simp only at h ⊢
      refine ⟨?_, by rw [if_neg h], trivial⟩
      split
      · next hr =>
          rw [if_pos hr] at h
          exact absurd rfl h
      · next hr =>
          rw [if_neg hr] at h
          exact rpc_command_isCommand a _ h

theorem telitProcessMessage_command {username stack : List UInt8} {m : Incoming} {p : Processed}
    (h : telitProcessMessage username stack m = some p) (hp : p.msg ≠ .ignore) :
    p.msg.isCommand = true ∧ p.nextMsg.isSome = true := by
  unfold telitProcessMessage at h
  split at h
  · cases h
    exact absurd rfl hp
  · split at h
    · cases h
      exact ⟨rfl, rfl⟩
    · split at h
      · split at h
        · cases h
          exact absurd rfl hp
        · next hcmd =>
            obtain ⟨text, -, rfl⟩ := Option.map_eq_some_iff.1 h
            exact ⟨telit_command_isCommand _ _ hcmd, rfl⟩
      · cases h
        exact absurd rfl hp

/-- **What a command leaves behind**: its text is in `next_msg`, and the topic of its
acknowledgement can be made from the buffer. -/
theorem processMessage_command {stack : List UInt8} {m : Incoming} {p : Processed}
    (h : processMessage c stack m = some p) (hp : p.msg ≠ .ignore) :
    p.msg.isCommand = true ∧ p.nextMsg.isSome = true ∧
      ∀ buf after, getMqttPubTopic c.cloudAdapter (p.topicBuf.getD buf) after =
        getMqttPubTopic c.cloudAdapter (p.topicBuf.getD []) after := by
  unfold processMessage at h
  cases hc : c.cloudAdapter with
  | telit =>
      simp only [hc] at h
      obtain ⟨hcmd, hnext⟩ := telitProcessMessage_command h hp
      exact ⟨hcmd, hnext, fun _ _ => rfl⟩
  | azure =>
      simp only [hc] at h
      cases h
      obtain ⟨hcmd, hnext, hbuf⟩ := rpcProcessMessage_command hp
      refine ⟨hcmd, by rw [azureIotProcessMessage, hnext]; rfl, fun buf after => ?_⟩
      rw [azureIotProcessMessage, hbuf]
      rfl
  | thingsboard =>
      simp only [hc] at h
      cases h
      obtain ⟨hcmd, hnext, hbuf⟩ := rpcProcessMessage_command hp
      refine ⟨hcmd, by rw [thingsboardProcessMessage, hnext]; rfl, fun buf after => ?_⟩
      rw [thingsboardProcessMessage, hbuf]
      rfl

/-! ### The invariant -/

/-- A waiting command finds what it has left. -/
structure Waits (c : Credentials) (s : OobState) (w : Wanted) : Prop where
  isCommand : w.msg.isCommand = true
  text : s.nextMsg = w.text
  topic : ∀ after, getMqttPubTopic c.cloudAdapter s.topicBuf after =
    getMqttPubTopic c.cloudAdapter w.topicBuf after

/-- The commands that were acted on, and those that wait: the one the thread has taken, and those in
the fifo. -/
structure CommandInv (c : Credentials) (x : OobSys) (done pending : List Wanted) : Prop where
  published : x.published = done ++ pending
  acted : List.Forall₂ (Matches c) done x.acted
  length : pending.length = x.unacted
  waits : ∀ w ∈ pending, Waits c x.s w
  due : x.s.ackDue = true → ∀ w ∈ pending.head?, x.s.current = w.msg
  kind : ∀ w ∈ pending.drop x.s.ackDue.toNat, w.msg = x.s.fmessage

theorem commandInv_init (h : OobInit x) : CommandInv c x [] [] := by
  refine ⟨h.published, ?_, ?_, fun w hw => (by cases hw), fun _ w hw => (by cases hw), ?_⟩
  · rw [h.acted]
    exact .nil
  · unfold OobSys.unacted OobSys.queued
    rw [h.puts, h.ackDue, List.drop_nil]
    rfl
  · rw [List.drop_nil]
    exact fun w hw => (by cases hw)

/-- A step that touches neither the commands nor what they have left. -/
theorem CommandInv.same {done pending : List Wanted} (h : CommandInv c x done pending)
    (hpub : x'.published = x.published) (hact : x'.acted = x.acted) (hq : x'.queued = x.queued)
    (hnext : x'.s.nextMsg = x.s.nextMsg) (htopic : x'.s.topicBuf = x.s.topicBuf)
    (hf : x'.s.fmessage = x.s.fmessage) (hdue : x'.s.ackDue = x.s.ackDue)
    (hcur : x.s.ackDue = true → x'.s.current = x.s.current) :
    CommandInv c x' done pending := by
  refine ⟨hpub.trans h.published, hact ▸ h.acted, ?_, fun w hw => ?_, fun hd w hw => ?_, ?_⟩
  · unfold OobSys.unacted
    rw [hq, hdue]
    exact h.length
  · obtain ⟨hcmd, htext, htop⟩ := h.waits w hw
    exact ⟨hcmd, hnext.trans htext, fun after => by rw [htopic]; exact htop after⟩
  · rw [hdue] at hd
    rw [hcur hd]
    exact h.due hd w hw
  · rw [hdue, hf]
    exact h.kind

/-! ### Entries -/

theorem queued_eq {nodes : List OobNode} (hp : x.puts = x.taken ++ nodes) :
    x.queued = x.s.commandsAt nodes := by
  unfold OobSys.queued
  rw [hp, List.drop_left]

/-- The entries do not change when the messages at the nodes do not. -/
theorem commandsAt_congr {s s' : OobState} {nodes : List OobNode}
    (h : ∀ n ∈ nodes, s'.itemAt n = s.itemAt n) : s'.commandsAt nodes = s.commandsAt nodes := by
  unfold OobState.commandsAt
  refine List.countP_congr fun n hn => ?_
  rw [h n hn]

/-- A node that is put into the fifo. -/
theorem queued_put {n : OobNode} (h : FifoInv x) (hputs : x'.puts = x.puts ++ [n])
    (htaken : x'.taken = x.taken) (hitem : ∀ m ∈ x.puts, x'.s.itemAt m = x.s.itemAt m) :
    x'.queued = x.queued + if x'.s.itemAt n = .fmessage then 1 else 0 := by
  obtain ⟨⟨nodes, -, hp⟩, -⟩ := h
  have hp' : x'.puts = x'.taken ++ (nodes ++ [n]) := by
    rw [hputs, htaken, hp, List.append_assoc]
  rw [queued_eq hp', queued_eq hp, ← commandsAt_congr fun m hm => hitem m ?_]
  · unfold OobState.commandsAt
    rw [List.countP_append, List.countP_singleton]
    simp only [decide_eq_true_eq]
  · rw [hp]
    exact List.mem_append_right _ hm

/-- The messages at the other nodes are not touched by an allocated one. -/
theorem itemAt_allocPut {s : OobState} {alloc : Bool} {item : OobItem} {puts : List OobNode}
    (h : ∀ id, OobNode.alloc id ∈ puts → id < s.fresh) :
    ∀ m ∈ puts, (kFifoAllocPut alloc item s).itemAt m = s.itemAt m := by
  intro m hm
  unfold kFifoAllocPut
  split
  · cases m with
    | alloc id =>
        have hne : id ≠ s.fresh := Nat.ne_of_lt (h id hm)
        simp only [OobState.itemAt, Function.update_of_ne hne]
    | sxStateQ => rfl
    | nwMgmtQ => rfl
  · rfl

theorem itemAt_fresh (s : OobState) (item : OobItem) :
    (kFifoAllocPut true item s).itemAt (.alloc s.fresh) = item := by
  simp [kFifoAllocPut, OobState.itemAt]

/-- An allocated node for a message that is no command. -/
theorem queued_allocPut {alloc : Bool} {item : OobItem} (h : FifoInv x) (hitem : item ≠ .fmessage)
    (hputs : x'.puts = x.puts ++ x.allocated alloc) (htaken : x'.taken = x.taken)
    (hs : x'.s.itemAt = (kFifoAllocPut alloc item x.s).itemAt) : x'.queued = x.queued := by
  have hsame : ∀ m ∈ x.puts, x'.s.itemAt m = x.s.itemAt m := fun m hm => by
    rw [hs]
    exact itemAt_allocPut h.fresh m hm
  cases alloc with
  | true =>
      rw [queued_put h hputs htaken hsame, hs, itemAt_fresh, if_neg hitem, Nat.add_zero]
  | false =>
      have hp : x'.puts = x.puts := hputs.trans (List.append_nil _)
      unfold OobSys.queued
      rw [hp, htaken]
      exact commandsAt_congr fun m hm => hsame m (List.mem_of_mem_drop hm)

/-! ### The steps of a command -/

/-- Behind the command the thread has taken stand those in the fifo. -/
theorem length_drop_pending {done pending : List Wanted} (h : CommandInv c x done pending) :
    (pending.drop x.s.ackDue.toNat).length = x.queued ∧ x.s.ackDue.toNat ≤ pending.length := by
  have hlen := h.length
  unfold OobSys.unacted at hlen
  rw [List.length_drop]
  omega

theorem pending_nil {done pending : List Wanted} (h : CommandInv c x done pending)
    (hz : ¬ 0 < x.unacted) : pending = [] :=
  List.length_eq_zero_iff.1 (by rw [h.length]; omega)

/-- A message that is no command. -/
theorem commandInv_ignored {done pending : List Wanted} {p : Processed} {alloc : Bool}
    (h : CommandInv c x done pending) (hp : p.msg = .ignore) (hd : ArrivesWell p alloc x)
    (hs : x'.s = mqttProcessReceive p alloc x.s) (hpub : x'.published = x.published)
    (hact : x'.acted = x.acted) (hputs : x'.puts = x.puts) (htaken : x'.taken = x.taken) :
    CommandInv c x' done pending := by
  have hs : x'.s = { x.s with
      nextMsg := p.nextMsg.getD x.s.nextMsg
      topicBuf := p.topicBuf.getD x.s.topicBuf } := by
    rw [hs]
    simp [mqttProcessReceive, hp]
  have hq : x'.queued = x.queued := by
    unfold OobSys.queued
    rw [hputs, htaken]
    exact commandsAt_congr fun m _ => by
      rw [hs]
      cases m <;> rfl
  by_cases hun : 0 < x.unacted
  · obtain ⟨hnext, htopic⟩ := hd.keeps hun
    refine h.same hpub hact hq ?_ ?_ ?_ ?_ fun _ => ?_
    · rw [hs]; exact hnext
    · rw [hs]; exact htopic
    all_goals rw [hs]
  · obtain rfl := pending_nil h hun
    refine ⟨hpub.trans h.published, hact ▸ h.acted, ?_, fun w hw => (by cases hw),
      fun _ w hw => (by cases hw), ?_⟩
    · unfold OobSys.unacted
      rw [hq, hs]
      exact h.length
    · rw [List.drop_nil]
      exact fun w hw => (by cases hw)

/-- **A command arrives.** -/
theorem commandInv_publish {done pending : List Wanted} {p : Processed} {m : Incoming}
    {stack : List UInt8} (hinv : FifoInv x) (h : CommandInv c x done pending)
    (hproc : processMessage c stack m = some p) (hp : p.msg ≠ .ignore)
    (hd : ArrivesWell p true x) (hs : x'.s = mqttProcessReceive p true x.s)
    (hpub : x'.published = x.published ++ [⟨p.msg, p.nextMsg.getD [], p.topicBuf.getD []⟩])
    (hact : x'.acted = x.acted) (hputs : x'.puts = x.puts ++ [.alloc x.s.fresh])
    (htaken : x'.taken = x.taken) :
    CommandInv c x' done (pending ++ [⟨p.msg, p.nextMsg.getD [], p.topicBuf.getD []⟩]) := by
  obtain ⟨hcmd, hnext, htopic⟩ := processMessage_command hproc hp
  obtain ⟨text, htext⟩ := Option.isSome_iff_exists.1 hnext
  have hs : x'.s = kFifoAllocPut true .fmessage { x.s with
      nextMsg := p.nextMsg.getD x.s.nextMsg
      topicBuf := p.topicBuf.getD x.s.topicBuf
      fmessage := p.msg } := by
    rw [hs]
    simp only [mqttProcessReceive, ne_eq, hp, not_false_eq_true, if_true]
  have hq : x'.queued = x.queued + 1 := by
    rw [queued_put hinv hputs htaken fun m hm => ?_, hs]
    · rw [if_pos (itemAt_fresh _ _)]
    · rw [hs]
      refine (itemAt_allocPut ?_ m hm).trans ?_
      · exact hinv.fresh
      · cases m <;> rfl
  have hnextMsg : x'.s.nextMsg = p.nextMsg.getD x.s.nextMsg := by rw [hs]; rfl
  have htopicBuf : x'.s.topicBuf = p.topicBuf.getD x.s.topicBuf := by rw [hs]; rfl
  have hfmessage : x'.s.fmessage = p.msg := by rw [hs]; rfl
  have hdue : x'.s.ackDue = x.s.ackDue := by rw [hs]; rfl
  have hcurrent : x'.s.current = x.s.current := by rw [hs]; rfl
  refine ⟨?_, hact ▸ h.acted, ?_, fun w hw => ?_, fun hack w hw => ?_, fun w hw => ?_⟩
  · rw [hpub, h.published, List.append_assoc]
  · unfold OobSys.unacted
    rw [List.length_append, h.length, hq, hdue]
    unfold OobSys.unacted
    simp only [List.length_singleton]
    omega
  · rcases List.mem_append.1 hw with hw | hw
    · have hun : 0 < x.unacted := by
        rw [← h.length]
        exact List.length_pos_of_mem hw
      obtain ⟨hkn, hkt⟩ := hd.keeps hun
      obtain ⟨hc, ht, hto⟩ := h.waits w hw
      refine ⟨hc, ?_, fun after => ?_⟩
      · rw [hnextMsg, hkn]; exact ht
      · rw [htopicBuf, hkt]; exact hto after
    · rw [List.mem_singleton.1 hw]
      refine ⟨hcmd, ?_, fun after => ?_⟩
      · rw [hnextMsg, htext]
        rfl
      · rw [htopicBuf]
        exact htopic _ after
  · rw [hdue] at hack
    rw [hcurrent]
    have hlen : 0 < pending.length := by
      rw [h.length]
      unfold OobSys.unacted
      rw [hack]
      exact Nat.succ_pos _
    obtain ⟨w', rest, rfl⟩ := List.exists_cons_of_length_pos hlen
    exact h.due hack w hw
  · obtain ⟨hlen, hle⟩ := length_drop_pending h
    rw [hdue, List.drop_append_of_le_length hle] at hw
    rw [hfmessage]
    rcases List.mem_append.1 hw with hw | hw
    · have hqpos : 0 < x.queued := by
        rw [← hlen]
        exact List.length_pos_of_mem hw
      rw [h.kind w hw, hd.kind hqpos hp]
    · rw [List.mem_singleton.1 hw]

/-- The thread takes the first node of the fifo. -/
theorem oobStep_get (hinv : FifoInv x) (hstep : oobStep c .get x = some x') :
    ∃ n nodes q, x.s.ackDue = false ∧ x.puts = x.taken ++ n :: nodes ∧
      x' = { x with s := x.s.take n q, taken := x.taken ++ [n] } := by
  obtain ⟨⟨hidle, -, -⟩, hstep⟩ := Option.ite_none_right_eq_some.1 hstep
  obtain ⟨⟨n, q⟩, hget, rfl⟩ := Option.map_eq_some_iff.1 hstep
  obtain ⟨⟨nodes, hh, hp⟩, -⟩ := hinv
  cases nodes with
  | nil =>
      rw [hh.get_nil] at hget
      cases hget
  | cons m nodes =>
      obtain ⟨q', hq', -⟩ := hh.get
      rw [hq'] at hget
      obtain ⟨rfl, rfl⟩ := Prod.mk.inj (Option.some.inj hget)
      exact ⟨m, nodes, q', hidle, hp, rfl⟩

/-- A node that is taken from the fifo. -/
theorem queued_take {n : OobNode} {nodes : List OobNode} {q : LinkedQueue OobNode}
    (hp : x.puts = x.taken ++ n :: nodes) :
    x.queued = OobSys.queued { x with s := x.s.take n q, taken := x.taken ++ [n] } +
      if x.s.itemAt n = .fmessage then 1 else 0 := by
  have hp' : x.puts = (x.taken ++ [n]) ++ nodes := by
    rw [hp, List.append_assoc]
    rfl
  rw [queued_eq hp,
    queued_eq (x := { x with s := x.s.take n q, taken := x.taken ++ [n] }) hp']
  have hsame : ∀ m ∈ nodes, (x.s.take n q).itemAt m = x.s.itemAt m := fun m _ => by
    cases m <;> rfl
  rw [commandsAt_congr hsame]
  unfold OobState.commandsAt
  rw [List.countP_cons]
  simp only [decide_eq_true_eq]

/-- **The thread takes a message.** -/
theorem commandInv_get {done pending : List Wanted} (hinv : FifoInv x)
    (h : CommandInv c x done pending) (hstep : oobStep c .get x = some x') :
    CommandInv c x' done pending := by
  obtain ⟨n, nodes, q, hidle, hp, rfl⟩ := oobStep_get hinv hstep
  have hq := queued_take (q := q) hp
  have hlen := h.length
  have hkind := h.kind
  unfold OobSys.unacted at hlen
  rw [hidle] at hlen hkind
  by_cases hn : x.s.itemAt n = .fmessage
  · -- an entry for a command: the first of those that wait is the one that is taken
    have htype : x.s.typeOf (x.s.itemAt n) = x.s.fmessage := by rw [hn]; rfl
    rw [if_pos hn] at hq
    obtain ⟨w, rest, rfl⟩ := List.exists_cons_of_length_pos (l := pending) (by omega)
    have hw : w.msg = x.s.fmessage := hkind w List.mem_cons_self
    have hdue : (x.s.take n q).ackDue = true := by
      simp only [OobState.take, htype, ← hw]
      exact (h.waits w List.mem_cons_self).isCommand
    refine ⟨h.published, h.acted, ?_, fun w' hw' => ?_, fun _ w' hw' => ?_, fun w' hw' => ?_⟩
    · unfold OobSys.unacted
      simp only [hdue, Bool.toNat_true, Bool.toNat_false] at hlen ⊢
      omega
    · obtain ⟨hc, ht, hto⟩ := h.waits w' hw'
      exact ⟨hc, ht, hto⟩
    · cases hw'
      simp only [OobState.take, htype]
      exact hw.symm
    · exact hkind w' (List.mem_of_mem_drop hw')
  · have hnot : (x.s.typeOf (x.s.itemAt n)).isCommand = false := by
      cases hi : x.s.itemAt n with
      | fmessage => exact absurd hi hn
      | _ => rfl
    rw [if_neg hn, Nat.add_zero] at hq
    refine h.same rfl rfl hq.symm rfl rfl rfl ?_ fun hack => ?_
    · rw [hidle]
      exact hnot
    · rw [hidle] at hack
      cases hack

/-- **The thread acknowledges a command.** -/
theorem commandInv_ack {done pending : List Wanted} {after : List UInt8}
    (h : CommandInv c x done pending) (hstep : oobStep c (.ack after) x = some x') :
    ∃ w rest, pending = w :: rest ∧ CommandInv c x' (done ++ [w]) rest := by
  obtain ⟨hack, hstep⟩ := Option.ite_none_right_eq_some.1 hstep
  cases hstep
  obtain ⟨hlen, hle⟩ := length_drop_pending h
  rw [hack] at hlen hle
  obtain ⟨w, rest, rfl⟩ := List.exists_cons_of_length_pos hle
  obtain ⟨hcmd, htext, htopic⟩ := h.waits w List.mem_cons_self
  refine ⟨w, rest, rfl, ?_, ?_, ?_, fun w' hw' => ?_, fun hd => (by cases hd), fun w' hw' => ?_⟩
  · rw [h.published, List.append_assoc]
    rfl
  · refine List.rel_append h.acted (.cons ⟨?_, htext, htopic after⟩ .nil)
    exact h.due hack w rfl
  · exact hlen
  · obtain ⟨hc, ht, hto⟩ := h.waits w' (List.mem_cons_of_mem _ hw')
    exact ⟨hc, ht, hto⟩
  · refine h.kind w' ?_
    rw [hack]
    exact hw'

/-- The power of the host changes. -/
theorem commandInv_sx {done pending : List Wanted} {event : SxEvent} (hinv : FifoInv x)
    (h : CommandInv c x done pending) (hstep : oobStep c (.sx event) x = some x') :
    CommandInv c x' done pending := by
  cases hstep
  have hitem : ∀ m, (oobSxHandler event x.s).itemAt m = x.s.itemAt m := fun m => by
    rw [oobSxHandler_eq]
    cases m <;> rfl
  refine h.same rfl rfl ?_ ?_ ?_ ?_ ?_ fun _ => ?_
  · refine (queued_put (n := .sxStateQ) hinv ?_ ?_ fun m _ => hitem m).trans ?_
    · rfl
    · rfl
    · rfl
  all_goals rw [oobSxHandler_eq]

/-- The network changes; only its loss is put into the fifo. -/
theorem commandInv_l2 {done pending : List Wanted} {mgmtEvent : NetEvent} (hinv : FifoInv x)
    (h : CommandInv c x done pending) (hstep : oobStep c (.l2 mgmtEvent) x = some x') :
    CommandInv c x' done pending := by
  cases hstep
  cases mgmtEvent with
  | ifDown =>
      refine h.same rfl rfl ?_ rfl rfl rfl rfl fun _ => rfl
      refine (queued_put (n := .nwMgmtQ) hinv ?_ ?_ fun m _ => ?_).trans ?_
      · rfl
      · rfl
      · cases m <;> rfl
      · rfl
  | _ =>
      refine h.same rfl rfl ?_ rfl rfl rfl rfl fun _ => rfl
      unfold OobSys.queued
      simp only [reduceCtorEq, if_false, List.append_nil]
      exact commandsAt_congr fun m _ => by cases m <;> rfl

/-! ### Runs -/

/-- **Every disciplined step keeps the invariant.** -/
theorem commandInv_step {done pending : List Wanted} (hinv : FifoInv x)
    (h : CommandInv c x done pending) (hd : CommandDiscipline c x l)
    (hstep : oobStep c l x = some x') : ∃ done' pending', CommandInv c x' done' pending' := by
  cases l with
  | publish m stack alloc =>
      obtain ⟨p, hproc, rfl⟩ := Option.map_eq_some_iff.1 hstep
      have harr := hd.publish m stack alloc p rfl hproc
      by_cases hp : p.msg = .ignore
      · refine ⟨done, pending, commandInv_ignored h hp harr rfl ?_ rfl ?_ rfl⟩
        · simp [hp]
        · simp [hp]
      · obtain rfl := harr.alloc hp
        refine ⟨done, _, commandInv_publish hinv h hproc hp harr rfl ?_ rfl ?_ rfl⟩
        · simp only [ne_eq, hp, not_false_eq_true, if_true]
        · simp only [ne_eq, hp, not_false_eq_true, if_true]
          rfl
  | sx event => exact ⟨done, pending, commandInv_sx hinv h hstep⟩
  | l2 mgmtEvent => exact ⟨done, pending, commandInv_l2 hinv h hstep⟩
  | powerTransExpiry alloc =>
      obtain ⟨-, hstep⟩ := Option.ite_none_right_eq_some.1 hstep
      cases hstep
      refine ⟨done, pending, h.same rfl rfl ?_ ?_ ?_ ?_ ?_ fun _ => ?_⟩
      · refine @queued_allocPut x _ alloc .sxTimerQ hinv (by decide) rfl rfl ?_
        funext m
        cases m <;> rfl
      all_goals cases alloc <;> rfl
  | tlsSessionExpiry alloc =>
      cases hstep
      refine ⟨done, pending, h.same rfl rfl ?_ ?_ ?_ ?_ ?_ fun _ => ?_⟩
      · exact @queued_allocPut x _ alloc .tlsStateQ hinv (by decide) rfl rfl rfl
      all_goals cases alloc <;> rfl
  | pingreqExpiry alloc =>
      cases hstep
      refine ⟨done, pending, h.same rfl rfl ?_ ?_ ?_ ?_ ?_ fun _ => ?_⟩
      · exact @queued_allocPut x _ alloc .mqttStateQ hinv (by decide) rfl rfl rfl
      all_goals cases alloc <;> rfl
  | get => exact ⟨done, pending, commandInv_get hinv h hstep⟩
  | ack after =>
      obtain ⟨w, rest, -, h'⟩ := commandInv_ack h hstep
      exact ⟨_, _, h'⟩
  | work result =>
      obtain ⟨-, hstep⟩ := Option.ite_none_right_eq_some.1 hstep
      obtain ⟨op, -, rfl⟩ := Option.map_eq_some_iff.1 hstep
      refine ⟨done, pending, h.same rfl rfl ?_ ?_ ?_ ?_ ?_ fun _ => ?_⟩
      · exact commandsAt_congr fun m _ => by cases op <;> cases m <;> rfl
      all_goals cases op <;> rfl

/-- **Every command is acted on once, in order, as what it is**, in every disciplined run. -/
theorem commandsOk_of_disciplined (c : Credentials) (x : OobSys)
    (h : Lts.Reach OobInit (oobStep c) (CommandDiscipline c) x) : CommandsOk c x := by
  have hinv : FifoInv x ∧ ∃ done pending, CommandInv c x done pending := by
    refine Lts.Reach.invariant
      (I := fun x => FifoInv x ∧ ∃ done pending, CommandInv c x done pending)
      (fun _ h₀ => ⟨fifoInv_init h₀, [], [], commandInv_init h₀⟩) ?_ h
    rintro y l y' ⟨hfifo, done, pending, hcmd⟩ hd hstep
    exact ⟨fifoInv_step hfifo hd.fifo hstep, commandInv_step hfifo hcmd hd hstep⟩
  obtain ⟨-, done, pending, hcmd⟩ := hinv
  exact ⟨done, pending, hcmd.published, hcmd.acted, hcmd.length⟩

/-- Two commands from the cloud. -/
def rebootOne : Incoming :=
  ⟨CStr.bytes "$iothub/methods/POST/reboot_device/?$rid=1", [], [], []⟩
def powerdownTwo : Incoming :=
  ⟨CStr.bytes "$iothub/methods/POST/powerdown_device/?$rid=2", [], [], []⟩

/-- A command is received, taken and acknowledged, and then a second one is received. -/
theorem commandsOk_one_by_one :
    ∃ x, Lts.Reach OobInit (oobStep azureCredentials) (CommandDiscipline azureCredentials) x ∧
      x.acted.map Acted.msg = [.reboot] ∧ x.published.map Wanted.msg = [.reboot, .poweroff] ∧
      CommandsOk azureCredentials x := by
  obtain ⟨x, hx, hacted, hpub⟩ :
      ∃ x, Lts.Reach OobInit (oobStep azureCredentials) (CommandDiscipline azureCredentials) x ∧
        x.acted.map Acted.msg = [OobMessage.reboot] ∧
        x.published.map Wanted.msg = [OobMessage.reboot, .poweroff] :=
    Lts.exists_reach_guarded oobInit_idle
      [.publish rebootOne [] true, .get, .ack [], .publish powerdownTwo [] true] _
      (by decide +kernel)
  exact ⟨x, hx, hacted, hpub, commandsOk_of_disciplined azureCredentials x hx⟩

/-- Two commands are received before the first one is taken: it is acted on as the second one. -/
theorem not_commandsOk_two :
    ¬ ∀ x, Lts.Reach OobInit (oobStep azureCredentials) Lts.Free x →
      CommandsOk azureCredentials x := by
  intro h
  obtain ⟨x, hx, hacted, hpub⟩ :
      ∃ x, Lts.Reach OobInit (oobStep azureCredentials) Lts.Free x ∧
        x.acted.map Acted.msg = [OobMessage.poweroff] ∧
        x.published.map Wanted.msg = [OobMessage.reboot, .poweroff] :=
    Lts.exists_reach oobInit_idle
      [.publish rebootOne [] true, .publish powerdownTwo [] true, .get, .ack []] _
      (by decide +kernel)
  obtain ⟨done, pending, hsplit, hall, -⟩ := h x hx
  rw [hsplit] at hpub
  generalize x.acted = acted at hall hacted
  cases hall with
  | nil => cases hacted
  | cons hmatch _ =>
      have hw := (List.cons.inj hpub).1
      have ha := (List.cons.inj hacted).1
      rw [hmatch.msg, hw] at ha
      cases ha

end PseFw.Oob
