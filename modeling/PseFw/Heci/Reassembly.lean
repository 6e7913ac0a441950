/-
**Reassembly of the messages from the host.**

The host cuts a message into fragments and marks the last one.  What a client is told about should
be one whole message of the host: the payloads of all fragments since the last one that ended a
message.

Three things break this.  A message that is too long for the client is given up at the fragment that
does not fit, and then the client is told about it if that fragment is the last one, and the rest of
the message is taken for a message of its own if it is not.  A message whose first fragments were
refused, because the client had not yet given its buffer back, is taken from the middle on when it
has.  And a buffer that is given back in the middle of a message loses what was received.

Main definitions:

* `PseFw.Heci.hostMsg` — what the host has sent of a message it is in the middle of;
* `PseFw.Heci.Delivered` — what is wanted of a notification;
* `PseFw.Heci.MayTake`, `PseFw.Heci.MsgDiscipline` — the discipline;
* `PseFw.Heci.Reassembling` — the invariant: the buffer of a message holds what the host has sent.

Main results:

* `PseFw.Heci.reassembling_effect` — every disciplined step keeps the invariant;
* `PseFw.Heci.delivered_of_disciplined` — **in every disciplined run the client is told about whole
  messages of the host, and only about messages that fit**.
-/

import PseFw.Heci.RxBuffer

set_option relaxedAutoImplicit false
set_option autoImplicit false

namespace PseFw.Heci

/-! ### The messages of the host -/

/-- What an event does to the message the host is in the middle of. -/
def hostMsgStep (c : ConnId) (m : List UInt8) : Event → List UInt8
  | .opened d _ => if d = c then [] else m
  | .fragment d payload lastFrag =>
      if d = c then (if lastFrag then [] else m ++ payload) else m
  | _ => m

/-- **What the host has sent** of the message it is in the middle of: the payloads of all fragments
for the connection since the last fragment that ended a message. -/
def hostMsg (c : ConnId) (s : HeciDev) : List UInt8 := s.events.foldl (hostMsgStep c) []

theorem hostMsg_of_append {s s' : HeciDev} {evs : List Event} (h : s'.events = s.events ++ evs)
    (c : ConnId) : hostMsg c s' = evs.foldl (hostMsgStep c) (hostMsg c s) := by
  rw [hostMsg, h, List.foldl_append]
  rfl

/-- The events that say nothing about the messages to the connection. -/
def Event.NotFor (c : ConnId) : Event → Prop
  | .fragment d _ _ | .opened d _ => d ≠ c
  | _ => True

theorem Event.Silent.notFor {e : Event} (h : e.Silent) (c : ConnId) : e.NotFor c := by
  cases e with
  | fragment _ _ _ => exact h.elim
  | opened _ _ => exact h.elim
  | _ => exact trivial

theorem foldl_hostMsgStep {c : ConnId} {evs : List Event} (h : ∀ e ∈ evs, e.NotFor c)
    (m : List UInt8) : evs.foldl (hostMsgStep c) m = m := by
  induction evs generalizing m with
  | nil => rfl
  | cons e evs ih =>
      have hstep : hostMsgStep c m e = m := by
        have he := h e (List.mem_cons_self ..)
        cases e with
        | opened d i => exact if_neg he
        | fragment d data last => exact if_neg he
        | _ => rfl
      rw [List.foldl_cons, hstep]
      exact ih (fun e' he' => h e' (List.mem_cons_of_mem _ he')) m

/-- A step with such events leaves the message of the host alone. -/
theorem hostMsg_eq {s s' : HeciDev} {c : ConnId} {evs : List Event}
    (h : s'.events = s.events ++ evs) (he : ∀ e ∈ evs, e.NotFor c) :
    hostMsg c s' = hostMsg c s := by
  rw [hostMsg_of_append h, foldl_hostMsgStep he]

theorem RxQuiet.hostMsg {s s' : HeciDev} (h : RxQuiet s s') (c : ConnId) :
    hostMsg c s' = hostMsg c s := by
  obtain ⟨evs, he, hev⟩ := h.events
  exact hostMsg_eq he fun e hmem => (hev e hmem).notFor c

/-! ### What is wanted -/

/-- The step tells the client of the connection about a new message. -/
def Told (s s' : HeciDev) (c : ConnId) : Prop :=
  ∃ cb param, Event.notify c cb param .newMsg ∈ s'.events.drop s.events.length

/-- A message of the given length is not too long for the client of the connection. -/
def Fits (s : HeciDev) (c : ConnId) (n : ℕ) : Prop :=
  ∀ i ∈ (s.connections c).client, n ≤ (s.clients i).properties.rxBufferLen ∧
    n ≤ (s.clients i).properties.maxMsgSize

/-- **Whole messages are delivered**: when a client is told that its buffer holds a request, the
buffer is locked and holds all that the host has sent of a message the call has just ended, and the
message fits. -/
def Delivered (s : HeciDev) (l : Call) (s' : HeciDev) : Prop :=
  ∀ c, Told s s' c → ∃ i p, (s'.connections c).client = some i ∧
    (s'.clients i).properties.rxMsg = some p ∧
      ((s'.rxMsgs p).type = .request → (s'.rxMsgs p).msgLock = true ∧
        ∃ msg, l = .op (.recv msg) ∧ msg.hdr.lastFrag = true ∧ fragmentConn msg s = some c ∧
          (s'.rxMsgs p).bytes = hostMsg c s ++ msg.payload ∧ Fits s' c (s'.rxMsgs p).length)

/-! ### The discipline -/

/-- The client of the connection has given its buffer back. -/
def BufferFree (s : HeciDev) (c : ConnId) : Prop :=
  ∀ i ∈ (s.connections c).client, ∀ p ∈ (s.clients i).properties.rxMsg,
    (s.rxMsgs p).msgLock = false

/-- A fragment that begins a message for the layer begins it for the host too, and a fragment that
ends a message for the layer ends one that fits. -/
def MayTake (s : HeciDev) (c : ConnId) (msg : HeciBusMsg) : Prop :=
  (¬ Processing s c → BufferFree s c → hostMsg c s = []) ∧
    (msg.hdr.lastFrag = true → Processing s c ∨ BufferFree s c →
      Fits s c ((hostMsg c s).length + msg.payload.length))

/-- Only fragments that may be taken arrive. -/
def MayArrive (s : HeciDev) : Call → Prop
  | .op (.recv msg) => ∀ c ∈ fragmentConn msg s, MayTake s c msg
  | _ => True

/-- **The discipline.** -/
def MsgDiscipline (s : HeciDev) (l : Call) : Prop := MayRelease s l ∧ MayArrive s l

instance (s : HeciDev) (c : ConnId) (n : ℕ) : Decidable (Fits s c n) :=
  inferInstanceAs (Decidable (∀ _ ∈ (s.connections c).client, _))

instance (s : HeciDev) (c : ConnId) : Decidable (BufferFree s c) :=
  inferInstanceAs (Decidable (∀ _ ∈ (s.connections c).client, _))

instance (s : HeciDev) (c : ConnId) (msg : HeciBusMsg) : Decidable (MayTake s c msg) :=
  inferInstanceAs (Decidable (_ ∧ _))

instance (s : HeciDev) (l : Call) : Decidable (MayArrive s l) :=
  match l with
  | .op (.recv msg) => inferInstanceAs (Decidable (∀ c ∈ fragmentConn msg s, MayTake s c msg))
  | .op (.register _) | .op (.sendFlowControl _) | .op (.completeDisconnect _) | .op .reset
  | .send _ _ => isTrue trivial

instance (s : HeciDev) (l : Call) : Decidable (MsgDiscipline s l) :=
  inferInstanceAs (Decidable (_ ∧ _))

/-! ### The invariant -/

/-- The buffer of the connection holds what the host has sent of its message. -/
def Pending (s : HeciDev) (c : ConnId) : Prop :=
  ∃ p, (s.connections c).rxBuffer = some p ∧ (s.rxMsgs p).bytes = hostMsg c s ∧
    Fits s c (hostMsg c s).length

/-- **The invariant**: so it is in the middle of every message. -/
def Reassembling (s : HeciDev) : Prop := ∀ c, (s.connections c).state = 3 → Pending s c

/-- The connection, its buffer and its message are as before. -/
theorem Pending.frame {s s' : HeciDev} {c : ConnId} (h : Pending s c) (hR : RxCore s)
    (hst : (s.connections c).state = 3)
    (hcl : (s'.connections c).client = (s.connections c).client)
    (hrx : (s'.connections c).rxBuffer = (s.connections c).rxBuffer)
    (hbuf : ∀ p, (s.connections c).rxBuffer = some p → s'.rxMsgs p = s.rxMsgs p)
    (hkeep : KeepsClients s s') (hmsg : hostMsg c s' = hostMsg c s) : Pending s' c := by
  obtain ⟨p, hp, hb, hfit⟩ := h
  refine ⟨p, hrx.trans hp, by rw [hbuf p hp, hb, hmsg], fun i hi => ?_⟩
  have hi' : (s.connections c).client = some i := hcl.symm.trans hi
  obtain ⟨j, hj, hreg, -⟩ := hR.pointer c p ⟨used_of_processing hst, hp⟩
  cases hi'.symm.trans hj
  obtain ⟨-, hprop⟩ := hkeep i hreg
  rw [hprop, hmsg]
  exact hfit i hi'

theorem Reassembling.quiet {s s' : HeciDev} (h : Reassembling s) (hR : RxCore s)
    (hq : RxQuiet s s') : Reassembling s' := by
  intro c hc
  have hc' := (hq.connections c).processing hc
  have hused := used_of_processing hc'
  exact (h c hc').frame hR hc' ((hq.connections c).client hused)
    ((hq.connections c).rxBuffer hused) (fun p _ => by rw [hq.rxMsgs]) hq.clients (hq.hostMsg c)

/-- One connection changes, and no buffer into which another message is received. -/
theorem Reassembling.frame {s s' : HeciDev} (h : Reassembling s) (hR : RxCore s) {c : ConnId}
    (hco : ∀ d, d ≠ c → s'.connections d = s.connections d)
    (hbuf : ∀ d q, d ≠ c → (s.connections d).state = 3 → (s.connections d).rxBuffer = some q →
      s'.rxMsgs q = s.rxMsgs q)
    (hkeep : KeepsClients s s') (hmsg : ∀ d, d ≠ c → hostMsg d s' = hostMsg d s)
    (hc : (s'.connections c).state = 3 → Pending s' c) : Reassembling s' := by
  intro d hd
  by_cases hdc : d = c
  · subst hdc
    exact hc hd
  · rw [hco d hdc] at hd
    exact (h d hd).frame hR hd (by rw [hco d hdc]) (by rw [hco d hdc])
      (fun q hq => hbuf d q hdc hd hq) hkeep (hmsg d hdc)

/-- **One connection and one buffer change**, into which no other message is received. -/
theorem Reassembling.update {s s' : HeciDev} (h : Reassembling s) (hR : RxCore s) {c : ConnId}
    {p : RxPtr} (hco : ∀ d, d ≠ c → s'.connections d = s.connections d)
    (hrx : ∀ q, q ≠ p → s'.rxMsgs q = s.rxMsgs q) (hkeep : KeepsClients s s')
    (hmsg : ∀ d, d ≠ c → hostMsg d s' = hostMsg d s)
    (hother : ∀ d, d ≠ c → (s.connections d).state = 3 → (s.connections d).rxBuffer ≠ some p)
    (hc : (s'.connections c).state = 3 → Pending s' c) : Reassembling s' :=
  h.frame hR hco (fun d q hd hd3 hq => hrx q fun hqp => hother d hd hd3 (hqp ▸ hq)) hkeep hmsg hc

/-! ### A fragment -/

section fragment

variable {P : Platform} {msg : HeciBusMsg} {s s₁ s₂ : HeciDev} {c : ConnId} {i : ClientId}
  {p : RxPtr}

/-- The state after the fragment is in the trace. -/
abbrev logFragment (c : ConnId) (msg : HeciBusMsg) (s : HeciDev) : HeciDev :=
  s.log (.fragment c msg.payload msg.hdr.lastFrag)

theorem hostMsg_logFragment_of_ne {d : ConnId} (hd : d ≠ c) (s : HeciDev) :
    hostMsg d (logFragment c msg s) = hostMsg d s :=
  hostMsg_eq rfl (by simpa [Event.NotFor] using hd.symm)

theorem hostMsg_logFragment (hlast : msg.hdr.lastFrag = false) (s : HeciDev) :
    hostMsg c (logFragment c msg s) = hostMsg c s ++ msg.payload := by
  rw [hostMsg_of_append rfl]
  simp [hostMsgStep, hlast]

/-- What a fragment that finds its buffer leaves alone. -/
theorem accept_frame (h : AcceptCase s c i p s₁) :
    s₁.clients = s.clients ∧ s₁.events = s.events ∧ (∀ q, q ≠ p → s₁.rxMsgs q = s.rxMsgs q) ∧
      (∀ d, d ≠ c → s₁.connections d = s.connections d) ∧
        (s₁.connections c).client = (s.connections c).client := by
  cases h with
  | next _ _ => exact ⟨rfl, rfl, fun _ _ => rfl, fun _ _ => rfl, rfl⟩
  | first _ _ _ =>
      refine ⟨rfl, rfl, fun q hq => ?_, fun d hd => ?_, by simp⟩
      · simp [Function.update_of_ne hq]
      · simp [Function.update_of_ne hd]

/-- What copying a fragment leaves alone. -/
theorem copy_frame (h : CopyCase P s c i p msg.payload s₂) :
    s₂.clients = s.clients ∧ (∀ q, q ≠ p → s₂.rxMsgs q = s.rxMsgs q) ∧
      (∀ d, d ≠ c → s₂.connections d = s.connections d) ∧
        (s₂.connections c).client = (s.connections c).client ∧
          ∃ evs, s₂.events = s.events ++ evs ∧ ∀ e ∈ evs, e.Silent := by
  cases h with
  | copied b _ _ =>
      exact ⟨rfl, fun q hq => by simp [Function.update_of_ne hq], fun _ _ => rfl, rfl, [], by simp,
        by simp⟩
  | oversize _ =>
      have hio : RxQuiet s (heciConnectionError P c s) :=
        (RxQuiet.refl s).io (ioStep_busReply P (by decide) s)
      refine ⟨by simp [heciConnectionError], fun q hq => ?_, fun d hd => ?_, by simp, hio.events⟩
      · simp [heciConnectionError, Function.update_of_ne hq]
      · simp [heciConnectionError, Function.update_of_ne hd]

/-- The buffer a fragment goes to holds what the host has sent before it. -/
theorem accept_bytes (hT : TableInv s) (hR : RxCore s) (h : Reassembling s)
    (hi : (s.connections c).client = some i) (htake : MayTake s c msg)
    (hacc : AcceptCase (logFragment c msg s) c i p s₁) :
    (s₁.rxMsgs p).bytes = hostMsg c s ∧ (s₁.rxMsgs p).msgLock = true ∧
      (s₁.clients i).properties.rxMsg = some p ∧ (Processing s c ∨ BufferFree s c) := by
  cases hacc with
  | first hst hp hl =>
      have hnot : ¬ Processing s c := by
        intro hproc
        have := (hT.conns c).processing_iff.1 hproc
        rw [show (s.connections c).state = 1 from hst] at this
        exact absurd this (by decide)
      have hfree : BufferFree s c := by
        intro j hj q hq
        cases hi.symm.trans hj
        cases (show (s.clients i).properties.rxMsg = some p from hp).symm.trans hq
        exact hl
      rw [htake.1 hnot hfree]
      exact ⟨by simp [HeciRxMsg.bytes], by simp, hp, Or.inr hfree⟩
  | next hst hp =>
      obtain ⟨q, hq, hb, -⟩ := h c hst
      cases (show (s.connections c).rxBuffer = some p from hp).symm.trans hq
      obtain ⟨q, hq', hl⟩ := hR.processing c hst
      cases hq.symm.trans hq'
      obtain ⟨j, hj, -, hjp⟩ := hR.pointer c p ⟨used_of_processing hst, hq⟩
      cases hi.symm.trans hj
      exact ⟨hb, hl, hjp, Or.inl ((hT.conns c).processing_iff.2 hst)⟩

/-- A fragment that fits is appended. -/
theorem copied_bytes {b : ℕ → UInt8} (hsize : (s.clients i).properties.maxMsgSize ≤ heciMaxMsgSize)
    (hfit : ¬ Oversize s i p msg.payload.length) (hb : (s.rxMsgs p).buffer = some b) :
    (HeciRxMsg.bytes { s.rxMsgs p with
      buffer := some (memcpyTo b (s.rxMsgs p).length msg.payload)
      length := ((s.rxMsgs p).length + msg.payload.length) % 2 ^ 16
      type := .request
      connectionId := (s.connections c).connectionId }) =
        (s.rxMsgs p).bytes ++ msg.payload := by
  refine HeciRxMsg.bytes_append hb ?_ rfl rfl
  unfold Oversize at hfit
  simp only [heciMaxMsgSize] at hsize
  omega

/-- **What a fragment that is taken leaves alone.**  It tells nobody but the client of its
connection, and only when it is the last one. -/
structure TakenFrame (msg : HeciBusMsg) (c : ConnId) (p : RxPtr) (s s' : HeciDev) : Prop where
  clients : s'.clients = s.clients
  rxMsgs : ∀ q, q ≠ p → s'.rxMsgs q = s.rxMsgs q
  connections : ∀ d, d ≠ c → s'.connections d = s.connections d
  client : (s'.connections c).client = (s.connections c).client
  events : ∃ evs, s'.events = s.events ++ .fragment c msg.payload msg.hdr.lastFrag :: evs ∧
    ∀ e ∈ evs, e.Silent ∨ (msg.hdr.lastFrag = true ∧ ∃ cb param, e = .notify c cb param .newMsg)

theorem taken_frame (hacc : AcceptCase (logFragment c msg s) c i p s₁)
    (hcopy : CopyCase P s₁ c i p msg.payload s₂) :
    TakenFrame msg c p s (if msg.hdr.lastFrag then finishFragment c s₂ else s₂) := by
  obtain ⟨hcl₁, hev₁, hrx₁, hco₁, hc₁⟩ := accept_frame hacc
  obtain ⟨hcl₂, hrx₂, hco₂, hc₂, evs, hev₂, hsil⟩ := copy_frame hcopy
  have hev : s₂.events = s.events ++ Event.fragment c msg.payload msg.hdr.lastFrag :: evs := by
    rw [hev₂, hev₁]
    simp
  have hrx : ∀ q, q ≠ p → s₂.rxMsgs q = s.rxMsgs q := fun q hq => (hrx₂ q hq).trans (hrx₁ q hq)
  have hco : ∀ d, d ≠ c → s₂.connections d = s.connections d :=
    fun d hd => (hco₂ d hd).trans (hco₁ d hd)
  split
  · next hlast =>
      refine ⟨hcl₂.trans hcl₁, hrx, fun d hd => ?_, ?_, evs ++ [Event.notify c
        (s₂.connections c).eventCb (s₂.connections c).param .newMsg], ?_, fun e he => ?_⟩
      · simpa [finishFragment, heciNotifyClient, Function.update_of_ne hd] using hco d hd
      · simpa [finishFragment, heciNotifyClient] using hc₂.trans hc₁
      · simp [finishFragment, heciNotifyClient, hev]
      · rcases List.mem_append.1 he with he | he
        · exact Or.inl (hsil e he)
        · exact Or.inr ⟨hlast, _, _, List.mem_singleton.1 he⟩
  · exact ⟨hcl₂.trans hcl₁, hrx, hco, hc₂.trans hc₁, evs, hev, fun e he => Or.inl (hsil e he)⟩

theorem TakenFrame.hostMsg_of_ne {s' : HeciDev} (h : TakenFrame msg c p s s') {d : ConnId}
    (hd : d ≠ c) : hostMsg d s' = hostMsg d s := by
  obtain ⟨evs, he, hev⟩ := h.events
  refine hostMsg_eq he fun e hmem => ?_
  rcases List.mem_cons.1 hmem with rfl | hmem
  · exact hd.symm
  · rcases hev e hmem with hsil | ⟨-, cb, param, rfl⟩
    · exact hsil.notFor d
    · exact trivial

/-- In the middle of a message, the buffer grows with what the host sends. -/
theorem TakenFrame.hostMsg_self {s' : HeciDev} (h : TakenFrame msg c p s s')
    (hlast : msg.hdr.lastFrag = false) : hostMsg c s' = hostMsg c s ++ msg.payload := by
  obtain ⟨evs, he, hev⟩ := h.events
  rw [← hostMsg_logFragment hlast s]
  have hlog : s'.events = (s.log (.fragment c msg.payload msg.hdr.lastFrag)).events ++ evs := by
    rw [he]
    simp
  refine hostMsg_eq hlog fun e hmem => ?_
  · rcases hev e hmem with hsil | ⟨htrue, -⟩
    · exact hsil.notFor c
    · rw [hlast] at htrue
      cases htrue

/-- No other message is received into the buffer a fragment goes to. -/
theorem accept_other (hR : RxCore s) (hacc : AcceptCase (logFragment c msg s) c i p s₁)
    (d : ConnId) (hd : d ≠ c) (hd3 : (s.connections d).state = 3) :
    (s.connections d).rxBuffer ≠ some p := by
  cases hacc with
  | first _ _ hl => exact hR.not_processing hl hd3
  | next hst hp => exact fun hdp => hd (hR.unique d c p hd3 hst hdp hp)

/-- **A fragment that may be taken keeps the invariant.** -/
theorem reassembling_taken (hT : TableInv s) (hR : RxCore s) (h : Reassembling s)
    (hi : (s.connections c).client = some i) (htake : MayTake s c msg)
    (hacc : AcceptCase (logFragment c msg s) c i p s₁)
    (hcopy : CopyCase P s₁ c i p msg.payload s₂) :
    Reassembling (if msg.hdr.lastFrag then finishFragment c s₂ else s₂) := by
  have hframe := taken_frame hacc hcopy
  obtain ⟨hbytes, -⟩ := accept_bytes hT hR h hi htake hacc
  obtain ⟨hst₁, hrx₁⟩ := accept_state hacc
  obtain ⟨hcl₁, -, -, -, hc₁⟩ := accept_frame hacc
  refine h.update hR hframe.connections hframe.rxMsgs (keepsClients_of_eq hframe.clients)
    (fun d hd => hframe.hostMsg_of_ne hd) (accept_other hR hacc) fun h3 => ?_
  have hone : (1 : UInt8) ≠ 3 := by decide
  by_cases hlast : msg.hdr.lastFrag = true
  · rw [if_pos hlast, finish_connections (tame_copy hst₁ hcopy).2, Function.update_self] at h3
    exact absurd h3 hone
  · rw [if_neg hlast] at hframe h3 ⊢
    cases hcopy with
    | oversize _ =>
        rw [HeciDev.setConn_connections, Function.update_self] at h3
        exact absurd h3 hone
    | copied b hfit hb =>
        have hsize : (s₁.clients i).properties.maxMsgSize ≤ heciMaxMsgSize := by
          rw [hcl₁]
          exact (hT.clients i).maxMsgSize
        have happend := copied_bytes (c := c) hsize hfit hb
        have hmsg := hframe.hostMsg_self (Bool.not_eq_true _ ▸ hlast)
        have hlen : (s₁.rxMsgs p).length = (hostMsg c s).length := by
          rw [← hbytes, HeciRxMsg.length_bytes]
        refine ⟨p, hrx₁, ?_, fun j hj => ?_⟩
        · rw [HeciDev.setRx_rxMsgs, Function.update_self, happend, hbytes, hmsg]
        · have hj' : (s.connections c).client = some j := hc₁.symm.trans hj
          cases hi.symm.trans hj'
          rw [hmsg, List.length_append, ← hlen, HeciDev.setRx_clients]
          unfold Oversize at hfit
          omega

/-- **A last fragment that may be taken is delivered with its whole message.** -/
theorem delivered_taken (hT : TableInv s) (hR : RxCore s) (h : Reassembling s)
    (hi : (s.connections c).client = some i) (htake : MayTake s c msg)
    (hacc : AcceptCase (logFragment c msg s) c i p s₁)
    (hcopy : CopyCase P s₁ c i p msg.payload s₂) (hlast : msg.hdr.lastFrag = true) :
    (s₂.clients i).properties.rxMsg = some p ∧ (s₂.rxMsgs p).msgLock = true ∧
      (s₂.rxMsgs p).bytes = hostMsg c s ++ msg.payload ∧
        (s₂.rxMsgs p).length ≤ (s₂.clients i).properties.rxBufferLen ∧
          (s₂.rxMsgs p).length ≤ (s₂.clients i).properties.maxMsgSize := by
  obtain ⟨hbytes, hl, hp, htook⟩ := accept_bytes hT hR h hi htake hacc
  obtain ⟨hcl₁, -⟩ := accept_frame hacc
  have hcl : (s₁.clients i).properties = (s.clients i).properties := by
    rw [hcl₁]
    rfl
  have hsize := (hT.clients i).maxMsgSize
  have hlen : (s₁.rxMsgs p).length = (hostMsg c s).length := by
    rw [← hbytes, HeciRxMsg.length_bytes]
  have hfits := htake.2 hlast htook i hi
  rw [← hcl] at hsize hfits
  rw [← hlen] at hfits
  cases hcopy with
  | oversize hover =>
      unfold Oversize at hover
      omega
  | copied b hfit hb =>
      have happend := copied_bytes (c := c) hsize hfit hb
      have hmod : ((s₁.rxMsgs p).length + msg.payload.length) % 2 ^ 16 =
          (s₁.rxMsgs p).length + msg.payload.length := by
        refine Nat.mod_eq_of_lt ?_
        simp only [heciMaxMsgSize] at hsize
        omega
      refine ⟨hp, ?_, ?_, ?_⟩
      · simpa using hl
      · rw [HeciDev.setRx_rxMsgs, Function.update_self, happend, hbytes]
      · rw [HeciDev.setRx_rxMsgs, Function.update_self, hmod]
        exact hfits

end fragment

/-! ### Steps -/

theorem told_iff {s s' : HeciDev} {evs : List Event} (h : s'.events = s.events ++ evs)
    (c : ConnId) : Told s s' c ↔ ∃ cb param, Event.notify c cb param .newMsg ∈ evs := by
  rw [Told, h, List.drop_left]

theorem not_silent_newMsg {c : ConnId} {cb : Option EventCb} {param : ℕ} :
    ¬ (Event.notify c cb param .newMsg).Silent := by
  intro h
  cases h

/-- A step that tells nobody. -/
theorem delivered_of_silent {s s' : HeciDev} {l : Call} {evs : List Event}
    (h : s'.events = s.events ++ evs) (he : ∀ e ∈ evs, e.Silent) : Delivered s l s' := by
  intro c hc
  obtain ⟨cb, param, hmem⟩ := (told_iff h c).1 hc
  exact absurd (he _ hmem) not_silent_newMsg

/-- The end of a disconnection tells nobody. -/
theorem completed_events (P : Platform) (c : ConnId) (i : ClientId) (s : HeciDev) :
    ∃ evs, (freeConn c i (respondDisconnect P c (releaseRx c s))).events = s.events ++ evs ∧
      ∀ e ∈ evs, e.Silent := by
  obtain ⟨evs, he, hev⟩ :=
    ((RxQuiet.refl _).io (ioStep_respondDisconnect P c (releaseRx c s))).events
  refine ⟨evs ++ [Event.freed c, Event.creditReset c], ?_, fun e hmem => ?_⟩
  · have hrel : (releaseRx c s).events = s.events := by
      unfold releaseRx
      split <;> rfl
    rw [freeConn, HeciDev.emit_events, HeciDev.setConn_events, HeciDev.setClient_events, he, hrel,
      List.append_assoc]
  · rcases List.mem_append.1 hmem with hmem | hmem
    · exact hev e hmem
    · simp only [List.mem_cons, List.not_mem_nil, or_false] at hmem
      rcases hmem with rfl | rfl <;> exact trivial

/-- What opening a connection leaves in the trace. -/
theorem opened_events (c : ConnId) (i : ClientId) (p : RxPtr) (f k : UInt8) (s : HeciDev) :
    ∃ cb param, (openConn c i p f k (lockRx p s)).events =
      s.events ++ [Event.opened c i, Event.notify c cb param .newMsg] := by
  refine ⟨(s.clients i).properties.eventCb, (s.clients i).properties.param, ?_⟩
  simp [openConn, lockRx, heciNotifyClient, connectedConn]

/-- **Every disciplined step keeps the invariant.** -/
theorem reassembling_effect {P : Platform} {l : Call} {s s' : HeciDev} (hT : TableInv s)
    (hR : RxCore s) (h : Reassembling s) (hd : MsgDiscipline s l) (he : RxEffect P l s s') :
    Reassembling s' := by
  have hone : (1 : UInt8) ≠ 3 := by decide
  cases he with
  | quiet hq => exact h.quiet hR hq
  | opened i c p f k hreg _ hp hl hq =>
      refine Reassembling.quiet ?_ (hR.opened c f k hreg hp hl) hq
      obtain ⟨cb, param, hopen⟩ := opened_events c i p f k s
      have hw := rxWrite_opened (s := s) i c p f k
      refine h.update hR (fun d hd => by rw [hw.connections, Function.update_of_ne hd])
        (fun q hq => ?_) hw.clients (fun d hd => hostMsg_eq hopen ?_)
        (fun d _ hd3 => hR.not_processing hl hd3) fun h3 => ?_
      · simp [openConn, lockRx, heciNotifyClient, Function.update_of_ne hq]
      · simpa [Event.NotFor] using hd.symm
      · rw [hw.connections, Function.update_self] at h3
        exact absurd h3 hone
  | fragment msg c hl _ hc hcase =>
      subst hl
      cases hcase with
      | refused i p hst _ _ hlock =>
          refine h.frame (c := c) hR (fun d hd => ?_) (fun _ _ _ _ _ => rfl) (fun _ hi => ⟨hi, rfl⟩)
            (fun d hd => hostMsg_logFragment_of_ne hd s) fun h3 => ?_
          · simp [Function.update_of_ne hd]
          · rw [HeciDev.setConn_connections, Function.update_self] at h3
            exact absurd (hst.symm.trans h3) hone
      | taken i p s₁ s₂ hi hacc hcopy => exact reassembling_taken hT hR h hi (hd.2 c hc) hacc hcopy
  | release c p hl hopen hp hq =>
      subst hl
      have hno := (hd.1 c.isLt ((hT.conns c).open_iff.2 hopen)).state hT hp
      have hR' : RxCore (releaseOpen c p s) :=
        rxCore_effect (P := P) hT hR hd.1 (.release c p rfl hopen hp (RxQuiet.refl _))
      refine Reassembling.quiet ?_ hR' hq
      refine h.update (c := c) (p := p) hR (fun d hd => ?_) (fun q hq => ?_) (fun _ hi => ⟨hi, rfl⟩)
        (fun _ _ => rfl) (fun d _ => hno d) fun h3 => ?_
      · simp [releaseOpen, Function.update_of_ne hd]
      · simp [releaseOpen, Function.update_of_ne hq]
      · rw [(rxWrite_release s c p).connections, Function.update_self] at h3
        exact absurd hp (hno c h3)
  | freed c i hl hst _ =>
      subst hl
      have hno := hd.1 c.isLt ((hT.conns c).disconnecting_iff.2 hst)
      obtain ⟨evs, hev, hsil⟩ := completed_events P c i s
      refine h.frame (c := c) hR (fun d hd => ?_) (fun d q hdc hd3 hdq => ?_)
        (completed_keepsClients P c i s)
        (fun d _ => hostMsg_eq hev fun e hmem => (hsil e hmem).notFor d) fun h3 => ?_
      · rw [completed_connections, Function.update_of_ne hd]
      · rw [completed_rxMsgs]
        cases hp : (s.connections c).rxBuffer with
        | none => rw [releaseRx, hp]
        | some p =>
            have hqp : q ≠ p := fun hqp => hno.state hT hp d hd3 (hqp ▸ hdq)
            rw [releaseRx_of_some hp, Function.update_of_ne hqp]
      · rw [completed_connections, Function.update_self] at h3
        exact absurd h3 (by decide)

/-- A client that is told about its connection is not told about a request. -/
theorem delivered_opened {l : Call} {s s' : HeciDev} {i : ClientId} {c : ConnId} {p : RxPtr}
    {f k : UInt8} (hreg : (s.clients i).clientAddr ≠ 0)
    (hp : (s.clients i).properties.rxMsg = some p)
    (hq : RxQuiet (openConn c i p f k (lockRx p s)) s') : Delivered s l s' := by
  obtain ⟨cb, param, hopen⟩ := opened_events c i p f k s
  obtain ⟨evs, hev, hsil⟩ := hq.events
  have hevents : s'.events = s.events ++
      ([Event.opened c i, Event.notify c cb param .newMsg] ++ evs) := by
    rw [hev, hopen, List.append_assoc]
  intro d hd
  obtain ⟨cb', param', hmem⟩ := (told_iff hevents d).1 hd
  have hdc : d = c := by
    rcases List.mem_append.1 hmem with hmem | hmem
    · simp only [List.mem_cons, reduceCtorEq, Event.notify.injEq, List.not_mem_nil, or_false,
        false_or] at hmem
      exact hmem.1
    · exact absurd (hsil _ hmem) not_silent_newMsg
  subst hdc
  have hconn : (openConn d i p f k (lockRx p s)).connections d =
      connectedConn (s.connections d) d i (s.clients i).properties f k p := by
    rw [(rxWrite_opened i d p f k).connections, Function.update_self]
  have hused : Used ((openConn d i p f k (lockRx p s)).connections d) := by
    rw [hconn]
    show connStateOpen ≠ connStateUnused
    decide
  obtain ⟨hreg', hprop'⟩ := (rxWrite_opened (s := s) i d p f k).clients i hreg
  obtain ⟨-, hprop⟩ := hq.clients i hreg'
  refine ⟨i, p, ?_, by rw [hprop, hprop', hp], fun htype => ?_⟩
  · rw [(hq.connections d).client hused, hconn]
    rfl
  · rw [hq.rxMsgs] at htype
    simp [openConn, lockRx, heciNotifyClient] at htype

/-- **A fragment delivers a whole message or nothing.** -/
theorem delivered_fragment {P : Platform} {msg : HeciBusMsg} {s s' : HeciDev} {c : ConnId}
    (hT : TableInv s) (hR : RxCore s) (h : Reassembling s) (htake : MayTake s c msg)
    (hc : fragmentConn msg s = some c) (hcase : FragmentCase P msg s c s') :
    Delivered s (.op (.recv msg)) s' := by
  cases hcase with
  | refused i p _ _ _ _ =>
      rintro d ⟨cb, param, hmem⟩
      simp at hmem
  | taken i p s₁ s₂ hi hacc hcopy =>
      have hframe := taken_frame hacc hcopy
      obtain ⟨evs, hev, htell⟩ := hframe.events
      intro d hd
      obtain ⟨cb, param, hmem⟩ := (told_iff hev d).1 hd
      -- only the last fragment tells, and only its own client
      have hlast : msg.hdr.lastFrag = true ∧ d = c := by
        rcases List.mem_cons.1 hmem with hmem | hmem
        · cases hmem
        · rcases htell _ hmem with hsil | ⟨hlast, cb', param', heq⟩
          · exact absurd hsil not_silent_newMsg
          · cases heq
            exact ⟨hlast, rfl⟩
      obtain ⟨hlast, rfl⟩ := hlast
      have hcl := hframe.client.trans hi
      obtain ⟨hp, hlock, hbytes, hfits⟩ := delivered_taken hT hR h hi htake hacc hcopy hlast
      rw [if_pos hlast] at hcl ⊢
      refine ⟨i, p, hcl, hp, fun _ => ⟨hlock, msg, rfl, hlast, hc, hbytes, fun j hj => ?_⟩⟩
      cases hcl.symm.trans hj
      exact hfits

/-- **Every disciplined step delivers whole messages.** -/
theorem delivered_effect {P : Platform} {l : Call} {s s' : HeciDev} (hT : TableInv s)
    (hR : RxCore s) (h : Reassembling s) (hd : MsgDiscipline s l) (he : RxEffect P l s s') :
    Delivered s l s' := by
  cases he with
  | quiet hq =>
      obtain ⟨evs, hev, hsil⟩ := hq.events
      exact delivered_of_silent hev hsil
  | opened i c p f k hreg _ hp _ hq => exact delivered_opened hreg hp hq
  | fragment msg c hl _ hc hcase =>
      subst hl
      exact delivered_fragment hT hR h (hd.2 c hc) hc hcase
  | release c p _ _ _ hq =>
      obtain ⟨evs, hev, hsil⟩ := hq.events
      exact delivered_of_silent (s := s) hev hsil
  | freed c i _ _ _ =>
      obtain ⟨evs, hev, hsil⟩ := completed_events P c i s
      exact delivered_of_silent hev hsil

/-! ### Runs -/

theorem reassembling_initial {s : HeciDev} (h : HeciDev.Initial s) : Reassembling s := by
  intro c hc
  rw [h.connections c] at hc
  exact absurd (show connStateUnused = 3 from hc) (by decide)

theorem msgDiscipline_enter {s : HeciDev} {l : Call} (h : MsgDiscipline s l) :
    MsgDiscipline (enter l s) l := by
  refine ⟨mayRelease_enter h.1, ?_⟩
  cases l with
  | send _ _ => exact trivial
  | op o =>
      cases o with
      | recv msg =>
          intro c hc
          have htake := h.2 c hc
          unfold MayTake at htake ⊢
          rw [(rxQuiet_enter _ s).hostMsg c]
          exact htake
      | _ => exact trivial

/-- Whatever a call does, the trace only grows. -/
theorem RxEffect.events {P : Platform} {l : Call} {s s' : HeciDev} (h : RxEffect P l s s') :
    ∃ evs, s'.events = s.events ++ evs := by
  cases h with
  | quiet hq =>
      obtain ⟨evs, he, -⟩ := hq.events
      exact ⟨evs, he⟩
  | opened i c p f k _ _ _ _ hq =>
      obtain ⟨cb, param, hopen⟩ := opened_events c i p f k s
      obtain ⟨evs, he, -⟩ := hq.events
      exact ⟨_, by rw [he, hopen, List.append_assoc]⟩
  | fragment msg c _ _ _ hcase =>
      cases hcase with
      | refused _ _ _ _ _ _ => exact ⟨_, rfl⟩
      | taken i p s₁ s₂ _ hacc hcopy =>
          obtain ⟨evs, he, -⟩ := (taken_frame hacc hcopy).events
          exact ⟨_, he⟩
  | release c p _ _ _ hq =>
      obtain ⟨evs, he, -⟩ := hq.events
      exact ⟨evs, he⟩
  | freed c i _ _ _ =>
      obtain ⟨evs, he, -⟩ := completed_events P c i s
      exact ⟨evs, he⟩

/-- A call that delivers whole messages does so whether or not its frame is already in the trace. -/
theorem Delivered.of_enter {P : Platform} {l : Call} {s s' : HeciDev}
    (h : Delivered (enter l s) l s') (he : RxEffect P l (enter l s) s') : Delivered s l s' := by
  obtain ⟨pre, hpre, hsil⟩ := (rxQuiet_enter l s).events
  obtain ⟨evs, hevs⟩ := he.events
  have hall : s'.events = s.events ++ (pre ++ evs) := by rw [hevs, hpre, List.append_assoc]
  intro c hc
  obtain ⟨cb, param, hmem⟩ := (told_iff hall c).1 hc
  have htold : Told (enter l s) s' c := by
    refine (told_iff hevs c).2 ⟨cb, param, ?_⟩
    rcases List.mem_append.1 hmem with hmem | hmem
    · exact absurd (hsil _ hmem) not_silent_newMsg
    · exact hmem
  obtain ⟨i, p, hi, hp, hreq⟩ := h c htold
  refine ⟨i, p, hi, hp, fun htype => ?_⟩
  obtain ⟨hlock, msg, rfl, hlast, hfrag, hbytes, hfits⟩ := hreq htype
  rw [(rxQuiet_enter _ s).hostMsg c] at hbytes
  exact ⟨hlock, msg, rfl, hlast, hfrag, hbytes, hfits⟩

/-- **In every disciplined run clients are told about whole messages of the host**, and only about
messages that fit. -/
theorem delivered_of_disciplined {P : Platform} {s s' : HeciDev} {l : Call}
    (h : Lts.Reach HeciDev.Initial (step P) MsgDiscipline s) (hd : MsgDiscipline s l)
    (hst : step P l s = some s') : Delivered s l s' := by
  have hstep : ∀ s l s', TableInv s ∧ RxCore s ∧ Reassembling s → MsgDiscipline s l →
      step P l s = some s' → TableInv s' ∧ RxCore s' ∧ Reassembling s' := by
    rintro s l s' ⟨hT, hR, hM⟩ hd hst
    have hquiet := rxQuiet_enter l s
    exact ⟨(keeps_tableInv P).step hT hst, rxCore_step hT hR hd.1 hst,
      reassembling_effect (hT.enter l) (hR.quiet hquiet) (hM.quiet hR hquiet)
        (msgDiscipline_enter hd) (step_rxEffect hT hst)⟩
  have hI : TableInv s ∧ RxCore s ∧ Reassembling s :=
    h.invariant (fun s hs => ⟨tableInv_initial hs, rxCore_initial hs, reassembling_initial hs⟩)
      hstep
  obtain ⟨hT, hR, hM⟩ := hI
  have heff := step_rxEffect hT hst
  have hquiet := rxQuiet_enter l s
  exact (delivered_effect (hT.enter l) (hR.quiet hquiet) (hM.quiet hR hquiet)
    (msgDiscipline_enter hd) heff).of_enter heff

/-- A message of two fragments. -/
theorem delivered_two_fragments :
    ∃ s s', Lts.Reach HeciDev.Initial (step Platform.nominal) MsgDiscipline s ∧
      step Platform.nominal (.op (.recv (HeciBusMsg.mk' 7 32 true [4, 5]))) s = some s' ∧
        Event.notify 0 (some 1) 0 .newMsg ∈ s'.events.drop s.events.length ∧
          (s'.rxMsgs 0).type = .request ∧ (s'.rxMsgs 0).bytes = [1, 2, 3, 4, 5] ∧
            Delivered s (.op (.recv (HeciBusMsg.mk' 7 32 true [4, 5]))) s' := by
  obtain ⟨s, hs, hd, hst⟩ := exists_disciplined Platform.nominal MsgDiscipline
    (connectCalls (plainClient 1 0 4096 1) 7 ++ ([.op (.sendFlowControl 0),
      .op (.recv (HeciBusMsg.mk' 7 32 false [1, 2, 3]))] : List Call))
    (fun s => MsgDiscipline s (.op (.recv (HeciBusMsg.mk' 7 32 true [4, 5]))) ∧
      (step Platform.nominal (.op (.recv (HeciBusMsg.mk' 7 32 true [4, 5]))) s).any
        (fun s' => decide
        (Event.notify 0 (some 1) 0 .newMsg ∈ s'.events.drop s.events.length ∧
          (s'.rxMsgs 0).type = .request ∧ (s'.rxMsgs 0).bytes = [1, 2, 3, 4, 5])) = true)
    (by decide +kernel)
  obtain ⟨s', hs', hev⟩ := (Option.any_eq_true _ _).1 hst
  obtain ⟨hnot, htype, hbytes⟩ := of_decide_eq_true hev
  exact ⟨s, s', hs, hs', hnot, htype, hbytes, delivered_of_disciplined hs hd hs'⟩

/-- The last fragment does not fit: the client is told about a message in an unlocked buffer. -/
theorem not_delivered_oversize :
    ∃ s l s', Reachable Platform.nominal s ∧ step Platform.nominal l s = some s' ∧
      ¬ Delivered s l s' := by
  obtain ⟨s, hs, hst⟩ := exists_reachable Platform.nominal
    (connectCalls (plainClient 1 0 4 1) 7 ++ ([.op (.sendFlowControl 0)] : List Call))
    (fun s => (step Platform.nominal (.op (.recv (HeciBusMsg.mk' 7 32 true [1, 2, 3, 4, 5]))) s).any
      (fun s' => decide (Event.notify 0 (some 1) 0 .newMsg ∈ s'.events.drop s.events.length ∧
        (s'.connections 0).client = some 0 ∧ (s'.clients 0).properties.rxMsg = some 0 ∧
          (s'.rxMsgs 0).type = .request ∧ (s'.rxMsgs 0).msgLock = false)) = true)
    (by decide +kernel)
  obtain ⟨s', hs', hev⟩ := (Option.any_eq_true _ _).1 hst
  obtain ⟨hnot, hclient, hrx, htype, hlock⟩ := of_decide_eq_true hev
  refine ⟨s, _, s', hs, hs', fun hdel => ?_⟩
  obtain ⟨i, p, hi, hp, hreq⟩ := hdel 0 ⟨_, _, hnot⟩
  cases hclient.symm.trans hi
  cases hrx.symm.trans hp
  exact absurd ((hreq htype).1.symm.trans hlock) (by decide)

end PseFw.Heci
