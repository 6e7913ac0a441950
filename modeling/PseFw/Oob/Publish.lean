/-
**Receiving a message of the broker.**

When a message has come, the handler of MQTT events reads its payload into a buffer on the stack,
puts a zero behind it, and hands it on with the topic.  It reads in a loop, until
`mqtt_read_publish_payload` says that nothing is left or fails.  Every call is told to put its data
to the start of the buffer, and that there is room for the whole payload.

So only the last chunks are in the buffer at the end, one over the other.  The payload is received
when the transport has all of it at once, and it is shorter than the buffer: the length comes from
the broker and is not compared with anything.

Main definitions:

* `MqttPublish`, `PublishHandled`, `mqttEvtPublish` — the event, and what the handler does for it;
* `Transport` — how a payload comes: the sizes of the chunks, and what is not read because of an
  error;
* `PublishDelivered` — every payload that comes in this way is handed on as it is.

Main results:

* `mqttEvtPublish_last` — the last byte of a payload that comes in parts stays zero;
* `publishDelivered_iff` — **the ways in which every payload is delivered**.
-/

import Mathlib.Algebra.Order.BigOperators.Group.List
import PseFw.Lib.Memory
import PseFw.Oob.Adapter

set_option relaxedAutoImplicit false
set_option autoImplicit false

namespace PseFw.Oob

open Mem

/-! ### The handler -/

/-- `XL_LARGE_BUFFER`, the size of `buf`. -/
abbrev xlLargeBuffer : ℕ := 1024

/-- What the handler reads of an `MQTT_EVT_PUBLISH` event; the topic has no zero at its end. -/
structure MqttPublish where
  result : ℤ
  topic : List UInt8
  topicAfter : List UInt8
  payloadLen : ℕ

/-- What is done for an event: the writes from `buf` on, the message given to
`mqtt_process_receive`, and the topic afterwards. -/
structure PublishHandled where
  writes : List (ℕ × List UInt8)
  received : Option Incoming
  topic : List UInt8

/-- The loop around `mqtt_read_publish_payload`, for the data of its calls.  When there are no more
data the call returns zero or an error, and writes nothing. -/
def readPublishPayload : List (List UInt8) → List (ℕ × List UInt8)
  | [] => []
  | data :: later => (0, data) :: if 0 < data.length then readPublishPayload later else []

/-- The writes to `buf`: it is cleared, the payload is read, and a zero is put behind it. -/
def publishWrites (payloadLen : ℕ) (data : List (List UInt8)) : List (ℕ × List UInt8) :=
  (0, List.replicate xlLargeBuffer 0) :: (readPublishPayload data ++ [(payloadLen, [0])])

/-- `mqtt_evt_handler` for `MQTT_EVT_PUBLISH`; `stack` is the memory from `buf` on. -/
def mqttEvtPublish (stack : ℕ → UInt8) (evt : MqttPublish) (data : List (List UInt8)) :
    PublishHandled :=
  if evt.result ≠ 0 then ⟨[], none, evt.topic⟩
  else
    let buf := Mem.writes stack (publishWrites evt.payloadLen data)
    -- the zero is there for the functions for strings, also when it stands behind `buf`
    { writes := publishWrites evt.payloadLen data
      received := some
        { topic := evt.topic
          topicAfter := evt.topicAfter
          payload := read buf 0 evt.payloadLen
          payloadAfter := read buf evt.payloadLen (max (xlLargeBuffer - evt.payloadLen) 1) }
      topic := List.replicate evt.topic.length 0 }

/-! ### What is expected -/

/-- How a payload comes: a call of `mqtt_read_publish_payload` that succeeds returns at least one
byte; what is left when a call fails is not read. -/
structure Transport where
  sizes : List ℕ
  unread : ℕ
  zero_not_mem : 0 ∉ sizes

/-- The length of the payload. -/
def Transport.payloadLen (t : Transport) : ℕ := t.sizes.sum + t.unread

/-- **The message is delivered**: nothing is written outside the buffer; a payload for which there
is room is handed on with a zero behind it, and no other one is. -/
def MessageDelivered (payload : List UInt8) (h : PublishHandled) : Prop :=
  (∀ w ∈ h.writes, Within xlLargeBuffer w) ∧
  (payload.length < xlLargeBuffer →
    ∃ m, h.received = some m ∧ m.payload = payload ∧ m.payloadAfter.head? = some 0) ∧
  (xlLargeBuffer ≤ payload.length → h.received = none)

/-- **Every payload is delivered** that comes in the given way. -/
def PublishDelivered (stack : ℕ → UInt8) (topic topicAfter : List UInt8) (t : Transport) : Prop :=
  ∀ (data : List (List UInt8)) (unread : List UInt8),
    data.map List.length = t.sizes → unread.length = t.unread →
    MessageDelivered (data.flatten ++ unread)
      (mqttEvtPublish stack ⟨0, topic, topicAfter, (data.flatten ++ unread).length⟩ data)

/-! ### The loop -/

theorem mem_readPublishPayload {data : List (List UInt8)} {w : ℕ × List UInt8}
    (h : w ∈ readPublishPayload data) : w.1 = 0 ∧ w.2 ∈ data := by
  induction data with
  | nil => cases h
  | cons chunk later ih =>
      rw [readPublishPayload] at h
      rcases List.mem_cons.1 h with rfl | h
      · exact ⟨rfl, List.mem_cons_self⟩
      · split at h
        · exact ⟨(ih h).1, List.mem_cons_of_mem _ (ih h).2⟩
        · cases h

variable {stack : ℕ → UInt8} {topic topicAfter : List UInt8} {t : Transport}

/-- Whatever has come, a message is handed on. -/
theorem received_ne_none {n : ℕ} {data : List (List UInt8)} :
    (mqttEvtPublish stack ⟨0, topic, topicAfter, n⟩ data).received ≠ none := by
  unfold mqttEvtPublish
  rw [if_neg (fun h0 => h0 rfl)]
  exact Option.some_ne_none _

theorem payload_of_received {n : ℕ} {data : List (List UInt8)} {m : Incoming}
    (hm : (mqttEvtPublish stack ⟨0, topic, topicAfter, n⟩ data).received = some m) :
    m.payload = read (Mem.writes stack (publishWrites n data)) 0 n := by
  unfold mqttEvtPublish at hm
  rw [if_neg (fun h0 => h0 rfl)] at hm
  rw [← Option.some.inj hm]

/-- **A byte behind all chunks stays zero.** -/
theorem mqttEvtPublish_zero {data : List (List UInt8)} {n i : ℕ} (hi : i < n)
    (hn : n ≤ xlLargeBuffer) (h : ∀ chunk ∈ data, chunk.length ≤ i) :
    Mem.writes stack (publishWrites n data) i = 0 := by
  have huntouched : ∀ w ∈ readPublishPayload data ++ [(n, [(0 : UInt8)])],
      i < w.1 ∨ w.1 + w.2.length ≤ i := by
    intro w hw
    rcases List.mem_append.1 hw with hw | hw
    · obtain ⟨h0, hdata⟩ := mem_readPublishPayload hw
      right
      rw [h0, Nat.zero_add]
      exact h w.2 hdata
    · left
      rw [List.mem_singleton.1 hw]
      exact hi
  have hlen : i < (List.replicate xlLargeBuffer (0 : UInt8)).length := by
    rw [List.length_replicate]
    omega
  have hcleared := write_add stack 0 hlen
  rw [Nat.zero_add, List.getElem_replicate] at hcleared
  exact (writes_of_untouched huntouched _).trans hcleared

/-! ### Payloads that come in parts -/

/-- A chunk is shorter than the payload, unless it is all of it. -/
theorem Transport.size_lt (ht : ¬ (t.unread = 0 ∧ t.sizes.length ≤ 1)) {k : ℕ}
    (hk : k ∈ t.sizes) : k < t.payloadLen := by
  have hsum : k + (t.sizes.erase k).sum = t.sizes.sum := List.sum_erase hk
  have hlen : (t.sizes.erase k).length = t.sizes.length - 1 := List.length_erase_of_mem hk
  have hpos : (t.sizes.erase k).length ≤ (t.sizes.erase k).sum := by
    refine List.length_le_sum_of_one_le _ fun i hi => ?_
    have hne : i ≠ 0 := fun h0 => t.zero_not_mem (h0 ▸ List.mem_of_mem_erase hi)
    omega
  unfold Transport.payloadLen
  by_contra hle
  exact ht ⟨by omega, by omega⟩

theorem Transport.payloadLen_pos (ht : ¬ (t.unread = 0 ∧ t.sizes.length ≤ 1)) :
    0 < t.payloadLen := by
  cases hs : t.sizes with
  | nil =>
      rw [hs] at ht
      unfold Transport.payloadLen
      have hne : t.unread ≠ 0 := fun h0 => ht ⟨h0, Nat.zero_le 1⟩
      omega
  | cons k sizes =>
      exact Nat.zero_lt_of_lt (t.size_lt ht (hs ▸ List.mem_cons_self : k ∈ t.sizes))

/-- **The last byte of a payload that comes in parts stays zero.** -/
theorem mqttEvtPublish_last (ht : ¬ (t.unread = 0 ∧ t.sizes.length ≤ 1))
    (hn : t.payloadLen ≤ xlLargeBuffer) {data : List (List UInt8)}
    (hdata : data.map List.length = t.sizes) :
    Mem.writes stack (publishWrites t.payloadLen data) (t.payloadLen - 1) = 0 := by
  have hpos := t.payloadLen_pos ht
  refine mqttEvtPublish_zero (by omega) hn fun chunk hc => ?_
  have hmem : chunk.length ∈ t.sizes := hdata ▸ List.mem_map_of_mem hc
  have := t.size_lt ht hmem
  omega

/-! ### When payloads are delivered -/

/-- Chunks that are filled with ones. -/
theorem map_length_ones (sizes : List ℕ) :
    ((sizes.map fun k => List.replicate k (1 : UInt8)).map List.length) = sizes := by
  rw [List.map_map]
  refine (List.map_congr_left fun k _ => ?_).trans (List.map_id sizes)
  exact List.length_replicate

theorem zero_not_mem_ones (sizes : List ℕ) {n : ℕ} :
    (0 : UInt8) ∉ (sizes.map fun k => List.replicate k 1).flatten ++ List.replicate n 1 := by
  intro h
  rcases List.mem_append.1 h with h | h
  · obtain ⟨chunk, hc, h0⟩ := List.mem_flatten.1 h
    obtain ⟨k, -, rfl⟩ := List.mem_map.1 hc
    exact absurd (List.eq_of_mem_replicate h0) (by decide)
  · exact absurd (List.eq_of_mem_replicate h) (by decide)

theorem length_payload {data : List (List UInt8)} {unread : List UInt8}
    (hdata : data.map List.length = t.sizes) (hu : unread.length = t.unread) :
    (data.flatten ++ unread).length = t.payloadLen := by
  rw [List.length_append, List.length_flatten, hdata, hu]
  rfl

/-- A payload that comes in one piece. -/
theorem eq_nil_or_singleton {data : List (List UInt8)} (h : data.length ≤ 1) :
    readPublishPayload data = [] ∧ data.flatten = [] ∨
      readPublishPayload data = [(0, data.flatten)] := by
  cases data with
  | nil => exact .inl ⟨rfl, rfl⟩
  | cons chunk later =>
      have hlater : later = [] := List.eq_nil_of_length_eq_zero (by
        rw [List.length_cons] at h
        omega)
      right
      rw [hlater, List.flatten_singleton, readPublishPayload]
      split <;> rfl

/-- **What is in the buffer** after a payload in one piece. -/
theorem writes_publishWrites {data : List (List UInt8)} (h : data.length ≤ 1) (n : ℕ) :
    Mem.writes stack (publishWrites n data) =
      write (write (write stack 0 (List.replicate xlLargeBuffer 0)) 0 data.flatten) n [0] := by
  show Mem.writes (write stack 0 _) (readPublishPayload data ++ [(n, [0])]) = _
  rw [writes_append]
  rcases eq_nil_or_singleton h with ⟨hr, hf⟩ | hr
  · rw [hr, hf, show write (write stack 0 (List.replicate xlLargeBuffer 0)) 0 [] = _ from
      write_read_self _ 0 0]
    rfl
  · rw [hr]
    rfl

theorem within_publishWrites {data : List (List UInt8)} {n : ℕ} (hn : n < xlLargeBuffer)
    (h : data.flatten.length ≤ n) : ∀ w ∈ publishWrites n data, Within xlLargeBuffer w := by
  intro w hw
  show w.1 + w.2.length ≤ xlLargeBuffer
  rcases List.mem_cons.1 hw with rfl | hw
  · rw [List.length_replicate, Nat.zero_add]
  · rcases List.mem_append.1 hw with hw | hw
    · obtain ⟨h0, hmem⟩ := mem_readPublishPayload hw
      have hle : w.2.length ≤ data.flatten.length := by
        rw [List.length_flatten]
        exact List.le_sum_of_mem (List.mem_map_of_mem hmem)
      omega
    · rw [List.mem_singleton.1 hw]
      exact hn

/-- A payload that comes in one piece is delivered. -/
theorem messageDelivered_of_whole {data : List (List UInt8)}
    (hn : data.flatten.length < xlLargeBuffer) (h : data.length ≤ 1) :
    MessageDelivered data.flatten
      (mqttEvtPublish stack ⟨0, topic, topicAfter, data.flatten.length⟩ data) := by
  have hbuf : Mem.writes stack (publishWrites data.flatten.length data) = _ :=
    writes_publishWrites h data.flatten.length
  unfold mqttEvtPublish MessageDelivered
  rw [if_neg (fun h0 => h0 rfl)]
  refine ⟨within_publishWrites hn le_rfl, fun _ => ⟨_, rfl, ?_, ?_⟩, fun hge => ?_⟩
  · dsimp only
    rw [hbuf, read_write_disjoint _ (Or.inl (Nat.zero_add _).le), read_write_self]
  · dsimp only
    obtain ⟨k, hk⟩ := Nat.exists_eq_add_of_le
      (le_max_right (xlLargeBuffer - data.flatten.length) 1)
    rw [hk, read_add, hbuf, show 1 = [(0 : UInt8)].length from rfl, read_write_self]
    rfl
  · exact absurd hge (Nat.not_le_of_lt hn)

/-- **When every payload is delivered**: it comes in one piece, and is shorter than the buffer. -/
theorem publishDelivered_iff (stack : ℕ → UInt8) (topic topicAfter : List UInt8) (t : Transport) :
    PublishDelivered stack topic topicAfter t ↔
      t.payloadLen < xlLargeBuffer ∧ t.unread = 0 ∧ t.sizes.length ≤ 1 := by
  constructor
  · intro h
    -- the bytes of the payload are ones
    have hlen := length_payload (t := t) (map_length_ones t.sizes)
      (List.length_replicate (n := t.unread) (a := (1 : UInt8)))
    obtain ⟨-, hsmall, hlarge⟩ := h (t.sizes.map fun k => List.replicate k 1)
      (List.replicate t.unread 1) (map_length_ones t.sizes) List.length_replicate
    rw [hlen] at hsmall hlarge
    have hlt : t.payloadLen < xlLargeBuffer := by
      by_contra hge
      exact received_ne_none (hlarge (Nat.le_of_not_lt hge))
    refine ⟨hlt, ?_⟩
    by_contra ht
    obtain ⟨m, hm, hpayload, -⟩ := hsmall hlt
    have hzero : 0 ∈ read (Mem.writes stack (publishWrites t.payloadLen
        (t.sizes.map fun k => List.replicate k 1))) 0 t.payloadLen := by
      refine List.mem_map.2 ⟨t.payloadLen - 1, List.mem_range.2 ?_, ?_⟩
      · exact Nat.sub_one_lt_of_lt (t.payloadLen_pos ht)
      · rw [Nat.zero_add]
        exact mqttEvtPublish_last ht hlt.le (map_length_ones t.sizes)
    rw [← payload_of_received hm, hpayload] at hzero
    exact zero_not_mem_ones _ hzero
  · rintro ⟨hlt, hu, hsizes⟩ data unread hdata hunread
    rw [hu] at hunread
    have hlen := length_payload hdata (hunread.trans hu.symm)
    rw [List.eq_nil_of_length_eq_zero hunread, List.append_nil] at hlen ⊢
    rw [← hdata, List.length_map] at hsizes
    exact messageDelivered_of_whole (hlen ▸ hlt) hsizes

/-- Of a payload that comes in two bytes the second one is delivered, in the place of the first. -/
theorem not_publishDelivered_two :
    ¬ PublishDelivered (fun _ => 0) (CStr.bytes "reply") [] ⟨[1, 1], 0, by decide⟩ := by
  intro h
  obtain ⟨-, hsmall, -⟩ := h [[97], [98]] [] rfl rfl
  obtain ⟨m, hm, hpayload, -⟩ := hsmall (by decide)
  have hbuf : read (Mem.writes (fun _ => 0) (publishWrites 2 [[97], [98]])) 0 2 = [98, 0] := by
    decide
  have hread := payload_of_received hm
  exact absurd (hbuf.symm.trans (hread.symm.trans hpayload)) (by decide)

end PseFw.Oob
