/-
**What is left in the buffers.**

A request arrives as bytes in a buffer that is never cleared, and its header says how many of them
are the payload.  The answers to the reads and the events of ECLite leave through one transmit
buffer, and each of them sets only some fields of the header.  So two runs with the same requests
may differ, by what earlier messages have left behind.

Here the messages are bytes.  A run is followed by what is known of the buffers whatever they held
at first: the bytes that were received, and the event that was sent last.  The runs do not differ
when what is known covers what the messages use.

Main definitions:

* `MessageHeaderType.bytes`, `messageHeader` — the bit fields of a header in memory;
* `HostBytes` — the region and the two buffers as bytes, with the functions of the source;
* `HostView` — the part of them that counts;
* `Known` — what is known of the buffers;
* `SameAnswers` — two runs that do not differ.

Main results:

* `toHostComm_receive` — the bytes of a message have the effect of the message;
* `run_view` — the part that counts is enough;
* `sameAnswers_iff` — **two runs with the same messages never differ exactly when what is known
  covers what each message uses.**
-/

import PseFw.Eclite.HostComm

set_option relaxedAutoImplicit false
set_option autoImplicit false

namespace PseFw.Eclite

open Mem

/-! ### The header in memory -/

/-- `sizeof(struct message_header_type)`. -/
def messageHeaderSize : ℕ := 4

/-- The first three bytes of a header: all the fields but the event. -/
def headerLow (buf : ℕ → UInt8) : BitVec 24 :=
  (buf 2).toBitVec ++ ((buf 1).toBitVec ++ (buf 0).toBitVec)

/-- The four bytes of a header, as a number in little-endian order. -/
def headerWord (buf : ℕ → UInt8) : BitVec 32 := (buf 3).toBitVec ++ headerLow buf

/-- The bit fields of a number, the first one in the lowest bits. -/
def MessageHeaderType.ofWord (w : BitVec 32) : MessageHeaderType where
  revision := w.extractLsb' 0 2
  dataType := w.extractLsb' 2 2
  readWrite := w.extractLsb' 4 2
  offset := w.extractLsb' 6 9
  length := w.extractLsb' 15 9
  event := w.extractLsb' 24 8

/-- The number with these bit fields. -/
def MessageHeaderType.word (h : MessageHeaderType) : BitVec 32 :=
  h.event ++ h.length ++ h.offset ++ h.readWrite ++ h.dataType ++ h.revision

/-- The bytes of a header. -/
def MessageHeaderType.bytes (h : MessageHeaderType) : List UInt8 :=
  [⟨h.word.extractLsb' 0 8⟩, ⟨h.word.extractLsb' 8 8⟩, ⟨h.word.extractLsb' 16 8⟩,
    ⟨h.word.extractLsb' 24 8⟩]

/-- The header of the message in a buffer. -/
def messageHeader (buf : ℕ → UInt8) : MessageHeaderType := .ofWord (headerWord buf)

theorem length_bytes (h : MessageHeaderType) : h.bytes.length = messageHeaderSize := rfl

theorem ofWord_word (h : MessageHeaderType) : MessageHeaderType.ofWord h.word = h := by
  unfold MessageHeaderType.ofWord MessageHeaderType.word
  simp (disch := decide) only [BitVec.extractLsb'_append_eq_of_add_le,
    BitVec.extractLsb'_append_eq_of_le, Nat.reduceSub, BitVec.extractLsb'_eq_self]

/-- A number is put together from its bytes. -/
theorem append_extract (w : BitVec 32) :
    w.extractLsb' 24 8 ++ (w.extractLsb' 16 8 ++ (w.extractLsb' 8 8 ++ w.extractLsb' 0 8)) = w := by
  have h1 : w.extractLsb' 8 8 ++ w.extractLsb' 0 8 = w.extractLsb' 0 16 :=
    BitVec.extractLsb'_append_extractLsb'_eq_extractLsb' rfl
  have h2 : w.extractLsb' 16 8 ++ w.extractLsb' 0 16 = w.extractLsb' 0 24 :=
    BitVec.extractLsb'_append_extractLsb'_eq_extractLsb' rfl
  have h3 : w.extractLsb' 24 8 ++ w.extractLsb' 0 24 = w.extractLsb' 0 32 :=
    BitVec.extractLsb'_append_extractLsb'_eq_extractLsb' rfl
  rw [h1, h2, h3]
  exact BitVec.extractLsb'_eq_self

/-- **A header is read as it was written.** -/
theorem messageHeader_write (buf : ℕ → UInt8) (h : MessageHeaderType) (l : List UInt8) :
    messageHeader (write buf 0 (h.bytes ++ l)) = h := by
  have hword : headerWord (write buf 0 (h.bytes ++ l)) = h.word := append_extract h.word
  rw [messageHeader, hword, ofWord_word]

theorem bytes_append_inj {h h' : MessageHeaderType} {l l' : List UInt8}
    (heq : h.bytes ++ l = h'.bytes ++ l') : h = h' := by
  rw [← messageHeader_write (fun _ => 0) h l, heq, messageHeader_write]

/-- The event has a byte of its own; the other fields lie in the three bytes before it. -/
theorem messageHeader_eq (buf : ℕ → UInt8) : messageHeader buf =
    ⟨(headerLow buf).extractLsb' 0 2, (headerLow buf).extractLsb' 2 2,
      (headerLow buf).extractLsb' 4 2, (headerLow buf).extractLsb' 6 9,
      (headerLow buf).extractLsb' 15 9, (buf 3).toBitVec⟩ := by
  unfold messageHeader MessageHeaderType.ofWord headerWord
  rw [BitVec.extractLsb'_append_eq_left]
  simp (disch := decide) only [BitVec.extractLsb'_append_eq_of_add_le]

/-- The third byte is a part of the length. -/
theorem messageHeader_length_high (buf : ℕ → UInt8) :
    (messageHeader buf).length.extractLsb' 1 8 = (buf 2).toBitVec := by
  rw [messageHeader_eq]
  have h : ((headerLow buf).extractLsb' 15 9).extractLsb' 1 8 =
      (headerLow buf).extractLsb' 16 8 := by
    refine BitVec.eq_of_getLsbD_eq fun i hi => ?_
    have hi' : 1 + i < 9 := by omega
    rw [BitVec.getLsbD_extractLsb', BitVec.getLsbD_extractLsb', BitVec.getLsbD_extractLsb',
      decide_eq_true hi', Bool.true_and, ← Nat.add_assoc]
  rw [h]
  exact BitVec.extractLsb'_append_eq_left

section

variable {buf buf' : ℕ → UInt8}

theorem headerLow_congr (h : ∀ i < 3, buf i = buf' i) : headerLow buf = headerLow buf' := by
  unfold headerLow
  rw [h 0 (by omega), h 1 (by omega), h 2 (by omega)]

theorem messageHeader_congr (h : ∀ i < messageHeaderSize, buf i = buf' i) :
    messageHeader buf = messageHeader buf' := by
  unfold messageHeader headerWord
  rw [headerLow_congr fun i hi => h i (Nat.lt_succ_of_lt hi), h 3 (Nat.lt_succ_self 3)]

end

/-! ### The functions of the source, on bytes -/

/-- `eclite_opregion`, `eclite_rx_buffer` and `eclite_tx_buffer` as bytes. -/
structure HostBytes where
  opregion : ℕ → UInt8
  rxBuffer : ℕ → UInt8
  txBuffer : ℕ → UInt8
  dataMsgHeciSendStat : Ret
  /-- `heci_connection_id`; `none` is `ECLITE_HECI_INVALID_CONN_ID`. -/
  heciConnectionId : Option ℕ

namespace HostBytes

/-- HECI puts the received bytes into the buffer; what stands behind them stays. -/
def fill (received : List UInt8) (s : HostBytes) : HostBytes :=
  { s with rxBuffer := write s.rxBuffer 0 received }

/-- `eclite_process_data_message`, with the bytes of the answer that is sent.  The argument is the
result of `heci_send`. -/
def ecliteProcessDataMessage (heciSend : Bool) (s : HostBytes) :
    Ret × HostBytes × Option (List UInt8) :=
  let header := messageHeader s.rxBuffer
  let offset := header.offset.toNat
  let length := header.length.toNat
  if offset + length > maxOprLength then (.error, s, none)
  else if header.readWrite = ecliteHeaderOprRead then
    -- the event is the one of the last message in the transmit buffer
    let header2 := { messageHeader s.txBuffer with
      revision := 0
      dataType := ecliteHeaderTypeData
      readWrite := ecliteHeaderOprRead
      offset := header.offset
      length := header.length }
    let txBuffer := write (write s.txBuffer 0 header2.bytes) messageHeaderSize
      (read s.opregion offset length)
    if heciSend = true then
      (.success, { s with txBuffer := txBuffer },
        some (read txBuffer 0 (messageHeaderSize + length)))
    else (.success, { s with txBuffer := txBuffer, dataMsgHeciSendStat := .error }, none)
  else if header.readWrite = ecliteHeaderOprWrite then
    if ecliteVerifyOpregWrAccess offset length = .success then
      (.success, { s with
        opregion := write s.opregion offset (read s.rxBuffer messageHeaderSize length) }, none)
    else (.error, s, none)
  else (.error, s, none)

/-- `eclite_process_msg`, with the answer and the event that is posted. -/
def ecliteProcessMsg (heciSend : Bool) (s : HostBytes) :
    HostBytes × Option (List UInt8) × Option DispatcherQueueData :=
  let header := messageHeader s.rxBuffer
  let event := if header.event = 0 then none else ecliteProcessEventMessage header.event
  if header.dataType = ecliteHeaderTypeData then
    let out := s.ecliteProcessDataMessage heciSend
    (out.2.1, out.2.2, event)
  else (s, none, event)

/-- `check_events_config_request`, when a request has been received. -/
def checkEventsConfigRequest (s : HostBytes) : HostBytes :=
  let header := messageHeader s.rxBuffer
  if header.dataType ≠ ecliteHeaderTypeData then s
  else if header.readWrite ≠ ecliteHeaderOprWrite then s
  else if header.offset.toNat ≠ Eclite.eventNotifyConfig then s
  else { s with
    opregion := write s.opregion OpField.eventNotifyConfig.offset [s.rxBuffer messageHeaderSize] }

/-- **The way of a request**: the buffer, the callback, the dispatcher. -/
def receive (heciSend : Bool) (received : List UInt8) (s : HostBytes) :
    HostBytes × Option (List UInt8) × Option DispatcherQueueData :=
  (s.fill received).checkEventsConfigRequest.ecliteProcessMsg heciSend

/-- `ECLITE_HEADER_TYPE_EVENT`. -/
def ecliteHeaderTypeEvent : BitVec 2 := 2

/-- `eclite_send_event`, with the message that is sent. -/
def ecliteSendEvent (heciSend : Bool) (event : BitVec 32) (s : HostBytes) :
    Ret × HostBytes × Option (List UInt8) :=
  -- the offset, the length and the operation are those of the last answer
  let header := { messageHeader s.txBuffer with
    revision := 0
    event := event.setWidth 8
    dataType := ecliteHeaderTypeEvent }
  let s' := { s with txBuffer := write s.txBuffer 0 header.bytes }
  if s.heciConnectionId = none then (.error, s', none)
  else if s.opregion OpField.eventNotifyConfig.offset = 0 then (.success, s', none)
  else if heciSend = true then (.success, s', some (read s'.txBuffer 0 messageHeaderSize))
  else (.error, s', none)

end HostBytes

/-! ### The messages behind the bytes -/

/-- The answer behind its bytes. -/
def answerOf (l : List UInt8) : MessageHeaderType × List UInt8 :=
  (messageHeader (write (fun _ => 0) 0 l), l.drop messageHeaderSize)

/-- The state behind the bytes; the argument is what has been sent. -/
def HostBytes.toHostComm (sent : List (MessageHeaderType × List UInt8)) (s : HostBytes) :
    HostComm where
  opregion := s.opregion
  rxHeader := messageHeader s.rxBuffer
  rxData i := s.rxBuffer (messageHeaderSize + i)
  txHeader := messageHeader s.txBuffer
  sent := sent
  dataMsgHeciSendStat := s.dataMsgHeciSendStat
  heciConnectionId := s.heciConnectionId

/-- A header and what is copied behind it. -/
theorem write_header (buf : ℕ → UInt8) (h : MessageHeaderType) (l : List UInt8) :
    write (write buf 0 h.bytes) messageHeaderSize l = write buf 0 (h.bytes ++ l) :=
  write_append buf 0 h.bytes l

theorem read_header (buf : ℕ → UInt8) (h : MessageHeaderType) {l : List UInt8} {n : ℕ}
    (hn : l.length = n) :
    read (write buf 0 (h.bytes ++ l)) 0 (messageHeaderSize + n) = h.bytes ++ l := by
  rw [← hn, ← length_bytes h, ← List.length_append]
  exact read_write_self buf 0 (h.bytes ++ l)

section

variable {heciSend : Bool} {sent : List (MessageHeaderType × List UInt8)}

theorem toHostComm_fill (m : Message) (s : HostBytes) :
    (s.fill (m.header.bytes ++ m.payload)).toHostComm sent = (s.toHostComm sent).fill m := by
  have hheader := messageHeader_write s.rxBuffer m.header m.payload
  have hdata : (fun i => write s.rxBuffer 0 (m.header.bytes ++ m.payload)
        (messageHeaderSize + i)) =
      write (fun i => s.rxBuffer (messageHeaderSize + i)) 0 m.payload := by
    funext i
    rw [← write_header]
    rcases Nat.lt_or_ge i m.payload.length with hi | hi
    · have h0 := write_add (fun i => s.rxBuffer (messageHeaderSize + i)) 0 hi
      rw [write_add _ _ hi, ← h0, Nat.zero_add]
    · rw [write_of_ge _ _ (by omega), write_of_ge _ _ (by rw [length_bytes]; omega),
        write_of_ge _ _ (by omega)]
  unfold HostBytes.toHostComm HostBytes.fill HostComm.fill
  simp only [hheader, hdata]

theorem toHostComm_check (s : HostBytes) :
    s.checkEventsConfigRequest.toHostComm sent =
      checkEventsConfigRequest (s.toHostComm sent) := by
  unfold HostBytes.checkEventsConfigRequest checkEventsConfigRequest
  by_cases hd : (messageHeader s.rxBuffer).dataType ≠ ecliteHeaderTypeData
  · rw [if_pos hd]
    exact (if_pos hd).symm
  · rw [if_neg hd]
    refine Eq.trans ?_ (if_neg hd).symm
    by_cases hw : (messageHeader s.rxBuffer).readWrite ≠ ecliteHeaderOprWrite
    · rw [if_pos hw]
      exact (if_pos hw).symm
    · rw [if_neg hw]
      refine Eq.trans ?_ (if_neg hw).symm
      by_cases ho : (messageHeader s.rxBuffer).offset.toNat ≠ eventNotifyConfig
      · rw [if_pos ho]
        exact (if_pos ho).symm
      · rw [if_neg ho]
        exact (if_neg ho).symm

theorem toHostComm_processData (s : HostBytes) :
    (s.ecliteProcessDataMessage heciSend).2.1.toHostComm
        (sent ++ (s.ecliteProcessDataMessage heciSend).2.2.toList.map answerOf) =
      (ecliteProcessDataMessage heciSend (s.toHostComm sent)).2 := by
  have hrx : (s.toHostComm sent).rxHeader = messageHeader s.rxBuffer := rfl
  have hdata : read (s.toHostComm sent).rxData 0 (messageHeader s.rxBuffer).length.toNat =
      read s.rxBuffer messageHeaderSize (messageHeader s.rxBuffer).length.toNat := by
    refine List.map_congr_left fun i _ => ?_
    show s.rxBuffer (messageHeaderSize + (0 + i)) = s.rxBuffer (messageHeaderSize + i)
    rw [Nat.zero_add]
  unfold HostBytes.ecliteProcessDataMessage ecliteProcessDataMessage
  simp only [hrx]
  split_ifs with hmax hr hb hw hv
  · simp only [Option.toList_none, List.map_nil, List.append_nil]
  · simp only [HostBytes.toHostComm, write_header, messageHeader_write,
      read_header _ _ (length_read _ _ _), Option.toList_some, List.map_cons, List.map_nil,
      answerOf, List.drop_left' (length_bytes _)]
  · simp only [HostBytes.toHostComm, write_header, messageHeader_write, Option.toList_none,
      List.map_nil, List.append_nil]
  · simp only [Option.toList_none, List.map_nil, List.append_nil]
    rw [hdata]
    rfl
  · simp only [Option.toList_none, List.map_nil, List.append_nil]
  · simp only [Option.toList_none, List.map_nil, List.append_nil]

/-- **The bytes of a message have the effect of the message.** -/
theorem toHostComm_receive (m : Message) (s : HostBytes) :
    (s.receive heciSend (m.header.bytes ++ m.payload)).1.toHostComm
        (sent ++ (s.receive heciSend (m.header.bytes ++ m.payload)).2.1.toList.map answerOf) =
      receiveMessage heciSend m (s.toHostComm sent) := by
  unfold HostBytes.receive receiveMessage
  rw [← toHostComm_fill, ← toHostComm_check]
  generalize (s.fill (m.header.bytes ++ m.payload)).checkEventsConfigRequest = s'
  have hdata := @toHostComm_processData heciSend sent s'
  unfold HostBytes.ecliteProcessMsg ecliteProcessMsg
  by_cases hd : (messageHeader s'.rxBuffer).dataType = ecliteHeaderTypeData
  · rw [if_pos hd]
    exact hdata.trans (if_pos hd).symm
  · rw [if_neg hd]
    simp only [Option.toList_none, List.map_nil, List.append_nil]
    exact (if_neg hd).symm

end

/-! ### The part that counts -/

/-- The region, the receive buffer, and the event in the transmit buffer. -/
structure HostView where
  opregion : ℕ → UInt8
  rxBuffer : ℕ → UInt8
  txEvent : BitVec 8

/-- What of the bytes counts. -/
def HostBytes.view (s : HostBytes) : HostView :=
  ⟨s.opregion, s.rxBuffer, (messageHeader s.txBuffer).event⟩

/-- The request in the buffer is one to read. -/
def MessageHeaderType.IsRead (h : MessageHeaderType) : Prop :=
  h.dataType = ecliteHeaderTypeData ∧ h.readWrite = ecliteHeaderOprRead

/-- The request in the buffer is one to write. -/
def MessageHeaderType.IsWrite (h : MessageHeaderType) : Prop :=
  h.dataType = ecliteHeaderTypeData ∧ h.readWrite = ecliteHeaderOprWrite

instance (h : MessageHeaderType) : Decidable h.IsRead := inferInstanceAs (Decidable (_ ∧ _))

instance (h : MessageHeaderType) : Decidable h.IsWrite := inferInstanceAs (Decidable (_ ∧ _))

theorem MessageHeaderType.IsWrite.not_isRead {h : MessageHeaderType} (hw : h.IsWrite) :
    ¬ h.IsRead := fun hr => absurd (hw.2.symm.trans hr.2) (by decide)

/-- The region behind the callback. -/
def switched (buf o : ℕ → UInt8) : ℕ → UInt8 :=
  if (messageHeader buf).IsWrite ∧ (messageHeader buf).offset.toNat = eventNotifyConfig then
    write o eventNotifyConfig [buf messageHeaderSize]
  else o

/-- The region behind the request in the buffer. -/
def regionAfter (buf o : ℕ → UInt8) : ℕ → UInt8 :=
  if (messageHeader buf).IsWrite ∧ ecliteVerifyOpregWrAccess (messageHeader buf).offset.toNat
      (messageHeader buf).length.toNat = .success then
    write (switched buf o) (messageHeader buf).offset.toNat
      (read buf messageHeaderSize (messageHeader buf).length.toNat)
  else switched buf o

/-- The header of the answer. -/
def answerHeader (buf : ℕ → UInt8) (event : BitVec 8) : MessageHeaderType :=
  ⟨0, ecliteHeaderTypeData, ecliteHeaderOprRead, (messageHeader buf).offset,
    (messageHeader buf).length, event⟩

/-- The request in the buffer is answered. -/
def Answered (heciSend : Bool) (h : MessageHeaderType) : Prop :=
  h.IsRead ∧ h.offset.toNat + h.length.toNat ≤ maxOprLength ∧ heciSend = true

instance (heciSend : Bool) (h : MessageHeaderType) : Decidable (Answered heciSend h) :=
  inferInstanceAs (Decidable (_ ∧ _))

/-- The answer to the request in the buffer. -/
def answer (heciSend : Bool) (buf : ℕ → UInt8) (event : BitVec 8) (o : ℕ → UInt8) :
    Option (List UInt8) :=
  if Answered heciSend (messageHeader buf) then
    some ((answerHeader buf event).bytes ++
      read o (messageHeader buf).offset.toNat (messageHeader buf).length.toNat)
  else none

section

variable {heciSend : Bool} (s : HostBytes)

theorem check_bytes : s.checkEventsConfigRequest =
    { s with opregion := switched s.rxBuffer s.opregion } := by
  unfold HostBytes.checkEventsConfigRequest switched
  by_cases hc : (messageHeader s.rxBuffer).IsWrite ∧
      (messageHeader s.rxBuffer).offset.toNat = eventNotifyConfig
  · rw [if_pos hc]
    simp only
    rw [if_neg (not_not_intro hc.1.1), if_neg (not_not_intro hc.1.2), if_neg (not_not_intro hc.2),
      offset_eventNotifyConfig]
  · rw [if_neg hc]
    simp only
    split
    · rfl
    · rename_i hd
      split
      · rfl
      · rename_i hw
        exact if_pos fun ho => hc ⟨⟨not_not.1 hd, not_not.1 hw⟩, ho⟩

/-- A request to write that the table takes. -/
def MessageHeaderType.Taken (h : MessageHeaderType) : Prop :=
  h.IsWrite ∧ ecliteVerifyOpregWrAccess h.offset.toNat h.length.toNat = .success

instance (h : MessageHeaderType) : Decidable h.Taken := inferInstanceAs (Decidable (_ ∧ _))

/-- What the dispatcher makes of the buffers: the region, the buffers and the answer. -/
structure Processed (heciSend : Bool) (s s' : HostBytes) (answered : Option (List UInt8)) :
    Prop where
  opregion : s'.opregion =
    if (messageHeader s.rxBuffer).Taken then
      write s.opregion (messageHeader s.rxBuffer).offset.toNat
        (read s.rxBuffer messageHeaderSize (messageHeader s.rxBuffer).length.toNat)
    else s.opregion
  rxBuffer : s'.rxBuffer = s.rxBuffer
  event : (messageHeader s'.txBuffer).event = (messageHeader s.txBuffer).event
  answer : answered = answer heciSend s.rxBuffer (messageHeader s.txBuffer).event s.opregion

variable {s}

/-- A request that is neither answered nor taken. -/
theorem processed_idle (hna : ¬ Answered heciSend (messageHeader s.rxBuffer))
    (hnt : ¬ (messageHeader s.rxBuffer).Taken) : Processed heciSend s s none :=
  ⟨(if_neg hnt).symm, rfl, rfl, (if_neg hna).symm⟩

/-- A request to read: with an answer that is sent, or with one that is not. -/
theorem processed_read (hread : (messageHeader s.rxBuffer).IsRead)
    (hmax : (messageHeader s.rxBuffer).offset.toNat + (messageHeader s.rxBuffer).length.toNat ≤
      maxOprLength) :
    Processed heciSend s (s.ecliteProcessDataMessage heciSend).2.1
      (s.ecliteProcessDataMessage heciSend).2.2 := by
  have hnt : ¬ (messageHeader s.rxBuffer).Taken := fun ht => ht.1.not_isRead hread
  unfold HostBytes.ecliteProcessDataMessage
  simp only
  rw [if_neg (Nat.not_lt.2 hmax), if_pos hread.2]
  by_cases hb : heciSend = true
  · have ha : Answered heciSend (messageHeader s.rxBuffer) := ⟨hread, hmax, hb⟩
    rw [if_pos hb]
    refine ⟨(if_neg hnt).symm, rfl, ?_, ?_⟩
    · simp only [write_header, messageHeader_write]
    · rw [answer, if_pos ha]
      simp only [write_header, read_header _ _ (length_read _ _ _), answerHeader]
  · have hna : ¬ Answered heciSend (messageHeader s.rxBuffer) := fun ha => hb ha.2.2
    rw [if_neg hb]
    refine ⟨(if_neg hnt).symm, rfl, ?_, (if_neg hna).symm⟩
    simp only [write_header, messageHeader_write]

/-- Another request: it is written if the table takes it. -/
theorem processed_not_read (hr : (messageHeader s.rxBuffer).readWrite ≠ ecliteHeaderOprRead)
    (hd : (messageHeader s.rxBuffer).dataType = ecliteHeaderTypeData)
    (hmax : (messageHeader s.rxBuffer).offset.toNat + (messageHeader s.rxBuffer).length.toNat ≤
      maxOprLength) :
    Processed heciSend s (s.ecliteProcessDataMessage heciSend).2.1
      (s.ecliteProcessDataMessage heciSend).2.2 := by
  have hna : ¬ Answered heciSend (messageHeader s.rxBuffer) := fun ha => hr ha.1.2
  unfold HostBytes.ecliteProcessDataMessage
  simp only
  rw [if_neg (Nat.not_lt.2 hmax), if_neg hr]
  by_cases hw : (messageHeader s.rxBuffer).readWrite = ecliteHeaderOprWrite
  · rw [if_pos hw]
    by_cases hv : ecliteVerifyOpregWrAccess (messageHeader s.rxBuffer).offset.toNat
        (messageHeader s.rxBuffer).length.toNat = .success
    · rw [if_pos hv]
      exact ⟨(if_pos ⟨⟨hd, hw⟩, hv⟩).symm, rfl, rfl, (if_neg hna).symm⟩
    · rw [if_neg hv]
      exact processed_idle hna fun ht => hv ht.2
  · rw [if_neg hw]
    exact processed_idle hna fun ht => hw ht.1.2

/-- **The dispatcher, on the bytes.** -/
theorem processed_msg : Processed heciSend s (s.ecliteProcessMsg heciSend).1
    (s.ecliteProcessMsg heciSend).2.1 := by
  unfold HostBytes.ecliteProcessMsg
  by_cases hd : (messageHeader s.rxBuffer).dataType = ecliteHeaderTypeData
  · rw [if_pos hd]
    by_cases hmax : (messageHeader s.rxBuffer).offset.toNat +
        (messageHeader s.rxBuffer).length.toNat ≤ maxOprLength
    · by_cases hr : (messageHeader s.rxBuffer).readWrite = ecliteHeaderOprRead
      · exact processed_read ⟨hd, hr⟩ hmax
      · exact processed_not_read hr hd hmax
    · -- the range is refused before the operation is looked at
      have hidle : Processed heciSend s s none := by
        refine processed_idle (fun ha => hmax ha.2.1) fun ht => hmax ?_
        exact ((verify_iff_fits _ _).1 ht.2).le_max
      unfold HostBytes.ecliteProcessDataMessage
      simp only
      rw [if_pos (Nat.not_le.1 hmax)]
      exact hidle
  · rw [if_neg hd]
    exact processed_idle (fun ha => hd ha.1.1) fun ht => hd ht.1.1

variable (s)

/-- An answer comes from the region as the callback leaves it, which is as it was. -/
theorem answer_switched (buf : ℕ → UInt8) (event : BitVec 8) (o : ℕ → UInt8) :
    answer heciSend buf event (switched buf o) = answer heciSend buf event o := by
  unfold answer
  by_cases ha : Answered heciSend (messageHeader buf)
  · rw [if_pos ha, if_pos ha, switched, if_neg fun hc => hc.1.not_isRead ha.1]
  · rw [if_neg ha, if_neg ha]

/-- **What a request does to the part that counts, and the answer to it.** -/
theorem receive_view (received : List UInt8) :
    (s.receive heciSend received).1.view =
        ⟨regionAfter (write s.rxBuffer 0 received) s.opregion, write s.rxBuffer 0 received,
          s.view.txEvent⟩ ∧
      (s.receive heciSend received).2.1 =
        answer heciSend (write s.rxBuffer 0 received) s.view.txEvent s.opregion := by
  unfold HostBytes.receive
  rw [check_bytes]
  obtain ⟨ho, hr, ht, ha⟩ := @processed_msg heciSend
    { s.fill received with
      opregion := switched (s.fill received).rxBuffer (s.fill received).opregion }
  refine ⟨?_, ha.trans (answer_switched _ _ _)⟩
  unfold HostBytes.view
  rw [ho, hr, ht]
  rfl

/-- An event leaves its number in the transmit buffer, sent or not. -/
theorem sendEvent_view (event : BitVec 32) :
    (s.ecliteSendEvent heciSend event).2.1.view =
      ⟨s.opregion, s.rxBuffer, event.setWidth 8⟩ := by
  have hheader : ∀ h : MessageHeaderType, messageHeader (write s.txBuffer 0 h.bytes) = h := by
    intro h
    have := messageHeader_write s.txBuffer h []
    rwa [List.append_nil] at this
  unfold HostBytes.ecliteSendEvent HostBytes.view
  split_ifs <;> simp only [hheader]

end

/-! ### Runs -/

/-- `ECLITE_HECI_MAX_RX_SIZE`. -/
def ecliteHeciMaxRxSize : ℕ := maxOprLength + messageHeaderSize

/-- The bytes of a request, as many as HECI has counted. -/
structure Received where
  bytes : List UInt8
  le : bytes.length ≤ ecliteHeciMaxRxSize

/-- What happens to the region and the buffers. -/
inductive HostOp
  /-- The host sends a request; the first argument is the result of `heci_send`. -/
  | request (heciSend : Bool) (received : Received)
  /-- ECLite has an event for the host. -/
  | event (heciSend : Bool) (number : BitVec 32)
  /-- The drivers write to the region. -/
  | update (address : ℕ) (bytes : List UInt8)

/-- The state behind, and the answer if a read is answered. -/
def HostOp.run : HostOp → HostBytes → HostBytes × Option (List UInt8)
  | .request heciSend received, s =>
      ((s.receive heciSend received.bytes).1, (s.receive heciSend received.bytes).2.1)
  | .event heciSend number, s => ((s.ecliteSendEvent heciSend number).2.1, none)
  | .update address bytes, s => ({ s with opregion := write s.opregion address bytes }, none)

/-- Two runs of the same operations: the regions and the answers are the same all along. -/
def SameAnswers : List HostOp → HostBytes → HostBytes → Prop
  | [], _, _ => True
  | op :: ops, a, b => (op.run a).1.opregion = (op.run b).1.opregion ∧
      (op.run a).2 = (op.run b).2 ∧ SameAnswers ops (op.run a).1 (op.run b).1

/-- An operation on the part that counts. -/
def HostOp.step : HostOp → HostView → HostView × Option (List UInt8)
  | .request heciSend received, v =>
      (⟨regionAfter (write v.rxBuffer 0 received.bytes) v.opregion,
          write v.rxBuffer 0 received.bytes, v.txEvent⟩,
        answer heciSend (write v.rxBuffer 0 received.bytes) v.txEvent v.opregion)
  | .event _ number, v => (⟨v.opregion, v.rxBuffer, number.setWidth 8⟩, none)
  | .update address bytes, v => ({ v with opregion := write v.opregion address bytes }, none)

theorem step_request (heciSend : Bool) (received : Received) (v : HostView) :
    (HostOp.request heciSend received).step v =
      (⟨regionAfter (write v.rxBuffer 0 received.bytes) v.opregion,
          write v.rxBuffer 0 received.bytes, v.txEvent⟩,
        answer heciSend (write v.rxBuffer 0 received.bytes) v.txEvent v.opregion) := rfl

theorem step_update (address : ℕ) (bytes : List UInt8) (v : HostView) :
    (HostOp.update address bytes).step v =
      ({ v with opregion := write v.opregion address bytes }, none) := rfl

/-- The same for the part that counts. -/
def SameViews : List HostOp → HostView → HostView → Prop
  | [], _, _ => True
  | op :: ops, v, w => (op.step v).1.opregion = (op.step w).1.opregion ∧
      (op.step v).2 = (op.step w).2 ∧ SameViews ops (op.step v).1 (op.step w).1

/-- **The part that counts is enough.** -/
theorem run_view (op : HostOp) (s : HostBytes) :
    (op.run s).1.view = (op.step s.view).1 ∧ (op.run s).2 = (op.step s.view).2 := by
  cases op with
  | request heciSend received => exact receive_view s received.bytes
  | event heciSend number => exact ⟨sendEvent_view s number, rfl⟩
  | update address bytes => exact ⟨rfl, rfl⟩

theorem sameAnswers_view (ops : List HostOp) (a b : HostBytes) :
    SameAnswers ops a b ↔ SameViews ops a.view b.view := by
  induction ops generalizing a b with
  | nil => exact Iff.rfl
  | cons op ops ih =>
      obtain ⟨ha, hansa⟩ := run_view op a
      obtain ⟨hb, hansb⟩ := run_view op b
      unfold SameAnswers SameViews
      rw [ih, ha, hb, hansa, hansb, ← ha, ← hb]
      exact Iff.rfl

/-- Every part that counts is the part of some state. -/
theorem exists_view (v : HostView) : ∃ s : HostBytes, s.view = v := by
  let header : MessageHeaderType := ⟨0, 0, 0, 0, 0, v.txEvent⟩
  refine ⟨⟨v.opregion, v.rxBuffer, write (fun _ => 0) 0 (header.bytes ++ []), .success, none⟩, ?_⟩
  unfold HostBytes.view
  rw [messageHeader_write]

/-! ### What is known -/

/-- What is known of the buffers whatever they held at first: the first bytes of the receive
buffer, and the event in the transmit buffer when one has been sent. -/
structure Known where
  bytes : ℕ → UInt8
  count : ℕ
  txEvent : Option (BitVec 8)

/-- Nothing is known at first. -/
def Known.start : Known := ⟨fun _ => 0, 0, none⟩

/-- The bytes of a buffer that are known. -/
def Known.Fills (k : Known) (buf : ℕ → UInt8) : Prop := ∀ i < k.count, buf i = k.bytes i

/-- A state that agrees with what is known. -/
structure Known.Allows (k : Known) (o : ℕ → UInt8) (v : HostView) : Prop where
  opregion : v.opregion = o
  fills : k.Fills v.rxBuffer
  txEvent : ∀ e, k.txEvent = some e → v.txEvent = e

/-- What an operation makes known. -/
def HostOp.learn : HostOp → Known → Known
  | .request _ received, k =>
      ⟨write k.bytes 0 received.bytes, max k.count received.bytes.length, k.txEvent⟩
  | .event _ number, k => { k with txEvent := some (number.setWidth 8) }
  | .update _ _, k => k

/-- **What is known covers what a message with this header uses.**  The answer to a read takes over
the event in the transmit buffer; a write that is allowed takes its payload from the receive buffer;
and a write to the switch for the events has its first byte read, allowed or not. -/
structure Covered (heciSend : Bool) (k : Known) (h : MessageHeaderType) : Prop where
  read : Answered heciSend h → k.txEvent ≠ none ∧ 3 ≤ k.count
  write : h.IsWrite → Fits h.offset.toNat h.length.toNat → 0 < h.length.toNat →
    messageHeaderSize + h.length.toNat ≤ k.count
  switch : h.IsWrite → h.offset.toNat = eventNotifyConfig → messageHeaderSize < k.count

/-- What is known covers the operation, whatever header the known bytes make. -/
def HostOp.Covers (k : Known) : HostOp → Prop
  | .request heciSend _ => ∀ buf, k.Fills buf → Covered heciSend k (messageHeader buf)
  | .event _ _ => True
  | .update _ _ => True

/-- **Every operation of a run is covered by what is known when it takes place.** -/
def CoveredRun : List HostOp → Known → Prop
  | [], _ => True
  | op :: ops, k => op.Covers (op.learn k) ∧ CoveredRun ops (op.learn k)

section

variable {heciSend : Bool} {k : Known} {buf buf' o : ℕ → UInt8} {e e' : BitVec 8}

/-- Two buffers that agree where they are known. -/
theorem Known.Fills.eq (h : k.Fills buf) (h' : k.Fills buf') {i : ℕ} (hi : i < k.count) :
    buf i = buf' i :=
  (h i hi).trans (h' i hi).symm

/-- A byte that is not known may be any. -/
theorem Known.Fills.write (h : k.Fills buf) {i : ℕ} (hi : k.count ≤ i) (b : UInt8) :
    k.Fills (write buf i [b]) := fun j hj =>
  (write_of_lt buf [b] (Nat.lt_of_lt_of_le hj hi)).trans (h j hj)

theorem write_one (buf : ℕ → UInt8) (i : ℕ) (b : UInt8) : write buf i [b] i = b :=
  write_add (l := [b]) (i := 0) buf i Nat.one_pos

theorem add_one_ne (b : UInt8) : b + 1 ≠ b := by
  intro h
  have h1 : b + 1 = b + 0 := h.trans (UInt8.add_zero b).symm
  exact absurd (UInt8.add_right_inj b |>.1 h1) (by decide)

/-! ### What is covered does not differ -/

/-- The answer comes from the first three bytes, and from the event. -/
theorem answer_congr (h : ∀ i < 3, buf i = buf' i) :
    answer heciSend buf e o = answer heciSend buf' e o := by
  have hlow := headerLow_congr h
  unfold answer answerHeader Answered MessageHeaderType.IsRead
  rw [messageHeader_eq buf, messageHeader_eq buf', hlow]
  rfl

theorem answer_eq_of_covered (hf : k.Fills buf) (hf' : k.Fills buf')
    (hc : Covered heciSend k (messageHeader buf)) (hc' : Covered heciSend k (messageHeader buf'))
    (he : ∀ x, k.txEvent = some x → e = x) (he' : ∀ x, k.txEvent = some x → e' = x) :
    answer heciSend buf e o = answer heciSend buf' e' o := by
  by_cases ha : Answered heciSend (messageHeader buf) ∨ Answered heciSend (messageHeader buf')
  · have hk : k.txEvent ≠ none ∧ 3 ≤ k.count := ha.elim hc.read hc'.read
    obtain ⟨x, hx⟩ := Option.ne_none_iff_exists'.1 hk.1
    rw [he x hx, he' x hx]
    exact answer_congr fun i hi => hf.eq hf' (Nat.lt_of_lt_of_le hi hk.2)
  · rw [not_or] at ha
    unfold answer
    rw [if_neg ha.1, if_neg ha.2]

/-- With a header at most, nothing is written. -/
theorem regionAfter_of_short (hc : Covered heciSend k (messageHeader buf))
    (hk : k.count ≤ messageHeaderSize) : regionAfter buf o = o := by
  have hswitch : switched buf o = o :=
    if_neg fun hw => absurd (hc.switch hw.1 hw.2) (Nat.not_lt.2 hk)
  unfold regionAfter
  rw [hswitch]
  split
  · rename_i hw
    have hzero : (messageHeader buf).length.toNat = 0 := by
      by_contra hne
      have := hc.write hw.1 ((verify_iff_fits _ _).1 hw.2) (Nat.pos_of_ne_zero hne)
      omega
    rw [hzero]
    exact write_read_self o _ 0
  · rfl

theorem regionAfter_eq_of_covered (hf : k.Fills buf) (hf' : k.Fills buf')
    (hc : Covered heciSend k (messageHeader buf)) (hc' : Covered heciSend k (messageHeader buf')) :
    regionAfter buf o = regionAfter buf' o := by
  rcases Nat.lt_or_ge messageHeaderSize k.count with hk | hk
  · have hheader : messageHeader buf = messageHeader buf' :=
      messageHeader_congr fun i hi => hf.eq hf' (Nat.lt_trans hi hk)
    have hswitch : switched buf o = switched buf' o := by
      unfold switched
      rw [hheader, hf.eq hf' hk]
    unfold regionAfter
    rw [hswitch, hheader]
    by_cases hw : (messageHeader buf').IsWrite ∧ ecliteVerifyOpregWrAccess
        (messageHeader buf').offset.toNat (messageHeader buf').length.toNat = .success
    · rw [if_pos hw, if_pos hw]
      refine congrArg _ (read_congr fun i _ hi => ?_)
      have hcover := hc'.write hw.1 ((verify_iff_fits _ _).1 hw.2)
      exact hf.eq hf' (by omega)
    · rw [if_neg hw, if_neg hw]
  · rw [regionAfter_of_short hc hk, regionAfter_of_short hc' hk]

/-! ### What is not covered may differ -/

/-- Two answers that do not differ have the same header. -/
theorem answer_header (ha : Answered heciSend (messageHeader buf))
    (h : answer heciSend buf' e' o = answer heciSend buf e o) :
    answerHeader buf' e' = answerHeader buf e := by
  unfold answer at h
  rw [if_pos ha] at h
  split at h
  · exact bytes_append_inj (Option.some.inj h)
  · cases h

theorem regionAfter_stored (hw : (messageHeader buf).IsWrite)
    (hfits : Fits (messageHeader buf).offset.toNat (messageHeader buf).length.toNat) {i : ℕ}
    (hi : i < (messageHeader buf).length.toNat) :
    regionAfter buf o ((messageHeader buf).offset.toNat + i) = buf (messageHeaderSize + i) := by
  unfold regionAfter
  rw [if_pos ⟨hw, (verify_iff_fits _ _).2 hfits⟩, write_add _ _ (by rwa [length_read]),
    getElem_read]

/-- The switch keeps what the callback wrote, when the dispatcher writes nothing. -/
theorem regionAfter_switch (hw : (messageHeader buf).IsWrite)
    (ho : (messageHeader buf).offset.toNat = eventNotifyConfig)
    (h : Fits (messageHeader buf).offset.toNat (messageHeader buf).length.toNat →
      (messageHeader buf).length.toNat = 0) :
    regionAfter buf o eventNotifyConfig = buf messageHeaderSize := by
  have hswitch : switched buf o eventNotifyConfig = buf messageHeaderSize := by
    unfold switched
    rw [if_pos ⟨hw, ho⟩]
    exact write_one o eventNotifyConfig (buf messageHeaderSize)
  unfold regionAfter
  split
  · rename_i hc
    rw [h ((verify_iff_fits _ _).1 hc.2), ho]
    exact (write_of_ge _ _ le_rfl).trans hswitch
  · exact hswitch

/-- A read whose answer does not depend on what is not known. -/
theorem covered_read (hf : k.Fills buf) (ha : Answered heciSend (messageHeader buf))
    (hans : ∀ buf' e e', k.Fills buf' → (∀ x, k.txEvent = some x → e = x ∧ e' = x) →
      answer heciSend buf' e' o = answer heciSend buf e o) : k.txEvent ≠ none ∧ 3 ≤ k.count := by
  constructor
  · intro hnone
    have hheader := answer_header ha (hans buf 0 1 hf fun x hx => by rw [hnone] at hx; cases hx)
    exact absurd (congrArg MessageHeaderType.event hheader) (by decide : (1 : BitVec 8) ≠ 0)
  · by_contra hlt
    have hheader := answer_header ha (hans _ (k.txEvent.getD 0) (k.txEvent.getD 0)
      (hf.write (i := 2) (by omega) (buf 2 + 1)) fun x hx => by rw [hx]; exact ⟨rfl, rfl⟩)
    have hlength := congrArg (fun h => h.length.extractLsb' 1 8) hheader
    have hbyte : (write buf 2 [buf 2 + 1] 2).toBitVec = (buf 2).toBitVec :=
      (messageHeader_length_high _).symm.trans (hlength.trans (messageHeader_length_high _))
    rw [write_one] at hbyte
    exact add_one_ne (buf 2) (UInt8.toBitVec_inj.1 hbyte)

/-- A byte behind the header is not a part of it. -/
theorem messageHeader_write_one {i : ℕ} (hi : messageHeaderSize ≤ i) (b : UInt8) :
    messageHeader (write buf i [b]) = messageHeader buf :=
  messageHeader_congr fun _ hj => write_of_lt buf [b] (Nat.lt_of_lt_of_le hj hi)

/-- A write whose effect does not depend on what is not known. -/
theorem covered_write (hf : k.Fills buf) (hw : (messageHeader buf).IsWrite)
    (hfits : Fits (messageHeader buf).offset.toNat (messageHeader buf).length.toNat)
    (hpos : 0 < (messageHeader buf).length.toNat)
    (hreg : ∀ buf', k.Fills buf' → regionAfter buf' o = regionAfter buf o) :
    messageHeaderSize + (messageHeader buf).length.toNat ≤ k.count := by
  by_contra hlt
  -- the last byte of the payload is not known
  obtain ⟨n, hn⟩ := Nat.exists_eq_succ_of_ne_zero hpos.ne'
  have hi : n < (messageHeader buf).length.toNat := by omega
  have hheader : messageHeader (write buf (messageHeaderSize + n)
      [buf (messageHeaderSize + n) + 1]) = messageHeader buf :=
    messageHeader_write_one (Nat.le_add_right _ _) _
  have hsame := congrFun (hreg _ (hf.write (i := messageHeaderSize + n) (by omega)
    (buf (messageHeaderSize + n) + 1))) ((messageHeader buf).offset.toNat + n)
  rw [regionAfter_stored hw hfits hi, ← hheader, regionAfter_stored (by rwa [hheader])
    (by rwa [hheader]) (by rwa [hheader]), write_one] at hsame
  exact add_one_ne _ hsame

/-- A write to the switch whose effect does not depend on what is not known. -/
theorem covered_switch (hf : k.Fills buf) (hw : (messageHeader buf).IsWrite)
    (ho : (messageHeader buf).offset.toNat = eventNotifyConfig)
    (hreg : ∀ buf', k.Fills buf' → regionAfter buf' o = regionAfter buf o) :
    messageHeaderSize < k.count := by
  by_contra hle
  have hzero : Fits (messageHeader buf).offset.toNat (messageHeader buf).length.toNat →
      (messageHeader buf).length.toNat = 0 := by
    intro hfits
    by_contra hne
    have := covered_write hf hw hfits (Nat.pos_of_ne_zero hne) hreg
    omega
  have hheader : messageHeader (write buf messageHeaderSize [buf messageHeaderSize + 1]) =
      messageHeader buf := messageHeader_write_one le_rfl _
  have hsame := congrFun (hreg _ (hf.write (i := messageHeaderSize) (by omega)
    (buf messageHeaderSize + 1))) eventNotifyConfig
  rw [regionAfter_switch hw ho hzero, regionAfter_switch (by rwa [hheader]) (by rwa [hheader])
    (by rwa [hheader]), write_one] at hsame
  exact add_one_ne _ hsame

/-- A buffer in which the request has arrived, before it arrived. -/
theorem exists_before {received : List UInt8} (k : Known)
    (h : ∀ i < max k.count received.length, buf i = write k.bytes 0 received i) :
    ∃ rx, k.Fills rx ∧ write rx 0 received = buf := by
  refine ⟨write buf 0 (read k.bytes 0 k.count), fun i hi => ?_, ?_⟩
  · have hread := write_add buf 0 (l := read k.bytes 0 k.count) (i := i) (by rwa [length_read])
    rwa [getElem_read, Nat.zero_add] at hread
  · funext i
    rcases Nat.lt_or_ge i received.length with hi | hi
    · rw [h i (lt_max_of_lt_right hi)]
      have h1 := write_add (write buf 0 (read k.bytes 0 k.count)) 0 hi
      have h2 := write_add k.bytes 0 hi
      rw [Nat.zero_add] at h1 h2
      rw [h1, h2]
    · rw [write_of_ge _ _ (by omega)]
      rcases Nat.lt_or_ge i k.count with hk | hk
      · have hread := write_add buf 0 (l := read k.bytes 0 k.count) (i := i) (by rwa [length_read])
        rw [getElem_read, Nat.zero_add] at hread
        rw [hread, h i (lt_max_of_lt_left hk), write_of_ge _ _ (by omega)]
      · exact write_of_ge _ _ (by rw [length_read]; omega)

end

/-! ### Runs and what is known -/

section

variable {k : Known} {o o' : ℕ → UInt8} {v w : HostView}

/-- There is a state for whatever is known. -/
theorem exists_allowed (k : Known) (o : ℕ → UInt8) :
    k.Allows o ⟨o, k.bytes, k.txEvent.getD 0⟩ :=
  ⟨rfl, fun _ _ => rfl, fun e he => by rw [he]; rfl⟩

/-- What a request makes known is in the buffer then. -/
theorem fills_request (heciSend : Bool) (received : Received) {rx : ℕ → UInt8} (h : k.Fills rx) :
    ((HostOp.request heciSend received).learn k).Fills (write rx 0 received.bytes) := by
  intro i hi
  have hi' : i < max k.count received.bytes.length := hi
  show write rx 0 received.bytes i = write k.bytes 0 received.bytes i
  rcases Nat.lt_or_ge i received.bytes.length with hr | hr
  · have h1 := write_add rx 0 hr
    have h2 := write_add k.bytes 0 hr
    rw [Nat.zero_add] at h1 h2
    rw [h1, h2]
  · exact write_congr (h i (by omega)) 0 received.bytes

theorem allows_step (op : HostOp) (h : k.Allows o v) :
    (op.learn k).Allows (op.step v).1.opregion (op.step v).1 := by
  cases op with
  | request heciSend received => exact ⟨rfl, fills_request heciSend received h.fills, h.txEvent⟩
  | event heciSend number => exact ⟨rfl, h.fills, fun e he => Option.some.inj he⟩
  | update address bytes => exact ⟨rfl, h.fills, h.txEvent⟩

/-- Every state that agrees with what is known behind an operation can be the one behind it. -/
theorem exists_step (op : HostOp) (h' : (op.learn k).Allows o' w)
    (h : ∀ v, k.Allows o v → (op.step v).1.opregion = o') :
    ∃ v, k.Allows o v ∧ (op.step v).1 = w := by
  obtain ⟨ow, rw', ew⟩ := w
  obtain ⟨rfl, hfills, hevent⟩ := h'
  cases op with
  | request heciSend received =>
      obtain ⟨rx, hrx, hback⟩ := exists_before k hfills
      have hv : k.Allows o ⟨o, rx, ew⟩ := ⟨rfl, hrx, hevent⟩
      refine ⟨⟨o, rx, ew⟩, hv, ?_⟩
      have hregion := h _ hv
      rw [step_request] at hregion ⊢
      simp only at hregion
      rw [hregion, hback]
  | event heciSend number =>
      have hv : k.Allows o ⟨o, rw', k.txEvent.getD 0⟩ :=
        ⟨rfl, hfills, (exists_allowed k o).txEvent⟩
      have hregion : o = ow := h _ hv
      have hnumber : ew = number.setWidth 8 := hevent _ rfl
      refine ⟨⟨o, rw', k.txEvent.getD 0⟩, hv, ?_⟩
      rw [hnumber, ← hregion]
      rfl
  | update address bytes =>
      have hv : k.Allows o ⟨o, rw', ew⟩ := ⟨rfl, hfills, hevent⟩
      have hregion : write o address bytes = ow := h _ hv
      refine ⟨⟨o, rw', ew⟩, hv, ?_⟩
      rw [← hregion]
      rfl

/-- **An operation is covered exactly when what is known determines its effect.** -/
theorem covers_iff (op : HostOp) (k : Known) (o : ℕ → UInt8) :
    (∀ v w, k.Allows o v → k.Allows o w →
        (op.step v).1.opregion = (op.step w).1.opregion ∧ (op.step v).2 = (op.step w).2) ↔
      op.Covers (op.learn k) := by
  cases op with
  | request heciSend received =>
      constructor
      · intro h buf hf
        have hbefore : ∀ buf' e, (HostOp.learn (.request heciSend received) k).Fills buf' →
            (∀ x, k.txEvent = some x → e = x) →
            ∃ v, k.Allows o v ∧ write v.rxBuffer 0 received.bytes = buf' ∧ v.txEvent = e := by
          intro buf' e hf' he
          obtain ⟨rx, hrx, hback⟩ := exists_before k hf'
          exact ⟨⟨o, rx, e⟩, ⟨rfl, hrx, he⟩, hback, rfl⟩
        have hsame : ∀ buf' e e', (HostOp.learn (.request heciSend received) k).Fills buf' →
            (∀ x, k.txEvent = some x → e = x ∧ e' = x) →
            regionAfter buf' o = regionAfter buf o ∧
              answer heciSend buf' e' o = answer heciSend buf e o := by
          intro buf' e e' hf' he
          obtain ⟨v, hv, rfl, rfl⟩ := hbefore buf' e' hf' fun x hx => (he x hx).2
          obtain ⟨w, hw, rfl, rfl⟩ := hbefore buf e hf fun x hx => (he x hx).1
          obtain ⟨hregion, hanswer⟩ := h v w hv hw
          simp only [step_request, hv.opregion, hw.opregion] at hregion hanswer
          exact ⟨hregion, hanswer⟩
        have hreg : ∀ buf', (HostOp.learn (.request heciSend received) k).Fills buf' →
            regionAfter buf' o = regionAfter buf o := fun buf' hf' =>
          (hsame buf' (k.txEvent.getD 0) (k.txEvent.getD 0) hf' fun x hx => by
            rw [hx]; exact ⟨rfl, rfl⟩).1
        exact ⟨fun ha => covered_read hf ha fun buf' e e' hf' he => (hsame buf' e e' hf' he).2,
          fun hw hfits hpos => covered_write hf hw hfits hpos hreg,
          fun hw ho => covered_switch hf hw ho hreg⟩
      · intro h v w hv hw
        have hfv := fills_request heciSend received hv.fills
        have hfw := fills_request heciSend received hw.fills
        simp only [step_request, hv.opregion, hw.opregion]
        exact ⟨regionAfter_eq_of_covered hfv hfw (h _ hfv) (h _ hfw),
          answer_eq_of_covered hfv hfw (h _ hfv) (h _ hfw) hv.txEvent hw.txEvent⟩
  | event heciSend number =>
      exact iff_of_true (fun v w hv hw => ⟨hv.opregion.trans hw.opregion.symm, rfl⟩) trivial
  | update address bytes =>
      refine iff_of_true (fun v w hv hw => ⟨?_, rfl⟩) trivial
      simp only [step_update, hv.opregion, hw.opregion]

/-- The same for runs, by induction on the operations. -/
theorem sameViews_iff (ops : List HostOp) (k : Known) (o : ℕ → UInt8) :
    (∀ v w, k.Allows o v → k.Allows o w → SameViews ops v w) ↔ CoveredRun ops k := by
  induction ops generalizing k o with
  | nil => exact iff_of_true (fun _ _ _ _ => trivial) trivial
  | cons op ops ih =>
      constructor
      · intro h
        have hstep : ∀ v w, k.Allows o v → k.Allows o w →
            (op.step v).1.opregion = (op.step w).1.opregion ∧ (op.step v).2 = (op.step w).2 :=
          fun v w hv hw => ⟨(h v w hv hw).1, (h v w hv hw).2.1⟩
        obtain ⟨o', hregion⟩ : ∃ o', ∀ v, k.Allows o v → (op.step v).1.opregion = o' :=
          ⟨_, fun v hv => (hstep v _ hv (exists_allowed k o)).1⟩
        refine ⟨(covers_iff op k o).1 hstep, (ih (op.learn k) o').1 fun v' w' hv' hw' => ?_⟩
        obtain ⟨v, hv, rfl⟩ := exists_step op hv' hregion
        obtain ⟨w, hw, rfl⟩ := exists_step op hw' hregion
        exact (h v w hv hw).2.2
      · rintro ⟨hcovers, hrest⟩ v w hv hw
        obtain ⟨hregion, hanswer⟩ := (covers_iff op k o).2 hcovers v w hv hw
        have hw' := allows_step op hw
        rw [← hregion] at hw'
        exact ⟨hregion, hanswer, (ih (op.learn k) _).2 hrest _ _ (allows_step op hv) hw'⟩

end

/-- **Two runs with the same region and the same operations have the same regions and the same
answers, whatever is left in the buffers, exactly when what is known covers every operation.** -/
theorem sameAnswers_iff (ops : List HostOp) (o : ℕ → UInt8) :
    (∀ a b : HostBytes, a.opregion = o → b.opregion = o → SameAnswers ops a b) ↔
      CoveredRun ops Known.start := by
  have hallows : ∀ v : HostView, Known.start.Allows o v ↔ v.opregion = o := fun v =>
    ⟨fun h => h.opregion, fun h => ⟨h, fun i hi => absurd hi (Nat.not_lt_zero i), fun e he => by
      cases he⟩⟩
  rw [← sameViews_iff ops Known.start o]
  constructor
  · intro h v w hv hw
    obtain ⟨a, rfl⟩ := exists_view v
    obtain ⟨b, rfl⟩ := exists_view w
    exact (sameAnswers_view ops a b).1 (h a b ((hallows _).1 hv) ((hallows _).1 hw))
  · intro h a b ha hb
    exact (sameAnswers_view ops a b).2 (h _ _ ((hallows _).2 ha) ((hallows _).2 hb))

/-- A request to read one byte. -/
def readOne : Received := ⟨[0x14, 0x80, 0, 0], by decide⟩

/-- All zero but the last byte of the header in the transmit buffer. -/
def afterEvent (event : UInt8) : HostBytes where
  opregion _ := 0
  rxBuffer _ := 0
  txBuffer i := if i = 3 then event else 0
  dataMsgHeciSendStat := .success
  heciConnectionId := some 0

/-- The answer to a read tells which event was sent last. -/
theorem not_sameAnswers_event : ¬ ∀ (ops : List HostOp) (a b : HostBytes),
    a.opregion = b.opregion → SameAnswers ops a b := by
  intro h
  have hanswer := (h [.request true readOne] (afterEvent 0) (afterEvent 1) rfl).2.1
  exact absurd hanswer (by decide)

end PseFw.Eclite
