/-
**Messages of the host.**

The host reads and writes the operation region with data messages: a header with an offset and a
length, and a payload.  The dispatcher checks a write against the table of the blocks before it
copies the payload.

There is a second path.  The callback of the HECI client looks at a message before the dispatcher
does, and takes the switch for the events out of it at once.  It looks at the offset, but neither
at the length nor at the table.  And the payload is copied as long as the header says, whatever the
number of bytes that were received.

Main definitions:

* `HostComm` — the region, the buffers and the connection;
* `ecliteProcessDataMessage`, `checkEventsConfigRequest` — the two paths into the region;
* `receiveMessage` — the way of one message;
* `Guarded` — what the table promises of one message;
* `Clean` — the messages the promise is kept for;
* `RefusedUnchanged`, `SwitchOverrun` — a refused message without effect, and one with an effect.

Main results:

* `receiveMessage_outside` — nothing outside the blocks is written, whatever the host sends;
* `guarded_of_clean`, `clean_of_guarded` — the promise is kept for the clean messages, and for no
  others;
* `guardedRun_iff` — **along a sequence of messages it is kept exactly when all are clean**;
* `refusedUnchanged_iff` — a refused message has an effect exactly when it turns the switch.
-/

import PseFw.Eclite.Opregion
import Mathlib.Data.BitVec

set_option relaxedAutoImplicit false
set_option autoImplicit false

namespace PseFw.Eclite

open Mem

/-! ### Messages -/

/-- `struct message_header_type`: the bit fields of the header. -/
structure MessageHeaderType where
  revision : BitVec 2
  dataType : BitVec 2
  readWrite : BitVec 2
  offset : BitVec 9
  length : BitVec 9
  event : BitVec 8
  deriving DecidableEq, Repr

/-- A message of the host: the header and the bytes that were received behind it. -/
structure Message where
  header : MessageHeaderType
  payload : List UInt8
  payload_le : payload.length ≤ maxOprLength

/-- `ECLITE_HEADER_TYPE_DATA`. -/
def ecliteHeaderTypeData : BitVec 2 := 1

/-- `ECLITE_HEADER_OPR_READ`. -/
def ecliteHeaderOprRead : BitVec 2 := 1

/-- `ECLITE_HEADER_OPR_WRITE`. -/
def ecliteHeaderOprWrite : BitVec 2 := 2

/-- `EVENT_NOTIFY_CONFIG`. -/
def eventNotifyConfig : ℕ := 333

/-- The number is the offset of the switch for the events. -/
theorem offset_eventNotifyConfig : OpField.eventNotifyConfig.offset = eventNotifyConfig := by
  decide

/-- `enum eclite_events`. -/
inductive EcliteEvents
  | heci
  | timer
  | gpio
  | chg
  | fg
  | thermal
  | ucsi
  deriving DecidableEq, Repr

/-- `struct dispatcher_queue_data`. -/
structure DispatcherQueueData where
  eventType : EcliteEvents
  data : ℕ
  deriving DecidableEq, Repr

/-- The region, the two buffers, and the connection to the host. -/
structure HostComm where
  opregion : ℕ → UInt8
  rxHeader : MessageHeaderType
  rxData : ℕ → UInt8
  txHeader : MessageHeaderType
  /-- The messages that were handed to `heci_send`. -/
  sent : List (MessageHeaderType × List UInt8)
  dataMsgHeciSendStat : Ret
  /-- `heci_connection_id`; `none` is `ECLITE_HECI_INVALID_CONN_ID`. -/
  heciConnectionId : Option ℕ

/-- HECI puts a message into the receive buffer; what stands behind it stays. -/
def HostComm.fill (s : HostComm) (m : Message) : HostComm :=
  { s with rxHeader := m.header, rxData := write s.rxData 0 m.payload }

/-! ### The two paths into the region -/

/-- `eclite_process_data_message`; the argument is the result of `heci_send`. -/
def ecliteProcessDataMessage (heciSend : Bool) (s : HostComm) : Ret × HostComm :=
  let offset := s.rxHeader.offset.toNat
  let length := s.rxHeader.length.toNat
  if offset + length > maxOprLength then (.error, s)
  else if s.rxHeader.readWrite = ecliteHeaderOprRead then
    let header := { s.txHeader with
      revision := 0
      dataType := ecliteHeaderTypeData
      readWrite := ecliteHeaderOprRead
      offset := s.rxHeader.offset
      length := s.rxHeader.length }
    if heciSend = true then
      (.success, { s with
        txHeader := header
        sent := s.sent ++ [(header, read s.opregion offset length)] })
    else (.success, { s with txHeader := header, dataMsgHeciSendStat := .error })
  else if s.rxHeader.readWrite = ecliteHeaderOprWrite then
    if ecliteVerifyOpregWrAccess offset length = .success then
      (.success, { s with opregion := write s.opregion offset (read s.rxData 0 length) })
    else (.error, s)
  else (.error, s)

/-- `eclite_process_event_message`: the event that is posted, if there is one. -/
def ecliteProcessEventMessage (event : BitVec 8) : Option DispatcherQueueData :=
  match event.toNat with
  | 0x02 => some ⟨.fg, 0x02⟩
  | 0x03 => some ⟨.fg, 0x03⟩
  | 0x04 => some ⟨.thermal, 0x04⟩
  | 0x06 => some ⟨.thermal, 0x06⟩
  | 0x0A => some ⟨.ucsi, 0x0A⟩
  | 0x0C => some ⟨.chg, 0x0C⟩
  | 0x0F => some ⟨.thermal, 0x0F⟩
  -- the battery trip point is not updated
  | _ => none

/-- `eclite_process_msg`, with the event that is posted. -/
def ecliteProcessMsg (heciSend : Bool) (s : HostComm) : HostComm × Option DispatcherQueueData :=
  (if s.rxHeader.dataType = ecliteHeaderTypeData then (ecliteProcessDataMessage heciSend s).2
    else s,
    if s.rxHeader.event = 0 then none else ecliteProcessEventMessage s.rxHeader.event)

/-- `check_events_config_request`, when a request has been received. -/
def checkEventsConfigRequest (s : HostComm) : HostComm :=
  if s.rxHeader.dataType ≠ ecliteHeaderTypeData then s
  else if s.rxHeader.readWrite ≠ ecliteHeaderOprWrite then s
  else if s.rxHeader.offset.toNat ≠ eventNotifyConfig then s
  else { s with opregion := write s.opregion OpField.eventNotifyConfig.offset [s.rxData 0] }

/-- **The way of a message**: the buffer, the callback, the dispatcher. -/
def receiveMessage (heciSend : Bool) (m : Message) (s : HostComm) : HostComm :=
  (ecliteProcessMsg heciSend (checkEventsConfigRequest (s.fill m))).1

/-! ### The promise -/

/-- A request to write. -/
def Message.IsWrite (m : Message) : Prop :=
  m.header.dataType = ecliteHeaderTypeData ∧ m.header.readWrite = ecliteHeaderOprWrite

instance (m : Message) : Decidable m.IsWrite := inferInstanceAs (Decidable (_ ∧ _))

/-- The dispatcher accepts the message. -/
def Accepted (heciSend : Bool) (m : Message) (s : HostComm) : Prop :=
  (ecliteProcessDataMessage heciSend (checkEventsConfigRequest (s.fill m))).1 = .success

/-- **What the table promises of one message**: what changes lies in a block and in the range of
the message; a write is accepted when its range lies in one block, and then the payload is stored;
otherwise nothing changes. -/
structure Guarded (heciSend : Bool) (m : Message) (s : HostComm) : Prop where
  changed : ∀ i, (receiveMessage heciSend m s).opregion i ≠ s.opregion i →
    InBlock i ∧ m.header.offset.toNat ≤ i ∧ i < m.header.offset.toNat + m.header.length.toNat
  accepted : m.IsWrite → (Accepted heciSend m s ↔
    Fits m.header.offset.toNat m.header.length.toNat)
  stored : m.IsWrite → Accepted heciSend m s → ∀ i < m.header.length.toNat,
    m.payload[i]? = some ((receiveMessage heciSend m s).opregion (m.header.offset.toNat + i))
  refused : m.IsWrite → ¬ Accepted heciSend m s →
    (receiveMessage heciSend m s).opregion = s.opregion

/-- The first byte behind the header, which an empty payload leaves from an earlier message. -/
def firstByte (m : Message) (s : HostComm) : UInt8 := m.payload.headD (s.rxData 0)

/-- **The messages the promise is kept for.**  A write to a block has as many bytes as its header
says; and one to the switch for the events has one byte or two, unless the switch stands as the
first byte says. -/
def Clean (m : Message) (s : HostComm) : Prop :=
  m.IsWrite →
    (Fits m.header.offset.toNat m.header.length.toNat →
      m.header.length.toNat ≤ m.payload.length) ∧
    (m.header.offset.toNat = eventNotifyConfig →
      m.header.length.toNat = 0 ∨ 2 < m.header.length.toNat →
      firstByte m s = s.opregion eventNotifyConfig)

variable {heciSend : Bool} {m : Message} {s : HostComm}

/-! ### One message -/

theorem rxData_fill_zero (m : Message) (s : HostComm) : (s.fill m).rxData 0 = firstByte m s := by
  show write s.rxData 0 m.payload 0 = m.payload.headD (s.rxData 0)
  cases m.payload with
  | nil => rfl
  | cons b l => rfl

/-- The callback writes the switch for the events, and nothing else. -/
theorem check_of_switch (hw : m.IsWrite) (ho : m.header.offset.toNat = eventNotifyConfig) :
    checkEventsConfigRequest (s.fill m) =
      { s.fill m with opregion := write s.opregion eventNotifyConfig [firstByte m s] } := by
  have hhdr : (s.fill m).rxHeader = m.header := rfl
  unfold checkEventsConfigRequest
  rw [hhdr, if_neg (not_not_intro hw.1), if_neg (not_not_intro hw.2), if_neg (not_not_intro ho),
    rxData_fill_zero, offset_eventNotifyConfig]
  rfl

theorem check_of_other (h : ¬ (m.IsWrite ∧ m.header.offset.toNat = eventNotifyConfig)) :
    checkEventsConfigRequest (s.fill m) = s.fill m := by
  unfold checkEventsConfigRequest
  split
  · rfl
  · rename_i h1
    split
    · rfl
    · rename_i h2
      exact if_pos fun ho => h ⟨⟨not_not.1 h1, not_not.1 h2⟩, ho⟩

/-- The callback leaves the receive buffer alone. -/
theorem check_rx (m : Message) (s : HostComm) :
    (checkEventsConfigRequest (s.fill m)).rxHeader = m.header ∧
      (checkEventsConfigRequest (s.fill m)).rxData = (s.fill m).rxData := by
  by_cases h : m.IsWrite ∧ m.header.offset.toNat = eventNotifyConfig
  · rw [check_of_switch h.1 h.2]
    exact ⟨rfl, rfl⟩
  · rw [check_of_other h]
    exact ⟨rfl, rfl⟩

/-- A write in the dispatcher: the copy is made when the range lies in one block. -/
theorem processDataMessage_write {s : HostComm} (h : s.rxHeader.readWrite = ecliteHeaderOprWrite) :
    ((ecliteProcessDataMessage heciSend s).1 = .success ↔
        Fits s.rxHeader.offset.toNat s.rxHeader.length.toNat) ∧
      (Fits s.rxHeader.offset.toNat s.rxHeader.length.toNat →
        (ecliteProcessDataMessage heciSend s).2.opregion = write s.opregion
          s.rxHeader.offset.toNat (read s.rxData 0 s.rxHeader.length.toNat)) ∧
      (¬ Fits s.rxHeader.offset.toNat s.rxHeader.length.toNat →
        (ecliteProcessDataMessage heciSend s).2.opregion = s.opregion) := by
  have hread : ¬ s.rxHeader.readWrite = ecliteHeaderOprRead := by
    rw [h]
    decide
  unfold ecliteProcessDataMessage
  by_cases hf : Fits s.rxHeader.offset.toNat s.rxHeader.length.toNat
  · have hmax := hf.le_max
    simp only
    rw [if_neg (Nat.not_lt.2 hmax), if_neg hread, if_pos h, if_pos ((verify_iff_fits _ _).2 hf)]
    exact ⟨iff_of_true rfl hf, fun _ => rfl, fun hn => absurd hf hn⟩
  · have hv : ¬ ecliteVerifyOpregWrAccess s.rxHeader.offset.toNat s.rxHeader.length.toNat =
        .success := fun hv => hf ((verify_iff_fits _ _).1 hv)
    by_cases hmax : s.rxHeader.offset.toNat + s.rxHeader.length.toNat > maxOprLength
    · simp only
      rw [if_pos hmax]
      exact ⟨iff_of_false (nofun) hf, fun hy => absurd hy hf, fun _ => rfl⟩
    · simp only
      rw [if_neg hmax, if_neg hread, if_pos h, if_neg hv]
      exact ⟨iff_of_false (nofun) hf, fun hy => absurd hy hf, fun _ => rfl⟩

/-- A read does not touch the region. -/
theorem processDataMessage_other {s : HostComm}
    (h : s.rxHeader.readWrite ≠ ecliteHeaderOprWrite) :
    (ecliteProcessDataMessage heciSend s).2.opregion = s.opregion := by
  unfold ecliteProcessDataMessage
  simp only
  split
  · rfl
  · split
    · split <;> rfl
    · rfl

theorem receiveMessage_not_write (h : ¬ m.IsWrite) :
    (receiveMessage heciSend m s).opregion = s.opregion := by
  unfold receiveMessage ecliteProcessMsg
  rw [check_of_other fun hc => h hc.1]
  simp only
  split
  · rename_i hd
    exact processDataMessage_other fun hrw => h ⟨hd, hrw⟩
  · rfl

/-- A write: what the callback leaves, and the copy on top of it. -/
theorem receiveMessage_write (hw : m.IsWrite) :
    (Accepted heciSend m s ↔ Fits m.header.offset.toNat m.header.length.toNat) ∧
      (Fits m.header.offset.toNat m.header.length.toNat →
        (receiveMessage heciSend m s).opregion =
          write (checkEventsConfigRequest (s.fill m)).opregion m.header.offset.toNat
            (read (s.fill m).rxData 0 m.header.length.toNat)) ∧
      (¬ Fits m.header.offset.toNat m.header.length.toNat →
        (receiveMessage heciSend m s).opregion =
          (checkEventsConfigRequest (s.fill m)).opregion) := by
  obtain ⟨hhdr, hdata⟩ := check_rx m s
  have hspec := @processDataMessage_write heciSend (checkEventsConfigRequest (s.fill m))
    (by rw [hhdr]; exact hw.2)
  rw [hhdr, hdata] at hspec
  unfold receiveMessage ecliteProcessMsg
  rw [hhdr, if_pos hw.1]
  exact hspec

/-! ### The clean messages -/

/-- The block of the switch has two bytes. -/
theorem fits_switch {length : ℕ} : Fits eventNotifyConfig length ↔ length ≤ 2 := by
  have hends : ∀ b ∈ opregionWrChkTbl, b.offsetStart ≤ eventNotifyConfig →
      b.offsetEnd ≤ eventNotifyConfig + 1 := by decide
  have hblock : ∃ b ∈ opregionWrChkTbl, b.offsetStart = eventNotifyConfig ∧
      b.offsetEnd = eventNotifyConfig + 1 := by decide
  constructor
  · rintro ⟨b, hb, hs, he⟩
    have := hends b hb hs
    omega
  · intro h
    obtain ⟨b, hb, hs, he⟩ := hblock
    exact ⟨b, hb, by omega, by omega⟩

/-- A clean write is stored when its range lies in one block, and has no effect otherwise. -/
theorem receiveMessage_clean (hw : m.IsWrite) (hc : Clean m s) :
    (Fits m.header.offset.toNat m.header.length.toNat →
        (receiveMessage heciSend m s).opregion =
          write s.opregion m.header.offset.toNat
            (read (s.fill m).rxData 0 m.header.length.toNat)) ∧
      (¬ Fits m.header.offset.toNat m.header.length.toNat →
        (receiveMessage heciSend m s).opregion = s.opregion) := by
  obtain ⟨-, hfit, hnot⟩ := @receiveMessage_write heciSend m s hw
  by_cases ho : m.header.offset.toNat = eventNotifyConfig
  · rw [check_of_switch hw ho] at hfit hnot
    by_cases hl : m.header.length.toNat = 0 ∨ 2 < m.header.length.toNat
    · -- the callback writes what is there
      have hsame : write s.opregion eventNotifyConfig [firstByte m s] = s.opregion := by
        rw [(hc hw).2 ho hl]
        exact write_read_self s.opregion eventNotifyConfig 1
      rw [hsame] at hfit hnot
      exact ⟨hfit, hnot⟩
    · -- the copy covers what the callback wrote
      refine ⟨fun hf => ?_, fun hf => absurd ?_ hf⟩
      · rw [hfit hf, ho]
        exact write_write_self _ _ (by rw [length_read, List.length_singleton]; omega)
      · rw [ho, fits_switch]
        omega
  · rw [check_of_other fun h => ho h.2] at hfit hnot
    exact ⟨hfit, hnot⟩

/-- The bytes of the payload in the receive buffer. -/
theorem rxData_fill {i : ℕ} (h : i < m.payload.length) : (s.fill m).rxData i = m.payload[i] := by
  have hw := write_add s.rxData 0 h
  rw [Nat.zero_add] at hw
  exact hw

theorem clean_of_guarded (h : Guarded heciSend m s) : Clean m s := by
  intro hw
  obtain ⟨hacc, hfit, hnot⟩ := @receiveMessage_write heciSend m s hw
  refine ⟨fun hf => ?_, fun ho hl => ?_⟩
  · by_contra hlen
    have hbyte := h.stored hw (hacc.2 hf) m.payload.length (by omega)
    rw [List.getElem?_eq_none le_rfl] at hbyte
    cases hbyte
  · have hswitch : write s.opregion eventNotifyConfig [firstByte m s] eventNotifyConfig =
        firstByte m s :=
      write_add (l := [firstByte m s]) (i := 0) s.opregion eventNotifyConfig (Nat.succ_pos 0)
    rw [check_of_switch hw ho] at hfit hnot
    by_contra hne
    rcases hl with hl | hl
    · -- an empty range, in which nothing may change
      have hf : Fits m.header.offset.toNat m.header.length.toNat := by
        rw [ho, fits_switch]
        omega
      have hafter := congrFun (hfit hf) eventNotifyConfig
      rw [hl, show read (s.fill m).rxData 0 0 = [] from rfl,
        write_of_ge _ _ (by rw [ho]; exact le_rfl)] at hafter
      obtain ⟨-, hge, hlt⟩ := h.changed eventNotifyConfig fun heq =>
        hne (hswitch.symm.trans (hafter.symm.trans heq))
      omega
    · -- a write that is refused
      have hf : ¬ Fits m.header.offset.toNat m.header.length.toNat := by
        rw [ho, fits_switch]
        omega
      have hafter := congrFun (hnot hf) eventNotifyConfig
      have hsame := congrFun (h.refused hw fun ha => hf (hacc.1 ha)) eventNotifyConfig
      exact hne (hswitch.symm.trans (hafter.symm.trans hsame))

theorem guarded_of_clean (h : Clean m s) : Guarded heciSend m s := by
  by_cases hw : m.IsWrite
  · obtain ⟨hacc, -, -⟩ := @receiveMessage_write heciSend m s hw
    obtain ⟨hfit, hnot⟩ := @receiveMessage_clean heciSend m s hw h
    refine ⟨fun i hi => ?_, fun _ => hacc, fun _ ha i hi => ?_, fun _ ha => ?_⟩
    · by_cases hf : Fits m.header.offset.toNat m.header.length.toNat
      · have hrange : m.header.offset.toNat ≤ i ∧
            i < m.header.offset.toNat + m.header.length.toNat := by
          by_contra hout
          refine hi ?_
          rw [hfit hf]
          rcases Nat.lt_or_ge i m.header.offset.toNat with hlt | hge
          · exact write_of_lt _ _ hlt
          · exact write_of_ge _ _ (by rw [length_read]; omega)
        exact ⟨hf.inBlock hrange.1 hrange.2, hrange⟩
      · exact absurd (congrFun (hnot hf) i) hi
    · have hf := hacc.1 ha
      have hlen := (h hw).1 hf
      rw [hfit hf, write_add _ _ (by rwa [length_read]), getElem_read, Nat.zero_add,
        rxData_fill (by omega), List.getElem?_eq_getElem]
    · exact hnot fun hf => ha (hacc.2 hf)
  · have hsame := @receiveMessage_not_write heciSend m s hw
    exact ⟨fun i hi => absurd (congrFun hsame i) hi, fun hc => absurd hc hw,
      fun hc => absurd hc hw, fun hc => absurd hc hw⟩

/-! ### Sequences of messages -/

/-- The state behind a sequence of messages, each with the result of its `heci_send`. -/
def receiveMessages : List (Bool × Message) → HostComm → HostComm
  | [], s => s
  | (b, m) :: ms, s => receiveMessages ms (receiveMessage b m s)

/-- The promise is kept for every message of a sequence. -/
def GuardedRun : List (Bool × Message) → HostComm → Prop
  | [], _ => True
  | (b, m) :: ms, s => Guarded b m s ∧ GuardedRun ms (receiveMessage b m s)

/-- Every message of a sequence is clean when it arrives. -/
def CleanRun : List (Bool × Message) → HostComm → Prop
  | [], _ => True
  | (b, m) :: ms, s => Clean m s ∧ CleanRun ms (receiveMessage b m s)

/-- A message does not write outside the blocks: the callback writes to one of them. -/
theorem receiveMessage_outside {i : ℕ} (h : ¬ InBlock i) :
    (receiveMessage heciSend m s).opregion i = s.opregion i := by
  have hcheck : (checkEventsConfigRequest (s.fill m)).opregion i = s.opregion i := by
    by_cases hc : m.IsWrite ∧ m.header.offset.toNat = eventNotifyConfig
    · rw [check_of_switch hc.1 hc.2]
      have hne : i ≠ eventNotifyConfig := fun heq =>
        h (heq ▸ (fits_switch.2 (Nat.le_succ 1)).inBlock le_rfl (Nat.lt_succ_self _))
      rcases Nat.lt_or_ge i eventNotifyConfig with hlt | hge
      · exact write_of_lt _ _ hlt
      · exact write_of_ge _ _ (by rw [List.length_singleton]; omega)
    · rw [check_of_other hc]
      rfl
  by_cases hw : m.IsWrite
  · obtain ⟨-, hfit, hnot⟩ := @receiveMessage_write heciSend m s hw
    by_cases hf : Fits m.header.offset.toNat m.header.length.toNat
    · rw [hfit hf, ← hcheck]
      rcases Nat.lt_or_ge i m.header.offset.toNat with hlt | hge
      · exact write_of_lt _ _ hlt
      · refine write_of_ge _ _ ?_
        rw [length_read]
        by_contra hlt
        exact h (hf.inBlock hge (by omega))
    · rw [hnot hf, hcheck]
  · rw [receiveMessage_not_write hw]

/-- **Nothing outside the blocks is ever written**, whatever the host sends. -/
theorem receiveMessages_outside (ms : List (Bool × Message)) (s : HostComm) {i : ℕ}
    (h : ¬ InBlock i) : (receiveMessages ms s).opregion i = s.opregion i := by
  induction ms generalizing s with
  | nil => rfl
  | cons p ms ih =>
      exact (ih (receiveMessage p.1 p.2 s)).trans (receiveMessage_outside h)

/-- **The promise is kept along a sequence of messages exactly when all of them are clean.** -/
theorem guardedRun_iff (ms : List (Bool × Message)) (s : HostComm) :
    GuardedRun ms s ↔ CleanRun ms s := by
  induction ms generalizing s with
  | nil => exact Iff.rfl
  | cons p ms ih =>
      constructor
      · rintro ⟨h, hrest⟩
        exact ⟨clean_of_guarded h, (ih _).1 hrest⟩
      · rintro ⟨h, hrest⟩
        exact ⟨guarded_of_clean h, (ih _).2 hrest⟩

/-- A header with everything zero. -/
def emptyHeader : MessageHeaderType := ⟨0, 0, 0, 0, 0, 0⟩

/-- ECLite with the events switched on. -/
def eventsOn : HostComm where
  opregion i := if i = eventNotifyConfig then 1 else 0
  rxHeader := emptyHeader
  rxData _ := 0
  txHeader := emptyHeader
  sent := []
  dataMsgHeciSendStat := .success
  heciConnectionId := some 0

/-- Three bytes at the switch for the events: the write is refused, and the events are off. -/
theorem not_guardedRun_switch : ¬ ∀ (ms : List (Bool × Message)) (s : HostComm),
    GuardedRun ms s := by
  intro h
  let m : Message := ⟨⟨0, 1, 2, 333, 3, 0⟩, [0, 0, 0], by decide⟩
  have hm : Guarded true m eventsOn := (h [(true, m)] eventsOn).1
  have hrefused : ¬ Accepted true m eventsOn := fun ha => by
    have ha' := (hm.accepted ⟨rfl, rfl⟩).1 ha
    exact absurd (fits_switch.1 ha') (by decide)
  have hsame := congrFun (hm.refused ⟨rfl, rfl⟩ hrefused) eventNotifyConfig
  exact absurd hsame (by decide)

/-! ### Refused messages -/

/-- A message that the dispatcher refuses is to leave the region as it was before it arrived. -/
def RefusedUnchanged (heciSend : Bool) (m : Message) (s : HostComm) : Prop :=
  m.header.dataType = ecliteHeaderTypeData →
    (ecliteProcessDataMessage heciSend (checkEventsConfigRequest (s.fill m))).1 = .error →
    (receiveMessage heciSend m s).opregion = s.opregion

/-- A write over the end of the switch for the events, whose first byte turns the switch. -/
def SwitchOverrun (m : Message) (s : HostComm) : Prop :=
  m.IsWrite ∧ m.header.offset.toNat = eventNotifyConfig ∧ 2 < m.header.length.toNat ∧
    firstByte m s ≠ s.opregion eventNotifyConfig

/-- The dispatcher refuses what it does not accept. -/
theorem processDataMessage_error_iff {s : HostComm} :
    (ecliteProcessDataMessage heciSend s).1 = .error ↔
      (ecliteProcessDataMessage heciSend s).1 ≠ .success := by
  cases (ecliteProcessDataMessage heciSend s).1 with
  | success => exact iff_of_false (by decide) (not_not_intro rfl)
  | error => exact iff_of_true rfl (by decide)

/-- Turning the switch is a change, unless it stands that way. -/
theorem write_switch_eq_iff {f : ℕ → UInt8} {b : UInt8} :
    write f eventNotifyConfig [b] = f ↔ b = f eventNotifyConfig := by
  constructor
  · intro h
    have hb : write f eventNotifyConfig [b] eventNotifyConfig = b :=
      write_add (l := [b]) (i := 0) f eventNotifyConfig (Nat.succ_pos 0)
    rw [← hb, h]
  · rintro rfl
    exact write_read_self f eventNotifyConfig 1

/-- A refused write leaves the region exactly when the callback did. -/
theorem refusedUnchanged_write_iff (hw : m.IsWrite) :
    RefusedUnchanged heciSend m s ↔ ¬ SwitchOverrun m s := by
  obtain ⟨hacc, -, hnot⟩ := @receiveMessage_write heciSend m s hw
  unfold RefusedUnchanged
  rw [processDataMessage_error_iff]
  constructor
  · rintro h ⟨-, ho, hl, hb⟩
    have hf : ¬ Fits m.header.offset.toNat m.header.length.toNat := by
      rw [ho, fits_switch]
      omega
    have hsame := h hw.1 fun ha => hf (hacc.1 ha)
    rw [hnot hf, check_of_switch hw ho] at hsame
    exact hb (write_switch_eq_iff.1 hsame)
  · intro h _ hna
    have hf : ¬ Fits m.header.offset.toNat m.header.length.toNat := fun hf => hna (hacc.2 hf)
    rw [hnot hf]
    by_cases ho : m.header.offset.toNat = eventNotifyConfig
    · -- the callback has run; what it wrote was there
      have hl : 2 < m.header.length.toNat := by
        rw [ho, fits_switch] at hf
        omega
      rw [check_of_switch hw ho]
      exact write_switch_eq_iff.2 (not_not.1 fun hb => h ⟨hw, ho, hl, hb⟩)
    · rw [check_of_other fun hc => ho hc.2]
      rfl

/-- **A refused message leaves the region alone exactly when it does not turn the switch for the
events**: the callback turns it before the dispatcher looks at the length. -/
theorem refusedUnchanged_iff (heciSend : Bool) (m : Message) (s : HostComm) :
    RefusedUnchanged heciSend m s ↔ ¬ SwitchOverrun m s := by
  by_cases hw : m.IsWrite
  · exact refusedUnchanged_write_iff hw
  · exact iff_of_true (fun _ _ => receiveMessage_not_write hw) fun hs => hw hs.1

/-- A write of four bytes from the switch on is refused, and turns the events off. -/
theorem not_refusedUnchanged_overrun :
    ¬ ∀ (heciSend : Bool) (m : Message) (s : HostComm), RefusedUnchanged heciSend m s := by
  intro h
  have hsame := h true ⟨⟨0, 1, 2, 333, 4, 0⟩, [0, 0, 0, 0], by decide⟩ eventsOn rfl (by decide)
  exact absurd (congrFun hsame eventNotifyConfig) (by decide)

end PseFw.Eclite
