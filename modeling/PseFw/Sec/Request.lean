/-
**The requests of the BIOS.**

A request stands in the receive buffer of the security client: a command header of four bytes,
then a sequence of TLVs, each one a header of four bytes with a type and a length, and its data.
The loop of `sec_hc_process_cmd_data` goes from one TLV to the next by the length in the header;
it counts down the length the command header announced, and knows nothing of the number of bytes
that were received.  The buffer is therefore a memory here, and a request is read from it at
whatever address the lengths lead to.

A header whose length is zero leads the loop to the same header again, for ever: there is no
result.

Main definitions:

* `DataType`, `CmdHdr`, `hdrType`, `hdrLength` — the two headers;
* `Env`, `SecState` — what the client calls, and the state it keeps;
* `storeTlv`, `secHcProcessCmdDataOnce` — one TLV;
* `secHcProcessCmdData` — the loop, with the TLVs it came to;
* `fetchLen` — how many bytes behind the header are read.

Main results:

* `storeTlv_eq` — the switch, by the place the data goes to;
* `storeTlv_congr` — **a TLV is handled by its bytes alone**;
* `storeTlv_not_stored` — a TLV that is not stored changes nothing;
* `verified_storeTlv` — the hash of the context stays right;
* `processLoop_invariant` — the rule for the loop.
-/

import PseFw.Sec.Context

set_option relaxedAutoImplicit false
set_option autoImplicit false

namespace PseFw.Sec

open Mem

/-! ### Headers -/

/-- The types of data (`sec_hc_cmd_data_type`). -/
inductive DataType
  | status
  | rootca
  | ownPubKey
  | hkdf32bPseSalt
  | dencTokId
  | dencDevId
  | encTokId
  | encTokIdTag
  | encTokIdIv
  | encDevId
  | encDevIdTag
  | encDevIdIv
  | cldUrl
  | cldPort
  | pxyUrl
  | pxyPort
  | provState
  | pseSeed (idx : Fin 4)
  | cldAdapter
  | dencMqttClientId
  | encMqttClientId
  | encMqttClientIdTag
  | encMqttClientIdIv
  | oobStatus
  | dencCloudHashId
  | encCloudHashId
  | encCloudHashIdTag
  | encCloudHashIdIv
  | normalFlwSuccess
  | normalFlwHashErr
  | normalFlwReprovReq
  | normalFlwDataErr
  deriving DecidableEq, Repr

/-- The number of a type. -/
def DataType.code : DataType → ℕ
  | .status => 0x00
  | .rootca => 0x01
  | .ownPubKey => 0x02
  | .hkdf32bPseSalt => 0x04
  | .dencTokId => 0x05
  | .dencDevId => 0x06
  | .encTokId => 0x07
  | .encTokIdTag => 0x08
  | .encTokIdIv => 0x09
  | .encDevId => 0x0A
  | .encDevIdTag => 0x0B
  | .encDevIdIv => 0x0C
  | .cldUrl => 0x0D
  | .cldPort => 0x0E
  | .pxyUrl => 0x0F
  | .pxyPort => 0x10
  | .provState => 0x11
  | .pseSeed idx => 0x12 + idx
  | .cldAdapter => 0x17
  | .dencMqttClientId => 0x18
  | .encMqttClientId => 0x19
  | .encMqttClientIdTag => 0x1A
  | .encMqttClientIdIv => 0x1B
  | .oobStatus => 0x1C
  | .dencCloudHashId => 0x1D
  | .encCloudHashId => 0x1E
  | .encCloudHashIdTag => 0x1F
  | .encCloudHashIdIv => 0x20
  | .normalFlwSuccess => 0x21
  | .normalFlwHashErr => 0x22
  | .normalFlwReprovReq => 0x23
  | .normalFlwDataErr => 0x24

/-- The type of a number; there is none for the numbers that are not in use. -/
def DataType.ofCode : ℕ → Option DataType
  | 0x00 => some .status
  | 0x01 => some .rootca
  | 0x02 => some .ownPubKey
  | 0x04 => some .hkdf32bPseSalt
  | 0x05 => some .dencTokId
  | 0x06 => some .dencDevId
  | 0x07 => some .encTokId
  | 0x08 => some .encTokIdTag
  | 0x09 => some .encTokIdIv
  | 0x0A => some .encDevId
  | 0x0B => some .encDevIdTag
  | 0x0C => some .encDevIdIv
  | 0x0D => some .cldUrl
  | 0x0E => some .cldPort
  | 0x0F => some .pxyUrl
  | 0x10 => some .pxyPort
  | 0x11 => some .provState
  | 0x12 => some (.pseSeed 0)
  | 0x13 => some (.pseSeed 1)
  | 0x14 => some (.pseSeed 2)
  | 0x15 => some (.pseSeed 3)
  | 0x17 => some .cldAdapter
  | 0x18 => some .dencMqttClientId
  | 0x19 => some .encMqttClientId
  | 0x1A => some .encMqttClientIdTag
  | 0x1B => some .encMqttClientIdIv
  | 0x1C => some .oobStatus
  | 0x1D => some .dencCloudHashId
  | 0x1E => some .encCloudHashId
  | 0x1F => some .encCloudHashIdTag
  | 0x20 => some .encCloudHashIdIv
  | 0x21 => some .normalFlwSuccess
  | 0x22 => some .normalFlwHashErr
  | 0x23 => some .normalFlwReprovReq
  | 0x24 => some .normalFlwDataErr
  | _ => none

/-- The type of the first seed, the one a provisioning request works with. -/
abbrev DataType.firstSeed : DataType := .pseSeed 0

theorem DataType.ofCode_code (t : DataType) : DataType.ofCode t.code = some t := by
  cases t with
  | pseSeed idx => revert idx; decide
  | _ => rfl

theorem DataType.code_lt (t : DataType) : t.code < 2 ^ 8 := by
  cases t with
  | pseSeed idx => revert idx; decide
  | _ => decide

/-- `sizeof(union sec_hc_cmd_data_hdr_u)` and `sizeof(struct sec_hc_cmd_hdr_t)`. -/
def hdrSize : ℕ := 4

/-- The field `type` of the TLV header at an address. -/
def hdrType (rx : ℕ → UInt8) (pos : ℕ) : ℕ := ofLe (read rx pos hdrSize) % 2 ^ 8

/-- The field `length` of the TLV header at an address; it counts the header too. -/
def hdrLength (rx : ℕ → UInt8) (pos : ℕ) : ℕ := ofLe (read rx pos hdrSize) / 2 ^ 8 % 2 ^ 12

/-- `struct sec_hc_cmd_hdr_t`. -/
structure CmdHdr where
  msgComp : ℕ
  rsvd : ℕ
  status : ℕ
  protocolVer : ℕ
  source : ℕ
  length : ℕ
  command : ℕ
  deriving DecidableEq, Repr

/-- The bit fields of a command header. -/
def CmdHdr.ofWord (w : ℕ) : CmdHdr where
  msgComp := w % 2
  rsvd := w / 2 % 2 ^ 2
  status := w / 2 ^ 3 % 2
  protocolVer := w / 2 ^ 4 % 2 ^ 4
  source := w / 2 ^ 8 % 2 ^ 4
  length := w / 2 ^ 12 % 2 ^ 12
  command := w / 2 ^ 24 % 2 ^ 8

/-- The bit fields put together; a value that is too large for its field loses its high bits. -/
def CmdHdr.toWord (h : CmdHdr) : ℕ :=
  h.msgComp % 2 + 2 * (h.rsvd % 2 ^ 2) + 2 ^ 3 * (h.status % 2) + 2 ^ 4 * (h.protocolVer % 2 ^ 4) +
    2 ^ 8 * (h.source % 2 ^ 4) + 2 ^ 12 * (h.length % 2 ^ 12) + 2 ^ 24 * (h.command % 2 ^ 8)

/-- The command header at the start of a buffer. -/
def cmdHdr (rx : ℕ → UInt8) : CmdHdr := CmdHdr.ofWord (ofLe (read rx 0 hdrSize))

/-! ### The state of the client -/

/-- What the client gets from outside: the cryptographic library, the outcomes of the
allocations and of the random generator by the number of the call, and the values the code reads
from variables it has not set. -/
structure Env where
  crypto : Crypto
  kMalloc : Bool
  kHeapAlloc : ℕ → Bool
  random : ℕ → ℕ → Option (List UInt8)
  /-- `sec_hc_get_entropy_state`, after so many calls of the random generator. -/
  entropyState : ℕ → Bool
  /-- The reserved bits of the TLV header that is composed at an address. -/
  rsvd : ℕ → ℕ
  /-- What stands in `data` when `sec_int_get_prov_state` fails. -/
  stackData : ℕ
  length_random : ∀ i n l, random i n = some l → l.length = n

/-- A seed in the seed table. -/
abbrev Seed : Type := { l : List UInt8 // l.length = secCseSeedLen }

/-- The seed that stands at the start of a memory. -/
def Seed.read (src : ℕ → UInt8) : Seed := ⟨Mem.read src 0 secCseSeedLen, length_read _ _ _⟩

/-- The state of the client. -/
structure SecState where
  ctx : Ctx
  seeds : Fin 4 → Option Seed
  seedNo : ℕ
  seedUpdated : Bool
  startInitFlag : Bool
  abortSet : Bool
  tx : ℕ → UInt8
  /-- `sec_hc_resp_pkt.buf_compose_next`, as an address of the transmit buffer. -/
  composeNext : ℕ
  /-- `sec_hc_resp_pkt.accum_compose_len`. -/
  accumComposeLen : ℕ
  /-- The messages that were handed to `heci_send`. -/
  sent : List (List UInt8)
  /-- The number of calls of `k_heap_alloc` so far. -/
  allocs : ℕ
  /-- The number of calls of the random generator so far. -/
  rands : ℕ

variable (env : Env)

/-! ### One TLV -/

/-- What became of a TLV: it was stored; its setter did not take it, which nobody looks at; or
it was refused, and the result is `SEC_FAILED`. -/
inductive Outcome
  | stored
  | ignored
  | refused
  deriving DecidableEq, Repr

/-- The result of `sec_hc_process_cmd_data_once`. -/
def Outcome.status : Outcome → Status
  | .refused => .failed
  | _ => .success

/-- `sec_hc_process_cse_seed`: the slot must be free, and `SEC_CSE_SEED_LEN` bytes are copied
whatever the length is. -/
def secHcProcessCseSeed (src : ℕ → UInt8) (idx : Fin 4) (dataLen : ℕ) (s : SecState) :
    Status × SecState :=
  if dataLen > secCseSeedLen then (.failed, s)
  else if s.seeds idx ≠ none then (.failed, s)
  else if env.kHeapAlloc s.allocs = false then (.failed, { s with allocs := s.allocs + 1 })
  else (.success, { s with
    seeds := Function.update s.seeds idx (some (Seed.read src))
    seedNo := s.seedNo + 1
    allocs := s.allocs + 1 })

/-- A setter was called, and its result dropped. -/
def SecState.afterSetter (s : SecState) (r : Status × Ctx) : Outcome × SecState :=
  (if r.1 = .success then .stored else .ignored, { s with ctx := r.2 })

/-- The copy of an encrypted value, its tag or its vector: refused when longer than the field. -/
def copyEnc (f : Field) (src : ℕ → UInt8) (dataLen : ℕ) (s : SecState) : Outcome × SecState :=
  if dataLen > f.size then (.refused, s)
  else (.stored, { s with ctx := put s.ctx f (read src 0 dataLen) })

/-- The switch of `sec_hc_process_cmd_data_once`; `src` is the data behind the header. -/
def storeTlv (t : DataType) (src : ℕ → UInt8) (dataLen : ℕ) (s : SecState) :
    Outcome × SecState :=
  let data := read src 0 dataLen
  let port := read src 0 4
  match t with
  | .dencMqttClientId => s.afterSetter (secIntSetMqttClientId env.crypto s.ctx data)
  | .encMqttClientId => copyEnc .encMqttClientId src dataLen s
  | .encMqttClientIdTag => copyEnc .encMqttClientIdTag src dataLen s
  | .encMqttClientIdIv => copyEnc .encMqttClientIdIv src dataLen s
  | .rootca => s.afterSetter (secIntSetRootCa env.crypto s.ctx data)
  | .ownPubKey => s.afterSetter (secIntSetOwnPubKey env.crypto s.ctx data)
  | .hkdf32bPseSalt => s.afterSetter (secIntSetHkdf32bPseSalt env.crypto s.ctx data)
  | .dencTokId => s.afterSetter (secIntSetTokId env.crypto s.ctx data)
  | .dencDevId => s.afterSetter (secIntSetDevId env.crypto s.ctx data)
  | .encTokId => copyEnc .encTokId src dataLen s
  | .encTokIdTag => copyEnc .encTokIdTag src dataLen s
  | .encTokIdIv => copyEnc .encTokIdIv src dataLen s
  | .encDevId => copyEnc .encDevId src dataLen s
  -- the check of this length is commented out in the source
  | .encDevIdTag => (.stored, { s with ctx := put s.ctx .encDevIdTag data })
  | .encDevIdIv => copyEnc .encDevIdIv src dataLen s
  | .cldUrl => s.afterSetter (secIntSetCldHostUrl env.crypto s.ctx data)
  | .cldPort => s.afterSetter (secIntSetCldHostPort env.crypto s.ctx port)
  | .pxyUrl => s.afterSetter (secIntSetPxyHostUrl env.crypto s.ctx data)
  | .pxyPort => s.afterSetter (secIntSetPxyHostPort env.crypto s.ctx port)
  | .cldAdapter => s.afterSetter (secIntSetCldAdapter env.crypto s.ctx data)
  | .provState => s.afterSetter (secIntSetProvState env.crypto s.ctx port)
  | .dencCloudHashId => s.afterSetter (secIntSetCloudHash env.crypto s.ctx data)
  | .encCloudHashId => copyEnc .encCloudHashId src dataLen s
  | .encCloudHashIdTag => copyEnc .encCloudHashIdTag src dataLen s
  | .encCloudHashIdIv => copyEnc .encCloudHashIdIv src dataLen s
  | .pseSeed idx =>
      match secHcProcessCseSeed env src idx dataLen s with
      | (.success, s') => (.stored, s')
      | (_, s') => (.refused, s')
  | _ => (.refused, s)

/-- `sec_hc_process_cmd_data_once`. -/
def secHcProcessCmdDataOnce (rx : ℕ → UInt8) (pos : ℕ) (s : SecState) : Outcome × SecState :=
  if hdrLength rx pos ≤ hdrSize then (.refused, s)
  else match DataType.ofCode (hdrType rx pos) with
    | none => (.refused, s)
    | some t => storeTlv env t (fun i => rx (pos + hdrSize + i)) (hdrLength rx pos - hdrSize) s

/-! ### The loop -/

/-- A TLV the loop came to: its address, type and length, and what became of it. -/
structure Visit where
  pos : ℕ
  type : ℕ
  length : ℕ
  outcome : Outcome
  deriving DecidableEq, Repr

/-- The loop of `sec_hc_process_cmd_data`.  With a length of zero it would never get on: no
result.  The fuel bounds the number of rounds, of which there are at most `len`. -/
def processLoop (rx : ℕ → UInt8) : ℕ → ℕ → ℕ → Status → SecState →
    Option (List Visit × Status × SecState)
  | _, _, 0, result, s => some ([], result, s)
  | 0, _, _ + 1, _, _ => none
  | fuel + 1, pos, len + 1, _, s =>
      let r := secHcProcessCmdDataOnce env rx pos s
      let l := hdrLength rx pos
      if l = 0 then none
      else (processLoop rx fuel (pos + l) (len + 1 - l) r.1.status r.2).map fun q =>
        (⟨pos, hdrType rx pos, l, r.1⟩ :: q.1, q.2)

/-- `sec_hc_process_cmd_data`, on the TLVs behind the command header. -/
def secHcProcessCmdData (rx : ℕ → UInt8) (reqLen : ℤ) (s : SecState) :
    Option (List Visit × Status × SecState) :=
  if reqLen ≤ 0 then some ([], .failed, s)
  else processLoop env rx reqLen.toNat hdrSize reqLen.toNat .success s

/-- One round of the loop. -/
theorem processLoop_succ (rx : ℕ → UInt8) (fuel pos len : ℕ) (st : Status) (s : SecState) :
    processLoop env rx (fuel + 1) pos (len + 1) st s =
      if hdrLength rx pos = 0 then none
      else (processLoop env rx fuel (pos + hdrLength rx pos) (len + 1 - hdrLength rx pos)
        (secHcProcessCmdDataOnce env rx pos s).1.status
        (secHcProcessCmdDataOnce env rx pos s).2).map fun q =>
          (⟨pos, hdrType rx pos, hdrLength rx pos, (secHcProcessCmdDataOnce env rx pos s).1⟩ ::
            q.1, q.2) := rfl

/-! ### What a TLV is stored in -/

/-- Where the data of a type goes, and through what. -/
inductive Target
  /-- A field and the field of its length, through a setter. -/
  | param (f lenField : Field)
  /-- A field of type `unsigned int`, through a setter. -/
  | simple (f : Field)
  /-- A field outside the part the hash protects. -/
  | enc (f : Field)
  /-- A slot of the seed table. -/
  | seed (idx : Fin 4)
  /-- The type is not for requests. -/
  | unsupported
  deriving DecidableEq, Repr

/-- Where the data of a type goes. -/
def DataType.target : DataType → Target
  | .rootca => .param .rootCa .rootCaLen
  | .ownPubKey => .param .ownPubKey .ownPubKeyLen
  | .hkdf32bPseSalt => .param .hkdf32bPseSalt .hkdf32bPseSaltLen
  | .dencTokId => .param .tokId .tokIdLen
  | .dencDevId => .param .devId .devIdLen
  | .dencMqttClientId => .param .mqttClientId .mqttClientIdLen
  | .dencCloudHashId => .param .cloudHash .cloudHashLen
  | .cldUrl => .param .cldHostUrl .cldHostUrlLen
  | .pxyUrl => .param .pxyHostUrl .pxyHostUrlLen
  | .cldAdapter => .param .cldAdapter .cldAdapterLen
  | .cldPort => .simple .cldHostPort
  | .pxyPort => .simple .pxyHostPort
  | .provState => .simple .provState
  | .encTokId => .enc .encTokId
  | .encTokIdTag => .enc .encTokIdTag
  | .encTokIdIv => .enc .encTokIdIv
  | .encDevId => .enc .encDevId
  | .encDevIdTag => .enc .encDevIdTag
  | .encDevIdIv => .enc .encDevIdIv
  | .encMqttClientId => .enc .encMqttClientId
  | .encMqttClientIdTag => .enc .encMqttClientIdTag
  | .encMqttClientIdIv => .enc .encMqttClientIdIv
  | .encCloudHashId => .enc .encCloudHashId
  | .encCloudHashIdTag => .enc .encCloudHashIdTag
  | .encCloudHashIdIv => .enc .encCloudHashIdIv
  | .pseSeed idx => .seed idx
  | _ => .unsupported

/-- The lengths the code takes for a type. -/
def DataType.admits (t : DataType) (dataLen : ℕ) : Bool :=
  match t with
  | .rootca => dataLen ≤ secRootCaLen
  | .dencCloudHashId => dataLen = secCloudHashLen
  | .encDevIdTag => true
  | _ => match t.target with
    | .enc f => dataLen ≤ f.size
    | .seed _ => dataLen ≤ secCseSeedLen
    | _ => true

/-- How many bytes behind the header are read for a type. -/
def fetchLen (t : DataType) (dataLen : ℕ) : ℕ :=
  match t.target with
  | .simple _ => 4
  | .seed _ => secCseSeedLen
  | _ => dataLen

theorem copyEnc_eq (f : Field) (src : ℕ → UInt8) (dataLen : ℕ) (s : SecState) :
    copyEnc f src dataLen s = if decide (dataLen ≤ f.size) = true then
      (.stored, { s with ctx := put s.ctx f (read src 0 dataLen) }) else (.refused, s) := by
  unfold copyEnc
  by_cases h : dataLen ≤ f.size
  · rw [if_neg (by omega), if_pos (decide_eq_true h)]
  · rw [if_pos (by omega), if_neg (by simpa using h)]

/-- A seed is stored, finds no memory, or is not looked at. -/
theorem processCseSeed_eq (src : ℕ → UInt8) (idx : Fin 4) (dataLen : ℕ) (s : SecState) :
    ((dataLen ≤ secCseSeedLen ∧ s.seeds idx = none) ∧ env.kHeapAlloc s.allocs = true ∧
      secHcProcessCseSeed env src idx dataLen s = (.success, { s with
        seeds := Function.update s.seeds idx (some (Seed.read src))
        seedNo := s.seedNo + 1
        allocs := s.allocs + 1 })) ∨
    ((dataLen ≤ secCseSeedLen ∧ s.seeds idx = none) ∧ env.kHeapAlloc s.allocs = false ∧
      secHcProcessCseSeed env src idx dataLen s =
        (.failed, { s with allocs := s.allocs + 1 })) ∨
    (¬(dataLen ≤ secCseSeedLen ∧ s.seeds idx = none) ∧
      secHcProcessCseSeed env src idx dataLen s = (.failed, s)) := by
  unfold secHcProcessCseSeed
  by_cases hl : dataLen > secCseSeedLen
  · exact Or.inr (Or.inr ⟨fun h => absurd h.1 (by omega), if_pos hl⟩)
  · by_cases hs : s.seeds idx = none
    · rw [if_neg hl, if_neg (not_not_intro hs)]
      cases ha : env.kHeapAlloc s.allocs with
      | true => exact Or.inl ⟨⟨by omega, hs⟩, rfl, if_neg (by decide)⟩
      | false => exact Or.inr (Or.inl ⟨⟨by omega, hs⟩, rfl, if_pos rfl⟩)
    · rw [if_neg hl, if_pos hs]
      exact Or.inr (Or.inr ⟨fun h => hs h.2, rfl⟩)

/-- What a setter does, by the hash: it stores, or it is ignored and changes nothing. -/
theorem afterSetter_setParam (s : SecState) (f lenField : Field) (data : List UInt8) :
    s.afterSetter (secIntSetParam env.crypto f lenField s.ctx data) =
      if Verified env.crypto s.ctx then
        (.stored, { s with ctx :=
          secIntUpdateContextHash env.crypto (secIntSetContextParam s.ctx f lenField data) })
      else (.ignored, s) := by
  unfold SecState.afterSetter
  by_cases h : Verified env.crypto s.ctx
  · rw [setParam_of_verified data h, if_pos rfl, if_pos h]
  · rw [setParam_of_not_verified data h, if_neg h]
    rfl

theorem afterSetter_setParamSimple (s : SecState) (f : Field) (data : List UInt8) :
    s.afterSetter (secIntSetParamSimple env.crypto f s.ctx data) =
      if Verified env.crypto s.ctx then
        (.stored, { s with ctx := secIntUpdateContextHash env.crypto (put s.ctx f data) })
      else (.ignored, s) := by
  unfold SecState.afterSetter
  by_cases h : Verified env.crypto s.ctx
  · rw [setParamSimple_of_verified data h, if_pos rfl, if_pos h]
  · rw [setParamSimple_of_not_verified data h, if_neg h]
    rfl

/-- **The switch, by the place the data goes to.** -/
theorem storeTlv_eq (t : DataType) (src : ℕ → UInt8) (dataLen : ℕ) (s : SecState) :
    storeTlv env t src dataLen s = match t.target with
      | .param f lenField =>
          if t.admits dataLen = true ∧ Verified env.crypto s.ctx then
            (.stored, { s with ctx := (secIntUpdateContextHash env.crypto
              (secIntSetContextParam s.ctx f lenField (read src 0 dataLen))) })
          else (.ignored, s)
      | .simple f =>
          if Verified env.crypto s.ctx then
            (.stored, { s with ctx :=
              secIntUpdateContextHash env.crypto (put s.ctx f (read src 0 4)) })
          else (.ignored, s)
      | .enc f =>
          if t.admits dataLen = true then
            (.stored, { s with ctx := put s.ctx f (read src 0 dataLen) })
          else (.refused, s)
      | .seed idx =>
          if t.admits dataLen = true ∧ s.seeds idx = none then
            if env.kHeapAlloc s.allocs = true then
              (.stored, { s with
                seeds := Function.update s.seeds idx (some (Seed.read src))
                seedNo := s.seedNo + 1
                allocs := s.allocs + 1 })
            else (.refused, { s with allocs := s.allocs + 1 })
          else (.refused, s)
      | .unsupported => (.refused, s) := by
  cases t with
  | rootca =>
      simp only [storeTlv, secIntSetRootCa, DataType.target, DataType.admits, decide_eq_true_eq]
      by_cases h : dataLen ≤ secRootCaLen
      · rw [if_neg (by rw [length_read]; omega), afterSetter_setParam]
        simp only [h, true_and]
      · rw [if_pos (by rw [length_read]; omega), if_neg (fun hh => h hh.1)]
        rfl
  | dencCloudHashId =>
      simp only [storeTlv, secIntSetCloudHash, DataType.target, DataType.admits,
        decide_eq_true_eq]
      by_cases h : dataLen = secCloudHashLen
      · rw [if_neg (by rw [length_read]; exact not_not_intro h), afterSetter_setParam]
        simp only [h, true_and]
      · rw [if_pos (by rw [length_read]; exact h), if_neg (fun hh => h hh.1)]
        rfl
  | pseSeed idx =>
      simp only [storeTlv, DataType.target, DataType.admits, decide_eq_true_eq]
      rcases processCseSeed_eq env src idx dataLen s with ⟨h, ha, he⟩ | ⟨h, ha, he⟩ | ⟨h, he⟩
      · rw [he, if_pos h, if_pos ha]
      · rw [he, if_pos h, if_neg (by rw [ha]; decide)]
      · rw [he, if_neg h]
  | cldPort | pxyPort | provState => exact afterSetter_setParamSimple env s _ _
  | ownPubKey | hkdf32bPseSalt | dencTokId | dencDevId | cldUrl | pxyUrl | cldAdapter
  | dencMqttClientId =>
      simp only [DataType.target, DataType.admits, true_and]
      exact afterSetter_setParam env s _ _ _
  | _ => first | rfl | exact copyEnc_eq _ src dataLen s

variable {env}

/-- **A TLV is handled by its bytes alone**, and they matter only when it is stored. -/
theorem storeTlv_congr {t : DataType} {src src' : ℕ → UInt8} {dataLen : ℕ} (s : SecState)
    (h : (storeTlv env t src dataLen s).1 = .stored →
      read src 0 (fetchLen t dataLen) = read src' 0 (fetchLen t dataLen)) :
    storeTlv env t src dataLen s = storeTlv env t src' dataLen s := by
  rw [storeTlv_eq] at h ⊢
  rw [storeTlv_eq]
  unfold fetchLen at h
  cases ht : t.target with
  | param f lenField | simple f | enc f =>
      simp only [ht] at h ⊢
      split
      · rename_i hc
        rw [if_pos hc] at h
        rw [h rfl]
      · rfl
  | seed idx =>
      simp only [ht] at h ⊢
      split
      · rename_i hc
        rw [if_pos hc] at h
        split
        · rename_i hk
          rw [if_pos hk] at h
          simp only [Seed.read, h rfl]
        · rfl
      · rfl
  | unsupported => rfl

/-- A TLV that is not stored changes neither the context nor the seeds. -/
theorem storeTlv_not_stored {t : DataType} {src : ℕ → UInt8} {dataLen : ℕ} {s : SecState}
    (h : (storeTlv env t src dataLen s).1 ≠ .stored) :
    (storeTlv env t src dataLen s).2.ctx = s.ctx ∧
      (storeTlv env t src dataLen s).2.seeds = s.seeds := by
  rw [storeTlv_eq] at h ⊢
  cases ht : t.target with
  | param f lenField | simple f | enc f =>
      simp only [ht] at h ⊢
      split at h
      · exact absurd rfl h
      · rename_i ha
        rw [if_neg ha]
        exact ⟨rfl, rfl⟩
  | seed idx =>
      simp only [ht] at h ⊢
      split at h
      · split at h
        · exact absurd rfl h
        · rename_i ha hk
          rw [if_pos ha, if_neg hk]
          exact ⟨rfl, rfl⟩
      · rename_i ha
        rw [if_neg ha]
        exact ⟨rfl, rfl⟩
  | unsupported => exact ⟨rfl, rfl⟩

/-- A target outside the part the hash protects stands behind the hash. -/
theorem target_enc_behind {t : DataType} {f : Field} (h : t.target = .enc f) :
    Field.hash.offset + Field.hash.size ≤ f.offset := by
  cases t <;> simp only [DataType.target, reduceCtorEq, Target.enc.injEq] at h <;> subst h <;>
    decide

/-- **The hash of the context is right after a TLV if and only if it was right before.** -/
theorem verified_storeTlv {t : DataType} {src : ℕ → UInt8} {dataLen : ℕ} {s : SecState} :
    Verified env.crypto (storeTlv env t src dataLen s).2.ctx ↔ Verified env.crypto s.ctx := by
  rw [storeTlv_eq]
  cases ht : t.target with
  | param f lenField =>
      simp only
      split
      · rename_i h
        exact iff_of_true (verify_update _) h.2
      · rfl
  | simple f =>
      simp only
      split
      · rename_i h
        exact iff_of_true (verify_update _) h
      · rfl
  | enc f =>
      simp only
      split
      · exact verified_put (target_enc_behind ht)
      · rfl
  | seed idx =>
      simp only
      split
      · split <;> rfl
      · rfl
  | unsupported => rfl

theorem verified_processCmdDataOnce (env : Env) (rx : ℕ → UInt8) (pos : ℕ) (s : SecState) :
    Verified env.crypto (secHcProcessCmdDataOnce env rx pos s).2.ctx ↔
      Verified env.crypto s.ctx := by
  unfold secHcProcessCmdDataOnce
  split
  · rfl
  · cases DataType.ofCode (hdrType rx pos) with
    | none => rfl
    | some t => exact verified_storeTlv

/-- **The rule for the loop**: what every TLV keeps holds behind the last one. -/
theorem processLoop_invariant {rx : ℕ → UInt8} {P : SecState → Prop}
    (hP : ∀ pos s, P s → P (secHcProcessCmdDataOnce env rx pos s).2) {fuel pos len : ℕ}
    {st : Status} {s : SecState} {q : List Visit × Status × SecState} (hs : P s)
    (h : processLoop env rx fuel pos len st s = some q) : P q.2.2 := by
  induction fuel generalizing pos len st s q with
  | zero =>
      cases len with
      | zero =>
          cases h
          exact hs
      | succ len => cases h
  | succ fuel ih =>
      cases len with
      | zero =>
          cases h
          exact hs
      | succ len =>
          rw [processLoop_succ] at h
          split at h
          · cases h
          · obtain ⟨q', hq', rfl⟩ := Option.map_eq_some_iff.1 h
            have hrest := ih (hP pos s hs) hq'
            exact hrest

end PseFw.Sec
