/-
**The commands of the BIOS.**

`sec_hc_process_cmd` handles one request.  Provisioning takes the credentials in the clear,
derives a key for each of them from the first seed and a fresh salt, and answers with the salt
and the encrypted credentials, which the BIOS keeps.  At the next start the BIOS sends them back:
the service looks for the seed that decrypts the cloud hash, compares the two hashes, and
decrypts the credentials into the context.

Following a null pointer has no result, and neither has a request whose TLVs keep the parser in
its loop for ever.

Main definitions:

* `Cred` — the four credentials that are encrypted, with their fields, labels and types;
* `secHcHkdfKeyGen`, `secHcEncryptData`, `secHcDecryptData` — the keys and the two directions;
* `secHcCreateCmdData`, `secHcResponseDataOnce` — the response is composed in the transmit buffer;
* `secHcFindCseSeed` — the search for the seed;
* `secHcProcessCmd` — one request.
-/

import PseFw.Sec.Request

set_option relaxedAutoImplicit false
set_option autoImplicit false

namespace PseFw.Sec

open Mem

/-- `sec_hc_command_id`: the commands `sec_hc_process_cmd` handles. -/
inductive Command
  | provInitOob
  | provInitAck
  | statusOob
  | initOob
  | initOob2
  | initAck2
  | rprovReq
  | rprovAck
  | decommAck
  deriving DecidableEq, Repr

/-- The command of a number. -/
def Command.ofCode : ℕ → Option Command
  | 0x00 => some .provInitOob
  | 0x02 => some .provInitAck
  | 0x24 => some .statusOob
  | 0x10 => some .initOob
  | 0x12 => some .initOob2
  | 0x14 => some .initAck2
  | 0x20 => some .rprovReq
  | 0x22 => some .rprovAck
  | 0x27 => some .decommAck
  | _ => none

/-- The number of the response to a command; `SEC_HC_INIT_ACK2` has none. -/
def Command.response : Command → ℕ
  | .provInitOob => 0x01
  | .provInitAck => 0x03
  | .statusOob => 0x25
  | .initOob => 0x11
  | .initOob2 => 0x13
  | .initAck2 => 0x00
  | .rprovReq => 0x21
  | .rprovAck => 0x23
  | .decommAck => 0x28

variable (env : Env)

/-! ### Credentials -/

/-- The credentials that are encrypted (`sec_hc_type_enc_a`, `sec_hc_type_dec_a`). -/
inductive Cred
  | tok
  | dev
  | mqttId
  | cldHash
  deriving DecidableEq, Repr

/-- The field of the encrypted credential. -/
def Cred.enc : Cred → Field
  | .tok => .encTokId
  | .dev => .encDevId
  | .mqttId => .encMqttClientId
  | .cldHash => .encCloudHashId

/-- The field of the initialisation vector. -/
def Cred.iv : Cred → Field
  | .tok => .encTokIdIv
  | .dev => .encDevIdIv
  | .mqttId => .encMqttClientIdIv
  | .cldHash => .encCloudHashIdIv

/-- The field of the tag. -/
def Cred.tag : Cred → Field
  | .tok => .encTokIdTag
  | .dev => .encDevIdTag
  | .mqttId => .encMqttClientIdTag
  | .cldHash => .encCloudHashIdTag

/-- The field of the key. -/
def Cred.key : Cred → Field
  | .tok => .tokIdEncKey
  | .dev => .devIdEncKey
  | .mqttId => .mqttClientIdEncKey
  | .cldHash => .cloudHashEncKey

/-- The label the key is derived with. -/
def Cred.label : Cred → List UInt8
  | .tok => "TOK_ENC_KEY".toUTF8.data.toList
  | .dev => "DEV_ENC_KEY".toUTF8.data.toList
  | .mqttId => "MQTT_ID_ENC_KEY".toUTF8.data.toList
  | .cldHash => "CLD_HASH_ENC_KEY".toUTF8.data.toList

/-- The length the credential is encrypted with: the whole field. -/
def Cred.bufLen : Cred → ℕ
  | .tok => secTokIdLen
  | .dev => secDevIdLen
  | .mqttId => secMqttClientIdLen
  | .cldHash => secCloudHashLen

/-- The types of the encrypted credential, of its vector and of its tag. -/
def Cred.types : Cred → DataType × DataType × DataType
  | .tok => (.encTokId, .encTokIdIv, .encTokIdTag)
  | .dev => (.encDevId, .encDevIdIv, .encDevIdTag)
  | .mqttId => (.encMqttClientId, .encMqttClientIdIv, .encMqttClientIdTag)
  | .cldHash => (.encCloudHashId, .encCloudHashIdIv, .encCloudHashIdTag)

/-- The getter the credential is read with before it is encrypted. -/
def Cred.getter (c : Crypto) : Cred → Ctx → Except Status (List UInt8)
  | .tok => secIntGetTokId c
  | .dev => secIntGetDevId c
  | .mqttId => secIntGetMqttClientId c
  | .cldHash => secIntGetCloudHash c

/-- The setter the credential is stored with after it is decrypted. -/
def Cred.setter (c : Crypto) : Cred → Ctx → List UInt8 → Status × Ctx
  | .tok => secIntSetTokId c
  | .dev => secIntSetDevId c
  | .mqttId => secIntSetMqttClientId c
  | .cldHash => secIntSetCloudHashDec c

/-! ### Keys, encryption, decryption -/

/-- What a getter leaves in a buffer of zeros; a string that is too long for the buffer goes
beyond its end. -/
def fillBuffer (n : ℕ) : Except Status (List UInt8) → List UInt8
  | .ok data => padTo n data
  | .error _ => padTo n []

/-- `sec_hc_hkdf_key_gen`. -/
def secHcHkdfKeyGen (label : List UInt8) (keyField : Field) (m : Ctx) : Status × Ctx :=
  match secIntGetPse32bFuse m secFuseLen with
  | .error e => (e, m)
  | .ok fuse =>
      let salt := fillBuffer secPseSaltLen (secIntGetHkdf32bPseSalt env.crypto m)
      match env.crypto.hkdf salt fuse label with
      | none => (.failed, m)
      | some key => (.success, put m keyField key)

/-- The vector of an encryption: random, or zeros when there is no entropy.  When the generator
fails, the one of before stays. -/
def encryptIv (cr : Cred) (s : SecState) : SecState :=
  if env.entropyState s.rands = true then
    { s with
      ctx := ((env.random s.rands secEncIvSize).map (put s.ctx cr.iv)).getD s.ctx
      rands := s.rands + 1 }
  else { s with ctx := put s.ctx cr.iv (List.replicate secEncIvSize 0) }

/-- Store the encrypted data and the tag of a credential. -/
def Cred.putSealed (cr : Cred) (m : Ctx) (data tag : List UInt8) : Ctx :=
  put (put m cr.enc data) cr.tag tag

/-- `sec_hc_encrypt_data_once`: the vector, then the encrypted data and the tag. -/
def secHcEncryptDataOnce (cr : Cred) (clearText : List UInt8) (s : SecState) :
    Status × SecState :=
  let s := encryptIv env cr s
  if env.crypto.gcmSetkey (get s.ctx cr.key) = false then (.failed, s)
  else
    let m := cr.putSealed s.ctx (List.replicate clearText.length 0)
      (List.replicate secEncTagSize 0)
    match env.crypto.gcmCryptAndTag (get m cr.key) (get m cr.iv) clearText with
    | none => (.failed, { s with ctx := m })
    | some c => (.success, { s with ctx := cr.putSealed m c.1 c.2 })

/-- `sec_hc_encrypt_data`. -/
def secHcEncryptData (cr : Cred) (s : SecState) : Status × SecState :=
  if env.kHeapAlloc s.allocs = false then (.failed, { s with allocs := s.allocs + 1 })
  else
    match secHcHkdfKeyGen env cr.label cr.key s.ctx with
    | (.success, m) =>
        secHcEncryptDataOnce env cr (fillBuffer cr.bufLen (cr.getter env.crypto m))
          { s with ctx := m, allocs := s.allocs + 1 }
    | (e, m) => (e, { s with ctx := m, allocs := s.allocs + 1 })

/-- `sec_hc_decrypt_data_once`. -/
def secHcDecryptDataOnce (cr : Cred) (m : Ctx) : Option (List UInt8) :=
  if env.crypto.gcmSetkey (get m cr.key) = false then none
  else env.crypto.gcmAuthDecrypt (get m cr.key) (get m cr.iv) (get m cr.tag)
    (read m cr.enc.offset cr.bufLen)

/-- `sec_hc_decrypt_data`: nobody looks at what the setter returns. -/
def secHcDecryptData (cr : Cred) (s : SecState) : Status × SecState :=
  if env.kHeapAlloc s.allocs = false then (.failed, { s with allocs := s.allocs + 1 })
  else
    match secHcHkdfKeyGen env cr.label cr.key s.ctx with
    | (.success, m) =>
        match secHcDecryptDataOnce env cr m with
        | none => (.failed, { s with ctx := m, allocs := s.allocs + 1 })
        | some clearText =>
            (.success, { s with
              ctx := (cr.setter env.crypto m clearText).2
              allocs := s.allocs + 1 })
    | (e, m) => (e, { s with ctx := m, allocs := s.allocs + 1 })

/-- `sec_hc_pse_set_salt`: the salt is zero when the generator fails. -/
def secHcPseSetSalt (s : SecState) : SecState :=
  let salt := (env.random s.rands secPseSaltLen).getD (List.replicate secPseSaltLen 0)
  { s with
    ctx := (secIntSetHkdf32bPseSalt env.crypto s.ctx salt).2
    rands := s.rands + 1 }

/-! ### Seeds -/

/-- The slot of the seed table with a number, if the table has one and it is not `NULL`. -/
def SecState.seedAt (s : SecState) (idx : ℕ) : Option Seed :=
  if h : idx < 4 then s.seeds ⟨idx, h⟩ else none

/-- `sec_hc_set_pref_cse_seed`: copies from the pointer in the slot. -/
def secHcSetPrefCseSeed (idx : ℕ) (s : SecState) : Option (Status × SecState) :=
  (s.seedAt idx).map fun seed =>
    let r := secIntSetPse32bFuse s.ctx seed.val
    (r.1, { s with ctx := r.2 })

/-- The loop of `sec_hc_find_cse_seed`, with the number of seeds that are left. -/
def findCseSeedLoop : ℕ → ℕ → SecState → Option (Status × SecState)
  | 0, _, s => some (.failed, s)
  | left + 1, idx, s =>
      (secHcSetPrefCseSeed idx s).bind fun q =>
        if q.1 ≠ .success then some (.failed, q.2)
        else
          let r := secHcDecryptData env .cldHash q.2
          if r.1 ≠ .success then findCseSeedLoop left (idx + 1) r.2
          else some (.success, { r.2 with seedUpdated := r.2.seedUpdated || idx != 0 })

/-- `sec_hc_find_cse_seed`. -/
def secHcFindCseSeed (s : SecState) : Option (Status × SecState) :=
  findCseSeedLoop env s.seedNo 0 s

/-- `sec_hc_rel_cse_seed`. -/
def secHcRelCseSeed (s : SecState) : SecState :=
  { s with seeds := fun i => if i.val < s.seedNo then none else s.seeds i, seedNo := 0 }

/-! ### Responses -/

/-- The word of a TLV header. -/
def tlvWord (type length rsvd : ℕ) : ℕ :=
  type % 2 ^ 8 + 2 ^ 8 * (length % 2 ^ 12) + 2 ^ 20 * (rsvd % 2 ^ 12)

/-- `HECI_COMPOSE_BUFFER_LEN`. -/
def heciComposeBufferLen : ℕ := 400

/-- `sec_hc_create_cmd_data`.  The comparison is one of unsigned numbers, and so is the number of
bytes that are copied: with a length that is shorter than the header it runs through all of the
data and beyond. -/
def secHcCreateCmdData (pos composeLen type length rsvd : ℕ) (data : List UInt8) (s : SecState) :
    Status × SecState :=
  if (composeLen + 2 ^ 32 - length) % 2 ^ 32 < 0 then (.failed, s)
  else (.success, { s with
    tx := write (write s.tx pos (leBytes 4 (tlvWord type length rsvd))) (pos + hdrSize)
      (data.take ((length + 2 ^ 32 - hdrSize) % 2 ^ 32))
    composeNext := pos + length
    accumComposeLen := s.accumComposeLen + length })

/-- `sec_hc_response_data_once`.  The length of the header has twelve bits. -/
def secHcResponseDataOnce (t : DataType) (pos : ℕ) (data : List UInt8) (s : SecState) :
    Status × SecState :=
  secHcCreateCmdData pos heciComposeBufferLen t.code ((hdrSize + data.length) % 2 ^ 12)
    (env.rsvd pos) data s

/-- Go on unless the last call failed. -/
def andThen (r : Status × SecState) (k : SecState → Status × SecState) : Status × SecState :=
  if r.1 = .success then k r.2 else r

/-- The address of the payload in the transmit buffer (`buf_compose`). -/
def bufCompose : ℕ := hdrSize

/-- `sec_hc_response_data` for an encrypted credential: the data, the vector, the tag.  For the
token the result of the last call is dropped. -/
def responseCred (cr : Cred) (s : SecState) : Status × SecState :=
  andThen (secHcResponseDataOnce env cr.types.1 s.composeNext (get s.ctx cr.enc) s) fun s =>
    andThen (secHcResponseDataOnce env cr.types.2.1 s.composeNext (get s.ctx cr.iv) s) fun s =>
      let r := secHcResponseDataOnce env cr.types.2.2 s.composeNext (get s.ctx cr.tag) s
      if cr = .tok then (.success, r.2) else r

/-- `sec_hc_response_data(SEC_HC_TYPE_RESP_PSE_SALT)`. -/
def responsePseSalt (s : SecState) : Status × SecState :=
  secHcResponseDataOnce env .hkdf32bPseSalt s.composeNext
    (fillBuffer secPseSaltLen (secIntGetHkdf32bPseSalt env.crypto s.ctx)) s

/-- The provisioning state as a response sends it. -/
def provStateData (s : SecState) : List UInt8 :=
  match secIntGetProvState env.crypto s.ctx with
  | .ok data => data
  | .error _ => leBytes 4 env.stackData

/-- `sec_hc_response_data(SEC_HC_TYPE_RESP_OOB_ST)` and `sec_hc_response_msg_type`. -/
def secHcResponseMsgType (t : DataType) (s : SecState) : Status × SecState :=
  secHcResponseDataOnce env t bufCompose (provStateData env s) s

/-- Change the command header in the transmit buffer. -/
def SecState.setTxhdr (s : SecState) (f : CmdHdr → CmdHdr) : SecState :=
  { s with tx := write s.tx 0 (leBytes 4 (f (cmdHdr s.tx)).toWord) }

/-- `SEC_HC_MAJOR_MINOR_VERSION`. -/
def secHcMajorMinorVersion : ℕ := 2

/-- `SEC_HC_SOURCE_BIOS`. -/
def secHcSourceBios : ℕ := 1

/-- `sec_hc_txhdr_config`: the faults of a request are noted in the header of the response. -/
def secHcTxhdrConfig (rxhdr : CmdHdr) (s : SecState) : SecState :=
  s.setTxhdr fun h => { h with
    msgComp := 1
    rsvd := 0
    status := if rxhdr.rsvd ≠ 0 ∨ rxhdr.protocolVer < secHcMajorMinorVersion ∨
      rxhdr.source ≠ secHcSourceBios ∨ rxhdr.length < 3 then 1 else 0
    protocolVer := secHcMajorMinorVersion
    source := 0 }

/-- `sec_hc_resp_data_int`. -/
def secHcRespDataInt (s : SecState) : SecState :=
  { s with composeNext := 0, accumComposeLen := 4 }

/-- The length goes to the header, and the buffer to `heci_send`. -/
def sendResponse (s : SecState) : SecState :=
  let s := s.setTxhdr fun h => { h with length := s.accumComposeLen }
  { s with sent := s.sent ++ [read s.tx 0 (hdrSize + s.accumComposeLen)] }

/-! ### The commands -/

/-- The four encryptions of a provisioning request, until one fails. -/
def encryptAll (r : Status × SecState) : Status × SecState :=
  andThen (andThen (andThen (andThen r (secHcEncryptData env .tok)) (secHcEncryptData env .dev))
    (secHcEncryptData env .mqttId)) (secHcEncryptData env .cldHash)

/-- The response to a provisioning request is composed. -/
def responseAll (s : SecState) : Status × SecState :=
  andThen (andThen (andThen (andThen (responsePseSalt env s) (responseCred env .tok))
    (responseCred env .dev)) (responseCred env .mqttId)) (responseCred env .cldHash)

/-- What `SEC_HC_PROV_INIT_OOB` and `SEC_HC_RPROV_REQ` share: a salt, the first seed, the four
encryptions, the response. -/
def provision (s : SecState) : Option SecState :=
  (secHcSetPrefCseSeed 0 (secHcPseSetSalt env s)).map fun q =>
    let r := encryptAll env q
    if r.1 ≠ .success then r.2
    else
      let r := responseAll env { r.2 with composeNext := bufCompose }
      if r.1 ≠ .success then r.2 else sendResponse r.2

/-- The three decryptions at the end of `SEC_HC_INIT_OOB2`, and the response. -/
def decryptAll (s : SecState) : SecState :=
  let r := andThen (andThen (secHcDecryptData env .tok s) (secHcDecryptData env .dev))
    (secHcDecryptData env .mqttId)
  if r.1 ≠ .success then r.2 else sendResponse r.2

/-- A response with a message type, sent at once. -/
def respondMsgType (t : DataType) (s : SecState) : SecState :=
  let r := secHcResponseMsgType env t s
  if r.1 ≠ .success then r.2 else sendResponse r.2

/-- `SEC_HC_INIT_OOB2`, when all of it has been received. -/
def initOob2 (s : SecState) : Option SecState :=
  (secHcFindCseSeed env s).map fun q =>
    if q.1 ≠ .success then respondMsgType env .normalFlwDataErr q.2
    else if secHcIntHashCheck env.crypto q.2.ctx ≠ .success then
      respondMsgType env .normalFlwHashErr q.2
    else if q.2.seedUpdated = true then
      -- `SEC_RPROV`
      let s := { q.2 with ctx := (secIntSetProvState env.crypto q.2.ctx (leBytes 4 2)).2 }
      let r := secHcResponseMsgType env .normalFlwReprovReq s
      if r.1 ≠ .success then r.2 else decryptAll env r.2
    else
      let r := secHcResponseMsgType env .normalFlwSuccess q.2
      if r.1 ≠ .success then r.2 else decryptAll env r.2

/-- The part of a command behind the parsing of its TLVs. -/
def afterData (cmd : Command) (msgComp : ℕ) (s : SecState) : Option SecState :=
  let s' := s.setTxhdr fun h => { h with command := cmd.response }
  match cmd with
  | .provInitOob => if msgComp ≠ 1 then some s' else provision env s'
  | .provInitAck | .initOob => if msgComp ≠ 1 then some s' else some (sendResponse s')
  | .initOob2 => if msgComp ≠ 1 then some s' else initOob2 env s'
  | .initAck2 => some { secHcRelCseSeed s with startInitFlag := true }
  | .statusOob => some (respondMsgType env .oobStatus s')
  | .rprovReq => provision env { s' with seedUpdated := false }
  | .rprovAck =>
      -- `SEC_PROV`
      let s' := sendResponse
        { s' with ctx := (secIntSetProvState env.crypto s'.ctx (leBytes 4 0)).2 }
      some { secHcRelCseSeed s' with startInitFlag := true }
  | .decommAck =>
      let s' := sendResponse s'
      some { s' with ctx := secIntSecDecommission s'.ctx, abortSet := true }

/-- The commands that carry TLVs. -/
def Command.hasData : Command → Bool
  | .provInitOob | .provInitAck | .initOob | .initOob2 | .initAck2 => true
  | _ => false

/-- `sec_hc_process_cmd`. -/
def secHcProcessCmd (rx : ℕ → UInt8) (s : SecState) : Option SecState :=
  if env.kMalloc = false then some s
  else
    let rxhdr := cmdHdr rx
    let s := secHcRespDataInt (secHcTxhdrConfig rxhdr s)
    match Command.ofCode rxhdr.command with
    | none => some s
    | some cmd =>
        if cmd.hasData = true then
          (secHcProcessCmdData env rx (rxhdr.length - hdrSize) s).bind fun q =>
            afterData env cmd rxhdr.msgComp q.2.2
        else afterData env cmd rxhdr.msgComp s

end PseFw.Sec
