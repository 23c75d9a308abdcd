import Mathlib.Tactic.Common
import Ntag424.FileSettings.Codec
import Ntag424.Session.Channel

/-!
# Authenticated Commands

The commands that run inside a secure channel, other than reading and writing files
(`commands/*.rs`). Each builds its APDU, transmits it, checks the status and verifies,
decrypts or drops the response.

## Modelling

* The length byte of an APDU is computed from its body (`nativeApdu`); where the source writes
  a constant, the body always has that length.
* The three frames of `GetVersion` are one command: only the last answer carries a MAC.
-/

namespace Ntag424

open Numerals SecureChannel

variable {E S : Type} (P : Primitives) [SessionSuite P S]

/-! ### GetVersion -/

/-- `Version`: hardware, software and production information. -/
structure Version where
  part1 : Bytes 7
  part2 : Bytes 7
  part3 : Bytes 14
deriving DecidableEq, Repr

/-- `request_intermediate_part`. -/
def requestIntermediatePart {σ : Type} (apdu : List UInt8) : Cmd E σ (Bytes 7) := do
  let resp ← transmitExpecting .additionalFrame apdu
  expectBytes 7 resp.data

/-- The APDU that asks for the next frame of a chain. -/
def continuationApdu : List UInt8 := [0x90, 0xAF, 0x00, 0x00, 0x00]

/-- `drive_chain`. -/
def driveChain {σ : Type} (head : List UInt8) : Cmd E σ (Bytes 7 × Bytes 7 × List UInt8) := do
  let part1 ← requestIntermediatePart head
  let part2 ← requestIntermediatePart continuationApdu
  let r3 ← transmitExpecting .operationOk continuationApdu
  return (part1, part2, r3.data)

/-- `get_version_mac`. -/
def getVersionMac : Cmd E (Authenticated S) Version := do
  let cmdMac ← computeCmdMac P 0x60 [] []
  let (part1, part2, last) ← driveChain (nativeApdu 0x60 0x00 0x00 cmdMac.toList)
  Script.require (last.length = 14 + 8) (.unexpectedLength last.length 22)
  let verified ← verifyResponseMacAndAdvance P 0x00 (part1.toList ++ part2.toList ++ last)
  return ⟨part1, part2, Bytes.fill 14 (verified.drop 14)⟩

/-! ### ChangeKey -/

/-- One round of the bitwise CRC. -/
def crcRound (crc : UInt32) : UInt32 :=
  if crc &&& 1 ≠ 0 then (crc >>> 1) ^^^ 0xEDB88320 else crc >>> 1

/-- `crc32`: without the final complement, low byte first. -/
def crc32 (data : List UInt8) : List UInt8 :=
  leBytes 4 (data.foldl (fun crc b => crcRound^[8] (crc ^^^ b.toUInt32)) 0xFFFFFFFF).toNat

/-- `transmit` of `ChangeKey`: encrypt the prepared plaintext and send it. -/
def transmitKey (keyNo : KeyNumber) (plaintext : List UInt8) (expectMact : Bool) :
    Cmd E (Authenticated S) Unit := do
  let ct ← encryptCommand P plaintext
  let resp ← transmitMac P 0xC4 0x00 0x00 [keyNo.asByte] ct
  if expectMact then
    let _ ← verifyResponseMacAndAdvance P resp.sw2 resp.data
  else
    Script.require (resp.data = []) (.unexpectedLength resp.data.length 0)
    advanceCounter

/-- The plaintext of `change_key`: `(NewKey ⊕ OldKey) || KeyVer || CRC32(NewKey)`, padded to
32 bytes. -/
def changeKeyPlaintext (newKey : Key) (newKeyVersion : UInt8) (oldKey : Key) : List UInt8 :=
  (newKey.xor oldKey).toList ++ [newKeyVersion] ++ crc32 newKey.toList ++
    0x80 :: List.replicate 10 0

/-- `change_key`. -/
def changeKey (keyNo : NonMasterKeyNumber) (newKey : Key) (newKeyVersion : UInt8)
    (oldKey : Key) : Cmd E (Authenticated S) Unit :=
  transmitKey P keyNo.toKeyNumber (changeKeyPlaintext newKey newKeyVersion oldKey) true

/-- The plaintext of `change_master_key`: `NewKey || KeyVer`, padded to 32 bytes. -/
def changeMasterKeyPlaintext (newKey : Key) (newKeyVersion : UInt8) : List UInt8 :=
  newKey.toList ++ [newKeyVersion] ++ 0x80 :: List.replicate 14 0

/-- `change_master_key`. -/
def changeMasterKey (newKey : Key) (newKeyVersion : UInt8) : Cmd E (Authenticated S) Unit :=
  transmitKey P .key0 (changeMasterKeyPlaintext newKey newKeyVersion) false

/-! ### Commands without data -/

/-- Send a command with a MAC and read an encrypted answer of fixed length. -/
def readFullFixed (ins : UInt8) (header : List UInt8) (ct p : ℕ) :
    Cmd E (Authenticated S) (Bytes p) := do
  let resp ← transmitMac P ins 0x00 0x00 header []
  decryptFullFixed P ct p resp.sw2 resp.data

/-- `get_card_uid`. -/
def getCardUid : Cmd E (Authenticated S) (Bytes 7) := readFullFixed P 0x51 [] 16 7

/-- `get_tt_status`. -/
def getTtStatus : Cmd E (Authenticated S) TagTamperStatusReadout := do
  let plain ← readFullFixed P 0xF7 [] 16 2
  return .new (plain.byte 0) (plain.byte 1)

/-- `SIGNATURE_LEN`. -/
def signatureLen : ℕ := 56

/-- `read_sig_mac`: the status may be `91 90` as well as `91 00`. -/
def readSigMac : Cmd E (Authenticated S) (Bytes signatureLen) := do
  let cmdMac ← computeCmdMac P 0x3C [0x00] []
  let resp ← transmit (nativeApdu 0x3C 0x00 0x00 ([0x00] ++ cmdMac.toList))
  let status := desfireStatus resp.sw1 resp.sw2
  Script.require (status = .operationOk ∨ status = .unknown 0x9190) (.errorResponse status)
  decryptFullFixed P 64 signatureLen resp.sw2 resp.data

/-- `get_key_version`. -/
def getKeyVersion (keyNo : KeyNumber) : Cmd E (Authenticated S) UInt8 := do
  let plain ← sendMac P 0x64 0x00 0x00 [keyNo.asByte] []
  match plain with
  | [version] => pure version
  | _ => Script.fail (.unexpectedLength plain.length 1)

/-- A decoded answer, or its decoding error. -/
def liftSettings {σ α : Type} : Except FileSettingsError α → Cmd E σ α
  | .ok a => pure a
  | .error e => Script.fail (.fileSettings e)

/-- `get_file_settings_mac`. -/
def getFileSettingsMac (fileNo : UInt8) : Cmd E (Authenticated S) FileSettingsView := do
  let plain ← sendMac P 0xF5 0x00 0x00 [fileNo] []
  liftSettings (FileSettingsView.decode plain)

/-- `RESP_LEN` of `GetFileCounters`. -/
def fileCountersLen : ℕ := 5

/-- `get_file_counters`: the answer is plain or encrypted, told apart by its length. -/
def getFileCounters (fileNo : UInt8) : Cmd E (Authenticated S) ℕ := do
  let resp ← sendMac P 0xF6 0x00 0x00 [fileNo] []
  if resp.length = fileCountersLen then
    return ofLe (resp.take 3)
  else if resp.length = 16 then
    let ct ← decryptResponse P resp
    Script.require (stripM2Padding ct = some fileCountersLen)
      (.unexpectedLength 16 fileCountersLen)
    return ofLe (ct.take 3)
  else Script.fail (.unexpectedLength resp.length fileCountersLen)

/-! ### Commands with encrypted data -/

/-- Encrypt the padded data of a command and send it with a header byte and the MAC. -/
def transmitFull (ins : UInt8) (header data : List UInt8) : Cmd E (Authenticated S) Response := do
  let ct ← encryptCommand P (m2Pad data)
  transmitMac P ins 0x00 0x00 header ct

/-- `Configuration`: the options that were set. -/
structure Configuration where
  picc : Option (Bytes 1)
  secureMessaging : Option (Bytes 2)
  capability : Option (Bytes 10)
  tagTamper : Option (Bytes 2)
  failedAuthCounter : Option (Bytes 5)
  hw : Option (Bytes 1)

/-- `Configuration::new`: no option is set. -/
def Configuration.new : Configuration := ⟨none, none, none, none, none, none⟩

/-- `with_lrp_enabled`: bit 1 of `PDCap2.1`. -/
def Configuration.withLrpEnabled (c : Configuration) : Configuration :=
  let bytes := c.capability.getD (Bytes.zeros 10)
  { c with capability := some (Bytes.fill 10 (bytes.toList.set 4 (bytes.byte 4 ||| 0x02))) }

/-- `Configuration::build`: the set options in wire order. -/
def Configuration.build (c : Configuration) : List (UInt8 × List UInt8) :=
  [(0x00, c.picc.map Bytes.toList), (0x04, c.secureMessaging.map Bytes.toList),
    (0x05, c.capability.map Bytes.toList), (0x07, c.tagTamper.map Bytes.toList),
    (0x0A, c.failedAuthCounter.map Bytes.toList), (0x0B, c.hw.map Bytes.toList)].filterMap
    fun (id, data) => data.map fun d => (id, d)

/-- Every option fits one APDU. -/
theorem Configuration.length_le {c : Configuration} {o : UInt8 × List UInt8} (h : o ∈ c.build) :
    o.2.length ≤ 10 := by
  simp only [build, List.mem_filterMap, List.mem_cons, List.not_mem_nil, or_false,
    exists_eq_or_imp, exists_eq_left, Option.map_eq_some_iff] at h
  rcases h with h | h | h | h | h | h <;>
    obtain ⟨d, ⟨b, -, rfl⟩, rfl⟩ := h <;> simp

/-- **Every option fits one block** with its padding, as `set_configuration_one` asserts. -/
theorem Configuration.fits_block {c : Configuration} {o : UInt8 × List UInt8} (h : o ∈ c.build) :
    o.2 ≠ [] ∧ o.2.length < 16 := by
  refine ⟨?_, Nat.lt_of_le_of_lt (length_le h) (by decide)⟩
  simp only [build, List.mem_filterMap, List.mem_cons, List.not_mem_nil, or_false,
    exists_eq_or_imp, exists_eq_left, Option.map_eq_some_iff] at h
  rcases h with h | h | h | h | h | h <;>
    obtain ⟨d, ⟨b, -, rfl⟩, rfl⟩ := h <;> exact List.ne_nil_of_length_pos (by simp)

/-- `set_configuration_one`: a response MAC is verified when there is one. -/
def setConfigurationOne (optionId : UInt8) (data : List UInt8) :
    Cmd E (Authenticated S) Unit := do
  let resp ← transmitFull P 0x5C [optionId] data
  if resp.data = [] then
    advanceCounter
  else
    let _ ← verifyResponseMacAndAdvance P resp.sw2 resp.data

/-- The loop of `set_configuration`: one APDU for each option. -/
def setOptions : List (UInt8 × List UInt8) → Cmd E (Authenticated S) Unit
  | [] => pure ()
  | (optionId, data) :: rest => do
      setConfigurationOne P optionId data
      setOptions rest

/-- `set_configuration`. -/
def setConfiguration (configuration : Configuration) : Cmd E (Authenticated S) Unit :=
  setOptions P configuration.build

/-- `change_file_settings`. -/
def changeFileSettings (fileNo : UInt8) (settings : FileSettingsUpdate) :
    Cmd E (Authenticated S) Unit := do
  let raw ← liftSettings (settings.encode maxChangeFileSettingsLen)
  let resp ← transmitFull P 0x5F [fileNo] raw
  let _ ← verifyResponseMacAndAdvance P resp.sw2 resp.data

end Ntag424
