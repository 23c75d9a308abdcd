import Mathlib.Tactic.Common
import Ntag424.Session.Channel

/-!
# Mutual Authentication

The host side of `AuthenticateEV2First` and `AuthenticateEV2NonFirst`
(`commands/authenticate/aes.rs`, `commands/authenticate/lrp.rs`). Both sides prove knowledge
of the application key over each other's random and derive the session keys from both
randoms. The first authentication also fetches the transaction identifier and the
capabilities; a re-authentication keeps them.

## Main results

* `rotateRight_rotateLeft`: the rotation that proves knowledge of a random is undone by the
  host.
-/

namespace Ntag424

open Numerals

variable {E σ : Type} (P : Primitives)

/-! ### Rotations -/

/-- Rotate left by one byte. -/
def rotateLeft (b : Bytes 16) : Bytes 16 :=
  ⟨b.toList.drop 1 ++ b.toList.take 1, by simp⟩

/-- Rotate right by one byte. -/
def rotateRight (b : Bytes 16) : Bytes 16 :=
  ⟨b.toList.drop 15 ++ b.toList.take 15, by simp⟩

@[simp] theorem rotateRight_rotateLeft (b : Bytes 16) : rotateRight (rotateLeft b) = b := by
  have hlen := b.length_toList
  have hlast : (b.toList.drop 1 ++ b.toList.take 1).drop 15 = b.toList.take 1 := by
    rw [List.drop_left' (by rw [List.length_drop, hlen])]
  have hinit : (b.toList.drop 1 ++ b.toList.take 1).take 15 = b.toList.drop 1 := by
    rw [List.take_left' (by rw [List.length_drop, hlen])]
  apply Bytes.ext
  simp only [rotateRight, rotateLeft, hlast, hinit, List.take_append_drop]

/-- The zero IV of the handshake. -/
def zeroIv : Block := Bytes.zeros 16

/-! ### AES -/

namespace AesSuite

/-- The body of part 2: `E(Kx, RndA || RndB')`, of which `build_part2_apdu` makes the APDU. -/
def part2Body (key : Key) (rndA rndB : Bytes 16) : Bytes 32 :=
  aesCbcEncryptN P key zeroIv (rndA.append (rotateLeft rndB))

/-- `finish_auth_non_first`. -/
def finishAuthNonFirst (key : Key) (rndA rndB enc : Bytes 16) : Cmd E σ AesSuite := do
  let plain := aesCbcDecryptN P key zeroIv enc
  Script.require (rotateRight plain = rndA) .authenticationMismatch
  return derive P key rndA rndB

/-- `authenticate_ev2_non_first`. -/
def authenticateEv2NonFirst (keyNo : KeyNumber) (key : Key) (rndA : Bytes 16) :
    Cmd E σ AesSuite := do
  let r1 ← transmitExpecting .additionalFrame (nativeApdu 0x77 0x00 0x00 [keyNo.asByte])
  let rndBEnc ← expectBytes 16 r1.data
  let rndB := aesCbcDecryptN P key zeroIv rndBEnc
  let r2 ← transmitExpecting .operationOk
    (nativeApdu 0xAF 0x00 0x00 (part2Body P key rndA rndB).toList)
  let enc ← expectBytes 16 r2.data
  finishAuthNonFirst P key rndA rndB enc

/-- `finish_auth`: the answer is `TI || RndA' || PDcap2 || PCDcap2`. -/
def finishAuth (key : Key) (rndA rndB : Bytes 16) (enc : Bytes 32) :
    Cmd E σ (AuthResult AesSuite) := do
  let resp := (aesCbcDecryptN P key zeroIv enc).toList
  Script.require (rotateRight (Bytes.fill 16 (slice resp 4 16)) = rndA) .authenticationMismatch
  return {
    suite := derive P key rndA rndB
    ti := Bytes.fill 4 (slice resp 0 4)
    pdCap2 := Bytes.fill 6 (slice resp 20 6)
    pcdCap2 := Bytes.fill 6 (slice resp 26 6) }

/-- `authenticate_ev2_first`. -/
def authenticateEv2First (keyNo : KeyNumber) (key : Key) (rndA : Bytes 16) :
    Cmd E σ (AuthResult AesSuite) := do
  let r1 ← transmitExpecting .additionalFrame
    (nativeApdu 0x71 0x00 0x00 [keyNo.asByte, 0x03, 0x00, 0x00, 0x00])
  let rndBEnc ← expectBytes 16 r1.data
  let rndB := aesCbcDecryptN P key zeroIv rndBEnc
  let r2 ← transmitExpecting .operationOk
    (nativeApdu 0xAF 0x00 0x00 (part2Body P key rndA rndB).toList)
  let enc ← expectBytes 32 r2.data
  finishAuth P key rndA rndB enc

end AesSuite

/-! ### LRP -/

namespace LrpSuite

/-- `PCDCAP2`: bit 1 of the first byte selects LRP mode. -/
def pcdCap2 : List UInt8 := [0x02, 0x00, 0x00, 0x00, 0x00, 0x00]

/-- `AUTH_MODE_LRP`. -/
def authModeLrp : UInt8 := 0x01

/-- The tag's random in the answer to part 1: `AuthMode || RndB`. -/
def expectRndB (data : List UInt8) : Cmd E σ (Bytes 16) := do
  Script.require (data.length = 17) (.unexpectedLength data.length 17)
  Script.require (data.head? = some authModeLrp) .authenticationMismatch
  return Bytes.fill 16 (data.drop 1)

/-- The body of part 2: `RndA || PCDResponse`, of which `build_part2_apdu` makes the APDU. -/
def part2Body (suite : LrpSuite) (rndA rndB : Bytes 16) : List UInt8 :=
  rndA.toList ++ (suite.macFull P (rndA.toList ++ rndB.toList)).toList

/-- `authenticate_ev2_non_first`. -/
def authenticateEv2NonFirst (keyNo : KeyNumber) (key : Key) (rndA : Bytes 16) :
    Cmd E σ LrpSuite := do
  let r1 ← transmitExpecting .additionalFrame (nativeApdu 0x77 0x00 0x00 [keyNo.asByte])
  let rndB ← expectRndB r1.data
  let suite := derive P key rndA rndB
  let r2 ← transmitExpecting .operationOk
    (nativeApdu 0xAF 0x00 0x00 (suite.part2Body P rndA rndB))
  let piccResponse ← expectBytes 16 r2.data
  Script.require (suite.macFull P (rndB.toList ++ rndA.toList) = piccResponse)
    .authenticationMismatch
  return suite

/-- `verify_and_extract_auth_result`: `PICCData` is `TI || PDCap2 || PCDCap2`. A block is
always decrypted. -/
def verifyAndExtractAuthResult (suite : LrpSuite) (rndA rndB piccData piccResponse : Bytes 16) :
    Cmd E σ (AuthResult LrpSuite) := do
  Script.require
    (suite.macFull P (rndB.toList ++ rndA.toList ++ piccData.toList) = piccResponse)
    .authenticationMismatch
  let (plain, suite) := (SessionSuite.decrypt P suite .response (Bytes.zeros 4) 0
    piccData.toList).getD (piccData.toList, suite)
  Script.require (slice plain 10 6 = pcdCap2) .authenticationMismatch
  return {
    suite
    ti := Bytes.fill 4 (slice plain 0 4)
    pdCap2 := Bytes.fill 6 (slice plain 4 6)
    pcdCap2 := Bytes.fill 6 (slice plain 10 6) }

/-- `authenticate_ev2_first`. -/
def authenticateEv2First (keyNo : KeyNumber) (key : Key) (rndA : Bytes 16) :
    Cmd E σ (AuthResult LrpSuite) := do
  let r1 ← transmitExpecting .additionalFrame
    (nativeApdu 0x71 0x00 0x00 (keyNo.asByte :: 0x06 :: pcdCap2))
  let rndB ← expectRndB r1.data
  let suite := derive P key rndA rndB
  let r2 ← transmitExpecting .operationOk
    (nativeApdu 0xAF 0x00 0x00 (suite.part2Body P rndA rndB))
  let data2 ← expectBytes 32 r2.data
  verifyAndExtractAuthResult P suite rndA rndB (Bytes.fill 16 (data2.toList.take 16))
    (Bytes.fill 16 (data2.toList.drop 16))

end LrpSuite

/-- A suite with its re-authentication handshake. -/
class HandshakeSuite (P : Primitives) (S : Type) extends KeyedSuite P S where
  authenticateEv2NonFirst : {E σ : Type} → KeyNumber → Key → Bytes 16 → Cmd E σ S

instance : HandshakeSuite P AesSuite where
  authenticateEv2NonFirst := AesSuite.authenticateEv2NonFirst P

instance : HandshakeSuite P LrpSuite where
  authenticateEv2NonFirst := LrpSuite.authenticateEv2NonFirst P

end Ntag424
