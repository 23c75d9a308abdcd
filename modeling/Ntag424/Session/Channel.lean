import Mathlib.Tactic.Common
import Ntag424.Lib.Script
import Ntag424.Session.Suite

/-!
# The Secure Channel

Commands as fallible programs that exchange APDUs with a transport, the state of an
authenticated session (`session/authenticated.rs`) and the secure-messaging primitives that
every command is built from (`commands/secure_channel.rs`).

## Modelling

* A program asks its transport to transmit one APDU and is answered with a response or with
  a transport error of an arbitrary type `E`. Responses of any length are possible.
* The source writes into fixed-size buffers. A write past the end of one is a panic here, by
  an `assert` at the place of the slice.
* `Authenticated.history` is a history variable: it records where the command counter was
  used. Nothing reads it.

## Main results

* `desfireStatus_eq_ok_iff`: success is the status word `91 00` and no other.
* `stripM2Padding_m2Pad`, `length_m2Pad_mod`: padding fills whole blocks and is stripped again.
-/

namespace Ntag424

open Numerals

/-! ### Responses -/

/-- A response to an APDU: the body without the status word, and the status word. -/
structure Response where
  data : List UInt8
  sw1 : UInt8
  sw2 : UInt8
deriving DecidableEq, Repr

/-- `ResponseStatus`. -/
inductive ResponseStatus where
  | operationOk
  | illegalCommandCode
  | integrityError
  | noSuchKey
  | lengthError
  | permissionDenied
  | parameterError
  | authenticationDelay
  | authenticationError
  | additionalFrame
  | boundaryError
  | commandAborted
  | memoryError
  | fileNotFound
  | wrongLength
  | securityStatusNotSatisfied
  | conditionsOfUseNotSatisfied
  | incorrectParametersInTheCommandDataField
  | fileOrApplicationNotFound
  | incorrectParametersP1P2
  | lcInconsistentWithParametersP1P2
  | wrongLeField
  | wrongLeFieldExpected (le : UInt8)
  | instructionCodeNotSupportedOrInvalid
  | classNotSupported
  | normalProcessing
  | unknown (code : ℕ)
deriving DecidableEq, Repr

/-- `ResponseCode::code`. -/
def statusCode (sw1 sw2 : UInt8) : ℕ := 256 * sw1.toNat + sw2.toNat

/-- `ResponseCode::status` of a DESFire-native status word. -/
def desfireStatus (sw1 sw2 : UInt8) : ResponseStatus :=
  match statusCode sw1 sw2 with
  | 0x9100 => .operationOk
  | 0x911C => .illegalCommandCode
  | 0x911E => .integrityError
  | 0x9140 => .noSuchKey
  | 0x917E => .lengthError
  | 0x919D => .permissionDenied
  | 0x919E => .parameterError
  | 0x91AD => .authenticationDelay
  | 0x91AE => .authenticationError
  | 0x91AF => .additionalFrame
  | 0x91BE => .boundaryError
  | 0x91CA => .commandAborted
  | 0x91EE => .memoryError
  | 0x91F0 => .fileNotFound
  | code => .unknown code

/-- `ResponseCode::status` of an ISO 7816 status word. -/
def isoStatus (sw1 sw2 : UInt8) : ResponseStatus :=
  match statusCode sw1 sw2 with
  | 0x6700 => .wrongLength
  | 0x6982 => .securityStatusNotSatisfied
  | 0x6985 => .conditionsOfUseNotSatisfied
  | 0x6A80 => .incorrectParametersInTheCommandDataField
  | 0x6A82 => .fileOrApplicationNotFound
  | 0x6A86 => .incorrectParametersP1P2
  | 0x6A87 => .lcInconsistentWithParametersP1P2
  | 0x6C00 => .wrongLeField
  | 0x6D00 => .instructionCodeNotSupportedOrInvalid
  | 0x6E00 => .classNotSupported
  | 0x9000 => .normalProcessing
  | code => if sw1 = 0x6C then .wrongLeFieldExpected sw2 else .unknown code

/-- Success of a native command is the status word `91 00`. -/
theorem desfireStatus_eq_ok_iff {sw1 sw2 : UInt8} :
    desfireStatus sw1 sw2 = .operationOk ↔ sw1 = 0x91 ∧ sw2 = 0x00 := by
  constructor
  · intro h
    have hcode : statusCode sw1 sw2 = 0x9100 := by
      unfold desfireStatus at h
      split at h <;> first | assumption | cases h
    have h2 := sw2.toNat_lt
    unfold statusCode at hcode
    exact ⟨UInt8.toNat_inj.mp (show sw1.toNat = 0x91 by omega),
      UInt8.toNat_inj.mp (show sw2.toNat = 0 by omega)⟩
  · rintro ⟨rfl, rfl⟩
    rfl

/-! ### Errors -/

/-- `OriginalityError`. -/
inductive OriginalityError where
  | uidTooLong
  | malformed
  | verificationFailed
deriving DecidableEq, Repr

/-- `SessionError`, for a transport with errors `E`. -/
inductive SessionError (E : Type) where
  | transport (e : E)
  | errorResponse (status : ResponseStatus)
  | unexpectedLength (got expected : ℕ)
  | invalidCommandParameter (parameter : String) (value : ℕ) (reason : String)
  | apduBodyTooLarge (got max : ℕ)
  | fileSettings (e : FileSettingsError)
  | originalityVerificationFailed (e : OriginalityError)
  | authenticationMismatch
  | responseMacMismatch
  | notBlockAligned (len : ℕ)
  | notFactoryState (what : String)
deriving DecidableEq, Repr

/-! ### Exchanging APDUs -/

/-- The answer to transmitting an APDU. -/
abbrev Transmit (E : Type) (_apdu : List UInt8) : Type := Except E Response

/-- A program that transmits APDUs, on a local state `σ`. -/
abbrev Cmd (E σ β : Type) := Script (Transmit E) σ (SessionError E) β

variable {E σ : Type}

/-- `transport.transmit(apdu).await?`. -/
def transmit (apdu : List UInt8) : Cmd E σ Response := do
  match ← Script.request apdu with
  | .ok resp => pure resp
  | .error e => Script.fail (.transport e)

/-- Transmit an APDU and require a DESFire-native status. -/
def transmitExpecting (status : ResponseStatus) (apdu : List UInt8) : Cmd E σ Response := do
  let resp ← transmit apdu
  Script.require (desfireStatus resp.sw1 resp.sw2 = status)
    (.errorResponse (desfireStatus resp.sw1 resp.sw2))
  return resp

/-- A body of exactly `n` bytes, as an array. -/
def expectBytes (n : ℕ) (data : List UInt8) : Cmd E σ (Bytes n) :=
  match Bytes.ofList? n data with
  | some bytes => pure bytes
  | none => Script.fail (.unexpectedLength data.length n)

/-- A short native APDU with a body: `90 INS P1 P2 Lc body 00`. -/
def nativeApdu (ins p1 p2 : UInt8) (body : List UInt8) : List UInt8 :=
  0x90 :: ins :: p1 :: p2 :: UInt8.ofNat body.length :: body ++ [0x00]

/-! ### Session state -/

/-- `AuthResult`. -/
structure AuthResult (S : Type) where
  suite : S
  ti : Bytes 4
  pdCap2 : Bytes 6
  pcdCap2 : Bytes 6

/-- A use of the command counter. -/
inductive CounterUse where
  /-- In the MAC of a command. -/
  | commandMac (ctr : UInt16)
  /-- In the IV of an encrypted command. -/
  | commandIv (ctr : UInt16)
  /-- In the verified MAC of a response: the exchange is accepted. -/
  | responseMac (ctr : UInt16)
  /-- In the IV of an encrypted response. -/
  | responseIv (ctr : UInt16)
  /-- An exchange accepted without a response MAC. -/
  | unprotected
deriving DecidableEq, Repr

/-- `Authenticated<S>`, with a history of the counter's uses under its session keys. -/
structure Authenticated (S : Type) where
  authResult : AuthResult S
  keyNumber : KeyNumber
  cmdCounter : UInt16
  history : List CounterUse

namespace Authenticated

variable {S : Type}

/-- `with_auth_result`: the state after a first authentication. -/
def withAuthResult (authResult : AuthResult S) (keyNumber : KeyNumber) : Authenticated S :=
  ⟨authResult, keyNumber, 0, []⟩

/-- `non_first_with_auth_result`: the state after a re-authentication. -/
def nonFirstWithAuthResult (authResult : AuthResult S) (cmdCounter : UInt16)
    (keyNumber : KeyNumber) : Authenticated S :=
  ⟨authResult, keyNumber, cmdCounter, []⟩

/-- `Authenticated::suite`. -/
def suite (s : Authenticated S) : S := s.authResult.suite

/-- `Authenticated::ti_bytes`. -/
def ti (s : Authenticated S) : Bytes 4 := s.authResult.ti

/-- Replace the suite. -/
def withSuite (s : Authenticated S) (suite : S) : Authenticated S :=
  { s with authResult := { s.authResult with suite } }

/-- Record a use of the counter. -/
def note (s : Authenticated S) (u : CounterUse) : Authenticated S :=
  { s with history := s.history ++ [u] }

/-- `Authenticated::advance_counter`: wrapping. -/
def advanceCounter (s : Authenticated S) : Authenticated S :=
  { s with cmdCounter := s.cmdCounter + 1 }

end Authenticated

/-! ### Padding -/

/-- ISO/IEC 9797-1 Method 2 padding to whole blocks, as the senders write it: `0x80`, then
zeros. -/
def m2Pad (data : List UInt8) : List UInt8 :=
  data ++ 0x80 :: List.replicate (15 - data.length % 16) 0

/-- `strip_m2_padding`: the length of the message, if the padding is well formed. -/
def stripM2Padding (plain : List UInt8) : Option ℕ :=
  match plain.reverse.dropWhile (· == 0x00) with
  | b :: rest => if b = 0x80 then some rest.length else none
  | [] => none

theorem length_m2Pad (data : List UInt8) :
    (m2Pad data).length = 16 * (data.length / 16 + 1) := by
  simp only [m2Pad, List.length_append, List.length_cons, List.length_replicate]
  omega

/-- Padding fills whole blocks. -/
@[simp] theorem length_m2Pad_mod (data : List UInt8) : (m2Pad data).length % 16 = 0 := by
  rw [length_m2Pad, Nat.mul_mod_right]

theorem m2Pad_ne_nil (data : List UInt8) : m2Pad data ≠ [] := by
  simp [m2Pad]

/-- The end of a buffer with a last byte that is not zero, read from behind. -/
theorem reverse_marked (front : List UInt8) (b : UInt8) (k : ℕ) :
    (front ++ b :: List.replicate k 0).reverse = List.replicate k 0 ++ b :: front.reverse := by
  simp only [List.reverse_append, List.reverse_cons, List.reverse_replicate, List.append_assoc,
    List.singleton_append]

theorem dropWhile_marked (front : List UInt8) {b : UInt8} (k : ℕ) (hb : b ≠ 0x00) :
    (front ++ b :: List.replicate k 0).reverse.dropWhile (· == 0x00) = b :: front.reverse := by
  rw [reverse_marked]
  induction k with
  | zero => simp [hb]
  | succ k ih => simpa [List.replicate_succ] using ih

/-- A message ends in front of the last byte that is not zero, if that is the marker. -/
theorem stripM2Padding_marked (front : List UInt8) {b : UInt8} (k : ℕ) (hb : b ≠ 0x00) :
    stripM2Padding (front ++ b :: List.replicate k 0) =
      if b = 0x80 then some front.length else none := by
  simp only [stripM2Padding, dropWhile_marked front k hb, List.length_reverse]

/-- Stripping the padding finds the end of the message. -/
@[simp] theorem stripM2Padding_m2Pad (data : List UInt8) :
    stripM2Padding (m2Pad data) = some data.length := by
  rw [m2Pad, stripM2Padding_marked data _ (by decide), if_pos rfl]

@[simp] theorem take_m2Pad (data : List UInt8) : (m2Pad data).take data.length = data := by
  simp [m2Pad]

/-! ### Secure messaging primitives -/

/-- `MAC_LEN`. -/
def macLen : ℕ := 8

/-- `MAX_APDU_BODY`. -/
def maxApduBody : ℕ := 255

/-- `MAC_INPUT_CAP`. -/
def macInputCap : ℕ := 1 + 2 + 4 + maxApduBody

/-- `MAX_RESPONSE_DATA`. -/
def maxResponseData : ℕ := maxApduBody - macLen

/-- What `fill_mac_input` writes. -/
def macInput (pre : UInt8) (ctr : UInt16) (ti : Bytes 4) (part1 part2 : List UInt8) :
    List UInt8 :=
  pre :: leBytes 2 ctr.toNat ++ ti.toList ++ part1 ++ part2

namespace SecureChannel

variable {S : Type} (P : Primitives) [SessionSuite P S]

/-- The state behind the channel. -/
def state : Cmd E (Authenticated S) (Authenticated S) := Script.get

/-- Record a use of the counter. -/
def note (u : CounterUse) : Cmd E (Authenticated S) Unit := do
  Script.set ((← state).note u)

/-- Advance `CmdCtr`. -/
def advance : Cmd E (Authenticated S) Unit := do
  Script.set (← state).advanceCounter

/-- `SecureChannel::advance_counter`: an exchange without a response MAC is accepted. -/
def advanceCounter : Cmd E (Authenticated S) Unit := do
  note .unprotected
  advance

/-- `SecureChannel::compute_cmd_mac`. -/
def computeCmdMac (cmd : UInt8) (header data : List UInt8) :
    Cmd E (Authenticated S) (Bytes 8) := do
  let s ← state
  let input := macInput cmd s.cmdCounter s.ti header data
  Script.assert (input.length ≤ macInputCap)
  note (.commandMac s.cmdCounter)
  return SessionSuite.mac P s.suite input

/-- `SecureChannel::encrypt_command`. -/
def encryptCommand (buf : List UInt8) : Cmd E (Authenticated S) (List UInt8) := do
  let s ← state
  match SessionSuite.encrypt P s.suite .command s.ti s.cmdCounter buf with
  | none => Script.fail (.notBlockAligned buf.length)
  | some (ct, suite) =>
      Script.set (s.withSuite suite)
      note (.commandIv s.cmdCounter)
      return ct

/-- `SecureChannel::decrypt_response`. -/
def decryptResponse (buf : List UInt8) : Cmd E (Authenticated S) (List UInt8) := do
  let s ← state
  match SessionSuite.decrypt P s.suite .response s.ti s.cmdCounter buf with
  | none => Script.fail (.notBlockAligned buf.length)
  | some (pt, suite) =>
      Script.set (s.withSuite suite)
      note (.responseIv s.cmdCounter)
      return pt

/-- `SecureChannel::verify_response_mac_and_advance`. -/
def verifyResponseMacAndAdvance (rc : UInt8) (body : List UInt8) :
    Cmd E (Authenticated S) (List UInt8) := do
  Script.require (macLen ≤ body.length) (.unexpectedLength body.length macLen)
  let data := body.take (body.length - macLen)
  let received := body.drop (body.length - macLen)
  let s ← state
  let input := macInput rc (s.cmdCounter + 1) s.ti data []
  Script.assert (input.length ≤ macInputCap)
  Script.require ((SessionSuite.mac P s.suite input).toList = received) .responseMacMismatch
  note (.responseMac (s.cmdCounter + 1))
  advance
  return data

/-- `SecureChannel::decrypt_full_fixed`: a response of `ct` ciphertext bytes that holds `p`
plaintext bytes. -/
def decryptFullFixed (ct p : ℕ) (rc : UInt8) (body : List UInt8) :
    Cmd E (Authenticated S) (Bytes p) := do
  let ciphertext ← verifyResponseMacAndAdvance P rc body
  Script.require (ciphertext.length = ct) (.unexpectedLength ciphertext.length ct)
  let buf ← decryptResponse P ciphertext
  Script.require (stripM2Padding buf = some p) .responseMacMismatch
  return Bytes.fill p buf

/-- Append the command MAC to the body and transmit it. -/
def transmitMac (ins p1 p2 : UInt8) (header data : List UInt8) :
    Cmd E (Authenticated S) Response := do
  let mac ← computeCmdMac P ins header data
  transmitExpecting .operationOk (nativeApdu ins p1 p2 (header ++ data ++ mac.toList))

/-- `SecureChannel::send_mac`. -/
def sendMac (cmd p1 p2 : UInt8) (header data : List UInt8) :
    Cmd E (Authenticated S) (List UInt8) := do
  let bodyLen := header.length + data.length + macLen
  Script.require (bodyLen ≤ maxApduBody) (.apduBodyTooLarge bodyLen maxApduBody)
  let resp ← transmitMac P cmd p1 p2 header data
  let plain ← verifyResponseMacAndAdvance P resp.sw2 resp.data
  Script.require (plain.length ≤ maxResponseData) (.unexpectedLength plain.length maxResponseData)
  return plain

end SecureChannel

end Ntag424
