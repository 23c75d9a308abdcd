import Mathlib.Tactic.Common
import Ntag424.Lib.Asks
import Ntag424.Session.FactoryState

/-!
# Which Commands Read a File in the Clear

`ISOReadBinary` is sent by `read_file_unauthenticated` and by nothing else. The answers to one
such command in a transcript (`answersTo`) are therefore left alone by everything else that
`check_factory_state` does.

## Main results

* `asks_checkAuthenticated`: the second part of the check sends no `ISOReadBinary`.
* `wp_sameReads_of_asks`: a command without an `ISOReadBinary` adds no answer to one.
-/

namespace Ntag424

open SecureChannel

variable {E S σ β : Type} (P : Primitives)

/-- An APDU that is not an `ISOReadBinary`. -/
def NoFileRead (apdu : List UInt8) : Prop := apdu.take 2 ≠ [0x00, 0xB0]

/-- A native command has another class byte than an ISO command. -/
theorem noFileRead_native (ins p1 p2 : UInt8) (body : List UInt8) :
    NoFileRead (nativeApdu ins p1 p2 body) := by
  rintro h
  cases List.head_eq_of_cons_eq h

/-- The first frame of the version is a native command without a body. -/
theorem noFileRead_getVersion : NoFileRead [0x90, 0x60, 0x00, 0x00, 0x00] := by
  rintro h
  cases List.head_eq_of_cons_eq h

/-- The selection of a file has another instruction byte. -/
theorem noFileRead_selectEf (fileId : ℕ) : NoFileRead (isoSelectEfApdu fileId) := by
  rintro h
  cases List.head_eq_of_cons_eq (List.tail_eq_of_cons_eq h)

/-- An APDU of a session: a native command with a body, or the selection of the application. -/
def SessionApdu (apdu : List UInt8) : Prop :=
  (∃ ins p1 p2 body, body ≠ [] ∧ apdu = nativeApdu ins p1 p2 body) ∨
    apdu = isoSelectDfByNameApdu ndefApplicationDfName

/-- A native command with a body is an APDU of a session. -/
theorem sessionApdu_native {ins p1 p2 : UInt8} {body : List UInt8} (h : body ≠ []) :
    SessionApdu (nativeApdu ins p1 p2 body) := .inl ⟨ins, p1, p2, body, h, rfl⟩

/-- The kind `p` takes in every command of the instruction. -/
def Covers (p : List UInt8 → Prop) (ins : UInt8) : Prop :=
  ∀ p1 p2 body, body ≠ [] → p (nativeApdu ins p1 p2 body)

/-- The APDUs of a session take in every instruction. -/
theorem covers_sessionApdu (ins : UInt8) : Covers SessionApdu ins :=
  fun _ _ _ h => sessionApdu_native h

/-- An APDU of a session reads no file in the clear: it is native, or it selects the
application. -/
theorem SessionApdu.noFileRead {apdu : List UInt8} (h : SessionApdu apdu) : NoFileRead apdu := by
  rcases h with ⟨ins, p1, p2, body, -, rfl⟩ | rfl
  · exact noFileRead_native ins p1 p2 body
  · rintro h
    cases List.head_eq_of_cons_eq (List.tail_eq_of_cons_eq h)

/-! ### Answers in a transcript -/

/-- The answers to an APDU, in their order. -/
def answersTo (apdu : List UInt8) (w : Transcript E) : List (Except E Response) :=
  (w.filter fun entry => entry.1 = apdu).map Prod.snd

/-- The `ISOReadBinary` of a whole file that is selected. -/
def readApdu (file : File) : List UInt8 := isoReadBinaryApdu 0 0 file.size

/-- The answer to the APDU itself is the last of its answers. -/
theorem answersTo_concat_self (apdu : List UInt8) (w : Transcript E) (answer : Except E Response) :
    answersTo apdu (w ++ [(apdu, answer)]) = answersTo apdu w ++ [answer] := by
  simp [answersTo]

/-- The answer to another APDU is not among them. -/
theorem answersTo_concat_of_ne {apdu apdu' : List UInt8} (h : apdu' ≠ apdu) (w : Transcript E)
    (answer : Except E Response) : answersTo apdu (w ++ [(apdu', answer)]) = answersTo apdu w := by
  simp [answersTo, h]

/-- An APDU that reads no file is not the read of a file. -/
theorem NoFileRead.ne_readApdu {apdu : List UInt8} (h : NoFileRead apdu) (file : File) :
    apdu ≠ readApdu file := by
  rintro rfl
  exact h rfl

/-! ### Exchanges -/

section Exchanges

variable {apdu : List UInt8} {p : List UInt8 → Prop}

/-- One exchange asks its APDU and nothing else. -/
theorem asks_transmit (h : p apdu) : (transmit apdu : Cmd E σ Response).Asks p := by
  refine (Script.asks_request h).bind ?_
  rintro (e | resp)
  · exact Script.asks_fail _
  · exact Script.asks_pure resp

/-- An exchange whose status is checked asks its APDU and nothing else. -/
theorem asks_transmitExpecting (status : ResponseStatus) (h : p apdu) :
    (transmitExpecting status apdu : Cmd E σ Response).Asks p := by
  refine (asks_transmit h).bind fun resp => ?_
  exact (Script.asks_require _ _).bind fun _ => Script.asks_pure resp

/-- Checking the length of an answer asks nothing. -/
theorem asks_expectBytes (n : ℕ) (data : List UInt8) :
    (expectBytes n data : Cmd E σ (Bytes n)).Asks p := by
  rw [expectBytes]
  cases Bytes.ofList? n data with
  | some bytes => exact Script.asks_pure bytes
  | none => exact Script.asks_fail _

end Exchanges

/-! ### Secure messaging -/

section Channel

variable [SessionSuite P S] {p : List UInt8 → Prop}

/-- Reading the state of a session asks nothing. -/
theorem asks_state : (state : Cmd E (Authenticated S) (Authenticated S)).Asks p :=
  Script.asks_get

/-- Noting a use of the counter asks nothing. -/
theorem asks_note (u : CounterUse) : (note u : Cmd E (Authenticated S) Unit).Asks p :=
  asks_state.bind fun _ => Script.asks_set _

/-- Computing a command MAC asks nothing. -/
theorem asks_computeCmdMac (cmd : UInt8) (header data : List UInt8) :
    (computeCmdMac P cmd header data : Cmd E (Authenticated S) (Bytes 8)).Asks p := by
  refine asks_state.bind fun s => ?_
  refine (Script.asks_assert _).bind fun _ => ?_
  exact (asks_note _).bind fun _ => Script.asks_pure _

/-- Decrypting an answer asks nothing. -/
theorem asks_decryptResponse (buf : List UInt8) :
    (decryptResponse P buf : Cmd E (Authenticated S) (List UInt8)).Asks p := by
  refine asks_state.bind fun s => ?_
  cases SessionSuite.decrypt P s.suite .response s.ti s.cmdCounter buf with
  | none => exact Script.asks_fail _
  | some r =>
      refine (Script.asks_set _).bind fun _ => ?_
      exact (asks_note _).bind fun _ => Script.asks_pure r.1

/-- Checking a response MAC asks nothing. -/
theorem asks_verifyResponseMacAndAdvance (rc : UInt8) (body : List UInt8) :
    (verifyResponseMacAndAdvance P rc body : Cmd E (Authenticated S) (List UInt8)).Asks p := by
  refine (Script.asks_require _ _).bind fun _ => ?_
  refine asks_state.bind fun s => ?_
  refine (Script.asks_assert _).bind fun _ => ?_
  refine (Script.asks_require _ _).bind fun _ => ?_
  refine (asks_note _).bind fun _ => ?_
  exact (asks_state.bind fun _ => Script.asks_set _).bind fun _ => Script.asks_pure _

/-- Checking and decrypting an answer of a fixed length asks nothing. -/
theorem asks_decryptFullFixed (ct n : ℕ) (rc : UInt8) (body : List UInt8) :
    (decryptFullFixed P ct n rc body : Cmd E (Authenticated S) (Bytes n)).Asks p := by
  refine (asks_verifyResponseMacAndAdvance P rc body).bind fun ciphertext => ?_
  refine (Script.asks_require _ _).bind fun _ => ?_
  refine (asks_decryptResponse P ciphertext).bind fun buf => ?_
  exact (Script.asks_require _ _).bind fun _ => Script.asks_pure _

/-- A command under a MAC asks one APDU, whose MAC depends on the session. The kind has to take
it in whatever the MAC is. -/
theorem asks_transmitMac {ins p1 p2 : UInt8} {header data : List UInt8}
    (h : ∀ mac : Bytes 8, p (nativeApdu ins p1 p2 (header ++ data ++ mac.toList))) :
    (transmitMac P ins p1 p2 header data : Cmd E (Authenticated S) Response).Asks p :=
  (asks_computeCmdMac P ins header data).bind fun mac => asks_transmitExpecting _ (h mac)

/-- A command with a MAC has a body. -/
theorem Covers.mac {ins : UInt8} (h : Covers p ins) (p1 p2 : UInt8) (header data : List UInt8)
    (mac : Bytes 8) : p (nativeApdu ins p1 p2 (header ++ data ++ mac.toList)) :=
  h p1 p2 _ (List.append_ne_nil_of_right_ne_nil _ (Bytes.toList_ne_nil mac))

/-- A command under a MAC asks one native APDU of its instruction. -/
theorem asks_sendMac {cmd : UInt8} (h : Covers p cmd) (p1 p2 : UInt8) (header data : List UInt8) :
    (sendMac P cmd p1 p2 header data : Cmd E (Authenticated S) (List UInt8)).Asks p := by
  refine (Script.asks_require _ _).bind fun _ => ?_
  refine (asks_transmitMac P (h.mac _ _ _ _)).bind fun resp => ?_
  refine (asks_verifyResponseMacAndAdvance P resp.sw2 resp.data).bind fun plain => ?_
  exact (Script.asks_require _ _).bind fun _ => Script.asks_pure plain

/-! ### Commands -/

/-- A command with an encrypted answer asks one native APDU of its instruction. -/
theorem asks_readFullFixed {ins : UInt8} (h : Covers p ins) (header : List UInt8) (ct n : ℕ) :
    (readFullFixed P ins header ct n : Cmd E (Authenticated S) (Bytes n)).Asks p :=
  (asks_transmitMac P (h.mac _ _ header _)).bind fun resp =>
    asks_decryptFullFixed P ct n resp.sw2 resp.data

/-- `GetTTStatus` asks commands of instruction `F7`. -/
theorem asks_getTtStatus (h : Covers p 0xF7) :
    (getTtStatus P : Cmd E (Authenticated S) TagTamperStatusReadout).Asks p :=
  (asks_readFullFixed P h _ _ _).bind fun _ => Script.asks_pure _

/-- `Read_Sig` asks commands of instruction `3C`. -/
theorem asks_readSigMac (h : Covers p 0x3C) :
    (readSigMac P : Cmd E (Authenticated S) (Bytes signatureLen)).Asks p := by
  refine (asks_computeCmdMac P _ _ _).bind fun mac => ?_
  refine (asks_transmit (h _ _ _ (by simp))).bind fun resp => ?_
  refine (Script.asks_require _ _).bind fun _ => ?_
  exact asks_decryptFullFixed P _ _ resp.sw2 resp.data

/-- Decoding file settings asks nothing. -/
theorem asks_liftSettings (r : Except FileSettingsError β) :
    (liftSettings r : Cmd E σ β).Asks p := by
  cases r with
  | ok b => exact Script.asks_pure b
  | error e => exact Script.asks_fail _

/-- `GetFileSettings` asks commands of instruction `F5`. -/
theorem asks_getFileSettingsMac (h : Covers p 0xF5) (fileNo : UInt8) :
    (getFileSettingsMac P fileNo : Cmd E (Authenticated S) FileSettingsView).Asks p :=
  (asks_sendMac P h _ _ _ _).bind fun _ => asks_liftSettings _

/-- Building the header of a read asks nothing. -/
theorem asks_buildReadHeader (fileNo : UInt8) (offset length : UInt32) :
    (buildReadHeader P fileNo offset length : Cmd E σ (List UInt8)).Asks p :=
  (Script.asks_assert _).bind fun _ => Script.asks_pure _

/-- One chunk of an encrypted read asks one command of instruction `AD`. -/
theorem asks_readDataFullOneApdu (h : Covers p 0xAD) (fileNo : UInt8) (offset length : UInt32)
    (buf : List UInt8) :
    (readDataFullOneApdu P fileNo offset length buf :
      Cmd E (Authenticated S) (ℕ × List UInt8)).Asks p := by
  refine (asks_buildReadHeader P fileNo offset length).bind fun header => ?_
  refine (asks_transmitMac P (h.mac _ _ header _)).bind fun resp => ?_
  refine (asks_verifyResponseMacAndAdvance P resp.sw2 resp.data).bind fun ciphertext => ?_
  refine (Script.asks_require _ _).bind fun _ => ?_
  refine (Script.asks_assert _).bind fun _ => ?_
  refine (asks_decryptResponse P ciphertext).bind fun scratch => ?_
  cases stripM2Padding scratch with
  | none => exact Script.asks_fail _
  | some padStart =>
      refine (Script.asks_require _ _).bind fun _ => ?_
      exact (Script.asks_require _ _).bind fun _ => Script.asks_pure _

/-- The loop of an encrypted read asks what its chunks ask, by induction on what is left of the
buffer. -/
theorem asks_readDataFullLoop (h : Covers p 0xAD) (fileNo : UInt8) (target total : ℕ)
    (currentOffset : UInt32) (buf : List UInt8) :
    (readDataFullLoop P fileNo target total currentOffset buf :
      Cmd E (Authenticated S) (ℕ × List UInt8)).Asks p := by
  induction hleft : target - total using Nat.strong_induction_on
    generalizing total currentOffset buf with
  | _ left ih =>
      rw [readDataFullLoop]
      split
      · refine (Script.asks_assert _).bind fun _ => ?_
        refine (asks_readDataFullOneApdu P h _ _ _ _).bind ?_
        rintro ⟨n, part⟩
        dsimp only
        by_cases hn : n = 0
        · rw [if_pos hn]
          exact Script.asks_pure _
        · rw [if_neg hn]
          exact ih _ (by omega) _ _ _ rfl
      · exact Script.asks_pure _

/-- An encrypted read asks commands of instruction `AD`. -/
theorem asks_readDataFull (h : Covers p 0xAD) (fileNo : UInt8) (offset length : UInt32)
    (buf : List UInt8) :
    (readDataFull P fileNo offset length buf :
      Cmd E (Authenticated S) (ℕ × List UInt8)).Asks p := by
  refine Script.Asks.bind ?_ fun _ => asks_readDataFullLoop P h _ _ _ _ _
  refine ((Script.asks_require _ _).bind fun _ => Script.asks_require _ _).bind fun _ => ?_
  refine (Script.asks_require _ _).bind fun _ => ?_
  exact (Script.asks_require _ _).bind fun _ => Script.asks_require _ _

end Channel

/-! ### Handshakes -/

section Handshakes

variable {p : List UInt8 → Prop}

/-- An AES re-authentication asks the command `77` and one more frame. -/
theorem asks_aesNonFirst (h : Covers p 0x77) (hnext : Covers p 0xAF) (keyNo : KeyNumber)
    (key : Key) (rndA : Bytes 16) :
    (AesSuite.authenticateEv2NonFirst P keyNo key rndA : Cmd E σ AesSuite).Asks p := by
  refine (asks_transmitExpecting _ (h _ _ _ (by simp))).bind fun r1 => ?_
  refine (asks_expectBytes 16 r1.data).bind fun rndBEnc => ?_
  refine (asks_transmitExpecting _ (hnext _ _ _ (Bytes.toList_ne_nil _))).bind fun r2 => ?_
  refine (asks_expectBytes 16 r2.data).bind fun enc => ?_
  exact (Script.asks_require _ _).bind fun _ => Script.asks_pure _

/-- A first AES authentication asks the command `71` and one more frame. -/
theorem asks_aesFirst (h : Covers p 0x71) (hnext : Covers p 0xAF) (keyNo : KeyNumber) (key : Key)
    (rndA : Bytes 16) :
    (AesSuite.authenticateEv2First P keyNo key rndA : Cmd E σ (AuthResult AesSuite)).Asks p := by
  refine (asks_transmitExpecting _ (h _ _ _ (by simp))).bind fun r1 => ?_
  refine (asks_expectBytes 16 r1.data).bind fun rndBEnc => ?_
  refine (asks_transmitExpecting _ (hnext _ _ _ (Bytes.toList_ne_nil _))).bind fun r2 => ?_
  refine (asks_expectBytes 32 r2.data).bind fun enc => ?_
  exact (Script.asks_require _ _).bind fun _ => Script.asks_pure _

/-- Checking the challenge of LRP mode asks nothing. -/
theorem asks_expectRndB (data : List UInt8) :
    (LrpSuite.expectRndB data : Cmd E σ (Bytes 16)).Asks p := by
  refine (Script.asks_require _ _).bind fun _ => ?_
  exact (Script.asks_require _ _).bind fun _ => Script.asks_pure _

/-- The proof of an LRP host has a body. -/
theorem LrpSuite.part2Body_ne_nil (suite : LrpSuite) (rndA rndB : Bytes 16) :
    suite.part2Body P rndA rndB ≠ [] :=
  List.append_ne_nil_of_left_ne_nil (Bytes.toList_ne_nil rndA) _

/-- An LRP re-authentication asks the command `77` and one more frame. -/
theorem asks_lrpNonFirst (h : Covers p 0x77) (hnext : Covers p 0xAF) (keyNo : KeyNumber)
    (key : Key) (rndA : Bytes 16) :
    (LrpSuite.authenticateEv2NonFirst P keyNo key rndA : Cmd E σ LrpSuite).Asks p := by
  refine (asks_transmitExpecting _ (h _ _ _ (by simp))).bind fun r1 => ?_
  refine (asks_expectRndB r1.data).bind fun rndB => ?_
  refine (asks_transmitExpecting _ (hnext _ _ _ (LrpSuite.part2Body_ne_nil P _ _ _))).bind
    fun r2 => ?_
  refine (asks_expectBytes 16 r2.data).bind fun piccResponse => ?_
  exact (Script.asks_require _ _).bind fun _ => Script.asks_pure _

/-- A first LRP authentication asks the command `71` and one more frame. -/
theorem asks_lrpFirst (h : Covers p 0x71) (hnext : Covers p 0xAF) (keyNo : KeyNumber) (key : Key)
    (rndA : Bytes 16) :
    (LrpSuite.authenticateEv2First P keyNo key rndA : Cmd E σ (AuthResult LrpSuite)).Asks p := by
  refine (asks_transmitExpecting _ (h _ _ _ (by simp))).bind fun r1 => ?_
  refine (asks_expectRndB r1.data).bind fun rndB => ?_
  refine (asks_transmitExpecting _ (hnext _ _ _ (LrpSuite.part2Body_ne_nil P _ _ _))).bind
    fun r2 => ?_
  refine (asks_expectBytes 32 r2.data).bind fun data2 => ?_
  refine (Script.asks_require _ _).bind fun _ => ?_
  exact (Script.asks_require _ _).bind fun _ => Script.asks_pure _

end Handshakes

/-! ### The plain commands of the check -/

/-- One frame of the version asks its APDU. -/
theorem asks_requestIntermediatePart {p : List UInt8 → Prop} {apdu : List UInt8} (h : p apdu) :
    (requestIntermediatePart apdu : Cmd E σ (Bytes 7)).Asks p :=
  (asks_transmitExpecting _ h).bind fun resp => asks_expectBytes 7 resp.data

/-- The version outside a session asks its first APDU and two more frames. -/
theorem asks_getVersionPlain {p : List UInt8 → Prop} (hfirst : p [0x90, 0x60, 0x00, 0x00, 0x00])
    (hcontinue : p continuationApdu) : (getVersionPlain : Cmd E σ Version).Asks p := by
  refine Script.Asks.bind ?_ fun r => ?_
  · refine (asks_requestIntermediatePart hfirst).bind fun part1 => ?_
    refine (asks_requestIntermediatePart hcontinue).bind fun part2 => ?_
    exact (asks_transmitExpecting _ hcontinue).bind fun r3 => Script.asks_pure _
  · refine Script.Asks.bind ?_ fun part3 => Script.asks_pure _
    exact (Script.asks_require _ _).bind fun _ => Script.asks_pure _

/-- Selecting the application asks one APDU, or none if it is selected. -/
theorem asks_selectNdefApplication {p : List UInt8 → Prop}
    (h : p (isoSelectDfByNameApdu ndefApplicationDfName)) :
    (Session.selectNdefApplication : Cmd E (Session Unauthenticated) Unit).Asks p := by
  refine Script.asks_get.bind fun session => ?_
  split
  · exact Script.asks_pure ()
  · refine Script.Asks.bind ?_ fun _ => Script.asks_set _
    exact (asks_transmit h).bind fun _ => Script.asks_require _ _

/-- Selecting a file asks selections, which read nothing. -/
theorem asks_selectFile (file : File) :
    (Session.selectFile file : Cmd E (Session Unauthenticated) Unit).Asks NoFileRead := by
  refine (asks_selectNdefApplication (SessionApdu.noFileRead (.inr rfl))).bind fun _ => ?_
  refine Script.asks_get.bind fun session => ?_
  split
  · exact Script.asks_pure ()
  · refine Script.Asks.bind ?_ fun _ => Script.asks_set _
    exact (asks_transmit (noFileRead_selectEf _)).bind fun _ => Script.asks_require _ _

/-! ### The sessions of the check -/

/-- A check of the factory state asks what its part asks. -/
theorem asks_orNotFactoryState {p : List UInt8 → Prop} {m : Cmd E σ β} (hm : m.Asks p)
    (what : String) : (orNotFactoryState what m).Asks p := by
  refine hm.attempt.bind ?_
  rintro (e | b)
  · exact Script.asks_fail _
  · exact Script.asks_pure b

/-- An operation on a session of either suite asks what it asks of both. -/
theorem asks_dispatchValue {p : List UInt8 → Prop}
    {f : (S : Type) → [HandshakeSuite P S] → Session (Authenticated S) →
      Task E (β × Session (Authenticated S))}
    (hf : ∀ (S : Type) [HandshakeSuite P S] (s : Session (Authenticated S)), (f S s).Asks p)
    (session : EncryptedSession) : (session.dispatchValue P f).Asks p := by
  cases session with
  | aes session => exact (hf AesSuite session).bind fun _ => Script.asks_pure _
  | lrp session => exact (hf LrpSuite session).bind fun _ => Script.asks_pure _

/-- A command that consumes the session asks what the command asks. -/
theorem asks_consume {p : List UInt8 → Prop} {cmd : Cmd E (Authenticated S) β} (h : cmd.Asks p)
    (session : Session (Authenticated S)) : (session.consume cmd).Asks p :=
  (h.on session.state).bind fun _ => Script.asks_pure _

/-- A re-authentication of either suite asks APDUs of a session. -/
theorem asks_authenticate (session : EncryptedSession) (keyNo : KeyNumber) (key : Key)
    (rndA : Bytes 16) : (session.authenticate (E := E) P keyNo key rndA).Asks SessionApdu := by
  have hfirst := covers_sessionApdu 0x77
  have hnext := covers_sessionApdu 0xAF
  cases session with
  | aes session =>
      refine Script.Asks.bind ?_ fun _ => Script.asks_pure _
      exact (asks_aesNonFirst P hfirst hnext keyNo key rndA).bind fun _ => Script.asks_pure _
  | lrp session =>
      refine Script.Asks.bind ?_ fun _ => Script.asks_pure _
      exact (asks_lrpNonFirst P hfirst hnext keyNo key rndA).bind fun _ => Script.asks_pure _

/-- The master session of the check selects the application and authenticates, in LRP mode if
AES mode fails. -/
theorem asks_authenticateMaster (rnd : ℕ → Bytes 16) :
    (authenticateMaster (E := E) P rnd).Asks SessionApdu := by
  have hfirst := covers_sessionApdu 0x71
  have hnext := covers_sessionApdu 0xAF
  refine Script.Asks.bind (Script.Asks.attempt ?_) ?_
  · refine ((asks_selectNdefApplication (.inr rfl)).on _).bind fun _ => ?_
    exact (asks_aesFirst P hfirst hnext _ _ _).bind fun _ => Script.asks_pure _
  · rintro (e | s)
    · refine (asks_orNotFactoryState ?_ _).bind fun _ => Script.asks_pure _
      refine ((asks_selectNdefApplication (.inr rfl)).on _).bind fun _ => ?_
      exact (asks_lrpFirst P hfirst hnext _ _ _).bind fun _ => Script.asks_pure _
    · exact Script.asks_pure _

/-- The check of the settings asks APDUs of a session, by induction on the files. -/
theorem asks_checkSettings (files : List File) (session : EncryptedSession) :
    (checkSettings (E := E) P files session).Asks SessionApdu := by
  induction files generalizing session with
  | nil => exact Script.asks_pure session
  | cons file files ih =>
      refine (asks_orNotFactoryState ?_ _).bind fun r => ?_
      · exact asks_dispatchValue P
          (fun S _ s => asks_consume (asks_getFileSettingsMac P (covers_sessionApdu _) _) s) session
      · exact (Script.asks_require _ _).bind fun _ => ih r.2

/-- The check of the keys asks APDUs of a session, by induction on the keys. -/
theorem asks_checkKeys (rnd : ℕ → Bytes 16) (keys : List KeyNumber) (n : ℕ)
    (session : EncryptedSession) : (checkKeys (E := E) P rnd keys n session).Asks SessionApdu := by
  induction keys generalizing n session with
  | nil => exact Script.asks_pure ()
  | cons keyNo keys ih =>
      refine (asks_orNotFactoryState (asks_authenticate P session _ _ _) _).bind fun s => ?_
      exact ih (n + 1) s

/-- The tamper status asks an APDU of a session, or none if the tag has no such status. -/
theorem asks_readTagTamper (version : Version) (session : EncryptedSession) :
    (readTagTamper (E := E) P version session).Asks SessionApdu := by
  rw [readTagTamper]
  split
  · refine (asks_orNotFactoryState ?_ _).bind fun _ => Script.asks_pure _
    exact asks_dispatchValue P
      (fun S _ s => asks_consume (asks_getTtStatus P (covers_sessionApdu _)) s) session
  · exact Script.asks_pure _

/-- **The second part of the check** sends no `ISOReadBinary`. -/
theorem asks_checkAuthenticated
    (verify : Bytes signatureLen → Bytes 7 → Except OriginalityError Unit)
    (rnd : ℕ → Bytes 16) (version : Version) (buf : List UInt8) :
    (checkAuthenticated (E := E) P verify rnd version buf).Asks SessionApdu := by
  refine (asks_authenticateMaster P rnd).bind fun first => ?_
  refine (asks_checkSettings P _ first.1).bind fun master => ?_
  refine (asks_readTagTamper P version master).bind fun tamper => ?_
  refine (asks_orNotFactoryState ?_ _).bind fun uid => ?_
  · exact asks_dispatchValue P
      (fun S _ s => asks_consume (asks_readFullFixed P (covers_sessionApdu _) _ _ _) s) tamper.2
  · refine (asks_orNotFactoryState ?_ _).bind fun signature => ?_
    · refine asks_dispatchValue P (fun S _ s => ?_) uid.2
      refine Script.Asks.bind ?_ fun _ => Script.asks_pure _
      refine (asks_consume (asks_readSigMac P (covers_sessionApdu _)) s).bind fun r => ?_
      dsimp only
      cases verify r.1 uid.1 with
      | ok _ => exact Script.asks_pure _
      | error e => exact Script.asks_fail _
    · refine (asks_orNotFactoryState (asks_authenticate P signature.2 _ _ _) _).bind fun key2 => ?_
      refine (asks_orNotFactoryState ?_ _).bind fun prop => ?_
      · exact asks_dispatchValue P
          (fun S _ s => asks_consume (asks_readDataFull P (covers_sessionApdu _) _ _ _ _) s) key2
      · refine (Script.asks_require _ _).bind fun _ => ?_
        exact (asks_checkKeys P rnd _ _ prop.2).bind fun _ => Script.asks_pure _

/-- Two transcripts have the same answers to the read of every file. -/
def SameReads (w w' : Transcript E) : Prop :=
  ∀ file, answersTo (readApdu file) w' = answersTo (readApdu file) w

/-- **A command without an `ISOReadBinary`** adds no answer to the read of a file. -/
theorem wp_sameReads_of_asks {cmd : Cmd E σ β} (h : cmd.Asks NoFileRead) {t : σ}
    {w : Transcript E} :
    cmd.wp (Records anyAnswer) (fun _ => True) (fun _ _ w' => SameReads w w')
      (fun _ _ w' => SameReads w w') t w := by
  refine h.wp (fun apdu w₁ answer w₂ happdu hw hrecords file => ?_) fun _ => rfl
  obtain ⟨-, rfl⟩ := hrecords
  rw [answersTo_concat_of_ne (happdu.ne_readApdu file), hw file]

end Ntag424
