import Mathlib.Tactic.Common
import Ntag424.Session.Authenticate
import Ntag424.Session.FileData

/-!
# Sessions

The public session types and their operations (`session/mod.rs`, `session/authenticated.rs`,
`session/unauthenticated.rs`). An operation of an authenticated session consumes the session
and hands it back with its result; an error loses it. Only the two plain-mode file operations
borrow the session, so it survives their errors.

An `EncryptedSession` is an authenticated session of either suite.

## Modelling

* A `Task` is a program without a local state: the session is passed in and returned by value.
* The ECDSA check of the originality signature is a third-party algorithm and a parameter.
-/

namespace Ntag424

open SecureChannel

/-- A program that transmits APDUs and has no local state. -/
abbrev Task (E β : Type) := Cmd E Unit β

/-- `Session<S>`. -/
structure Session (T : Type) where
  state : T
  ndefSelected : Bool
  efSelected : Option ℕ

/-- `Unauthenticated`. -/
structure Unauthenticated where
deriving DecidableEq, Repr

/-- `Session::new`. -/
def Session.new : Session Unauthenticated := ⟨{}, false, none⟩

/-- `Uid`: the UID of the selection, or a random one. -/
inductive Uid where
  | fixed (uid : Bytes 7)
  | random (uid : Bytes 4)
deriving DecidableEq

/-- `get_selected_uid`, from what the reader answers. Nothing is sent to the tag. -/
def Session.getSelectedUid {E : Type} (answer : Except E (List UInt8)) :
    Except (SessionError E) Uid :=
  match answer with
  | .error e => .error (.transport e)
  | .ok data =>
      match Bytes.ofList? 7 data with
      | some uid => .ok (.fixed uid)
      | none =>
          match Bytes.ofList? 4 data with
          | some uid => .ok (.random uid)
          | none => .error (.unexpectedLength data.length 7)

variable {E S β : Type} (P : Primitives)

/-! ### Unauthenticated sessions -/

/-- `NDEF_APPLICATION_DF_NAME`. -/
def ndefApplicationDfName : List UInt8 := [0xD2, 0x76, 0x00, 0x00, 0x85, 0x01, 0x01]

/-- The APDU of `iso_select_df_by_name`. -/
def isoSelectDfByNameApdu (dfName : List UInt8) : List UInt8 :=
  [0x00, 0xA4, 0x04, 0x00, UInt8.ofNat dfName.length] ++ dfName ++ [0x00]

/-- `select_ndef_application` of the command layer. -/
def isoSelectNdefApplication {σ : Type} : Cmd E σ Unit := do
  let resp ← transmit (isoSelectDfByNameApdu ndefApplicationDfName)
  Script.require (isoStatus resp.sw1 resp.sw2 = .normalProcessing)
    (.errorResponse (isoStatus resp.sw1 resp.sw2))

namespace Session

/-- `Session::select_ndef_application`: nothing is sent when the application is selected. -/
def selectNdefApplication : Cmd E (Session Unauthenticated) Unit := do
  let session ← Script.get
  if session.ndefSelected then return ()
  else
    isoSelectNdefApplication
    Script.set { session with ndefSelected := true, efSelected := none }

/-- `Session::authenticate_aes`. -/
def authenticateAes (session : Session Unauthenticated) (keyNo : KeyNumber) (key : Key)
    (rndA : Bytes 16) : Task E (Session (Authenticated AesSuite)) := do
  let (_, session) ← selectNdefApplication.on session
  let authResult ← AesSuite.authenticateEv2First P keyNo key rndA
  return ⟨.withAuthResult authResult keyNo, true, session.efSelected⟩

/-- `Session::authenticate_lrp`. -/
def authenticateLrp (session : Session Unauthenticated) (keyNo : KeyNumber) (key : Key)
    (rndA : Bytes 16) : Task E (Session (Authenticated LrpSuite)) := do
  let (_, session) ← selectNdefApplication.on session
  let authResult ← LrpSuite.authenticateEv2First P keyNo key rndA
  return ⟨.withAuthResult authResult keyNo, true, session.efSelected⟩

/-! ### Authenticated sessions -/

/-- Run a command on the state of a session that the operation consumes. -/
def consume (session : Session (Authenticated S)) (cmd : Cmd E (Authenticated S) β) :
    Task E (β × Session (Authenticated S)) := do
  let (b, state) ← cmd.on session.state
  return (b, { session with state })

/-- Consume a session for a command without a result. -/
def consumeUnit (session : Session (Authenticated S)) (cmd : Cmd E (Authenticated S) Unit) :
    Task E (Session (Authenticated S)) := do
  let (_, session) ← session.consume cmd
  return session

/-- Run a command on the state of a session that the operation borrows. -/
def borrow (cmd : Cmd E (Authenticated S) β) : Cmd E (Session (Authenticated S)) β :=
  cmd.zoom Session.state fun session state => { session with state }

/-- `read_file_plain`. -/
def readFilePlain (file : File) (offset length : UInt32) (buf : List UInt8) :
    Cmd E (Session (Authenticated S)) (ℕ × List UInt8) :=
  borrow (readFilePlainChunked file.fileNo offset length buf)

/-- `write_file_plain`. -/
def writeFilePlain (file : File) (offset : UInt32) (data : List UInt8) :
    Cmd E (Session (Authenticated S)) Unit :=
  borrow (writeFilePlainChunked file.fileNo offset data)

section Suite

variable [SessionSuite P S]

/-- `get_version`. -/
def getVersion (session : Session (Authenticated S)) :
    Task E (Version × Session (Authenticated S)) := session.consume (getVersionMac P)

/-- `change_key`. -/
def changeKey (session : Session (Authenticated S)) (keyNo : NonMasterKeyNumber) (newKey : Key)
    (newKeyVersion : UInt8) (oldKey : Key) : Task E (Session (Authenticated S)) :=
  session.consumeUnit (Ntag424.changeKey P keyNo newKey newKeyVersion oldKey)

/-- `change_master_key`: the session keys are no longer valid. -/
def changeMasterKey (session : Session (Authenticated S)) (newKey : Key)
    (newKeyVersion : UInt8) : Task E (Session Unauthenticated) := do
  let _ ← session.consumeUnit (Ntag424.changeMasterKey P newKey newKeyVersion)
  return .new

/-- `get_uid`. -/
def getUid (session : Session (Authenticated S)) : Task E (Bytes 7 × Session (Authenticated S)) :=
  session.consume (getCardUid P)

/-- `get_key_version`. -/
def getKeyVersion (session : Session (Authenticated S)) (keyNo : KeyNumber) :
    Task E (UInt8 × Session (Authenticated S)) :=
  session.consume (Ntag424.getKeyVersion P keyNo)

/-- `get_file_settings`. -/
def getFileSettings (session : Session (Authenticated S)) (file : File) :
    Task E (FileSettingsView × Session (Authenticated S)) :=
  session.consume (getFileSettingsMac P file.fileNo)

/-- `get_file_counters`. -/
def getFileCounters (session : Session (Authenticated S)) (file : File) :
    Task E (ℕ × Session (Authenticated S)) :=
  session.consume (Ntag424.getFileCounters P file.fileNo)

/-- `get_tt_status`. -/
def getTtStatus (session : Session (Authenticated S)) :
    Task E (TagTamperStatusReadout × Session (Authenticated S)) :=
  session.consume (Ntag424.getTtStatus P)

/-- `set_configuration`. -/
def setConfiguration (session : Session (Authenticated S)) (configuration : Configuration) :
    Task E (Session (Authenticated S)) :=
  session.consumeUnit (Ntag424.setConfiguration P configuration)

/-- `change_file_settings`. -/
def changeFileSettings (session : Session (Authenticated S)) (file : File)
    (settings : FileSettingsUpdate) : Task E (Session (Authenticated S)) :=
  session.consumeUnit (Ntag424.changeFileSettings P file.fileNo settings)

/-- `verify_originality`, for a check `verify` of a signature over a UID. -/
def verifyOriginality (verify : Bytes signatureLen → Bytes 7 → Except OriginalityError Unit)
    (session : Session (Authenticated S)) (uid : Bytes 7) :
    Task E (Session (Authenticated S) × Bytes signatureLen) := do
  let (sig, session) ← session.consume (readSigMac P)
  match verify sig uid with
  | .ok () => return (session, sig)
  | .error e => Script.fail (.originalityVerificationFailed e)

/-- The command behind `read_file_with_mode`. -/
def readCommand (file : File) (offset length : UInt32) (mode : CommMode) (buf : List UInt8) :
    Cmd E (Authenticated S) (ℕ × List UInt8) :=
  match mode with
  | .plain => readFilePlainChunked file.fileNo offset length buf
  | .mac => readDataMac P file.fileNo offset length buf
  | .full => readDataFull P file.fileNo offset length buf

/-- `read_file_with_mode`. -/
def readFileWithMode (session : Session (Authenticated S)) (file : File)
    (offset length : UInt32) (mode : CommMode) (buf : List UInt8) :
    Task E ((ℕ × List UInt8) × Session (Authenticated S)) :=
  session.consume (readCommand P file offset length mode buf)

/-- The command behind `write_file_with_mode`. -/
def writeCommand (file : File) (offset : UInt32) (data : List UInt8) (mode : CommMode) :
    Cmd E (Authenticated S) Unit :=
  match mode with
  | .plain => writeFilePlainChunked file.fileNo offset data
  | .mac => writeDataMac P file.fileNo offset data
  | .full => writeDataFull P file.fileNo offset data

/-- `write_file_with_mode`. -/
def writeFileWithMode (session : Session (Authenticated S)) (file : File) (offset : UInt32)
    (data : List UInt8) (mode : CommMode) : Task E (Session (Authenticated S)) :=
  session.consumeUnit (writeCommand P file offset data mode)

end Suite

/-- `enable_lrp`: the channel of the session is gone, its selection stays. -/
def enableLrp (session : Session (Authenticated AesSuite)) : Task E (Session Unauthenticated) := do
  let (_, session) ← session.consume
    (Ntag424.setConfiguration P Configuration.new.withLrpEnabled)
  return ⟨{}, session.ndefSelected, session.efSelected⟩

end Session

/-- The communication mode of an access that two rights can grant: plain when only free
access grants it, else the mode of the file. -/
def effectiveMode (mode : CommMode) (right readWrite : Access) (keyNumber : KeyNumber) :
    CommMode :=
  let freeAccess := right = .free ∨ readWrite = .free
  let mine := right = .key keyNumber ∨ readWrite = .key keyNumber
  if freeAccess ∧ ¬ mine then .plain else mode

namespace FileSettingsView

/-- The mode `read_file` chooses. -/
def readMode (v : FileSettingsView) (keyNumber : KeyNumber) : CommMode :=
  effectiveMode v.commMode v.accessRights.read v.accessRights.readWrite keyNumber

/-- The mode `write_file` chooses. -/
def writeMode (v : FileSettingsView) (keyNumber : KeyNumber) : CommMode :=
  effectiveMode v.commMode v.accessRights.write v.accessRights.readWrite keyNumber

end FileSettingsView

namespace Session

section Suite

variable [SessionSuite P S]

/-- `write_file`. -/
def writeFile (session : Session (Authenticated S)) (file : File) (offset : UInt32)
    (data : List UInt8) : Task E (Session (Authenticated S)) := do
  let (settings, session) ← session.getFileSettings P file
  session.writeFileWithMode P file offset data (settings.writeMode session.state.keyNumber)

/-- `read_file`. -/
def readFile (session : Session (Authenticated S)) (file : File) (offset length : UInt32)
    (buf : List UInt8) : Task E ((ℕ × List UInt8) × Session (Authenticated S)) := do
  let (settings, session) ← session.getFileSettings P file
  session.readFileWithMode P file offset length (settings.readMode session.state.keyNumber) buf

end Suite

/-- `authenticate`: re-authentication keeps the transaction identifier, the capabilities and
the command counter. -/
def authenticate [HandshakeSuite P S] (session : Session (Authenticated S)) (keyNo : KeyNumber)
    (key : Key) (rndA : Bytes 16) : Task E (Session (Authenticated S)) := do
  let cmdCounter := session.state.cmdCounter
  let suite ← HandshakeSuite.authenticateEv2NonFirst P keyNo key rndA
  let authResult := { session.state.authResult with suite }
  return { session with state := .nonFirstWithAuthResult authResult cmdCounter keyNo }

end Session

/-! ### Sessions of either suite -/

/-- `EncryptedSession`. -/
inductive EncryptedSession where
  | aes (session : Session (Authenticated AesSuite))
  | lrp (session : Session (Authenticated LrpSuite))

namespace EncryptedSession

/-- Dispatch an operation to the session of the suite in use. -/
def dispatch (f : (S : Type) → [HandshakeSuite P S] → Session (Authenticated S) →
    Task E (Session (Authenticated S))) : EncryptedSession → Task E EncryptedSession
  | aes session => do return .aes (← f AesSuite session)
  | lrp session => do return .lrp (← f LrpSuite session)

/-- `change_file_settings`. -/
def changeFileSettings (session : EncryptedSession) (file : File)
    (settings : FileSettingsUpdate) : Task E EncryptedSession :=
  session.dispatch P fun _ _ s => s.changeFileSettings P file settings

/-- `write_file_with_mode`. -/
def writeFileWithMode (session : EncryptedSession) (file : File) (offset : UInt32)
    (data : List UInt8) (mode : CommMode) : Task E EncryptedSession :=
  session.dispatch P fun _ _ s => s.writeFileWithMode P file offset data mode

/-- `change_key`. -/
def changeKey (session : EncryptedSession) (keyNo : NonMasterKeyNumber) (newKey : Key)
    (newKeyVersion : UInt8) (oldKey : Key) : Task E EncryptedSession :=
  session.dispatch P fun _ _ s => s.changeKey P keyNo newKey newKeyVersion oldKey

/-- `change_master_key`. -/
def changeMasterKey (session : EncryptedSession) (newKey : Key) (newKeyVersion : UInt8) :
    Task E (Session Unauthenticated) :=
  match session with
  | aes session => session.changeMasterKey P newKey newKeyVersion
  | lrp session => session.changeMasterKey P newKey newKeyVersion

end EncryptedSession

end Ntag424
