import Mathlib.Tactic.Common
import Ntag424.CapabilityContainer
import Ntag424.Session.Unauthenticated

/-!
# The Factory State

`check_factory_state` (`session/unauthenticated.rs`): the capability container and the NDEF file
are read without authentication, everything else in sessions of its own on the same transport.

## Modelling

* The random numbers are a sequence, drawn in the order in which the source draws them.
* The ECDSA check of the originality signature is a parameter.
-/

namespace Ntag424

variable {E σ β : Type} (P : Primitives)

/-! ### Sessions of either suite -/

namespace EncryptedSession

/-- Dispatch an operation with a result to the session of the suite in use. -/
def dispatchValue (f : (S : Type) → [HandshakeSuite P S] → Session (Authenticated S) →
    Task E (β × Session (Authenticated S))) : EncryptedSession → Task E (β × EncryptedSession)
  | aes session => do
      let (b, session) ← f AesSuite session
      return (b, .aes session)
  | lrp session => do
      let (b, session) ← f LrpSuite session
      return (b, .lrp session)

/-- `mode`. -/
def mode : EncryptedSession → CryptoMode
  | aes _ => .aes
  | lrp _ => .lrp

/-- `get_file_settings`. -/
def getFileSettings (session : EncryptedSession) (file : File) :
    Task E (FileSettingsView × EncryptedSession) :=
  session.dispatchValue P fun _ _ s => s.getFileSettings P file

/-- `get_tt_status`. -/
def getTtStatus (session : EncryptedSession) : Task E (TagTamperStatusReadout × EncryptedSession) :=
  session.dispatchValue P fun _ _ s => s.getTtStatus P

/-- `get_uid`. -/
def getUid (session : EncryptedSession) : Task E (Bytes 7 × EncryptedSession) :=
  session.dispatchValue P fun _ _ s => s.getUid P

/-- `verify_originality`. -/
def verifyOriginality (verify : Bytes signatureLen → Bytes 7 → Except OriginalityError Unit)
    (session : EncryptedSession) (uid : Bytes 7) :
    Task E (Bytes signatureLen × EncryptedSession) :=
  session.dispatchValue P fun _ _ s => do
    let (s, sig) ← s.verifyOriginality P verify uid
    return (sig, s)

/-- `authenticate`. -/
def authenticate (session : EncryptedSession) (keyNo : KeyNumber) (key : Key) (rndA : Bytes 16) :
    Task E EncryptedSession :=
  session.dispatch P fun _ _ s => s.authenticate P keyNo key rndA

/-- `read_file_with_mode`. -/
def readFileWithMode (session : EncryptedSession) (file : File) (offset length : UInt32)
    (mode : CommMode) (buf : List UInt8) : Task E ((ℕ × List UInt8) × EncryptedSession) :=
  session.dispatchValue P fun _ _ s => s.readFileWithMode P file offset length mode buf

end EncryptedSession

/-! ### The check -/

/-- `FactoryStateCheckResult`. -/
structure FactoryStateCheckResult where
  randomIdMode : Bool
  mode : CryptoMode
  tagTamperStatus : Option TagTamperStatusReadout
  originalitySignature : Bytes signatureLen
  uid : Bytes 7

/-- `map_err(|_| SessionError::NotFactoryState(what))`. -/
def orNotFactoryState (what : String) (m : Cmd E σ β) : Cmd E σ β := do
  match ← m.attempt with
  | .ok b => pure b
  | .error _ => Script.fail (.notFactoryState what)

/-- What an error is turned into. -/
theorem wp_orNotFactoryState {W : Type} {env : (r : List UInt8) → W → Transmit E r → W → Prop}
    {what : String} {m : Cmd E σ β} {t : σ} {w : W}
    {Q : β → σ → W → Prop} {R : Fault (SessionError E) → σ → W → Prop} {J : σ → W → Prop}
    (hm : m.wp env (fun _ => True) Q (fun _ => J) t w) (hR : ∀ e t w, J t w → R e t w) :
    (orNotFactoryState what m).wp env (fun _ => True) Q R t w := by
  have hattempt : m.attempt.wp env (fun _ => True)
      (fun
        | .ok b => Q b
        | .error _ => J) (fun _ => J) t w := by
    refine Script.wp_attempt.mpr (Script.wp_mono hm (fun _ _ _ h => h) fun e s' w' h => ?_)
    cases e with
    | error e => exact h
    | panicked => exact h
  refine Script.wp_bind_of hattempt (fun o s' w' h => ?_) hR
  cases o with
  | ok b => exact Script.wp_pure.mpr h
  | error e => exact Script.wp_fail.mpr (hR _ _ _ h)

/-- Refuse a tag that is not in factory state. -/
def requireFactoryState (p : Prop) [Decidable p] (what : String) : Cmd E σ Unit :=
  Script.require p (.notFactoryState what)

/-- Read a file into the front of a buffer. -/
def readInto (file : File) (buf : List UInt8) : Cmd E (Session Unauthenticated) (List UInt8) := do
  let (_, part) ← Session.readFileUnauthenticated file 0 (buf.take file.size)
  return overlay buf 0 part

/-- The capability container is that of delivery, and the tag is an NTAG 424 DNA. -/
def checkContainer : Cmd E (Session Unauthenticated) (Version × List UInt8) := do
  let buf ← orNotFactoryState "unable to read capability container"
    (readInto .capabilityContainer (List.replicate 256 0))
  requireFactoryState
    (CapabilityContainer.fromBytes (buf.take File.capabilityContainer.size) = .ok .default)
    "capability container mismatch"
  let version ← Session.getVersionUnauthenticated
  requireFactoryState (version.isNtag424 = true) "version mismatch"
  return (version, buf)

/-- Whether a buffer is zero is decided along the buffer. -/
instance decidableZeros (l : List UInt8) : Decidable (∀ b ∈ l, b = 0) :=
  List.decidableBAll (· = 0) l

/-- The NDEF file is empty. -/
def checkNdef (buf : List UInt8) : Cmd E (Session Unauthenticated) (List UInt8) := do
  let buf ← orNotFactoryState "unable to read NDEF file" (readInto .ndef buf)
  requireFactoryState (∀ b ∈ buf.take File.ndef.size, b = 0) "NDEF file not empty"
  return buf

/-- The first part of `check_factory_state`: what is read without authentication. -/
def checkContents : Cmd E (Session Unauthenticated) (Version × List UInt8) := do
  let (version, buf) ← checkContainer
  let buf ← checkNdef buf
  return (version, buf)

/-- The all-zero key. -/
def factoryKey : Key := Bytes.zeros 16

/-- Authenticate with the default master key in either mode, with the number of randoms drawn. -/
def authenticateMaster (rnd : ℕ → Bytes 16) : Task E (EncryptedSession × ℕ) := do
  match ← (Session.new.authenticateAes P .key0 factoryKey (rnd 0)).attempt with
  | .ok s => return (.aes s, 1)
  | .error _ =>
      let s ← orNotFactoryState "unable to authenticate with default keys"
        (Session.new.authenticateLrp P .key0 factoryKey (rnd 1))
      return (.lrp s, 2)

/-- The loop over the files: their settings are those at delivery. -/
def checkSettings : List File → EncryptedSession → Task E EncryptedSession
  | [], session => return session
  | file :: files, session => do
      let (view, session) ← orNotFactoryState "unable to read file settings"
        (session.getFileSettings P file)
      requireFactoryState (view = FileSettingsView.factory file) "file settings mismatch"
      checkSettings files session

/-- The tag-tamper status, if the tag has one. -/
def readTagTamper (version : Version) (session : EncryptedSession) :
    Task E (Option TagTamperStatusReadout × EncryptedSession) :=
  if version.hasTagTamperSupport then do
    let (status, session) ← orNotFactoryState "unable to read tag-tamper status"
      (session.getTtStatus P)
    return (some status, session)
  else return (none, session)

/-- `FACTORY_PROP`. -/
def factoryProp : List UInt8 := 0x00 :: 0x7E :: List.replicate 126 0x00

/-- The loop over the other keys: they are the default key. -/
def checkKeys (rnd : ℕ → Bytes 16) : List KeyNumber → ℕ → EncryptedSession → Task E Unit
  | [], _, _ => return ()
  | keyNo :: keys, n, session => do
      let session ← orNotFactoryState "unable to authenticate with default keys"
        (session.authenticate P keyNo factoryKey (rnd n))
      checkKeys rnd keys (n + 1) session

/-- The second part of `check_factory_state`, in sessions of its own. -/
def checkAuthenticated (verify : Bytes signatureLen → Bytes 7 → Except OriginalityError Unit)
    (rnd : ℕ → Bytes 16) (version : Version) (buf : List UInt8) :
    Task E FactoryStateCheckResult := do
  let (master, n) ← authenticateMaster P rnd
  let master ← checkSettings P [.capabilityContainer, .ndef, .proprietary] master
  let mode := master.mode
  let (tagTamperStatus, master) ← readTagTamper P version master
  let (uid, master) ← orNotFactoryState "unable to read UID with default keys" (master.getUid P)
  let (signature, master) ← orNotFactoryState
    "originality signature verification failed with default keys"
    (master.verifyOriginality P verify uid)
  let key2 ← orNotFactoryState "unable to authenticate with default key 2"
    (master.authenticate P .key2 factoryKey (rnd n))
  let ((_, prop), key2) ← orNotFactoryState "unable to read proprietary file"
    (key2.readFileWithMode P .proprietary 0 128 .full (buf.take File.proprietary.size))
  requireFactoryState (prop = factoryProp) "proprietary file not empty"
  checkKeys P rnd [.key1, .key3, .key4] (n + 1) key2
  return ⟨version.uid.byte 0 == 0x08, mode, tagTamperStatus, signature, uid⟩

/-- Run a task that has no local state beside a session. -/
def beside (task : Task E β) : Cmd E σ β := do
  let (b, _) ← task.on ()
  return b

/-- `check_factory_state`. -/
def checkFactoryState (verify : Bytes signatureLen → Bytes 7 → Except OriginalityError Unit)
    (rnd : ℕ → Bytes 16) : Cmd E (Session Unauthenticated) FactoryStateCheckResult := do
  let (version, buf) ← checkContents
  beside (checkAuthenticated P verify rnd version buf)

end Ntag424
