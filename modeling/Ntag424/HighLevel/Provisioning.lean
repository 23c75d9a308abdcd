import Mathlib.Tactic.Common
import Ntag424.CapabilityContainer.RoundTrip
import Ntag424.HighLevel.Provision
import Ntag424.HighLevel.Reset
import Ntag424.Session.Configuration

/-!
# Provisioning a Tag

`provision_with_fn`, `provision_with_keys` and `provision` (`high_level/provision.rs`), and `reset`
with the lookup of the UID (`high_level/reset.rs`). A tag is provisioned in one run: its version,
its originality and the template are checked, then the tag is switched to LRP mode, configured,
written and given its keys, the master key last.

## Modelling

* The keys come from a function of the UID that may fail; what it asks of others to derive them is
  left out.
* The random challenges of the reader are drawn before they are used.
* Deriving the keys of a tag never panics (`deriveKeysForUid_eq`), so `provision` and `reset` use
  the keys themselves.
* The ECDSA check of the originality signature is a parameter.
-/

namespace Ntag424

open SdmUrl

variable {E K : Type} (P : Primitives)

/-! ### Operations of the two session types -/

namespace EncryptedSession

/-- `set_configuration`. -/
def setConfiguration (session : EncryptedSession) (configuration : Configuration) :
    Task E EncryptedSession :=
  session.dispatch P fun _ _ s => s.setConfiguration P configuration

/-- `write_file`. -/
def writeFile (session : EncryptedSession) (file : File) (offset : UInt32)
    (data : List UInt8) : Task E EncryptedSession :=
  session.dispatch P fun _ _ s => s.writeFile P file offset data

/-- `read_file`. -/
def readFile (session : EncryptedSession) (file : File) (offset length : UInt32)
    (buf : List UInt8) : Task E ((ℕ × List UInt8) × EncryptedSession) :=
  session.dispatchValue P fun _ _ s => s.readFile P file offset length buf

end EncryptedSession

/-- `hw_type`. -/
def Version.hwType (v : Version) : UInt8 := v.part1.byte 1

/-- `is_tampered`. -/
def TagTamperStatusReadout.isTampered (t : TagTamperStatusReadout) : Bool :=
  t.permanent == .open || t.current == .open

/-! ### Provisioning -/

/-- `ProvisioningError`; `config` holds what the configuration raises. -/
inductive ProvisioningFailure (E K : Type) where
  | config (e : ProvisioningError)
  | noUid
  | sessionError (e : SessionError E)
  | versionMismatch (hwType : UInt8)
  | tampered (status : TagTamperStatusReadout)
  | noUidMirroring
  | keyGenerationError (e : K)

/-- A program of the provisioning run. -/
abbrev ProvisioningTask (E K β : Type) := Script (Transmit E) Unit (ProvisioningFailure E K) β

/-- `check_version`. -/
def checkVersion : ProvisioningTask E K Version := do
  let (version, _) ← (Session.getVersionUnauthenticated.on Session.new).mapError .sessionError
  Script.require (version.hwType = 0x04) (.versionMismatch version.hwType)
  return version

/-- The attempt of `authenticate_using_factory_defaults` at an AES session, which switches the tag
to LRP mode. Why there is no AES session does not matter. -/
def switchToLrp (rnd : Bytes 16) : Task E Unit := do
  match ← (Session.new.authenticateAes P .key0 factoryKey rnd).attempt with
  | .ok session =>
      let _ ← session.enableLrp P
      return ()
  | .error _ => return ()

/-- `authenticate_using_factory_defaults`. -/
def authenticateUsingFactoryDefaults (rnd : ℕ → Bytes 16) : Task E EncryptedSession := do
  switchToLrp P (rnd 0)
  let session ← Session.new.authenticateLrp P .key0 factoryKey (rnd 1)
  return .lrp session

/-- `verify_originality` of `provision.rs`. -/
def verifyOriginality (verify : Bytes signatureLen → Bytes 7 → Except OriginalityError Unit)
    (session : EncryptedSession) : Task E (Bytes 7 × EncryptedSession × Bytes signatureLen) := do
  let (uid, session) ← session.getUid P
  let (signature, session) ← session.verifyOriginality P verify uid
  return (uid, session, signature)

/-- Whether `configure` enables tag tampering. -/
def enablesTagTamper (version : Version) (enableTagTamper : Bool) : Bool :=
  version.hasTagTamperSupport && enableTagTamper

/-- The options of `configure`. -/
def provisioningConfiguration (tagTamperEnabled : Bool) : Configuration :=
  let config := Configuration.new.withRandomUidEnabled
  if tagTamperEnabled then config.withTagTamperEnabled .free else config

/-- `configure`. -/
def configure (session : EncryptedSession) (version : Version) (enableTagTamper : Bool) :
    ProvisioningTask E K EncryptedSession := do
  let tagTamperEnabled := enablesTagTamper version enableTagTamper
  let session ← (session.setConfiguration P (provisioningConfiguration tagTamperEnabled)).mapError
    .sessionError
  if tagTamperEnabled then do
    let (status, session) ← (session.getTtStatus P).mapError .sessionError
    Script.require (status.isTampered = false) (.tampered status)
    return session
  else return session

/-- `get_file_settings_update_for_sdm`. -/
def fileSettingsUpdateForSdm (sdm : Sdm) : FileSettingsUpdate :=
  (FileSettingsUpdate.new .plain
    { read := .free, write := .noAccess, readWrite := .key .key0, change := .key .key0 }).withSdm
    sdm

/-- The capability container of a provisioned tag. -/
def provisionedContainer : CapabilityContainer :=
  CapabilityContainer.default.withNdefWriteAccess (.proprietaryKey .key0)

/-- `configure_ndef`. -/
def configureNdef (session : EncryptedSession) (config : SdmUrlConfig) :
    Task E EncryptedSession := do
  let session ← session.writeFile P .ndef 0 config.ndefBytes
  let session ← session.changeFileSettings P .ndef (fileSettingsUpdateForSdm config.sdmSettings)
  let ccBytes ← Script.lift provisionedContainer.toBytes
  session.writeFileWithMode P .capabilityContainer 0 ccBytes .plain

/-- The loop over the keys that replace the factory key. -/
def setKeys (keys : KeyNumber → Key) :
    List NonMasterKeyNumber → EncryptedSession → Task E EncryptedSession
  | [], session => return session
  | keyNo :: rest, session => do
      let session ← session.changeKey P keyNo (keys keyNo.toKeyNumber) 0x01 factoryKey
      setKeys keys rest session

/-- `provision_keys`. -/
def provisionKeys (session : EncryptedSession) (keys : KeyNumber → Key) : Task E Unit := do
  let session ← setKeys P keys nonMasterKeys session
  let _ ← session.changeMasterKey P (keys .key0) 0x01
  return ()

/-- `provision_with_fn`, once the version of the tag is known: what happens in sessions. -/
def provisionInSessions (verify : Bytes signatureLen → Bytes 7 → Except OriginalityError Unit)
    (config : SdmUrlConfig) (keys : Bytes 7 → Except K (KeyNumber → Key)) (rnd : ℕ → Bytes 16)
    (version : Version) : ProvisioningTask E K (Bytes 7 × Bytes signatureLen) := do
  let session ← (authenticateUsingFactoryDefaults P rnd).mapError .sessionError
  let (uid, session, signature) ← (verifyOriginality P verify session).mapError .sessionError
  match keys uid with
  | .error e => Script.fail (.keyGenerationError e)
  | .ok newKeys =>
      let session ← configure P session version config.sdmSettings.tamperStatus.isSome
      let session ← (configureNdef P session config).mapError .sessionError
      (provisionKeys P session newKeys).mapError .sessionError
      return (uid, signature)

/-- `provision_with_fn`, once the configuration and the verifier of the template are known. -/
def provisionTag (verify : Bytes signatureLen → Bytes 7 → Except OriginalityError Unit)
    (config : SdmUrlConfig) (keys : Bytes 7 → Except K (KeyNumber → Key)) (rnd : ℕ → Bytes 16) :
    ProvisioningTask E K (Bytes 7 × Bytes signatureLen) := do
  let version ← checkVersion
  provisionInSessions P verify config keys rnd version

/-- `provision_with_fn`. -/
def provisionWithFn (verify : Bytes signatureLen → Bytes 7 → Except OriginalityError Unit)
    (urlTemplate : String) (keys : Bytes 7 → Except K (KeyNumber → Key)) (rnd : ℕ → Bytes 16) :
    ProvisioningTask E K ApplicationVerifier := do
  let (config, verifier) ←
    (Script.lift (createSdmUrlConfig urlTemplate provisioningMode)).mapError .config
  Script.require (config.mirrorsUid = true) .noUidMirroring
  let (uid, signature) ← provisionTag P verify config keys rnd
  return {
    urlTemplate
    verifier
    urlPrefix := config.uriPrefix
    systemIdentifier := provisioningSystemIdentifier
    uid := some uid
    originalitySignature := some signature }

/-- `provision_with_keys`. -/
def provisionWithKeys (verify : Bytes signatureLen → Bytes 7 → Except OriginalityError Unit)
    (urlTemplate : String) (keys : KeyNumber → Key) (rnd : ℕ → Bytes 16) :
    ProvisioningTask E Empty ApplicationVerifier :=
  provisionWithFn P verify urlTemplate (fun _ => .ok keys) rnd

/-- `provision`: the keys are those of `derive_keys_for_uid`. -/
def provision (verify : Bytes signatureLen → Bytes 7 → Except OriginalityError Unit)
    (urlTemplate : String) (masterKey : Key) (rnd : ℕ → Bytes 16) :
    ProvisioningTask E Empty ApplicationVerifier :=
  provisionWithFn P verify urlTemplate (fun uid => .ok (keysForUid P masterKey uid)) rnd

/-! ### Resetting -/

/-- `resolve_uid`: a UID that is not given is asked of the tag, in an LRP session of the PICC
key. -/
def resolveUid (masterKey : Key) (rnd : Bytes 16) : Option (Bytes 7) → Task E (Bytes 7)
  | some uid => return uid
  | none => do
      let key1 ← Script.lift (piccKey P masterKey)
      let session ← Session.new.authenticateLrp P .key1 key1 rnd
      let (uid, _) ← session.getUid P
      return uid

/-- `reset`. -/
def reset (masterKey : Key) (uid : Option (Bytes 7)) (rnd : ℕ → Bytes 16) :
    Script (Transmit E) Unit (ResetError E Empty) (Bytes 7) := do
  let uid' ← (resolveUid P masterKey (rnd 0) uid).mapError .sessionError
  -- the challenge of the lookup is drawn only if there is one
  let rest := if uid.isSome then rnd else fun n => rnd (n + 1)
  resetWithFn P uid' (fun uid => .ok (keysForUid P masterKey uid)) rest
  return uid'

end Ntag424
