import Mathlib.Tactic.Common
import Ntag424.CapabilityContainer
import Ntag424.Session.FactoryState

/-!
# Resetting a Tag

`reset_with_fn` and `reset_with_keys` (`high_level/reset.rs`): with the current master key the
settings and contents of the capability container and the NDEF file are restored, the other four
keys are set to zero, and last the master key.

## Modelling

* The keys come from a function of the UID that may fail; what it asks of others to derive them is
  left out.
* The two random challenges of the reader are drawn before they are used.
-/

namespace Ntag424

variable {E K : Type} (P : Primitives)

/-- `ResetError`. -/
inductive ResetError (E K : Type) where
  | sessionError (e : SessionError E)
  | keyGenerationError (e : K)

/-- The session with the current master key: in LRP mode, or else in AES mode. -/
def openMaster (currentKey : Key) (rnd : ℕ → Bytes 16) : Task E EncryptedSession := do
  match ← (Session.new.authenticateLrp P .key0 currentKey (rnd 0)).attempt with
  | .ok session => return .lrp session
  | .error _ =>
      let session ← Session.new.authenticateAes P .key0 currentKey (rnd 1)
      return .aes session

/-- Restore settings and contents of the two files. -/
def restoreFiles (session : EncryptedSession) : Task E EncryptedSession := do
  let session ← session.changeFileSettings P .ndef (FileSettingsView.factory .ndef).intoUpdate
  let session ← session.changeFileSettings P .capabilityContainer
    (FileSettingsView.factory .capabilityContainer).intoUpdate
  let ccBytes ← Script.lift CapabilityContainer.default.toBytes
  let session ← session.writeFileWithMode P .capabilityContainer 0 ccBytes .plain
  session.writeFileWithMode P .ndef 0 (List.replicate 256 0) .plain

/-- The loop over the keys that are set to zero. -/
def zeroKeys (currentKeys : KeyNumber → Key) :
    List NonMasterKeyNumber → EncryptedSession → Task E EncryptedSession
  | [], session => return session
  | keyNo :: keys, session => do
      let session ← session.changeKey P keyNo (Bytes.zeros 16) 0x00 (currentKeys keyNo.toKeyNumber)
      zeroKeys currentKeys keys session

/-- The keys of that loop, in their order. -/
def nonMasterKeys : List NonMasterKeyNumber := [.key1, .key2, .key3, .key4]

/-- `reset_with_fn`, once the current keys are known. -/
def resetKeys (currentKeys : KeyNumber → Key) (rnd : ℕ → Bytes 16) : Task E Unit := do
  let session ← openMaster P (currentKeys .key0) rnd
  let session ← restoreFiles P session
  let session ← zeroKeys P currentKeys nonMasterKeys session
  let _ ← session.changeMasterKey P (Bytes.zeros 16) 0x00
  return ()

/-- `reset_with_fn`. -/
def resetWithFn (uid : Bytes 7) (keys : Bytes 7 → Except K (KeyNumber → Key))
    (rnd : ℕ → Bytes 16) : Script (Transmit E) Unit (ResetError E K) Unit :=
  match keys uid with
  | .error e => Script.fail (.keyGenerationError e)
  | .ok currentKeys => (resetKeys P currentKeys rnd).mapError .sessionError

/-- `reset_with_keys`. -/
def resetWithKeys (uid : Bytes 7) (keys : KeyNumber → Key) (rnd : ℕ → Bytes 16) :
    Script (Transmit E) Unit (ResetError E Empty) Unit :=
  resetWithFn P uid (fun _ => .ok keys) rnd

end Ntag424
