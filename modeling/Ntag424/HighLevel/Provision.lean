import Mathlib.Tactic.Common
import Ntag424.HighLevel.Verification
import Ntag424.SdmUrl.Compile
import Ntag424.SdmVerify.Shift

/-!
# Provisioning: Configuration and Keys

The part of `high_level/provision.rs` that does not talk to a tag: the SDM configuration and the
verifier built from a URL template, and the keys of a tag.

## Main results

* `createAppVerifier_eq_ok_iff`: the parts of a created verifier.
* `deriveKeysForUid_eq`: deriving the keys of a tag never panics.
-/

namespace Ntag424

open Outcome SdmUrl

/-- `ProvisioningError`, as far as the configuration raises it. -/
inductive ProvisioningError where
  | sdmError (e : SdmError)
  | sdmUrlError (e : SdmUrlError)
  | offset
deriving DecidableEq, Repr

/-- `SYSTEM_IDENTIFIER`: the bytes of `NTAG424DNA`. -/
def provisioningSystemIdentifier : List UInt8 :=
  [0x4E, 0x54, 0x41, 0x47, 0x34, 0x32, 0x34, 0x44, 0x4E, 0x41]

/-- `MODE`. -/
def provisioningMode : CryptoMode := .lrp

/-- The template options of provisioned tags. -/
def provisioningOptions : SdmUrlOptions := { piccKey := .key1, macKey := .key2 }

/-- `create_sdm_url_config`: the configuration of a template, and its verifier with the offsets
moved from the NDEF file to the full URL. -/
def createSdmUrlConfig (urlTemplate : String) (mode : CryptoMode) :
    Outcome ProvisioningError (SdmUrlConfig × Verifier) := do
  let sdmConf ← mapError .sdmUrlError (sdmUrlConfig urlTemplate mode provisioningOptions)
  let verifier ← mapError .sdmError (ofExcept (Verifier.tryNew sdmConf.sdmSettings mode))
  match verifier.withOffset (sdmConf.prefixLen - sdmConf.offset) with
  | some verifier => return (sdmConf, verifier)
  | none => fail .offset

/-- `create_app_verifier`. -/
def createAppVerifier (urlTemplate : String) : Outcome ProvisioningError ApplicationVerifier := do
  let (sdmConf, verifier) ← createSdmUrlConfig urlTemplate provisioningMode
  return {
    verifier
    urlTemplate
    urlPrefix := sdmConf.uriPrefix
    systemIdentifier := provisioningSystemIdentifier
    uid := none
    originalitySignature := none }

variable (P : Primitives)

/-- `derive_keys_for_uid`: Key1 is the cohort-fixed PICC key, the others are diversified. -/
def deriveKeysForUid {ε : Type} (masterKey : Key) (uid : Bytes 7) :
    Outcome ε (KeyNumber → Key) := do
  let key1 ← piccKey P masterKey
  let newMasterKey ← diversifyNtag424 P masterKey uid .key0 provisioningSystemIdentifier
  let key2 ← diversifyNtag424 P masterKey uid .key2 provisioningSystemIdentifier
  let key3 ← diversifyNtag424 P masterKey uid .key3 provisioningSystemIdentifier
  let key4 ← diversifyNtag424 P masterKey uid .key4 provisioningSystemIdentifier
  return fun
    | .key0 => newMasterKey
    | .key1 => key1
    | .key2 => key2
    | .key3 => key3
    | .key4 => key4

/-- The keys of a tag. -/
def keysForUid (masterKey : Key) (uid : Bytes 7) : KeyNumber → Key
  | .key1 => diversified P masterKey piccInput
  | k => diversified P masterKey (diversificationInput uid k provisioningSystemIdentifier)

/-- **Deriving the keys of a tag never panics**, because the system identifier is short. -/
theorem deriveKeysForUid_eq {ε : Type} (masterKey : Key) (uid : Bytes 7) :
    (deriveKeysForUid P masterKey uid : Outcome ε _) = .ok (keysForUid P masterKey uid) := by
  have hshort : provisioningSystemIdentifier.length ≤ maxSystemIdLen := by decide
  simp only [deriveKeysForUid, piccKey_eq, diversifyNtag424_eq P hshort, Except.ok_bind']
  refine congrArg Except.ok (funext fun k => ?_)
  cases k <;> rfl

/-- The keys of a tag are the ones the server looks up. -/
theorem getKey_eq_keysForUid {ε : Type} (masterKey : Key) (uid : Bytes 7) (k : KeyNumber) :
    (ApplicationVerifier.getKey P masterKey k uid provisioningSystemIdentifier : Outcome ε Key) =
      .ok (keysForUid P masterKey uid k) := by
  have hshort : provisioningSystemIdentifier.length ≤ maxSystemIdLen := by decide
  cases k with
  | key1 => rfl
  | key0 | key2 | key3 | key4 => exact diversifyNtag424_eq P hshort

/-- The configuration and the verifier of a template. -/
theorem createSdmUrlConfig_eq_ok_iff {urlTemplate : String} {mode : CryptoMode} {c : SdmUrlConfig}
    {v : Verifier} :
    createSdmUrlConfig urlTemplate mode = .ok (c, v) ↔
      sdmUrlConfig urlTemplate mode provisioningOptions = .ok c ∧
      ∃ v₀, Verifier.tryNew c.sdmSettings mode = .ok v₀ ∧
        v₀.withOffset (c.prefixLen - c.offset) = some v := by
  simp only [createSdmUrlConfig, Except.bind_eq_ok_iff, mapError_eq_ok_iff, ofExcept_eq_ok_iff]
  constructor
  · rintro ⟨c', hc', v₀, hv₀, h⟩
    split at h
    · rename_i v' hv'
      cases Except.pure_eq_ok_iff.mp h
      exact ⟨hc', v₀, hv₀, hv'⟩
    · cases h
  · rintro ⟨hc, v₀, hv₀, hv⟩
    refine ⟨c, hc, v₀, hv₀, ?_⟩
    rw [hv]
    rfl

/-- **The parts of a created verifier.** -/
theorem createAppVerifier_eq_ok_iff {urlTemplate : String} {app : ApplicationVerifier} :
    createAppVerifier urlTemplate = .ok app ↔
      ∃ c v, createSdmUrlConfig urlTemplate provisioningMode = .ok (c, v) ∧
        app = ⟨urlTemplate, v, c.uriPrefix, provisioningSystemIdentifier, none, none⟩ := by
  simp only [createAppVerifier, Except.bind_eq_ok_iff]
  constructor
  · rintro ⟨⟨c, v⟩, hc, h⟩
    exact ⟨c, v, hc, (Except.pure_eq_ok_iff.mp h).symm⟩
  · rintro ⟨c, v, hc, rfl⟩
    exact ⟨(c, v), hc, rfl⟩

end Ntag424
