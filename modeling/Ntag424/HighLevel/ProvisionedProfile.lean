import Mathlib.Tactic.Common
import Ntag424.HighLevel.EndToEnd
import Ntag424.HighLevel.Provisioning
import Ntag424.Tag.DeliveredProfile
import Ntag424.Tag.Profile

/-!
# The Profile of a Provisioned Tag

What provisioning is for, in terms of profiles alone: which result it has on a tag and which
profile it leaves (`Profile.provision`), and the profiles on the way there (`Profile.Waypoint`).

## Main results

* `SdmUrl.SdmUrlConfig.Deployable`, `deployable_of_createSdmUrlConfig`: the file and the settings
  of a template can be written to a tag, and the tag reports the settings back.
* `Profile.provision_eq_ok`: the result on a tag that the server trusts.
-/

namespace Ntag424

open SdmUrl Numerals

/-! ### Settings that can be written -/

theorem Sdm.length_wireNumbers (s : Sdm) : s.wireNumbers.length ≤ 8 := by
  have hpicc : s.piccOffsets.length ≤ 2 := by
    rw [Sdm.piccOffsets]
    split <;> simp
  have htamper : (s.tamperStatus.map Offset.val).toList.length ≤ 1 := by
    cases s.tamperStatus <;> simp
  have hread : s.fileReadOffsets.length ≤ 4 := by
    rw [Sdm.fileReadOffsets]
    split
    · simp
    · rename_i fr _
      cases fr.enc <;> simp
  have hlimit : s.piccData.readCtrLimit.toList.length ≤ 1 := by
    cases s.piccData.readCtrLimit <;> simp
  simp only [Sdm.wireNumbers, List.length_append]
  omega

theorem length_flatMap_leBytes (l : List ℕ) : (l.flatMap (leBytes 3)).length = 3 * l.length := by
  induction l with
  | nil => rfl
  | cons v l ih =>
      rw [List.flatMap_cons, List.length_append, ih, length_leBytes, List.length_cons]
      omega

/-- **Settings without a counter limit can be written.** -/
theorem FileSettingsUpdate.exists_encode {u : FileSettingsUpdate}
    (hlimit : ∀ s ∈ u.sdm, s.piccData.readCtrLimit = none) :
    ∃ raw, u.encode maxChangeFileSettingsLen = .ok raw := by
  obtain ⟨commMode, rights, sdm⟩ := u
  have hrights : rights.toLeBytes.length = 2 := rfl
  cases sdm with
  | none =>
      refine ⟨_, FileSettingsUpdate.encode_eq_ok_iff.mpr ⟨[], rfl, ?_, rfl⟩⟩
      simp [hrights, maxChangeFileSettingsLen]
  | some s =>
      have hnone : (none : Option Offset).map Offset.val = s.piccData.readCtrLimit :=
        (hlimit s rfl).symm
      refine ⟨_, FileSettingsUpdate.encode_eq_ok_iff.mpr ⟨_, rfl, ?_, none, hnone, rfl⟩⟩
      have haccess : s.accessBytes.length = 2 := rfl
      have hnumbers := s.length_wireNumbers
      simp only [Sdm.bytes_block hnone, List.length_append, List.length_cons, List.length_nil,
        hrights, haccess, length_flatMap_leBytes, maxChangeFileSettingsLen]
      omega

/-- The compiler sets no counter limit. -/
theorem readCtrLimit_of_buildPiccData {opts : SdmUrlOptions} {parsed : ParsedTemplate}
    {pd : PiccData} (h : buildPiccData opts parsed = .ok pd) : pd.readCtrLimit = none := by
  rw [buildPiccData] at h
  split at h
  · rename_i content _
    obtain ⟨offset, -, h⟩ := Except.bind_eq_ok_iff.mp h
    cases Except.pure_eq_ok_iff.mp h
    cases content <;> rfl
  · obtain ⟨uid, -, h⟩ := Except.bind_eq_ok_iff.mp h
    obtain ⟨ctr, -, h⟩ := Except.bind_eq_ok_iff.mp h
    cases Except.pure_eq_ok_iff.mp h
    cases uid <;> cases ctr <;> rfl

theorem readCtrLimit_of_sdmUrlConfig {url : String} {mode : CryptoMode} {opts : SdmUrlOptions}
    {c : SdmUrlConfig} (h : sdmUrlConfig url mode opts = .ok c) :
    c.sdmSettings.piccData.readCtrLimit = none := by
  rw [sdmUrlConfig] at h
  split at h
  · rename_i plan hplan
    cases h
    rw [buildSdmNdefPlanCore] at hplan
    obtain ⟨parsed, -, hplan⟩ := Except.bind_eq_ok_iff.mp hplan
    simp only at hplan
    split at hplan
    · cases hplan
    split at hplan
    · cases hplan
    obtain ⟨header, -, hplan⟩ := Except.bind_eq_ok_iff.mp hplan
    obtain ⟨bytes, -, hplan⟩ := Except.bind_eq_ok_iff.mp hplan
    obtain ⟨pd, hpd, hplan⟩ := Except.bind_eq_ok_iff.mp hplan
    obtain ⟨fr, -, hplan⟩ := Except.bind_eq_ok_iff.mp hplan
    obtain ⟨tt, -, hplan⟩ := Except.bind_eq_ok_iff.mp hplan
    split at hplan
    · rename_i s hs
      cases Except.pure_eq_ok_iff.mp hplan
      rw [(Sdm.tryNew_eq_ok_iff.mp hs).1.1]
      exact readCtrLimit_of_buildPiccData hpd
    · cases hplan
  · cases h
  · cases h

/-- The settings of a provisioned NDEF file. -/
def provisionedSettings (config : SdmUrlConfig) : FileSettingsView :=
  ⟨.standardData, File.ndef.size, .plain, ⟨.free, .noAccess, .key .key0, .key .key0⟩,
    some config.sdmSettings⟩

/-- The file fits the NDEF file, and the settings can be written and are reported back. -/
structure SdmUrl.SdmUrlConfig.Deployable (config : SdmUrlConfig) : Prop where
  ne_nil : config.ndefBytes ≠ []
  length_le : config.ndefBytes.length ≤ File.ndef.size
  settings : ∃ raw,
    (fileSettingsUpdateForSdm config.sdmSettings).encode maxChangeFileSettingsLen = .ok raw ∧
      FileSettingsView.decode (payloadWith raw File.ndef.size) = .ok (provisionedSettings config)

/-- **What a template compiles to can be deployed.** -/
theorem deployable_of_createSdmUrlConfig {urlTemplate : String} {mode : CryptoMode}
    {config : SdmUrlConfig} {verifier : Verifier}
    (h : createSdmUrlConfig urlTemplate mode = .ok (config, verifier)) : config.Deployable := by
  obtain ⟨hconfig, -⟩ := createSdmUrlConfig_eq_ok_iff.mp h
  obtain ⟨text, rest, ms, body, hassembled⟩ := sdmUrlConfig_assembled hconfig
  have hlimit := readCtrLimit_of_sdmUrlConfig hconfig
  have hlen := hassembled.length_ndefBytes
  refine ⟨fun hnil => ?_, ?_, ?_⟩
  · rw [hnil, List.length_nil, uriAt] at hlen
    omega
  · rw [hlen]
    exact hassembled.fits
  · have hsdm : ∀ s ∈ (fileSettingsUpdateForSdm config.sdmSettings).sdm,
        s.piccData.readCtrLimit = none := by
      rintro s hs
      obtain rfl := Option.some.inj hs
      exact hlimit
    obtain ⟨raw, hraw⟩ := FileSettingsUpdate.exists_encode hsdm
    refine ⟨raw, hraw, ?_⟩
    rw [FileSettingsUpdate.decode_payloadWith (by decide) hraw]
    have hnormal : config.sdmSettings.normal = config.sdmSettings :=
      Sdm.normal_eq_self (by rw [hlimit]; rintro ⟨⟩)
    exact congrArg (fun s => Except.ok (⟨.standardData, File.ndef.size, .plain,
      ⟨.free, .noAccess, .key .key0, .key .key0⟩, some s⟩ : FileSettingsView)) hnormal

/-- The bytes of the capability container of a provisioned tag. -/
def provisionedContainerBytes : List UInt8 := provisionedContainer.serialised

theorem toBytes_provisionedContainer {ε : Type} :
    (provisionedContainer.toBytes : Outcome ε (List UInt8)) = .ok provisionedContainerBytes :=
  CapabilityContainer.toBytes_eq (by decide)

/-! ### The stages of provisioning -/

namespace Profile

variable {K : Type} (verify : Bytes signatureLen → Bytes 7 → Except OriginalityError Unit)
  (config : SdmUrlConfig) (keys : Bytes 7 → Except K (KeyNumber → Key)) (c : Profile)

/-- The tag in LRP mode. -/
def inLrpMode : Profile := { c with lrpMode := true }

/-- Random UIDs, and the tamper status in the open if asked for. -/
def tagged (tamper : Bool) : Profile :=
  { c with
    randomUid := true
    tamperAccess := if tamper then some .free else c.tamperAccess }

/-- Provisioning enables tag tampering. -/
def enablesTamper : Bool :=
  enablesTagTamper c.version config.sdmSettings.tamperStatus.isSome

/-- The tamper status as the session reads it. -/
def tamperReadout : TagTamperStatusReadout := .new (c.tamperStatus.byte 0) (c.tamperStatus.byte 1)

/-- The NDEF file with the URL, under its new settings. -/
def mirroring : Profile :=
  (c.written .ndef 0 config.ndefBytes).withSettings .ndef (provisionedSettings config)

/-- Both files as they are deployed. -/
def filed : Profile :=
  (c.mirroring config).written .capabilityContainer 0 provisionedContainerBytes

/-- Some keys replaced by new ones of a version. -/
def keyed (c : Profile) (newKeys : KeyNumber → Key) (keyVersion : UInt8) :
    List NonMasterKeyNumber → Profile
  | [] => c
  | keyNo :: rest =>
      (c.changedKey keyNo.toKeyNumber (newKeys keyNo.toKeyNumber) keyVersion).keyed newKeys
        keyVersion rest

/-- The tag before its files are written. -/
def prepared : Profile := c.inLrpMode.tagged (c.enablesTamper config)

/-- The tag with all its keys. -/
def provisioned (newKeys : KeyNumber → Key) : Profile :=
  (((c.prepared config).filed config).keyed newKeys 0x01 nonMasterKeys).changedKey .key0
    (newKeys .key0) 0x01

/-- The tag is what the server takes it for, and its keys are known. -/
structure Approved (newKeys : KeyNumber → Key) : Prop where
  hwType : c.version.hwType = 0x04
  genuine : verify c.signature c.uid = .ok ()
  keys_eq : keys c.uid = .ok newKeys

/-- The tamper loop was found closed, if it is watched. -/
def Untampered : Prop := c.enablesTamper config = true → c.tamperReadout.isTampered = false

/-- **What provisioning does**: its result, and the profile that it leaves. -/
def provision (E : Type) :
    Except (ProvisioningFailure E K) (Bytes 7 × Bytes signatureLen) × Profile :=
  if c.version.hwType = 0x04 then
    match verify c.signature c.uid, keys c.uid with
    | .error e, _ => (.error (.sessionError (.originalityVerificationFailed e)), c.inLrpMode)
    | .ok (), .error e => (.error (.keyGenerationError e), c.inLrpMode)
    | .ok (), .ok newKeys =>
        if c.enablesTamper config ∧ c.tamperReadout.isTampered then
          (.error (.tampered c.tamperReadout), c.prepared config)
        else (.ok (c.uid, c.signature), c.provisioned config newKeys)
  else (.error (.versionMismatch c.version.hwType), c)

variable {verify config keys c} in
/-- An approved tag that was not tampered with is provisioned. -/
theorem provision_eq_ok {newKeys : KeyNumber → Key} (h : Approved verify keys c newKeys)
    (hclosed : c.Untampered config) (E : Type) :
    c.provision verify config keys E =
      (.ok (c.uid, c.signature), c.provisioned config newKeys) := by
  rw [provision, if_pos h.hwType, h.genuine, h.keys_eq]
  refine if_neg ?_
  rintro ⟨henabled, htampered⟩
  rw [hclosed henabled] at htampered
  cases htampered

/-- Sessions of the master key may write both files and change the settings of the NDEF file. -/
structure FilesWritable : Prop where
  ndef_writable : (c.settings .ndef).Writable .key0
  ndef_change : (c.settings .ndef).accessRights.change.Admits .key0
  container_writable : (c.settings .capabilityContainer).Writable .key0
  container_plain : (c.settings .capabilityContainer).writeMode .key0 = .plain

/-- A tag that provisioning can write to, with the keys of delivery. -/
structure Provisionable : Prop extends c.FilesWritable where
  keys : ∀ k, c.keys k = factoryKey

/-- **The profiles between two exchanges of provisioning.** -/
inductive Waypoint : Profile → Prop
  | untouched : Waypoint c
  | inLrpMode (h : c.version.hwType = 0x04) : Waypoint c.inLrpMode
  | tagging {newKeys} (h : Approved verify keys c newKeys) : Waypoint (c.inLrpMode.tagged false)
  | prepared {newKeys} (h : Approved verify keys c newKeys) : Waypoint (c.prepared config)
  | writing {newKeys} (h : Approved verify keys c newKeys) (hu : c.Untampered config) (n : ℕ) :
      Waypoint ((c.prepared config).written .ndef 0 (config.ndefBytes.take n))
  | labelling {newKeys} (h : Approved verify keys c newKeys) (hu : c.Untampered config) (n : ℕ) :
      Waypoint (((c.prepared config).mirroring config).written .capabilityContainer 0
        (provisionedContainerBytes.take n))
  | keying {newKeys} (h : Approved verify keys c newKeys) (hu : c.Untampered config) (n : ℕ) :
      Waypoint (((c.prepared config).filed config).keyed newKeys 0x01 (nonMasterKeys.take n))

/-! ### A tag at delivery -/

variable {c} in
/-- A tag at delivery can be provisioned. -/
theorem Delivered.provisionable (h : c.Delivered) : c.Provisionable where
  keys := h.keys
  ndef_writable := by
    rw [h.settings]
    decide
  ndef_change := by
    rw [h.settings]
    decide
  container_writable := by
    rw [h.settings]
    decide
  container_plain := by
    rw [h.settings]
    rfl

/-- Its signature is the one that is known to be genuine. -/
theorem genuine_delivered : verifyDelivered StoredProfile.delivered.profile.signature
    StoredProfile.delivered.profile.uid = .ok () := if_pos ⟨rfl, rfl⟩

theorem approved_delivered {K : Type} {keys : Bytes 7 → Except K (KeyNumber → Key)}
    {newKeys : KeyNumber → Key} (h : keys deliveredUid = .ok newKeys) :
    Approved verifyDelivered keys StoredProfile.delivered.profile newKeys :=
  ⟨rfl, genuine_delivered, h⟩

/-- Its loop is closed. -/
theorem untampered_delivered (config : SdmUrlConfig) :
    Untampered config StoredProfile.delivered.profile := fun _ => rfl

end Profile

/-- The example template has a configuration that mirrors the UID. -/
theorem exampleTemplate_created :
    ∃ config verifier, createSdmUrlConfig exampleTemplate provisioningMode =
        .ok (config, verifier) ∧ config.mirrorsUid = true := by
  obtain ⟨happ, hconfig⟩ := exampleTemplate_config
  obtain ⟨app, happ⟩ := Except.isOk_iff.mp happ
  obtain ⟨config, verifier, hcreated, -⟩ := createAppVerifier_eq_ok_iff.mp happ
  refine ⟨config, verifier, hcreated, ?_⟩
  rw [(createSdmUrlConfig_eq_ok_iff.mp hcreated).1] at hconfig
  obtain ⟨hpicc, -⟩ := Prod.mk.inj (Option.some.inj hconfig)
  have huid : config.mirrorsUid = config.sdmSettings.piccData.includesUid := rfl
  rw [huid, hpicc]
  rfl

end Ntag424
