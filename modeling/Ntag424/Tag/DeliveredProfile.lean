import Mathlib.Tactic.Common
import Ntag424.Tag.Delivered
import Ntag424.Tag.Powered
import Ntag424.Tag.Profile

/-!
# The Profile of a Tag at Delivery

What of a tag at delivery is promised (`Profile.Delivered`), and one such tag whose application
stores its profile, with tag tampering.
-/

namespace Ntag424

/-- A tag as it is delivered, but for its mode and the features that were enabled. -/
structure Profile.Delivered (c : Profile) : Prop where
  keys : ∀ k, c.keys k = factoryKey
  keyVersions : ∀ k, c.keyVersions k = 0x00
  settings : ∀ file, c.settings file = .factory file
  contents : ∀ file : File, (c.contents file).toList = file.factoryContents

/-- What a profile shows without authentication, as long as nothing is mirrored. -/
def PublicView.stored : PublicView StoredProfile where
  version s := s.profile.version
  binary s file := (s.profile.contents file).toList

/-- The public version of a stored profile is the version of the profile. -/
theorem PublicView.version_stored (s : StoredProfile) :
    PublicView.stored.version s = s.profile.version := rfl

/-- A tag at delivery with tag tampering, whose loop is closed. -/
def StoredProfile.delivered : StoredProfile where
  profile := {
    keys := fun _ => factoryKey
    settings := .factory
    lrpMode := false
    keyVersions := fun _ => 0x00
    contents := fun file => Bytes.fill file.size file.factoryContents
    uid := deliveredUid
    signature := deliveredSignature
    version := ⟨⟨[0x04, 0x04, 0x08, 0x30, 0x00, 0x11, 0x05], rfl⟩,
      ⟨[0x04, 0x04, 0x02, 0x01, 0x02, 0x11, 0x05], rfl⟩, Bytes.fill 14 deliveredUid.toList⟩
    randomUid := false
    tamperAccess := none
    tamperStatus := ⟨[0x43, 0x43], rfl⟩ }
  payload := File.factorySettings
  decode_payload := File.decode_factorySettings

/-- The stored profile is one of delivery. -/
theorem StoredProfile.delivered_delivered : StoredProfile.delivered.profile.Delivered where
  keys _ := rfl
  keyVersions _ := rfl
  settings _ := rfl
  contents file := by
    have hlen : file.factoryContents.length = file.size := by
      cases file with
      | capabilityContainer => rfl
      | ndef => exact List.length_replicate
      | proprietary => rfl
    exact Bytes.toList_fill_of_length hlen

end Ntag424
