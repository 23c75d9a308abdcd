import Mathlib.Tactic.Common
import Ntag424.CapabilityContainer
import Ntag424.Session.FileReads
import Ntag424.Tag.Card

/-!
# A Tag at Delivery

A conforming tag whose keys, files and settings are those of delivery, and the plain commands
that it answers besides: `ISOSelectFile`, `ISOReadBinary` of a whole file and `GetVersion`. How
much of its NDEF file it returns is left open.

## Modelling

* `delivered` is the application, `DeliveredTag` the tag with the transport to it.
* The UID and the originality signature are a pair that the crate's tests know to verify.
-/

namespace Ntag424

/-! ### The application -/

/-- The UID of the originality test vector. -/
def deliveredUid : Bytes 7 := ⟨[0x04, 0x51, 0x8D, 0xFA, 0xA9, 0x61, 0x80], rfl⟩

/-- The originality signature over that UID. -/
def deliveredSignature : Bytes signatureLen :=
  ⟨[0xD1, 0x94, 0x0D, 0x17, 0xCF, 0xED, 0xA4, 0xBF, 0xF8, 0x03, 0x59, 0xAB, 0x97, 0x5F, 0x9F,
    0x65, 0x14, 0x31, 0x3E, 0x8F, 0x90, 0xC1, 0xD3, 0xCA, 0xAF, 0x59, 0x41, 0xAD, 0x74, 0x4A,
    0x1C, 0xDF, 0x9A, 0x83, 0xF8, 0x83, 0xCA, 0xFE, 0x0F, 0xE9, 0x5D, 0x19, 0x39, 0xB1, 0xB7,
    0xE4, 0x71, 0x13, 0x99, 0x33, 0x24, 0x47, 0x3B, 0x78, 0x5D, 0x21], rfl⟩

/-- A check of the originality that knows the test vector. -/
def verifyDelivered (signature : Bytes signatureLen) (uid : Bytes 7) :
    Except OriginalityError Unit :=
  if signature = deliveredSignature ∧ uid = deliveredUid then .ok ()
  else .error .verificationFailed

namespace File

/-- The content of a file at delivery. -/
def factoryContents : File → List UInt8
  | capabilityContainer => CapabilityContainer.defaultBytes ++ List.replicate 9 0
  | ndef => List.replicate 256 0
  | proprietary => factoryProp

/-- The settings of a file at delivery, as the tag reports them. -/
def factorySettings : File → List UInt8
  | capabilityContainer => [0x00, 0x00, 0x00, 0xE0, 0x20, 0x00, 0x00]
  | ndef => [0x00, 0x00, 0xE0, 0xEE, 0x00, 0x01, 0x00]
  | proprietary => [0x00, 0x03, 0x30, 0x23, 0x80, 0x00, 0x00]

/-- The reported settings are those the crate expects. -/
theorem decode_factorySettings (file : File) :
    FileSettingsView.decode file.factorySettings = .ok (.factory file) := by
  cases file <;> rfl

end File

/-- The application at delivery. Nothing can be changed. -/
def delivered : TagApp Unit where
  key _ _ := factoryKey
  lrpMode _ := false
  rndB _ := (Bytes.zeros 16, ())
  newTi _ := (Bytes.zeros 4, ())
  pdCap2 _ := Bytes.zeros 6
  exec
    | _, .getCardUid, _ => (.ok deliveredUid.toList, ())
    | _, .readSig, _ => (.ok deliveredSignature.toList, ())
    | _, .getFileSettings fileNo, _ =>
        match File.ofFileNo? fileNo with
        | some file => (.ok file.factorySettings, ())
        | none => (.error .fileNotFound, ())
    | _, .readData fileNo offset length, _ =>
        match File.ofFileNo? fileNo with
        | some file => (.ok (slice file.factoryContents offset length), ())
        | none => (.error .fileNotFound, ())
    | _, _, _ => (.error .permissionDenied, ())
  fileMode _ keyNo fileNo access :=
    match File.ofFileNo? fileNo, access with
    | some file, .read => (FileSettingsView.factory file).readMode keyNo
    | some file, .write => (FileSettingsView.factory file).writeMode keyNo
    | none, _ => .plain
  countersEncrypted _ _ := false
  configurationSilent _ _ := false
  signatureStatus _ := true
  length_exec {_ c _ _ _} h := by
    cases c with
    | getCardUid =>
        cases h
        exact deliveredUid.length_toList
    | readSig =>
        cases h
        exact deliveredSignature.length_toList
    | getFileSettings fileNo => trivial
    | readData fileNo offset length => trivial
    | _ => cases h
  fileMode_exec _ := rfl
  fileMode_settings {k file a d a' v} h hdecode := by
    simp only [File.ofFileNo?_fileNo] at h ⊢
    obtain rfl : file.factorySettings = d := Except.ok.inj (Prod.mk.inj h).1
    rw [File.decode_factorySettings] at hdecode
    obtain rfl := Except.ok.inj hdecode
    exact ⟨rfl, rfl⟩

/-! ### The whole tag -/

/-- The tag, with the number of the frame of a version that it owes. -/
structure DeliveredTag where
  frame : ℕ
  card : Card Unit

namespace DeliveredTag

/-- The tag when it is powered up. -/
def start : DeliveredTag := ⟨0, ⟨.deselected, ()⟩⟩

/-- The three parts of the version. -/
def versionPart : ℕ → Response
  | 0 => ⟨[0x04, 0x04, 0x02, 0x30, 0x00, 0x11, 0x05], 0x91, 0xAF⟩
  | 1 => ⟨[0x04, 0x04, 0x02, 0x01, 0x02, 0x11, 0x05], 0x91, 0xAF⟩
  | _ => ⟨deliveredUid.toList ++ List.replicate 7 0, 0x91, 0x00⟩

/-- The reaction of a tag that answers the read of its NDEF file with `ndef`. -/
def handle (P : Primitives) (ndef : List UInt8) (apdu : List UInt8) (tag : DeliveredTag) :
    Response × DeliveredTag :=
  if apdu = readApdu .capabilityContainer then
    (⟨File.capabilityContainer.factoryContents, 0x90, 0x00⟩, tag)
  else if apdu = readApdu .ndef then (⟨ndef, 0x90, 0x00⟩, tag)
  else if apdu.take 4 = [0x00, 0xA4, 0x00, 0x0C] then (⟨[], 0x90, 0x00⟩, tag)
  else if apdu = [0x90, 0x60, 0x00, 0x00, 0x00] then (versionPart 0, { tag with frame := 1 })
  else if apdu = continuationApdu then (versionPart tag.frame, { tag with frame := tag.frame + 1 })
  else
    let r := tag.card.handle P delivered apdu
    (r.1, { tag with card := r.2 })

/-- A transport that delivers every APDU to the tag. -/
def transmit (P : Primitives) (ndef : List UInt8) (apdu : List UInt8) (tag : DeliveredTag) :
    Transmit Empty apdu × DeliveredTag :=
  (.ok (tag.handle P ndef apdu).1, (tag.handle P ndef apdu).2)

end DeliveredTag

end Ntag424
