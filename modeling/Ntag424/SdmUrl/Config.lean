import Mathlib.Algebra.Group.Nat.Defs
import Mathlib.Tactic.Common
import Ntag424.SdmUrl.Scanner

/-!
# SDM URL Configuration

The NDEF side of the template compiler (`sdm_url.rs`): URI prefix compression, the assembly of
the NDEF file and of the SDM settings from a parsed template, and the way back from NDEF bytes
to the URL.

## Main results

* `length_prefixText_le`: every prefix of the table is short.
-/

namespace Ntag424

namespace SdmUrl

open Outcome

/-! ### URI prefixes -/

/-- `NDEF_URI_PREFIXES`: the codes of the NFC Forum URI record type. -/
def ndefUriPrefixes : List (UInt8 × String) :=
  [(0x01, "http://www."), (0x02, "https://www."), (0x03, "http://"), (0x04, "https://"),
    (0x05, "tel:"), (0x06, "mailto:"), (0x07, "ftp://anonymous:anonymous@"),
    (0x08, "ftp://ftp."), (0x09, "ftps://"), (0x0A, "sftp://"), (0x0B, "smb://"),
    (0x0C, "nfs://"), (0x0D, "ftp://"), (0x0E, "dav://"), (0x0F, "news:"), (0x10, "telnet://"),
    (0x11, "imap:"), (0x12, "rtsp://"), (0x13, "urn:"), (0x14, "pop:"), (0x15, "sip:"),
    (0x16, "sips:"), (0x17, "tftp:"), (0x18, "btspp://"), (0x19, "btl2cap://"),
    (0x1A, "btgoep://"), (0x1B, "tcpobex://"), (0x1C, "irdaobex://"), (0x1D, "file://"),
    (0x1E, "urn:epc:id:"), (0x1F, "urn:epc:tag:"), (0x20, "urn:epc:pat:"),
    (0x21, "urn:epc:raw:"), (0x22, "urn:epc:"), (0x23, "urn:nfc:")]

/-- The text of a prefix code; code zero stands for no prefix. -/
def prefixText (code : UInt8) : Option String :=
  if code = 0x00 then some ""
  else (ndefUriPrefixes.find? (·.1 = code)).map Prod.snd

/-- A prefix is a short text. -/
theorem length_prefixText_le {code : UInt8} {text : String} (h : prefixText code = some text) :
    (Utf8.encode text.toList).length ≤ 26 := by
  have htable : ∀ entry ∈ ndefUriPrefixes, (Utf8.encode entry.2.toList).length ≤ 26 := by
    decide +kernel
  rw [prefixText] at h
  split at h
  · cases h
    exact Nat.zero_le _
  · obtain ⟨entry, hfind, rfl⟩ := Option.map_eq_some_iff.mp h
    exact htable _ (List.mem_of_find?_eq_some hfind)

/-- `detect_uri_prefix`: the first prefix of the table that starts the URL, with its length. -/
def detectUriPrefix (url : List UInt8) : UInt8 × ℕ :=
  match ndefUriPrefixes.find? fun entry => (Utf8.encode entry.2.toList).isPrefixOf url with
  | some (code, text) => (code, (Utf8.encode text.toList).length)
  | none => (0x00, 0)

/-! ### From a template to the NDEF file and the settings -/

/-- Options of the template compiler. -/
structure SdmUrlOptions where
  piccKey : KeyNumber := .key2
  macKey : KeyNumber := .key2
  ctrRet : CtrRetAccess := .noAccess
  maxFileSize : ℕ := 256
deriving DecidableEq, Repr

/-- Output of the template compiler core. -/
structure ConstSdmNdefPlan where
  ndefBytes : List UInt8
  sdmSettings : Sdm
  prefixLen : ℕ
  prefixCode : UInt8
deriving DecidableEq, Repr

/-- `try_offset!`: an offset that is too large is reported by name. -/
def tryOffset (value : ℕ) (name : String) : Scan Offset :=
  match Offset.new value with
  | .ok offset => .ok offset
  | .error _ => fail (.fileSettings (name ++ " out of range"))

/-- Counter features of the compiled settings. -/
def SdmUrlOptions.features (opts : SdmUrlOptions) : ReadCtrFeatures := ⟨none, opts.ctrRet⟩

/-- The identity data of the compiled settings. -/
def buildPiccData (opts : SdmUrlOptions) (parsed : ParsedTemplate) : Scan PiccData :=
  match parsed.picc with
  | some (piccOffset, content) => do
      let offset ← tryOffset piccOffset "picc_offset"
      return .encrypted opts.piccKey offset (match content with
        | .uid => .uid
        | .ctr => .rCtr opts.features
        | .both => .both opts.features)
  | none => do
      let uidOffset ← parsed.uidOffset.mapM (tryOffset · "uid_offset")
      let ctrOffset ← parsed.ctrOffset.mapM (tryOffset · "ctr_offset")
      return match uidOffset, ctrOffset with
        | some uid, some ctr => .plain (.both uid ⟨ctr, opts.features⟩)
        | some uid, none => .plain (.uid uid)
        | none, some ctr => .plain (.rCtr ⟨ctr, opts.features⟩)
        | none, none => .none

/-- The file-read configuration of the compiled settings. -/
def buildFileRead (opts : SdmUrlOptions) (parsed : ParsedTemplate) : Scan FileRead := do
  let input ← tryOffset parsed.macInput "mac_input"
  let mac ← tryOffset parsed.macOffset "mac_offset"
  match parsed.encRange with
  | some (encStart, encEnd) => do
      let start ← tryOffset encStart "enc_start"
      let len ← checkedSub encEnd encStart
      match EncLength.new len with
      | .ok length => return .macAndEnc opts.macKey ⟨input, mac⟩ ⟨start, length⟩
      | .error _ => fail (.fileSettings "enc_length invalid")
  | none => return .macOnly opts.macKey ⟨input, mac⟩

/-- How the core reports settings that `Sdm::try_new` rejects. -/
def settingsError : FileSettingsError → TemplateCoreError
  | .macInputAfterMac => .fileSettings "mac_input > mac"
  | .encOutsideMacWindow => .fileSettings "enc outside mac window"
  | .encRequiresBothMirrors => .encFileDataRequiresUidAndCtr
  | _ => .fileSettings "sdm_settings"

/-- The header of the NDEF file: the two length bytes, the record header, the lengths of type
and payload, the URI type and the prefix code. -/
def ndefHeader (payloadLen : ℕ) (prefixCode : UInt8) : List UInt8 :=
  [UInt8.ofNat ((4 + payloadLen) % 2 ^ 16 / 2 ^ 8), UInt8.ofNat ((4 + payloadLen) % 2 ^ 16), 0xD1,
    0x01, UInt8.ofNat payloadLen, 0x55, prefixCode]

/-- `build_sdm_ndef_plan_core` on the bytes of a template. -/
def buildSdmNdefPlanCore (cap : ℕ) (url : List UInt8) (mode : CryptoMode)
    (opts : SdmUrlOptions) : Scan ConstSdmNdefPlan := do
  let (prefixCode, abbrevStart) := detectUriPrefix url
  let parsed ← parseTemplate cap mode url abbrevStart
  let payloadLen := 1 + parsed.uriContent.length
  if 255 < payloadLen then fail (.fileTooLong (2 + 4 + payloadLen) opts.maxFileSize)
  else if opts.maxFileSize < 2 + (4 + payloadLen) then
    fail (.fileTooLong (2 + (4 + payloadLen)) opts.maxFileSize)
  else do
    let ndefBytes ← pushAll cap [] (ndefHeader payloadLen prefixCode)
    let ndefBytes ← extendBytes cap ndefBytes parsed.uriContent 0 parsed.uriContent.length
    let piccData ← buildPiccData opts parsed
    let fileRead ← buildFileRead opts parsed
    let tamperStatus ← parsed.ttOffset.mapM (tryOffset · "tt_offset")
    match Sdm.tryNew piccData (some fileRead) tamperStatus mode with
    | .ok sdmSettings => return ⟨ndefBytes, sdmSettings, abbrevStart, prefixCode⟩
    | .error e => fail (settingsError e)

/-- Error of `sdm_url_config`. -/
inductive SdmUrlError where
  | missingMac
  | piccWithPlainMirrors
  | noMirror
  | duplicatePlaceholder (name : String)
  | encFileDataRequiresUidAndCtr
  | invalidEncRangeLength (len : ℕ)
  | invalidPlaceholder (text : String)
  | unterminated (what : String)
  | unexpectedMarker (what : String)
  | duplicateRange (what : String)
  | placeholderInEncRange (name : String)
  | nestedRange (what : String)
  | macStartAfterMac
  | fileTooLong (got max : ℕ)
  | fileSettings (e : FileSettingsError)
deriving DecidableEq, Repr

/-- `map_runtime_error`. The text of an invalid placeholder is sliced from the template, which
panics unless the slice ends on character boundaries. -/
def mapRuntimeError (url : List UInt8) : TemplateCoreError → Fault SdmUrlError
  | .missingMac => .error .missingMac
  | .piccWithPlainMirrors => .error .piccWithPlainMirrors
  | .noMirror => .error .noMirror
  | .duplicatePlaceholder name => .error (.duplicatePlaceholder name)
  | .encFileDataRequiresUidAndCtr => .error .encFileDataRequiresUidAndCtr
  | .invalidEncRangeLength len => .error (.invalidEncRangeLength len)
  | .invalidPlaceholder start stop =>
      match Utf8.decode? (slice url start (stop - start)) with
      | some text => .error (.invalidPlaceholder text)
      | none => .panicked
  | .unterminated what => .error (.unterminated what)
  | .unexpectedMarker what => .error (.unexpectedMarker what)
  | .duplicateRange what => .error (.duplicateRange what)
  | .placeholderInEncRange name => .error (.placeholderInEncRange name)
  | .nestedRange what => .error (.nestedRange what)
  | .macStartAfterMac => .error .macStartAfterMac
  | .outputBufferTooSmall needed capacity => .error (.fileTooLong needed (capacity % 2 ^ 16))
  | .fileTooLong got max => .error (.fileTooLong got max)
  | .fileSettings _ => .error (.fileSettings .macInputAfterMac)

/-- Output of `sdm_url_config`. -/
structure SdmUrlConfig where
  ndefBytes : List UInt8
  sdmSettings : Sdm
  offset : ℕ
  prefixLen : ℕ
  prefixCode : UInt8
deriving DecidableEq, Repr

/-- Capacity of the buffers of `sdm_url_config`. -/
def defaultConstPlanCapacity : ℕ := 256

/-- `sdm_url_config`. -/
def sdmUrlConfig (url : String) (mode : CryptoMode) (opts : SdmUrlOptions) :
    Outcome SdmUrlError SdmUrlConfig :=
  let bytes := Utf8.encode url.toList
  match buildSdmNdefPlanCore defaultConstPlanCapacity bytes mode opts with
  | .ok plan => .ok ⟨plan.ndefBytes, plan.sdmSettings, uriAt, plan.prefixLen, plan.prefixCode⟩
  | .error (.error e) => .error (mapRuntimeError bytes e)
  | .error .panicked => panicked

namespace SdmUrlConfig

/-- `SdmUrlConfig::prefix`. -/
def uriPrefix (c : SdmUrlConfig) : Option (List UInt8) :=
  (prefixText c.prefixCode).map fun text => Utf8.encode text.toList

/-- `SdmUrlConfig::mirrors_uid`. -/
def mirrorsUid (c : SdmUrlConfig) : Bool := c.sdmSettings.piccData.includesUid

end SdmUrlConfig

/-! ### From NDEF bytes to the URL -/

/-- Error of `parse_ndef_uri`. -/
inductive ParseError where
  | invalidHeader
  | sizeMismatch (expected actual : ℕ)
  | unknownPrefixCode (code : UInt8)
  | payloadSizeMismatch (expected actual : ℕ)
  | encoding
deriving DecidableEq, Repr

/-- `core::str::from_utf8`. -/
def fromUtf8 (bytes : List UInt8) : Outcome ParseError String :=
  match Utf8.decode? bytes with
  | some text => .ok text
  | none => fail .encoding

/-- `parse_ndef_uri`. The buffer is cut to the announced size before the record is read, and
the subtraction is the capacity of the result. -/
def parseNdefUri (ndefBytes : List UInt8) : Outcome ParseError String :=
  if ndefBytes.length < 7 ∨ ndefBytes[2]? ≠ some 0xD1 ∨ ndefBytes[3]? ≠ some 0x01 ∨
      ndefBytes[5]? ≠ some 0x55 then fail .invalidHeader
  else do
    let high ← index ndefBytes 0
    let low ← index ndefBytes 1
    let size := high.toNat * 2 ^ 8 + low.toNat
    if ndefBytes.length < size + 2 then fail (.sizeMismatch (size + 2) ndefBytes.length)
    else do
      let ndefBytes ← sliceRange ndefBytes 0 (size + 2)
      let payloadLen ← index ndefBytes 4
      let prefixCode ← index ndefBytes 6
      match prefixText prefixCode with
      | none => fail (.unknownPrefixCode prefixCode)
      | some text =>
          if ndefBytes.length ≠ 2 + 4 + payloadLen.toNat then
            fail (.payloadSizeMismatch (2 + 4 + payloadLen.toNat) ndefBytes.length)
          else do
            let _ ← checkedSub ((Utf8.encode text.toList).length + payloadLen.toNat) 1
            let prefixStr ← fromUtf8 (Utf8.encode text.toList)
            let body ← sliceRange ndefBytes 7 ndefBytes.length
            let bodyStr ← fromUtf8 body
            return prefixStr ++ bodyStr

end SdmUrl

end Ntag424
