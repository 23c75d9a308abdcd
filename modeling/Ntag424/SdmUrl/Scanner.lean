import Mathlib.Tactic.Common
import Ntag424.FileSettings.Sdm
import Ntag424.Lib.Outcome
import Ntag424.Lib.Utf8

/-!
# The Template Scanner

`parse_template` and its helpers (`sdm_url.rs`): one pass over the bytes of a URL template that
renders the abbreviated URI body and records where the placeholders and range markers fell. The
scanner has two modes, outside and inside the encrypted range `[...]`, and advances by whole
characters, placeholders and escapes.

Byte accesses outside the template are panics, as in the source. `cap` is the capacity of the
output buffer. The `while` loop runs on a fuel argument that bounds the number of iterations;
every iteration advances, so the length of the template is always enough.
-/

namespace Ntag424

namespace SdmUrl

open Outcome

/-- Offset of the abbreviated URI body in the NDEF file. -/
def uriAt : ℕ := 7

/-- What an encrypted PICCData placeholder carries. -/
inductive PiccContent where
  | uid
  | ctr
  | both
deriving DecidableEq, Repr

/-- The placeholders of a template. -/
inductive Placeholder where
  | uid
  | ctr
  | picc (content : PiccContent)
  | tt
  | mac
deriving DecidableEq, Repr

/-- Errors of the template compiler core. -/
inductive TemplateCoreError where
  | missingMac
  | piccWithPlainMirrors
  | noMirror
  | duplicatePlaceholder (name : String)
  | encFileDataRequiresUidAndCtr
  | invalidEncRangeLength (len : ℕ)
  | invalidPlaceholder (start stop : ℕ)
  | unterminated (what : String)
  | unexpectedMarker (what : String)
  | duplicateRange (what : String)
  | placeholderInEncRange (name : String)
  | nestedRange (what : String)
  | macStartAfterMac
  | outputBufferTooSmall (needed capacity : ℕ)
  | fileTooLong (got max : ℕ)
  | fileSettings (what : String)
deriving DecidableEq, Repr

/-- A step of the template compiler. -/
abbrev Scan (α : Type) := Outcome TemplateCoreError α

/-! ### The output buffer -/

/-- `ConstNdefBytes::push`. -/
def push (cap : ℕ) (buf : List UInt8) (byte : UInt8) : Scan (List UInt8) :=
  if buf.length = cap then fail (.outputBufferTooSmall (buf.length + 1) cap)
  else .ok (buf ++ [byte])

/-- Push several bytes, one after the other. -/
def pushAll (cap : ℕ) (buf bytes : List UInt8) : Scan (List UInt8) :=
  bytes.foldlM (push cap) buf

/-- `ConstNdefBytes::push_zeroes`: pushes the character `0`. -/
def pushZeroes (cap : ℕ) (buf : List UInt8) (count : ℕ) : Scan (List UInt8) :=
  pushAll cap buf (List.replicate count 0x30)

/-- `ConstNdefBytes::extend_bytes`. -/
def extendBytes (cap : ℕ) (buf src : List UInt8) (start count : ℕ) : Scan (List UInt8) :=
  (List.range count).foldlM (fun buf i => do
    let byte ← index src (start + i)
    push cap buf byte) buf

/-! ### Characters and placeholders -/

/-- `utf8_char_width`. -/
def utf8CharWidth (first : UInt8) : ℕ :=
  if first < 0x80 then 1
  else if first &&& 0xE0 = 0xC0 then 2
  else if first &&& 0xF0 = 0xE0 then 3
  else 4

/-- `escaped_width`: width of the character after a backslash. -/
def escapedWidth (url : List UInt8) (backslash : ℕ) : Scan ℕ :=
  if url.length ≤ backslash + 1 then fail (.unterminated "escape sequence")
  else do
    let first ← index url (backslash + 1)
    return utf8CharWidth first

/-- The placeholder texts, in the order in which they are compared, with the names used in
errors. -/
def placeholderSpecs : List (String × Placeholder × String) :=
  [("uid", .uid, "{uid}"), ("ctr", .ctr, "{ctr}"), ("tt", .tt, "{tt}"), ("mac", .mac, "{mac}"),
    ("picc", .picc .both, "{picc}"), ("picc:uid", .picc .uid, "{picc}"),
    ("picc:ctr", .picc .ctr, "{picc}"), ("picc:uid+ctr", .picc .both, "{picc}"),
    ("picc:ctr+uid", .picc .both, "{picc}")]

/-- `parse_placeholder`: the placeholder that starts at the brace at `start`, the number of
bytes it takes, and its name. -/
def parsePlaceholder (url : List UInt8) (start : ℕ) : Scan (Placeholder × ℕ × String) :=
  match (url.drop (start + 1)).findIdx? (· = 0x7D) with
  | none => fail (.unterminated "placeholder")
  | some len =>
      match placeholderSpecs.find?
          fun spec => Utf8.encode spec.1.toList = slice url (start + 1) len with
      | some (_, placeholder, display) => .ok (placeholder, len + 2, display)
      | none => fail (.invalidPlaceholder start (start + 1 + len + 1))

/-- `placeholder_fill_len`. -/
def placeholderFillLen (mode : CryptoMode) : Placeholder → ℕ
  | .uid => 14
  | .ctr => 6
  | .tt => 2
  | .mac => 16
  | .picc _ => mode.piccBlobAsciiLen

/-- `set_once`. -/
def setOnce {α : Type} (slot : Option α) (value : α) (name : String) : Scan (Option α) :=
  match slot with
  | some _ => fail (.duplicatePlaceholder name)
  | none => .ok (some value)

/-! ### The scanner -/

/-- The variables of the scanner loop, apart from the position. -/
structure ScanState where
  uriContent : List UInt8
  uidOffset : Option ℕ
  ctrOffset : Option ℕ
  picc : Option (ℕ × PiccContent)
  ttOffset : Option ℕ
  macOffset : Option ℕ
  macStart : Option ℕ
  inEncRange : Bool
  encRangeStart : Option ℕ
  encRangeEnd : Option ℕ
deriving DecidableEq, Repr

namespace ScanState

/-- The variables before the loop. -/
def initial : ScanState := ⟨[], none, none, none, none, none, none, false, none, none⟩

/-- `current_file_offset_len`: the file offset at which the next byte is rendered. -/
def fileOffset (st : ScanState) : ℕ := uriAt + st.uriContent.length

/-- Record the offset of a placeholder, which may occur once. -/
def record (st : ScanState) (offset : ℕ) (display : String) : Placeholder → Scan ScanState
  | .uid => do
      let uidOffset ← setOnce st.uidOffset offset display
      return { st with uidOffset }
  | .ctr => do
      let ctrOffset ← setOnce st.ctrOffset offset display
      return { st with ctrOffset }
  | .picc content => do
      let picc ← setOnce st.picc (offset, content) "{picc}"
      return { st with picc }
  | .tt => do
      let ttOffset ← setOnce st.ttOffset offset display
      return { st with ttOffset }
  | .mac => do
      let macOffset ← setOnce st.macOffset offset display
      return { st with macOffset }

end ScanState

variable (cap : ℕ) (mode : CryptoMode) (url : List UInt8)

/-- One iteration inside the encrypted range: everything is rendered as zeros. -/
def scanInside (i : ℕ) (b : UInt8) (st : ScanState) : Scan (ℕ × ScanState) :=
  if b = 0x5D then
    .ok (i + 1, { st with encRangeEnd := some st.fileOffset, inEncRange := false })
  else if b = 0x5B ∧ url[i + 1]? = some 0x5B then fail (.nestedRange "[[ inside [...]")
  else if b = 0x5B then fail (.nestedRange "[...]")
  else if b = 0x5C then do
    let width ← escapedWidth url i
    let uriContent ← pushZeroes cap st.uriContent width
    return (i + 1 + width, { st with uriContent })
  else if b = 0x7B then do
    let (placeholder, consumed, display) ← parsePlaceholder url i
    match placeholder with
    | .tt => do
        let st ← st.record st.fileOffset "{tt}" .tt
        let uriContent ← pushZeroes cap st.uriContent (placeholderFillLen mode .tt)
        return (i + consumed, { st with uriContent })
    | _ => fail (.placeholderInEncRange display)
  else do
    let uriContent ← pushZeroes cap st.uriContent (utf8CharWidth b)
    return (i + utf8CharWidth b, { st with uriContent })

/-- One iteration outside the encrypted range. -/
def scanOutside (i : ℕ) (b : UInt8) (st : ScanState) : Scan (ℕ × ScanState) :=
  if b = 0x5B ∧ url[i + 1]? = some 0x5B then
    if st.macStart.isSome then fail (.duplicateRange "[[")
    else .ok (i + 2, { st with macStart := some st.fileOffset })
  else if b = 0x5B then
    if st.encRangeStart.isSome then fail (.duplicateRange "[...]")
    else .ok (i + 1, { st with inEncRange := true, encRangeStart := some st.fileOffset })
  else if b = 0x5D then fail (.unexpectedMarker "]")
  else if b = 0x5C then do
    let width ← escapedWidth url i
    let uriContent ← extendBytes cap st.uriContent url (i + 1) width
    return (i + 1 + width, { st with uriContent })
  else if b = 0x7B then do
    let (placeholder, consumed, display) ← parsePlaceholder url i
    let st ← st.record st.fileOffset display placeholder
    let uriContent ← pushZeroes cap st.uriContent (placeholderFillLen mode placeholder)
    return (i + consumed, { st with uriContent })
  else do
    let uriContent ← extendBytes cap st.uriContent url i (utf8CharWidth b)
    return (i + utf8CharWidth b, { st with uriContent })

/-- One iteration of the scanner loop at a position inside the template. -/
def scanStep (i : ℕ) (st : ScanState) : Scan (ℕ × ScanState) := do
  let b ← index url i
  if st.inEncRange then scanInside cap mode url i b st else scanOutside cap mode url i b st

/-- The scanner loop. -/
def scanLoop : ℕ → ℕ → ScanState → Scan ScanState
  | fuel, i, st =>
      if i < url.length then
        match fuel with
        | 0 => panicked
        | fuel + 1 => do
            let (i, st) ← scanStep cap mode url i st
            scanLoop fuel i st
      else .ok st

/-- What the scanner knows about a template. -/
structure ParsedTemplate where
  uriContent : List UInt8
  uidOffset : Option ℕ
  ctrOffset : Option ℕ
  picc : Option (ℕ × PiccContent)
  ttOffset : Option ℕ
  macOffset : ℕ
  macInput : ℕ
  encRange : Option (ℕ × ℕ)
deriving DecidableEq, Repr

namespace PiccContent

/-- `picc_content_includes_uid`. -/
def includesUid : PiccContent → Bool
  | uid | both => true
  | ctr => false

/-- `picc_content_includes_ctr`. -/
def includesCtr : PiccContent → Bool
  | ctr | both => true
  | uid => false

end PiccContent

namespace ParsedTemplate

/-- Whether the identity data of a template carries the UID. -/
def includesUid (parsed : ParsedTemplate) : Bool :=
  match parsed.picc with
  | some (_, content) => content.includesUid
  | none => parsed.uidOffset.isSome

/-- Whether the identity data of a template carries the read counter. -/
def includesCtr (parsed : ParsedTemplate) : Bool :=
  match parsed.picc with
  | some (_, content) => content.includesCtr
  | none => parsed.ctrOffset.isSome

end ParsedTemplate

/-- The encrypted range after the loop, checked for its length and for the mirrors it needs. -/
def checkedEncRange (st : ScanState) : Scan (Option (ℕ × ℕ)) :=
  match st.encRangeStart, st.encRangeEnd with
  | none, none => .ok none
  | none, some _ | some _, none => fail (.unterminated "[...]")
  | some start, some stop =>
      let includesUid := match st.picc with
        | some (_, content) => content.includesUid
        | none => st.uidOffset.isSome
      let includesCtr := match st.picc with
        | some (_, content) => content.includesCtr
        | none => st.ctrOffset.isSome
      if stop - start = 0 ∨ (stop - start) % 32 ≠ 0 then
        fail (.invalidEncRangeLength (stop - start))
      else if !includesUid || !includesCtr then fail .encFileDataRequiresUidAndCtr
      else .ok (some (start, stop))

/-- The checks of `parse_template` after the loop. -/
def finishTemplate (st : ScanState) : Scan ParsedTemplate :=
  if st.inEncRange then fail (.unterminated "[...]")
  else match st.macOffset with
  | none => fail .missingMac
  | some macOffset =>
      if st.picc.isSome && (st.uidOffset.isSome || st.ctrOffset.isSome) then
        fail .piccWithPlainMirrors
      else if st.picc.isNone && st.uidOffset.isNone && st.ctrOffset.isNone && st.ttOffset.isNone
      then fail .noMirror
      else do
        let encRange ← checkedEncRange st
        let macInput := st.macStart.getD uriAt
        if macOffset < macInput then fail .macStartAfterMac
        else return ⟨st.uriContent, st.uidOffset, st.ctrOffset, st.picc, st.ttOffset, macOffset,
          macInput, encRange⟩

/-- `parse_template`. -/
def parseTemplate (start : ℕ) : Scan ParsedTemplate := do
  let st ← scanLoop cap mode url url.length start .initial
  finishTemplate st

end SdmUrl

end Ntag424
