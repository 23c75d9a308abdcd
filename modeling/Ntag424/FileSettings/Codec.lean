import Mathlib.Tactic.Common
import Ntag424.FileSettings.Sdm
import Ntag424.Lib.Numerals

/-!
# Encoding and Decoding File Settings

The payload of `GetFileSettings` and the data field of `ChangeFileSettings`
(`types/file_settings/codec.rs`): a file option byte, two access-rights bytes, the file size
in the answer only, and the SDM block when the enable bit is set.

## Modelling

* `Cursor` reads a buffer and reports a read past its end. `WCursor` writes a buffer of a
  fixed capacity; that nothing is written past it is a field of the cursor.
* `encode` takes the length of the caller's buffer and returns the bytes it wrote, whose
  number is the source's return value.

## Main results

* `FileSettingsUpdate.length_encode_le`: an encoded update fits the buffer it was given.
* `FileSettingsUpdate.encode_of_no_sdm`: without SDM the encoding is three bytes.
-/

namespace Ntag424

open Numerals

/-! ### Cursors -/

/-- A reading position in a buffer. -/
structure Cursor where
  buf : List UInt8
  pos : ℕ

/-- A decoder that advances a cursor. -/
abbrev Decoder := StateT Cursor (Except FileSettingsError)

namespace Cursor

/-- The start of a buffer. -/
def new (buf : List UInt8) : Cursor := ⟨buf, 0⟩

/-- `array`: read `n` bytes. -/
def array (n : ℕ) : Decoder (Bytes n) := fun c =>
  if c.pos + n > c.buf.length then .error (.bufferTooShort (c.pos + n) c.buf.length)
  else .ok (Bytes.fill n (slice c.buf c.pos n), { c with pos := c.pos + n })

/-- `u8`. -/
def u8 : Decoder UInt8 := do
  return (← array 1).byte 0

/-- `u24_le`. -/
def u24Le : Decoder ℕ := do
  return ofLe (← array 3).toList

/-- `Offset(r.u24_le()?)`: three bytes are within the range of an offset. -/
def offset : Decoder Offset := do
  let bytes ← array 3
  return ⟨ofLe bytes.toList, by
    have := ofLe_lt bytes.toList
    rw [bytes.length_toList] at this
    omega⟩

/-- `remaining`. -/
def remaining (c : Cursor) : ℕ := c.buf.length - c.pos

/-- `if c { Some(read) } else { None }`. -/
def readWhen {α : Type} (c : Bool) (d : Decoder α) : Decoder (Option α) :=
  if c then do return some (← d) else return none

end Cursor

/-- A writing position in a buffer of `cap` bytes. -/
structure WCursor where
  cap : ℕ
  out : List UInt8
  length_le : out.length ≤ cap

namespace WCursor

/-- The start of a buffer of `cap` bytes. -/
def new (cap : ℕ) : WCursor := ⟨cap, [], Nat.zero_le cap⟩

/-- `array`: write some bytes. -/
def array (src : List UInt8) (w : WCursor) : Except FileSettingsError WCursor :=
  if h : w.out.length + src.length > w.cap then
    .error (.bufferTooShort (w.out.length + src.length) w.cap)
  else .ok ⟨w.cap, w.out ++ src, by
    rw [List.length_append]
    omega⟩

/-- `u8`. -/
def u8 (v : UInt8) (w : WCursor) : Except FileSettingsError WCursor := w.array [v]

/-- `u24_le`: refuses values above 24 bits. -/
def u24Le (v : ℕ) (w : WCursor) : Except FileSettingsError WCursor :=
  if v > 0xFFFFFF then .error (.offsetOutOfRange v) else w.array (leBytes 3 v)

theorem array_eq_ok_iff {src : List UInt8} {w w' : WCursor} :
    w.array src = .ok w' ↔ w'.cap = w.cap ∧ w'.out = w.out ++ src := by
  obtain ⟨cap', out', hle⟩ := w'
  unfold array
  split
  · rename_i h
    constructor
    · exact nofun
    · rintro ⟨rfl, rfl⟩
      rw [List.length_append] at hle
      exact absurd hle (Nat.not_le_of_lt h)
  · simp only [Except.ok.injEq, mk.injEq, eq_comm]

end WCursor

/-! ### Decoding -/

/-- `key_from_nibble`. -/
def keyFromNibble (n : UInt8) (slot : NibbleSlot) : Except FileSettingsError KeyNumber :=
  match KeyNumber.ofNibble? n with
  | some k => .ok k
  | none => .error (.invalidAccessNibble slot n)

/-- The key of the SDM file read, from its nibble. -/
def fileReadKeyFromNibble (n : UInt8) : Except FileSettingsError (Option KeyNumber) :=
  if n ≤ 0x4 then (keyFromNibble n .sdmFileRead).map some
  else if n = 0xF then .ok none
  else .error (.invalidAccessNibble .sdmFileRead n)

/-- The mirror configuration described by the SDM options and the offsets read so far. -/
def decodePiccData (metaNibble : UInt8) (uidMirror readCtrMirror : Bool)
    (uidOffset ctrOffset piccEncOffset : Option Offset) (features : ReadCtrFeatures) :
    Except FileSettingsError PiccData :=
  if metaNibble = 0xE then
    match uidOffset, ctrOffset with
    | some uid, some ctr => .ok (.plain (.both uid ⟨ctr, features⟩))
    | some uid, none => .ok (.plain (.uid uid))
    | none, some ctr => .ok (.plain (.rCtr ⟨ctr, features⟩))
    | none, none => .error .invalidSdmFlags
  else
    match keyFromNibble metaNibble .sdmMetaRead with
    | .ok key =>
        match piccEncOffset with
        | none => .error .invalidSdmFlags
        | some offset =>
            match uidMirror, readCtrMirror with
            | true, true => .ok (.encrypted key offset (.both features))
            | true, false => .ok (.encrypted key offset .uid)
            | false, true => .ok (.encrypted key offset (.rCtr features))
            | false, false => .error .invalidSdmFlags
    | .error e => if metaNibble = 0xF then .ok .none else .error e

/-- The file-read configuration described by the offsets read so far. -/
def decodeFileRead (key : Option KeyNumber) (macInput mac : Option Offset)
    (encRange : Option EncFileData) : Except FileSettingsError (Option FileRead) :=
  match key, macInput, mac with
  | some key, some input, some mac =>
      match encRange with
      | some enc => .ok (some (.macAndEnc key ⟨input, mac⟩ enc))
      | none => .ok (some (.macOnly key ⟨input, mac⟩))
  | none, none, none => .ok none
  | _, _, _ => .error .invalidSdmFlags

/-- The encrypted range: its start and its checked length. -/
def decodeEncRange : Decoder EncFileData := do
  let start ← Cursor.offset
  let len ← Cursor.u24Le
  let length ← (EncLength.new len : Except FileSettingsError EncLength)
  return ⟨start, length⟩

/-- The read-counter limit; the largest 24-bit value stands for no limit. -/
def decodeCtrLimit (limitEnabled readCtrMirror : Bool) : Decoder (Option ℕ) :=
  if limitEnabled then do
    if readCtrMirror = false then throw .invalidSdmFlags
    let v ← Cursor.u24Le
    return if v ≠ 0xFFFFFF then some v else none
  else return none

/-- The SDM block of `FileSettingsView::decode`. -/
def decodeSdm : Decoder Sdm := do
  let sdmOptions ← Cursor.u8
  let arBytes ← Cursor.array 2
  if sdmOptions &&& 0b111 ≠ 0b001 then
    throw (.reservedBitSet .sdmOptions (sdmOptions &&& 0b111))
  if arBytes.byte 0 &&& 0xF0 ≠ 0xF0 then throw (.reservedBitSet .sdmAccessRights0 0xF0)
  let uidMirror := sdmOptions &&& 0x80 != 0
  let readCtrMirror := sdmOptions &&& 0x40 != 0
  let readCtrLimitEnabled := sdmOptions &&& 0x20 != 0
  let encFileData := sdmOptions &&& 0x10 != 0
  let ttStatusMirror := sdmOptions &&& 0x08 != 0
  let piccMetaNibble := arBytes.byte 1 >>> 4
  let fileReadNibble := arBytes.byte 1 &&& 0xF
  let ctrRetNibble := arBytes.byte 0 &&& 0xF
  let metaPlain := piccMetaNibble == 0xE
  let metaEnc := decide (piccMetaNibble ≤ 0x4)
  let fileReadKey ← fileReadKeyFromNibble fileReadNibble
  let ctrRet ← CtrRetAccess.fromNibble ctrRetNibble
  if readCtrMirror = false ∧ ctrRet ≠ .noAccess then throw .invalidSdmFlags
  -- the offsets, in wire order
  let uidOffset ← Cursor.readWhen (uidMirror && metaPlain) Cursor.offset
  let ctrOffset ← Cursor.readWhen (readCtrMirror && metaPlain) Cursor.offset
  let piccEncOffset ← Cursor.readWhen metaEnc Cursor.offset
  let ttOffset ← Cursor.readWhen ttStatusMirror Cursor.offset
  let macInput ← Cursor.readWhen fileReadKey.isSome Cursor.offset
  let encRange ← Cursor.readWhen (fileReadKey.isSome && encFileData) decodeEncRange
  let mac ← Cursor.readWhen fileReadKey.isSome Cursor.offset
  let ctrLimit ← decodeCtrLimit readCtrLimitEnabled readCtrMirror
  let piccData ← decodePiccData piccMetaNibble uidMirror readCtrMirror uidOffset ctrOffset
    piccEncOffset ⟨ctrLimit, ctrRet⟩
  let fileRead ← decodeFileRead fileReadKey macInput mac encRange
  Sdm.tryNewFromWire piccData fileRead ttOffset

/-- File settings as returned by `GetFileSettings`. -/
structure FileSettingsView where
  fileType : FileType
  fileSize : ℕ
  commMode : CommMode
  accessRights : AccessRights
  sdm : Option Sdm
deriving DecidableEq

/-- The bits of the file option byte that must be clear. -/
def fileOptionReserved : UInt8 := 0b10111100

/-- The bit of the file option byte that enables SDM. -/
def fileOptionSdm : UInt8 := 0x40

namespace FileSettingsView

/-- The decoder of a whole payload. -/
def decoder : Decoder FileSettingsView := do
  let fileTypeByte ← Cursor.u8
  let fileType ← FileType.fromByte fileTypeByte
  let fileOption ← Cursor.u8
  let arBytes ← Cursor.array 2
  let accessRights ← AccessRights.fromLeBytes (arBytes.byte 0) (arBytes.byte 1)
  let fileSize ← Cursor.u24Le
  if fileOption &&& fileOptionReserved ≠ 0 then
    throw (.reservedBitSet .fileOption (fileOption &&& fileOptionReserved))
  let sdm ← Cursor.readWhen (fileOption &&& fileOptionSdm != 0) decodeSdm
  let rest := (← MonadState.get).remaining
  if rest ≠ 0 then throw (.trailingBytes rest)
  return ⟨fileType, fileSize, .fromBits fileOption, accessRights, sdm⟩

/-- `FileSettingsView::decode`. -/
def decode (buf : List UInt8) : Except FileSettingsError FileSettingsView :=
  decoder.run' (Cursor.new buf)

/-- `FileSettingsView::factory`: the settings at delivery. -/
def factory (file : File) : FileSettingsView where
  fileType := .standardData
  fileSize := file.size
  commMode := match file with
    | .capabilityContainer | .ndef => .plain
    | .proprietary => .full
  accessRights := match file with
    | .capabilityContainer => ⟨.free, .key .key0, .key .key0, .key .key0⟩
    | .ndef => ⟨.free, .free, .free, .key .key0⟩
    | .proprietary => ⟨.key .key2, .key .key3, .key .key3, .key .key0⟩
  sdm := none

end FileSettingsView

/-! ### Encoding -/

/-- The data field of `ChangeFileSettings`. -/
structure FileSettingsUpdate where
  commMode : CommMode
  accessRights : AccessRights
  sdm : Option Sdm

/-- `MAX_CHANGE_FILE_SETTINGS_LEN`. -/
def maxChangeFileSettingsLen : ℕ := 1 + 2 + 1 + 2 + 9 * 3

namespace Sdm

/-- A bit of an option byte. -/
def optionBit (c : Bool) (mask : UInt8) : UInt8 := if c then mask else 0

/-- The SDM options byte. -/
def optionsByte (s : Sdm) : UInt8 :=
  optionBit s.piccData.includesUid 0x80 ||| optionBit s.piccData.includesRctr 0x40 |||
    optionBit s.piccData.readCtrLimit.isSome 0x20 |||
    optionBit (s.fileRead.bind FileRead.enc).isSome 0x10 |||
    optionBit s.tamperStatus.isSome 0x08 ||| 1

/-- The nibble of `SDMMetaRead`. -/
def piccNibble (s : Sdm) : UInt8 :=
  match s.piccData with
  | .none => 0xF
  | .plain _ => 0xE
  | .encrypted key _ _ => key.asByte

/-- The nibble of `SDMFileRead`. -/
def fileReadNibble (s : Sdm) : UInt8 :=
  match s.fileRead with
  | none => 0xF
  | some fr => fr.key.asByte

/-- The two SDM access-rights bytes, low byte first. -/
def accessBytes (s : Sdm) : List UInt8 :=
  [0xF0 ||| s.piccData.ctrRet.toNibble, s.piccNibble <<< 4 ||| s.fileReadNibble]

/-- The offsets of the identity mirrors, in wire order. -/
def piccOffsets (s : Sdm) : List ℕ :=
  match s.piccData with
  | .none => []
  | .plain (.uid uid) => [uid.val]
  | .plain (.rCtr readCtr) => [readCtr.offset.val]
  | .plain (.both uid readCtr) => [uid.val, readCtr.offset.val]
  | .encrypted _ offset _ => [offset.val]

/-- The offsets of the MAC window and the encrypted range, in wire order. -/
def fileReadOffsets (s : Sdm) : List ℕ :=
  match s.fileRead with
  | none => []
  | some fr =>
      fr.window.input.val :: (match fr.enc with
        | none => []
        | some enc => [enc.start.val, enc.length.val]) ++ [fr.window.mac.val]

/-- The 24-bit numbers of the SDM block, in wire order. -/
def wireNumbers (s : Sdm) : List ℕ :=
  s.piccOffsets ++ (s.tamperStatus.map Offset.val).toList ++ s.fileReadOffsets ++
    s.piccData.readCtrLimit.toList

/-- Write the SDM block. -/
def encode (s : Sdm) (w : WCursor) : Except FileSettingsError WCursor := do
  let w ← w.u8 s.optionsByte
  let w ← w.array s.accessBytes
  s.wireNumbers.foldlM (fun w v => w.u24Le v) w

/-- Write the SDM block of an update that has one. -/
def encodeOption : Option Sdm → WCursor → Except FileSettingsError WCursor
  | none, w => .ok w
  | some s, w => s.encode w

end Sdm

namespace FileSettingsUpdate

/-- `FileSettingsUpdate::new`: SDM disabled. -/
def new (commMode : CommMode) (accessRights : AccessRights) : FileSettingsUpdate :=
  ⟨commMode, accessRights, none⟩

/-- `with_sdm`. -/
def withSdm (u : FileSettingsUpdate) (sdm : Sdm) : FileSettingsUpdate := { u with sdm := some sdm }

/-- The file option byte. -/
def fileOption (u : FileSettingsUpdate) : UInt8 :=
  u.commMode.toBits ||| Sdm.optionBit u.sdm.isSome fileOptionSdm

/-- `FileSettingsUpdate::encode` into a buffer of `cap` bytes: the bytes written. -/
def encode (u : FileSettingsUpdate) (cap : ℕ) : Except FileSettingsError (List UInt8) := do
  let w ← (WCursor.new cap).u8 u.fileOption
  let w ← w.array u.accessRights.toLeBytes
  let w ← Sdm.encodeOption u.sdm w
  return w.out

end FileSettingsUpdate

/-- `FileSettingsView::into_update`. -/
def FileSettingsView.intoUpdate (v : FileSettingsView) : FileSettingsUpdate :=
  let patch := FileSettingsUpdate.new v.commMode v.accessRights
  match v.sdm with
  | some sdm => patch.withSdm sdm
  | none => patch

/-! ### What is written fits -/

theorem WCursor.cap_u24Le {v : ℕ} {w w' : WCursor} (h : w.u24Le v = .ok w') : w'.cap = w.cap := by
  unfold u24Le at h
  split at h
  · cases h
  · exact (array_eq_ok_iff.mp h).1

theorem WCursor.cap_foldlM {vs : List ℕ} {w w' : WCursor}
    (h : vs.foldlM (fun w v => w.u24Le v) w = .ok w') : w'.cap = w.cap := by
  induction vs generalizing w with
  | nil =>
      cases h
      rfl
  | cons v vs ih =>
      rw [List.foldlM_cons] at h
      obtain ⟨w₁, h₁, h₂⟩ := Except.bind_eq_ok_iff.mp h
      exact (ih h₂).trans (cap_u24Le h₁)

theorem Sdm.cap_encodeOption {s : Option Sdm} {w w' : WCursor}
    (h : Sdm.encodeOption s w = .ok w') : w'.cap = w.cap := by
  cases s with
  | none =>
      cases h
      rfl
  | some s =>
      simp only [encodeOption, encode, Except.bind_eq_ok_iff] at h
      obtain ⟨w₁, h₁, w₂, h₂, h₃⟩ := h
      rw [WCursor.cap_foldlM h₃, (WCursor.array_eq_ok_iff.mp h₂).1,
        (WCursor.array_eq_ok_iff.mp h₁).1]

namespace FileSettingsUpdate

/-- **An encoded update fits** the buffer it is written to. -/
theorem length_encode_le {u : FileSettingsUpdate} {cap : ℕ} {out : List UInt8}
    (h : u.encode cap = .ok out) : out.length ≤ cap := by
  simp only [encode, Except.bind_eq_ok_iff, Except.pure_eq_ok_iff] at h
  obtain ⟨w₁, h₁, w₂, h₂, w₃, h₃, rfl⟩ := h
  have hcap : w₃.cap = cap := by
    rw [Sdm.cap_encodeOption h₃, (WCursor.array_eq_ok_iff.mp h₂).1,
      (WCursor.array_eq_ok_iff.mp h₁).1]
    rfl
  exact hcap ▸ w₃.length_le

/-- Without SDM the encoding is the file option byte and the access rights. -/
theorem encode_of_no_sdm {u : FileSettingsUpdate} (h : u.sdm = none) :
    u.encode maxChangeFileSettingsLen = .ok (u.commMode.toBits :: u.accessRights.toLeBytes) := by
  obtain ⟨mode, rights, sdm⟩ := u
  obtain rfl : sdm = none := h
  simp [encode, Sdm.encodeOption, fileOption, Sdm.optionBit, WCursor.u8, WCursor.array, WCursor.new,
    maxChangeFileSettingsLen, AccessRights.toLeBytes]

end FileSettingsUpdate

end Ntag424
