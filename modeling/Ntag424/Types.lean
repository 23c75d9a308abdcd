import Mathlib.Tactic.Common
import Ntag424.Lib.Bytes

/-!
# Keys, Files and Access Rights

The small data types that every layer of the crate shares: application keys, the three
standard data files, communication modes, access conditions and their nibble encoding, the
tag tamper status, and the errors of the file-settings types.

Each enumeration is an inductive type under the source's names. Conversions to wire bytes
and nibbles are the source's tables; conversions back are partial exactly where the source
returns an error.

## Main results

* `KeyNumber.ofNibble?_asByte`, `Access.fromNibble_toNibble`, `CtrRetAccess.fromNibble_toNibble`:
  the nibble tables are inverse to each other.
* `CommMode.fromBits_toBits`: the communication-mode bits are read back as written.
-/

namespace Ntag424

/-! ### Keys -/

/-- The five application keys (`types/key_number.rs`). -/
inductive KeyNumber where
  | key0
  | key1
  | key2
  | key3
  | key4
deriving DecidableEq, Repr

namespace KeyNumber

/-- The key number on the wire. -/
def asByte : KeyNumber → UInt8
  | key0 => 0x00
  | key1 => 0x01
  | key2 => 0x02
  | key3 => 0x03
  | key4 => 0x04

/-- The key named by a nibble, if it names one. -/
def ofNibble? (n : UInt8) : Option KeyNumber :=
  if n = 0x0 then some key0
  else if n = 0x1 then some key1
  else if n = 0x2 then some key2
  else if n = 0x3 then some key3
  else if n = 0x4 then some key4
  else none

@[simp] theorem ofNibble?_asByte (k : KeyNumber) : ofNibble? k.asByte = some k := by
  cases k <;> rfl

/-- Key numbers are told apart by their wire bytes. -/
theorem asByte_injective : Function.Injective asByte := by
  intro j k h
  have := congrArg ofNibble? h
  simpa using this

end KeyNumber

/-- The keys that `ChangeKey` may address besides the master key. -/
inductive NonMasterKeyNumber where
  | key1
  | key2
  | key3
  | key4
deriving DecidableEq, Repr

namespace NonMasterKeyNumber

/-- `impl From<NonMasterKeyNumber> for KeyNumber`. -/
def toKeyNumber : NonMasterKeyNumber → KeyNumber
  | key1 => .key1
  | key2 => .key2
  | key3 => .key3
  | key4 => .key4

/-- The key number on the wire. -/
def asByte (k : NonMasterKeyNumber) : UInt8 := k.toKeyNumber.asByte

/-- The master key is not a non-master key. -/
theorem toKeyNumber_ne_key0 (k : NonMasterKeyNumber) : k.toKeyNumber ≠ .key0 := by
  cases k <;> decide

theorem toKeyNumber_injective : Function.Injective toKeyNumber := by
  intro j k h
  cases j <;> cases k <;> first | rfl | cases h

end NonMasterKeyNumber

/-! ### Files -/

/-- The three files of the NDEF application (`types/file.rs`). -/
inductive File where
  | capabilityContainer
  | ndef
  | proprietary
deriving DecidableEq, Repr

namespace File

/-- The file number used by the native commands. -/
def fileNo : File → UInt8
  | capabilityContainer => 0x01
  | ndef => 0x02
  | proprietary => 0x03

/-- The ISO file identifier. -/
def fileId : File → ℕ
  | capabilityContainer => 0xE103
  | ndef => 0xE104
  | proprietary => 0xE105

/-- The short file identifier of `ISOReadBinary` and `ISOUpdateBinary`. -/
def shortFileId : File → UInt8
  | capabilityContainer => 0x01
  | ndef => 0x02
  | proprietary => 0x03

/-- The size of the file in bytes. -/
def size : File → ℕ
  | capabilityContainer => 32
  | ndef => 256
  | proprietary => 128

/-- The file a native file number addresses. -/
def ofFileNo? (b : UInt8) : Option File :=
  if b = 0x01 then some capabilityContainer
  else if b = 0x02 then some ndef
  else if b = 0x03 then some proprietary
  else none

@[simp] theorem ofFileNo?_fileNo (f : File) : ofFileNo? f.fileNo = some f := by
  cases f <;> rfl

end File

/-! ### File-settings errors -/

/-- Which nibble of the wire encoding failed to parse. -/
inductive NibbleSlot where
  | read
  | write
  | readWrite
  | change
  | sdmMetaRead
  | sdmFileRead
  | sdmCtrRet
deriving DecidableEq, Repr

/-- Which pair of SDM placeholders overlaps. -/
inductive OverlapKind where
  | uidAndRCtr
  | uidAndTamper
  | rCtrAndTamper
  | uidAndMac
  | rCtrAndMac
  | tamperAndMac
  | encAndUid
  | encAndRCtr
  | tamperInCiphertextHalf
  | piccAndTamper
  | piccAndMac
  | piccAndEnc
deriving DecidableEq, Repr

/-- Which option byte had reserved bits set. -/
inductive ReservedByte where
  | fileOption
  | sdmOptions
  | sdmAccessRights0
deriving DecidableEq, Repr

/-- Errors of the file-settings types (`types/file_settings/error.rs`). -/
inductive FileSettingsError where
  | bufferTooShort (needed have' : ℕ)
  | trailingBytes (n : ℕ)
  | unknownFileType (b : UInt8)
  | invalidAccessNibble (slot : NibbleSlot) (value : UInt8)
  | offsetOutOfRange (v : ℕ)
  | encLengthInvalid (v : ℕ)
  | macInputAfterMac
  | encOutsideMacWindow
  | reservedBitSet (byte : ReservedByte) (mask : UInt8)
  | encRequiresBothMirrors
  | mirrorsOverlap (kind : OverlapKind)
  | invalidSdmFlags
deriving DecidableEq, Repr

/-! ### Access conditions -/

/-- Communication mode of a file (`types/file_settings/access.rs`). -/
inductive CommMode where
  | plain
  | mac
  | full
deriving DecidableEq, Repr

namespace CommMode

/-- The mode encoded in the two low bits; both other patterns read as plain. -/
def fromBits (b : UInt8) : CommMode :=
  if b &&& 0b11 = 0b01 then mac
  else if b &&& 0b11 = 0b11 then full
  else plain

/-- The two mode bits. -/
def toBits : CommMode → UInt8
  | plain => 0b00
  | mac => 0b01
  | full => 0b11

@[simp] theorem fromBits_toBits (m : CommMode) : fromBits m.toBits = m := by
  cases m <;> rfl

end CommMode

/-- An access condition of a file. -/
inductive Access where
  | key (k : KeyNumber)
  | free
  | noAccess
deriving DecidableEq, Repr

namespace Access

/-- Decode an access nibble of the given slot. -/
def fromNibble (n : UInt8) (slot : NibbleSlot) : Except FileSettingsError Access :=
  match KeyNumber.ofNibble? n with
  | some k => .ok (key k)
  | none =>
      if n = 0xE then .ok free
      else if n = 0xF then .ok noAccess
      else .error (.invalidAccessNibble slot n)

/-- The nibble of an access condition. -/
def toNibble : Access → UInt8
  | key k => k.asByte
  | free => 0xE
  | noAccess => 0xF

@[simp] theorem fromNibble_toNibble (a : Access) (slot : NibbleSlot) :
    fromNibble a.toNibble slot = .ok a := by
  cases a with
  | key k => cases k <;> rfl
  | free => rfl
  | noAccess => rfl

end Access

/-- Who may read the SDM read counter back. -/
inductive CtrRetAccess where
  | key (k : KeyNumber)
  | free
  | noAccess
deriving DecidableEq, Repr

namespace CtrRetAccess

/-- Decode the `SDMCtrRet` nibble. -/
def fromNibble (n : UInt8) : Except FileSettingsError CtrRetAccess :=
  match KeyNumber.ofNibble? n with
  | some k => .ok (key k)
  | none =>
      if n = 0xE then .ok free
      else if n = 0xF then .ok noAccess
      else .error (.invalidAccessNibble .sdmCtrRet n)

/-- The `SDMCtrRet` nibble. -/
def toNibble : CtrRetAccess → UInt8
  | key k => k.asByte
  | free => 0xE
  | noAccess => 0xF

@[simp] theorem fromNibble_toNibble (a : CtrRetAccess) : fromNibble a.toNibble = .ok a := by
  cases a with
  | key k => cases k <;> rfl
  | free => rfl
  | noAccess => rfl

end CtrRetAccess

/-- The four access conditions of a file. -/
structure AccessRights where
  read : Access
  write : Access
  readWrite : Access
  change : Access
deriving DecidableEq, Repr

namespace AccessRights

/-- Decode the two access-rights bytes, low byte first. -/
def fromLeBytes (b₀ b₁ : UInt8) : Except FileSettingsError AccessRights := do
  let read ← Access.fromNibble (b₁ >>> 4) .read
  let write ← Access.fromNibble (b₁ &&& 0xF) .write
  let readWrite ← Access.fromNibble (b₀ >>> 4) .readWrite
  let change ← Access.fromNibble (b₀ &&& 0xF) .change
  return { read, write, readWrite, change }

/-- The two access-rights bytes, low byte first. -/
def toLeBytes (a : AccessRights) : List UInt8 :=
  [a.readWrite.toNibble <<< 4 ||| a.change.toNibble, a.read.toNibble <<< 4 ||| a.write.toNibble]

end AccessRights

/-- The only file type the crate knows. -/
inductive FileType where
  | standardData
deriving DecidableEq, Repr

/-- Decode the file-type byte. -/
def FileType.fromByte (b : UInt8) : Except FileSettingsError FileType :=
  if b = 0x00 then .ok standardData else .error (.unknownFileType b)

/-! ### Tag tamper status -/

/-- State of the tamper loop (`types/tt_status.rs`). -/
inductive TagTamperStatus where
  | close
  | open
  | invalid
  | unknown (b : UInt8)
deriving DecidableEq, Repr

/-- `impl From<u8> for TagTamperStatus`. -/
def TagTamperStatus.ofByte (b : UInt8) : TagTamperStatus :=
  if b = 0x43 then close
  else if b = 0x4F then .open
  else if b = 0x49 then invalid
  else unknown b

/-- Permanent and current tamper status. -/
structure TagTamperStatusReadout where
  permanent : TagTamperStatus
  current : TagTamperStatus
deriving DecidableEq, Repr

/-- Build the readout from its two raw bytes. -/
def TagTamperStatusReadout.new (permanent current : UInt8) : TagTamperStatusReadout :=
  ⟨.ofByte permanent, .ofByte current⟩

end Ntag424
