import Mathlib.Tactic.Common
import Ntag424.Session.Session

/-!
# The Application of a Tag

What a conforming tag does with a command once secure messaging has been removed from it: it
accepts the command and answers, or refuses it with a status. The tag side is not part of the
crate. It is specified here from what the crate documents and relies on, and left as general
as that allows: an application is any state with any reaction to the commands, as long as its
answers have the documented lengths and its communication modes are those it reports.

## Modelling

* `AppCommand` is a command with its parameters as the tag sees them, `AppCommand.parse` reads
  one from the header and data of a native APDU.
* `TagApp` bundles the reactions of an application with the laws they obey. `TagApp.blank` is
  the smallest one.
-/

namespace Ntag424

open Numerals

/-- The statuses with which a tag refuses a command. -/
inductive TagError where
  | illegalCommandCode
  | integrityError
  | noSuchKey
  | lengthError
  | permissionDenied
  | parameterError
  | authenticationDelay
  | authenticationError
  | boundaryError
  | commandAborted
  | memoryError
  | fileNotFound
deriving DecidableEq, Repr

namespace TagError

/-- The second status byte. -/
def sw2 : TagError → UInt8
  | illegalCommandCode => 0x1C
  | integrityError => 0x1E
  | noSuchKey => 0x40
  | lengthError => 0x7E
  | permissionDenied => 0x9D
  | parameterError => 0x9E
  | authenticationDelay => 0xAD
  | authenticationError => 0xAE
  | boundaryError => 0xBE
  | commandAborted => 0xCA
  | memoryError => 0xEE
  | fileNotFound => 0xF0

/-- The response of a refused command. -/
def response (e : TagError) : Response := ⟨[], 0x91, e.sw2⟩

/-- What the host makes of the status. -/
def status (e : TagError) : ResponseStatus := desfireStatus 0x91 e.sw2

/-- A refusal is neither a success nor a request for another frame. -/
theorem status_ne (e : TagError) : e.status ≠ .operationOk ∧ e.status ≠ .additionalFrame ∧
    e.status ≠ .unknown 0x9190 := by
  cases e <;> decide

end TagError

/-- A command as the application sees it. -/
inductive AppCommand where
  | getVersion
  | getCardUid
  | getTtStatus
  | readSig
  | getKeyVersion (keyNo : UInt8)
  | getFileSettings (fileNo : UInt8)
  | getFileCounters (fileNo : UInt8)
  | changeKey (keyNo : UInt8) (field : List UInt8)
  | setConfiguration (option : UInt8) (data : List UInt8)
  | changeFileSettings (fileNo : UInt8) (data : List UInt8)
  | readData (fileNo : UInt8) (offset length : ℕ)
  | writeData (fileNo : UInt8) (offset length : ℕ) (data : List UInt8)
deriving DecidableEq, Repr

namespace AppCommand

/-- The number of header bytes that follow an instruction code. -/
def headerLength (ins : UInt8) : Option ℕ :=
  match ins.toNat with
  | 0x60 | 0x51 | 0xF7 => some 0
  | 0x3C | 0x64 | 0xF5 | 0xF6 | 0xC4 | 0x5C | 0x5F => some 1
  | 0xAD | 0x8D => some 7
  | _ => none

/-- A code without a header is not that of a command. -/
theorem ne_of_headerLength {ins other : UInt8} {n : ℕ} (h : headerLength ins = some n)
    (hother : headerLength other = none) : ins ≠ other := by
  rintro rfl
  rw [hother] at h
  cases h

/-- The command of an instruction code, its header and its data. -/
def parse (ins : UInt8) (header data : List UInt8) : Option AppCommand :=
  match ins.toNat, header, data with
  | 0x60, [], [] => some getVersion
  | 0x51, [], [] => some getCardUid
  | 0xF7, [], [] => some getTtStatus
  | 0x3C, [_], [] => some readSig
  | 0x64, [keyNo], [] => some (getKeyVersion keyNo)
  | 0xF5, [fileNo], [] => some (getFileSettings fileNo)
  | 0xF6, [fileNo], [] => some (getFileCounters fileNo)
  | 0xC4, [keyNo], field => some (changeKey keyNo field)
  | 0x5C, [option], data => some (setConfiguration option data)
  | 0x5F, [fileNo], data => some (changeFileSettings fileNo data)
  | 0xAD, fileNo :: params, [] =>
      some (readData fileNo (ofLe (params.take 3)) (ofLe (params.drop 3)))
  | 0x8D, fileNo :: params, data =>
      some (writeData fileNo (ofLe (params.take 3)) (ofLe (params.drop 3)) data)
  | _, _, _ => none

/-- The documented lengths of an answer. -/
def AnswerLength : AppCommand → ℕ → Prop
  | getVersion, n => n = 7 + 7 + 14
  | getCardUid, n => n = 7
  | getTtStatus, n => n = 2
  | readSig, n => n = signatureLen
  | getKeyVersion _, n => n = 1
  | getFileCounters _, n => n = fileCountersLen
  | getFileSettings _, _ | readData .., _ => True
  | changeKey .., n | setConfiguration .., n | changeFileSettings .., n | writeData .., n => n = 0

/-- Commands that leave the settings of every file alone. -/
def KeepsModes : AppCommand → Prop
  | readData .. | writeData .. | getFileSettings _ => True
  | _ => False

end AppCommand

/-- The two directions of a file access. -/
inductive FileAccess where
  | read
  | write
deriving DecidableEq, Repr

/-- An application with states `A`. -/
structure TagApp (A : Type) where
  /-- The application keys. -/
  key : A → KeyNumber → Key
  /-- Whether the tag was switched to LRP mode. -/
  lrpMode : A → Bool
  /-- Draw the random of a handshake. -/
  rndB : A → Bytes 16 × A
  /-- Draw a transaction identifier. -/
  newTi : A → Bytes 4 × A
  /-- The capabilities of the tag. -/
  pdCap2 : A → Bytes 6
  /-- React to a command of a session authenticated with a key. -/
  exec : KeyNumber → AppCommand → A → Except TagError (List UInt8) × A
  /-- The communication mode in which a session must access a file. -/
  fileMode : A → KeyNumber → UInt8 → FileAccess → CommMode
  /-- Whether the read counter of a file is answered encrypted. -/
  countersEncrypted : A → UInt8 → Bool
  /-- Whether a configuration option is answered without a MAC. -/
  configurationSilent : A → UInt8 → Bool
  /-- Whether `Read_Sig` is answered with the status `91 90`. -/
  signatureStatus : A → Bool
  /-- Answers have the documented lengths. -/
  length_exec : ∀ {k c a d a'}, exec k c a = (.ok d, a') → c.AnswerLength d.length
  /-- Reading, writing and asking for settings changes no communication mode. -/
  fileMode_exec : ∀ {k c a}, c.KeepsModes → fileMode (exec k c a).2 = fileMode a
  /-- The reported settings of a file describe the modes in which it is accessed. -/
  fileMode_settings : ∀ {k} {file : File} {a d a' v},
    exec k (.getFileSettings file.fileNo) a = (.ok d, a') → FileSettingsView.decode d = .ok v →
    fileMode a k file.fileNo .read = v.readMode k ∧
      fileMode a k file.fileNo .write = v.writeMode k

/-- An application with all-zero keys and plain files that answers a key version and refuses
everything else. -/
def TagApp.blank : TagApp Unit where
  key _ _ := Bytes.zeros 16
  lrpMode _ := false
  rndB _ := (Bytes.zeros 16, ())
  newTi _ := (Bytes.zeros 4, ())
  pdCap2 _ := Bytes.zeros 6
  exec
    | _, .getKeyVersion _, _ => (.ok [0x00], ())
    | _, _, _ => (.error .permissionDenied, ())
  fileMode _ _ _ _ := .plain
  countersEncrypted _ _ := false
  configurationSilent _ _ := false
  signatureStatus _ := false
  length_exec {_ c _ _ _} h := by
    cases c with
    | getKeyVersion keyNo =>
        cases h
        rfl
    | _ => cases h
  fileMode_exec _ := rfl
  fileMode_settings h := nomatch h

/-- What `TagApp.answering` answers when it is asked about the tag: zeros of the documented
length. -/
def AppCommand.zeroAnswer : AppCommand → Option (List UInt8)
  | getVersion => some (List.replicate 28 0x00)
  | getCardUid => some (List.replicate 7 0x00)
  | getTtStatus => some (List.replicate 2 0x00)
  | getKeyVersion _ => some [0x00]
  | _ => none

/-- An application with all-zero keys and plain files that answers what it is asked about the tag
and refuses everything else. -/
def TagApp.answering : TagApp Unit where
  key _ _ := Bytes.zeros 16
  lrpMode _ := false
  rndB _ := (Bytes.zeros 16, ())
  newTi _ := (Bytes.zeros 4, ())
  pdCap2 _ := Bytes.zeros 6
  exec _ c _ := (c.zeroAnswer.elim (.error .permissionDenied) .ok, ())
  fileMode _ _ _ _ := .plain
  countersEncrypted _ _ := false
  configurationSilent _ _ := false
  signatureStatus _ := false
  length_exec {_ c _ _ _} h := by
    obtain ⟨hd, -⟩ := Prod.mk.inj h
    cases c with
    | getVersion | getCardUid | getTtStatus | getKeyVersion =>
        cases hd
        rfl
    | _ => cases hd
  fileMode_exec _ := rfl
  fileMode_settings h := nomatch h

end Ntag424
