import Mathlib.Logic.Function.Basic
import Mathlib.Tactic.Common
import Ntag424.Tag.App

/-!
# A Tag Whose Keys and Settings Change

What a conforming tag makes of the commands that administer it. Its keys, the settings of its
files and its mode are its `Setup`. The laws say how each command changes the setup and when it is
accepted; the rest of the tag is left open.

## Modelling

* `ChangeKey` of another key than the master key recovers the new key from the exclusive or with
  the key the tag holds, and accepts it if its checksum is the one sent.
* A session that may change the settings of a file may restore those of delivery.
* `TagApp.administered` is an application whose whole state is its setup.
-/

namespace Ntag424

/-- A right that a session of a key has. -/
def Access.Admits (right : Access) (keyNumber : KeyNumber) : Prop :=
  right = .free ∨ right = .key keyNumber

instance (right : Access) (keyNumber : KeyNumber) : Decidable (right.Admits keyNumber) := by
  unfold Access.Admits
  infer_instance

/-- A session of a key may write the file. -/
def FileSettingsView.Writable (v : FileSettingsView) (keyNumber : KeyNumber) : Prop :=
  v.accessRights.write.Admits keyNumber ∨ v.accessRights.readWrite.Admits keyNumber

instance (v : FileSettingsView) (keyNumber : KeyNumber) : Decidable (v.Writable keyNumber) := by
  unfold FileSettingsView.Writable
  infer_instance

/-- The key that the tag recovers from the field of `ChangeKey`. -/
def recoveredKey (field : List UInt8) (current : Key) : Key :=
  (Bytes.fill 16 (field.take 16)).xor current

/-! ### The setup of a tag -/

/-- Keys, file settings and mode of a tag. -/
structure Setup where
  keys : KeyNumber → Key
  settings : File → FileSettingsView
  lrpMode : Bool

namespace Setup

/-- Another key. -/
def withKey (setup : Setup) (keyNumber : KeyNumber) (key : Key) : Setup :=
  { setup with keys := Function.update setup.keys keyNumber key }

/-- The settings of a file are those of delivery. -/
def restored (setup : Setup) (file : File) : Setup :=
  { setup with settings := Function.update setup.settings file (.factory file) }

variable {setup : Setup}

@[simp] theorem withKey_keys_self (k : KeyNumber) (key : Key) :
    (setup.withKey k key).keys k = key := Function.update_self ..

theorem withKey_keys_of_ne {j k : KeyNumber} (h : j ≠ k) (key : Key) :
    (setup.withKey k key).keys j = setup.keys j := Function.update_of_ne h ..

@[simp] theorem withKey_settings (k : KeyNumber) (key : Key) :
    (setup.withKey k key).settings = setup.settings := rfl

@[simp] theorem restored_keys (file : File) : (setup.restored file).keys = setup.keys := rfl

@[simp] theorem restored_settings_self (file : File) :
    (setup.restored file).settings file = .factory file := Function.update_self ..

theorem restored_settings_of_ne {file other : File} (h : other ≠ file) :
    (setup.restored file).settings other = setup.settings other := Function.update_of_ne h ..

end Setup

/-! ### The laws -/

namespace TagApp

variable {A : Type}

/-- An application that conforms to the documentation of the commands that administer it. -/
structure Administered (app : TagApp A) (setup : A → Setup) : Prop where
  key : ∀ a, app.key a = (setup a).keys
  lrpMode : ∀ a, app.lrpMode a = (setup a).lrpMode
  fileMode : ∀ a k (file : File),
    app.fileMode a k file.fileNo .write = ((setup a).settings file).writeMode k
  /-- Drawing randoms changes nothing else. -/
  rndB : ∀ a, setup (app.rndB a).2 = setup a
  newTi : ∀ a, setup (app.newTi a).2 = setup a
  /-- Restoring the settings of a file. -/
  changeFileSettings : ∀ {a k file raw}, ((setup a).settings file).accessRights.change.Admits k →
    (FileSettingsView.factory file).intoUpdate.encode maxChangeFileSettingsLen = .ok raw →
    ∃ a', app.exec k (.changeFileSettings file.fileNo raw) a = (.ok [], a') ∧
      setup a' = (setup a).restored file
  /-- Writing within a file. -/
  writeData : ∀ {a k file offset data}, ((setup a).settings file).Writable k →
    offset + data.length ≤ file.size →
    ∃ a', app.exec k (.writeData file.fileNo offset data.length data) a = (.ok [], a') ∧
      setup a' = setup a
  /-- Case 1 of `ChangeKey`, with a checksum that matches. -/
  changeKey : ∀ {a} {keyNo : NonMasterKeyNumber} {field}, field.length = 21 →
    crc32 (recoveredKey field ((setup a).keys keyNo.toKeyNumber)).toList = field.drop 17 →
    ∃ a', app.exec .key0 (.changeKey keyNo.toKeyNumber.asByte field) a = (.ok [], a') ∧
      setup a' = (setup a).withKey keyNo.toKeyNumber
        (recoveredKey field ((setup a).keys keyNo.toKeyNumber))
  /-- Case 1 of `ChangeKey`, with a checksum that does not match. -/
  changeKey_refused : ∀ {a} {keyNo : NonMasterKeyNumber} {field}, field.length = 21 →
    crc32 (recoveredKey field ((setup a).keys keyNo.toKeyNumber)).toList ≠ field.drop 17 →
    ∃ e, app.exec .key0 (.changeKey keyNo.toKeyNumber.asByte field) a = (.error e, a)
  /-- Case 2 of `ChangeKey`. -/
  changeMasterKey : ∀ {a field}, field.length = 17 →
    ∃ a', app.exec .key0 (.changeKey KeyNumber.key0.asByte field) a = (.ok [], a') ∧
      setup a' = (setup a).withKey .key0 (Bytes.fill 16 (field.take 16))

end TagApp

/-! ### An application that obeys them -/

namespace Setup

/-- `ChangeKey` in a session of the master key. -/
def changeKey (setup : Setup) (keyNumber : KeyNumber) (field : List UInt8) :
    Except TagError Setup :=
  if keyNumber = .key0 then
    if field.length = 17 then .ok (setup.withKey .key0 (Bytes.fill 16 (field.take 16)))
    else .error .lengthError
  else if field.length ≠ 21 then .error .lengthError
  else
    let newKey := recoveredKey field (setup.keys keyNumber)
    if crc32 newKey.toList = field.drop 17 then .ok (setup.withKey keyNumber newKey)
    else .error .integrityError

/-- `ChangeFileSettings`, back to those of delivery. -/
def changeFileSettings (setup : Setup) (k : KeyNumber) (file : File) (raw : List UInt8) :
    Except TagError Setup :=
  if ¬ (setup.settings file).accessRights.change.Admits k then .error .permissionDenied
  else if (FileSettingsView.factory file).intoUpdate.encode maxChangeFileSettingsLen = .ok raw then
    .ok (setup.restored file)
  else .error .parameterError

/-- `WriteData`. The content of the files is left out. -/
def writeData (setup : Setup) (k : KeyNumber) (file : File) (offset length : ℕ)
    (data : List UInt8) : Except TagError Setup :=
  if ¬ (setup.settings file).Writable k then .error .permissionDenied
  else if length = data.length ∧ offset + length ≤ file.size then .ok setup
  else .error .boundaryError

/-- What a command makes of the setup. -/
def after (setup : Setup) (k : KeyNumber) : AppCommand → Except TagError Setup
  | .changeKey keyNo field =>
      match KeyNumber.ofNibble? keyNo with
      | some keyNumber =>
          if k = .key0 then setup.changeKey keyNumber field else .error .permissionDenied
      | none => .error .noSuchKey
  | .changeFileSettings fileNo raw =>
      match File.ofFileNo? fileNo with
      | some file => setup.changeFileSettings k file raw
      | none => .error .fileNotFound
  | .writeData fileNo offset length data =>
      match File.ofFileNo? fileNo with
      | some file => setup.writeData k file offset length data
      | none => .error .fileNotFound
  | _ => .error .permissionDenied

/-- Writing keeps the setup. -/
theorem after_writeData {setup setup' : Setup} {k : KeyNumber} {fileNo : UInt8} {offset length : ℕ}
    {data : List UInt8} (h : setup.after k (.writeData fileNo offset length data) = .ok setup') :
    setup' = setup := by
  simp only [after, writeData] at h
  split at h
  · split at h
    · cases h
    · split at h
      · exact (Except.ok.inj h).symm
      · cases h
  · cases h

/-- A command that is accepted has an empty answer. A refused one changes nothing. -/
def exec (setup : Setup) (k : KeyNumber) (c : AppCommand) :
    Except TagError (List UInt8) × Setup :=
  match setup.after k c with
  | .ok setup' => (.ok [], setup')
  | .error e => (.error e, setup)

/-- An accepted command is answered without data and changes the setup. -/
theorem exec_of_ok {setup setup' : Setup} {k : KeyNumber} {c : AppCommand}
    (h : setup.after k c = .ok setup') : setup.exec k c = (.ok [], setup') := by
  rw [exec, h]

/-- A refused command changes nothing. -/
theorem exec_of_error {setup : Setup} {k : KeyNumber} {c : AppCommand} {e : TagError}
    (h : setup.after k c = .error e) : setup.exec k c = (.error e, setup) := by
  rw [exec, h]

/-- No command is answered with data. -/
theorem eq_nil_of_exec {setup setup' : Setup} {k : KeyNumber} {c : AppCommand} {d : List UInt8}
    (h : setup.exec k c = (.ok d, setup')) : d = [] := by
  rw [exec] at h
  split at h
  · cases h
    rfl
  · cases h

end Setup

/-- An application whose state is its setup. It draws the same randoms again and again. -/
def TagApp.administered : TagApp Setup where
  key setup := setup.keys
  lrpMode setup := setup.lrpMode
  rndB setup := (Bytes.zeros 16, setup)
  newTi setup := (Bytes.zeros 4, setup)
  pdCap2 _ := Bytes.zeros 6
  exec k c setup := setup.exec k c
  fileMode setup k fileNo access :=
    match File.ofFileNo? fileNo, access with
    | some file, .read => (setup.settings file).readMode k
    | some file, .write => (setup.settings file).writeMode k
    | none, _ => .plain
  countersEncrypted _ _ := false
  configurationSilent _ _ := false
  signatureStatus _ := false
  length_exec {_ c _ _ _} h := by
    cases c with
    | changeKey keyNo field =>
        rw [Setup.eq_nil_of_exec h]
        rfl
    | changeFileSettings fileNo raw =>
        rw [Setup.eq_nil_of_exec h]
        rfl
    | writeData fileNo offset length data =>
        rw [Setup.eq_nil_of_exec h]
        rfl
    | _ => cases h
  fileMode_exec {k c setup} hc := by
    cases c with
    | writeData fileNo offset length data =>
        have hsame : (setup.exec k (.writeData fileNo offset length data)).2 = setup := by
          rw [Setup.exec]
          split
          · rename_i h
            exact Setup.after_writeData h
          · rfl
        rw [hsame]
    | readData fileNo offset length => rfl
    | getFileSettings fileNo => rfl
    | _ => cases hc
  fileMode_settings h := nomatch h

/-- It obeys the laws. -/
theorem TagApp.administered_lawful : TagApp.administered.Administered id where
  key _ := rfl
  lrpMode _ := rfl
  fileMode _ _ file := by simp only [administered, File.ofFileNo?_fileNo, id]
  rndB _ := rfl
  newTi _ := rfl
  changeFileSettings {setup k file raw} hchange hraw := by
    refine ⟨_, Setup.exec_of_ok ?_, rfl⟩
    simp only [Setup.after, File.ofFileNo?_fileNo, Setup.changeFileSettings]
    exact (if_neg (not_not.mpr hchange)).trans (if_pos hraw)
  writeData {setup k file offset data} hwritable hsize := by
    refine ⟨_, Setup.exec_of_ok ?_, rfl⟩
    simp only [Setup.after, File.ofFileNo?_fileNo, Setup.writeData]
    exact (if_neg (not_not.mpr hwritable)).trans (if_pos ⟨trivial, hsize⟩)
  changeKey {setup keyNo field} hlen hcrc := by
    refine ⟨_, Setup.exec_of_ok ?_, rfl⟩
    simp only [Setup.after, KeyNumber.ofNibble?_asByte, if_true, Setup.changeKey,
      if_neg keyNo.toKeyNumber_ne_key0, if_neg (not_not.mpr hlen)]
    exact if_pos hcrc
  changeKey_refused {setup keyNo field} hlen hcrc := by
    refine ⟨.integrityError, Setup.exec_of_error ?_⟩
    simp only [Setup.after, KeyNumber.ofNibble?_asByte, if_true, Setup.changeKey,
      if_neg keyNo.toKeyNumber_ne_key0, if_neg (not_not.mpr hlen)]
    exact if_neg hcrc
  changeMasterKey {setup field} hlen := by
    refine ⟨_, Setup.exec_of_ok ?_, rfl⟩
    simp only [Setup.after, KeyNumber.ofNibble?_asByte, if_true, Setup.changeKey]
    exact if_pos hlen

end Ntag424
