import Mathlib.Logic.Function.Basic
import Mathlib.Tactic.Common
import Ntag424.FileSettings.Rewrite
import Ntag424.Session.Unauthenticated
import Ntag424.Tag.Administered

/-!
# The Profile of a Tag

Everything of a tag that provisioning and resetting it depend on: its setup, the versions of its
keys, the contents of its files, its identity and the features that were enabled. The laws of
`TagApp.Documented` say what each command of the crate does to the profile and when it is accepted;
what the tag does besides is left open.

## Modelling

* The size of a file is part of the type of its contents.
* `ChangeFileSettings` accepts the data field that would be reported back as settings of the file.
* A configuration option is in the laws if the crate documents what it enables in the profile.
* `TagApp.stored` is an application that obeys the laws: its state is a profile and, for each file,
  a payload that reports the settings.

## Main results

* `TagApp.Documented.administered`: a tag of these laws obeys those of its setup.
* `TagApp.stored_documented`: there is one.
-/

namespace Ntag424

open Numerals

/-! ### Profiles -/

/-- A session of a key may read the file. -/
def FileSettingsView.Readable (v : FileSettingsView) (keyNumber : KeyNumber) : Prop :=
  v.accessRights.read.Admits keyNumber ∨ v.accessRights.readWrite.Admits keyNumber

instance (v : FileSettingsView) (keyNumber : KeyNumber) : Decidable (v.Readable keyNumber) := by
  unfold FileSettingsView.Readable
  infer_instance

/-- The communication mode in which a session of a key accesses the file. -/
def FileSettingsView.modeOf (v : FileSettingsView) (keyNumber : KeyNumber) :
    FileAccess → CommMode
  | .read => v.readMode keyNumber
  | .write => v.writeMode keyNumber

/-- The frames of a version. -/
def Version.toList (v : Version) : List UInt8 :=
  v.part1.toList ++ v.part2.toList ++ v.part3.toList

/-- What a tag is, as far as provisioning and resetting it depend on it. -/
@[ext] structure Profile extends Setup where
  keyVersions : KeyNumber → UInt8
  contents : (file : File) → Bytes file.size
  uid : Bytes 7
  signature : Bytes signatureLen
  version : Version
  randomUid : Bool
  /-- Who may ask for the tag-tamper status, once the feature is enabled. -/
  tamperAccess : Option Access
  /-- The tag-tamper status, once the feature is enabled. -/
  tamperStatus : Bytes 2

namespace Profile

variable {c : Profile}

/-- Another key, with its version. -/
def changedKey (c : Profile) (keyNumber : KeyNumber) (key : Key) (version : UInt8) : Profile :=
  { c with
    keys := Function.update c.keys keyNumber key
    keyVersions := Function.update c.keyVersions keyNumber version }

/-- Other settings of a file. -/
def withSettings (c : Profile) (file : File) (v : FileSettingsView) : Profile :=
  { c with settings := Function.update c.settings file v }

/-- A file after a write. -/
def written (c : Profile) (file : File) (offset : ℕ) (data : List UInt8) : Profile :=
  { c with
    contents := Function.update c.contents file
      (Bytes.fill file.size (overlay (c.contents file).toList offset data)) }

/-- The right behind an access nibble. -/
def accessOfNibble (n : UInt8) : Option Access :=
  match Access.fromNibble n .read with
  | .ok access => some access
  | .error _ => none

/-- The profile after a configuration option: random UIDs, LRP mode, tag tampering. -/
def configured (c : Profile) (option : UInt8) (data : List UInt8) : Option Profile :=
  match option.toNat, data with
  | 0x00, [picc] => some { c with randomUid := c.randomUid || picc &&& 0x02 != 0 }
  | 0x05, data =>
      if data.length = 10 then some { c with lrpMode := c.lrpMode || data.getD 4 0 &&& 0x02 != 0 }
      else none
  | 0x07, [0x01, access] =>
      if c.version.hasTagTamperSupport then
        (accessOfNibble access).map fun access => { c with tamperAccess := some access }
      else none
  | _, _ => none

/-- The profile after several configuration options. -/
def configuredAll (c : Profile) : List (UInt8 × List UInt8) → Option Profile
  | [] => some c
  | o :: options => (c.configured o.1 o.2).bind fun c' => c'.configuredAll options

/-- No option changes the settings of files. -/
theorem settings_configured {c' : Profile} {option : UInt8} {data : List UInt8}
    (h : c.configured option data = some c') : c'.settings = c.settings := by
  unfold configured at h
  split at h
  · cases h
    rfl
  · split at h
    · cases h
      rfl
    · cases h
  · split at h
    · obtain ⟨access, -, rfl⟩ := Option.map_eq_some_iff.mp h
      rfl
    · cases h
  · cases h

/-- The tag-tamper status that a session may read: invalid as long as the feature is not
enabled. -/
def tamperReport (c : Profile) (k : KeyNumber) : Option (Bytes 2) :=
  if c.version.hasTagTamperSupport then
    match c.tamperAccess with
    | none => some ⟨[0x49, 0x49], rfl⟩
    | some access => if access.Admits k then some c.tamperStatus else none
  else none

@[simp] theorem changedKey_keys_self (k : KeyNumber) (key : Key) (version : UInt8) :
    (c.changedKey k key version).keys k = key := Function.update_self ..

@[simp] theorem changedKey_keyVersions_self (k : KeyNumber) (key : Key) (version : UInt8) :
    (c.changedKey k key version).keyVersions k = version := Function.update_self ..

theorem changedKey_keys_of_ne {j k : KeyNumber} (h : j ≠ k) (key : Key) (version : UInt8) :
    (c.changedKey k key version).keys j = c.keys j := Function.update_of_ne h ..

@[simp] theorem withSettings_settings_self (file : File) (v : FileSettingsView) :
    (c.withSettings file v).settings file = v := Function.update_self ..

theorem withSettings_settings_of_ne {file other : File} (h : other ≠ file)
    (v : FileSettingsView) : (c.withSettings file v).settings other = c.settings other :=
  Function.update_of_ne h ..

theorem written_contents_of_ne {file other : File} (h : other ≠ file) (offset : ℕ)
    (data : List UInt8) : (c.written file offset data).contents other = c.contents other :=
  Function.update_of_ne h ..

theorem toSetup_written (file : File) (offset : ℕ) (data : List UInt8) :
    (c.written file offset data).toSetup = c.toSetup := rfl

/-- The content of a file after a write within it. -/
theorem written_contents_self {file : File} {offset : ℕ} {data : List UInt8}
    (h : offset + data.length ≤ file.size) :
    ((c.written file offset data).contents file).toList =
      overlay (c.contents file).toList offset data := by
  have hlen : (c.contents file).toList.length = file.size := Bytes.length_toList _
  have hfill : (overlay (c.contents file).toList offset data).length = file.size := by
    rw [length_overlay (by rwa [hlen]), hlen]
  simp only [written, Function.update_self]
  exact Bytes.toList_fill_of_length hfill

/-- Writing nothing changes nothing. -/
theorem written_nil (file : File) (offset : ℕ) : c.written file offset [] = c := by
  have hsame : overlay (c.contents file).toList offset [] = (c.contents file).toList := by
    rw [overlay, List.append_nil, List.length_nil, Nat.add_zero, List.take_append_drop]
  rw [written, hsame, Bytes.fill_toList, Function.update_eq_self]

/-- Two writes that adjoin are one. -/
theorem written_written {file : File} {offset : ℕ} {data data' : List UInt8}
    (h : offset + (data ++ data').length ≤ file.size) :
    (c.written file offset data).written file (offset + data.length) data' =
      c.written file offset (data ++ data') := by
  have hlen : (c.contents file).toList.length = file.size := Bytes.length_toList _
  have hfirst : offset + data.length ≤ file.size := by
    rw [List.length_append] at h
    omega
  have hcontents := written_contents_self (c := c) hfirst
  unfold written at hcontents ⊢
  simp only [Function.update_self] at hcontents ⊢
  rw [List.length_append] at h
  rw [hcontents, overlay_overlay_append (by omega), Function.update_idem]

/-- A longer write from the start of a file covers a shorter one. -/
theorem written_zero_written_zero {file : File} {data data' : List UInt8}
    (h : data.length ≤ data'.length) (h' : data'.length ≤ file.size) :
    (c.written file 0 data).written file 0 data' = c.written file 0 data' := by
  have hfirst : 0 + data.length ≤ file.size := by omega
  have hcontents := written_contents_self (c := c) hfirst
  have hover : overlay (overlay (c.contents file).toList 0 data) 0 data' =
      overlay (c.contents file).toList 0 data' := by
    rw [overlay_zero, overlay_zero, overlay_zero, List.drop_append, List.drop_eq_nil_of_le h,
      List.nil_append, List.drop_drop, Nat.add_sub_cancel' h]
  unfold written at hcontents ⊢
  simp only [Function.update_self] at hcontents ⊢
  rw [hcontents, hover, Function.update_idem]

end Profile

/-! ### The laws -/

namespace TagApp

variable {A : Type}

/-- A command is accepted with an answer, and leads to a profile. -/
def Performs (app : TagApp A) (profile : A → Profile) (k : KeyNumber) (cmd : AppCommand) (a : A)
    (d : List UInt8) (c : Profile) : Prop :=
  ∃ a', app.exec k cmd a = (.ok d, a') ∧ profile a' = c

/-- An application that conforms to the documentation of the commands of the crate. -/
structure Documented (app : TagApp A) (profile : A → Profile) : Prop where
  key : ∀ a, app.key a = (profile a).keys
  lrpMode : ∀ a, app.lrpMode a = (profile a).lrpMode
  fileMode : ∀ a k (file : File) (access : FileAccess),
    app.fileMode a k file.fileNo access = ((profile a).settings file).modeOf k access
  /-- Drawing randoms changes nothing else. -/
  rndB : ∀ a, profile (app.rndB a).2 = profile a
  newTi : ∀ a, profile (app.newTi a).2 = profile a
  getVersion : ∀ a k, app.Performs profile k .getVersion a (profile a).version.toList (profile a)
  getCardUid : ∀ a k, app.Performs profile k .getCardUid a (profile a).uid.toList (profile a)
  readSig : ∀ a k, app.Performs profile k .readSig a (profile a).signature.toList (profile a)
  getKeyVersion : ∀ a k (keyNo : KeyNumber),
    app.Performs profile k (.getKeyVersion keyNo.asByte) a [(profile a).keyVersions keyNo]
      (profile a)
  getTtStatus : ∀ {a k d}, (profile a).tamperReport k = some d →
    app.Performs profile k .getTtStatus a d.toList (profile a)
  getFileSettings : ∀ a k (file : File), ∃ d,
    FileSettingsView.decode d = .ok ((profile a).settings file) ∧
      app.Performs profile k (.getFileSettings file.fileNo) a d (profile a)
  setConfiguration : ∀ {a option data c}, (profile a).configured option data = some c →
    app.Performs profile .key0 (.setConfiguration option data) a [] c
  changeFileSettings : ∀ {a k} {file : File} {raw v},
    ((profile a).settings file).accessRights.change.Admits k →
    FileSettingsView.decode (payloadWith raw file.size) = .ok v →
    app.Performs profile k (.changeFileSettings file.fileNo raw) a []
      ((profile a).withSettings file v)
  /-- A length of zero, which asks for the rest of the file, is left open. -/
  readData : ∀ {a k} {file : File} {offset length}, ((profile a).settings file).Readable k →
    length ≠ 0 → offset + length ≤ file.size →
    app.Performs profile k (.readData file.fileNo offset length) a
      (slice ((profile a).contents file).toList offset length) (profile a)
  writeData : ∀ {a k} {file : File} {offset data}, ((profile a).settings file).Writable k →
    offset + data.length ≤ file.size →
    app.Performs profile k (.writeData file.fileNo offset data.length data) a []
      ((profile a).written file offset data)
  /-- Case 1 of `ChangeKey`, with a checksum that matches. -/
  changeKey : ∀ {a} {keyNo : NonMasterKeyNumber} {field}, field.length = 21 →
    crc32 (recoveredKey field ((profile a).keys keyNo.toKeyNumber)).toList = field.drop 17 →
    app.Performs profile .key0 (.changeKey keyNo.toKeyNumber.asByte field) a []
      ((profile a).changedKey keyNo.toKeyNumber
        (recoveredKey field ((profile a).keys keyNo.toKeyNumber)) (field.getD 16 0))
  /-- Case 1 of `ChangeKey`, with a checksum that does not match. -/
  changeKey_refused : ∀ {a} {keyNo : NonMasterKeyNumber} {field}, field.length = 21 →
    crc32 (recoveredKey field ((profile a).keys keyNo.toKeyNumber)).toList ≠ field.drop 17 →
    ∃ e, app.exec .key0 (.changeKey keyNo.toKeyNumber.asByte field) a = (.error e, a)
  /-- Case 2 of `ChangeKey`. -/
  changeMasterKey : ∀ {a field}, field.length = 17 →
    app.Performs profile .key0 (.changeKey KeyNumber.key0.asByte field) a []
      ((profile a).changedKey .key0 (Bytes.fill 16 (field.take 16)) (field.getD 16 0))

/-- A tag refuses to report a tamper status that the key of the session may not read. This is no
law of `Documented`, since only the factory check asks for a status without knowing. -/
def GuardsTamperStatus (app : TagApp A) (profile : A → Profile) : Prop :=
  ∀ {a k}, (profile a).version.hasTagTamperSupport = true → (profile a).tamperReport k = none →
    ∃ e a', app.exec k .getTtStatus a = (.error e, a') ∧ profile a' = profile a

/-- The settings of delivery are what their update decodes into. -/
theorem decode_factory {file : File} {raw : List UInt8}
    (h : (FileSettingsView.factory file).intoUpdate.encode maxChangeFileSettingsLen = .ok raw) :
    FileSettingsView.decode (payloadWith raw file.size) = .ok (.factory file) := by
  have hsize : file.size < 2 ^ 24 := by cases file <;> decide
  rw [FileSettingsUpdate.decode_payloadWith hsize h]
  rfl

/-- **A tag of these laws** obeys those of its setup. -/
theorem Documented.administered {app : TagApp A} {profile : A → Profile}
    (h : app.Documented profile) : app.Administered fun a => (profile a).toSetup where
  key := h.key
  lrpMode := h.lrpMode
  fileMode a k file := h.fileMode a k file .write
  rndB a := congrArg Profile.toSetup (h.rndB a)
  newTi a := congrArg Profile.toSetup (h.newTi a)
  changeFileSettings hchange hraw := by
    obtain ⟨a', hexec, hprofile⟩ := h.changeFileSettings hchange (decode_factory hraw)
    exact ⟨a', hexec, congrArg Profile.toSetup hprofile⟩
  writeData hwritable hsize := by
    obtain ⟨a', hexec, hprofile⟩ := h.writeData hwritable hsize
    exact ⟨a', hexec, (congrArg Profile.toSetup hprofile).trans (Profile.toSetup_written ..)⟩
  changeKey hlen hcrc := by
    obtain ⟨a', hexec, hprofile⟩ := h.changeKey hlen hcrc
    exact ⟨a', hexec, congrArg Profile.toSetup hprofile⟩
  changeKey_refused hlen hcrc := h.changeKey_refused hlen hcrc
  changeMasterKey hlen := by
    obtain ⟨a', hexec, hprofile⟩ := h.changeMasterKey hlen
    exact ⟨a', hexec, congrArg Profile.toSetup hprofile⟩

end TagApp

/-! ### An application that obeys them -/

/-- A profile, with the payloads that report the settings of its files. -/
structure StoredProfile where
  profile : Profile
  payload : File → List UInt8
  decode_payload : ∀ file, FileSettingsView.decode (payload file) = .ok (profile.settings file)

namespace StoredProfile

/-- The settings stay as they are. -/
def withProfile (s : StoredProfile) (c : Profile) (h : c.settings = s.profile.settings) :
    StoredProfile := ⟨c, s.payload, fun file => by rw [h]; exact s.decode_payload file⟩

/-- Other settings of a file, with their payload. -/
def withSettings (s : StoredProfile) (file : File) {p : List UInt8} {v : FileSettingsView}
    (h : FileSettingsView.decode p = .ok v) : StoredProfile where
  profile := s.profile.withSettings file v
  payload := Function.update s.payload file p
  decode_payload other := by
    by_cases hother : other = file
    · subst hother
      rw [Function.update_self, Profile.withSettings_settings_self, h]
    · rw [Function.update_of_ne hother, Profile.withSettings_settings_of_ne hother,
        s.decode_payload]

/-- `ChangeKey` in a session of the master key. -/
def changeKey (s : StoredProfile) (keyNumber : KeyNumber) (field : List UInt8) :
    Except TagError StoredProfile :=
  if keyNumber = .key0 then
    if field.length = 17 then
      .ok (s.withProfile
        (s.profile.changedKey .key0 (Bytes.fill 16 (field.take 16)) (field.getD 16 0)) rfl)
    else .error .lengthError
  else if field.length ≠ 21 then .error .lengthError
  else
    let newKey := recoveredKey field (s.profile.keys keyNumber)
    if crc32 newKey.toList = field.drop 17 then
      .ok (s.withProfile (s.profile.changedKey keyNumber newKey (field.getD 16 0)) rfl)
    else .error .integrityError

/-- `SetConfiguration` in a session of the master key. -/
def setConfiguration (s : StoredProfile) (option : UInt8) (data : List UInt8) :
    Except TagError StoredProfile :=
  match h : s.profile.configured option data with
  | some c => .ok (s.withProfile c (Profile.settings_configured h))
  | none => .error .parameterError

/-- `ChangeFileSettings`. -/
def changeFileSettings (s : StoredProfile) (k : KeyNumber) (file : File) (raw : List UInt8) :
    Except TagError StoredProfile :=
  if ¬ (s.profile.settings file).accessRights.change.Admits k then .error .permissionDenied
  else
    match h : FileSettingsView.decode (payloadWith raw file.size) with
    | .ok _ => .ok (s.withSettings file h)
    | .error _ => .error .parameterError

/-- `WriteData`. -/
def writeData (s : StoredProfile) (k : KeyNumber) (file : File) (offset length : ℕ)
    (data : List UInt8) : Except TagError StoredProfile :=
  if ¬ (s.profile.settings file).Writable k then .error .permissionDenied
  else if length = data.length ∧ offset + length ≤ file.size then
    .ok (s.withProfile (s.profile.written file offset data) rfl)
  else .error .boundaryError

/-- `ReadData`. -/
def readData (s : StoredProfile) (k : KeyNumber) (file : File) (offset length : ℕ) :
    Except TagError (List UInt8) :=
  if ¬ (s.profile.settings file).Readable k then .error .permissionDenied
  else if length = 0 then .ok ((s.profile.contents file).toList.drop offset)
  else if offset + length ≤ file.size then
    .ok (slice (s.profile.contents file).toList offset length)
  else .error .boundaryError

/-- A command that changes nothing: its answer. -/
def answer (s : StoredProfile) (k : KeyNumber) : AppCommand → Except TagError (List UInt8)
  | .getVersion => .ok s.profile.version.toList
  | .getCardUid => .ok s.profile.uid.toList
  | .readSig => .ok s.profile.signature.toList
  | .getTtStatus =>
      match s.profile.tamperReport k with
      | some d => .ok d.toList
      | none => .error .permissionDenied
  | .getKeyVersion keyNo =>
      match KeyNumber.ofNibble? keyNo with
      | some keyNumber => .ok [s.profile.keyVersions keyNumber]
      | none => .error .noSuchKey
  | .getFileSettings fileNo =>
      match File.ofFileNo? fileNo with
      | some file => .ok (s.payload file)
      | none => .error .fileNotFound
  | .readData fileNo offset length =>
      match File.ofFileNo? fileNo with
      | some file => s.readData k file offset length
      | none => .error .fileNotFound
  | _ => .error .permissionDenied

/-- A command that changes the profile: the state it leads to. -/
def after (s : StoredProfile) (k : KeyNumber) : AppCommand → Except TagError StoredProfile
  | .changeKey keyNo field =>
      match KeyNumber.ofNibble? keyNo with
      | some keyNumber =>
          if k = .key0 then s.changeKey keyNumber field else .error .permissionDenied
      | none => .error .noSuchKey
  | .setConfiguration option data =>
      if k = .key0 then s.setConfiguration option data else .error .permissionDenied
  | .changeFileSettings fileNo raw =>
      match File.ofFileNo? fileNo with
      | some file => s.changeFileSettings k file raw
      | none => .error .fileNotFound
  | .writeData fileNo offset length data =>
      match File.ofFileNo? fileNo with
      | some file => s.writeData k file offset length data
      | none => .error .fileNotFound
  | _ => .error .permissionDenied

/-- A command that changes the profile has an empty answer. A refused one changes nothing. -/
def change (s : StoredProfile) (k : KeyNumber) (c : AppCommand) :
    Except TagError (List UInt8) × StoredProfile :=
  match s.after k c with
  | .ok s' => (.ok [], s')
  | .error e => (.error e, s)

/-- The reaction to a command. -/
def exec (s : StoredProfile) (k : KeyNumber) (c : AppCommand) :
    Except TagError (List UInt8) × StoredProfile :=
  match c with
  | .changeKey .. | .setConfiguration .. | .changeFileSettings .. | .writeData .. => s.change k c
  | c => (s.answer k c, s)

variable {s s' : StoredProfile} {k : KeyNumber} {c : AppCommand} {d : List UInt8}

theorem change_of_ok (h : s.after k c = .ok s') : s.change k c = (.ok [], s') := by
  rw [change, h]

theorem change_of_error {e : TagError} (h : s.after k c = .error e) :
    s.change k c = (.error e, s) := by
  rw [change, h]

theorem eq_nil_of_change (h : s.change k c = (.ok d, s')) : d = [] := by
  rw [change] at h
  split at h
  · cases h
    rfl
  · cases h

/-- Writing keeps the settings. -/
theorem settings_writeData {file : File} {offset length : ℕ} {data : List UInt8}
    (h : s.writeData k file offset length data = .ok s') :
    s'.profile.settings = s.profile.settings := by
  rw [writeData] at h
  split at h
  · cases h
  · split at h
    · obtain rfl := Except.ok.inj h
      rfl
    · cases h

/-- The lengths of the answers. -/
theorem length_answer (h : s.answer k c = .ok d) : c.AnswerLength d.length := by
  cases c with
  | getVersion =>
      cases h
      simp [AppCommand.AnswerLength, Version.toList]
  | getCardUid =>
      cases h
      exact Bytes.length_toList _
  | readSig =>
      cases h
      exact Bytes.length_toList _
  | getTtStatus =>
      simp only [answer] at h
      split at h
      · cases h
        exact Bytes.length_toList _
      · cases h
  | getKeyVersion keyNo =>
      simp only [answer] at h
      split at h
      · cases h
        rfl
      · cases h
  | getFileSettings fileNo => trivial
  | readData fileNo offset length => trivial
  | _ => cases h

end StoredProfile

/-- An application whose state is a stored profile. It draws the same randoms again and again. -/
def TagApp.stored : TagApp StoredProfile where
  key s := s.profile.keys
  lrpMode s := s.profile.lrpMode
  rndB s := (Bytes.zeros 16, s)
  newTi s := (Bytes.zeros 4, s)
  pdCap2 _ := Bytes.zeros 6
  exec k c s := s.exec k c
  fileMode s k fileNo access :=
    match File.ofFileNo? fileNo with
    | some file => (s.profile.settings file).modeOf k access
    | none => .plain
  countersEncrypted _ _ := false
  configurationSilent _ _ := false
  signatureStatus _ := false
  length_exec {_ c _ _ _} h := by
    cases c with
    | changeKey keyNo field =>
        rw [StoredProfile.eq_nil_of_change h]
        rfl
    | setConfiguration option data =>
        rw [StoredProfile.eq_nil_of_change h]
        rfl
    | changeFileSettings fileNo raw =>
        rw [StoredProfile.eq_nil_of_change h]
        rfl
    | writeData fileNo offset length data =>
        rw [StoredProfile.eq_nil_of_change h]
        rfl
    | _ => exact StoredProfile.length_answer (Prod.mk.inj h).1
  fileMode_exec {k c s} hc := by
    cases c with
    | writeData fileNo offset length data =>
        have hsame : (s.change k (.writeData fileNo offset length data)).2.profile.settings =
            s.profile.settings := by
          rw [StoredProfile.change]
          split
          · rename_i h
            simp only [StoredProfile.after] at h
            split at h
            · exact StoredProfile.settings_writeData h
            · cases h
          · rfl
        funext k' fileNo' access
        simp only [StoredProfile.exec, hsame]
    | readData fileNo offset length => rfl
    | getFileSettings fileNo => rfl
    | _ => cases hc
  fileMode_settings {k file s d s' v} h hdecode := by
    obtain ⟨hd, -⟩ := Prod.mk.inj h
    simp only [StoredProfile.answer, File.ofFileNo?_fileNo] at hd ⊢
    obtain rfl := Except.ok.inj hd
    rw [s.decode_payload] at hdecode
    obtain rfl := Except.ok.inj hdecode
    exact ⟨rfl, rfl⟩

namespace StoredProfile

variable {s s' : StoredProfile} {k : KeyNumber} {c : AppCommand} {d : List UInt8}

/-- A command that changes the profile. -/
theorem performs_of_after (hc : s.exec k c = s.change k c) (h : s.after k c = .ok s') :
    TagApp.stored.Performs profile k c s [] s'.profile :=
  ⟨s', hc.trans (change_of_ok h), rfl⟩

/-- Changing the settings, when the data field decodes. -/
theorem changeFileSettings_eq {file : File} {raw : List UInt8} {v : FileSettingsView}
    (hchange : (s.profile.settings file).accessRights.change.Admits k)
    (h : FileSettingsView.decode (payloadWith raw file.size) = .ok v) :
    s.changeFileSettings k file raw = .ok (s.withSettings file h) := by
  rw [changeFileSettings, if_neg (not_not.mpr hchange)]
  split
  · rename_i v' h'
    obtain rfl : v = v' := Except.ok.inj (h.symm.trans h')
    rfl
  · rename_i e h'
    cases h.symm.trans h'

theorem setConfiguration_eq {option : UInt8} {data : List UInt8} {c : Profile}
    (h : s.profile.configured option data = some c) :
    s.setConfiguration option data =
      .ok (s.withProfile c (Profile.settings_configured h)) := by
  rw [setConfiguration]
  split
  · rename_i c' h'
    obtain rfl : c = c' := Option.some.inj (h.symm.trans h')
    rfl
  · rename_i h'
    cases h.symm.trans h'

end StoredProfile

/-- It obeys the laws. -/
theorem TagApp.stored_documented : TagApp.stored.Documented StoredProfile.profile where
  key _ := rfl
  lrpMode _ := rfl
  fileMode _ _ file _ := by simp only [stored, File.ofFileNo?_fileNo]
  rndB _ := rfl
  newTi _ := rfl
  getVersion s _ := ⟨s, rfl, rfl⟩
  getCardUid s _ := ⟨s, rfl, rfl⟩
  readSig s _ := ⟨s, rfl, rfl⟩
  getKeyVersion s k keyNo := by
    refine ⟨s, ?_, rfl⟩
    simp only [stored, StoredProfile.exec, StoredProfile.answer, KeyNumber.ofNibble?_asByte]
  getTtStatus {s k d} h := by
    refine ⟨s, ?_, rfl⟩
    simp only [stored, StoredProfile.exec, StoredProfile.answer, h]
  getFileSettings s k file := by
    refine ⟨s.payload file, s.decode_payload file, s, ?_, rfl⟩
    simp only [stored, StoredProfile.exec, StoredProfile.answer, File.ofFileNo?_fileNo]
  setConfiguration {s option data c} h := by
    have hafter : s.after .key0 (.setConfiguration option data) =
        .ok (s.withProfile c (Profile.settings_configured h)) := by
      simp only [StoredProfile.after, if_true]
      exact StoredProfile.setConfiguration_eq h
    exact StoredProfile.performs_of_after rfl hafter
  changeFileSettings {s k file raw v} hchange h := by
    have hafter : s.after k (.changeFileSettings file.fileNo raw) =
        .ok (s.withSettings file h) := by
      simp only [StoredProfile.after, File.ofFileNo?_fileNo]
      exact StoredProfile.changeFileSettings_eq hchange h
    exact StoredProfile.performs_of_after rfl hafter
  readData {s k file offset length} hreadable hlength hsize := by
    refine ⟨s, ?_, rfl⟩
    simp only [stored, StoredProfile.exec, StoredProfile.answer, File.ofFileNo?_fileNo,
      StoredProfile.readData, if_neg (not_not.mpr hreadable), if_neg hlength,
      if_pos hsize]
  writeData {s k file offset data} hwritable hsize := by
    have hafter : s.after k (.writeData file.fileNo offset data.length data) =
        .ok (s.withProfile (s.profile.written file offset data) rfl) := by
      simp only [StoredProfile.after, File.ofFileNo?_fileNo, StoredProfile.writeData]
      exact (if_neg (not_not.mpr hwritable)).trans (if_pos ⟨trivial, hsize⟩)
    exact StoredProfile.performs_of_after rfl hafter
  changeKey {s keyNo field} hlen hcrc := by
    have hafter : s.after .key0 (.changeKey keyNo.toKeyNumber.asByte field) =
        .ok (s.withProfile (s.profile.changedKey keyNo.toKeyNumber
          (recoveredKey field (s.profile.keys keyNo.toKeyNumber)) (field.getD 16 0)) rfl) := by
      simp only [StoredProfile.after, KeyNumber.ofNibble?_asByte, if_true, StoredProfile.changeKey,
        if_neg keyNo.toKeyNumber_ne_key0, if_neg (not_not.mpr hlen)]
      exact if_pos hcrc
    exact StoredProfile.performs_of_after rfl hafter
  changeKey_refused {s keyNo field} hlen hcrc := by
    refine ⟨.integrityError, StoredProfile.change_of_error ?_⟩
    simp only [StoredProfile.after, KeyNumber.ofNibble?_asByte, if_true, StoredProfile.changeKey,
      if_neg keyNo.toKeyNumber_ne_key0, if_neg (not_not.mpr hlen)]
    exact if_neg hcrc
  changeMasterKey {s field} hlen := by
    have hafter : s.after .key0 (.changeKey KeyNumber.key0.asByte field) =
        .ok (s.withProfile
          (s.profile.changedKey .key0 (Bytes.fill 16 (field.take 16)) (field.getD 16 0)) rfl) := by
      simp only [StoredProfile.after, KeyNumber.ofNibble?_asByte, if_true, StoredProfile.changeKey]
      exact if_pos hlen
    exact StoredProfile.performs_of_after rfl hafter

end Ntag424
