import Mathlib.Tactic.Common
import Ntag424.Lib.Outcome
import Ntag424.Types

/-!
# SDM Settings

The Secure Dynamic Messaging configuration of the NDEF file (`types/file_settings/sdm.rs`):
where the tag mirrors its UID, read counter and tamper status, which window of the file it
authenticates and which part it encrypts.

## Modelling

* `Offset` and `EncLength` carry the bound that their constructors check, so sums of offsets
  and widths stay far below `2 ^ 32` and natural-number addition is the source's `u32`
  addition.
* `Sdm` carries the outcome of the mode-independent checks as a field. In the source its
  fields are private and every constructor runs those checks, so an `Sdm` that fails them
  does not exist there either.

## Main results

* `Sdm.tryNewInner_eq_ok_iff`, `Sdm.tryNew_eq_ok_iff`: validation succeeds exactly when its
  checks do, and returns the fields it was given.
* `Sdm.checkMacWindow_eq_ok_iff`, `Sdm.checkEncRange_eq_ok_iff`: what the checks compare.
-/

namespace Ntag424

/-- Cryptographic suite used for SDM. -/
inductive CryptoMode where
  | aes
  | lrp
deriving DecidableEq, Repr

/-! ### Placeholder widths -/

/-- Width of the UID placeholder: 7 bytes as hex. -/
def uidPlaceholderLen : ℕ := 14

/-- Width of the read-counter placeholder: 3 bytes as hex. -/
def rctrPlaceholderLen : ℕ := 6

/-- Width of the tamper-status placeholder. -/
def ttPlaceholderLen : ℕ := 2

/-- Width of the MAC placeholder: 8 bytes as hex. -/
def macPlaceholderLen : ℕ := 16

/-- Width of the encrypted PICCData placeholder in AES mode. -/
def piccBlobLenAes : ℕ := 32

/-- Width of the encrypted PICCData placeholder in LRP mode. -/
def piccBlobLenLrp : ℕ := 48

/-- Number of hex characters of the encrypted PICCData blob. -/
def CryptoMode.piccBlobAsciiLen : CryptoMode → ℕ
  | aes => piccBlobLenAes
  | lrp => piccBlobLenLrp

/-! ### Offsets and lengths -/

/-- A 24-bit byte offset into a file. -/
structure Offset where
  val : ℕ
  le_max : val ≤ 0xFFFFFF
deriving DecidableEq, Repr

/-- Create an offset, rejecting values above 24 bits. -/
def Offset.new (v : ℕ) : Except FileSettingsError Offset :=
  if h : v ≤ 0xFFFFFF then .ok ⟨v, h⟩ else .error (.offsetOutOfRange v)

/-- The start of the file. -/
theorem Offset.zero_le_max : 0 ≤ 0xFFFFFF := by decide

/-- Length of the encrypted file data placeholder: a positive multiple of 32. -/
structure EncLength where
  val : ℕ
  valid : val ≠ 0 ∧ val % 32 = 0 ∧ val ≤ 0xFFFFFF
deriving DecidableEq, Repr

/-- The shortest encrypted range. -/
theorem EncLength.valid_shortest : 32 ≠ 0 ∧ 32 % 32 = 0 ∧ 32 ≤ 0xFFFFFF := by decide

/-- Create an encrypted length, rejecting everything but positive multiples of 32. -/
def EncLength.new (v : ℕ) : Except FileSettingsError EncLength :=
  if h : v ≠ 0 ∧ v % 32 = 0 ∧ v ≤ 0xFFFFFF then .ok ⟨v, h⟩ else .error (.encLengthInvalid v)

theorem Offset.new_eq_ok_iff {v : ℕ} {o : Offset} : Offset.new v = .ok o ↔ o.val = v := by
  obtain ⟨w, hw⟩ := o
  unfold Offset.new
  split
  · simp only [Except.ok.injEq, Offset.mk.injEq, eq_comm]
  · rename_i hv
    exact ⟨nofun, fun h => absurd (h ▸ hw) hv⟩

theorem EncLength.new_eq_ok_iff {v : ℕ} {l : EncLength} : EncLength.new v = .ok l ↔ l.val = v := by
  obtain ⟨w, hw⟩ := l
  unfold EncLength.new
  split
  · simp only [Except.ok.injEq, EncLength.mk.injEq, eq_comm]
  · rename_i hv
    exact ⟨nofun, fun h => absurd (h ▸ hw) hv⟩

@[simp] theorem Offset.new_val (o : Offset) : Offset.new o.val = .ok o :=
  Offset.new_eq_ok_iff.mpr rfl

theorem EncLength.pos (l : EncLength) : 0 < l.val := Nat.pos_of_ne_zero l.valid.1

/-- An encrypted length splits into two halves of whole 16-character blocks. -/
theorem EncLength.half_add_half (l : EncLength) : l.val / 2 + l.val / 2 = l.val := by
  have := l.valid.2.1
  omega

/-! ### Mirror configuration -/

/-- Features of read-counter mirroring. -/
structure ReadCtrFeatures where
  limit : Option ℕ
  retAccess : CtrRetAccess
deriving DecidableEq, Repr

/-- Offset and features of the read-counter mirror. -/
structure ReadCtrMirror where
  offset : Offset
  features : ReadCtrFeatures
deriving DecidableEq, Repr

/-- Plain hex mirroring of UID and read counter. -/
inductive PlainMirror where
  | uid (uid : Offset)
  | rCtr (readCtr : ReadCtrMirror)
  | both (uid : Offset) (readCtr : ReadCtrMirror)
deriving DecidableEq, Repr

/-- Content of the encrypted PICCData blob. -/
inductive EncryptedContent where
  | uid
  | rCtr (features : ReadCtrFeatures)
  | both (features : ReadCtrFeatures)
deriving DecidableEq, Repr

namespace EncryptedContent

def includesUid : EncryptedContent → Bool
  | uid | both _ => true
  | rCtr _ => false

def includesRctr : EncryptedContent → Bool
  | rCtr _ | both _ => true
  | uid => false

end EncryptedContent

/-- How the tag identity data is mirrored into the file. -/
inductive PiccData where
  | none
  | plain (mirror : PlainMirror)
  | encrypted (key : KeyNumber) (offset : Offset) (content : EncryptedContent)
deriving DecidableEq, Repr

namespace PlainMirror

def uidOffset : PlainMirror → Option Offset
  | uid u | both u _ => some u
  | rCtr _ => .none

def rctrOffset : PlainMirror → Option Offset
  | rCtr c | both _ c => some c.offset
  | uid _ => .none

end PlainMirror

namespace PiccData

def includesUid : PiccData → Bool
  | plain (.uid _) | plain (.both _ _) => true
  | encrypted _ _ .uid | encrypted _ _ (.both _) => true
  | _ => false

def includesRctr : PiccData → Bool
  | plain (.rCtr _) | plain (.both _ _) => true
  | encrypted _ _ (.rCtr _) | encrypted _ _ (.both _) => true
  | _ => false

/-- Read-counter limit, if a mirror carries the counter and sets one. -/
def readCtrLimit : PiccData → Option ℕ
  | plain (.rCtr c) | plain (.both _ c) => c.features.limit
  | encrypted _ _ (.rCtr f) | encrypted _ _ (.both f) => f.limit
  | _ => .none

/-- `SDMCtrRet`, defaulting to no access when no counter is mirrored. -/
def ctrRet : PiccData → CtrRetAccess
  | plain (.rCtr c) | plain (.both _ c) => c.features.retAccess
  | encrypted _ _ (.rCtr f) | encrypted _ _ (.both f) => f.retAccess
  | _ => .noAccess

end PiccData

/-- MAC input window: bytes `[input, mac)` are authenticated, the MAC is written at `mac`. -/
structure MacWindow where
  input : Offset
  mac : Offset
deriving DecidableEq, Repr

/-- Encrypted file data placeholder range. -/
structure EncFileData where
  start : Offset
  length : EncLength
deriving DecidableEq, Repr

/-- SDM file-read configuration. -/
inductive FileRead where
  | macOnly (key : KeyNumber) (window : MacWindow)
  | macAndEnc (key : KeyNumber) (window : MacWindow) (enc : EncFileData)
deriving DecidableEq, Repr

namespace FileRead

def key : FileRead → KeyNumber
  | macOnly k _ | macAndEnc k _ _ => k

def window : FileRead → MacWindow
  | macOnly _ w | macAndEnc _ w _ => w

def enc : FileRead → Option EncFileData
  | macOnly _ _ => none
  | macAndEnc _ _ e => some e

end FileRead

/-! ### Validation -/

/-- Whether `[a, a + aLen)` and `[b, b + bLen)` overlap, as the source compares them. -/
def rangesOverlap (a aLen b bLen : ℕ) : Bool := !(a + aLen ≤ b || b + bLen ≤ a)

/-- A placeholder as an optional pair of start and width. -/
abbrev PlaceholderRange := Option (ℕ × ℕ)

/-- The UID placeholder of a plain mirror. -/
def uidRange : PiccData → PlaceholderRange
  | .plain (.uid u) | .plain (.both u _) => some (u.val, uidPlaceholderLen)
  | _ => none

/-- The read-counter placeholder of a plain mirror. -/
def rctrRange : PiccData → PlaceholderRange
  | .plain (.rCtr c) | .plain (.both _ c) => some (c.offset.val, rctrPlaceholderLen)
  | _ => none

/-- The tamper-status placeholder. -/
def ttRange (tamperStatus : Option Offset) : PlaceholderRange :=
  tamperStatus.map fun tt => (tt.val, ttPlaceholderLen)

/-- The MAC placeholder. -/
def macRange (fileRead : Option FileRead) : PlaceholderRange :=
  fileRead.map fun fr => (fr.window.mac.val, macPlaceholderLen)

/-- The encrypted file data placeholder. -/
def encRange : Option FileRead → PlaceholderRange
  | some (.macAndEnc _ _ enc) => some (enc.start.val, enc.length.val)
  | _ => none

/-- The encrypted PICCData placeholder, whose width depends on the mode. -/
def piccRange (mode : CryptoMode) : PiccData → PlaceholderRange
  | .encrypted _ offset _ => some (offset.val, mode.piccBlobAsciiLen)
  | _ => none

/-- Reject two placeholders that overlap (the source's `check!` and `check_picc!`). -/
def checkOverlap (a b : PlaceholderRange) (kind : OverlapKind) : Except FileSettingsError Unit :=
  match a, b with
  | some (a, aLen), some (b, bLen) =>
      if rangesOverlap a aLen b bLen then .error (.mirrorsOverlap kind) else .ok ()
  | _, _ => .ok ()

/-- The MAC input must not start after the MAC placeholder. -/
def checkMacWindow : Option FileRead → Except FileSettingsError Unit
  | some fr =>
      if fr.window.mac.val < fr.window.input.val then .error .macInputAfterMac else .ok ()
  | none => .ok ()

/-- The encrypted range must lie in the MAC window and needs both mirrors. -/
def checkEncRange (piccData : PiccData) : Option FileRead → Except FileSettingsError Unit
  | some (.macAndEnc _ w enc) =>
      if enc.start.val < w.input.val ∨ w.mac.val < enc.start.val + enc.length.val then
        .error .encOutsideMacWindow
      else if !piccData.includesUid || !piccData.includesRctr then
        .error .encRequiresBothMirrors
      else .ok ()
  | _ => .ok ()

/-- A tamper placeholder that overlaps the encrypted range must end inside its first half. -/
def checkTamperHalf (tt enc : PlaceholderRange) : Except FileSettingsError Unit :=
  match tt, enc with
  | some (tt, ttLen), some (encStart, encLen) =>
      if rangesOverlap tt ttLen encStart encLen then
        if encStart + encLen / 2 < tt + ttLen then
          .error (.mirrorsOverlap .tamperInCiphertextHalf)
        else .ok ()
      else .ok ()
  | _, _ => .ok ()

namespace Sdm

/-- The checks of `Sdm::try_new_inner`, in the source's order. -/
def checkInner (piccData : PiccData) (fileRead : Option FileRead) (tamperStatus : Option Offset) :
    Except FileSettingsError Unit := do
  checkMacWindow fileRead
  checkEncRange piccData fileRead
  checkOverlap (uidRange piccData) (rctrRange piccData) .uidAndRCtr
  checkOverlap (uidRange piccData) (ttRange tamperStatus) .uidAndTamper
  checkOverlap (rctrRange piccData) (ttRange tamperStatus) .rCtrAndTamper
  checkOverlap (uidRange piccData) (macRange fileRead) .uidAndMac
  checkOverlap (rctrRange piccData) (macRange fileRead) .rCtrAndMac
  checkOverlap (ttRange tamperStatus) (macRange fileRead) .tamperAndMac
  checkOverlap (encRange fileRead) (uidRange piccData) .encAndUid
  checkOverlap (encRange fileRead) (rctrRange piccData) .encAndRCtr
  checkTamperHalf (ttRange tamperStatus) (encRange fileRead)

/-- The checks `Sdm::try_new` adds for the encrypted PICCData blob, whose width depends on
the mode. -/
def checkPicc (piccData : PiccData) (fileRead : Option FileRead) (tamperStatus : Option Offset)
    (mode : CryptoMode) : Except FileSettingsError Unit := do
  checkOverlap (piccRange mode piccData) (ttRange tamperStatus) .piccAndTamper
  checkOverlap (piccRange mode piccData) (macRange fileRead) .piccAndMac
  checkOverlap (piccRange mode piccData) (encRange fileRead) .piccAndEnc

end Sdm

/-- SDM configuration of a file. The last field is the invariant that every constructor of
the source establishes. -/
structure Sdm where
  piccData : PiccData
  fileRead : Option FileRead
  tamperStatus : Option Offset
  valid : Sdm.checkInner piccData fileRead tamperStatus = .ok ()
deriving DecidableEq, Repr

namespace Sdm

variable {piccData : PiccData} {fileRead : Option FileRead} {tamperStatus : Option Offset}
  {mode : CryptoMode}

/-- `Sdm::try_new_inner`: the mode-independent checks. -/
def tryNewInner (piccData : PiccData) (fileRead : Option FileRead)
    (tamperStatus : Option Offset) : Except FileSettingsError Sdm :=
  match h : checkInner piccData fileRead tamperStatus with
  | .error e => .error e
  | .ok () => .ok ⟨piccData, fileRead, tamperStatus, h⟩

/-- `Sdm::try_new_from_wire`: the blob width is not on the wire, so only the
mode-independent checks run. -/
def tryNewFromWire (piccData : PiccData) (fileRead : Option FileRead)
    (tamperStatus : Option Offset) : Except FileSettingsError Sdm :=
  tryNewInner piccData fileRead tamperStatus

/-- `Sdm::try_new`. -/
def tryNew (piccData : PiccData) (fileRead : Option FileRead) (tamperStatus : Option Offset)
    (mode : CryptoMode) : Except FileSettingsError Sdm := do
  let sdm ← tryNewInner piccData fileRead tamperStatus
  checkPicc piccData fileRead tamperStatus mode
  return sdm

/-- The mode-independent constructor succeeds exactly when its checks do. -/
theorem tryNewInner_eq_ok_iff {s : Sdm} :
    tryNewInner piccData fileRead tamperStatus = .ok s ↔
      s.piccData = piccData ∧ s.fileRead = fileRead ∧ s.tamperStatus = tamperStatus := by
  obtain ⟨p, f, t, hs⟩ := s
  unfold tryNewInner
  constructor
  · intro h
    split at h
    · cases h
    · cases h
      exact ⟨rfl, rfl, rfl⟩
  · rintro ⟨rfl, rfl, rfl⟩
    split
    · rename_i e he
      rw [hs] at he
      cases he
    · rfl

/-- `try_new` succeeds exactly when the checks do, and returns the fields it was given. -/
theorem tryNew_eq_ok_iff {s : Sdm} :
    tryNew piccData fileRead tamperStatus mode = .ok s ↔
      (s.piccData = piccData ∧ s.fileRead = fileRead ∧ s.tamperStatus = tamperStatus) ∧
        checkPicc piccData fileRead tamperStatus mode = .ok () := by
  rw [← tryNewInner_eq_ok_iff, tryNew, Except.bind_eq_ok_iff]
  constructor
  · rintro ⟨s', hs', h⟩
    obtain ⟨hp, hr⟩ := Except.andThen_eq_ok_iff.mp h
    cases Except.pure_eq_ok_iff.mp hr
    exact ⟨hs', hp⟩
  · rintro ⟨hs, hp⟩
    exact ⟨s, hs, Except.andThen_eq_ok_iff.mpr ⟨hp, rfl⟩⟩

/-- `try_new` fails with the first check that fails, the mode-independent ones first. -/
theorem tryNew_eq_error_iff {e : FileSettingsError} :
    tryNew piccData fileRead tamperStatus mode = .error e ↔
      checkInner piccData fileRead tamperStatus = .error e ∨
        checkInner piccData fileRead tamperStatus = .ok () ∧
          checkPicc piccData fileRead tamperStatus mode = .error e := by
  have hinner : tryNewInner piccData fileRead tamperStatus = .error e ↔
      checkInner piccData fileRead tamperStatus = .error e := by
    unfold tryNewInner
    split
    · rename_i e' he
      rw [he, Except.error.injEq, Except.error.injEq]
    · rename_i hok
      exact iff_of_false nofun fun he => nomatch hok.symm.trans he
  rw [tryNew, Except.bind_eq_error_iff, hinner]
  refine or_congr_right ⟨?_, fun ⟨hok, hp⟩ => ?_⟩
  · rintro ⟨s, hs, h⟩
    obtain ⟨rfl, rfl, rfl⟩ := tryNewInner_eq_ok_iff.mp hs
    refine ⟨s.valid, ?_⟩
    rcases Except.bind_eq_error_iff.mp h with h | ⟨_, _, h⟩
    · exact h
    · cases h
  · refine ⟨⟨_, _, _, hok⟩, tryNewInner_eq_ok_iff.mpr ⟨rfl, rfl, rfl⟩, ?_⟩
    rw [hp]
    rfl

/-- Whether `try_new` succeeds is decided by its two groups of checks. -/
theorem tryNew_isOk_iff :
    (tryNew piccData fileRead tamperStatus mode).isOk = true ↔
      checkInner piccData fileRead tamperStatus = .ok () ∧
        checkPicc piccData fileRead tamperStatus mode = .ok () := by
  rw [Except.isOk_iff]
  constructor
  · rintro ⟨s, hs⟩
    obtain ⟨⟨rfl, rfl, rfl⟩, hp⟩ := tryNew_eq_ok_iff.mp hs
    exact ⟨s.valid, hp⟩
  · rintro ⟨hi, hp⟩
    exact ⟨⟨_, _, _, hi⟩, tryNew_eq_ok_iff.mpr ⟨⟨rfl, rfl, rfl⟩, hp⟩⟩

end Sdm

/-! ### What the checks compare -/

theorem rangesOverlap_eq_false_iff {a aLen b bLen : ℕ} :
    rangesOverlap a aLen b bLen = false ↔ a + aLen ≤ b ∨ b + bLen ≤ a := by
  simp only [rangesOverlap, Bool.not_eq_false', Bool.or_eq_true, decide_eq_true_eq]

theorem checkOverlap_eq_ok_iff {a b : PlaceholderRange} {kind : OverlapKind} :
    checkOverlap a b kind = .ok () ↔
      ∀ r ∈ a, ∀ s ∈ b, r.1 + r.2 ≤ s.1 ∨ s.1 + s.2 ≤ r.1 := by
  unfold checkOverlap
  split
  · rename_i a aLen b bLen
    split
    · rename_i h
      have hno : ¬ (a + aLen ≤ b ∨ b + bLen ≤ a) := by
        rw [← rangesOverlap_eq_false_iff, h]
        decide
      simp [hno]
    · rename_i h
      have := rangesOverlap_eq_false_iff.mp (Bool.eq_false_iff.mpr h)
      simpa using this
  · rename_i h
    simp only [Option.mem_def, true_iff]
    intro r hr s hs
    exact absurd hs (h _ _ _ _ hr)

theorem checkMacWindow_eq_ok_iff {fileRead : Option FileRead} :
    checkMacWindow fileRead = .ok () ↔
      ∀ fr ∈ fileRead, fr.window.input.val ≤ fr.window.mac.val := by
  cases fileRead with
  | none => simp [checkMacWindow]
  | some fr => simp [checkMacWindow]

theorem checkEncRange_eq_ok_iff {piccData : PiccData} {fileRead : Option FileRead} :
    checkEncRange piccData fileRead = .ok () ↔
      ∀ fr ∈ fileRead, ∀ enc ∈ fr.enc,
        (fr.window.input.val ≤ enc.start.val ∧
          enc.start.val + enc.length.val ≤ fr.window.mac.val) ∧
        piccData.includesUid = true ∧ piccData.includesRctr = true := by
  rcases fileRead with _ | ⟨k, w⟩ | ⟨k, w, enc⟩
  · simp [checkEncRange]
  · simp [checkEncRange, FileRead.enc]
  · simp only [checkEncRange, FileRead.enc, FileRead.window, Option.mem_def, Option.some.injEq,
      forall_eq']
    split
    · simp only [reduceCtorEq, false_iff]
      omega
    · cases piccData.includesUid <;> cases piccData.includesRctr <;> simp
      omega

theorem checkTamperHalf_eq_ok_iff {tt enc : PlaceholderRange} :
    checkTamperHalf tt enc = .ok () ↔
      ∀ r ∈ tt, ∀ s ∈ enc, (r.1 + r.2 ≤ s.1 ∨ s.1 + s.2 ≤ r.1) ∨ r.1 + r.2 ≤ s.1 + s.2 / 2 := by
  unfold checkTamperHalf
  split
  · rename_i tt ttLen encStart encLen
    simp only [Option.mem_def, Option.some.injEq, forall_eq']
    rw [← rangesOverlap_eq_false_iff]
    cases rangesOverlap tt ttLen encStart encLen <;> simp
  · rename_i h
    simp only [Option.mem_def, true_iff]
    intro r hr s hs
    exact absurd hs (h _ _ _ _ hr)

/-- Settings with all that can be mirrored: the UID and the counter in an encrypted blob, an
encrypted range that begins with the tamper status, and the MAC behind both. -/
def Sdm.mirroringAll : Sdm where
  piccData := .encrypted .key2 ⟨0x12, by decide⟩ (.both ⟨some 1000, .key .key3⟩)
  fileRead := some (.macAndEnc .key1 ⟨⟨0x12, by decide⟩, ⟨0xA0, by decide⟩⟩
    ⟨⟨0x52, by decide⟩, ⟨64, by decide⟩⟩)
  tamperStatus := some ⟨0x52, by decide⟩
  valid := rfl

end Ntag424
