import Mathlib.Tactic.Common
import Ntag424.FileSettings.Wire

/-!
# Encoding, then Decoding File Settings

Settings that `ChangeFileSettings` writes are read back by `GetFileSettings`, up to what the
decoder normalises: the largest read-counter limit stands for no limit. A block of SDM settings
is canonical when the decoder drops nothing of it.

## Main results

* `Sdm.describes_block`: the block of some settings describes them.
* `SdmBlock.Describes.eq_block`: a canonical block is the block of the settings it describes.
* `FileSettingsView.decode_eq_ok_iff`, `FileSettingsUpdate.encode_eq_ok_iff`: what is accepted
  and what is written.
* `FileSettingsUpdate.decode_encode`: encoding, then decoding.
-/

namespace Ntag424

open Numerals

/-! ### Nibbles and bits -/

/-- A key nibble names one key. -/
theorem KeyNumber.ofNibble?_eq_some_iff {n : UInt8} {k : KeyNumber} :
    KeyNumber.ofNibble? n = some k ↔ n = k.asByte := by
  constructor
  · intro h
    unfold KeyNumber.ofNibble? at h
    split_ifs at h <;> cases h <;> assumption
  · rintro rfl
    exact KeyNumber.ofNibble?_asByte k

theorem keyFromNibble_eq_ok_iff {n : UInt8} {slot : NibbleSlot} {k : KeyNumber} :
    keyFromNibble n slot = .ok k ↔ n = k.asByte := by
  rw [← KeyNumber.ofNibble?_eq_some_iff, keyFromNibble]
  cases KeyNumber.ofNibble? n with
  | none => exact ⟨by rintro ⟨⟩, by rintro ⟨⟩⟩
  | some k' => exact ⟨fun h => congrArg some (Except.ok.inj h), fun h => by cases h; rfl⟩

theorem CtrRetAccess.fromNibble_eq_ok_iff {n : UInt8} {a : CtrRetAccess} :
    CtrRetAccess.fromNibble n = .ok a ↔ n = a.toNibble := by
  constructor
  · intro h
    unfold CtrRetAccess.fromNibble at h
    split at h
    · rename_i k hk
      cases h
      exact KeyNumber.ofNibble?_eq_some_iff.mp hk
    · split_ifs at h <;> cases h <;> assumption
  · rintro rfl
    exact CtrRetAccess.fromNibble_toNibble a

theorem Access.fromNibble_eq_ok_iff {n : UInt8} {slot : NibbleSlot} {a : Access} :
    Access.fromNibble n slot = .ok a ↔ n = a.toNibble := by
  constructor
  · intro h
    unfold Access.fromNibble at h
    split at h
    · rename_i k hk
      cases h
      exact KeyNumber.ofNibble?_eq_some_iff.mp hk
    · split_ifs at h <;> cases h <;> assumption
  · rintro rfl
    exact Access.fromNibble_toNibble a slot

/-- The nibble of an optional file-read key. -/
def fileReadNibbleOf (key : Option KeyNumber) : UInt8 := key.elim 0xF KeyNumber.asByte

theorem fileReadKeyFromNibble_eq_ok_iff {n : UInt8} {key : Option KeyNumber} :
    fileReadKeyFromNibble n = .ok key ↔ n = fileReadNibbleOf key := by
  constructor
  · intro h
    unfold fileReadKeyFromNibble at h
    split_ifs at h with hkey hnone
    · cases hk : keyFromNibble n .sdmFileRead with
      | error e =>
          rw [hk] at h
          cases h
      | ok k =>
          rw [hk] at h
          cases h
          exact keyFromNibble_eq_ok_iff.mp hk
    · cases h
      exact hnone
  · rintro rfl
    rcases key with _ | k
    · rfl
    · cases k <;> rfl

/-- The nibbles of access conditions. -/
def accessNibbles : List UInt8 := [0, 1, 2, 3, 4, 0xE, 0xF]

/-- Two access nibbles are read back from their byte. -/
theorem nibble_pair {a b : UInt8} (ha : a ∈ accessNibbles) (hb : b ∈ accessNibbles) :
    (a <<< 4 ||| b) >>> 4 = a ∧ (a <<< 4 ||| b) &&& 0xF = b := by
  have hall : (accessNibbles.all fun a => accessNibbles.all fun b =>
      decide ((a <<< 4 ||| b) >>> 4 = a ∧ (a <<< 4 ||| b) &&& 0xF = b)) = true := by decide
  have hrow := List.all_eq_true.mp hall a ha
  exact of_decide_eq_true (List.all_eq_true.mp hrow b hb)

theorem KeyNumber.asByte_mem (k : KeyNumber) : k.asByte ∈ accessNibbles := by
  cases k <;> decide

theorem Access.toNibble_mem (a : Access) : a.toNibble ∈ accessNibbles := by
  rcases a with k | _ | _
  · exact k.asByte_mem
  · decide
  · decide

/-- A byte is put together from its nibbles. -/
theorem nibbles_eq (b : UInt8) : (b >>> 4) <<< 4 ||| (b &&& 0xF) = b := by
  have h : ∀ n : Fin 256, ((UInt8.ofFin n) >>> 4) <<< 4 ||| ((UInt8.ofFin n) &&& 0xF) =
      UInt8.ofFin n := by decide +kernel
  exact h b.toFin

/-- A byte whose high nibble is all ones. -/
theorem high_nibble_eq {b : UInt8} (h : b &&& 0xF0 = 0xF0) : 0xF0 ||| (b &&& 0xF) = b := by
  have hall : ∀ n : Fin 256, (UInt8.ofFin n) &&& 0xF0 = 0xF0 →
      0xF0 ||| ((UInt8.ofFin n) &&& 0xF) = UInt8.ofFin n := by decide +kernel
  exact hall b.toFin h

/-- The SDM option byte with these bits. -/
def sdmOptionsOf (uid rctr limit enc tamper : Bool) : UInt8 :=
  Sdm.optionBit uid 0x80 ||| Sdm.optionBit rctr 0x40 ||| Sdm.optionBit limit 0x20 |||
    Sdm.optionBit enc 0x10 ||| Sdm.optionBit tamper 0x08 ||| 1

/-- The bits of an option byte are those it was made of. -/
theorem sdmOptionsOf_bits (uid rctr limit enc tamper : Bool) :
    let o := sdmOptionsOf uid rctr limit enc tamper
    o &&& 0b111 = 0b001 ∧ (o &&& 0x80 != 0) = uid ∧ (o &&& 0x40 != 0) = rctr ∧
      (o &&& 0x20 != 0) = limit ∧ (o &&& 0x10 != 0) = enc ∧ (o &&& 0x08 != 0) = tamper := by
  revert uid rctr limit enc tamper
  decide

/-- An option byte is made of its bits. -/
theorem eq_sdmOptionsOf {o : UInt8} (h : o &&& 0b111 = 0b001) :
    o = sdmOptionsOf (o &&& 0x80 != 0) (o &&& 0x40 != 0) (o &&& 0x20 != 0) (o &&& 0x10 != 0)
      (o &&& 0x08 != 0) := by
  have hall : ∀ n : Fin 256, (UInt8.ofFin n) &&& 0b111 = 0b001 → UInt8.ofFin n =
      sdmOptionsOf (UInt8.ofFin n &&& 0x80 != 0) (UInt8.ofFin n &&& 0x40 != 0)
        (UInt8.ofFin n &&& 0x20 != 0) (UInt8.ofFin n &&& 0x10 != 0)
        (UInt8.ofFin n &&& 0x08 != 0) := by decide +kernel
  exact hall o.toFin h

/-! ### The limit that stands for no limit -/

/-- A read-counter limit as it is read back: the largest 24-bit number stands for no limit. -/
def normalLimit (limit : Option ℕ) : Option ℕ := limit.filter (· ≠ 0xFFFFFF)

/-- Features as they are read back. -/
def ReadCtrFeatures.normal (f : ReadCtrFeatures) : ReadCtrFeatures :=
  { f with limit := normalLimit f.limit }

/-- A counter mirror as it is read back. -/
def ReadCtrMirror.normal (m : ReadCtrMirror) : ReadCtrMirror :=
  { m with features := m.features.normal }

/-- Mirrored identity data as it is read back. -/
def PiccData.normal : PiccData → PiccData
  | .none => .none
  | .plain (.uid uid) => .plain (.uid uid)
  | .plain (.rCtr readCtr) => .plain (.rCtr readCtr.normal)
  | .plain (.both uid readCtr) => .plain (.both uid readCtr.normal)
  | .encrypted key offset .uid => .encrypted key offset .uid
  | .encrypted key offset (.rCtr f) => .encrypted key offset (.rCtr f.normal)
  | .encrypted key offset (.both f) => .encrypted key offset (.both f.normal)

/-- The checks do not look at the limit. -/
theorem Sdm.checkInner_normal (piccData : PiccData) (fileRead : Option FileRead)
    (tamperStatus : Option Offset) :
    checkInner piccData.normal fileRead tamperStatus =
    checkInner piccData fileRead tamperStatus := by
  rcases piccData with _ | (uid | m | ⟨uid, m⟩) | ⟨key, offset, (_ | f | f)⟩ <;> rfl

/-- Settings as they are read back. -/
def Sdm.normal (s : Sdm) : Sdm :=
  ⟨s.piccData.normal, s.fileRead, s.tamperStatus, by rw [Sdm.checkInner_normal, s.valid]⟩

theorem normalLimit_eq_self {limit : Option ℕ} (h : limit ≠ some 0xFFFFFF) :
    normalLimit limit = limit := by
  cases limit with
  | none => rfl
  | some v =>
      have hv : v ≠ 0xFFFFFF := fun heq => h (by rw [heq])
      simp [normalLimit, hv]

/-- Settings without the largest limit are read back as they are. -/
theorem Sdm.normal_eq_self {s : Sdm} (h : s.piccData.readCtrLimit ≠ some 0xFFFFFF) :
    s.normal = s := by
  obtain ⟨piccData, fileRead, tamperStatus, hs⟩ := s
  have hpicc : piccData.normal = piccData := by
    rcases piccData with _ | (uid | ⟨o, limit, a⟩ | ⟨uid, o, limit, a⟩) |
      ⟨key, offset, (_ | ⟨limit, a⟩ | ⟨limit, a⟩)⟩
    all_goals first
      | rfl
      | simp only [PiccData.normal, ReadCtrMirror.normal, ReadCtrFeatures.normal,
          normalLimit_eq_self (show limit ≠ some 0xFFFFFF from h)]
  simp only [Sdm.normal, hpicc]

/-! ### From settings to the block and back -/

/-- The key of the file read. -/
def Sdm.fileReadKey (s : Sdm) : Option KeyNumber := s.fileRead.map FileRead.key

/-- The two rights bytes of a block are its nibbles. -/
theorem Sdm.block_nibbles (s : Sdm) (limit : Option Offset) :
    (s.block limit).metaNibble = s.piccNibble ∧
      (s.block limit).fileReadNibble = fileReadNibbleOf s.fileReadKey ∧
      (s.block limit).ctrRetNibble = s.piccData.ctrRet.toNibble ∧
      (s.block limit).rights.byte 0 &&& 0xF0 = 0xF0 := by
  have hfile : s.fileReadNibble = fileReadNibbleOf s.fileReadKey := by
    rw [Sdm.fileReadNibble, Sdm.fileReadKey]
    cases s.fileRead <;> rfl
  have hpicc : s.piccNibble ∈ accessNibbles := by
    rw [Sdm.piccNibble]
    rcases s.piccData with _ | mirror | ⟨k, offset, content⟩
    · simp [accessNibbles]
    · simp [accessNibbles]
    · exact k.asByte_mem
  have hkey : s.fileReadNibble ∈ accessNibbles := by
    rw [Sdm.fileReadNibble]
    rcases s.fileRead with _ | fr
    · decide
    · exact fr.key.asByte_mem
  have hret : (0xF0 ||| s.piccData.ctrRet.toNibble) &&& 0xF = s.piccData.ctrRet.toNibble ∧
      (0xF0 ||| s.piccData.ctrRet.toNibble) &&& 0xF0 = 0xF0 := by
    rcases s.piccData.ctrRet with (_ | _ | _ | _ | _) | _ | _ <;> decide
  obtain ⟨hhigh, hlow⟩ := nibble_pair hpicc hkey
  exact ⟨hhigh, hlow.trans hfile, hret.1, hret.2⟩

/-- The option bits of a block. -/
theorem Sdm.block_option (s : Sdm) (limit : Option Offset) :
    s.optionsByte &&& 0b111 = 0b001 ∧
      (s.block limit).option 0x80 = s.piccData.includesUid ∧
      (s.block limit).option 0x40 = s.piccData.includesRctr ∧
      (s.block limit).option 0x20 = s.piccData.readCtrLimit.isSome ∧
      (s.block limit).option 0x10 = (s.fileRead.bind FileRead.enc).isSome ∧
      (s.block limit).option 0x08 = s.tamperStatus.isSome :=
  sdmOptionsOf_bits _ _ _ _ _

/-- The number of the limit stands for the limit that is read back. -/
theorem limitOf_eq {limit : Option Offset} :
    SdmBlock.limitOf limit = normalLimit (limit.map Offset.val) := by
  cases limit with
  | none => rfl
  | some v =>
      by_cases hv : v.val = 0xFFFFFF
      · simp [SdmBlock.limitOf, normalLimit, Option.filter, hv]
      · simp [SdmBlock.limitOf, normalLimit, Option.filter, hv]

/-- **The block of some settings describes them**, as they are read back. -/
theorem Sdm.describes_block (s : Sdm) {limit : Option Offset}
    (hlimit : limit.map Offset.val = s.piccData.readCtrLimit) :
    (s.block limit).Describes s.normal s.fileReadKey s.piccData.ctrRet := by
  obtain ⟨hmeta, hfile, hret, hresr⟩ := s.block_nibbles limit
  obtain ⟨hres, hbuid, hbctr, hblim, hbenc, hbtt⟩ := s.block_option limit
  have hsome : limit.isSome = s.piccData.readCtrLimit.isSome := by
    rw [← hlimit, Option.isSome_map]
  refine {
    reserved := hres
    reservedRights := hresr
    readKey := by rw [hfile, fileReadKeyFromNibble_eq_ok_iff]
    retAccess := by rw [hret, CtrRetAccess.fromNibble_toNibble]
    noCtrRet := ?_, uid := ?_, readCtr := ?_, picc := ?_
    tamper := hbtt.symm
    macInput := by simp only [Sdm.block, Sdm.fileReadKey, Option.isSome_map]
    enc := ?_
    mac := by simp only [Sdm.block, Sdm.fileReadKey, Option.isSome_map]
    limit := hsome.trans hblim.symm
    limitMirror := ?_, piccData := ?_, fileRead := ?_
    tamperStatus := rfl }
  · rw [hbctr]
    rcases s.piccData with _ | (uid | m | ⟨uid, m⟩) | ⟨key, offset, (_ | f | f)⟩ <;> simp
      [PiccData.includesRctr, PiccData.ctrRet]
  · rw [hbuid, hmeta, Sdm.piccNibble, Sdm.block]
    rcases s.piccData with _ | (uid | m | ⟨uid, m⟩) | ⟨key, offset, (_ | f | f)⟩
    all_goals first | rfl | (cases key <;> rfl)
  · rw [hbctr, hmeta, Sdm.piccNibble, Sdm.block]
    rcases s.piccData with _ | (uid | m | ⟨uid, m⟩) | ⟨key, offset, (_ | f | f)⟩
    all_goals first | rfl | (cases key <;> rfl)
  · rw [hmeta, Sdm.piccNibble, Sdm.block]
    rcases s.piccData with _ | mirror | ⟨key, offset, content⟩
    all_goals first | rfl | (cases key <;> rfl)
  · rw [hbenc, Sdm.block, Sdm.fileReadKey]
    rcases s.fileRead with _ | ⟨key, window⟩ | ⟨key, window, enc⟩ <;> rfl
  · rw [hbctr]
    intro h
    rw [show (s.block limit).limit = limit from rfl, hsome] at h
    revert h
    rcases s.piccData with _ | (uid | m | ⟨uid, m⟩) | ⟨key, offset, (_ | f | f)⟩ <;> simp
      [PiccData.includesRctr, PiccData.readCtrLimit]
  · rw [hbuid, hbctr, hmeta, limitOf_eq, show (s.block limit).limit = limit from rfl, hlimit]
    rw [Sdm.piccNibble, Sdm.block]
    change decodePiccData _ _ _ _ _ _ _ = .ok s.piccData.normal
    rcases s.piccData with _ | (uid | m | ⟨uid, m⟩) | ⟨key, offset, (_ | f | f)⟩
    all_goals first | rfl | (cases key <;> rfl)
  · rw [Sdm.fileReadKey, Sdm.block]
    change decodeFileRead _ _ _ _ = .ok s.fileRead
    rcases s.fileRead with _ | ⟨key, window⟩ | ⟨key, window, enc⟩ <;> rfl

/-! ### Canonical blocks -/

/-- The option bits that are set have an effect, and the limit is one. -/
structure SdmBlock.Canonical (b : SdmBlock) : Prop where
  mirrors : b.metaNibble = 0xF → b.option 0x80 = false ∧ b.option 0x40 = false
  enc : b.option 0x10 = true → b.fileReadNibble ≠ 0xF
  limit : ∀ v ∈ b.limit, v.val ≠ 0xFFFFFF

/-- Mirrored identity data, by the nibble of the right to it. -/
theorem decodePiccData_eq_ok {metaNibble : UInt8} {uidMirror rctrMirror : Bool}
    {uid rctr picc : Option Offset} {f : ReadCtrFeatures} {piccData : PiccData}
    (h : decodePiccData metaNibble uidMirror rctrMirror uid rctr picc f = .ok piccData) :
    (metaNibble = 0xE ∧ ∃ mirror, piccData = .plain mirror ∧ mirror.uidOffset = uid ∧
        mirror.rctrOffset = rctr ∧ (rctr.isSome = true →
          piccData.readCtrLimit = f.limit ∧ piccData.ctrRet = f.retAccess)) ∨
      (∃ key offset content, piccData = .encrypted key offset content ∧ metaNibble = key.asByte ∧
        picc = some offset ∧ content.includesUid = uidMirror ∧ content.includesRctr = rctrMirror ∧
        (rctrMirror = true → piccData.readCtrLimit = f.limit ∧ piccData.ctrRet = f.retAccess)) ∨
      (metaNibble = 0xF ∧ piccData = .none) := by
  unfold decodePiccData at h
  split at h
  · rename_i hmeta
    refine .inl ⟨hmeta, ?_⟩
    split at h <;> cases h
    · exact ⟨_, rfl, rfl, rfl, fun _ => ⟨rfl, rfl⟩⟩
    · exact ⟨_, rfl, rfl, rfl, nofun⟩
    · exact ⟨_, rfl, rfl, rfl, fun _ => ⟨rfl, rfl⟩⟩
  · split at h
    · rename_i key hkey
      refine .inr (.inl ?_)
      have hmeta := keyFromNibble_eq_ok_iff.mp hkey
      split at h
      · cases h
      · split at h <;> cases h
        · exact ⟨key, _, _, rfl, hmeta, rfl, rfl, rfl, fun _ => ⟨rfl, rfl⟩⟩
        · exact ⟨key, _, _, rfl, hmeta, rfl, rfl, rfl, nofun⟩
        · exact ⟨key, _, _, rfl, hmeta, rfl, rfl, rfl, fun _ => ⟨rfl, rfl⟩⟩
    · split at h
      · rename_i hmeta
        cases h
        exact .inr (.inr ⟨hmeta, rfl⟩)
      · cases h

namespace SdmBlock.Describes

variable {b : SdmBlock} {s : Sdm} {key : Option KeyNumber} {ctrRet : CtrRetAccess}

/-- What a block says about the file read. -/
theorem fileRead_eq (hb : b.Describes s key ctrRet) :
    s.fileReadKey = key ∧ b.macInput = s.fileRead.map (fun fr => fr.window.input) ∧
      b.mac = s.fileRead.map (fun fr => fr.window.mac) ∧ b.enc = s.fileRead.bind FileRead.enc := by
  have hread := hb.fileRead
  have henc := hb.enc
  unfold decodeFileRead at hread
  split at hread
  · rename_i hin hmac
    split at hread
    · rename_i hsome
      rw [Sdm.fileReadKey, ← Except.ok.inj hread, hin, hmac, hsome]
      exact ⟨rfl, rfl, rfl, rfl⟩
    · rename_i hnone
      rw [Sdm.fileReadKey, ← Except.ok.inj hread, hin, hmac, hnone]
      exact ⟨rfl, rfl, rfl, rfl⟩
  · rename_i hin hmac
    have hnone : b.enc = none := by simpa using henc
    rw [Sdm.fileReadKey, ← Except.ok.inj hread, hin, hmac, hnone]
    exact ⟨rfl, rfl, rfl, rfl⟩
  · cases hread

/-- **A canonical block is the block of the settings it describes.** -/
theorem eq_block (hb : b.Describes s key ctrRet) (hc : b.Canonical) :
    b = s.block b.limit ∧ b.limit.map Offset.val = s.piccData.readCtrLimit := by
  obtain ⟨hkey, hin, hmac, henc⟩ := hb.fileRead_eq
  have hfile : b.fileReadNibble = fileReadNibbleOf s.fileReadKey := by
    rw [hkey]
    exact fileReadKeyFromNibble_eq_ok_iff.mp hb.readKey
  have hret := CtrRetAccess.fromNibble_eq_ok_iff.mp hb.retAccess
  have hlimit : limitOf b.limit = b.limit.map Offset.val := by
    rw [limitOf_eq, normalLimit_eq_self]
    intro hmax
    obtain ⟨v, hv, hval⟩ := Option.map_eq_some_iff.mp hmax
    exact hc.limit v hv hval
  -- what the mirror configuration says, in the three cases of the nibble
  have hpicc : b.metaNibble = s.piccNibble ∧ b.option 0x80 = s.piccData.includesUid ∧
      b.option 0x40 = s.piccData.includesRctr ∧ b.uid = (s.block b.limit).uid ∧
      b.readCtr = (s.block b.limit).readCtr ∧ b.picc = (s.block b.limit).picc ∧
      (b.option 0x40 = true → s.piccData.readCtrLimit = limitOf b.limit ∧
        s.piccData.ctrRet = ctrRet) := by
    have huid := hb.uid
    have hctr := hb.readCtr
    have hpicc := hb.picc
    rw [Sdm.piccNibble, Sdm.block]
    rcases decodePiccData_eq_ok hb.piccData with
      ⟨hmeta, mirror, hs, hmu, hmc, hf⟩ | ⟨k, offset, content, hs, hmeta, hsome, hu, hr, hf⟩ |
        ⟨hmeta, hs⟩
    · rw [hmeta] at huid hctr hpicc
      simp only [beq_self_eq_true, Bool.and_true] at huid hctr
      have hnone : b.picc = none := by
        cases hp : b.picc with
        | none => rfl
        | some o => exact absurd (hp ▸ hpicc) (by simp)
      rw [hs] at hf ⊢
      refine ⟨hmeta, ?_, ?_, hmu.symm, hmc.symm, hnone, ?_⟩
      · rw [← huid, ← hmu]
        cases mirror <;> rfl
      · rw [← hctr, ← hmc]
        cases mirror <;> rfl
      · rw [← hctr]
        exact hf
    · have hne : (b.metaNibble == 0xE) = false := by
        rw [hmeta]
        cases k <;> rfl
      simp only [hne, Bool.and_false, Option.isSome_eq_false_iff,
        Option.isNone_iff_eq_none] at huid hctr
      rw [hs] at hf ⊢
      refine ⟨hmeta, ?_, ?_, huid, hctr, hsome, hf⟩
      · rw [← hu]
        cases content <;> rfl
      · rw [← hr]
        cases content <;> rfl
    · have hne : (b.metaNibble == 0xE) = false := by
        rw [hmeta]
        rfl
      rw [hmeta] at hpicc
      have hnone : b.picc = none := by
        cases hp : b.picc with
        | none => rfl
        | some o => exact absurd (hp ▸ hpicc) (by simp)
      simp only [hne, Bool.and_false, Option.isSome_eq_false_iff,
        Option.isNone_iff_eq_none] at huid hctr
      obtain ⟨h80, h40⟩ := hc.mirrors hmeta
      rw [hs, h80, h40]
      exact ⟨hmeta, rfl, rfl, huid, hctr, hnone, by rintro ⟨⟩⟩
  obtain ⟨hmeta, h80, h40, huid, hctr, hpi, hfeatures⟩ := hpicc
  have hctrRet : s.piccData.ctrRet = ctrRet := by
    by_cases hmirror : b.option 0x40 = true
    · exact (hfeatures hmirror).2
    · have hno := hb.noCtrRet (Bool.eq_false_iff.mpr hmirror)
      rw [hno]
      rw [h40] at hmirror
      revert hmirror
      rcases s.piccData with _ | (uid | m | ⟨uid, m⟩) | ⟨key, offset, (_ | f | f)⟩ <;> simp
        [PiccData.includesRctr, PiccData.ctrRet]
  have hlim : b.limit.map Offset.val = s.piccData.readCtrLimit := by
    by_cases hmirror : b.option 0x40 = true
    · rw [(hfeatures hmirror).1, hlimit]
    · have hnone : b.limit = none := by
        cases hl : b.limit with
        | none => rfl
        | some v => exact absurd (hb.limitMirror (by rw [hl]; rfl)) hmirror
      rw [hnone]
      rw [h40] at hmirror
      revert hmirror
      rcases s.piccData with _ | (uid | m | ⟨uid, m⟩) | ⟨key, offset, (_ | f | f)⟩ <;> simp
        [PiccData.includesRctr, PiccData.readCtrLimit]
  have h20 : b.option 0x20 = s.piccData.readCtrLimit.isSome := by
    rw [← hb.limit, ← hlim, Option.isSome_map]
  have h10 : b.option 0x10 = (s.fileRead.bind FileRead.enc).isSome := by
    rw [← henc, hb.enc]
    cases hbit : b.option 0x10 with
    | false => rw [Bool.and_false]
    | true =>
        have hne := hc.enc hbit
        rw [hfile, hkey] at hne
        cases key with
        | none => exact absurd rfl hne
        | some k => rfl
  have hoptions : b.options = s.optionsByte := by
    rw [eq_sdmOptionsOf hb.reserved]
    change sdmOptionsOf (b.option 0x80) (b.option 0x40) (b.option 0x20) (b.option 0x10)
      (b.option 0x08) = _
    rw [h80, h40, h20, h10, ← hb.tamper, hb.tamperStatus]
    rfl
  have hrights : b.rights.toList = s.accessBytes := by
    have h0 : b.rights.byte 0 = 0xF0 ||| s.piccData.ctrRet.toNibble := by
      rw [← high_nibble_eq hb.reservedRights, hctrRet, ← hret]
      rfl
    have h1 : b.rights.byte 1 = s.piccNibble <<< 4 ||| s.fileReadNibble := by
      have hf : s.fileReadNibble = fileReadNibbleOf s.fileReadKey := by
        rw [Sdm.fileReadNibble, Sdm.fileReadKey]
        cases s.fileRead <;> rfl
      rw [← nibbles_eq (b.rights.byte 1), hf, ← hfile, ← hmeta]
      rfl
    rw [Bytes.toList_eq_pair, h0, h1]
    rfl
  refine ⟨?_, hlim⟩
  obtain ⟨options, rights, uid, readCtr, picc, tamper, macInput, enc, mac, limit⟩ := b
  have hrights' : rights = ⟨s.accessBytes, rfl⟩ := Bytes.ext hrights
  simp only at hoptions huid hctr hpi hin henc hmac
  rw [Sdm.block]
  simp only [SdmBlock.mk.injEq]
  exact ⟨hoptions, hrights', huid, hctr, hpi, hb.tamperStatus, hin, henc, hmac, trivial⟩

end SdmBlock.Describes

/-! ### Whole payloads -/

/-- Access rights are read back as written, and written as read. -/
theorem AccessRights.fromLeBytes_eq_ok_iff {b₀ b₁ : UInt8} {a : AccessRights} :
    AccessRights.fromLeBytes b₀ b₁ = .ok a ↔ [b₀, b₁] = a.toLeBytes := by
  simp only [AccessRights.fromLeBytes, Except.bind_eq_ok_iff, Except.pure_eq_ok_iff,
    Access.fromNibble_eq_ok_iff, AccessRights.toLeBytes, List.cons.injEq, and_true]
  constructor
  · rintro ⟨r, hr, w, hw, rw', hrw, c, hc, rfl⟩
    rw [← hr, ← hw, ← hrw, ← hc, nibbles_eq, nibbles_eq]
    exact ⟨rfl, rfl⟩
  · rintro ⟨rfl, rfl⟩
    obtain ⟨h₀, h₀'⟩ := nibble_pair a.readWrite.toNibble_mem a.change.toNibble_mem
    obtain ⟨h₁, h₁'⟩ := nibble_pair a.read.toNibble_mem a.write.toNibble_mem
    exact ⟨a.read, h₁, a.write, h₁', a.readWrite, h₀, a.change, h₀', rfl⟩

/-- The part of a payload behind the file size. -/
def SdmTail (enabled : Bool) (sdm : Option Sdm) (tail : List UInt8) : Prop :=
  if enabled then
    ∃ s b key ctrRet, sdm = some s ∧ SdmBlock.Describes b s key ctrRet ∧ tail = b.bytes
  else sdm = none ∧ tail = []

theorem readWhen_decodeSdm_eq_ok_iff {enabled : Bool} {x : Option Sdm} {c c' : Cursor} :
    Cursor.readWhen enabled decodeSdm c = .ok (x, c') ↔
      ∃ tail, SdmTail enabled x tail ∧ c.Reads tail c' := by
  unfold Cursor.readWhen SdmTail
  cases enabled with
  | true =>
      simp only [if_true, Decoder.bind_eq_ok_iff, Decoder.pure_eq_ok_iff, decodeSdm_eq_ok_iff]
      constructor
      · rintro ⟨s, c₁, ⟨b, key, ctrRet, hb, h⟩, rfl, rfl⟩
        exact ⟨b.bytes, ⟨s, b, key, ctrRet, rfl, hb, rfl⟩, h⟩
      · rintro ⟨_, ⟨s, b, key, ctrRet, rfl, hb, rfl⟩, h⟩
        exact ⟨s, c', ⟨b, key, ctrRet, hb, h⟩, rfl, rfl⟩
  | false =>
      simp only [if_neg (show ¬ false = true by decide), Decoder.pure_eq_ok_iff]
      constructor
      · rintro ⟨rfl, rfl⟩
        exact ⟨[], ⟨rfl, rfl⟩, Cursor.reads_nil_iff.mpr rfl⟩
      · rintro ⟨_, ⟨rfl, rfl⟩, h⟩
        exact ⟨rfl, Cursor.reads_nil_iff.mp h⟩

theorem FileType.fromByte_eq_ok_iff {b : UInt8} {t : FileType} :
    FileType.fromByte b = .ok t ↔ b = 0x00 := by
  unfold FileType.fromByte
  constructor
  · intro h
    split at h
    · assumption
    · cases h
  · rintro rfl
    rfl

/-- Nothing is left at the end of the buffer. -/
theorem Cursor.remaining_eq_zero_iff {c : Cursor} : c.remaining = 0 ↔ c.rest = [] := by
  rw [remaining, rest, List.drop_eq_nil_iff]
  omega

/-- **What `GetFileSettings` accepts.** -/
theorem FileSettingsView.decode_eq_ok_iff {p : List UInt8} {v : FileSettingsView} :
    decode p = .ok v ↔ ∃ (option : UInt8) (tail : List UInt8),
      p = [0x00] ++ ([option] ++ (v.accessRights.toLeBytes ++ (leBytes 3 v.fileSize ++ tail))) ∧
      v.fileSize < 256 ^ 3 ∧ option &&& fileOptionReserved = 0 ∧
      v.commMode = .fromBits option ∧ SdmTail (option &&& fileOptionSdm != 0) v.sdm tail := by
  have hrun : decode p = .ok v ↔ ∃ c', decoder (Cursor.new p) = .ok (v, c') := by
    unfold decode StateT.run'
    cases decoder (Cursor.new p) with
    | error e => simp [Functor.map, Except.map]
    | ok r =>
        obtain ⟨v', c'⟩ := r
        simp [Functor.map, Except.map]
  have hget : ∀ {c c' c'' : Cursor},
      (MonadState.get : Decoder Cursor) c = .ok (c', c'') ↔ c = c' ∧ c = c'' := by
    intro c c' c''
    constructor
    · rintro ⟨⟩
      exact ⟨rfl, rfl⟩
    · rintro ⟨rfl, rfl⟩
      rfl
  rw [hrun]
  simp only [decoder, Decoder.bind_eq_ok_iff, Decoder.ite_throw_eq_ok_iff, Decoder.lift_eq_ok_iff,
    Cursor.u8_eq_ok_iff, Cursor.array_eq_ok_iff (show 0 < 2 by decide), Cursor.u24Le_eq_ok_iff,
    Decoder.pure_eq_ok_iff, FileType.fromByte_eq_ok_iff, AccessRights.fromLeBytes_eq_ok_iff,
    readWhen_decodeSdm_eq_ok_iff, hget, not_not, Cursor.remaining_eq_zero_iff, ne_eq]
  constructor
  · rintro ⟨_, _, c₁, h₁, fileType, _, ⟨rfl, rfl⟩, option, c₂, h₂, rights, c₃, h₃, access, _,
      ⟨haccess, rfl⟩, size, c₄, ⟨hsize, h₄⟩, hres, sdm, c₅, ⟨tail, htail, h₅⟩, _, _, ⟨rfl, rfl⟩,
      hrest, rfl, rfl⟩
    refine ⟨option, tail, ?_, hsize, hres, rfl, htail⟩
    have hreads : (Cursor.new p).Reads
        ([0x00] ++ ([option] ++ (rights.toList ++ (leBytes 3 size ++ tail)))) c₅ := by
      simp only [Cursor.reads_append_iff]
      exact ⟨c₁, h₁, c₂, h₂, c₃, h₃, c₄, h₄, h₅⟩
    have hp := hreads.1
    rw [hrest, List.append_nil, Bytes.toList_eq_pair, haccess] at hp
    exact hp
  · rintro ⟨option, tail, hp, hsize, hres, hmode, htail⟩
    have hreads : (Cursor.new p).Reads p ⟨p, p.length⟩ := by
      refine ⟨?_, ?_⟩
      · simp [Cursor.rest, Cursor.new]
      · simp [Cursor.new]
    rw [hp] at hreads
    simp only [Cursor.reads_append_iff] at hreads
    obtain ⟨c₁, h₁, c₂, h₂, c₃, h₃, c₄, h₄, h₅⟩ := hreads
    obtain ⟨fileType, fileSize, commMode, access, sdm⟩ := v
    have hrest : (⟨p, p.length⟩ : Cursor).rest = [] := List.drop_eq_nil_iff.mpr (Nat.le_refl _)
    obtain rfl : commMode = .fromBits option := hmode
    rw [← hp] at h₁ h₅
    exact ⟨⟨p, p.length⟩, 0x00, c₁, h₁, fileType, c₁, ⟨rfl, rfl⟩, option, c₂, h₂,
      ⟨access.toLeBytes, rfl⟩, c₃, h₃, access, c₃, ⟨rfl, rfl⟩, fileSize, c₄, ⟨hsize, h₄⟩, hres, sdm,
      ⟨p, p.length⟩, ⟨tail, htail, h₅⟩, _, _, ⟨rfl, rfl⟩, hrest, rfl, rfl⟩

/-- The bytes behind the access rights, for SDM settings that are written. -/
def SdmWritten : Option Sdm → List UInt8 → Prop
  | none, tail => tail = []
  | some s, tail => ∃ limit : Option Offset,
      limit.map Offset.val = s.piccData.readCtrLimit ∧ tail = (s.block limit).bytes

/-- **What `ChangeFileSettings` writes**: the file option byte, the access rights and the block
of the SDM settings, if they fit. -/
theorem FileSettingsUpdate.encode_eq_ok_iff {u : FileSettingsUpdate} {cap : ℕ} {out : List UInt8} :
    u.encode cap = .ok out ↔ ∃ tail : List UInt8,
      out = [u.fileOption] ++ (u.accessRights.toLeBytes ++ tail) ∧ out.length ≤ cap ∧
      SdmWritten u.sdm tail := by
  simp only [encode, WCursor.u8, Except.bind_eq_ok_iff, Except.pure_eq_ok_iff,
    WCursor.array_eq_ok_iff, WCursor.new, List.nil_append]
  constructor
  · rintro ⟨w₁, ⟨hcap₁, hout₁⟩, w₂, ⟨hcap₂, hout₂⟩, w₃, h₃, rfl⟩
    have hcap : w₃.cap = cap := (Sdm.cap_encodeOption h₃).trans (hcap₂.trans hcap₁)
    cases hsdm : u.sdm with
    | none =>
        rw [hsdm] at h₃
        cases h₃
        refine ⟨[], ?_, hcap ▸ w₂.length_le, rfl⟩
        rw [hout₂, hout₁, List.append_nil]
    | some s =>
        rw [hsdm] at h₃
        obtain ⟨limit, hlimit, -, hout⟩ := Sdm.encode_eq_ok_iff.mp h₃
        refine ⟨_, ?_, hcap ▸ w₃.length_le, limit, hlimit, rfl⟩
        rw [hout, hout₂, hout₁, List.append_assoc]
  · rintro ⟨tail, rfl, hfits, htail⟩
    simp only [List.length_append] at hfits
    refine ⟨⟨cap, [u.fileOption], by omega⟩, ⟨rfl, rfl⟩,
      ⟨cap, [u.fileOption] ++ u.accessRights.toLeBytes, by rw [List.length_append]; omega⟩,
      ⟨rfl, rfl⟩, ?_⟩
    refine ⟨⟨cap, [u.fileOption] ++ (u.accessRights.toLeBytes ++ tail), by
      simp only [List.length_append]; omega⟩, ?_, rfl⟩
    cases hsdm : u.sdm with
    | none =>
        rw [hsdm] at htail
        obtain rfl : tail = [] := htail
        simp only [Sdm.encodeOption, List.append_nil]
    | some s =>
        rw [hsdm] at htail
        obtain ⟨limit, hlimit, rfl⟩ := htail
        exact Sdm.encode_eq_ok_iff.mpr ⟨limit, hlimit, rfl, (List.append_assoc ..).symm⟩

/-- The bits of the file option byte. -/
theorem FileSettingsUpdate.fileOption_bits (u : FileSettingsUpdate) :
    u.fileOption &&& fileOptionReserved = 0 ∧ CommMode.fromBits u.fileOption = u.commMode ∧
      (u.fileOption &&& fileOptionSdm != 0) = u.sdm.isSome := by
  have hall : ∀ (mode : CommMode) (sdm : Bool),
      (mode.toBits ||| Sdm.optionBit sdm fileOptionSdm) &&& fileOptionReserved = 0 ∧
        CommMode.fromBits (mode.toBits ||| Sdm.optionBit sdm fileOptionSdm) = mode ∧
        ((mode.toBits ||| Sdm.optionBit sdm fileOptionSdm) &&& fileOptionSdm != 0) = sdm := by
    rintro (_ | _ | _) (_ | _) <;> decide
  exact hall u.commMode u.sdm.isSome

/-- The `GetFileSettings` payload of a file with the mutable bytes `out`. -/
def payloadWith (out : List UInt8) (fileSize : ℕ) : List UInt8 :=
  0x00 :: out.take 3 ++ leBytes 3 fileSize ++ out.drop 3

/-- The bytes of a payload that `ChangeFileSettings` overwrites: the file option byte, the
access rights and everything behind the file size. -/
def mutableBytes (p : List UInt8) : List UInt8 := slice p 1 3 ++ p.drop 7

/-- What an update encodes decodes into its settings. -/
theorem FileSettingsUpdate.decode_payloadWith {u : FileSettingsUpdate} {cap fileSize : ℕ}
    {out : List UInt8} (hsize : fileSize < 2 ^ 24) (h : u.encode cap = .ok out) :
    FileSettingsView.decode (payloadWith out fileSize) =
      .ok ⟨.standardData, fileSize, u.commMode, u.accessRights, u.sdm.map Sdm.normal⟩ := by
  obtain ⟨tail, rfl, -, htail⟩ := encode_eq_ok_iff.mp h
  obtain ⟨hres, hmode, hbit⟩ := u.fileOption_bits
  refine FileSettingsView.decode_eq_ok_iff.mpr
    ⟨u.fileOption, tail, ?_, by omega, hres, hmode.symm, ?_⟩
  · have hlen : ([u.fileOption] ++ u.accessRights.toLeBytes).length = 3 := rfl
    rw [payloadWith, ← List.append_assoc [u.fileOption], List.take_left' hlen, List.drop_left' hlen]
    simp only [List.append_assoc, List.cons_append, List.nil_append]
  · rw [SdmTail, hbit]
    cases hsdm : u.sdm with
    | none =>
        rw [hsdm] at htail
        rw [if_neg nofun]
        exact ⟨rfl, htail⟩
    | some s =>
        rw [hsdm] at htail
        obtain ⟨limit, hlimit, rfl⟩ := htail
        rw [if_pos Option.isSome_some]
        exact ⟨s.normal, _, _, _, rfl, s.describes_block hlimit, rfl⟩

/-- **Encoding, then decoding.** What `ChangeFileSettings` writes is read back by
`GetFileSettings` as it was given, except that the largest read-counter limit, which stands for
no limit on the wire, is read back as no limit. -/
theorem FileSettingsUpdate.decode_encode {u : FileSettingsUpdate} {cap fileSize : ℕ}
    {out : List UInt8} (hsize : fileSize < 2 ^ 24) (h : u.encode cap = .ok out) :
    FileSettingsView.decode (payloadWith out fileSize) =
        .ok ⟨.standardData, fileSize, u.commMode, u.accessRights, u.sdm.map Sdm.normal⟩ ∧
      ∀ s ∈ u.sdm, s.piccData.readCtrLimit ≠ some 0xFFFFFF → s.normal = s :=
  ⟨decode_payloadWith hsize h, fun _ _ hs => Sdm.normal_eq_self hs⟩

/-- Settings with all mirrors and a limit are read back from their 27 bytes. -/
theorem FileSettingsUpdate.decode_encode_mirroringAll :
    let rights : AccessRights := ⟨.free, .key .key0, .key .key1, .noAccess⟩
    let out : List UInt8 := [0x41, 0x1F, 0xE0, 0xF9, 0xF3, 0x21, 0x12, 0, 0, 0x52, 0, 0, 0x12, 0, 0,
      0x52, 0, 0, 0x40, 0, 0, 0xA0, 0, 0, 0xE8, 0x03, 0]
    (⟨.mac, rights, some .mirroringAll⟩ : FileSettingsUpdate).encode maxChangeFileSettingsLen =
        .ok out ∧
      FileSettingsView.decode (payloadWith out 256) =
        .ok ⟨.standardData, 256, .mac, rights, some .mirroringAll⟩ := by
  intro rights out
  have hencode : (⟨.mac, rights, some .mirroringAll⟩ : FileSettingsUpdate).encode
      maxChangeFileSettingsLen = .ok out := by decide +kernel
  have hsize : 256 < 2 ^ 24 := by decide
  obtain ⟨hdecode, hnormal⟩ := FileSettingsUpdate.decode_encode hsize hencode
  have hlimit : Sdm.mirroringAll.piccData.readCtrLimit ≠ some 0xFFFFFF := by decide
  refine ⟨hencode, hdecode.trans ?_⟩
  rw [Option.map_some, hnormal .mirroringAll rfl hlimit]

/-- The largest limit is written, but not read back. -/
theorem FileSettingsUpdate.max_limit_not_read_back :
    ∃ s : Sdm,
      Sdm.tryNew (.plain (.rCtr ⟨⟨0x43, by decide⟩, ⟨some 0xFFFFFF, .noAccess⟩⟩)) none none .aes =
        .ok s ∧
      ∃ out, (⟨.plain, ⟨.free, .free, .free, .free⟩, some s⟩ : FileSettingsUpdate).encode
          maxChangeFileSettingsLen = .ok out ∧
        FileSettingsView.decode (payloadWith out 256) ≠
          .ok ⟨.standardData, 256, .plain, ⟨.free, .free, .free, .free⟩, some s⟩ := by
  refine ⟨_, rfl, _, rfl, ?_⟩
  intro h
  have hlimit := congrArg (Except.toOption ∘ Except.map fun v =>
    v.sdm.map fun s => s.piccData.readCtrLimit) h
  revert hlimit
  decide

end Ntag424
