import Mathlib.Tactic.Common
import Ntag424.FileSettings.Codec
import Ntag424.SdmVerify.Verifier

/-!
# Validation of a Stored Verifier

A verifier that was deserialized is checked by rebuilding the SDM settings it stands for
(`Verifier::validate`). The rebuilt settings always claim the full encrypted content, because
a verifier does not store it.

## Main results

* `Verifier.validate_eq_ok_iff`: validation passes exactly when the rebuilt parts form SDM
  settings.
* `Verifier.tryNew_valid_iff`: a verifier that was constructed is valid exactly when the blob of
  its settings keeps away from the other placeholders.
-/

namespace Ntag424

namespace Verifier

/-- Counter features of the rebuilt settings; they play no role in verification. -/
def anyFeatures : ReadCtrFeatures := ⟨none, .free⟩

/-- The identity data of the rebuilt settings. -/
def rebuildPiccData (v : Verifier) : Except FileSettingsError PiccData :=
  match v.piccSource with
  | .encrypted offset => do
      let offset ← Offset.new offset
      match v.metaReadKey with
      | some key => .ok (.encrypted key offset (.both anyFeatures))
      | none => .error .invalidSdmFlags
  | .plain (some off) none => do
      let uid ← Offset.new off
      return .plain (.uid uid)
  | .plain none (some off) => do
      let offset ← Offset.new off
      return .plain (.rCtr ⟨offset, anyFeatures⟩)
  | .plain (some uidOff) (some rctrOff) => do
      let uid ← Offset.new uidOff
      let offset ← Offset.new rctrOff
      return .plain (.both uid ⟨offset, anyFeatures⟩)
  | .plain none none => .ok .none
  | .none => .ok .none

/-- The file-read configuration of the rebuilt settings. -/
def rebuildFileRead (v : Verifier) : Except FileSettingsError FileRead := do
  let input ← Offset.new v.macInputOffset
  let mac ← Offset.new v.macOffset
  match v.encData with
  | some range => do
      let start ← Offset.new range.1
      let len ← if range.1 ≤ range.2 then .ok (range.2 - range.1)
        else .error (.encLengthInvalid 0)
      let length ← EncLength.new len
      return .macAndEnc v.fileReadKey ⟨input, mac⟩ ⟨start, length⟩
  | none => return .macOnly v.fileReadKey ⟨input, mac⟩

/-- `Verifier::validate`. -/
def validate (v : Verifier) : Except FileSettingsError Unit :=
  if (match v.piccSource with | .encrypted _ => false | _ => true) && v.metaReadKey.isSome then
    .error .invalidSdmFlags
  else do
    let piccData ← v.rebuildPiccData
    let fileRead ← v.rebuildFileRead
    let tamperStatus ← v.tamperStatusOffset.mapM Offset.new
    let _ ← Sdm.tryNew piccData (some fileRead) tamperStatus v.mode
    return ()

/-- **Validation passes exactly when the rebuilt parts form SDM settings**; a key for a blob
that is not there is refused. -/
theorem validate_eq_ok_iff {v : Verifier} :
    v.validate = .ok () ↔
      ((∃ offset, v.piccSource = .encrypted offset) ∨ v.metaReadKey = none) ∧
      ∃ pd fr tt, v.rebuildPiccData = .ok pd ∧ v.rebuildFileRead = .ok fr ∧
        v.tamperStatusOffset.mapM Offset.new = .ok tt ∧
        Sdm.checkInner pd (some fr) tt = .ok () ∧
        Sdm.checkPicc pd (some fr) tt v.mode = .ok () := by
  have hkey : ((match v.piccSource with | .encrypted _ => false | _ => true) &&
      v.metaReadKey.isSome) = true ↔
        ¬ ((∃ offset, v.piccSource = .encrypted offset) ∨ v.metaReadKey = none) := by
    cases v.piccSource <;> cases v.metaReadKey <;> simp
  rw [validate]
  by_cases h : (∃ offset, v.piccSource = .encrypted offset) ∨ v.metaReadKey = none
  · rw [if_neg (fun hc => hkey.mp hc h)]
    simp only [Except.bind_eq_ok_iff, Except.pure_eq_ok_iff, and_true, h, true_and]
    constructor
    · rintro ⟨pd, hpd, fr, hfr, tt, htt, s, hs⟩
      obtain ⟨hi, hp⟩ := Sdm.tryNew_isOk_iff.mp (Except.isOk_iff.mpr ⟨s, hs⟩)
      exact ⟨pd, fr, tt, hpd, hfr, htt, hi, hp⟩
    · rintro ⟨pd, fr, tt, hpd, hfr, htt, hi, hp⟩
      exact ⟨pd, hpd, fr, hfr, tt, htt,
        Except.isOk_iff.mp (Sdm.tryNew_isOk_iff.mpr ⟨hi, hp⟩)⟩
  · rw [if_pos (hkey.mpr h)]
    simp [h]

/-! ### Constructed verifiers -/

/-- What a verifier keeps of the identity data, as it is rebuilt: an encrypted blob is taken to
hold everything, and the features of a counter are forgotten. -/
def keptPiccData : PiccData → PiccData
  | .encrypted key offset _ => .encrypted key offset (.both anyFeatures)
  | .plain (.uid u) => .plain (.uid u)
  | .plain (.rCtr c) => .plain (.rCtr ⟨c.offset, anyFeatures⟩)
  | .plain (.both u c) => .plain (.both u ⟨c.offset, anyFeatures⟩)
  | .none => .none

section Constructed

variable {v : Verifier} {s : Sdm} {mode : CryptoMode}

theorem rebuildPiccData_tryNew (h : tryNew s mode = .ok v) :
    v.rebuildPiccData = .ok (keptPiccData s.piccData) := by
  obtain ⟨fr, -, rfl⟩ := tryNew_eq_ok_iff.mp h
  rw [rebuildPiccData]
  rcases s.piccData with _ | (_ | _ | _) | _ <;>
    simp [piccSourceOf, PlainMirror.uidOffset, PlainMirror.rctrOffset, keptPiccData]

theorem rebuildFileRead_tryNew (h : tryNew s mode = .ok v) :
    ∃ fr, s.fileRead = some fr ∧ v.rebuildFileRead = .ok fr := by
  obtain ⟨fr, hfr, rfl⟩ := tryNew_eq_ok_iff.mp h
  refine ⟨fr, hfr, ?_⟩
  rw [rebuildFileRead]
  cases fr with
  | macOnly key w =>
      simp only [FileRead.window, FileRead.enc, FileRead.key, Offset.new_val, Except.ok_bind',
        Option.map_none]
      rfl
  | macAndEnc key w enc =>
      simp only [FileRead.window, FileRead.enc, FileRead.key, Offset.new_val, Except.ok_bind',
        Option.map_some, if_pos (Nat.le_add_right _ _), Nat.add_sub_cancel_left,
        EncLength.new_eq_ok_iff.mpr rfl]
      rfl

theorem rebuildTamperStatus_tryNew (h : tryNew s mode = .ok v) :
    v.tamperStatusOffset.mapM Offset.new = .ok s.tamperStatus := by
  obtain ⟨fr, -, rfl⟩ := tryNew_eq_ok_iff.mp h
  cases s.tamperStatus with
  | none => rfl
  | some tt => simp

/-- The rebuilt settings have the placeholders of the original ones, and mirror at least what
they mirror. -/
theorem checkInner_kept {pd : PiccData} {fr : Option FileRead} {tt : Option Offset}
    (h : Sdm.checkInner pd fr tt = .ok ()) : Sdm.checkInner (keptPiccData pd) fr tt = .ok () := by
  have huid : uidRange (keptPiccData pd) = uidRange pd := by
    rcases pd with _ | (_ | _ | _) | _ <;> rfl
  have hctr : rctrRange (keptPiccData pd) = rctrRange pd := by
    rcases pd with _ | (_ | _ | _) | _ <;> rfl
  have hmirrors : pd.includesUid = true → (keptPiccData pd).includesUid = true := by
    rcases pd with _ | (_ | _ | _) | _ <;> simp [keptPiccData, PiccData.includesUid]
  have hmirrors' : pd.includesRctr = true → (keptPiccData pd).includesRctr = true := by
    rcases pd with _ | (_ | _ | _) | _ <;> simp [keptPiccData, PiccData.includesRctr]
  simp only [Sdm.checkInner, Except.andThen_eq_ok_iff, checkEncRange_eq_ok_iff, huid, hctr] at h ⊢
  exact ⟨h.1, fun fr hfr enc henc =>
    ⟨(h.2.1 fr hfr enc henc).1, hmirrors (h.2.1 fr hfr enc henc).2.1,
      hmirrors' (h.2.1 fr hfr enc henc).2.2⟩, h.2.2⟩

theorem checkPicc_kept {pd : PiccData} {fr : Option FileRead} {tt : Option Offset} :
    Sdm.checkPicc (keptPiccData pd) fr tt mode = Sdm.checkPicc pd fr tt mode := by
  have hpicc : piccRange mode (keptPiccData pd) = piccRange mode pd := by
    rcases pd with _ | (_ | _ | _) | _ <;> rfl
  rw [Sdm.checkPicc, Sdm.checkPicc, hpicc]

/-- A constructed verifier is consistent when its settings pass the checks of its mode. -/
theorem validate_tryNew_iff (h : tryNew s mode = .ok v) :
    v.validate = .ok () ↔
      Sdm.checkPicc s.piccData s.fileRead s.tamperStatus mode = .ok () := by
  obtain ⟨fr, hfr, hrebuilt⟩ := rebuildFileRead_tryNew h
  have hkey : (∃ offset, v.piccSource = .encrypted offset) ∨ v.metaReadKey = none := by
    obtain ⟨_, -, rfl⟩ := tryNew_eq_ok_iff.mp h
    cases s.piccData with
    | encrypted key off content => exact .inl ⟨_, rfl⟩
    | plain | none => exact .inr rfl
  have hmode : v.mode = mode := by
    obtain ⟨_, -, rfl⟩ := tryNew_eq_ok_iff.mp h
    rfl
  rw [validate_eq_ok_iff, rebuildPiccData_tryNew h, hrebuilt, rebuildTamperStatus_tryNew h, hmode,
    hfr]
  constructor
  · rintro ⟨-, pd, fr', tt, hpd, hfr', htt, -, hpicc⟩
    obtain rfl := Except.ok.inj hpd
    obtain rfl := Except.ok.inj hfr'
    obtain rfl := Except.ok.inj htt
    rwa [checkPicc_kept] at hpicc
  · intro hpicc
    refine ⟨hkey, _, _, _, rfl, rfl, rfl, checkInner_kept ?_, by rwa [checkPicc_kept]⟩
    rw [← hfr]
    exact s.valid

/-- The encrypted identity blob, with its width in a mode, keeps away from the other
placeholders. -/
def BlobApart (s : Sdm) (mode : CryptoMode) : Prop :=
  ∀ blob ∈ piccRange mode s.piccData,
    ∀ other ∈ [ttRange s.tamperStatus, macRange s.fileRead, encRange s.fileRead], ∀ r ∈ other,
      blob.1 + blob.2 ≤ r.1 ∨ r.1 + r.2 ≤ blob.1

/-- **A constructed verifier is valid exactly when the blob keeps away** from the other
placeholders: the constructor knows the mode, but does not compare. -/
theorem tryNew_valid_iff (s : Sdm) (mode : CryptoMode) (v : Verifier)
    (h : tryNew s mode = .ok v) : v.validate = .ok () ↔ BlobApart s mode := by
  rw [validate_tryNew_iff h]
  simp only [Sdm.checkPicc, Except.andThen_eq_ok_iff, checkOverlap_eq_ok_iff, BlobApart,
    List.forall_mem_cons, List.not_mem_nil, false_implies, implies_true, and_true]
  constructor
  · rintro ⟨htt, hmac, henc⟩ blob hblob
    exact ⟨htt blob hblob, hmac blob hblob, henc blob hblob⟩
  · intro hapart
    exact ⟨fun blob hblob => (hapart blob hblob).1, fun blob hblob => (hapart blob hblob).2.1,
      fun blob hblob => (hapart blob hblob).2.2⟩

/-- Settings read from a tag, with an AES blob that reaches into the MAC. -/
theorem decoded_overlap_not_valid :
    ∃ view s v, FileSettingsView.decode [0x00, 0x40, 0xEE, 0xEE, 0x00, 0x01, 0x00, 0xC1, 0xFF, 0x00,
        0x20, 0x00, 0x00, 0x20, 0x00, 0x00, 0x30, 0x00, 0x00] = .ok view ∧
      view.sdm = some s ∧ tryNew s .aes = .ok v ∧
        v.validate = .error (.mirrorsOverlap .piccAndMac) :=
  ⟨_, _, _, rfl, rfl, rfl, by decide +kernel⟩

/-- The verifier of the settings with all mirrors. -/
def mirroringAll (mode : CryptoMode) : Verifier :=
  ⟨mode, .encrypted 0x12, some .key2, .key1, 0x12, 0xA0, some 0x52, some (0x52, 0x92)⟩

/-- In AES mode it is valid, since the blob ends in front of the encrypted range. -/
theorem tryNew_valid_mirroringAll :
    tryNew .mirroringAll .aes = .ok (mirroringAll .aes) ∧ BlobApart .mirroringAll .aes ∧
      (mirroringAll .aes).validate = .ok () := by
  have hnew : tryNew .mirroringAll .aes = .ok (mirroringAll .aes) := rfl
  have hvalid : (mirroringAll .aes).validate = .ok () := rfl
  exact ⟨hnew, (tryNew_valid_iff .mirroringAll .aes (mirroringAll .aes) hnew).mp hvalid, hvalid⟩

end Constructed

end Verifier

end Ntag424
