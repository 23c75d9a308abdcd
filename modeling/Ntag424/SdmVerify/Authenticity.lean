import Mathlib.Tactic.Common
import Ntag424.SdmVerify.Verifier
import Ntag424.Standard

/-!
# What a Verification Authenticates

A statement about two runs of the verifier: readouts that agree on the source of the identity
data, on the MAC window and on the MAC itself give the same reported values. Every value but
one is read from these windows: the encrypted range lies inside the MAC window by the
validation of the settings. The tamper placeholder need not, since `MacWindow` alone defines
what is authenticated.

## Main results

* `Verifier.verify_eq_of_windows_eq`: readouts with the same authenticated windows carry the
  same UID, counter and file data, and the same tamper status if its placeholder lies in the
  MAC window.
* `Verifier.tamperBehindMac_not_authenticated`: a configuration whose tamper status is outside.
-/

namespace Ntag424

/-- Two readouts agree on everything the MAC and the identity data cover. -/
structure AuthenticatedWindowsAgree (v : Verifier) (d d' : List UInt8) : Prop where
  picc : v.PiccWindowsAgree d d'
  macInput : slice d v.macInputOffset (v.macOffset - v.macInputOffset) =
    slice d' v.macInputOffset (v.macOffset - v.macInputOffset)
  mac : slice d v.macOffset 16 = slice d' v.macOffset 16

/-- The tamper placeholder, if there is one, lies in the MAC window. -/
def Verifier.TamperInMacWindow (v : Verifier) : Prop :=
  ∀ off ∈ v.tamperStatusOffset, v.macInputOffset ≤ off ∧ off + 2 ≤ v.macOffset

namespace Verifier

variable {P : Primitives} {v : Verifier}

/-- **Authenticity of reported values.** If two readouts agree on the authenticated windows
and both verify, then both results carry the same UID, read counter and file data, and the
same tamper status when its placeholder lies in the MAC window. -/
theorem verify_eq_of_windows_eq {s : Sdm} {mode : CryptoMode} {d d' : List UInt8} {fk mk : Key}
    {r r' : SdmVerification} (hv : tryNew s mode = .ok v) (hd : AuthenticatedWindowsAgree v d d')
    (hr : v.verifyWithMetaKey P d fk mk = .ok r) (hr' : v.verifyWithMetaKey P d' fk mk = .ok r') :
    r.uid = r'.uid ∧ r.readCtr = r'.readCtr ∧ r.encFileData = r'.encFileData ∧
      (v.TamperInMacWindow → r.tamperStatus = r'.tamperStatus) := by
  obtain ⟨-, henc⟩ := windows_of_tryNew hv
  obtain ⟨picc₁, mac, enc, tt, hpicc, -, -, -, hdec, htt, rfl⟩ := verifyInner_eq_ok_iff.mp hr
  obtain ⟨picc₂, mac', enc', tt', hpicc', -, -, -, hdec', htt', rfl⟩ :=
    verifyInner_eq_ok_iff.mp hr'
  obtain rfl := extractPiccData_congr hd.picc hpicc hpicc'
  have hrange : ∀ range ∈ v.encData,
      slice d range.1 (range.2 - range.1) = slice d' range.1 (range.2 - range.1) := by
    intro range hrange
    obtain ⟨hin, hle, hout⟩ := henc range hrange
    exact slice_eq_of_slice_eq hd.macInput hin (by omega)
  obtain rfl := decryptEncFileData_congr hrange hdec hdec'
  refine ⟨rfl, rfl, rfl, fun hwin => ?_⟩
  refine extractTamperStatus_congr (fun off hoff _ => ?_) htt htt'
  obtain ⟨hin, hout⟩ := hwin off hoff
  exact ⟨getElem?_of_slice_eq hd.macInput hin (by omega),
    getElem?_of_slice_eq hd.macInput (by omega) (by omega)⟩

/-! ### A tamper status outside the window -/

/-- SDM settings with an empty MAC input, the MAC at the start of the file and the tamper
status behind it. -/
def tamperBehindMac : Sdm where
  piccData := .none
  fileRead := some (.macOnly .key0 ⟨⟨0, Offset.zero_le_max⟩, ⟨0, Offset.zero_le_max⟩⟩)
  tamperStatus := some ⟨16, by decide⟩
  valid := by decide

/-- The verifier of these settings. -/
def tamperBehindMacVerifier : Verifier := ⟨.aes, .none, none, .key0, 0, 0, some 16, none⟩

theorem tryNew_tamperBehindMac : tryNew tamperBehindMac .aes = .ok tamperBehindMacVerifier := rfl

/-- The readout of these settings under the all-zero key, with the given tamper bytes. -/
def tamperBehindMacReadout (a b : UInt8) : List UInt8 :=
  Hex.encode [0xBB, 0x15, 0x23, 0x54, 0x5B, 0x71, 0x8C, 0x07] ++ [a, b]

/-- The MAC of an empty window under the zero key, without UID and counter. -/
theorem verifyMac_nil_zeros :
    (deriveSdmKeys .standard .aes (Bytes.zeros 16) none none).verifyMac .standard []
      ⟨[0xBB, 0x15, 0x23, 0x54, 0x5B, 0x71, 0x8C, 0x07], rfl⟩ = true := by
  decide +kernel

/-- Every tamper status verifies. -/
theorem verify_tamperBehindMacReadout (a b : UInt8) :
    tamperBehindMacVerifier.verifyWithMetaKey .standard (tamperBehindMacReadout a b)
        (Bytes.zeros 16) (Bytes.zeros 16) =
      .ok ⟨none, none, some (.new a b), none⟩ :=
  verifyInner_eq_ok_iff.mpr ⟨⟨none, none⟩, _, none, some (.new a b), rfl,
    ⟨le_rfl, Nat.le_add_right 16 2⟩, rfl, verifyMac_nil_zeros, rfl, rfl, rfl⟩

theorem tamperBehindMac_windowsAgree (a b a' b' : UInt8) :
    AuthenticatedWindowsAgree tamperBehindMacVerifier (tamperBehindMacReadout a b)
      (tamperBehindMacReadout a' b') :=
  ⟨trivial, rfl, rfl⟩

/-- Authenticity at a closed and an open tamper loop behind the MAC: everything but the tamper
status agrees. -/
theorem verify_eq_of_windows_eq_tamperBehindMac :
    ∃ r r' : SdmVerification,
      tamperBehindMacVerifier.verifyWithMetaKey .standard (tamperBehindMacReadout 0x43 0x43)
        (Bytes.zeros 16) (Bytes.zeros 16) = .ok r ∧
      tamperBehindMacVerifier.verifyWithMetaKey .standard (tamperBehindMacReadout 0x4F 0x4F)
        (Bytes.zeros 16) (Bytes.zeros 16) = .ok r' ∧
      r.uid = r'.uid ∧ r.readCtr = r'.readCtr ∧ r.encFileData = r'.encFileData ∧
        (tamperBehindMacVerifier.TamperInMacWindow → r.tamperStatus = r'.tamperStatus) :=
  ⟨_, _, verify_tamperBehindMacReadout _ _, verify_tamperBehindMacReadout _ _,
    verify_eq_of_windows_eq tryNew_tamperBehindMac (tamperBehindMac_windowsAgree _ _ _ _)
      (verify_tamperBehindMacReadout 0x43 0x43) (verify_tamperBehindMacReadout 0x4F 0x4F)⟩

/-- **A tamper status outside the MAC window is not authenticated**: the closed and the open
loop verify under the same MAC and are reported as such. -/
theorem tamperBehindMac_not_authenticated :
    ¬ ∀ (picc : PiccData) (fileRead : Option FileRead) (tamper : Option Offset)
        (mode : CryptoMode) (s : Sdm) (v : Verifier) (d d' : List UInt8) (fk mk : Key)
        (r r' : SdmVerification),
        Sdm.tryNew picc fileRead tamper mode = .ok s → tryNew s mode = .ok v →
        AuthenticatedWindowsAgree v d d' → v.verifyWithMetaKey .standard d fk mk = .ok r →
        v.verifyWithMetaKey .standard d' fk mk = .ok r' →
        r.uid = r'.uid ∧ r.readCtr = r'.readCtr ∧ r.encFileData = r'.encFileData ∧
          r.tamperStatus = r'.tamperStatus := by
  intro h
  have := h _ _ _ .aes tamperBehindMac tamperBehindMacVerifier _ _ _ _ _ _
    (Sdm.tryNew_eq_ok_iff.mpr ⟨⟨rfl, rfl, rfl⟩, rfl⟩) tryNew_tamperBehindMac
    (tamperBehindMac_windowsAgree _ _ _ _)
    (verify_tamperBehindMacReadout 0x43 0x43) (verify_tamperBehindMacReadout 0x4F 0x4F)
  exact absurd this.2.2.2 (by decide)

end Verifier

end Ntag424
