import Mathlib.Tactic.Common
import Ntag424.SdmVerify.Authenticity

/-!
# Reported Identity Against Configured Identity

Whether a verification reports a UID and a read counter exactly when the settings mirror
them. For plain mirrors it does: presence is decided by the configured offsets. For an
encrypted PICCData blob it does not: the verifier keeps the offset of the blob but not its
configured content, and presence follows the tag byte found after decryption.

## Main results

* `Verifier.extractPiccData_presence`: plain and absent mirrors report exactly what is
  configured.
* `Verifier.presence_matches_iff`: reported presence matches the configuration for all
  primitives, keys and inputs exactly when the identity data is not mirrored encrypted (or
  nothing can verify at all).
-/

namespace Ntag424

open Outcome

/-- The identity data is mirrored as an encrypted PICCData blob. -/
def PiccData.IsEncrypted : PiccData → Prop
  | .encrypted _ _ _ => True
  | _ => False

/-- An encrypted range that exceeds the verifier's buffer of decrypted file data. -/
def Sdm.EncTooLong (s : Sdm) : Prop :=
  ∃ fr ∈ s.fileRead, ∃ enc ∈ fr.enc, 512 < enc.length.val

namespace Verifier

variable {P : Primitives} {v : Verifier}

/-- The result reports UID and counter exactly when the settings mirror them. -/
def PresenceMatches (s : Sdm) (r : SdmVerification) : Prop :=
  r.uid.isSome = s.piccData.includesUid ∧ r.readCtr.isSome = s.piccData.includesRctr

/-- A mirror is reported exactly when its offset is configured. -/
theorem isSome_of_extractMirror {n : ℕ} {data : List UInt8} {offset : Option ℕ}
    {a : Option (Bytes n)} (h : extractMirror n data offset = .ok a) :
    a.isSome = offset.isSome := by
  obtain ⟨rfl, rfl⟩ | ⟨off, b, rfl, rfl, -⟩ := extractMirror_eq_ok_iff.mp h
  · rfl
  · rfl

/-- **Plain and absent mirrors are reported as configured.** -/
theorem extractPiccData_presence {s : Sdm} {mode : CryptoMode} {data : List UInt8} {mk : Key}
    {picc : ParsedPiccData} (hv : tryNew s mode = .ok v) (hs : ¬ s.piccData.IsEncrypted)
    (h : v.extractPiccData P data mk = .ok picc) :
    picc.uid.isSome = s.piccData.includesUid ∧
      picc.readCtr.isSome = s.piccData.includesRctr := by
  obtain ⟨fr, -, rfl⟩ := tryNew_eq_ok_iff.mp hv
  cases hp : s.piccData with
  | none =>
      simp only [extractPiccData, hp, piccSourceOf, Except.ok.injEq] at h
      subst h
      exact ⟨rfl, rfl⟩
  | encrypted k o c =>
      rw [hp] at hs
      exact absurd trivial hs
  | plain mirror =>
      simp only [extractPiccData, hp, piccSourceOf, Except.bind_eq_ok_iff,
        Except.pure_eq_ok_iff] at h
      obtain ⟨uid, huid, ctr, hctr, rfl⟩ := h
      have hu := isSome_of_extractMirror huid
      have hc := isSome_of_extractMirror hctr
      simp only [Option.isSome_map] at hu hc ⊢
      rw [hu, hc]
      cases mirror <;> exact ⟨rfl, rfl⟩

/-- An encrypted range above the buffer bound makes every verification fail. -/
theorem verifyInner_ne_ok_of_encTooLong {s : Sdm} {mode : CryptoMode} {data : List UInt8}
    {fk mk : Key} {r : SdmVerification} (hv : tryNew s mode = .ok v) (hs : s.EncTooLong) :
    v.verifyInner P data fk mk ≠ .ok r := by
  intro h
  obtain ⟨fr, hfr, rfl⟩ := tryNew_eq_ok_iff.mp hv
  obtain ⟨fr', hfr', enc, henc, hlong⟩ := hs
  obtain rfl : fr = fr' := Option.some.inj (hfr.symm.trans hfr')
  obtain ⟨_, _, _, _, -, -, -, -, hdec, -⟩ := verifyInner_eq_ok_iff.mp h
  obtain ⟨hnone, -⟩ | ⟨start, stop, _, _, hsome, -, -, hmax, -⟩ :=
    decryptEncFileData_eq_ok_iff.mp hdec
  · simp [Option.mem_def.mp henc] at hnone
  · simp only [Option.mem_def.mp henc, Option.map_some, Option.some.injEq, Prod.mk.injEq] at hsome
    obtain ⟨rfl, rfl⟩ := hsome
    simp only [maxSdmEncFileDataBytes, Nat.add_sub_cancel_left] at hmax
    have := enc.length.valid.2.1
    omega

/-! ### A blob without identity data -/

/-- Primitives whose every result is the zero block. -/
def zeroPrimitives : Primitives :=
  ⟨fun _ _ => Bytes.zeros 16, fun _ _ => Bytes.zeros 16, fun _ _ => Bytes.zeros 16, false⟩

/-- A readout of zero characters only. -/
def zeroReadout (n : ℕ) : List UInt8 := List.replicate n 0x30

theorem encode_replicate_zero (n : ℕ) :
    Hex.encode (List.replicate n 0) = List.replicate (2 * n) 0x30 := by
  induction n with
  | zero => rfl
  | succ n ih =>
      rw [List.replicate_succ, Hex.encode, ih, Nat.mul_succ, List.replicate_succ,
        List.replicate_succ]
      rfl

theorem slice_zeroReadout {n off len : ℕ} (h : off + len ≤ n) :
    slice (zeroReadout n) off len = List.replicate len 0x30 := by
  rw [slice, zeroReadout, List.drop_replicate, List.take_replicate, Nat.min_eq_left (by omega)]

theorem decodeHexArray_zeroReadout {n off k : ℕ} (h : off + 2 * k ≤ n) :
    decodeHexArray k (zeroReadout n) off = .ok (Bytes.zeros k) :=
  decodeHexArray_of_slice (by simpa [zeroReadout] using h)
    (by rw [slice_zeroReadout h, Bytes.toList_zeros, encode_replicate_zero])

theorem decodeHexInto_zeroReadout {n off k : ℕ} (h : off + 2 * k ≤ n) :
    decodeHexInto k (zeroReadout n) off = .ok (List.replicate k 0) :=
  (decodeHexBytes_eq_ok_iff (by simpa [zeroReadout] using h)).mpr
    (by rw [slice_zeroReadout h, ← encode_replicate_zero, Hex.decode?_encode])

/-- The zero primitives decrypt every blob to a block whose tag byte announces nothing. -/
theorem decryptPiccData_zero (mk : Key) (enc : Block) (wire : Bytes 24) :
    decryptPiccDataAes zeroPrimitives mk enc = .ok ⟨none, none⟩ ∧
      decryptPiccDataLrp zeroPrimitives mk wire = .ok ⟨none, none⟩ := by
  have hblock : parsePiccDataTag (Bytes.zeros 16) = .ok ⟨none, none⟩ := by decide
  constructor
  · have hne := enc.toList_ne_nil
    have hdec : aesCbcDecryptN zeroPrimitives mk (Bytes.zeros 16) enc = Bytes.zeros 16 := by
      have hblocks : BlockMode.toBlocks enc.toList = [enc] := by
        have := BlockMode.toBlocks_ofBlocks [enc]
        rwa [BlockMode.ofBlocks, BlockMode.ofBlocks, List.append_nil] at this
      rw [aesCbcDecryptN, aesCbcDecrypt, BlockMode.onBlocks_of_aligned hne (by simp), hblocks]
      rfl
    rw [decryptPiccDataAes, hdec, hblock]
  · have hwire := wire.length_toList
    have hct : (slice wire.toList 8 16).length = 16 := length_slice (by omega)
    have hctr : (slice wire.toList 0 8).length = 8 := length_slice (by omega)
    have hne : slice wire.toList 8 16 ≠ [] := List.length_pos_iff.mp (by omega)
    have hne' : slice wire.toList 0 8 ≠ [] := List.length_pos_iff.mp (by omega)
    have hblocks : BlockMode.toBlocks (slice wire.toList 8 16) =
        [Bytes.fill 16 (slice wire.toList 8 16)] := by
      rw [BlockMode.toBlocks, hct]
      rfl
    rw [decryptPiccDataLrp, Lrp.lricbDecryptInPlace,
      Lrp.lricb_of_valid hne (by omega) hne' (show _ ≤ 16 by omega), hblocks]
    exact hblock

/-- The zero primitives recover no identity data from an encrypted blob. -/
theorem extractPiccData_zeroReadout {n o : ℕ} {mk : Key} (hsrc : v.piccSource = .encrypted o)
    (hn : o + 48 ≤ n) :
    v.extractPiccData zeroPrimitives (zeroReadout n) mk = .ok ⟨none, none⟩ := by
  have hlen : (zeroReadout n).length = n := by simp [zeroReadout]
  cases hmode : v.mode with
  | aes =>
      have hblob : o + 2 * 16 ≤ n := by omega
      simp only [extractPiccData, hsrc, hmode, Except.bind_eq_ok_iff, ofExcept_eq_ok_iff,
        ensureLen_eq_ok_iff, hlen]
      exact ⟨(), hblob, _, decodeHexArray_zeroReadout hblob,
        (decryptPiccData_zero _ _ (Bytes.zeros 24)).1⟩
  | lrp =>
      have hblob : o + 2 * 24 ≤ n := by omega
      simp only [extractPiccData, hsrc, hmode, Except.bind_eq_ok_iff, ofExcept_eq_ok_iff,
        ensureLen_eq_ok_iff, hlen]
      exact ⟨(), hblob, _, decodeHexArray_zeroReadout hblob,
        (decryptPiccData_zero _ (Bytes.zeros 16) _).2⟩

/-- The MAC of every message is zero. -/
theorem verifyMac_zero (keys : SdmKeys) (msg : List UInt8) :
    keys.verifyMac zeroPrimitives msg (Bytes.zeros 8) = true := by
  cases keys <;> rfl

/-- An encrypted range that fits the buffer decrypts to half its length. -/
theorem decryptEncFileData_zeroReadout {s : Sdm} {mode : CryptoMode} {n : ℕ}
    (hv : tryNew s mode = .ok v) (hshort : ¬ s.EncTooLong) (hn : v.macOffset ≤ n)
    (keys : SdmKeys) :
    ∃ enc, v.decryptEncFileData zeroPrimitives (zeroReadout n) keys none = .ok enc ∧
      ∀ range ∈ v.encData, ∃ plain, enc = some plain ∧
        plain.length = (range.2 - range.1) / 2 := by
  obtain ⟨-, hranges⟩ := windows_of_tryNew hv
  obtain ⟨fr, hfr, rfl⟩ := tryNew_eq_ok_iff.mp hv
  cases he : fr.enc with
  | none => exact ⟨none, by simp [decryptEncFileData], by simp⟩
  | some enc =>
      have hn : fr.window.mac.val ≤ n := hn
      have hpos := enc.length.pos
      have hmod := enc.length.valid.2.1
      have hmax : enc.length.val ≤ 512 := by
        by_contra h
        exact hshort ⟨fr, hfr, enc, he, by omega⟩
      have hend : enc.start.val + enc.length.val ≤ fr.window.mac.val :=
        (hranges (enc.start.val, enc.start.val + enc.length.val) (by simp [he])).2.2
      have hlen : (zeroReadout n).length = n := by simp [zeroReadout]
      obtain ⟨plain, hplain, hplen⟩ : ∃ plain,
          decryptFileData zeroPrimitives keys none (List.replicate (enc.length.val / 2) 0) =
            .ok plain ∧ plain.length = (List.replicate (enc.length.val / 2) (0 : UInt8)).length :=
        decryptFileData_of_aligned (List.length_pos_iff.mp (by simp; omega)) (by simp; omega)
      have hct : decodeHexInto (enc.length.val / 2) (zeroReadout n) enc.start.val =
          .ok (List.replicate (enc.length.val / 2) 0) := decodeHexInto_zeroReadout (by omega)
      refine ⟨some plain, decryptEncFileData_eq_ok_iff.mpr (.inr ⟨_, _, _, plain, rfl, rfl,
        ⟨Nat.le_add_right _ _, by omega⟩, ?_, ?_, hplain⟩), ?_⟩
      · simp only [maxSdmEncFileDataBytes, Nat.add_sub_cancel_left]
        omega
      · rw [Nat.add_sub_cancel_left]
        exact hct
      · rintro range ⟨⟩
        exact ⟨plain, rfl, by rw [hplen, List.length_replicate, Nat.add_sub_cancel_left]⟩

/-- **Under the zero primitives a long readout of zero characters verifies without identity
data**, whatever content the blob is configured to have. -/
theorem verify_zeroReadout {s : Sdm} {mode : CryptoMode} (hv : tryNew s mode = .ok v)
    (hs : s.piccData.IsEncrypted) (hshort : ¬ s.EncTooLong) :
    ∃ n r, v.verifyWithMetaKey zeroPrimitives (zeroReadout n) (Bytes.zeros 16) (Bytes.zeros 16) =
      .ok r ∧ r.uid = none ∧ r.readCtr = none := by
  obtain ⟨o, hsrc⟩ : ∃ o, v.piccSource = .encrypted o := by
    obtain ⟨fr, -, rfl⟩ := tryNew_eq_ok_iff.mp hv
    cases hp : s.piccData with
    | encrypted k o c => exact ⟨o.val, rfl⟩
    | plain m => exact absurd hs (by rw [hp]; exact id)
    | none => exact absurd hs (by rw [hp]; exact id)
  set n := o + 48 + v.macOffset + 16 + v.tamperStatusOffset.getD 0 + 2 with hn
  have hlen : (zeroReadout n).length = n := by simp [zeroReadout]
  obtain ⟨enc, hdec, hplain⟩ := decryptEncFileData_zeroReadout (n := n) hv hshort (by omega)
    (deriveSdmKeys zeroPrimitives v.mode (Bytes.zeros 16) none none)
  obtain ⟨t, ht⟩ : ∃ t, v.extractTamperStatus (zeroReadout n) enc = .ok t := by
    apply extractTamperStatus_of_bounds
    · intro off hoff
      have : v.tamperStatusOffset.getD 0 = off := by rw [Option.mem_def.mp hoff]; rfl
      omega
    · intro range hr
      obtain ⟨plain, rfl, hlen⟩ := hplain range hr
      exact ⟨plain, rfl, fun off hoff hin hout =>
        hlen ▸ tamper_of_tryNew hv range hr off hoff hin hout⟩
  exact ⟨n, _, verifyInner_eq_ok_iff.mpr ⟨_, Bytes.zeros 8, enc, t,
    extractPiccData_zeroReadout hsrc (by omega), ⟨(windows_of_tryNew hv).1, by omega⟩,
    decodeHexArray_zeroReadout (by omega), verifyMac_zero _ _, hdec, ht, rfl⟩, rfl, rfl⟩

/-- An encrypted blob is always configured to carry something. -/
theorem includes_of_isEncrypted {p : PiccData} (h : p.IsEncrypted) :
    p.includesUid = true ∨ p.includesRctr = true := by
  rcases p with _ | _ | ⟨_, _, _ | _ | _⟩
  · exact h.elim
  · exact h.elim
  · exact .inl rfl
  · exact .inr rfl
  · exact .inl rfl

/-- **Reported presence matches the configuration exactly for settings without an encrypted
blob**, apart from settings under which nothing verifies. -/
theorem presence_matches_iff {s : Sdm} {mode : CryptoMode} (hv : tryNew s mode = .ok v) :
    (∀ (P : Primitives) (data : List UInt8) (fk mk : Key) (r : SdmVerification),
        v.verifyWithMetaKey P data fk mk = .ok r → PresenceMatches s r) ↔
      ¬ s.piccData.IsEncrypted ∨ s.EncTooLong := by
  constructor
  · intro h
    by_contra hcond
    obtain ⟨henc, hshort⟩ := not_or.mp hcond
    have henc := not_not.mp henc
    obtain ⟨n, r, hr, huid, hctr⟩ := verify_zeroReadout hv henc hshort
    obtain ⟨hu, hc⟩ := h _ _ _ _ r hr
    rw [huid] at hu
    rw [hctr] at hc
    obtain hin | hin := includes_of_isEncrypted henc
    · rw [hin] at hu
      cases hu
    · rw [hin] at hc
      cases hc
  · rintro (hplain | hlong) P data fk mk r hr
    · obtain ⟨picc, _, _, _, hpicc, -, -, -, -, -, rfl⟩ := verifyInner_eq_ok_iff.mp hr
      obtain ⟨hu, hc⟩ := extractPiccData_presence hv hplain hpicc
      exact ⟨hu, by simpa using hc⟩
    · exact absurd hr (verifyInner_ne_ok_of_encTooLong hv hlong)

/-! ### A blob without identity data under real primitives -/

/-- SDM settings whose encrypted PICCData blob is configured to carry UID and counter. -/
def encryptedBoth : Sdm where
  piccData := .encrypted .key0 ⟨0, Offset.zero_le_max⟩ (.both ⟨none, .noAccess⟩)
  fileRead := some (.macOnly .key0 ⟨⟨32, by decide⟩, ⟨32, by decide⟩⟩)
  tamperStatus := none
  valid := by decide

/-- The verifier of these settings. -/
def encryptedBothVerifier : Verifier := ⟨.aes, .encrypted 0, some .key0, .key0, 32, 32, none, none⟩

theorem tryNew_encryptedBoth : tryNew encryptedBoth .aes = .ok encryptedBothVerifier := rfl

/-- A readout whose blob is the encryption of the zero block under the all-zero key, followed
by the MAC for it. -/
def emptyBlobReadout : List UInt8 :=
  Hex.encode [0x66, 0xE9, 0x4B, 0xD4, 0xEF, 0x8A, 0x2C, 0x3B, 0x88, 0x4C, 0xFA, 0x59, 0xCA, 0x34,
    0x2B, 0x2E] ++ Hex.encode [0xBB, 0x15, 0x23, 0x54, 0x5B, 0x71, 0x8C, 0x07]

/-- The empty blob verifies without UID and counter. -/
theorem verify_emptyBlobReadout :
    encryptedBothVerifier.verifyWithMetaKey .standard emptyBlobReadout (Bytes.zeros 16)
      (Bytes.zeros 16) = .ok ⟨none, none, none, none⟩ := by
  have hpicc : encryptedBothVerifier.extractPiccData .standard emptyBlobReadout (Bytes.zeros 16) =
      .ok ⟨none, none⟩ := by
    decide +kernel
  exact verifyInner_eq_ok_iff.mpr ⟨⟨none, none⟩, _, none, none, hpicc, ⟨le_rfl, by decide⟩, rfl,
    verifyMac_nil_zeros, rfl, rfl, rfl⟩

/-- The criterion at these settings: they are among those whose results need not match. -/
theorem presence_matches_iff_encryptedBoth :
    (∀ (P : Primitives) (data : List UInt8) (fk mk : Key) (r : SdmVerification),
        encryptedBothVerifier.verifyWithMetaKey P data fk mk = .ok r →
          PresenceMatches encryptedBoth r) ↔
      ¬ encryptedBoth.piccData.IsEncrypted ∨ encryptedBoth.EncTooLong :=
  presence_matches_iff tryNew_encryptedBoth

/-- **A configuration with UID and counter verifies without either**, under the standard
primitives. -/
theorem emptyBlobReadout_presence_mismatch :
    ¬ ∀ (s : Sdm) (mode : CryptoMode) (v : Verifier) (data : List UInt8) (fk mk : Key)
        (r : SdmVerification), tryNew s mode = .ok v →
        v.verifyWithMetaKey .standard data fk mk = .ok r → PresenceMatches s r := by
  intro h
  have := h _ _ _ _ _ _ _ tryNew_encryptedBoth verify_emptyBlobReadout
  exact absurd this.1 (by decide)

end Verifier

end Ntag424
