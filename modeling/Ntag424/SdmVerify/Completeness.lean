import Mathlib.Tactic.Common
import Ntag424.SdmVerify.Readout
import Ntag424.Standard

/-!
# Genuine Readouts Verify

The verifier accepts every genuine readout of a valid layout and reports exactly the values
the tag mirrored. The proof reads the windows of the readout off the overlays that produced
it; the disjointness of the placeholders keeps every later write away from the earlier ones.

## Main results

* `ReadoutParams.slice_readout_mirror`, `ReadoutParams.slice_readout_enc`,
  `ReadoutParams.slice_readout_mac`, `ReadoutParams.slice_readout_macInput`: what the windows
  of a genuine readout hold.
* `Verifier.verifyInner_readout`: the verifier of a valid layout accepts the readout.
* `Verifier.verify_genuine_readout`: the same from the settings that `Sdm::try_new` accepts.
-/

namespace Ntag424

/-- The file is long enough for every placeholder of the layout. -/
def Layout.FitsIn (l : Layout) (n : ℕ) : Prop := ∀ p, ∀ r ∈ l.range p, r.1 + r.2 ≤ n

/-- Distinct placeholders have disjoint ranges, in numbers. -/
theorem Layout.DisjointOutsideEnc.ranges {l : Layout} (h : l.DisjointOutsideEnc)
    {p q : Placeholder} (hpq : p ≠ q) (h₁ : ¬ (p = .tamper ∧ q = .enc))
    (h₂ : ¬ (p = .enc ∧ q = .tamper)) {r s : ℕ × ℕ} (hr : r ∈ l.range p) (hs : s ∈ l.range q) :
    r.1 + r.2 ≤ s.1 ∨ s.1 + s.2 ≤ r.1 :=
  (disjoint_positions_iff (l.range_pos p) (l.range_pos q)).mp (h p q hpq h₁ h₂) r hr s hs

namespace ReadoutParams

variable {P : Primitives} {q : ReadoutParams} {file : List UInt8}

/-- The text of a mirror has the width of its placeholder. -/
theorem length_mirrorText (hP : P.Lawful) {p : Placeholder} (hp : p ∈ mirrors) {r : ℕ × ℕ}
    (hr : r ∈ q.layout.range p) : (q.mirrorText P p).length = r.2 := by
  obtain ⟨⟨picc, fr, tt, mode⟩, mk, fk, t, block, rand⟩ := q
  cases p with
  | uid =>
      rcases picc with _ | (_ | _ | _) | _ <;> cases hr <;>
        simp [mirrorText, uidPlaceholderLen]
  | readCtr =>
      rcases picc with _ | (_ | _ | _) | _ <;> cases hr <;>
        simp [mirrorText, rctrPlaceholderLen]
  | picc =>
      rcases picc with _ | _ | _ <;> cases hr
      simp [mirrorText, length_encryptPiccData hP]
  | tamper =>
      cases tt <;> cases hr
      rfl
  | mac => simp [mirrors] at hp
  | enc => simp [mirrors] at hp

theorem mem_mirrorWrites {w : ℕ × List UInt8} :
    w ∈ q.mirrorWrites P ↔
      ∃ p ∈ mirrors, ∃ r ∈ q.layout.range p, w = (r.1, q.mirrorText P p) := by
  simp only [mirrorWrites, List.mem_filterMap, Option.map_eq_some_iff, Option.mem_def]
  constructor
  · rintro ⟨p, hp, r, hr, rfl⟩
    exact ⟨p, hp, r, hr, rfl⟩
  · rintro ⟨p, hp, r, hr, rfl⟩
    exact ⟨p, hp, r, hr, rfl⟩

/-- Every mirror write stays in the file. -/
theorem mirrorWrites_fit (hP : P.Lawful) (hfit : q.layout.FitsIn file.length) :
    ∀ w ∈ q.mirrorWrites P, w.1 + w.2.length ≤ file.length := by
  intro w hw
  obtain ⟨p, hp, r, hr, rfl⟩ := mem_mirrorWrites.mp hw
  rw [length_mirrorText hP hp hr]
  exact hfit p r hr

/-- The mirror writes are pairwise disjoint. -/
theorem mirrorWrites_pairwise (hP : P.Lawful) (hd : q.layout.DisjointOutsideEnc) :
    (q.mirrorWrites P).Pairwise fun w w' =>
      w.1 + w.2.length ≤ w'.1 ∨ w'.1 + w'.2.length ≤ w.1 := by
  have hnodup : mirrors.Pairwise fun p p' => p ≠ p' ∧ p ∈ mirrors ∧ p' ∈ mirrors := by decide
  rw [mirrorWrites, List.pairwise_filterMap]
  refine hnodup.imp fun {p p'} ⟨hne, hp, hp'⟩ => ?_
  intro w hw w' hw'
  obtain ⟨r, hr, rfl⟩ := Option.map_eq_some_iff.mp hw
  obtain ⟨r', hr', rfl⟩ := Option.map_eq_some_iff.mp hw'
  rw [length_mirrorText hP hp hr, length_mirrorText hP hp' hr']
  refine hd.ranges hne ?_ ?_ hr hr'
  · rintro ⟨-, rfl⟩
    simp [mirrors] at hp'
  · rintro ⟨rfl, -⟩
    simp [mirrors] at hp

theorem length_plainFile (hP : P.Lawful) (hfit : q.layout.FitsIn file.length) :
    (q.plainFile P file).length = file.length :=
  length_overlayAll (mirrorWrites_fit hP hfit)

/-- Before encryption every mirror holds its text. -/
theorem slice_plainFile (hP : P.Lawful) (hfit : q.layout.FitsIn file.length)
    (hd : q.layout.DisjointOutsideEnc) {p : Placeholder} (hp : p ∈ mirrors) {r : ℕ × ℕ}
    (hr : r ∈ q.layout.range p) : slice (q.plainFile P file) r.1 r.2 = q.mirrorText P p := by
  have hmem : (r.1, q.mirrorText P p) ∈ q.mirrorWrites P :=
    mem_mirrorWrites.mpr ⟨p, hp, r, hr, rfl⟩
  have := slice_overlayAll_of_mem hmem (mirrorWrites_fit hP hfit) (mirrorWrites_pairwise hP hd)
  rwa [length_mirrorText hP hp hr] at this

/-- The encrypted range lies in the MAC window and consists of whole blocks in both halves. -/
theorem enc_bounds (hw : q.layout.WindowValid) {window : MacWindow} {fr : FileRead}
    (hfr : q.layout.fileRead = some fr) (hwin : fr.window = window) {r : ℕ × ℕ}
    (hr : r ∈ q.layout.range .enc) :
    window.input.val ≤ r.1 ∧ r.1 + r.2 ≤ window.mac.val ∧ 0 < r.2 ∧ r.2 % 32 = 0 := by
  obtain ⟨⟨picc, fr', tt, mode⟩, mk, fk, t, block, rand⟩ := q
  simp only at hfr
  subst hfr hwin
  have henc := (checkEncRange_eq_ok_iff.mp ((Layout.windowValid_iff _).mp hw).2)
  obtain ⟨k, w⟩ | ⟨k, w, e⟩ := fr
  · cases hr
  · cases hr
    obtain ⟨⟨h₁, h₂⟩, -⟩ := henc _ rfl e rfl
    exact ⟨h₁, h₂, e.length.pos, e.length.valid.2.1⟩

/-- The text of the ciphertext has the width of the encrypted range. -/
theorem length_ciphertext (hP : P.Lawful) (hfit : q.layout.FitsIn file.length) {r : ℕ × ℕ}
    (hr : r ∈ q.layout.range .enc) (hpos : 0 < r.2) (hmod : r.2 % 32 = 0) :
    (Hex.encode (encryptFileData P (q.keys P) (q.values.mirroredCtr q.layout.piccData)
      (slice (q.plainFile P file) r.1 (r.2 / 2)))).length = r.2 := by
  have hlen : (slice (q.plainFile P file) r.1 (r.2 / 2)).length = r.2 / 2 := by
    have := hfit .enc r hr
    exact length_slice (by rw [length_plainFile hP hfit]; omega)
  rw [Hex.length_encode, (decryptFileData_encryptFileData hP _ _
    (List.length_pos_iff.mp (by omega)) (by omega)).1, hlen]
  omega

theorem length_encryptedFile (hP : P.Lawful) (hfit : q.layout.FitsIn file.length)
    (henc : ∀ r ∈ q.layout.range .enc, 0 < r.2 ∧ r.2 % 32 = 0) :
    (q.encryptedFile P file).length = file.length := by
  unfold encryptedFile
  cases hr : q.layout.range .enc with
  | none => exact length_plainFile hP hfit
  | some r =>
      obtain ⟨hpos, hmod⟩ := henc r hr
      rw [length_overlay, length_plainFile hP hfit]
      rw [length_ciphertext hP hfit hr hpos hmod, length_plainFile hP hfit]
      exact hfit .enc r hr

/-! ### The windows of a readout -/

/-- What makes a readout genuine: a valid layout with a MAC that fits into a file of at most
256 bytes, and a PICCData block of the configured content. -/
structure Genuine (q : ReadoutParams) (file : List UInt8) (fr : FileRead) : Prop where
  valid : q.layout.Valid
  fits : q.layout.FitsIn file.length
  length_le : file.length ≤ 256
  fileRead_eq : q.layout.fileRead = some fr
  block : ∀ k o content, q.layout.piccData = .encrypted k o content →
    IsPiccBlock content q.values q.piccBlock

section Windows

variable {fr : FileRead}

theorem Genuine.enc_shape (h : q.Genuine file fr) :
    ∀ r ∈ q.layout.range .enc, 0 < r.2 ∧ r.2 % 32 = 0 := fun _ hr =>
  (enc_bounds h.valid.window h.fileRead_eq rfl hr).2.2

/-- The encrypted range is the one of the file-read configuration. -/
theorem Genuine.range_enc (h : q.Genuine file fr) :
    q.layout.range .enc = fr.enc.map fun e => (e.start.val, e.length.val) := by
  rw [Layout.range, h.fileRead_eq]
  cases fr <;> rfl

theorem Genuine.mac_fits (h : q.Genuine file fr) : fr.window.mac.val + 16 ≤ file.length :=
  h.fits .mac (fr.window.mac.val, macPlaceholderLen)
    (by simp [Layout.range, macRange, h.fileRead_eq])

variable (hP : P.Lawful) (h : q.Genuine file fr)

include hP h

theorem length_readout : (q.readout P file fr.window).length = file.length := by
  have hlen := length_encryptedFile hP h.fits h.enc_shape
  have hmac := h.mac_fits
  rw [readout, length_overlay, hlen]
  simp only [Hex.length_encode, Bytes.length_toList]
  omega

/-- Encryption changes only the encrypted range. -/
theorem slice_encryptedFile_of_disjoint {off len : ℕ}
    (hd : ∀ r ∈ q.layout.range .enc, off + len ≤ r.1 ∨ r.1 + r.2 ≤ off) :
    slice (q.encryptedFile P file) off len = slice (q.plainFile P file) off len := by
  have hshape := h.enc_shape
  unfold encryptedFile
  cases hr : q.layout.range .enc with
  | none => rfl
  | some r =>
      obtain ⟨hpos, hmod⟩ := hshape r hr
      have hlen := length_ciphertext hP h.fits hr hpos hmod
      refine slice_overlay_of_disjoint ?_ ?_
      · rw [hlen, length_plainFile hP h.fits]
        exact h.fits .enc r hr
      · rw [hlen]
        exact hd r hr

/-- Writing the MAC changes only its placeholder. -/
theorem slice_readout_of_disjoint {off len : ℕ}
    (hd : off + len ≤ fr.window.mac.val ∨ fr.window.mac.val + 16 ≤ off) :
    slice (q.readout P file fr.window) off len = slice (q.encryptedFile P file) off len := by
  have hlen := length_encryptedFile hP h.fits h.enc_shape
  have hmac := h.mac_fits
  refine slice_overlay_of_disjoint ?_ ?_
  · simp only [Hex.length_encode, Bytes.length_toList, hlen]
    omega
  · simpa using hd

/-- The MAC placeholder holds the MAC. -/
theorem slice_readout_mac :
    slice (q.readout P file fr.window) fr.window.mac.val 16 =
      Hex.encode (q.mac P file fr.window).toList := by
  have hlen := length_encryptedFile hP h.fits h.enc_shape
  have hmac := h.mac_fits
  have hself := slice_overlay_self (l := q.encryptedFile P file)
    (w := Hex.encode (q.mac P file fr.window).toList)
    (show fr.window.mac.val + _ ≤ _ by
      simp only [Hex.length_encode, Bytes.length_toList, hlen]
      omega)
  simpa [readout] using hself

/-- The MAC window holds what the MAC was computed over. -/
theorem slice_readout_macInput :
    slice (q.readout P file fr.window) fr.window.input.val
        (fr.window.mac.val - fr.window.input.val) =
      slice (q.encryptedFile P file) fr.window.input.val
        (fr.window.mac.val - fr.window.input.val) := by
  have hle := h.valid.window.input_le_mac fr h.fileRead_eq
  exact slice_readout_of_disjoint hP h (.inl (by omega))

/-- A mirror outside the encrypted range holds its text. -/
theorem slice_readout_mirror {p : Placeholder} (hp : p ∈ mirrors) {r : ℕ × ℕ}
    (hr : r ∈ q.layout.range p)
    (hd : ∀ r' ∈ q.layout.range .enc, r.1 + r.2 ≤ r'.1 ∨ r'.1 + r'.2 ≤ r.1) :
    slice (q.readout P file fr.window) r.1 r.2 = q.mirrorText P p := by
  have hmac : (fr.window.mac.val, macPlaceholderLen) ∈ q.layout.range .mac := by
    simp [Layout.range, macRange, h.fileRead_eq]
  have hne : p ≠ .mac := by
    rintro rfl
    simp [mirrors] at hp
  have hdm := h.valid.disjoint.ranges hne (by simp) (by simp) hr hmac
  rw [slice_readout_of_disjoint hP h hdm,
    slice_encryptedFile_of_disjoint hP h hd,
    slice_plainFile hP h.fits h.valid.disjoint hp hr]

/-- The encrypted range holds the text of the ciphertext. -/
theorem slice_readout_enc {r : ℕ × ℕ} (hr : r ∈ q.layout.range .enc) :
    slice (q.readout P file fr.window) r.1 r.2 =
      Hex.encode (encryptFileData P (q.keys P) (q.values.mirroredCtr q.layout.piccData)
        (slice (q.plainFile P file) r.1 (r.2 / 2))) := by
  obtain ⟨-, hend, hpos, hmod⟩ := enc_bounds h.valid.window h.fileRead_eq rfl hr
  have hlen := length_ciphertext hP h.fits hr hpos hmod
  rw [slice_readout_of_disjoint hP h (.inl hend), encryptedFile, Option.mem_def.mp hr]
  have hfits : r.1 + (Hex.encode (encryptFileData P (q.keys P)
      (q.values.mirroredCtr q.layout.piccData)
      (slice (q.plainFile P file) r.1 (r.2 / 2)))).length ≤ (q.plainFile P file).length := by
    rw [hlen, length_plainFile hP h.fits]
    exact h.fits .enc r hr
  have hself := slice_overlay_self hfits
  rwa [hlen] at hself

end Windows

end ReadoutParams

/-! ### Verifying a readout -/

/-- The verifier of a layout with the given file-read configuration. -/
def Layout.verifier (l : Layout) (fr : FileRead) : Verifier :=
  ⟨l.mode, (Verifier.piccSourceOf l.piccData).1, (Verifier.piccSourceOf l.piccData).2, fr.key,
    fr.window.input.val, fr.window.mac.val, l.tamperStatus.map Offset.val,
    fr.enc.map fun enc => (enc.start.val, enc.start.val + enc.length.val)⟩

/-- The values a genuine readout reports. -/
def ReadoutParams.reported (P : Primitives) (q : ReadoutParams) (file : List UInt8) :
    SdmVerification where
  uid := q.values.mirroredUid q.layout.piccData
  readCtr := (q.values.mirroredCtr q.layout.piccData).map ctrValue
  tamperStatus := q.layout.tamperStatus.map fun _ => .new q.values.ttPerm q.values.ttCurr
  encFileData := q.plainHalf P file

namespace Verifier

open Outcome ReadoutParams

variable {P : Primitives} {q : ReadoutParams} {file : List UInt8} {fr : FileRead}

/-- A mirror that holds the text of `a` is read as `a`. -/
theorem extractMirror_of_slice {n off : ℕ} {data : List UInt8} {a : Bytes n}
    (h : off + 2 * n ≤ data.length) (hs : slice data off (2 * n) = Hex.encode a.toList) :
    extractMirror n data (some off) = .ok (some a) :=
  extractMirror_eq_ok_iff.mpr (.inr ⟨off, a, rfl, rfl, h, decodeHexArray_of_slice h hs⟩)

/-- A window of two bytes gives the two bytes. -/
theorem getElem?_of_slice_two {l : List UInt8} {off : ℕ} {a b : UInt8}
    (h : slice l off 2 = [a, b]) : l[off]? = some a ∧ l[off + 1]? = some b := by
  have h₀ := getElem?_slice l off 2 0
  have h₁ := getElem?_slice l off 2 1
  rw [h] at h₀ h₁
  exact ⟨by simpa using h₀.symm, by simpa using h₁.symm⟩

/-- **The identity data of a readout** is what the tag mirrored. -/
theorem extractPiccData_readout (hP : P.Lawful) (h : q.Genuine file fr) :
    (q.layout.verifier fr).extractPiccData P (q.readout P file fr.window) q.metaKey =
      .ok ⟨q.values.mirroredUid q.layout.piccData, q.values.mirroredCtr q.layout.piccData⟩ := by
  have hlen := length_readout hP h
  have hmirror {p : Placeholder} (hp : p ∈ mirrors) (hpt : p ≠ .tamper) {r : ℕ × ℕ}
      (hr : r ∈ q.layout.range p) :
      slice (q.readout P file fr.window) r.1 r.2 = q.mirrorText P p ∧
        r.1 + r.2 ≤ (q.readout P file fr.window).length := by
    refine ⟨slice_readout_mirror hP h hp hr fun r' hr' => ?_, hlen ▸ h.fits p r hr⟩
    exact h.valid.disjoint.ranges (by rintro rfl; simp [mirrors] at hp) (fun hc => hpt hc.1)
      (by rintro ⟨rfl, -⟩; simp [mirrors] at hp) hr hr'
  have huid {u : Offset} (hu : (u.val, uidPlaceholderLen) ∈ q.layout.range .uid) :
      extractMirror 7 (q.readout P file fr.window) (some u.val) = .ok (some q.values.uid) :=
    extractMirror_of_slice (hmirror (by simp [mirrors]) (by simp) hu).2
      (hmirror (by simp [mirrors]) (by simp) hu).1
  have hctr {c : Offset} (hc : (c.val, rctrPlaceholderLen) ∈ q.layout.range .readCtr) :
      extractMirror 3 (q.readout P file fr.window) (some c.val) =
        .ok (some (reverseCtr q.values.readCtr)) :=
    extractMirror_of_slice (hmirror (by simp [mirrors]) (by simp) hc).2
      (hmirror (by simp [mirrors]) (by simp) hc).1
  have hrev (c : Bytes 3) : reverseCtr (reverseCtr c) = c := by
    apply Bytes.ext
    simp [reverseCtr]
  cases hp : q.layout.piccData with
  | none =>
      simp [extractPiccData, Layout.verifier, hp, piccSourceOf, TagValues.mirroredUid,
        TagValues.mirroredCtr, PiccData.includesUid, PiccData.includesRctr]
  | plain m =>
      cases m with
      | uid u =>
          have hu := huid (u := u) (by simp [Layout.range, hp, uidRange])
          simp only [extractPiccData, Layout.verifier, hp, piccSourceOf, PlainMirror.uidOffset,
            PlainMirror.rctrOffset, Option.map_some, Option.map_none, hu]
          rfl
      | rCtr c =>
          have hc := hctr (c := c.offset) (by simp [Layout.range, hp, rctrRange])
          simp only [extractPiccData, Layout.verifier, hp, piccSourceOf, PlainMirror.uidOffset,
            PlainMirror.rctrOffset, Option.map_some, Option.map_none, hc]
          simp [extractMirror, hrev, TagValues.mirroredUid, TagValues.mirroredCtr,
            PiccData.includesUid, PiccData.includesRctr, pure, Except.pure]
      | both u c =>
          have hu := huid (u := u) (by simp [Layout.range, hp, uidRange])
          have hc := hctr (c := c.offset) (by simp [Layout.range, hp, rctrRange])
          simp only [extractPiccData, Layout.verifier, hp, piccSourceOf, PlainMirror.uidOffset,
            PlainMirror.rctrOffset, Option.map_some, hu, hc]
          simp [hrev, TagValues.mirroredUid, TagValues.mirroredCtr,
            PiccData.includesUid, PiccData.includesRctr, pure, Except.pure]
  | encrypted k o content =>
      have hrange : (o.val, q.layout.mode.piccBlobAsciiLen) ∈ q.layout.range .picc := by
        simp [Layout.range, hp, piccRange]
      obtain ⟨hs, hfits⟩ := hmirror (by simp [mirrors]) (by simp) hrange
      have hparse := parsePiccDataTag_of_isPiccBlock (h.block k o content hp)
      have hres : (⟨if content.includesUid then some q.values.uid else none,
          if content.includesRctr then some q.values.readCtr else none⟩ : ParsedPiccData) =
          ⟨q.values.mirroredUid (.encrypted k o content),
            q.values.mirroredCtr (.encrypted k o content)⟩ := by
        cases content <;> rfl
      cases hmode : q.layout.mode with
      | aes =>
          simp only [mirrorText, encryptPiccData, hmode, CryptoMode.piccBlobAsciiLen,
            piccBlobLenAes] at hs hfits
          simp only [extractPiccData, Layout.verifier, hp, piccSourceOf, hmode,
            Except.bind_eq_ok_iff, ofExcept_eq_ok_iff, ensureLen_eq_ok_iff,
            CryptoMode.piccBlobAsciiLen, piccBlobLenAes]
          refine ⟨(), hfits, _, decodeHexArray_of_slice hfits hs, ?_⟩
          rw [decryptPiccDataAes_encrypt hP, hparse, hres]
      | lrp =>
          have hbytes := length_encryptPiccData hP .lrp q.metaKey q.piccRand q.piccBlock
          simp only [CryptoMode.piccBlobAsciiLen, piccBlobLenLrp] at hbytes
          simp only [mirrorText, hmode, CryptoMode.piccBlobAsciiLen, piccBlobLenLrp] at hs hfits
          simp only [extractPiccData, Layout.verifier, hp, piccSourceOf, hmode,
            Except.bind_eq_ok_iff, ofExcept_eq_ok_iff, ensureLen_eq_ok_iff,
            CryptoMode.piccBlobAsciiLen, piccBlobLenLrp]
          refine ⟨(), hfits, ⟨encryptPiccData P .lrp q.metaKey q.piccRand q.piccBlock, by omega⟩,
            decodeHexArray_of_slice hfits hs, ?_⟩
          rw [decryptPiccDataLrp_encrypt hP _ _ _ rfl, hparse, hres]

/-- The session of the verifier is the session of the tag. -/
theorem keys_verifier (q : ReadoutParams) (fr : FileRead) :
    deriveSdmKeys P (q.layout.verifier fr).mode q.fileKey
      (q.values.mirroredUid q.layout.piccData) (q.values.mirroredCtr q.layout.piccData) =
      q.keys P := rfl

/-- **The file data of a readout** is the plaintext half of the encrypted range. -/
theorem decryptEncFileData_readout (hP : P.Lawful) (h : q.Genuine file fr) :
    (q.layout.verifier fr).decryptEncFileData P (q.readout P file fr.window) (q.keys P)
      (q.values.mirroredCtr q.layout.piccData) = .ok (q.plainHalf P file) := by
  have hlen := length_readout hP h
  rw [decryptEncFileData_eq_ok_iff]
  cases he : fr.enc with
  | none =>
      refine .inl ⟨by simp [Layout.verifier, he], ?_⟩
      rw [plainHalf, h.range_enc, he]
      rfl
  | some e =>
      have hr : (e.start.val, e.length.val) ∈ q.layout.range .enc := by simp [h.range_enc, he]
      obtain ⟨hpos, hmod⟩ := h.enc_shape _ hr
      have hfits := h.fits .enc _ hr
      have hshort := h.length_le
      simp only at hpos hmod hfits
      have hplain : (slice (q.plainFile P file) e.start.val (e.length.val / 2)).length =
          e.length.val / 2 :=
        length_slice (by rw [length_plainFile hP h.fits]; omega)
      obtain ⟨hctlen, hdec⟩ := decryptFileData_encryptFileData hP (q.keys P)
        (q.values.mirroredCtr q.layout.piccData) (List.length_pos_iff.mp (by omega))
        (show (slice (q.plainFile P file) e.start.val (e.length.val / 2)).length % 16 = 0 by omega)
      refine .inr ⟨e.start.val, e.start.val + e.length.val, _, _, by simp [Layout.verifier, he],
        ?_, ⟨Nat.le_add_right _ _, by omega⟩, ?_, ?_, hdec⟩
      · rw [plainHalf, Option.mem_def.mp hr]
        rfl
      · simp only [Nat.add_sub_cancel_left, maxSdmEncFileDataBytes]
        omega
      · have henc := slice_readout_enc hP h hr
        simp only at henc
        rw [Nat.add_sub_cancel_left, decodeHexInto, decodeHexBytes_eq_ok_iff (by omega),
          show 2 * (e.length.val / 2) = e.length.val by omega, henc, Hex.decode?_encode]

/-- A tamper placeholder outside the encrypted range is read from the readout. -/
theorem extractTamperStatus_readout_outside (hP : P.Lawful) (h : q.Genuine file fr) {tt : Offset}
    (htt : q.layout.tamperStatus = some tt)
    (hd : ∀ r ∈ q.layout.range .enc, tt.val + 2 ≤ r.1 ∨ r.1 + r.2 ≤ tt.val)
    (enc : Option (List UInt8)) :
    (q.layout.verifier fr).extractTamperStatus (q.readout P file fr.window) enc =
      .ok (some (.new q.values.ttPerm q.values.ttCurr)) := by
  have hlen := length_readout hP h
  have hr : (tt.val, ttPlaceholderLen) ∈ q.layout.range .tamper := by
    simp [Layout.range, ttRange, htt]
  have hfits : tt.val + 2 ≤ file.length := h.fits .tamper _ hr
  obtain ⟨h₀, h₁⟩ := getElem?_of_slice_two (slice_readout_mirror hP h (by simp [mirrors]) hr hd)
  have hread : readTamperStatus (q.readout P file fr.window) tt.val =
      .ok (.new q.values.ttPerm q.values.ttCurr) :=
    readTamperStatus_eq_ok_iff.mpr ⟨_, _, h₀, h₁, rfl⟩
  have hout : ((q.layout.verifier fr).encData.any fun range =>
      range.1 ≤ tt.val && tt.val < range.2) = false := by
    rw [h.range_enc] at hd
    cases he : fr.enc with
    | none => simp [Layout.verifier, he]
    | some e =>
        have := hd (e.start.val, e.length.val) (by simp [he])
        simp only [Layout.verifier, he, Option.map_some, Option.any_some, Bool.and_eq_false_iff,
          decide_eq_false_iff_not]
        omega
  have hoff : (q.layout.verifier fr).tamperStatusOffset = some tt.val := by
    simp [Layout.verifier, htt]
  simp only [extractTamperStatus, hoff, hout, Bool.false_eq_true, if_false,
    Except.bind_eq_ok_iff, ofExcept_eq_ok_iff, ensureLen_eq_ok_iff]
  exact ⟨(), by omega, _, hread, rfl⟩

/-- A tamper placeholder in the plaintext half is read from the decrypted file data. -/
theorem extractTamperStatus_readout_inside (hP : P.Lawful) (h : q.Genuine file fr) {tt : Offset}
    {e : EncFileData} (htt : q.layout.tamperStatus = some tt) (he : fr.enc = some e)
    (hin : e.start.val ≤ tt.val ∧ tt.val + 2 ≤ e.start.val + e.length.val / 2) :
    (q.layout.verifier fr).extractTamperStatus (q.readout P file fr.window)
        (q.plainHalf P file) =
      .ok (some (.new q.values.ttPerm q.values.ttCurr)) := by
  have hr : (tt.val, ttPlaceholderLen) ∈ q.layout.range .tamper := by
    simp [Layout.range, ttRange, htt]
  have hre : (e.start.val, e.length.val) ∈ q.layout.range .enc := by simp [h.range_enc, he]
  have hfits : e.start.val + e.length.val ≤ file.length := h.fits .enc _ hre
  obtain ⟨h₀, h₁⟩ := getElem?_of_slice_two
    (slice_plainFile hP h.fits h.valid.disjoint (by simp [mirrors]) hr)
  have hhalf : q.plainHalf P file =
      some (slice (q.plainFile P file) e.start.val (e.length.val / 2)) := by
    rw [plainHalf, Option.mem_def.mp hre]
    rfl
  have hlen : (slice (q.plainFile P file) e.start.val (e.length.val / 2)).length =
      e.length.val / 2 := length_slice (by rw [length_plainFile hP h.fits]; omega)
  have hread : readTamperStatus (slice (q.plainFile P file) e.start.val (e.length.val / 2))
      (tt.val - e.start.val) = .ok (.new q.values.ttPerm q.values.ttCurr) := by
    refine readTamperStatus_eq_ok_iff.mpr ⟨_, _, ?_, ?_, rfl⟩
    · rw [getElem?_slice, if_pos (by omega),
        show e.start.val + (tt.val - e.start.val) = tt.val by omega]
      exact h₀
    · rw [getElem?_slice, if_pos (by omega),
        show e.start.val + (tt.val - e.start.val + 1) = tt.val + 1 by omega]
      exact h₁
  simp only [extractTamperStatus, Layout.verifier, htt, he, hhalf, Option.map_some,
    Option.any_some, Option.getD_some]
  rw [if_pos (by simp; omega), if_neg (by omega), hread]
  rfl

/-- **The tamper status of a readout** is what the tag mirrored, inside and outside the
encrypted range. -/
theorem extractTamperStatus_readout (hP : P.Lawful) (h : q.Genuine file fr) :
    (q.layout.verifier fr).extractTamperStatus (q.readout P file fr.window)
        (q.plainHalf P file) =
      .ok (q.layout.tamperStatus.map fun _ => .new q.values.ttPerm q.values.ttCurr) := by
  cases htt : q.layout.tamperStatus with
  | none => simp [extractTamperStatus, Layout.verifier, htt]
  | some tt =>
      have hr : (tt.val, ttPlaceholderLen) ∈ q.layout.range .tamper := by
        simp [Layout.range, ttRange, htt]
      obtain hd | hsub := h.valid.tamper
      · rw [Layout.owned, Layout.owned, disjoint_positions_iff (q.layout.range_pos _)
          (q.layout.range_pos _)] at hd
        exact extractTamperStatus_readout_outside hP h htt (hd _ hr) _
      · rw [Layout.owned, Option.mem_def.mp hr, Layout.plainHalf, h.range_enc] at hsub
        cases he : fr.enc with
        | none =>
            have hmem : tt.val ∈ (∅ : Set ℕ) := by
              simpa [he, PlaceholderRange.positions] using hsub
                (Set.left_mem_Ico.mpr (Nat.lt_add_of_pos_right Nat.two_pos))
            exact hmem.elim
        | some e =>
            simp only [he, Option.map_some, PlaceholderRange.positions, ttPlaceholderLen] at hsub
            exact extractTamperStatus_readout_inside hP h htt he
              ((Set.Ico_subset_Ico_iff (by omega)).mp hsub)

/-- **The verifier of a valid layout accepts every genuine readout** and reports what the tag
mirrored. -/
theorem verifyInner_readout (hP : P.Lawful) (h : q.Genuine file fr) :
    (q.layout.verifier fr).verifyInner P (q.readout P file fr.window) q.fileKey q.metaKey =
      .ok (q.reported P file) := by
  have hlen := length_readout hP h
  have hmac := h.mac_fits
  refine verifyInner_eq_ok_iff.mpr ⟨_, q.mac P file fr.window, _, _,
    extractPiccData_readout hP h, ⟨h.valid.window.input_le_mac fr h.fileRead_eq, ?_⟩, ?_, ?_, ?_,
    extractTamperStatus_readout hP h, rfl⟩
  · show fr.window.mac.val + 16 ≤ _
    omega
  · exact decodeHexArray_of_slice (show fr.window.mac.val + 2 * 8 ≤ _ by omega)
      (slice_readout_mac hP h)
  · rw [keys_verifier]
    have hin := slice_readout_macInput hP h
    simp only [Layout.verifier, hin, SdmKeys.verifyMac, mac, decide_true]
  · rw [keys_verifier]
    exact decryptEncFileData_readout hP h

/-- The verifier of accepted settings is the verifier of their layout. -/
theorem tryNew_eq_verifier {s : Sdm} {mode : CryptoMode} {fr : FileRead}
    (hfr : s.fileRead = some fr) :
    tryNew s mode = .ok ((⟨s.piccData, s.fileRead, s.tamperStatus, mode⟩ : Layout).verifier fr) :=
  tryNew_eq_ok_iff.mpr ⟨fr, hfr, rfl⟩

/-- **Completeness.** Let settings be accepted by `Sdm::try_new` and form a valid layout with
a MAC. Then the constructed verifier accepts every genuine readout, under all keys and mirrored
values, and reports the mirrored UID and counter, the tamper status and the plaintext half. -/
theorem verify_genuine_readout (hP : P.Lawful) {s : Sdm}
    (hs : Sdm.tryNew q.layout.piccData q.layout.fileRead q.layout.tamperStatus q.layout.mode =
      .ok s) (h : q.Genuine file fr) :
    ∃ v, tryNew s q.layout.mode = .ok v ∧
      v.verifyWithMetaKey P (q.readout P file fr.window) q.fileKey q.metaKey =
        .ok (q.reported P file) := by
  obtain ⟨⟨hp, hf, ht⟩, -⟩ := Sdm.tryNew_eq_ok_iff.mp hs
  refine ⟨_, tryNew_eq_verifier (hf.trans h.fileRead_eq), ?_⟩
  rw [hp, hf, ht]
  exact verifyInner_readout hP h

/-! ### A readout under the standard primitives -/

/-- An LRP layout with UID and counter in the PICCData blob, 32 encrypted characters with the
tamper status at their start, and the MAC behind them. -/
def exampleLayout : Layout where
  piccData := .encrypted .key2 ⟨0, Offset.zero_le_max⟩ (.both ⟨none, .noAccess⟩)
  fileRead := some (.macAndEnc .key1 ⟨⟨48, by decide⟩, ⟨80, by decide⟩⟩
    ⟨⟨48, by decide⟩, ⟨32, EncLength.valid_shortest⟩⟩)
  tamperStatus := some ⟨48, by decide⟩
  mode := .lrp

/-- A readout of this layout: UID `04 .. 80`, counter 5, closed tamper loop. -/
def exampleParams : ReadoutParams where
  layout := exampleLayout
  metaKey := Bytes.zeros 16
  fileKey := Bytes.zeros 16
  values := ⟨⟨[0x04, 0x11, 0x22, 0x33, 0x44, 0x55, 0x80], rfl⟩,
    ⟨[0x05, 0x00, 0x00], rfl⟩, 0x43, 0x43⟩
  piccBlock := piccDataBlock (.both ⟨none, .noAccess⟩)
    ⟨⟨[0x04, 0x11, 0x22, 0x33, 0x44, 0x55, 0x80], rfl⟩, ⟨[0x05, 0x00, 0x00], rfl⟩, 0x43, 0x43⟩
  piccRand := ⟨[1, 2, 3, 4, 5, 6, 7, 8], rfl⟩

theorem exampleParams_genuine : exampleParams.Genuine (List.replicate 96 0x30)
    (.macAndEnc .key1 ⟨⟨48, by decide⟩, ⟨80, by decide⟩⟩ ⟨⟨48, by decide⟩, ⟨32, by decide⟩⟩) where
  valid := Layout.valid_of_checks rfl rfl (by
    rintro ⟨_, ⟨⟩, _, ⟨⟩, _, ⟨⟩, h⟩
    exact absurd h (by decide))
  fits := by
    intro p r hr
    cases p <;> cases hr <;> decide
  length_le := by decide
  fileRead_eq := rfl
  block := by
    rintro k o content ⟨⟩
    exact isPiccBlock_piccDataBlock _ _

/-- Completeness at the example readout. -/
theorem verify_genuine_readout_example :
    ∃ v, tryNew ⟨exampleLayout.piccData, exampleLayout.fileRead, exampleLayout.tamperStatus, rfl⟩
        .lrp = .ok v ∧
      v.verifyWithMetaKey .standard
          (exampleParams.readout .standard (List.replicate 96 0x30)
            ⟨⟨48, by decide⟩, ⟨80, by decide⟩⟩) (Bytes.zeros 16) (Bytes.zeros 16) =
        .ok (exampleParams.reported .standard (List.replicate 96 0x30)) :=
  verify_genuine_readout Primitives.standard_lawful
    (Sdm.tryNew_eq_ok_iff.mpr ⟨⟨rfl, rfl, rfl⟩, rfl⟩) exampleParams_genuine

end Verifier

end Ntag424
