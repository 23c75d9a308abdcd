import Mathlib.Tactic.Common
import Ntag424.SdmVerify.Completeness

/-!
# Readouts as Text

A readout changes only the placeholders of its layout, and writes ASCII characters there; what
lies behind the last placeholder is returned as it is.

## Main results

* `ReadoutParams.touched_readout`: the positions a readout changes.
* `ReadoutParams.readout_append`: bytes behind the placeholders.
-/

namespace Ntag424

namespace ReadoutParams

variable {P : Primitives} {q : ReadoutParams} {file : List UInt8} {fr : FileRead}

/-- A byte of ASCII text. -/
def IsAscii (b : UInt8) : Prop := b.toNat < 0x80

instance : DecidablePred IsAscii := fun b => inferInstanceAs (Decidable (b.toNat < 0x80))

/-- The mirrors are ASCII text when the tamper status is. -/
theorem isAscii_mirrorText (htt : IsAscii q.values.ttPerm ∧ IsAscii q.values.ttCurr)
    (p : Placeholder) : ∀ b ∈ q.mirrorText P p, IsAscii b := by
  intro b hb
  cases p with
  | uid | readCtr | picc => exact Hex.toNat_lt_of_mem_encode hb
  | tamper =>
      obtain ⟨hperm, hcurr⟩ := htt
      rcases List.mem_cons.mp hb with rfl | hb
      · exact hperm
      · obtain rfl := List.mem_singleton.mp hb
        exact hcurr
  | mac | enc => cases hb

/-- **A readout changes only placeholders**, and writes ASCII text there. -/
theorem touched_readout (hP : P.Lawful) (h : q.Genuine file fr)
    (htt : IsAscii q.values.ttPerm ∧ IsAscii q.values.ttCurr) :
    Touched (fun i => ∃ p, ∃ r ∈ q.layout.range p, r.1 ≤ i ∧ i < r.1 + r.2) IsAscii file
      (q.readout P file fr.window) := by
  have hplain : Touched (fun i => ∃ p, ∃ r ∈ q.layout.range p, r.1 ≤ i ∧ i < r.1 + r.2) IsAscii
      file (q.plainFile P file) := by
    refine touched_overlayAll (mirrorWrites_fit hP h.fits) (fun w hw i hlo hhi => ?_)
      fun w hw b hb => ?_
    · obtain ⟨p, hp, r, hr, rfl⟩ := mem_mirrorWrites.mp hw
      rw [length_mirrorText hP hp hr] at hhi
      exact ⟨p, r, hr, hlo, hhi⟩
    · obtain ⟨p, -, r, -, rfl⟩ := mem_mirrorWrites.mp hw
      exact isAscii_mirrorText htt p b hb
  have henc : Touched (fun i => ∃ p, ∃ r ∈ q.layout.range p, r.1 ≤ i ∧ i < r.1 + r.2) IsAscii
      (q.plainFile P file) (q.encryptedFile P file) := by
    rw [encryptedFile]
    cases hr : q.layout.range .enc with
    | none => exact .refl _ _ _
    | some r =>
        obtain ⟨hpos, hmod⟩ := h.enc_shape r hr
        have hlen := length_ciphertext hP h.fits hr hpos hmod
        refine touched_overlay ?_ (fun i hlo hhi => ?_) fun b hb => Hex.toNat_lt_of_mem_encode hb
        · rw [hlen, length_plainFile hP h.fits]
          exact h.fits .enc r hr
        · rw [hlen] at hhi
          exact ⟨.enc, r, hr, hlo, hhi⟩
  refine hplain.trans (henc.trans (touched_overlay ?_ (fun i hlo hhi => ?_) fun b hb =>
    Hex.toNat_lt_of_mem_encode hb))
  · rw [length_encryptedFile hP h.fits h.enc_shape]
    simpa using h.mac_fits
  · refine ⟨.mac, (fr.window.mac.val, macPlaceholderLen), ?_, hlo, ?_⟩
    · simp [Layout.range, macRange, h.fileRead_eq]
    · simpa [macPlaceholderLen] using hhi

/-- **Bytes behind the placeholders** are returned as they are. -/
theorem readout_append (hP : P.Lawful) (h : q.Genuine file fr) (tail : List UInt8) :
    q.readout P (file ++ tail) fr.window = q.readout P file fr.window ++ tail := by
  have hplain : q.plainFile P (file ++ tail) = q.plainFile P file ++ tail :=
    overlayAll_append tail (mirrorWrites_fit hP h.fits)
  have hlen := length_plainFile hP h.fits
  have henc : q.encryptedFile P (file ++ tail) = q.encryptedFile P file ++ tail := by
    rw [encryptedFile, encryptedFile, hplain]
    cases hr : q.layout.range .enc with
    | none => rfl
    | some r =>
        obtain ⟨hpos, hmod⟩ := h.enc_shape r hr
        have hfits := h.fits .enc r hr
        have hslice : slice (q.plainFile P file ++ tail) r.1 (r.2 / 2) =
            slice (q.plainFile P file) r.1 (r.2 / 2) :=
          slice_append_left tail (by omega)
        simp only [hslice]
        refine overlay_append tail ?_
        rw [length_ciphertext hP h.fits hr hpos hmod]
        omega
  have hlen' := length_encryptedFile hP h.fits h.enc_shape
  have hmac := h.mac_fits
  have hwindow : slice (q.encryptedFile P file ++ tail) fr.window.input.val
      (fr.window.mac.val - fr.window.input.val) = slice (q.encryptedFile P file)
        fr.window.input.val (fr.window.mac.val - fr.window.input.val) := by
    have := h.valid.window.input_le_mac fr h.fileRead_eq
    exact slice_append_left tail (by omega)
  rw [readout, readout, mac, mac, henc, hwindow]
  refine overlay_append tail ?_
  rw [Hex.length_encode, Bytes.length_toList]
  omega

end ReadoutParams

end Ntag424
