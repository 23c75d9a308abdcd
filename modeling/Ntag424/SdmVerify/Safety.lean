import Mathlib.Tactic.Common
import Ntag424.SdmVerify.Validate
import Ntag424.Standard

/-!
# A Validated Verifier Never Panics

Verification computes indices from the offsets of the verifier and checks the length of the
readout before it uses them. What it does not check, validation has checked: that the MAC window
and the encrypted range are not reversed, and that the range holds whole cipher blocks.

## Main results

* `Verifier.windows_of_validate`: what validation says about the windows.
* `Verifier.never_panics`: no readout of any length makes a validated verifier panic, and the
  cipher never refuses the encrypted file data.
-/

namespace Ntag424

open Outcome

/-- `decrypt_enc_file_data` when AES refuses the buffer. -/
def aesRefused : SdmError :=
  .invalidConfiguration "AES decryption failed: cipher buffer is not block-aligned"

/-- `decrypt_enc_file_data` when LRICB refuses the buffer. -/
def lricbRefused : SdmError :=
  .invalidConfiguration "LRICB decryption failed: invalid buffer length"

/-- Neither a panic nor the refusal of a cipher. -/
def Harmless (f : Fault SdmError) : Prop :=
  f ≠ .panicked ∧ f ≠ .error aesRefused ∧ f ≠ .error lricbRefused

/-! ### Fields -/

section Fields

variable {data : List UInt8} {n off : ℕ}

/-- A short readout is reported. -/
theorem faults_ensureLen (needed : ℕ) : Faults Harmless (ofExcept (ensureLen data needed)) := by
  refine faults_ofExcept fun e he => ?_
  rw [ensureLen] at he
  split at he <;> cases he
  exact ⟨nofun, nofun, nofun⟩

/-- A byte that is no digit is reported. -/
theorem faults_hexNibble (b : UInt8) : Faults Harmless (ofExcept (hexNibble b off)) := by
  refine faults_ofExcept fun e he => ?_
  rw [hexNibble] at he
  split_ifs at he
  cases he
  exact ⟨nofun, nofun, nofun⟩

/-- Decoding inside the readout reads no byte behind it. -/
theorem faults_decodeHexBytes (h : off + 2 * n ≤ data.length) :
    Faults Harmless (decodeHexBytes data off n) := by
  induction n generalizing off with
  | zero => exact faults_ok _
  | succ n ih =>
      rw [decodeHexBytes]
      refine faults_bind (faults_index (by omega)) fun hi _ => ?_
      refine faults_bind (faults_hexNibble hi) fun _ _ => ?_
      refine faults_bind (faults_index (by omega)) fun lo _ => ?_
      refine faults_bind (faults_hexNibble lo) fun _ _ => ?_
      exact faults_bind (ih (by omega)) fun _ _ => faults_pure _

/-- The same for an array of a fixed size. -/
theorem faults_decodeHexArray (h : off + 2 * n ≤ data.length) :
    Faults Harmless (decodeHexArray n data off) :=
  faults_bind (faults_decodeHexBytes h) fun _ _ => faults_pure _

/-- Every PICCData tag is parsed or reported. -/
theorem faults_parsePiccDataTag (plain : Block) :
    Faults Harmless (ofExcept (parsePiccDataTag plain)) := by
  refine faults_ofExcept fun e he => ?_
  simp only [parsePiccDataTag] at he
  split at he <;> cases he
  exact ⟨nofun, nofun, nofun⟩

/-- Every blob of LRP mode is decrypted or reported. -/
theorem faults_decryptPiccDataLrp (P : Primitives) (key : Key) (wire : Bytes 24) :
    Faults Harmless (ofExcept (decryptPiccDataLrp P key wire)) := by
  simp only [decryptPiccDataLrp]
  split
  · exact faults_fail ⟨nofun, by simp [aesRefused], by simp [lricbRefused]⟩
  · exact faults_parsePiccDataTag _

end Fields

namespace Verifier

variable {P : Primitives} {v : Verifier} {data : List UInt8}

/-! ### What validation guarantees -/

/-- The encrypted range holds whole cipher blocks, twice as long in characters. -/
structure RangeValid (range : ℕ × ℕ) : Prop where
  start_lt_stop : range.1 < range.2
  blocks : (range.2 - range.1) % 32 = 0

/-- **What validation says about the windows.** -/
theorem windows_of_validate (hv : v.validate = .ok ()) :
    v.macInputOffset ≤ v.macOffset ∧ ∀ range ∈ v.encData, RangeValid range := by
  obtain ⟨-, pd, fr, tt, -, hfr, -, hinner, -⟩ := validate_eq_ok_iff.mp hv
  simp only [rebuildFileRead, Except.bind_eq_ok_iff, Offset.new_eq_ok_iff] at hfr
  obtain ⟨input, hinput, mac, hmac, hfr⟩ := hfr
  have hwindow := checkMacWindow_eq_ok_iff.mp (Except.andThen_eq_ok_iff.mp hinner).1 fr rfl
  cases henc : v.encData with
  | none =>
      simp only [henc] at hfr
      cases hfr
      exact ⟨by rw [← hinput, ← hmac]; exact hwindow, by rintro _ ⟨⟩⟩
  | some range =>
      simp only [henc, Except.bind_eq_ok_iff] at hfr
      obtain ⟨start, -, hfr⟩ := hfr
      split at hfr
      · rename_i hle
        simp only [Except.ok_bind', Except.bind_eq_ok_iff, EncLength.new_eq_ok_iff] at hfr
        obtain ⟨length, hlength, hfr⟩ := hfr
        cases hfr
        refine ⟨by rw [← hinput, ← hmac]; exact hwindow, ?_⟩
        rintro _ ⟨⟩
        have hpos := length.pos
        have hblocks := length.valid.2.1
        rw [hlength] at hpos hblocks
        exact ⟨by omega, hblocks⟩
      · cases hfr

/-! ### The steps of a verification -/

/-- A mirror is extracted after its length has been checked. -/
theorem faults_extractMirror (n : ℕ) (off : Option ℕ) :
    Faults Harmless (extractMirror n data off) := by
  cases off with
  | none => exact faults_ok _
  | some off =>
      refine faults_bind (faults_ensureLen _) fun _ hlen => ?_
      have hlen := ensureLen_eq_ok_iff.mp (ofExcept_eq_ok_iff.mp hlen)
      exact faults_bind (faults_decodeHexArray hlen) fun _ _ => faults_pure _

/-- The identity data is read inside the readout. -/
theorem faults_extractPiccData (mk : Key) : Faults Harmless (v.extractPiccData P data mk) := by
  rw [extractPiccData]
  cases v.piccSource with
  | none => exact faults_ok _
  | plain u c =>
      refine faults_bind (faults_extractMirror 7 u) fun _ _ => ?_
      exact faults_bind (faults_extractMirror 3 c) fun _ _ => faults_pure _
  | encrypted off =>
      refine faults_bind (faults_ensureLen _) fun _ hlen => ?_
      have hlen := ensureLen_eq_ok_iff.mp (ofExcept_eq_ok_iff.mp hlen)
      cases hmode : v.mode with
      | aes =>
          rw [hmode] at hlen
          exact faults_bind (faults_decodeHexArray hlen) fun _ _ => faults_parsePiccDataTag _
      | lrp =>
          rw [hmode] at hlen
          exact faults_bind (faults_decodeHexArray hlen) fun wire _ =>
            faults_decryptPiccDataLrp P mk wire

/-- **The cipher never refuses the encrypted file data** of a validated verifier. -/
theorem faults_decryptEncFileData (hv : v.validate = .ok ()) (keys : SdmKeys)
    (readCtr : Option (Bytes 3)) :
    Faults Harmless (v.decryptEncFileData P data keys readCtr) := by
  rw [decryptEncFileData]
  cases henc : v.encData with
  | none => exact faults_ok _
  | some range =>
      obtain ⟨start, stop⟩ := range
      obtain ⟨hlt, hblocks⟩ := (windows_of_validate hv).2 _ henc
      simp only at hlt hblocks
      refine faults_bind (faults_checkedSub hlt.le) fun len hsub => ?_
      obtain ⟨-, rfl⟩ := checkedSub_eq_ok_iff.mp hsub
      refine faults_bind (faults_ensureLen _) fun _ hlen => ?_
      have hlen := ensureLen_eq_ok_iff.mp (ofExcept_eq_ok_iff.mp hlen)
      simp only
      split
      · exact faults_fail ⟨nofun, by simp [aesRefused], by simp [lricbRefused]⟩
      · have hfits : start + 2 * ((stop - start) / 2) ≤ data.length := by omega
        refine faults_bind (faults_decodeHexBytes hfits) fun ct hct => ?_
        -- what is decoded are whole blocks, so the cipher accepts them
        have hctLen : ct.length = (stop - start) / 2 := by
          have := Hex.length_of_decode? ((decodeHexBytes_eq_ok_iff hfits).mp hct)
          rw [length_slice hfits] at this
          omega
        have hne : ct ≠ [] := List.length_pos_iff.mp (by omega)
        obtain ⟨plain, hplain, -⟩ : ∃ plain, decryptFileData P keys readCtr ct = .ok plain ∧
            plain.length = ct.length := decryptFileData_of_aligned hne (by omega)
        rw [hplain]
        exact faults_ok _

/-- Reading the tamper status inside the plaintext does not panic. -/
theorem faults_readTamperStatus {buf : List UInt8} {off : ℕ} (h : off + 2 ≤ buf.length) :
    Faults Harmless (readTamperStatus buf off) := by
  refine faults_bind (faults_index (by omega)) fun _ _ => ?_
  exact faults_bind (faults_index (by omega)) fun _ _ => faults_pure _

/-- The tamper status is read inside the file data or the readout. -/
theorem faults_extractTamperStatus (enc : Option (List UInt8)) :
    Faults Harmless (v.extractTamperStatus data enc) := by
  rw [extractTamperStatus]
  cases v.tamperStatusOffset with
  | none => exact faults_ok _
  | some off =>
      simp only
      split
      · cases enc with
        | none => exact faults_fail ⟨nofun, by simp [aesRefused], by simp [lricbRefused]⟩
        | some plain =>
            simp only
            split
            · exact faults_fail ⟨nofun, by simp [aesRefused], by simp [lricbRefused]⟩
            · exact faults_bind (faults_readTamperStatus (by omega)) fun _ _ => faults_pure _
      · refine faults_bind (faults_ensureLen _) fun _ hlen => ?_
        have hlen := ensureLen_eq_ok_iff.mp (ofExcept_eq_ok_iff.mp hlen)
        exact faults_bind (faults_readTamperStatus hlen) fun _ _ => faults_pure _

/-- A verification is harmless. -/
theorem faults_verifyInner (hv : v.validate = .ok ()) (fk mk : Key) :
    Faults Harmless (v.verifyInner P data fk mk) := by
  refine faults_bind (faults_extractPiccData mk) fun picc _ => ?_
  refine faults_bind (faults_ensureLen _) fun _ hlen => ?_
  have hlen := ensureLen_eq_ok_iff.mp (ofExcept_eq_ok_iff.mp hlen)
  have hwindow := (windows_of_validate hv).1
  refine faults_bind (faults_sliceRange hwindow (by omega)) fun macInput _ => ?_
  refine faults_bind (faults_decodeHexArray hlen) fun expected _ => ?_
  split
  · exact faults_fail ⟨nofun, nofun, nofun⟩
  · refine faults_bind (faults_decryptEncFileData hv _ _) fun enc _ => ?_
    exact faults_bind (faults_extractTamperStatus enc) fun _ _ => faults_pure _

/-- **A validated verifier never panics**, whatever the readout and the keys, and the cipher does
not refuse the encrypted file data. -/
theorem never_panics (P : Primitives) (v : Verifier) (hv : v.validate = .ok ())
    (data : List UInt8) (fk mk : Key) :
    v.verify P data fk ≠ .error .panicked ∧
    v.verifyWithMetaKey P data fk mk ≠ .error .panicked ∧
    v.decryptPiccData P mk data ≠ .error .panicked ∧
    ∀ keys readCtr, v.decryptEncFileData P data keys readCtr ≠ .error .panicked ∧
      v.decryptEncFileData P data keys readCtr ≠ fail aesRefused ∧
      v.decryptEncFileData P data keys readCtr ≠ fail lricbRefused := by
  refine ⟨fun h => ?_, fun h => ?_, fun h => ?_, fun keys readCtr => ⟨fun h => ?_, fun h => ?_,
    fun h => ?_⟩⟩
  · exact (faults_verifyInner hv fk fk _ h).1 rfl
  · exact (faults_verifyInner hv fk mk _ h).1 rfl
  · exact (faults_bind (faults_extractPiccData mk) (fun _ _ => faults_pure _) _ h).1 rfl
  · exact (faults_decryptEncFileData hv keys readCtr _ h).1 rfl
  · exact (faults_decryptEncFileData hv keys readCtr _ h).2.1 rfl
  · exact (faults_decryptEncFileData hv keys readCtr _ h).2.2 rfl

/-- A readout of digits, with all mirrors. -/
theorem never_panics_mirroringAll :
    let v := mirroringAll .lrp
    let data : List UInt8 := List.replicate 256 0x30
    (∀ fk mk, v.verifyWithMetaKey .standard data fk mk ≠ .error .panicked) ∧
      ∀ keys readCtr, v.decryptEncFileData .standard data keys readCtr ≠ .error .panicked ∧
        v.decryptEncFileData .standard data keys readCtr ≠ fail lricbRefused := by
  intro v data
  have hsafe := fun fk mk => never_panics .standard v rfl data fk mk
  refine ⟨fun fk mk => (hsafe fk mk).2.1, fun keys readCtr => ?_⟩
  obtain ⟨hpanic, -, hrefused⟩ := (hsafe (Bytes.zeros 16) (Bytes.zeros 16)).2.2.2 keys readCtr
  exact ⟨hpanic, hrefused⟩

end Verifier

end Ntag424
