import Mathlib.Tactic.Common
import Ntag424.FileSettings.RoundTrip

/-!
# Read, Modify, Write

`FileSettingsView::into_update` turns what `GetFileSettings` reported into what
`ChangeFileSettings` writes. Without a modification in between, the settings stay as they were;
the bytes stay as they were if the payload is canonical, that is if the decoder dropped nothing.

## Main results

* `SdmBlock.Describes.readCtrLimit_eq`: the limit that is read.
* `SdmTail.exists_rewrite`: the settings read can be written, and are read again.
* `FileSettingsView.encode_decode`: decoding, then encoding.
-/

namespace Ntag424

open Numerals

/-! ### Blocks -/

/-- A block has one to nine numbers behind its three bytes. -/
theorem SdmBlock.length_bytes_le (b : SdmBlock) : b.bytes.length ≤ 1 + 2 + 9 * 3 := by
  have hoffset : ∀ o : Option Offset, (o.elim [] Offset.bytes).length ≤ 3 := by
    rintro (_ | o)
    · exact Nat.zero_le _
    · exact Nat.le_of_eq (length_leBytes ..)
  have henc : (b.enc.elim [] EncFileData.bytes).length ≤ 6 := by
    rcases b.enc with _ | e
    · exact Nat.zero_le _
    · simp [EncFileData.bytes, Offset.bytes]
  have h₁ := hoffset b.uid
  have h₂ := hoffset b.readCtr
  have h₃ := hoffset b.picc
  have h₄ := hoffset b.tamper
  have h₅ := hoffset b.macInput
  have h₆ := hoffset b.mac
  have h₇ := hoffset b.limit
  simp only [bytes, List.length_append, List.length_cons, List.length_nil, Bytes.length_toList]
  omega

/-- **The limit that is read**: none, or the one of the block. -/
theorem SdmBlock.Describes.readCtrLimit_eq {b : SdmBlock} {s : Sdm} {key : Option KeyNumber}
    {ctrRet : CtrRetAccess} (hb : b.Describes s key ctrRet) :
    s.piccData.readCtrLimit = none ∨ s.piccData.readCtrLimit = limitOf b.limit := by
  rcases decodePiccData_eq_ok hb.piccData with
    ⟨-, mirror, hs, -, hctr, hf⟩ | ⟨_, _, content, hs, -, -, -, hctr, hf⟩ | ⟨-, hs⟩
  · rw [hs] at hf ⊢
    cases hsome : b.readCtr with
    | some o => exact .inr (hf (by rw [hsome]; rfl)).1
    | none =>
        rw [hsome] at hctr
        cases mirror with
        | uid _ => exact .inl rfl
        | rCtr _ => cases hctr
        | both _ _ => cases hctr
  · rw [hs] at hf ⊢
    cases hbit : b.option 0x40 with
    | true => exact .inr (hf hbit).1
    | false =>
        rw [hbit] at hctr
        cases content with
        | uid => exact .inl rfl
        | rCtr _ => cases hctr
        | both _ => cases hctr
  · rw [hs]
    exact .inl rfl

/-- A limit that was read is a 24-bit number that stands for a limit. -/
theorem SdmBlock.Describes.exists_limit {b : SdmBlock} {s : Sdm} {key : Option KeyNumber}
    {ctrRet : CtrRetAccess} (hb : b.Describes s key ctrRet) :
    s.piccData.readCtrLimit ≠ some 0xFFFFFF ∧
      ∃ limit : Option Offset, limit.map Offset.val = s.piccData.readCtrLimit := by
  rcases hb.readCtrLimit_eq with h | h
  · rw [h]
    exact ⟨nofun, none, rfl⟩
  · rw [h]
    cases b.limit with
    | none => exact ⟨nofun, none, rfl⟩
    | some v =>
        by_cases hv : v.val = 0xFFFFFF
        · simp only [limitOf, Option.bind_some, hv, ne_eq, not_true_eq_false, if_false]
          exact ⟨nofun, none, rfl⟩
        · simp only [limitOf, Option.bind_some, hv, ne_eq, not_false_eq_true, if_true]
          exact ⟨fun h => hv (Option.some.inj h), some v, rfl⟩

/-! ### Payloads -/

/-- A payload of which the decoder drops nothing: the communication mode is written the way it
is encoded, and, where there are SDM settings, identity data is mirrored only if there is a
right to it, the file is encrypted only if it can be read, and a limit is one. -/
structure CanonicalPayload (p : List UInt8) : Prop where
  commMode : p.getD 1 0 &&& 0b11 ≠ 0b10
  mirrors : p.getD 1 0 &&& fileOptionSdm ≠ 0 → p.getD 9 0 >>> 4 = 0xF →
    p.getD 7 0 &&& 0x80 = 0 ∧ p.getD 7 0 &&& 0x40 = 0
  enc : p.getD 1 0 &&& fileOptionSdm ≠ 0 → p.getD 7 0 &&& 0x10 ≠ 0 → p.getD 9 0 &&& 0xF ≠ 0xF
  limit : p.getD 1 0 &&& fileOptionSdm ≠ 0 → p.getD 7 0 &&& 0x20 ≠ 0 →
    ¬ [0xFF, 0xFF, 0xFF] <:+ p

/-- The file option byte is made of its communication mode and the bit of the SDM settings. -/
theorem fileOption_eq {option : UInt8} (h : option &&& fileOptionReserved = 0)
    (hmode : option &&& 0b11 ≠ 0b10) :
    (CommMode.fromBits option).toBits |||
      Sdm.optionBit (option &&& fileOptionSdm != 0) fileOptionSdm = option := by
  have hall : ∀ n : Fin 256, UInt8.ofFin n &&& fileOptionReserved = 0 →
      UInt8.ofFin n &&& 0b11 ≠ 0b10 →
      (CommMode.fromBits (UInt8.ofFin n)).toBits |||
        Sdm.optionBit (UInt8.ofFin n &&& fileOptionSdm != 0) fileOptionSdm = UInt8.ofFin n := by
    decide +kernel
  exact hall option.toFin h hmode

/-- The SDM settings of a payload are there if its bit says so. -/
theorem SdmTail.isSome_eq {enabled : Bool} {sdm : Option Sdm} {tail : List UInt8}
    (h : SdmTail enabled sdm tail) : sdm.isSome = enabled := by
  unfold SdmTail at h
  split at h
  · obtain ⟨s, b, key, ctrRet, rfl, -⟩ := h
    simp [*]
  · obtain ⟨rfl, -⟩ := h
    simp [*]

/-- The SDM settings of a payload can be written: as they are in the payload, if its block is
canonical. -/
theorem SdmTail.exists_rewrite {enabled : Bool} {sdm : Option Sdm} {tail : List UInt8}
    (h : SdmTail enabled sdm tail) :
    ∃ tail' : List UInt8, tail'.length ≤ 1 + 2 + 9 * 3 ∧
      SdmWritten sdm tail' ∧ ((∀ b : SdmBlock, enabled = true → tail = b.bytes →
        b.limit.isSome = b.option 0x20 → b.Canonical) → tail' = tail) := by
  unfold SdmTail at h
  split at h
  · rename_i henabled
    obtain ⟨s, b, key, ctrRet, rfl, hb, rfl⟩ := h
    by_cases hc : b.Canonical
    · obtain ⟨hblock, hlimit⟩ := hb.eq_block hc
      exact ⟨b.bytes, b.length_bytes_le, ⟨b.limit, hlimit, congrArg _ hblock⟩, fun _ => rfl⟩
    · obtain ⟨-, limit, hlimit⟩ := hb.exists_limit
      exact ⟨(s.block limit).bytes, SdmBlock.length_bytes_le _, ⟨limit, hlimit, rfl⟩,
        fun hall => absurd (hall b henabled rfl hb.limit) hc⟩
  · obtain ⟨rfl, rfl⟩ := h
    exact ⟨[], Nat.zero_le _, rfl, fun _ => rfl⟩

/-- The limit of a block is what its bytes end with. -/
theorem SdmBlock.limit_isSuffix {b : SdmBlock} {v : Offset} (h : b.limit = some v) :
    v.bytes <:+ b.bytes := by
  rw [bytes, h]
  simp only [← List.append_assoc]
  exact List.suffix_append _ _

/-- The block of a canonical payload is canonical. -/
theorem CanonicalPayload.block {option : UInt8} {rights : AccessRights} {fileSize : ℕ}
    {b : SdmBlock}
    (h : CanonicalPayload
      ([0x00] ++ ([option] ++ (rights.toLeBytes ++ (leBytes 3 fileSize ++ b.bytes)))))
    (henabled : (option &&& fileOptionSdm != 0) = true)
    (hlimit : b.limit.isSome = b.option 0x20) : b.Canonical := by
  have hbit : option &&& fileOptionSdm ≠ 0 := by simpa using henabled
  obtain ⟨-, hmirrors, henc, hlim⟩ := h
  -- the option byte and the rights byte of the block, in the payload
  have h7 :
      ([0x00] ++ ([option] ++ (rights.toLeBytes ++ (leBytes 3 fileSize ++ b.bytes)))).getD 7 0 =
      b.options := rfl
  have h9 :
      ([0x00] ++ ([option] ++ (rights.toLeBytes ++ (leBytes 3 fileSize ++ b.bytes)))).getD 9 0 =
      b.rights.byte 1 := by
    rw [SdmBlock.bytes, Bytes.toList_eq_pair]
    rfl
  rw [h7, h9] at hmirrors henc
  rw [h7] at hlim
  refine ⟨?_, ?_, ?_⟩
  · intro hmeta
    obtain ⟨h80, h40⟩ := hmirrors hbit hmeta
    simp only [SdmBlock.option, h80, h40, bne_self_eq_false, and_self]
  · intro h10
    exact henc hbit (by simpa [SdmBlock.option] using h10)
  · intro v hv hmax
    have h20 : b.options &&& 0x20 ≠ 0 := by
      rw [hv] at hlimit
      simpa [SdmBlock.option] using hlimit
    have hsuffix : v.bytes <:+ b.bytes := b.limit_isSuffix hv
    rw [Offset.bytes, hmax] at hsuffix
    refine hlim hbit h20 (hsuffix.trans ?_)
    simp only [← List.append_assoc]
    exact List.suffix_append _ _

/-- **The settings that are read can be written**: there is an encoding, it fits, and it is the
payload read if that is canonical. -/
theorem FileSettingsView.exists_encode {p : List UInt8} {v : FileSettingsView} {cap : ℕ}
    (hcap : maxChangeFileSettingsLen ≤ cap) (h : decode p = .ok v) :
    ∃ out, v.intoUpdate.encode cap = .ok out ∧ (CanonicalPayload p → out = mutableBytes p) := by
  obtain ⟨option, tail, rfl, hsize, hres, hmode, htail⟩ := decode_eq_ok_iff.mp h
  obtain ⟨fileType, fileSize, commMode, rights, sdm⟩ := v
  simp only at hmode htail
  subst hmode
  have hsome : sdm.isSome = (option &&& fileOptionSdm != 0) := htail.isSome_eq
  obtain ⟨tail', hlen, hwritten, hsame⟩ := htail.exists_rewrite
  have hinto : (⟨fileType, fileSize, .fromBits option, rights, sdm⟩ : FileSettingsView).intoUpdate =
      ⟨.fromBits option, rights, sdm⟩ := by
    cases sdm <;> rfl
  rw [hinto]
  refine ⟨_, FileSettingsUpdate.encode_eq_ok_iff.mpr ⟨tail', rfl, ?_, hwritten⟩, ?_⟩
  · have hrights : rights.toLeBytes.length = 2 := rfl
    rw [maxChangeFileSettingsLen] at hcap
    simp only [List.length_append, List.length_cons, List.length_nil, hrights]
    omega
  · intro hc
    have htail' : tail' = tail := hsame fun b henabled hb hlimit => by
      subst hb
      exact hc.block henabled hlimit
    have hoption : (⟨.fromBits option, rights, sdm⟩ : FileSettingsUpdate).fileOption = option := by
      rw [FileSettingsUpdate.fileOption, hsome]
      exact fileOption_eq hres hc.commMode
    rw [hoption, htail']
    rfl

/-- The limit read is not the one that stands for no limit. -/
theorem FileSettingsView.normal_sdm {p : List UInt8} {v : FileSettingsView} (h : decode p = .ok v) :
    v.sdm.map Sdm.normal = v.sdm := by
  obtain ⟨option, tail, -, -, -, -, htail⟩ := decode_eq_ok_iff.mp h
  unfold SdmTail at htail
  split at htail
  · obtain ⟨s, b, key, ctrRet, hs, hb, -⟩ := htail
    rw [hs, Option.map_some, Sdm.normal_eq_self hb.exists_limit.1]
  · rw [htail.1]
    rfl

/-- **Decoding, then encoding.** The settings of every payload that `GetFileSettings` accepts
can be written back, and are then read as they were. If the payload is canonical, what is
written are exactly the mutable bytes of the payload. -/
theorem FileSettingsView.encode_decode {p : List UInt8} {v : FileSettingsView} {cap : ℕ}
    (hcap : maxChangeFileSettingsLen ≤ cap) (h : decode p = .ok v) :
    ∃ out, v.intoUpdate.encode cap = .ok out ∧
      decode (payloadWith out v.fileSize) = .ok v ∧
      (CanonicalPayload p → out = mutableBytes p) := by
  obtain ⟨out, hout, hcanonical⟩ := exists_encode hcap h
  refine ⟨out, hout, ?_, hcanonical⟩
  have hsize : v.fileSize < 2 ^ 24 := by
    obtain ⟨_, _, _, hsize, _⟩ := decode_eq_ok_iff.mp h
    omega
  rw [FileSettingsUpdate.decode_payloadWith hsize hout]
  have hnormal := normal_sdm h
  obtain ⟨⟨⟩, fileSize, commMode, rights, sdm⟩ := v
  cases sdm <;> simp_all [intoUpdate, FileSettingsUpdate.new, FileSettingsUpdate.withSdm]

/-- Settings of the datasheet, with an encrypted identifier and a MAC, are written back byte by
byte. -/
theorem FileSettingsView.encode_decode_datasheet :
    ∃ v, decode [0x00, 0x40, 0xEE, 0xEE, 0x00, 0x01, 0x00, 0xD1, 0xFE, 0x00, 0x1F, 0x00, 0x00, 0x44,
        0x00, 0x00, 0x44, 0x00, 0x00, 0x20, 0x00, 0x00, 0x6A, 0x00, 0x00] = .ok v ∧
      v.intoUpdate.encode maxChangeFileSettingsLen = .ok [0x40, 0xEE, 0xEE, 0xD1, 0xFE, 0x00, 0x1F,
        0x00, 0x00, 0x44, 0x00, 0x00, 0x44, 0x00, 0x00, 0x20, 0x00, 0x00, 0x6A, 0x00, 0x00] := by
  obtain ⟨v, h⟩ : ∃ v, decode [0x00, 0x40, 0xEE, 0xEE, 0x00, 0x01, 0x00, 0xD1, 0xFE, 0x00, 0x1F,
      0x00, 0x00, 0x44, 0x00, 0x00, 0x44, 0x00, 0x00, 0x20, 0x00, 0x00, 0x6A, 0x00, 0x00] = .ok v :=
    ⟨_, rfl⟩
  obtain ⟨out, hout, -, hsame⟩ := encode_decode (Nat.le_refl maxChangeFileSettingsLen) h
  refine ⟨v, h, ?_⟩
  rw [hout, hsame ⟨by decide, by decide, by decide, by decide⟩]
  rfl

/-- Both bits `00` and `10` of the communication mode are read as plain; `00` is written. -/
theorem FileSettingsView.rewrite_plain_mode :
    ∃ v, decode [0x00, 0x02, 0xEE, 0xEE, 0x00, 0x01, 0x00] = .ok v ∧
      ¬ v.intoUpdate.encode maxChangeFileSettingsLen =
        .ok (mutableBytes [0x00, 0x02, 0xEE, 0xEE, 0x00, 0x01, 0x00]) := by
  refine ⟨_, rfl, ?_⟩
  decide

end Ntag424
