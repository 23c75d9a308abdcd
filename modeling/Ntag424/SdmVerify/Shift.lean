import Mathlib.Tactic.Common
import Ntag424.FileSettings.Layout
import Ntag424.SdmVerify.Validate

/-!
# Moving a Verifier

A tag stores its SDM offsets relative to the NDEF file, while a server sees the URL in which the
compressed prefix is spelled out. `Verifier::with_offset` moves all offsets from one to the
other.

## Main results

* `Verifier.withOffset_eq_some_iff`: a moved verifier has every offset moved by the same amount.
* `Verifier.verifyInner_append`, `Verifier.verifyInner_withOffset`: bytes in front of a readout
  are skipped by a verifier whose offsets are moved by their number.
* `Verifier.validate_withOffset`: a consistent verifier stays consistent when it is moved.
-/

namespace Ntag424

open Outcome

/-! ### Moving a layout -/

/-- The second range, if present, is the first one moved by `n - k`. -/
def PlaceholderRange.MovedTo (a b : PlaceholderRange) (k n : ℕ) : Prop :=
  ∀ r' ∈ b, ∃ r ∈ a, r'.1 + k = r.1 + n ∧ r'.2 = r.2

/-- A placeholder that is not there has moved anywhere. -/
theorem PlaceholderRange.movedTo_none {a : PlaceholderRange} {k n : ℕ} :
    a.MovedTo none k n := nofun

/-- A placeholder whose offset has moved has moved. -/
theorem PlaceholderRange.movedTo_some {o o' w k n : ℕ} (h : o' + k = o + n) :
    PlaceholderRange.MovedTo (some (o, w)) (some (o', w)) k n := by
  rintro _ ⟨⟩
  exact ⟨_, rfl, h, rfl⟩

/-- Every placeholder of `l'` is one of `l`, moved by `n - k`, and so is the MAC window; `l'`
mirrors at least what `l` mirrors. -/
structure Layout.MovedTo (l l' : Layout) (k n : ℕ) : Prop where
  range : ∀ p, (l.range p).MovedTo (l'.range p) k n
  window : ∀ fr' ∈ l'.fileRead, ∃ fr ∈ l.fileRead,
    fr'.window.input.val + k = fr.window.input.val + n ∧
      fr'.window.mac.val + k = fr.window.mac.val + n
  includesUid : l.piccData.includesUid = true → l'.piccData.includesUid = true
  includesRctr : l.piccData.includesRctr = true → l'.piccData.includesRctr = true

/-- The file-read configuration behind an encrypted range. -/
theorem Layout.mem_range_enc {l : Layout} {r : ℕ × ℕ} :
    r ∈ l.range .enc ↔
      ∃ fr ∈ l.fileRead, ∃ enc ∈ fr.enc, r = (enc.start.val, enc.length.val) := by
  obtain ⟨picc, fr, tt, mode⟩ := l
  rcases fr with _ | ⟨k, w⟩ | ⟨k, w, e⟩ <;>
    simp [Layout.range, encRange, FileRead.enc, eq_comm]

/-- **Moving a layout keeps the checks.** -/
theorem Layout.MovedTo.checks {l l' : Layout} {k n : ℕ} (h : l.MovedTo l' k n)
    (hl : Sdm.checkInner l.piccData l.fileRead l.tamperStatus = .ok () ∧
      Sdm.checkPicc l.piccData l.fileRead l.tamperStatus l.mode = .ok ()) :
    Sdm.checkInner l'.piccData l'.fileRead l'.tamperStatus = .ok () ∧
      Sdm.checkPicc l'.piccData l'.fileRead l'.tamperStatus l'.mode = .ok () := by
  rw [Sdm.checks_eq_ok_iff, windowValid_iff, checkMacWindow_eq_ok_iff, checkEncRange_eq_ok_iff,
    checkTamperHalf_eq_ok_iff] at hl ⊢
  obtain ⟨⟨hmac, henc⟩, hdis, htt⟩ := hl
  refine ⟨⟨fun fr' hfr' => ?_, fun fr' hfr' enc' henc' => ?_⟩, fun p q hpq h₁ h₂ => ?_,
    fun r' hr' s' hs' => ?_⟩
  · obtain ⟨fr, hfr, hi, hm⟩ := h.window fr' hfr'
    have := hmac fr hfr
    omega
  · obtain ⟨fr, hfr, hi, hm⟩ := h.window fr' hfr'
    obtain ⟨r, hr, hstart, hlen⟩ := h.range .enc _ (mem_range_enc.mpr ⟨fr', hfr', enc', henc', rfl⟩)
    obtain ⟨fr₀, hfr₀, enc, hencMem, rfl⟩ := mem_range_enc.mp hr
    obtain rfl : fr₀ = fr := Option.some.inj (hfr₀.symm.trans hfr)
    obtain ⟨⟨hlo, hhi⟩, hu, hc⟩ := henc fr₀ hfr enc hencMem
    simp only at hstart hlen
    exact ⟨⟨by omega, by omega⟩, h.includesUid hu, h.includesRctr hc⟩
  · rw [owned, owned, disjoint_positions_iff (range_pos _ _) (range_pos _ _)]
    intro r' hr' s' hs'
    obtain ⟨r, hr, hr₁, hr₂⟩ := h.range p r' hr'
    obtain ⟨s, hs, hs₁, hs₂⟩ := h.range q s' hs'
    have := (disjoint_positions_iff (l.range_pos p) (l.range_pos q)).mp (hdis p q hpq h₁ h₂) r hr
      s hs
    omega
  · obtain ⟨r, hr, hr₁, hr₂⟩ := h.range .tamper r' hr'
    obtain ⟨s, hs, hs₁, hs₂⟩ := h.range .enc s' hs'
    have := htt r hr s hs
    rw [hr₂, hs₂]
    omega

/-! ### The offsets of a verifier -/

namespace PiccSource

/-- Apply a function to every offset. -/
def mapOffsets (f : ℕ → ℕ) : PiccSource → PiccSource
  | encrypted offset => encrypted (f offset)
  | plain uidOffset readCtrOffset => plain (uidOffset.map f) (readCtrOffset.map f)
  | none => none

/-- The offsets of a source. -/
def offsets : PiccSource → List ℕ
  | encrypted offset => [offset]
  | plain uidOffset readCtrOffset => uidOffset.toList ++ readCtrOffset.toList
  | none => []

end PiccSource

namespace Verifier

/-- Apply a function to every offset. -/
def mapOffsets (f : ℕ → ℕ) (v : Verifier) : Verifier :=
  { v with
    piccSource := v.piccSource.mapOffsets f
    macInputOffset := f v.macInputOffset
    macOffset := f v.macOffset
    tamperStatusOffset := v.tamperStatusOffset.map f
    encData := v.encData.map fun range => (f range.1, f range.2) }

@[simp] theorem mapOffsets_mode (f : ℕ → ℕ) (v : Verifier) : (v.mapOffsets f).mode = v.mode := rfl

@[simp] theorem mapOffsets_macInputOffset (f : ℕ → ℕ) (v : Verifier) :
    (v.mapOffsets f).macInputOffset = f v.macInputOffset := rfl

@[simp] theorem mapOffsets_macOffset (f : ℕ → ℕ) (v : Verifier) :
    (v.mapOffsets f).macOffset = f v.macOffset := rfl

/-- All offsets of a verifier. -/
def offsets (v : Verifier) : List ℕ :=
  v.piccSource.offsets ++ [v.macInputOffset, v.macOffset] ++ v.tamperStatusOffset.toList ++
    (v.encData.toList.flatMap fun range => [range.1, range.2])

/-- The offsets of a verifier by where they stand. -/
theorem mem_offsets {v : Verifier} {o : ℕ} :
    o ∈ v.offsets ↔ o ∈ v.piccSource.offsets ∨ o = v.macInputOffset ∨ o = v.macOffset ∨
      o ∈ v.tamperStatusOffset ∨ ∃ range ∈ v.encData, o = range.1 ∨ o = range.2 := by
  simp only [offsets, List.mem_append, List.mem_cons, List.not_mem_nil, or_false,
    Option.mem_toList, List.mem_flatMap, Option.mem_def, or_assoc]

variable {P : Primitives} {v v' : Verifier} {f : ℕ → ℕ}

/-- An offset moved by `inc`. -/
def movedBy (inc : ℤ) (o : ℕ) : ℕ := (o + inc).toNat

/-- Moving by a length adds the length. -/
@[simp] theorem movedBy_natCast (k o : ℕ) : movedBy k o = k + o := by
  rw [movedBy]
  omega

end Verifier

/-! ### Bytes in front of a readout -/

/-- An error with its positions moved by `inc`. -/
def SdmError.movedBy (inc : ℤ) : SdmError → SdmError
  | ndefTooShort needed have' =>
      ndefTooShort (Verifier.movedBy inc needed) (Verifier.movedBy inc have')
  | invalidHex offset => invalidHex (Verifier.movedBy inc offset)
  | e => e

/-- Decrypted identity data is refused without a position. -/
theorem movedBy_of_parsePiccDataTag (inc : ℤ) {plain : Block} {e : SdmError}
    (h : parsePiccDataTag plain = .error e) : e.movedBy inc = e := by
  simp only [parsePiccDataTag] at h
  split at h
  · obtain rfl := Except.error.inj h
    rfl
  · cases h

/-- The errors of decrypting PICCData carry no position. -/
theorem movedBy_of_decryptPiccDataLrp (inc : ℤ) {P : Primitives} {key : Key} {wire : Bytes 24}
    {e : SdmError} (h : decryptPiccDataLrp P key wire = .error e) : e.movedBy inc = e := by
  simp only [decryptPiccDataLrp] at h
  split at h
  · obtain rfl := Except.error.inj h
    rfl
  · exact movedBy_of_parsePiccDataTag inc h

namespace Verifier

variable {P : Primitives} {v v' : Verifier} {f : ℕ → ℕ}

/-- Decrypted file data is refused without a position. -/
theorem movedBy_of_decryptFileData (inc : ℤ) {keys : SdmKeys} {readCtr : Option (Bytes 3)}
    {ct : List UInt8} {e : SdmError} (h : decryptFileData P keys readCtr ct = .error e) :
    e.movedBy inc = e := by
  cases keys with
  | aes encKey macKey | lrp enc mac =>
      simp only [decryptFileData] at h
      split at h
      · cases h
      · obtain rfl := Except.error.inj h
        rfl

section Append

variable (p : List UInt8) {d : List UInt8}

/-- Reading one byte behind a prefix. -/
theorem index_append {ε α : Type} (p d : List α) (i : ℕ) :
    (index (p ++ d) (p.length + i) : Outcome ε α) = index d i := by
  rw [index, index, List.getElem?_append_right (by omega), Nat.add_sub_cancel_left]

/-- A character behind a prefix. -/
theorem hexNibble_append (b : UInt8) (off : ℕ) :
    (ofExcept (hexNibble b (p.length + off)) : Outcome SdmError UInt8) =
      mapError (SdmError.movedBy p.length) (ofExcept (hexNibble b off)) := by
  rw [hexNibble, hexNibble]
  split_ifs
  · rfl
  · rfl
  · rfl
  · simp only [Outcome.ofExcept, fail, mapError, SdmError.movedBy, movedBy_natCast]

/-- Decoding behind a prefix fails at the moved position. -/
theorem decodeHexBytes_append (n off : ℕ) :
    decodeHexBytes (p ++ d) (p.length + off) n =
      mapError (SdmError.movedBy p.length) (decodeHexBytes d off n) := by
  induction n generalizing off with
  | zero => rfl
  | succ n ih =>
      simp only [decodeHexBytes, mapError_bind, mapError_index, Nat.add_assoc, index_append,
        hexNibble_append, ih]
      rfl

/-- The same for an array of a fixed size. -/
theorem decodeHexArray_append (n off : ℕ) :
    decodeHexArray n (p ++ d) (p.length + off) =
      mapError (SdmError.movedBy p.length) (decodeHexArray n d off) := by
  rw [decodeHexArray, decodeHexArray, decodeHexBytes_append, mapError_bind]
  rfl

/-- The length that is needed moves with the prefix. -/
theorem ensureLen_append (k : ℕ) :
    (ofExcept (ensureLen (p ++ d) (p.length + k)) : Outcome SdmError Unit) =
      mapError (SdmError.movedBy p.length) (ofExcept (ensureLen d k)) := by
  rw [ensureLen, ensureLen, List.length_append]
  by_cases h : d.length < k
  · rw [if_pos (by omega), if_pos h]
    simp only [Outcome.ofExcept, fail, mapError, SdmError.movedBy, movedBy_natCast]
  · rw [if_neg (by omega), if_neg h]
    rfl

/-- A mirror behind a prefix. -/
theorem extractMirror_append (n : ℕ) (off : Option ℕ) :
    extractMirror n (p ++ d) (off.map (p.length + ·)) =
      mapError (SdmError.movedBy p.length) (extractMirror n d off) := by
  cases off with
  | none => rfl
  | some off =>
      simp only [Option.map_some, extractMirror, mapError_bind, Nat.add_assoc, ensureLen_append,
        decodeHexArray_append]
      rfl

/-- The identity data behind a prefix. -/
theorem extractPiccData_append (mk : Key) :
    (v.mapOffsets (p.length + ·)).extractPiccData P (p ++ d) mk =
      mapError (SdmError.movedBy p.length) (v.extractPiccData P d mk) := by
  cases hsrc : v.piccSource with
  | none =>
      simp only [extractPiccData, mapOffsets, hsrc, PiccSource.mapOffsets]
      rfl
  | plain uidOffset readCtrOffset =>
      simp only [extractPiccData, mapOffsets, hsrc, PiccSource.mapOffsets, mapError_bind,
        extractMirror_append]
      rfl
  | encrypted offset =>
      have haes (enc : Block) := mapError_ofExcept (x := decryptPiccDataAes P mk enc)
        fun e he => movedBy_of_parsePiccDataTag p.length he
      have hlrp (wire : Bytes 24) := mapError_ofExcept (x := decryptPiccDataLrp P mk wire)
        fun e he => movedBy_of_decryptPiccDataLrp p.length he
      cases hmode : v.mode with
      | aes | lrp =>
          simp only [extractPiccData, mapOffsets, hsrc, hmode, PiccSource.mapOffsets,
            mapError_bind, Nat.add_assoc, ensureLen_append, decodeHexArray_append, haes, hlrp]

/-- The encrypted file data behind a prefix. -/
theorem decryptEncFileData_append (keys : SdmKeys) (readCtr : Option (Bytes 3)) :
    (v.mapOffsets (p.length + ·)).decryptEncFileData P (p ++ d) keys readCtr =
      mapError (SdmError.movedBy p.length) (v.decryptEncFileData P d keys readCtr) := by
  cases hsome : v.encData with
  | none =>
      simp only [decryptEncFileData, mapOffsets, hsome, Option.map_none]
      rfl
  | some range =>
      obtain ⟨start, stop⟩ := range
      have hsub : (checkedSub (p.length + stop) (p.length + start) : Outcome SdmError ℕ) =
          mapError (SdmError.movedBy p.length) (checkedSub stop start) := by
        simp only [checkedSub, Nat.add_le_add_iff_left, Nat.add_sub_add_left]
        split <;> rfl
      have hplain (ct : List UInt8) := mapError_ofExcept (x := decryptFileData P keys readCtr ct)
        fun e he => movedBy_of_decryptFileData p.length he
      simp only [decryptEncFileData, mapOffsets, hsome, Option.map_some, hsub, mapError_bind,
        Nat.add_assoc, ensureLen_append, decodeHexInto]
      refine bind_congr fun len => bind_congr fun _ => ?_
      split
      · rfl
      · simp only [mapError_bind, decodeHexBytes_append, hplain]
        rfl

/-- The tamper status behind a prefix. -/
theorem readTamperStatus_append (off : ℕ) :
    readTamperStatus (p ++ d) (p.length + off) = readTamperStatus d off := by
  simp only [readTamperStatus, Nat.add_assoc, index_append]

/-- Reading the tamper status has no error to move: it panics or succeeds. -/
theorem mapError_readTamperStatus (inc : ℤ) (buf : List UInt8) (off : ℕ) :
    mapError (SdmError.movedBy inc) (readTamperStatus buf off) = readTamperStatus buf off := by
  simp only [readTamperStatus, mapError_bind, mapError_index]
  rfl

/-- The tamper status behind a prefix. -/
theorem extractTamperStatus_append (enc : Option (List UInt8)) :
    (v.mapOffsets (p.length + ·)).extractTamperStatus (p ++ d) enc =
      mapError (SdmError.movedBy p.length) (v.extractTamperStatus d enc) := by
  cases htt : v.tamperStatusOffset with
  | none =>
      simp only [extractTamperStatus, mapOffsets, htt, Option.map_none]
      rfl
  | some off =>
      cases hrange : v.encData with
      | none =>
          simp only [extractTamperStatus, mapOffsets, htt, hrange, Option.map_some,
            Option.map_none, Option.any_none, Bool.false_eq_true, if_false, mapError_bind,
            mapError_readTamperStatus, readTamperStatus_append, Nat.add_assoc, ensureLen_append]
          rfl
      | some range =>
          simp only [extractTamperStatus, mapOffsets, htt, hrange, Option.map_some,
            Option.any_some, Nat.add_le_add_iff_left, Nat.add_lt_add_iff_left, Option.getD_some,
            Nat.add_sub_add_left]
          split
          · -- inside the encrypted range only the decrypted data is looked at
            cases enc with
            | none => rfl
            | some plain =>
                simp only
                split
                · rfl
                · simp only [mapError_bind, mapError_readTamperStatus]
                  rfl
          · simp only [mapError_bind, mapError_readTamperStatus, readTamperStatus_append,
              Nat.add_assoc, ensureLen_append]
            rfl

/-- **Bytes in front of a readout** are skipped by a verifier moved by their number: only the
positions in its errors are moved as well. -/
theorem verifyInner_append (fk mk : Key) :
    (v.mapOffsets (p.length + ·)).verifyInner P (p ++ d) fk mk =
      mapError (SdmError.movedBy p.length) (v.verifyInner P d fk mk) := by
  have hslice : (sliceRange (p ++ d) (p.length + v.macInputOffset) (p.length + v.macOffset) :
      Outcome SdmError (List UInt8)) =
        mapError (SdmError.movedBy p.length) (sliceRange d v.macInputOffset v.macOffset) := by
    simp only [sliceRange, List.length_append, Nat.add_le_add_iff_left, Nat.add_sub_add_left]
    split
    · rw [slice_append_right]
      rfl
    · rfl
  rw [verifyInner, verifyInner, mapError_bind, extractPiccData_append]
  refine bind_congr fun picc => ?_
  have hlen := ensureLen_append p (d := d) (v.macOffset + 16)
  have hmac := decodeHexArray_append p (d := d) 8 v.macOffset
  rw [← Nat.add_assoc] at hlen
  simp only [mapError_bind, mapOffsets_mode, mapOffsets_macInputOffset, mapOffsets_macOffset, hlen,
    hslice, hmac, decryptEncFileData_append, extractTamperStatus_append]
  refine bind_congr fun _ => bind_congr fun macInput => bind_congr fun expected => ?_
  split
  · rfl
  · simp only [mapError_bind]
    rfl

end Append

/-! ### Moving all offsets -/

/-- Two moves are one. -/
theorem mapOffsets_mapOffsets (v : Verifier) (f g : ℕ → ℕ) :
    (v.mapOffsets f).mapOffsets g = v.mapOffsets (g ∘ f) := by
  obtain ⟨mode, src, mk, fk, input, mac, tt, enc⟩ := v
  cases src <;> simp [mapOffsets, PiccSource.mapOffsets, Function.comp_def]

/-- Moving nothing changes nothing. -/
@[simp] theorem mapOffsets_id (v : Verifier) : v.mapOffsets id = v := by
  obtain ⟨mode, src, mk, fk, input, mac, tt, enc⟩ := v
  cases src <;> simp [mapOffsets, PiccSource.mapOffsets]

/-- The moved offsets are those of the moved verifier. -/
theorem mem_offsets_mapOffsets {o : ℕ} (h : o ∈ v.offsets) : f o ∈ (v.mapOffsets f).offsets := by
  obtain ⟨mode, src, mk, fk, input, mac, tt, enc⟩ := v
  rcases mem_offsets.mp h with h | rfl | rfl | h | ⟨range, hr, h⟩
  · refine mem_offsets.mpr (.inl ?_)
    cases src with
    | none => cases h
    | encrypted off =>
        obtain rfl := List.mem_singleton.mp h
        exact List.mem_singleton_self _
    | plain u c =>
        simp only [PiccSource.offsets, List.mem_append, Option.mem_toList] at h
        simp only [mapOffsets, PiccSource.mapOffsets, PiccSource.offsets, List.mem_append,
          Option.mem_toList]
        exact h.imp (Option.mem_map_of_mem f) (Option.mem_map_of_mem f)
  · exact mem_offsets.mpr (.inr (.inl rfl))
  · exact mem_offsets.mpr (.inr (.inr (.inl rfl)))
  · exact mem_offsets.mpr (.inr (.inr (.inr (.inl (Option.mem_map_of_mem f h)))))
  · have hr' : (f range.1, f range.2) ∈ enc.map fun range => (f range.1, f range.2) :=
      Option.mem_map_of_mem (fun range : ℕ × ℕ => (f range.1, f range.2)) hr
    refine mem_offsets.mpr (.inr (.inr (.inr (.inr ⟨_, hr', ?_⟩))))
    exact h.imp (congrArg f) (congrArg f)

/-- Moving depends only on the offsets that occur. -/
theorem mapOffsets_congr {g : ℕ → ℕ} (h : ∀ o ∈ v.offsets, f o = g o) :
    v.mapOffsets f = v.mapOffsets g := by
  obtain ⟨mode, src, mk, fk, input, mac, tt, enc⟩ := v
  simp only [mem_offsets] at h
  have hsrc : src.mapOffsets f = src.mapOffsets g := by
    cases src with
    | none => rfl
    | encrypted o => exact congrArg PiccSource.encrypted (h o (.inl (by simp [PiccSource.offsets])))
    | plain u c =>
        have hu : ∀ o ∈ u, f o = g o := fun o ho => h o (.inl (by simp_all [PiccSource.offsets]))
        have hc : ∀ o ∈ c, f o = g o := fun o ho => h o (.inl (by simp_all [PiccSource.offsets]))
        exact congrArg₂ PiccSource.plain (Option.map_congr hu) (Option.map_congr hc)
  rw [mapOffsets, mapOffsets, Verifier.mk.injEq]
  refine ⟨rfl, hsrc, rfl, rfl, h _ (.inr (.inl rfl)), h _ (.inr (.inr (.inl rfl))),
    Option.map_congr fun o ho => h o (.inr (.inr (.inr (.inl ho)))),
    Option.map_congr fun range hr => ?_⟩
  exact Prod.ext (h _ (.inr (.inr (.inr (.inr ⟨range, hr, .inl rfl⟩)))))
    (h _ (.inr (.inr (.inr (.inr ⟨range, hr, .inr rfl⟩)))))

/-- An offset that can be moved by `inc`: it stays within a 256-byte file. The smallest 32-bit
number cannot be negated. -/
def Movable (inc : ℤ) (o : ℕ) : Prop := inc ≠ -2 ^ 31 ∧ 0 ≤ o + inc ∧ o + inc ≤ 255

/-- The addition of `with_offset` moves an offset that can be moved. -/
theorem addOffset_eq_some_iff {a r : ℕ} {b : ℤ} :
    addOffset a b = some r ↔ Movable b a ∧ r = movedBy b a := by
  simp only [addOffset, Option.filter_eq_some_iff, decide_eq_true_eq, Movable, movedBy]
  constructor
  · rintro ⟨h, hle⟩
    split at h
    · split at h
      · cases h
      · split at h <;> cases h
        exact ⟨⟨by assumption, by omega, by omega⟩, by omega⟩
    · split at h <;> cases h
      exact ⟨⟨by omega, by omega, by omega⟩, by omega⟩
  · rintro ⟨⟨hmin, hlo, hhi⟩, rfl⟩
    refine ⟨?_, by omega⟩
    by_cases hneg : b < 0
    · rw [if_pos hneg, if_neg hmin, if_pos (by omega)]
      congr 1
      omega
    · rw [if_neg hneg, if_pos (by omega)]
      congr 1
      omega

/-- An optional offset is moved if it stays an offset. -/
theorem mapM_addOffset_eq_some_iff {a r : Option ℕ} {b : ℤ} :
    a.mapM (addOffset · b) = some r ↔ (∀ o ∈ a, Movable b o) ∧ r = a.map (movedBy b) := by
  cases a with
  | none => simp [eq_comm]
  | some a =>
      constructor
      · intro h
        obtain ⟨r', hr', rfl⟩ := Option.map_eq_some_iff.mp h
        obtain ⟨hmove, rfl⟩ := addOffset_eq_some_iff.mp hr'
        exact ⟨by simpa using hmove, rfl⟩
      · rintro ⟨hmove, rfl⟩
        exact Option.map_eq_some_iff.mpr ⟨_, addOffset_eq_some_iff.mpr ⟨hmove a rfl, rfl⟩, rfl⟩

/-- The offsets of the PICC source are moved if all of them stay offsets. -/
theorem addToPiccSource_eq_some_iff {source source' : PiccSource} {inc : ℤ} :
    addToPiccSource source inc = some source' ↔
      (∀ o ∈ source.offsets, Movable inc o) ∧ source' = source.mapOffsets (movedBy inc) := by
  cases source with
  | none => simp [addToPiccSource, PiccSource.offsets, PiccSource.mapOffsets, eq_comm]
  | encrypted o =>
      simp only [addToPiccSource, Option.bind_eq_bind, Option.bind_eq_some_iff,
        addOffset_eq_some_iff, PiccSource.offsets, PiccSource.mapOffsets, List.forall_mem_singleton,
        Option.pure_def, Option.some.injEq]
      constructor
      · rintro ⟨_, ⟨h, rfl⟩, hs⟩
        exact ⟨h, hs.symm⟩
      · rintro ⟨h, hs⟩
        exact ⟨_, ⟨h, rfl⟩, hs.symm⟩
  | plain u c =>
      simp only [addToPiccSource, Option.bind_eq_bind, Option.bind_eq_some_iff,
        mapM_addOffset_eq_some_iff, PiccSource.offsets, PiccSource.mapOffsets,
        List.forall_mem_append,
        Option.mem_toList, Option.pure_def, Option.some.injEq]
      constructor
      · rintro ⟨_, ⟨hu, rfl⟩, _, ⟨hc, rfl⟩, hs⟩
        exact ⟨⟨hu, hc⟩, hs.symm⟩
      · rintro ⟨⟨hu, hc⟩, hs⟩
        exact ⟨_, ⟨hu, rfl⟩, _, ⟨hc, rfl⟩, hs.symm⟩

/-- Both ends of the encrypted range are moved. -/
theorem mapM_range_eq_some_iff {enc enc' : Option (ℕ × ℕ)} {inc : ℤ} :
    (enc.mapM fun range => do
        let start ← addOffset range.1 inc
        let stop ← addOffset range.2 inc
        return (start, stop)) = some enc' ↔
      (∀ range ∈ enc, Movable inc range.1 ∧ Movable inc range.2) ∧
        enc' = enc.map fun range => (movedBy inc range.1, movedBy inc range.2) := by
  cases enc with
  | none => simp [eq_comm]
  | some range =>
      constructor
      · intro h
        obtain ⟨range', hrange, rfl⟩ := Option.map_eq_some_iff.mp h
        obtain ⟨start, hstart, hrange⟩ := Option.bind_eq_some_iff.mp hrange
        obtain ⟨stop, hstop, hrange⟩ := Option.bind_eq_some_iff.mp hrange
        cases hrange
        obtain ⟨hs, rfl⟩ := addOffset_eq_some_iff.mp hstart
        obtain ⟨he, rfl⟩ := addOffset_eq_some_iff.mp hstop
        exact ⟨by simpa using ⟨hs, he⟩, rfl⟩
      · rintro ⟨hmove, rfl⟩
        obtain ⟨hs, he⟩ := hmove range rfl
        refine Option.map_eq_some_iff.mpr ⟨_, Option.bind_eq_some_iff.mpr ⟨_,
          addOffset_eq_some_iff.mpr ⟨hs, rfl⟩, Option.bind_eq_some_iff.mpr ⟨_,
          addOffset_eq_some_iff.mpr ⟨he, rfl⟩, rfl⟩⟩, rfl⟩

/-- **`with_offset` moves every offset by `inc`**, when all of them can be moved. -/
theorem withOffset_eq_some_iff {inc : ℤ} :
    v.withOffset inc = some v' ↔
      (∀ o ∈ v.offsets, Movable inc o) ∧ v' = v.mapOffsets (movedBy inc) := by
  simp only [withOffset, Option.bind_eq_bind, Option.bind_eq_some_iff, addToPiccSource_eq_some_iff,
    addOffset_eq_some_iff, mapM_addOffset_eq_some_iff, mem_offsets, Option.pure_def,
    Option.some.injEq]
  constructor
  · rintro ⟨_, ⟨hsrc, rfl⟩, _, ⟨hinput, rfl⟩, _, ⟨htt, rfl⟩, _, ⟨hmac, rfl⟩, enc, henc, rfl⟩
    obtain ⟨hrange, rfl⟩ := mapM_range_eq_some_iff.mp henc
    refine ⟨?_, rfl⟩
    rintro o (ho | rfl | rfl | ho | ⟨range, hr, rfl | rfl⟩)
    · exact hsrc o ho
    · exact hinput
    · exact hmac
    · exact htt o ho
    · exact (hrange range hr).1
    · exact (hrange range hr).2
  · rintro ⟨hmove, rfl⟩
    refine ⟨_, ⟨fun o ho => hmove o (.inl ho), rfl⟩, _, ⟨hmove _ (.inr (.inl rfl)), rfl⟩, _,
      ⟨fun o ho => hmove o (.inr (.inr (.inr (.inl ho)))), rfl⟩, _,
      ⟨hmove _ (.inr (.inr (.inl rfl))), rfl⟩, _, mapM_range_eq_some_iff.mpr ⟨?_, rfl⟩, rfl⟩
    exact fun range hr => ⟨hmove _ (.inr (.inr (.inr (.inr ⟨range, hr, .inl rfl⟩)))),
      hmove _ (.inr (.inr (.inr (.inr ⟨range, hr, .inr rfl⟩))))⟩

/-- **Exchanging the bytes in front of a readout**: a verifier whose offsets lie behind `p`,
moved by the difference of the lengths, verifies the same readout behind `p'`. -/
theorem verifyInner_withOffset {p p' d : List UInt8} {fk mk : Key} {r : SdmVerification}
    (hv : v.withOffset (p'.length - p.length) = some v') (hle : ∀ o ∈ v.offsets, p.length ≤ o) :
    v'.verifyInner P (p' ++ d) fk mk = .ok r ↔ v.verifyInner P (p ++ d) fk mk = .ok r := by
  have hback : v = (v.mapOffsets (· - p.length)).mapOffsets (p.length + ·) := by
    rw [mapOffsets_mapOffsets]
    refine (mapOffsets_id v).symm.trans (mapOffsets_congr fun o ho => ?_)
    have := hle o ho
    simp only [Function.comp_apply, id_eq]
    omega
  have hforth : v' = (v.mapOffsets (· - p.length)).mapOffsets (p'.length + ·) := by
    rw [mapOffsets_mapOffsets]
    refine (withOffset_eq_some_iff.mp hv).2.trans (mapOffsets_congr fun o ho => ?_)
    have := hle o ho
    simp only [Function.comp_apply, movedBy]
    omega
  calc v'.verifyInner P (p' ++ d) fk mk = .ok r
      ↔ (v.mapOffsets (· - p.length)).verifyInner P d fk mk = .ok r := by
        rw [hforth, verifyInner_append, mapError_eq_ok_iff]
    _ ↔ ((v.mapOffsets (· - p.length)).mapOffsets (p.length + ·)).verifyInner P (p ++ d) fk mk =
          .ok r := by
        rw [verifyInner_append, mapError_eq_ok_iff]
    _ ↔ v.verifyInner P (p ++ d) fk mk = .ok r := by
        rw [← hback]

/-! ### Consistency of a moved verifier -/

/-- A position of 24 bits is an offset. -/
theorem exists_offset {n : ℕ} (h : n ≤ 0xFFFFFF) : ∃ o, Offset.new n = .ok o ∧ o.val = n :=
  ⟨⟨n, h⟩, Offset.new_eq_ok_iff.mpr rfl, rfl⟩

/-- The offset of a moved verifier that stands for an offset of the original one. -/
theorem exists_moved {k n : ℕ} {o : Offset} (hf : ∀ o ∈ v.offsets, f o + k = o + n)
    (hle : ∀ o ∈ v.offsets, f o ≤ 0xFFFFFF) (ho : o.val ∈ v.offsets) :
    ∃ o', Offset.new (f o.val) = .ok o' ∧ o'.val + k = o.val + n := by
  obtain ⟨o', hnew, hval⟩ := exists_offset (hle o.val ho)
  exact ⟨o', hnew, hval ▸ hf o.val ho⟩

open PlaceholderRange in
/-- The identity data rebuilt from a moved verifier. -/
theorem rebuildPiccData_moved {k n : ℕ} {pd : PiccData} {mode : CryptoMode}
    (hpd : v.rebuildPiccData = .ok pd) (hf : ∀ o ∈ v.offsets, f o + k = o + n)
    (hle : ∀ o ∈ v.offsets, f o ≤ 0xFFFFFF) :
    ∃ pd', (v.mapOffsets f).rebuildPiccData = .ok pd' ∧
      (uidRange pd).MovedTo (uidRange pd') k n ∧ (rctrRange pd).MovedTo (rctrRange pd') k n ∧
      (piccRange mode pd).MovedTo (piccRange mode pd') k n ∧
      (pd.includesUid = true → pd'.includesUid = true) ∧
      (pd.includesRctr = true → pd'.includesRctr = true) := by
  have hmem : ∀ o ∈ v.piccSource.offsets, o ∈ v.offsets := fun o ho => mem_offsets.mpr (.inl ho)
  rw [rebuildPiccData] at hpd ⊢
  simp only [mapOffsets]
  rcases hsrc : v.piccSource with off | ⟨u, c⟩ | _
  · simp only [hsrc, PiccSource.offsets, Except.bind_eq_ok_iff] at hpd hmem
    obtain ⟨o, ho, hpd⟩ := hpd
    obtain rfl := Offset.new_eq_ok_iff.mp ho
    obtain ⟨o', hnew, hmove⟩ := exists_moved hf hle (hmem _ (List.mem_singleton_self _))
    cases hkey : v.metaReadKey with
    | none =>
        rw [hkey] at hpd
        cases hpd
    | some key =>
        rw [hkey] at hpd
        cases hpd
        exact ⟨.encrypted key o' (.both anyFeatures), by simp [PiccSource.mapOffsets, hnew],
          movedTo_none, movedTo_none, movedTo_some hmove, id, id⟩
  · rcases u with _ | u <;> rcases c with _ | c
    · simp only [hsrc] at hpd
      cases hpd
      exact ⟨.none, rfl, movedTo_none, movedTo_none, movedTo_none, id, id⟩
    · simp only [hsrc, Except.bind_eq_ok_iff, PiccSource.offsets] at hpd hmem
      obtain ⟨c', hc', hpd⟩ := hpd
      cases hpd
      obtain rfl := Offset.new_eq_ok_iff.mp hc'
      obtain ⟨o', hnew, hmove⟩ := exists_moved (o := c') hf hle (hmem _ (by simp))
      exact ⟨.plain (.rCtr ⟨o', anyFeatures⟩), by simp [PiccSource.mapOffsets, hnew],
        movedTo_none, movedTo_some hmove, movedTo_none, id, id⟩
    · simp only [hsrc, Except.bind_eq_ok_iff, PiccSource.offsets] at hpd hmem
      obtain ⟨u', hu', hpd⟩ := hpd
      cases hpd
      obtain rfl := Offset.new_eq_ok_iff.mp hu'
      obtain ⟨o', hnew, hmove⟩ := exists_moved (o := u') hf hle (hmem _ (by simp))
      exact ⟨.plain (.uid o'), by simp [PiccSource.mapOffsets, hnew],
        movedTo_some hmove, movedTo_none, movedTo_none, id, id⟩
    · simp only [hsrc, Except.bind_eq_ok_iff, PiccSource.offsets] at hpd hmem
      obtain ⟨u', hu', c', hc', hpd⟩ := hpd
      cases hpd
      obtain rfl := Offset.new_eq_ok_iff.mp hu'
      obtain rfl := Offset.new_eq_ok_iff.mp hc'
      obtain ⟨o', hnew, hmove⟩ := exists_moved (o := u') hf hle (hmem _ (by simp))
      obtain ⟨o'', hnew', hmove'⟩ := exists_moved (o := c') hf hle (hmem _ (by simp))
      exact ⟨.plain (.both o' ⟨o'', anyFeatures⟩), by simp [PiccSource.mapOffsets, hnew, hnew'],
        movedTo_some hmove, movedTo_some hmove', movedTo_none, id, id⟩
  · simp only [hsrc] at hpd
    cases hpd
    exact ⟨.none, rfl, movedTo_none, movedTo_none, movedTo_none, id, id⟩

/-- The file-read configuration rebuilt from a moved verifier. -/
theorem rebuildFileRead_moved {k n : ℕ} {fr : FileRead} (hfr : v.rebuildFileRead = .ok fr)
    (hf : ∀ o ∈ v.offsets, f o + k = o + n) (hle : ∀ o ∈ v.offsets, f o ≤ 0xFFFFFF) :
    ∃ fr', (v.mapOffsets f).rebuildFileRead = .ok fr' ∧
      fr'.window.input.val + k = fr.window.input.val + n ∧
      fr'.window.mac.val + k = fr.window.mac.val + n ∧
      (encRange (some fr)).MovedTo (encRange (some fr')) k n := by
  rw [rebuildFileRead] at hfr ⊢
  simp only [Except.bind_eq_ok_iff] at hfr
  obtain ⟨input, hinput, mac, hmac, hfr⟩ := hfr
  rw [Offset.new_eq_ok_iff] at hinput hmac
  obtain ⟨input', hnewInput, hmoveInput⟩ := exists_moved (o := input) hf hle
    (mem_offsets.mpr (.inr (.inl hinput)))
  obtain ⟨mac', hnewMac, hmoveMac⟩ := exists_moved (o := mac) hf hle
    (mem_offsets.mpr (.inr (.inr (.inl hmac))))
  rw [hinput] at hnewInput
  rw [hmac] at hnewMac
  simp only [mapOffsets, hnewInput, hnewMac, Except.ok_bind']
  cases henc : v.encData with
  | none =>
      simp only [henc] at hfr
      cases hfr
      exact ⟨.macOnly v.fileReadKey ⟨input', mac'⟩, rfl, hmoveInput, hmoveMac,
        PlaceholderRange.movedTo_none⟩
  | some range =>
      simp only [henc, Except.bind_eq_ok_iff] at hfr
      obtain ⟨start, hstart, hfr⟩ := hfr
      rw [Offset.new_eq_ok_iff] at hstart
      obtain ⟨start', hnewStart, hmoveStart⟩ := exists_moved (o := start) hf hle
        (mem_offsets.mpr (.inr (.inr (.inr (.inr ⟨range, henc, .inl hstart⟩)))))
      have hstop := hf range.2 (mem_offsets.mpr (.inr (.inr (.inr (.inr ⟨range, henc, .inr rfl⟩)))))
      rw [hstart] at hnewStart
      have hval := Offset.new_eq_ok_iff.mp hnewStart
      split at hfr
      · rename_i hle
        simp only [Except.ok_bind', Except.bind_eq_ok_iff] at hfr
        obtain ⟨length, hlength, hfr⟩ := hfr
        cases hfr
        have hsame : f range.2 - f range.1 = range.2 - range.1 := by omega
        refine ⟨.macAndEnc v.fileReadKey ⟨input', mac'⟩ ⟨start', length⟩, ?_, hmoveInput, hmoveMac,
          PlaceholderRange.movedTo_some hmoveStart⟩
        simp only [Option.map_some, hnewStart, Except.ok_bind',
          if_pos (show f range.1 ≤ f range.2 by omega), hsame, hlength]
        rfl
      · cases hfr

/-- **Moving a consistent verifier keeps it consistent.** -/
theorem validate_mapOffsets {k n : ℕ} (hv : v.validate = .ok ())
    (hf : ∀ o ∈ v.offsets, f o + k = o + n) (hle : ∀ o ∈ v.offsets, f o ≤ 0xFFFFFF) :
    (v.mapOffsets f).validate = .ok () := by
  obtain ⟨hkey, pd, fr, tt, hpd, hfr, htt, hi, hp⟩ := validate_eq_ok_iff.mp hv
  obtain ⟨pd', hpd', huid, hctr, hblob, hu, hc⟩ := rebuildPiccData_moved hpd hf hle
  obtain ⟨fr', hfr', hinput, hmac, henc⟩ := rebuildFileRead_moved hfr hf hle
  obtain ⟨tt', htt', hmoveTt⟩ :
    ∃ tt', (v.mapOffsets f).tamperStatusOffset.mapM Offset.new = .ok tt' ∧
      (ttRange tt).MovedTo (ttRange tt') k n := by
    simp only [mapOffsets]
    cases hsome : v.tamperStatusOffset with
    | none =>
        rw [hsome] at htt
        cases htt
        exact ⟨none, rfl, PlaceholderRange.movedTo_none⟩
    | some off =>
        rw [hsome] at htt
        obtain ⟨o, ho, htt⟩ := Except.bind_eq_ok_iff.mp htt
        cases htt
        obtain rfl := Offset.new_eq_ok_iff.mp ho
        obtain ⟨o', hnew, hmove⟩ := exists_moved hf hle
          (mem_offsets.mpr (.inr (.inr (.inr (.inl hsome)))))
        exact ⟨some o', by simp [hnew], PlaceholderRange.movedTo_some hmove⟩
  have hmoved : Layout.MovedTo ⟨pd, some fr, tt, v.mode⟩ ⟨pd', some fr', tt', v.mode⟩ k n := by
    refine ⟨fun p => ?_, ?_, hu, hc⟩
    · cases p with
      | uid => exact huid
      | readCtr => exact hctr
      | picc => exact hblob
      | tamper => exact hmoveTt
      | mac => exact PlaceholderRange.movedTo_some hmac
      | enc => exact henc
    · rintro _ ⟨⟩
      exact ⟨fr, rfl, hinput, hmac⟩
  obtain ⟨hi', hp'⟩ := hmoved.checks ⟨hi, hp⟩
  refine validate_eq_ok_iff.mpr ⟨?_, pd', fr', tt', hpd', hfr', htt', hi', hp'⟩
  rcases hkey with ⟨offset, hsrc⟩ | hkey
  · exact .inl ⟨f offset, by simp only [mapOffsets, hsrc, PiccSource.mapOffsets]⟩
  · exact .inr hkey

/-- **A moved verifier is consistent** when the original one is. -/
theorem validate_withOffset {inc : ℤ} (hv : v.validate = .ok ())
    (hmove : v.withOffset inc = some v') : v'.validate = .ok () := by
  obtain ⟨hmovable, rfl⟩ := withOffset_eq_some_iff.mp hmove
  refine validate_mapOffsets (k := (-inc).toNat) (n := inc.toNat) hv (fun o ho => ?_) fun o ho => ?_
  · have := hmovable o ho
    rw [Movable] at this
    rw [movedBy]
    omega
  · have := hmovable o ho
    rw [Movable] at this
    rw [movedBy]
    omega

end Verifier

end Ntag424
