import Mathlib.Data.List.Basic
import Mathlib.Tactic.Common
import Ntag424.Lib.Bytes
import Ntag424.Lib.Numerals
import Ntag424.Lib.Outcome
import Ntag424.Types

/-!
# The Capability Container

The static metadata file of the tag (`types/cc.rs`): a header of seven bytes and up to three
file control entries of eight bytes each.

## Main results

* `CapabilityContainer.fromBytes_default`: the file at delivery decodes to the default.
* `CapabilityContainer.fromBytes_eq_default_iff`: nothing else does, up to what follows it.
-/

namespace Ntag424

/-- `MAX_CC_FILES`. -/
def maxCcFiles : ℕ := 3

/-- `MAX_CC_BYTES`. -/
def maxCcBytes : ℕ := 7 + maxCcFiles * 8

/-- `FileCtrlKind`. -/
inductive FileCtrlKind where
  | ndef
  | proprietary
deriving DecidableEq, Repr

/-- The kind of an entry, by its tag. -/
def FileCtrlKind.ofTag? : UInt8 → Option FileCtrlKind
  | 0x04 => some ndef
  | 0x05 => some proprietary
  | _ => none

/-- The tag of an entry. -/
def FileCtrlKind.tag : FileCtrlKind → UInt8
  | ndef => 0x04
  | proprietary => 0x05

/-- A kind has one tag. -/
theorem FileCtrlKind.ofTag?_inj {a b : UInt8} {kind : FileCtrlKind} (ha : ofTag? a = some kind)
    (hb : ofTag? b = some kind) : a = b := by
  have htag : ∀ {t : UInt8}, ofTag? t = some kind → t = if kind = .ndef then 0x04 else 0x05 := by
    intro t h
    unfold ofTag? at h
    split at h
    · cases h
      rfl
    · cases h
      rfl
    · cases h
  rw [htag ha, htag hb]

/-- `AccessCondition`. -/
inductive AccessCondition where
  | «open»
  | proprietaryKey (k : KeyNumber)
  | denied
  | raw (b : UInt8)
deriving DecidableEq, Repr

/-- `AccessCondition::from_byte`. -/
def AccessCondition.fromByte : UInt8 → AccessCondition
  | 0x00 => «open»
  | 0x80 => proprietaryKey .key0
  | 0x81 => proprietaryKey .key1
  | 0x82 => proprietaryKey .key2
  | 0x83 => proprietaryKey .key3
  | 0x84 => proprietaryKey .key4
  | 0xFF => denied
  | b => raw b

/-- `AccessCondition::to_byte`. -/
def AccessCondition.toByte : AccessCondition → UInt8
  | «open» => 0x00
  | proprietaryKey k => 0x80 ||| k.asByte
  | denied => 0xFF
  | raw b => b

/-- A condition has one byte. -/
theorem AccessCondition.fromByte_inj {a b : UInt8} (h : fromByte a = fromByte b) : a = b := by
  unfold fromByte at h
  split at h <;> split at h <;> first | rfl | (cases h; done) | (cases h; rfl)

/-- `FileCtrl`. -/
structure FileCtrl where
  kind : FileCtrlKind
  fileId : ℕ
  fileSize : ℕ
  readAccess : AccessCondition
  writeAccess : AccessCondition
deriving DecidableEq, Repr

/-- The bytes of an entry. -/
def FileCtrl.toBytes (file : FileCtrl) : List UInt8 :=
  [file.kind.tag, 0x06] ++ Numerals.beBytes 2 file.fileId ++ Numerals.beBytes 2 file.fileSize ++
    [file.readAccess.toByte, file.writeAccess.toByte]

/-- `CcError`. -/
inductive CcError where
  | tooShort
  | entryOverflow
  | unknownEntryTag (t : UInt8)
  | unexpectedEntryLength (l : ℕ)
  | tooManyEntries
deriving DecidableEq, Repr

/-- `CapabilityContainer`. -/
structure CapabilityContainer where
  ccLen : ℕ
  t4tVersion : UInt8
  maxLe : ℕ
  maxLc : ℕ
  files : List FileCtrl
deriving DecidableEq, Repr

namespace CapabilityContainer

/-- `CapabilityContainer::default`. -/
def default : CapabilityContainer where
  ccLen := 0x0017
  t4tVersion := 0x20
  maxLe := 0x0100
  maxLc := 0x00FF
  files :=
    [⟨.ndef, 0xE104, 0x0100, .open, .open⟩,
      ⟨.proprietary, 0xE105, 0x0080, .proprietaryKey .key2, .proprietaryKey .key3⟩]

/-- `u16::from_be_bytes`. -/
def be16 (hi lo : UInt8) : ℕ := 256 * hi.toNat + lo.toNat

/-- The loop over the entries. A single byte at the end is left alone. -/
def parseEntries : List UInt8 → List FileCtrl → Except CcError (List FileCtrl)
  | t :: l :: rest, files => do
      if rest.length < l.toNat then throw .entryOverflow
      let kind ← match FileCtrlKind.ofTag? t with
        | some kind => pure kind
        | none => throw (.unknownEntryTag t)
      if l ≠ 6 then throw (.unexpectedEntryLength l.toNat)
      match rest with
      | a :: b :: c :: d :: e :: f :: rest =>
          if files.length = maxCcFiles then throw .tooManyEntries
          parseEntries rest (files ++ [⟨kind, be16 a b, be16 c d, .fromByte e, .fromByte f⟩])
      | _ => throw .entryOverflow
  | _, files => return files

/-- `CapabilityContainer::from_bytes`. -/
def fromBytes : List UInt8 → Except CcError CapabilityContainer
  | a :: b :: version :: c :: d :: e :: f :: rest => do
      let files ← parseEntries (rest.take (be16 a b - 7)) []
      return ⟨be16 a b, version, be16 c d, be16 e f, files⟩
  | _ => throw .tooShort

/-- The content of the file at delivery. -/
def defaultBytes : List UInt8 :=
  [0x00, 0x17, 0x20, 0x01, 0x00, 0x00, 0xFF, 0x04, 0x06, 0xE1, 0x04, 0x01, 0x00, 0x00, 0x00, 0x05,
    0x06, 0xE1, 0x05, 0x00, 0x80, 0x82, 0x83]

/-- `CapabilityContainer::to_bytes`: panics when the bytes do not fit its buffer. -/
def toBytes {ε : Type} (cc : CapabilityContainer) : Outcome ε (List UInt8) :=
  let out := Numerals.beBytes 2 cc.ccLen ++ [cc.t4tVersion] ++ Numerals.beBytes 2 cc.maxLe ++
    Numerals.beBytes 2 cc.maxLc ++ cc.files.flatMap FileCtrl.toBytes
  if out.length ≤ maxCcBytes then .ok out else Outcome.panicked

/-- The default is the content of the file at delivery. -/
theorem toBytes_default {ε : Type} :
    (default.toBytes : Outcome ε (List UInt8)) = .ok defaultBytes :=
  rfl

/-- The file at delivery decodes to the default, whatever follows in the file. -/
theorem fromBytes_default (tail : List UInt8) : fromBytes (defaultBytes ++ tail) = .ok default := by
  rfl

/-! ### Decoding to the default -/

/-- What the loop over the entries does: it ends with at most one byte left, or reads one entry
and goes on. -/
theorem parseEntries_cases {bs : List UInt8} {files out : List FileCtrl}
    (h : parseEntries bs files = .ok out) : out = files ∧ bs.length ≤ 1 ∨
      ∃ t kind a b c d e f rest, bs = t :: 6 :: a :: b :: c :: d :: e :: f :: rest ∧
        files.length ≠ maxCcFiles ∧ FileCtrlKind.ofTag? t = some kind ∧
        parseEntries rest (files ++ [⟨kind, be16 a b, be16 c d, .fromByte e, .fromByte f⟩]) =
          .ok out := by
  rw [parseEntries.eq_def] at h
  split at h
  · rename_i t l rest
    by_cases hlen : rest.length < l.toNat
    · rw [if_pos hlen] at h
      cases h
    · rw [if_neg hlen] at h
      cases hkind : FileCtrlKind.ofTag? t with
      | none =>
          rw [hkind] at h
          cases h
      | some kind =>
          rw [hkind] at h
          by_cases hl : l = 6
          · subst hl
            dsimp only [bind, Except.bind, pure, Except.pure] at h
            rw [if_neg (by simp)] at h
            split at h
            · rename_i a b c d e f rest
              by_cases hmax : files.length = maxCcFiles
              · rw [if_pos hmax] at h
                cases h
              · rw [if_neg hmax] at h
                exact .inr ⟨t, kind, a, b, c, d, e, f, rest, rfl, hmax, hkind, h⟩
            · cases h
          · dsimp only [bind, Except.bind, pure, Except.pure] at h
            rw [if_pos hl] at h
            cases h
  · rename_i hshort
    cases h
    refine .inl ⟨rfl, ?_⟩
    match bs, hshort with
    | [], _ => exact Nat.zero_le _
    | [_], _ => exact Nat.le_refl _
    | t :: l :: rest, hshort => exact absurd rfl (hshort t l rest)

/-- The loop only adds files. -/
theorem prefix_of_parseEntries {bs : List UInt8} {files out : List FileCtrl}
    (h : parseEntries bs files = .ok out) : files <+: out := by
  induction hlen : bs.length using Nat.strong_induction_on generalizing bs files with
  | _ n ih =>
      obtain ⟨rfl, -⟩ | ⟨t, kind, a, b, c, d, e, f, rest, rfl, -, -, hrest⟩ := parseEntries_cases h
      · exact List.prefix_rfl
      · refine (List.prefix_append _ _).trans (ih rest.length ?_ hrest rfl)
        simp only [List.length_cons] at hlen
        omega

theorem be16_inj {a b c d : UInt8} (h : be16 a b = be16 c d) : a = c ∧ b = d := by
  have hb := b.toNat_lt
  have hd := d.toNat_lt
  simp only [be16] at h
  exact ⟨UInt8.toNat_inj.mp (by omega), UInt8.toNat_inj.mp (by omega)⟩

/-- One entry more was read, and it was the next of the list. -/
theorem parseEntries_next {bs : List UInt8} (files : List FileCtrl) {tail : List FileCtrl}
    {x : FileCtrl} (h : parseEntries bs files = .ok (files ++ x :: tail)) :
    ∃ t a b c d e f rest, bs = t :: 6 :: a :: b :: c :: d :: e :: f :: rest ∧
      FileCtrlKind.ofTag? t = some x.kind ∧ be16 a b = x.fileId ∧ be16 c d = x.fileSize ∧
      .fromByte e = x.readAccess ∧ .fromByte f = x.writeAccess ∧
      parseEntries rest (files ++ [x]) = .ok (files ++ [x] ++ tail) := by
  obtain ⟨hend, -⟩ | ⟨t, kind, a, b, c, d, e, f, rest, rfl, -, hkind, hrest⟩ := parseEntries_cases h
  · have hlen := congrArg List.length hend
    simp only [List.length_append, List.length_cons] at hlen
    omega
  · have hprefix := prefix_of_parseEntries hrest
    rw [List.prefix_append_right_inj, List.cons_prefix_cons] at hprefix
    obtain ⟨rfl, -⟩ := hprefix
    refine ⟨t, a, b, c, d, e, f, rest, rfl, hkind, rfl, rfl, rfl, rfl, ?_⟩
    rw [hrest, List.append_assoc]
    rfl

/-- A container is read from its header and the entries behind it. -/
theorem fromBytes_cases {bytes : List UInt8} {cc : CapabilityContainer}
    (h : fromBytes bytes = .ok cc) :
    ∃ a b version c d e f rest files, bytes = a :: b :: version :: c :: d :: e :: f :: rest ∧
      parseEntries (rest.take (be16 a b - 7)) [] = .ok files ∧
      cc = ⟨be16 a b, version, be16 c d, be16 e f, files⟩ := by
  rw [fromBytes.eq_def] at h
  split at h
  · rename_i a b version c d e f rest
    obtain ⟨files, hfiles, h⟩ := Except.bind_eq_ok_iff.mp h
    exact ⟨a, b, version, c, d, e, f, rest, files, rfl, hfiles, (Except.ok.inj h).symm⟩
  · cases h

/-- **The default container** is decoded from its bytes, whatever follows them, and from nothing
else. -/
theorem fromBytes_eq_default_iff {bytes : List UInt8} :
    fromBytes bytes = .ok default ↔ defaultBytes <+: bytes := by
  constructor
  · intro h
    obtain ⟨a, b, version, c, d, e, f, rest, files, rfl, hfiles, hcc⟩ := fromBytes_cases h
    simp only [default, CapabilityContainer.mk.injEq] at hcc
    obtain ⟨hlen, rfl, hle, hlc, rfl⟩ := hcc
    obtain ⟨rfl, rfl⟩ := be16_inj (a := 0x00) (b := 0x17) hlen
    obtain ⟨rfl, rfl⟩ := be16_inj (a := 0x01) (b := 0x00) hle
    obtain ⟨rfl, rfl⟩ := be16_inj (a := 0x00) (b := 0xFF) hlc
    obtain ⟨t, a, b, c, d, e, f, rest', hrest, hkind, hid, hsize, hread, hwrite, hnext⟩ :=
      parseEntries_next [] hfiles
    obtain rfl := FileCtrlKind.ofTag?_inj (b := 0x04) hkind rfl
    obtain ⟨rfl, rfl⟩ := be16_inj (c := 0xE1) (d := 0x04) hid
    obtain ⟨rfl, rfl⟩ := be16_inj (c := 0x01) (d := 0x00) hsize
    obtain rfl := AccessCondition.fromByte_inj (b := 0x00) hread
    obtain rfl := AccessCondition.fromByte_inj (b := 0x00) hwrite
    obtain ⟨t, a, b, c, d, e, f, rest'', rfl, hkind, hid, hsize, hread, hwrite, -⟩ :=
      parseEntries_next _ hnext
    obtain rfl := FileCtrlKind.ofTag?_inj (b := 0x05) hkind rfl
    obtain ⟨rfl, rfl⟩ := be16_inj (c := 0xE1) (d := 0x05) hid
    obtain ⟨rfl, rfl⟩ := be16_inj (c := 0x00) (d := 0x80) hsize
    obtain rfl := AccessCondition.fromByte_inj (b := 0x82) hread
    obtain rfl := AccessCondition.fromByte_inj (b := 0x83) hwrite
    rw [← List.take_append_drop (be16 0x00 0x17 - 7) rest, hrest]
    exact ⟨rest'' ++ rest.drop (be16 0x00 0x17 - 7), rfl⟩
  · rintro ⟨tail, rfl⟩
    exact fromBytes_default tail

/-- Zeros behind the bytes do not make a default container of them. -/
theorem fromBytes_of_append_zeros {bytes : List UInt8} {n : ℕ}
    (h : fromBytes (bytes ++ List.replicate n 0) = .ok default) :
    fromBytes bytes = .ok default := by
  rw [fromBytes_eq_default_iff] at h ⊢
  by_cases hle : defaultBytes.length ≤ bytes.length
  · exact List.prefix_of_prefix_length_le h (List.prefix_append _ _) hle
  · obtain ⟨zeros, hzeros⟩ := List.prefix_of_prefix_length_le (List.prefix_append _ _) h (by omega)
    rw [← hzeros, List.prefix_append_right_inj] at h
    have hne : zeros ≠ [] := by
      rintro rfl
      rw [List.append_nil] at hzeros
      exact hle (hzeros ▸ Nat.le_refl _)
    -- the last of the default bytes is no zero
    have hmem : (0x83 : UInt8) ∈ zeros := by
      refine List.mem_of_getLast? ?_
      rw [← List.getLast?_append_of_ne_nil bytes hne, hzeros]
      rfl
    exact absurd (List.eq_of_mem_replicate (h.subset hmem)) (by decide)

end CapabilityContainer

end Ntag424
