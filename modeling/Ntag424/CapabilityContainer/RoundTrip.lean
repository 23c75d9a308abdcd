import Mathlib.Tactic.Common
import Ntag424.CapabilityContainer

/-!
# Round Trips of the Capability Container

The container keeps the declared length of the bytes it was decoded from and serialises its
entries anew, and the `with_*` builders change entries in place. Both directions of the codec
are compared on every container that can be obtained in this way.

An access condition `Raw` can be built for a byte that has a name, although decoding never
produces one; it comes back under its name. Of the declared bytes, decoding drops a single byte
behind the last entry, and a declared length below that of the header is ignored.

## Main results

* `parseEntries_eq_ok`: what the loop over the entries has read.
* `CapabilityContainer.fromBytes_toBytes`: encoding and decoding gives back the container, up
  to the names of access conditions.
* `CapabilityContainer.toBytes_of_fromBytes`: decoding and encoding gives back the declared
  bytes, up to a dangling byte.
-/

namespace Ntag424

/-! ### Access conditions -/

namespace AccessCondition

/-- The condition under the name of its byte. -/
def canonical (access : AccessCondition) : AccessCondition := fromByte access.toByte

/-- A condition that decoding can produce. -/
def IsCanonical (access : AccessCondition) : Prop := access.canonical = access

@[simp] theorem toByte_fromByte (b : UInt8) : (fromByte b).toByte = b := by
  unfold fromByte
  split <;> rfl

theorem isCanonical_fromByte (b : UInt8) : (fromByte b).IsCanonical := by
  rw [IsCanonical, canonical, toByte_fromByte]

end AccessCondition

/-! ### Entries -/

namespace FileCtrl

/-- The entry with its conditions under their names. -/
def canonical (file : FileCtrl) : FileCtrl :=
  { file with readAccess := file.readAccess.canonical, writeAccess := file.writeAccess.canonical }

/-- The numbers of an entry have 16 bits. -/
structure Fits (file : FileCtrl) : Prop where
  fileId : file.fileId < 2 ^ 16
  fileSize : file.fileSize < 2 ^ 16

theorem length_toBytes (file : FileCtrl) : file.toBytes.length = 8 := by
  simp [toBytes]

end FileCtrl

@[simp] theorem FileCtrlKind.ofTag?_tag (kind : FileCtrlKind) : ofTag? kind.tag = some kind := by
  cases kind <;> rfl

theorem FileCtrlKind.tag_of_ofTag? {t : UInt8} {kind : FileCtrlKind} (h : ofTag? t = some kind) :
    t = kind.tag :=
  ofTag?_inj h (ofTag?_tag kind)

namespace CapabilityContainer

open Numerals

theorem be16_lt (a b : UInt8) : be16 a b < 2 ^ 16 := by
  have ha := a.toNat_lt
  have hb := b.toNat_lt
  simp only [be16]
  omega

theorem beBytes_two (n : ℕ) : beBytes 2 n = [UInt8.ofNat (n / 256), UInt8.ofNat n] := rfl

/-- Two bytes are read as the number that was written. -/
theorem be16_ofNat {n : ℕ} (h : n < 2 ^ 16) : be16 (UInt8.ofNat (n / 256)) (UInt8.ofNat n) = n := by
  simp only [be16, UInt8.toNat_ofNat']
  omega

@[simp] theorem beBytes_be16 (a b : UInt8) : beBytes 2 (be16 a b) = [a, b] := by
  have ha := a.toNat_lt
  have hb := b.toNat_lt
  rw [beBytes_two, be16]
  have hdiv : (256 * a.toNat + b.toNat) / 256 = a.toNat := by omega
  have hmod : UInt8.ofNat (256 * a.toNat + b.toNat) = b := by
    refine UInt8.toNat_inj.mp ?_
    rw [UInt8.toNat_ofNat']
    omega
  rw [hdiv, hmod, UInt8.ofNat_toNat]

/-- **One entry** in front of other bytes is read back under its names. -/
theorem parseEntries_toBytes_append {file : FileCtrl} (hfits : file.Fits) {files : List FileCtrl}
    (hroom : files.length < maxCcFiles) (rest : List UInt8) :
    parseEntries (file.toBytes ++ rest) files = parseEntries rest (files ++ [file.canonical]) := by
  have hbytes : file.toBytes ++ rest = file.kind.tag :: 0x06 :: UInt8.ofNat (file.fileId / 256) ::
      UInt8.ofNat file.fileId :: UInt8.ofNat (file.fileSize / 256) :: UInt8.ofNat file.fileSize ::
      file.readAccess.toByte :: file.writeAccess.toByte :: rest := rfl
  rw [hbytes, parseEntries, if_neg (by simp), FileCtrlKind.ofTag?_tag]
  dsimp only [bind, Except.bind, pure, Except.pure]
  rw [if_neg (by simp), if_neg hroom.ne, be16_ofNat hfits.fileId, be16_ofNat hfits.fileSize]
  rfl

/-- **The entries** are read back under their names. -/
theorem parseEntries_flatMap {new : List FileCtrl} (hfits : ∀ file ∈ new, file.Fits)
    {files : List FileCtrl} (hroom : files.length + new.length ≤ maxCcFiles) :
    parseEntries (new.flatMap FileCtrl.toBytes) files =
      .ok (files ++ new.map FileCtrl.canonical) := by
  induction new generalizing files with
  | nil => simp [parseEntries]
  | cons file new ih =>
      rw [List.length_cons] at hroom
      rw [List.flatMap_cons, parseEntries_toBytes_append (hfits file List.mem_cons_self) (by omega),
        ih (fun x hx => hfits x (.tail file hx))
        (by rw [List.length_append, List.length_singleton]; omega),
        List.map_cons, List.append_assoc, List.singleton_append]

/-- **What the loop has read**: entries, each in the form in which it is serialised, and at most
one byte behind them. -/
theorem parseEntries_eq_ok {bs : List UInt8} {files out : List FileCtrl}
    (h : parseEntries bs files = .ok out) (hroom : files.length ≤ maxCcFiles) :
    ∃ new left, out = files ++ new ∧ bs = new.flatMap FileCtrl.toBytes ++ left ∧
      left.length ≤ 1 ∧ out.length ≤ maxCcFiles ∧
      ∀ file ∈ new, file.Fits ∧ file.canonical = file := by
  induction hlen : bs.length using Nat.strong_induction_on generalizing bs files with
  | _ n ih =>
      obtain ⟨rfl, hleft⟩ | ⟨t, kind, a, b, c, d, e, f, rest, rfl, hmax, hkind, hrest⟩ :=
        parseEntries_cases h
      · exact ⟨[], bs, (List.append_nil _).symm, rfl, hleft, hroom, nofun⟩
      · simp only [List.length_cons] at hlen
        have hroom' : (files ++ [(⟨kind, be16 a b, be16 c d, .fromByte e, .fromByte f⟩ :
            FileCtrl)]).length ≤ maxCcFiles := by
          rw [List.length_append, List.length_singleton]
          omega
        obtain ⟨new, left, rfl, rfl, hleft, hout, hnew⟩ :=
          ih rest.length (by omega) hrest hroom' rfl
        refine ⟨⟨kind, be16 a b, be16 c d, .fromByte e, .fromByte f⟩ :: new, left, ?_, ?_, hleft,
          hout, ?_⟩
        · rw [List.append_assoc, List.singleton_append]
        · rw [FileCtrlKind.tag_of_ofTag? hkind, List.flatMap_cons, FileCtrl.toBytes, beBytes_be16,
            beBytes_be16, AccessCondition.toByte_fromByte, AccessCondition.toByte_fromByte]
          rfl
        · intro file hfile
          rcases List.mem_cons.mp hfile with rfl | hfile
          · refine ⟨⟨be16_lt a b, be16_lt c d⟩, ?_⟩
            rw [FileCtrl.canonical, AccessCondition.isCanonical_fromByte,
              AccessCondition.isCanonical_fromByte]
          · exact hnew file hfile

/-! ### The `with_*` builders -/

/-- `find_mut`, and a change of what it found: the first entry of a kind. -/
def modifyFirst (kind : FileCtrlKind) (change : FileCtrl → FileCtrl) : List FileCtrl → List FileCtrl
  | [] => []
  | file :: files =>
      if file.kind = kind then change file :: files else file :: modifyFirst kind change files

section Builders

variable (cc : CapabilityContainer)

/-- `with_ndef_read_access`. -/
def withNdefReadAccess (access : AccessCondition) : CapabilityContainer :=
  { cc with files := modifyFirst .ndef (fun f => { f with readAccess := access }) cc.files }

/-- `with_ndef_write_access`. -/
def withNdefWriteAccess (access : AccessCondition) : CapabilityContainer :=
  { cc with files := modifyFirst .ndef (fun f => { f with writeAccess := access }) cc.files }

/-- `with_proprietary_read_access`. -/
def withProprietaryReadAccess (access : AccessCondition) : CapabilityContainer :=
  { cc with files := modifyFirst .proprietary (fun f => { f with readAccess := access }) cc.files }

/-- `with_proprietary_write_access`. -/
def withProprietaryWriteAccess (access : AccessCondition) : CapabilityContainer :=
  { cc with files := modifyFirst .proprietary (fun f => { f with writeAccess := access }) cc.files }

/-- `with_ndef_file_size`. -/
def withNdefFileSize (fileSize : UInt16) : CapabilityContainer :=
  { cc with files := modifyFirst .ndef (fun f => { f with fileSize := fileSize.toNat }) cc.files }

/-- `with_proprietary_file_size`. -/
def withProprietaryFileSize (fileSize : UInt16) : CapabilityContainer :=
  { cc with
    files := modifyFirst .proprietary (fun f => { f with fileSize := fileSize.toNat }) cc.files }

end Builders

/-- A container from `default` or `from_bytes`, changed by any sequence of builder calls whose
access conditions satisfy `p`. -/
inductive Built (p : AccessCondition → Prop) : CapabilityContainer → Prop
  | default : Built p default
  | fromBytes {bytes : List UInt8} {cc : CapabilityContainer} :
      fromBytes bytes = .ok cc → Built p cc
  | withNdefReadAccess {cc : CapabilityContainer} {access : AccessCondition} :
      Built p cc → p access → Built p (cc.withNdefReadAccess access)
  | withNdefWriteAccess {cc : CapabilityContainer} {access : AccessCondition} :
      Built p cc → p access → Built p (cc.withNdefWriteAccess access)
  | withProprietaryReadAccess {cc : CapabilityContainer} {access : AccessCondition} :
      Built p cc → p access → Built p (cc.withProprietaryReadAccess access)
  | withProprietaryWriteAccess {cc : CapabilityContainer} {access : AccessCondition} :
      Built p cc → p access → Built p (cc.withProprietaryWriteAccess access)
  | withNdefFileSize {cc : CapabilityContainer} (fileSize : UInt16) :
      Built p cc → Built p (cc.withNdefFileSize fileSize)
  | withProprietaryFileSize {cc : CapabilityContainer} (fileSize : UInt16) :
      Built p cc → Built p (cc.withProprietaryFileSize fileSize)

/-! ### What the builders keep -/

variable {p : AccessCondition → Prop} {cc : CapabilityContainer}

/-- An entry of a built container: its conditions come from decoding or from a builder. -/
structure BuiltEntry (p : AccessCondition → Prop) (file : FileCtrl) : Prop where
  fits : file.Fits
  readAccess : p file.readAccess ∨ file.readAccess.IsCanonical
  writeAccess : p file.writeAccess ∨ file.writeAccess.IsCanonical

/-- The invariant of the builders: the header fits, and the declared length covers the entries. -/
structure WellFormed (p : AccessCondition → Prop) (cc : CapabilityContainer) : Prop where
  ccLen : cc.ccLen < 2 ^ 16
  maxLe : cc.maxLe < 2 ^ 16
  maxLc : cc.maxLc < 2 ^ 16
  files : cc.files.length ≤ maxCcFiles
  declared : cc.files ≠ [] → 7 + 8 * cc.files.length ≤ cc.ccLen
  entries : ∀ file ∈ cc.files, BuiltEntry p file

theorem length_modifyFirst (kind : FileCtrlKind) (change : FileCtrl → FileCtrl)
    (files : List FileCtrl) : (modifyFirst kind change files).length = files.length := by
  induction files with
  | nil => rfl
  | cons file files ih =>
      rw [modifyFirst]
      split
      · rfl
      · rw [List.length_cons, List.length_cons, ih]

theorem mem_of_mem_modifyFirst {kind : FileCtrlKind} {change : FileCtrl → FileCtrl}
    {files : List FileCtrl} {x : FileCtrl} (h : x ∈ modifyFirst kind change files) :
    x ∈ files ∨ ∃ file ∈ files, x = change file := by
  induction files with
  | nil => exact .inl h
  | cons file files ih =>
      rw [modifyFirst] at h
      split at h
      · rcases List.mem_cons.mp h with rfl | h
        · exact .inr ⟨file, List.mem_cons_self, rfl⟩
        · exact .inl (.tail file h)
      · rcases List.mem_cons.mp h with rfl | h
        · exact .inl List.mem_cons_self
        · rcases ih h with h | ⟨y, hy, rfl⟩
          · exact .inl (.tail file h)
          · exact .inr ⟨y, .tail file hy, rfl⟩

/-- Changing an entry keeps the invariant when the changed entry is one of a built container. -/
theorem WellFormed.modifyFirst (h : WellFormed p cc) (kind : FileCtrlKind)
    {change : FileCtrl → FileCtrl}
    (hchange : ∀ file, BuiltEntry p file → BuiltEntry p (change file)) :
    WellFormed p { cc with files := CapabilityContainer.modifyFirst kind change cc.files } where
  ccLen := h.ccLen
  maxLe := h.maxLe
  maxLc := h.maxLc
  files := by
    rw [length_modifyFirst]
    exact h.files
  declared hne := by
    rw [length_modifyFirst]
    refine h.declared fun hnil => hne ?_
    rw [hnil]
    rfl
  entries file hfile := by
    rcases mem_of_mem_modifyFirst hfile with hfile | ⟨file', hfile', rfl⟩
    · exact h.entries file hfile
    · exact hchange file' (h.entries file' hfile')

/-! ### Both directions -/

/-- The bytes of a container: the header and the entries. -/
def serialised (cc : CapabilityContainer) : List UInt8 :=
  beBytes 2 cc.ccLen ++ [cc.t4tVersion] ++ beBytes 2 cc.maxLe ++ beBytes 2 cc.maxLc ++
    cc.files.flatMap FileCtrl.toBytes

theorem length_flatMap_toBytes (files : List FileCtrl) :
    (files.flatMap FileCtrl.toBytes).length = 8 * files.length := by
  induction files with
  | nil => rfl
  | cons file files ih =>
      rw [List.flatMap_cons, List.length_append, ih, FileCtrl.length_toBytes, List.length_cons]
      omega

theorem length_serialised (cc : CapabilityContainer) :
    cc.serialised.length = 7 + 8 * cc.files.length := by
  rw [serialised, List.length_append, length_flatMap_toBytes]
  simp

/-- Up to three entries fit the buffer. -/
theorem toBytes_eq {ε : Type} (h : cc.files.length ≤ maxCcFiles) :
    (cc.toBytes : Outcome ε (List UInt8)) = .ok cc.serialised := by
  have hlen := length_serialised cc
  rw [toBytes]
  refine if_pos ?_
  rw [serialised] at hlen
  rw [hlen, maxCcBytes]
  omega

/-- **A decoded container** is well formed; the declared bytes are those of the container and at
most one byte behind them. -/
theorem fromBytes_eq_ok {bytes : List UInt8} (h : fromBytes bytes = .ok cc) :
    WellFormed p cc ∧
      ∃ left, left.length ≤ 1 ∧ bytes.take (max cc.ccLen 7) = cc.serialised ++ left := by
  obtain ⟨a, b, version, c, d, e, f, rest, files, rfl, hfiles, rfl⟩ := fromBytes_cases h
  obtain ⟨new, left, rfl, hrest, hleft, hroom, hnew⟩ := parseEntries_eq_ok hfiles (Nat.zero_le _)
  have hlen := congrArg List.length hrest
  rw [List.length_take, List.length_append, length_flatMap_toBytes] at hlen
  refine ⟨⟨be16_lt a b, be16_lt c d, be16_lt e f, hroom, fun hne => ?_, fun file hfile => ?_⟩,
    left, hleft, ?_⟩
  · have hpos := List.length_pos_iff.mpr hne
    simp only at hpos ⊢
    omega
  · obtain ⟨hfits, hcanon⟩ := hnew file hfile
    have hread := congrArg FileCtrl.readAccess hcanon
    have hwrite := congrArg FileCtrl.writeAccess hcanon
    exact ⟨hfits, .inr hread, .inr hwrite⟩
  · have htake : (a :: b :: version :: c :: d :: e :: f :: rest).take (max (be16 a b) 7) =
        [a, b, version, c, d, e, f] ++ rest.take (be16 a b - 7) := by
      rw [show max (be16 a b) 7 = be16 a b - 7 + 7 by omega]
      rfl
    rw [htake, hrest, serialised, beBytes_be16, beBytes_be16, beBytes_be16]
    simp

/-- **Every built container is well formed.** -/
theorem Built.wellFormed (h : Built p cc) : WellFormed p cc := by
  induction h with
  | default =>
      have hname : ∀ b, p (.fromByte b) ∨ (AccessCondition.fromByte b).IsCanonical := fun b =>
        .inr (AccessCondition.isCanonical_fromByte b)
      refine ⟨by decide, by decide, by decide, by decide, fun _ => by decide, ?_⟩
      intro file hfile
      rcases List.mem_cons.mp hfile with rfl | hfile
      · exact ⟨⟨by decide, by decide⟩, hname 0x00, hname 0x00⟩
      · obtain rfl := List.mem_singleton.mp hfile
        exact ⟨⟨by decide, by decide⟩, hname 0x82, hname 0x83⟩
  | fromBytes h => exact (fromBytes_eq_ok h).1
  | withNdefReadAccess _ hp ih | withProprietaryReadAccess _ hp ih =>
      exact ih.modifyFirst _ fun file hfile =>
        ⟨⟨hfile.fits.1, hfile.fits.2⟩, .inl hp, hfile.writeAccess⟩
  | withNdefWriteAccess _ hp ih | withProprietaryWriteAccess _ hp ih =>
      exact ih.modifyFirst _ fun file hfile =>
        ⟨⟨hfile.fits.1, hfile.fits.2⟩, hfile.readAccess, .inl hp⟩
  | withNdefFileSize fileSize _ ih | withProprietaryFileSize fileSize _ ih =>
      exact ih.modifyFirst _ fun file hfile =>
        ⟨⟨hfile.fits.1, fileSize.toNat_lt⟩, hfile.readAccess, hfile.writeAccess⟩

/-- The container with all conditions under their names. -/
def canonical (cc : CapabilityContainer) : CapabilityContainer :=
  { cc with files := cc.files.map FileCtrl.canonical }

/-- **Decoding the bytes of a well-formed container.** -/
theorem WellFormed.fromBytes_serialised (h : WellFormed p cc) :
    CapabilityContainer.fromBytes cc.serialised = .ok cc.canonical := by
  have hbytes : cc.serialised = UInt8.ofNat (cc.ccLen / 256) :: UInt8.ofNat cc.ccLen ::
      cc.t4tVersion :: UInt8.ofNat (cc.maxLe / 256) :: UInt8.ofNat cc.maxLe ::
      UInt8.ofNat (cc.maxLc / 256) :: UInt8.ofNat cc.maxLc ::
      cc.files.flatMap FileCtrl.toBytes := rfl
  have htake : (cc.files.flatMap FileCtrl.toBytes).take (cc.ccLen - 7) =
      cc.files.flatMap FileCtrl.toBytes := by
    refine List.take_of_length_le ?_
    rw [length_flatMap_toBytes]
    by_cases hne : cc.files = []
    · rw [hne]
      exact Nat.zero_le _
    · have := h.declared hne
      omega
  have hfiles := parseEntries_flatMap (fun file hfile => (h.entries file hfile).fits)
    (show ([] : List FileCtrl).length + cc.files.length ≤ maxCcFiles by simpa using h.files)
  rw [hbytes, CapabilityContainer.fromBytes, be16_ofNat h.ccLen, be16_ofNat h.maxLe,
    be16_ofNat h.maxLc, htake, hfiles]
  rfl

/-- Canonical conditions are kept. -/
theorem WellFormed.canonical_eq (h : WellFormed AccessCondition.IsCanonical cc) :
    cc.canonical = cc := by
  have hfiles : cc.files.map FileCtrl.canonical = cc.files := by
    refine (List.map_congr_left fun file hfile => ?_).trans (List.map_id _)
    obtain ⟨-, hread, hwrite⟩ := h.entries file hfile
    have hread : file.readAccess.canonical = file.readAccess := hread.elim id id
    have hwrite : file.writeAccess.canonical = file.writeAccess := hwrite.elim id id
    rw [FileCtrl.canonical, hread, hwrite]
    rfl
  rw [canonical, hfiles]

/-- **Encoding, then decoding.** No container that `default`, `from_bytes` and the builders can
produce makes `to_bytes` panic, and decoding its bytes gives it back with every access condition
under its name; it is unchanged when the builders were given canonical conditions only. -/
theorem fromBytes_toBytes (h : Built (fun _ => True) cc) :
    ∃ bytes, (cc.toBytes : Outcome Empty (List UInt8)) = .ok bytes ∧
      fromBytes bytes = .ok cc.canonical ∧
      (Built AccessCondition.IsCanonical cc → fromBytes bytes = .ok cc) := by
  refine ⟨_, toBytes_eq h.wellFormed.files, h.wellFormed.fromBytes_serialised, fun hc => ?_⟩
  rw [h.wellFormed.fromBytes_serialised, hc.wellFormed.canonical_eq]

/-- Writes to the NDEF file are denied, reads of the proprietary file need key 1. -/
def restricted : CapabilityContainer :=
  (default.withNdefWriteAccess .denied).withProprietaryReadAccess (.proprietaryKey .key1)

theorem fromBytes_toBytes_restricted :
    Built (fun _ => True) restricted ∧
    ∃ bytes, (restricted.toBytes : Outcome Empty (List UInt8)) = .ok bytes ∧
      fromBytes bytes = .ok restricted.canonical ∧
      (Built AccessCondition.IsCanonical restricted → fromBytes bytes = .ok restricted) :=
  have h : Built (fun _ => True) restricted :=
    .withProprietaryReadAccess (.withNdefWriteAccess .default trivial) trivial
  ⟨h, fromBytes_toBytes h⟩

/-- A `Raw` condition of the byte of open access comes back as open access. -/
theorem rawOpen_renamed :
    Built (fun _ => True) (default.withNdefReadAccess (.raw 0x00)) ∧
      ((default.withNdefReadAccess (.raw 0x00)).toBytes : Outcome Empty (List UInt8)) =
        .ok defaultBytes ∧
      fromBytes defaultBytes ≠ .ok (default.withNdefReadAccess (.raw 0x00)) :=
  ⟨.withNdefReadAccess .default trivial, rfl, by decide⟩

/-- **Decoding, then encoding.** The bytes of a decoded container are the header and the complete
entries of the declared bytes. These are the declared bytes exactly when eight divides what is
declared behind the header; otherwise the header itself was declared too short, or one byte
follows the last entry and is dropped. -/
theorem toBytes_of_fromBytes {d : List UInt8} (h : fromBytes d = .ok cc)
    (hlen : cc.ccLen ≤ d.length) :
    ∃ bytes, (cc.toBytes : Outcome Empty (List UInt8)) = .ok bytes ∧
      bytes = d.take (7 + 8 * ((cc.ccLen - 7) / 8)) ∧
      (bytes = d.take cc.ccLen ↔ 7 ≤ cc.ccLen ∧ 8 ∣ cc.ccLen - 7) ∧
      (¬ (7 ≤ cc.ccLen ∧ 8 ∣ cc.ccLen - 7) → cc.ccLen < 7 ∨ cc.ccLen = bytes.length + 1) := by
  obtain ⟨hwf, left, hleft, htake⟩ := fromBytes_eq_ok (p := fun _ => True) h
  have hshort : 7 ≤ d.length := by
    obtain ⟨_, _, _, _, _, _, _, _, _, rfl, -⟩ := fromBytes_cases h
    simp
  have hserialised := length_serialised cc
  have hsum : max cc.ccLen 7 = cc.serialised.length + left.length := by
    have := congrArg List.length htake
    rw [List.length_take, List.length_append] at this
    omega
  have hbytes : cc.serialised = d.take (7 + 8 * ((cc.ccLen - 7) / 8)) := by
    rw [show 7 + 8 * ((cc.ccLen - 7) / 8) = min cc.serialised.length (max cc.ccLen 7) by omega,
      ← List.take_take, htake, List.take_left]
  refine ⟨_, toBytes_eq hwf.files, hbytes, ⟨fun heq => ?_, fun hwhole => ?_⟩, fun hno => ?_⟩
  · have := congrArg List.length heq
    rw [List.length_take] at this
    omega
  · obtain ⟨h7, h8⟩ := hwhole
    rw [hbytes]
    congr 1
    omega
  · omega

/-- The file at delivery. -/
theorem toBytes_of_fromBytes_default :
    (fromBytes defaultBytes = .ok default ∧ default.ccLen ≤ defaultBytes.length) ∧
    ∃ bytes, (default.toBytes : Outcome Empty (List UInt8)) = .ok bytes ∧
      bytes = defaultBytes.take (7 + 8 * ((default.ccLen - 7) / 8)) ∧
      (bytes = defaultBytes.take default.ccLen ↔ 7 ≤ default.ccLen ∧ 8 ∣ default.ccLen - 7) ∧
      (¬ (7 ≤ default.ccLen ∧ 8 ∣ default.ccLen - 7) →
        default.ccLen < 7 ∨ default.ccLen = bytes.length + 1) :=
  ⟨⟨rfl, by decide⟩, toBytes_of_fromBytes rfl (by decide)⟩

/-- A declared byte behind the header, too few for an entry, is dropped. -/
theorem danglingByte_dropped :
    fromBytes [0x00, 0x08, 0x20, 0x01, 0x00, 0x00, 0xFF, 0x04] = .ok ⟨8, 0x20, 256, 255, []⟩ ∧
      ((⟨8, 0x20, 256, 255, []⟩ : CapabilityContainer).toBytes : Outcome Empty (List UInt8)) =
        .ok [0x00, 0x08, 0x20, 0x01, 0x00, 0x00, 0xFF] ∧
      [0x00, 0x08, 0x20, 0x01, 0x00, 0x00, 0xFF] ≠
        ([0x00, 0x08, 0x20, 0x01, 0x00, 0x00, 0xFF, 0x04] : List UInt8).take 8 :=
  ⟨rfl, rfl, by decide⟩

end CapabilityContainer

end Ntag424
