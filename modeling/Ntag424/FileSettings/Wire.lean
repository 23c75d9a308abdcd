import Mathlib.Tactic.Common
import Ntag424.FileSettings.Codec

/-!
# The Wire Format of the SDM Settings

What the decoder of `GetFileSettings` accepts and what the encoder of `ChangeFileSettings`
writes, both in terms of one format: a block of option bits, access nibbles and 24-bit numbers
whose presence the bits and nibbles decide.

A decoder that succeeds reads a definite string of bytes (`Cursor.Reads`), and a chain of
decoders reads the concatenation of what its parts read.

## Main results

* `decodeSdm_eq_ok_iff`: the decoder accepts exactly the valid blocks.
* `Sdm.encode_eq_ok_iff`: the encoder writes the block of the settings.
-/

namespace Ntag424

open Numerals

/-! ### Chains of decoders -/

namespace Decoder

variable {α β : Type} {c c' : Cursor} {a b : α}

theorem bind_eq_ok_iff {d : Decoder α} {f : α → Decoder β} {r : β × Cursor} :
    (d >>= f) c = .ok r ↔ ∃ a c', d c = .ok (a, c') ∧ f a c' = .ok r := by
  constructor
  · intro h
    obtain ⟨⟨a, c'⟩, h₁, h₂⟩ := Except.bind_eq_ok_iff.mp h
    exact ⟨a, c', h₁, h₂⟩
  · rintro ⟨a, c', h₁, h₂⟩
    exact Except.bind_eq_ok_iff.mpr ⟨(a, c'), h₁, h₂⟩

theorem pure_eq_ok_iff : (pure a : Decoder α) c = .ok (b, c') ↔ a = b ∧ c = c' := by
  constructor
  · rintro ⟨⟩
    exact ⟨rfl, rfl⟩
  · rintro ⟨rfl, rfl⟩
    rfl

theorem lift_eq_ok_iff {x : Except FileSettingsError α} :
    (liftM x : Decoder α) c = .ok (a, c') ↔ x = .ok a ∧ c = c' := by
  cases x with
  | error e => exact ⟨nofun, fun h => nomatch h.1⟩
  | ok b =>
      constructor
      · rintro ⟨⟩
        exact ⟨rfl, rfl⟩
      · rintro ⟨⟨⟩, rfl⟩
        rfl

/-- A chain that goes on past a check passed the check. -/
theorem ite_throw_eq_ok_iff {p : Prop} [Decidable p] {e : FileSettingsError} {k : α → Decoder β}
    {d : Decoder β} {r : β × Cursor} :
    (if p then (throw e >>= k) else d) c = .ok r ↔ ¬p ∧ d c = .ok r := by
  split
  · rename_i h
    exact ⟨nofun, fun hno => absurd h hno.1⟩
  · rename_i h
    exact ⟨fun hd => ⟨h, hd⟩, fun hd => hd.2⟩

end Decoder

/-! ### What a cursor reads -/

namespace Cursor

/-- The bytes that are left. -/
def rest (c : Cursor) : List UInt8 := c.buf.drop c.pos

/-- `c` moves over `bytes` to `c'`. -/
def Reads (c : Cursor) (bytes : List UInt8) (c' : Cursor) : Prop :=
  c.rest = bytes ++ c'.rest ∧ c' = ⟨c.buf, c.pos + bytes.length⟩

variable {c c' c'' : Cursor} {xs ys : List UInt8}

theorem reads_nil_iff : c.Reads [] c' ↔ c = c' := by
  constructor
  · rintro ⟨-, rfl⟩
    rfl
  · rintro rfl
    exact ⟨rfl, rfl⟩

/-- Reading a string is reading its parts in turn. -/
theorem reads_append_iff : c.Reads (xs ++ ys) c'' ↔ ∃ c', c.Reads xs c' ∧ c'.Reads ys c'' := by
  constructor
  · rintro ⟨h, rfl⟩
    have hmid : (⟨c.buf, c.pos + xs.length⟩ : Cursor).rest =
        ys ++ (⟨c.buf, c.pos + (xs ++ ys).length⟩ : Cursor).rest := by
      calc (⟨c.buf, c.pos + xs.length⟩ : Cursor).rest = c.rest.drop xs.length := by
            rw [rest, rest, List.drop_drop]
        _ = _ := by rw [h, List.append_assoc, List.drop_left' rfl]
    refine ⟨⟨c.buf, c.pos + xs.length⟩, ⟨?_, rfl⟩, hmid, ?_⟩
    · rw [hmid, ← List.append_assoc, h]
    · rw [List.length_append, Nat.add_assoc]
  · rintro ⟨_, ⟨h₁, rfl⟩, h₂, rfl⟩
    refine ⟨?_, ?_⟩
    · rw [h₁, h₂, List.append_assoc]
    · rw [List.length_append, Nat.add_assoc]

/-- `array` reads its bytes. -/
theorem array_eq_ok_iff {n : ℕ} {b : Bytes n} (hn : 0 < n) :
    Cursor.array n c = .ok (b, c') ↔ c.Reads b.toList c' := by
  unfold Cursor.array
  split
  · rename_i hshort
    constructor
    · exact nofun
    · rintro ⟨h, -⟩
      have hlen := congrArg List.length h
      rw [rest, List.length_drop, List.length_append, b.length_toList] at hlen
      omega
  · rename_i hlong
    have hslice : (slice c.buf c.pos n).length = n := length_slice (by omega)
    constructor
    · intro h
      obtain ⟨rfl, rfl⟩ := Prod.mk.inj (Except.ok.inj h)
      rw [Reads, Bytes.toList_fill_of_length hslice, hslice]
      refine ⟨?_, rfl⟩
      rw [slice, rest, rest, ← List.drop_drop, List.take_append_drop]
    · rintro ⟨h, rfl⟩
      have htake : slice c.buf c.pos n = b.toList := by
        rw [slice, ← rest, h, List.take_left' b.length_toList]
      rw [htake, Bytes.fill_toList, b.length_toList]

theorem u8_eq_ok_iff {b : UInt8} : c.u8 = .ok (b, c') ↔ c.Reads [b] c' := by
  simp only [u8, Decoder.bind_eq_ok_iff, Decoder.pure_eq_ok_iff,
    array_eq_ok_iff Nat.one_pos]
  constructor
  · rintro ⟨bytes, c₁, h, rfl, rfl⟩
    obtain ⟨x, hx⟩ := List.length_eq_one_iff.mp bytes.length_toList
    have hbyte : bytes.byte 0 = x := by simp [Bytes.byte, hx]
    rw [hbyte, ← hx]
    exact h
  · intro h
    exact ⟨⟨[b], rfl⟩, c', h, rfl, rfl⟩

theorem u24Le_eq_ok_iff {v : ℕ} : c.u24Le = .ok (v, c') ↔
    v < 256 ^ 3 ∧ c.Reads (leBytes 3 v) c' := by
  simp only [u24Le, Decoder.bind_eq_ok_iff, Decoder.pure_eq_ok_iff,
    array_eq_ok_iff (show 0 < 3 by decide)]
  constructor
  · rintro ⟨bytes, c₁, h, rfl, rfl⟩
    have hlt := ofLe_lt bytes.toList
    have hle := leBytes_ofLe bytes.toList
    rw [bytes.length_toList] at hlt hle
    exact ⟨hlt, by rw [hle]; exact h⟩
  · rintro ⟨hlt, h⟩
    refine ⟨⟨leBytes 3 v, length_leBytes ..⟩, c', h, ?_, rfl⟩
    rw [ofLe_leBytes, Nat.mod_eq_of_lt hlt]

theorem offset_eq_ok_iff {o : Offset} : c.offset = .ok (o, c') ↔ c.Reads (leBytes 3 o.val) c' := by
  simp only [offset, Decoder.bind_eq_ok_iff, Decoder.pure_eq_ok_iff,
    array_eq_ok_iff (show 0 < 3 by decide)]
  constructor
  · rintro ⟨bytes, c₁, h, rfl, rfl⟩
    have hle := leBytes_ofLe bytes.toList
    rw [bytes.length_toList] at hle
    rw [hle]
    exact h
  · intro h
    refine ⟨⟨leBytes 3 o.val, length_leBytes ..⟩, c', h, ?_, rfl⟩
    obtain ⟨v, hv⟩ := o
    have hmod : v % 256 ^ 3 = v := Nat.mod_eq_of_lt (by omega)
    simp only [ofLe_leBytes, hmod]

/-- An optional part reads its bytes when it is there. -/
theorem readWhen_eq_ok_iff {α : Type} {d : Decoder α} {bytes : α → List UInt8} {present : Bool}
    {x : Option α} (hd : ∀ {c c' a}, d c = .ok (a, c') ↔ c.Reads (bytes a) c') :
    Cursor.readWhen present d c = .ok (x, c') ↔
      x.isSome = present ∧ c.Reads (x.elim [] bytes) c' := by
  unfold readWhen
  cases present with
  | true =>
      simp only [if_true, Decoder.bind_eq_ok_iff, Decoder.pure_eq_ok_iff, hd]
      constructor
      · rintro ⟨a, c₁, h, rfl, rfl⟩
        exact ⟨rfl, h⟩
      · rintro ⟨hsome, h⟩
        obtain ⟨a, rfl⟩ := Option.isSome_iff_exists.mp hsome
        exact ⟨a, c', h, rfl, rfl⟩
  | false =>
      rw [if_neg (by decide), Decoder.pure_eq_ok_iff]
      constructor
      · rintro ⟨rfl, rfl⟩
        exact ⟨rfl, reads_nil_iff.mpr rfl⟩
      · rintro ⟨hnone, h⟩
        obtain rfl : x = none := by simpa using hnone
        exact ⟨rfl, reads_nil_iff.mp h⟩

end Cursor

/-! ### The block -/

/-- The wire bytes of a 24-bit number. -/
def Offset.bytes (o : Offset) : List UInt8 := leBytes 3 o.val

/-- The wire bytes of an encrypted range. -/
def EncFileData.bytes (e : EncFileData) : List UInt8 := e.start.bytes ++ leBytes 3 e.length.val

/-- The SDM block on the wire: the option bits, the access nibbles, and the numbers that are
present, in wire order. -/
structure SdmBlock where
  options : UInt8
  rights : Bytes 2
  uid : Option Offset
  readCtr : Option Offset
  picc : Option Offset
  tamper : Option Offset
  macInput : Option Offset
  enc : Option EncFileData
  mac : Option Offset
  limit : Option Offset

namespace SdmBlock

/-- The wire bytes of a block. -/
def bytes (b : SdmBlock) : List UInt8 :=
  [b.options] ++ (b.rights.toList ++ (b.uid.elim [] Offset.bytes ++
    (b.readCtr.elim [] Offset.bytes ++ (b.picc.elim [] Offset.bytes ++
      (b.tamper.elim [] Offset.bytes ++ (b.macInput.elim [] Offset.bytes ++
        (b.enc.elim [] EncFileData.bytes ++ (b.mac.elim [] Offset.bytes ++
          b.limit.elim [] Offset.bytes))))))))

/-- The nibble of `SDMMetaRead`. -/
def metaNibble (b : SdmBlock) : UInt8 := b.rights.byte 1 >>> 4

/-- The nibble of `SDMFileRead`. -/
def fileReadNibble (b : SdmBlock) : UInt8 := b.rights.byte 1 &&& 0xF

/-- The nibble of `SDMCtrRet`. -/
def ctrRetNibble (b : SdmBlock) : UInt8 := b.rights.byte 0 &&& 0xF

/-- Whether an option bit is set. -/
def option (b : SdmBlock) (mask : UInt8) : Bool := b.options &&& mask != 0

/-- The read-counter limit a number on the wire stands for. -/
def limitOf (limit : Option Offset) : Option ℕ :=
  limit.bind fun v => if v.val ≠ 0xFFFFFF then some v.val else none

/-- A block that describes the settings `s`, with the key of the file read and the right to
read the counter back. -/
structure Describes (b : SdmBlock) (s : Sdm) (key : Option KeyNumber) (ctrRet : CtrRetAccess) :
    Prop where
  reserved : b.options &&& 0b111 = 0b001
  reservedRights : b.rights.byte 0 &&& 0xF0 = 0xF0
  readKey : fileReadKeyFromNibble b.fileReadNibble = .ok key
  retAccess : CtrRetAccess.fromNibble b.ctrRetNibble = .ok ctrRet
  noCtrRet : b.option 0x40 = false → ctrRet = .noAccess
  uid : b.uid.isSome = (b.option 0x80 && b.metaNibble == 0xE)
  readCtr : b.readCtr.isSome = (b.option 0x40 && b.metaNibble == 0xE)
  picc : b.picc.isSome = decide (b.metaNibble ≤ 0x4)
  tamper : b.tamper.isSome = b.option 0x08
  macInput : b.macInput.isSome = key.isSome
  enc : b.enc.isSome = (key.isSome && b.option 0x10)
  mac : b.mac.isSome = key.isSome
  limit : b.limit.isSome = b.option 0x20
  limitMirror : b.limit.isSome = true → b.option 0x40 = true
  piccData : decodePiccData b.metaNibble (b.option 0x80) (b.option 0x40) b.uid b.readCtr b.picc
    ⟨limitOf b.limit, ctrRet⟩ = .ok s.piccData
  fileRead : decodeFileRead key b.macInput b.mac b.enc = .ok s.fileRead
  tamperStatus : b.tamper = s.tamperStatus

end SdmBlock

variable {c c' : Cursor}

theorem decodeEncRange_eq_ok_iff {e : EncFileData} :
    decodeEncRange c = .ok (e, c') ↔ c.Reads e.bytes c' := by
  simp only [decodeEncRange, Decoder.bind_eq_ok_iff, Decoder.pure_eq_ok_iff, Decoder.lift_eq_ok_iff,
    Cursor.offset_eq_ok_iff, Cursor.u24Le_eq_ok_iff, EncLength.new_eq_ok_iff, EncFileData.bytes,
    Cursor.reads_append_iff]
  constructor
  · rintro ⟨start, c₁, h₁, len, c₂, ⟨-, h₂⟩, length, c₃, ⟨rfl, rfl⟩, rfl, rfl⟩
    exact ⟨c₁, h₁, h₂⟩
  · rintro ⟨c₁, h₁, h₂⟩
    have hlt : e.length.val < 256 ^ 3 := by
      have := e.length.valid.2.2
      omega
    exact ⟨e.start, c₁, h₁, e.length.val, c', ⟨hlt, h₂⟩, e.length, c', ⟨rfl, rfl⟩, rfl, rfl⟩

theorem decodeCtrLimit_eq_ok_iff {enabled mirror : Bool} {x : Option ℕ} :
    decodeCtrLimit enabled mirror c = .ok (x, c') ↔
      ∃ limit : Option Offset, limit.isSome = enabled ∧ (limit.isSome = true → mirror = true) ∧
        x = SdmBlock.limitOf limit ∧ c.Reads (limit.elim [] Offset.bytes) c' := by
  unfold decodeCtrLimit
  cases enabled with
  | true =>
      simp only [if_true, Decoder.ite_throw_eq_ok_iff, Decoder.bind_eq_ok_iff,
        Decoder.pure_eq_ok_iff, Cursor.u24Le_eq_ok_iff]
      constructor
      · rintro ⟨hmirror, v, c₁, ⟨hlt, h⟩, rfl, rfl⟩
        exact ⟨some ⟨v, by omega⟩, rfl, fun _ => by simpa using hmirror, rfl, h⟩
      · rintro ⟨limit, hsome, hmirror, rfl, h⟩
        obtain ⟨v, rfl⟩ := Option.isSome_iff_exists.mp hsome
        have hlt : v.val < 256 ^ 3 := by
          have := v.le_max
          omega
        exact ⟨by simpa using hmirror rfl, v.val, c', ⟨hlt, h⟩, rfl, rfl⟩
  | false =>
      rw [if_neg (by decide), Decoder.pure_eq_ok_iff]
      constructor
      · rintro ⟨rfl, rfl⟩
        exact ⟨none, rfl, nofun, rfl, Cursor.reads_nil_iff.mpr rfl⟩
      · rintro ⟨limit, hnone, -, rfl, h⟩
        obtain rfl : limit = none := by simpa using hnone
        exact ⟨rfl, Cursor.reads_nil_iff.mp h⟩

/-- **The decoder accepts the blocks that describe settings**, and returns the settings they
describe. -/
theorem decodeSdm_eq_ok_iff {s : Sdm} :
    decodeSdm c = .ok (s, c') ↔
      ∃ (b : SdmBlock) (key : Option KeyNumber) (ctrRet : CtrRetAccess),
        b.Describes s key ctrRet ∧ c.Reads b.bytes c' := by
  simp only [decodeSdm, Decoder.bind_eq_ok_iff, Decoder.ite_throw_eq_ok_iff, Decoder.lift_eq_ok_iff,
    Cursor.u8_eq_ok_iff, Cursor.array_eq_ok_iff (show 0 < 2 by decide),
    Cursor.readWhen_eq_ok_iff Cursor.offset_eq_ok_iff,
    Cursor.readWhen_eq_ok_iff decodeEncRange_eq_ok_iff, decodeCtrLimit_eq_ok_iff,
    Sdm.tryNewFromWire, Sdm.tryNewInner_eq_ok_iff]
  constructor
  · rintro ⟨options, c₁, h₁, rights, c₂, h₂, hres, hresr, key, _, ⟨hkey, rfl⟩, ctrRet, _,
      ⟨hret, rfl⟩, hno, uid, c₃, ⟨huid, h₃⟩, readCtr, c₄, ⟨hctr, h₄⟩, picc, c₅, ⟨hpicc, h₅⟩,
      tamper, c₆, ⟨htt, h₆⟩, macInput, c₇, ⟨hin, h₇⟩, enc, c₈, ⟨henc, h₈⟩, mac, c₉, ⟨hmac, h₉⟩,
      _, c₁₀, ⟨limit, hlim, hmir, rfl, h₁₀⟩, piccData, _, ⟨hpd, rfl⟩, fileRead, _, ⟨hfr, rfl⟩,
      ⟨rfl, rfl, rfl⟩, rfl⟩
    refine ⟨⟨options, rights, uid, readCtr, picc, s.tamperStatus, macInput, enc, mac, limit⟩, key,
      ctrRet, ⟨by simpa using hres, by simpa using hresr, hkey, hret, ?_, huid, hctr, hpicc,
      htt, hin,
        henc, hmac, hlim, hmir, hpd, hfr, rfl⟩, ?_⟩
    · intro hmirror
      by_contra hne
      exact hno ⟨hmirror, hne⟩
    · simp only [SdmBlock.bytes, Cursor.reads_append_iff]
      exact ⟨c₁, h₁, c₂, h₂, c₃, h₃, c₄, h₄, c₅, h₅, c₆, h₆, c₇, h₇, c₈, h₈, c₉, h₉, h₁₀⟩
  · rintro ⟨b, key, ctrRet, hb, h⟩
    simp only [SdmBlock.bytes, Cursor.reads_append_iff] at h
    obtain ⟨c₁, h₁, c₂, h₂, c₃, h₃, c₄, h₄, c₅, h₅, c₆, h₆, c₇, h₇, c₈, h₈, c₉, h₉, h₁₀⟩ := h
    refine ⟨b.options, c₁, h₁, b.rights, c₂, h₂, by simpa using hb.reserved,
      by simpa using hb.reservedRights, key, c₂, ⟨hb.readKey, rfl⟩, ctrRet, c₂,
      ⟨hb.retAccess, rfl⟩, ?_,
      b.uid, c₃, ⟨hb.uid, h₃⟩, b.readCtr, c₄, ⟨hb.readCtr, h₄⟩, b.picc, c₅, ⟨hb.picc, h₅⟩,
      b.tamper, c₆, ⟨hb.tamper, h₆⟩, b.macInput, c₇, ⟨hb.macInput, h₇⟩, b.enc, c₈, ⟨hb.enc, h₈⟩,
      b.mac, c₉, ⟨hb.mac, h₉⟩, _, c', ⟨b.limit, hb.limit, hb.limitMirror, rfl, h₁₀⟩, s.piccData, c',
      ⟨hb.piccData, rfl⟩, s.fileRead, c', ⟨hb.fileRead, rfl⟩, ⟨rfl, rfl, hb.tamperStatus.symm⟩, rfl⟩
    rintro ⟨hmirror, hne⟩
    exact hne (hb.noCtrRet hmirror)

/-! ### The encoder -/

/-- Writing numbers appends their wire bytes, if they have 24 bits and fit. -/
theorem WCursor.foldlM_u24Le_eq_ok_iff {vs : List ℕ} {w w' : WCursor} :
    vs.foldlM (fun w v => w.u24Le v) w = .ok w' ↔
      (∀ v ∈ vs, v ≤ 0xFFFFFF) ∧ w'.cap = w.cap ∧ w'.out = w.out ++ vs.flatMap (leBytes 3) := by
  induction vs generalizing w with
  | nil =>
      obtain ⟨cap, out, hle⟩ := w
      obtain ⟨cap', out', hle'⟩ := w'
      simp [pure, Except.pure, eq_comm]
  | cons v vs ih =>
      rw [List.foldlM_cons, Except.bind_eq_ok_iff]
      simp only [ih, List.mem_cons, forall_eq_or_imp, List.flatMap_cons, ← List.append_assoc]
      constructor
      · rintro ⟨w₁, h₁, hall, hcap, hout⟩
        unfold u24Le at h₁
        split at h₁
        · cases h₁
        · rename_i hv
          obtain ⟨hcap₁, hout₁⟩ := array_eq_ok_iff.mp h₁
          exact ⟨⟨by omega, hall⟩, hcap.trans hcap₁, by rw [hout, hout₁]⟩
      · rintro ⟨⟨hv, hall⟩, hcap, hout⟩
        have hfits : (w.out ++ leBytes 3 v).length ≤ w.cap := by
          have hle := w'.length_le
          rw [hout, hcap, List.length_append] at hle
          omega
        refine ⟨⟨w.cap, w.out ++ leBytes 3 v, hfits⟩, ?_, hall, hcap, hout⟩
        rw [u24Le, if_neg (by omega)]
        exact array_eq_ok_iff.mpr ⟨rfl, rfl⟩

namespace Sdm

/-- The block of some settings, with a given number for the limit. -/
def block (s : Sdm) (limit : Option Offset) : SdmBlock where
  options := s.optionsByte
  rights := ⟨s.accessBytes, rfl⟩
  uid := match s.piccData with
    | .plain mirror => mirror.uidOffset
    | _ => none
  readCtr := match s.piccData with
    | .plain mirror => mirror.rctrOffset
    | _ => none
  picc := match s.piccData with
    | .encrypted _ offset _ => some offset
    | _ => none
  tamper := s.tamperStatus
  macInput := s.fileRead.map fun fr => fr.window.input
  enc := s.fileRead.bind FileRead.enc
  mac := s.fileRead.map fun fr => fr.window.mac
  limit := limit

/-- What the encoder writes is the block. -/
theorem bytes_block {s : Sdm} {limit : Option Offset}
    (hlimit : limit.map Offset.val = s.piccData.readCtrLimit) :
    (s.block limit).bytes =
    [s.optionsByte] ++ (s.accessBytes ++ s.wireNumbers.flatMap (leBytes 3)) := by
  have hlim : limit.elim [] Offset.bytes = s.piccData.readCtrLimit.toList.flatMap (leBytes 3) := by
    rw [← hlimit]
    cases limit <;> simp [Offset.bytes]
  simp only [SdmBlock.bytes, block, wireNumbers, List.flatMap_append, hlim]
  have htamper : s.tamperStatus.elim [] Offset.bytes =
      (s.tamperStatus.map Offset.val).toList.flatMap (leBytes 3) := by
    cases s.tamperStatus <;> simp [Offset.bytes]
  have hread : (s.fileRead.map fun fr => fr.window.input).elim [] Offset.bytes ++
      ((s.fileRead.bind FileRead.enc).elim [] EncFileData.bytes ++
        (s.fileRead.map fun fr => fr.window.mac).elim [] Offset.bytes) =
      s.fileReadOffsets.flatMap (leBytes 3) := by
    rw [fileReadOffsets]
    rcases s.fileRead with _ | ⟨key, window⟩ | ⟨key, window, enc⟩ <;>
      simp [FileRead.window, FileRead.enc, Offset.bytes, EncFileData.bytes]
  have hpicc : (match s.piccData with
        | .plain mirror => mirror.uidOffset
        | _ => none : Option Offset).elim [] Offset.bytes ++
      ((match s.piccData with
        | .plain mirror => mirror.rctrOffset
        | _ => none : Option Offset).elim [] Offset.bytes ++
        (match s.piccData with
        | .encrypted _ offset _ => some offset
        | _ => none : Option Offset).elim [] Offset.bytes) = s.piccOffsets.flatMap (leBytes 3) := by
    rw [piccOffsets]
    rcases s.piccData with _ | (uid | m | ⟨uid, m⟩) | ⟨key, offset, content⟩ <;>
      simp [PlainMirror.uidOffset, PlainMirror.rctrOffset, Offset.bytes]
  rw [htamper, ← hread, ← hpicc]
  simp only [List.append_assoc]

/-- Every number of the block but the limit is an offset or a length. -/
theorem le_max_or_limit_of_mem {s : Sdm} {v : ℕ} (hv : v ∈ s.wireNumbers) :
    v ≤ 0xFFFFFF ∨ s.piccData.readCtrLimit = some v := by
  simp only [wireNumbers, List.mem_append, Option.mem_toList] at hv
  rcases hv with ((hv | hv) | hv) | hv
  · left
    rw [piccOffsets] at hv
    generalize s.piccData = piccData at hv
    rcases piccData with _ | (uid | m | ⟨uid, m⟩) | ⟨key, offset, content⟩ <;>
      simp only [List.not_mem_nil, List.mem_cons, or_false] at hv
    · exact hv ▸ uid.le_max
    · exact hv ▸ m.offset.le_max
    · rcases hv with rfl | rfl
      · exact uid.le_max
      · exact m.offset.le_max
    · exact hv ▸ offset.le_max
  · left
    obtain ⟨o, -, rfl⟩ := Option.map_eq_some_iff.mp hv
    exact o.le_max
  · left
    rw [fileReadOffsets] at hv
    generalize s.fileRead = fileRead at hv
    rcases fileRead with _ | ⟨key, window⟩ | ⟨key, window, enc⟩ <;>
      simp only [FileRead.window, FileRead.enc, List.not_mem_nil, List.mem_cons, List.cons_append,
        List.nil_append, or_false] at hv
    · rcases hv with rfl | rfl
      · exact window.input.le_max
      · exact window.mac.le_max
    · rcases hv with rfl | rfl | rfl | rfl
      · exact window.input.le_max
      · exact enc.start.le_max
      · exact enc.length.valid.2.2
      · exact window.mac.le_max
  · exact .inr hv

theorem limit_mem_wireNumbers {s : Sdm} {v : ℕ} (h : s.piccData.readCtrLimit = some v) :
    v ∈ s.wireNumbers := by
  simp [wireNumbers, h]

theorem wireNumbers_le_iff {s : Sdm} :
    (∀ v ∈ s.wireNumbers, v ≤ 0xFFFFFF) ↔ ∀ v ∈ s.piccData.readCtrLimit, v ≤ 0xFFFFFF := by
  constructor
  · intro h v hv
    exact h v (limit_mem_wireNumbers hv)
  · intro h v hv
    rcases le_max_or_limit_of_mem hv with hle | hlimit
    · exact hle
    · exact h v hlimit

/-- **The encoder writes the block**, if the limit has 24 bits and the block fits. -/
theorem encode_eq_ok_iff {s : Sdm} {w w' : WCursor} :
    s.encode w = .ok w' ↔ ∃ limit : Option Offset,
      limit.map Offset.val = s.piccData.readCtrLimit ∧ w'.cap = w.cap ∧
        w'.out = w.out ++ (s.block limit).bytes := by
  simp only [encode, WCursor.u8, Except.bind_eq_ok_iff, WCursor.foldlM_u24Le_eq_ok_iff,
    wireNumbers_le_iff, WCursor.array_eq_ok_iff]
  constructor
  · rintro ⟨w₁, ⟨hcap₁, hout₁⟩, w₂, ⟨hcap₂, hout₂⟩, hle, hcap, hout⟩
    have hlimit : ∃ limit : Option Offset, limit.map Offset.val = s.piccData.readCtrLimit := by
      cases hl : s.piccData.readCtrLimit with
      | none => exact ⟨none, rfl⟩
      | some v => exact ⟨some ⟨v, hle v hl⟩, rfl⟩
    obtain ⟨limit, hlimit⟩ := hlimit
    refine ⟨limit, hlimit, hcap.trans (hcap₂.trans hcap₁), ?_⟩
    rw [hout, hout₂, hout₁, bytes_block hlimit]
    simp only [List.append_assoc]
  · rintro ⟨limit, hlimit, hcap, hout⟩
    rw [bytes_block hlimit] at hout
    have hfits := w'.length_le
    rw [hout, hcap] at hfits
    simp only [List.length_append] at hfits
    refine ⟨⟨w.cap, w.out ++ [s.optionsByte], by rw [List.length_append]; omega⟩, ⟨rfl, rfl⟩,
      ⟨w.cap, w.out ++ [s.optionsByte] ++ s.accessBytes, by simp only [List.length_append]; omega⟩,
      ⟨rfl, rfl⟩, ?_, hcap, ?_⟩
    · intro v hv
      rw [← hlimit] at hv
      obtain ⟨o, -, rfl⟩ := Option.map_eq_some_iff.mp hv
      exact o.le_max
    · rw [hout]
      simp only [List.append_assoc]

end Sdm

end Ntag424
