import Mathlib.Tactic.Common
import Ntag424.Crypto
import Ntag424.FileSettings.Sdm

/-!
# Secure Messaging Suites

The two cipher suites of an authenticated session (`crypto/suite.rs`). AES secure messaging
rebuilds its CBC initial vector from direction, transaction identifier and command counter on
every message. LRP secure messaging keeps a 32-bit block counter `EncCtr` and ignores the
three.

A suite is a pair of session keys together with that counter. `KeyedSuite` says so for both:
`KeyedSuite.ofKeys k n` is the suite with the keys `k` after `n` blocks, and encrypting or
decrypting a buffer moves `n` by its number of blocks.

## Main results

* `KeyedSuite.decrypt_encrypt`, shown for both suites: decryption from the same keys and block
  count returns the buffer, and both operations count its blocks.
* `AesSuite.iv_injective`: an IV tells the direction and the counter of its message.
* `KeyedSuite.mac_ofKeys`: the session MAC depends on the keys only.
* `WholeBlocks`: the suites refuse exactly what is not a positive number of blocks.
-/

namespace Ntag424

open BlockMode Numerals

/-- Direction of an encrypted message. -/
inductive Direction where
  | command
  | response
deriving DecidableEq, Repr

/-- The label that separates command IVs from response IVs. -/
def Direction.label : Direction → List UInt8
  | command => [0xA5, 0x5A]
  | response => [0x5A, 0xA5]

/-- `trait SessionSuite`: the operations of a suite. Encryption and decryption return the
buffer and the suite after the call, or refuse the buffer and change nothing. -/
class SessionSuite (P : Primitives) (S : Type) where
  mode : CryptoMode
  derive : Key → Bytes 16 → Bytes 16 → S
  mac : S → List UInt8 → Bytes 8
  encrypt : S → Direction → Bytes 4 → UInt16 → List UInt8 → Option (List UInt8 × S)
  decrypt : S → Direction → Bytes 4 → UInt16 → List UInt8 → Option (List UInt8 × S)

/-- The bytes both session vectors share: the two randoms, overlapped by exclusive or. -/
def sessionContext (rndA rndB : Bytes 16) : List UInt8 :=
  slice rndA.toList 0 2 ++
    List.zipWith (· ^^^ ·) (slice rndA.toList 2 6) (slice rndB.toList 0 6) ++
    slice rndB.toList 6 10 ++ slice rndA.toList 8 8

/-! ### AES -/

/-- AES session keys. -/
structure AesSuite where
  macKey : Key
  encKey : Key
deriving DecidableEq

/-- `session_vector_aes`. -/
def sessionVectorAes (label : List UInt8) (rndA rndB : Bytes 16) : List UInt8 :=
  label ++ [0x00, 0x01, 0x00, 0x80] ++ sessionContext rndA rndB

namespace AesSuite

variable (P : Primitives)

/-- `AesSuite::iv`. -/
def iv (s : AesSuite) (dir : Direction) (ti : Bytes 4) (cmdCtr : UInt16) : Block :=
  P.aesEncrypt s.encKey
    (Bytes.fill 16 (dir.label ++ ti.toList ++ leBytes 2 cmdCtr.toNat))

/-- **An IV tells the direction and the counter**: their bytes are encrypted as one block. -/
theorem iv_injective {P : Primitives} (hP : P.Lawful) {s : AesSuite} {dir dir' : Direction}
    {ti : Bytes 4} {ctr ctr' : UInt16} (h : s.iv P dir ti ctr = s.iv P dir' ti ctr') :
    dir = dir' ∧ ctr = ctr' := by
  have hblock := congrArg (P.aesDecrypt s.encKey) h
  rw [iv, iv, hP.decrypt_encrypt, hP.decrypt_encrypt] at hblock
  have hlen : ∀ (dir : Direction) (ctr : UInt16),
      (dir.label ++ ti.toList ++ leBytes 2 ctr.toNat).length = 8 := by
    intro dir ctr
    cases dir <;> simp [Direction.label]
  have hbytes := congrArg Bytes.toList hblock
  rw [Bytes.toList_fill_of_le (by rw [hlen]; decide),
    Bytes.toList_fill_of_le (by rw [hlen]; decide), hlen, hlen,
    List.append_cancel_right_eq] at hbytes
  have hlabels : dir.label.length = dir'.label.length := by cases dir <;> cases dir' <;> rfl
  rw [List.append_assoc, List.append_assoc] at hbytes
  obtain ⟨hlabel, hrest⟩ := List.append_inj hbytes hlabels
  have hctr : ctr.toNat % 2 ^ 16 = ctr'.toNat % 2 ^ 16 :=
    leBytes_eq_iff.mp (List.append_cancel_left hrest)
  rw [Nat.mod_eq_of_lt ctr.toNat_lt, Nat.mod_eq_of_lt ctr'.toNat_lt] at hctr
  refine ⟨?_, UInt16.toNat_inj.mp hctr⟩
  cases dir <;> cases dir' <;> first | rfl | cases hlabel

/-- `AesSuite::derive`. -/
def derive (kx : Key) (rndA rndB : Bytes 16) : AesSuite where
  encKey := cmacAes P kx (sessionVectorAes [0xA5, 0x5A] rndA rndB)
  macKey := cmacAes P kx (sessionVectorAes [0x5A, 0xA5] rndA rndB)

instance : SessionSuite P AesSuite where
  mode := .aes
  derive := derive P
  mac s data := truncateMac (cmacAes P s.macKey data)
  encrypt s dir ti cmdCtr buf :=
    (aesCbcEncrypt P s.encKey (s.iv P dir ti cmdCtr) buf).map fun out => (out, s)
  decrypt s dir ti cmdCtr buf :=
    (aesCbcDecrypt P s.encKey (s.iv P dir ti cmdCtr) buf).map fun out => (out, s)

end AesSuite

/-! ### LRP -/

/-- LRP session keys. -/
structure LrpKeys where
  macKey : Lrp
  encKey : Lrp

/-- LRP session keys with the block counter. -/
structure LrpSuite extends LrpKeys where
  encCtr : UInt32

/-- `session_vector_lrp`. -/
def sessionVectorLrp (rndA rndB : Bytes 16) : List UInt8 :=
  [0x00, 0x01, 0x00, 0x80] ++ sessionContext rndA rndB ++ [0x96, 0x69]

namespace LrpSuite

variable (P : Primitives)

/-- The session keys of `LrpSuite::derive`. -/
def deriveKeys (kx : Key) (rndA rndB : Bytes 16) : LrpKeys :=
  let master := cmacLrp P (Lrp.fromBaseKey P kx) (sessionVectorLrp rndA rndB)
  let plaintexts := generatePlaintexts P master
  { macKey := Lrp.fromParts plaintexts (generateUpdatedKeys P master 0)
    encKey := Lrp.fromParts plaintexts (generateUpdatedKeys P master 1) }

/-- `LrpSuite::derive`. -/
def derive (kx : Key) (rndA rndB : Bytes 16) : LrpSuite := ⟨deriveKeys P kx rndA rndB, 0⟩

/-- `LrpSuite::mac_full`: the full-length MAC of the handshake. -/
def macFull (s : LrpSuite) (data : List UInt8) : Bytes 16 := cmacLrp P s.macKey data

/-- Run LRICB under the big-endian bytes of `EncCtr` and read the counter back. -/
def withCounter (s : LrpSuite)
    (lricb : List UInt8 → List UInt8 → Option (List UInt8 × List UInt8)) (buf : List UInt8) :
    Option (List UInt8 × LrpSuite) :=
  (lricb (beBytes 4 s.encCtr.toNat) buf).map fun (ctr, out) =>
    (out, { s with encCtr := UInt32.ofNat (ofBe ctr) })

instance : SessionSuite P LrpSuite where
  mode := .lrp
  derive := derive P
  mac s data := truncateMac (cmacLrp P s.macKey data)
  encrypt s _ _ _ buf := s.withCounter (s.encKey.lricbEncryptInPlace P) buf
  decrypt s _ _ _ buf := s.withCounter (s.encKey.lricbDecryptInPlace P) buf

end LrpSuite

/-! ### Keys and block counts -/

/-- A suite seen as session keys and a number of processed blocks. -/
class KeyedSuite (P : Primitives) (S : Type) extends SessionSuite P S where
  /-- The session keys. -/
  Keys : Type
  /-- The suite with these keys after this many blocks. -/
  ofKeys : Keys → ℕ → S
  /-- The session keys of a handshake. -/
  deriveKeys : Key → Bytes 16 → Bytes 16 → Keys
  derive_eq : ∀ kx rndA rndB, derive kx rndA rndB = ofKeys (deriveKeys kx rndA rndB) 0
  /-- The MAC depends on the keys only. -/
  mac_ofKeys : ∀ k n data, mac (ofKeys k n) data = mac (ofKeys k 0) data
  /-- Encryption accepts every buffer of whole blocks and counts its blocks, and decryption
  from the same count returns the buffer. -/
  decrypt_encrypt : P.Lawful → ∀ k n dir ti cmdCtr (buf : List UInt8), buf ≠ [] →
    buf.length % 16 = 0 →
    ∃ ct, encrypt (ofKeys k n) dir ti cmdCtr buf = some (ct, ofKeys k (n + buf.length / 16)) ∧
      ct.length = buf.length ∧
      decrypt (ofKeys k n) dir ti cmdCtr ct = some (buf, ofKeys k (n + buf.length / 16))

instance (P : Primitives) : KeyedSuite P AesSuite where
  Keys := AesSuite
  ofKeys k _ := k
  deriveKeys := AesSuite.derive P
  derive_eq _ _ _ := rfl
  mac_ofKeys _ _ _ := rfl
  decrypt_encrypt hP k _ dir ti cmdCtr buf hne h := by
    obtain ⟨ct, hct, hdec⟩ := Option.bind_eq_some_iff.mp
      (aesCbcDecrypt_aesCbcEncrypt hP k.encKey (k.iv P dir ti cmdCtr) hne h)
    refine ⟨ct, ?_, length_aesCbcEncrypt hct, ?_⟩
    · simp only [SessionSuite.encrypt, hct, Option.map_some]
    · simp only [SessionSuite.decrypt, hdec, Option.map_some]

/-- The block counter of a suite, read back from its bytes. -/
theorem LrpSuite.ofNat_ofBe_beBytes (n b : ℕ) :
    UInt32.ofNat (ofBe (beBytes 4 (ofBe (beBytes 4 (UInt32.ofNat n).toNat) + b))) =
      UInt32.ofNat (n + b) := by
  apply UInt32.toNat_inj.mp
  simp only [ofBe_beBytes, UInt32.toNat_ofNat']
  omega

instance (P : Primitives) : KeyedSuite P LrpSuite where
  Keys := LrpKeys
  ofKeys k n := ⟨k, UInt32.ofNat n⟩
  deriveKeys := LrpSuite.deriveKeys P
  derive_eq _ _ _ := rfl
  mac_ofKeys _ _ _ := rfl
  decrypt_encrypt hP k n dir ti cmdCtr buf hne h := by
    obtain ⟨ct, henc, hlen, hdec⟩ := Lrp.lricbDecrypt_lricbEncrypt hP k.encKey
      hne h (show beBytes 4 (UInt32.ofNat n).toNat ≠ [] by
        rw [ne_eq, ← List.length_eq_zero_iff, length_beBytes]; decide)
      (by rw [length_beBytes]; decide)
    rw [length_beBytes] at henc hdec
    refine ⟨ct, ?_, hlen, ?_⟩
    · simp only [SessionSuite.encrypt, LrpSuite.withCounter, henc, Option.map_some,
        LrpSuite.ofNat_ofBe_beBytes]
    · simp only [SessionSuite.decrypt, LrpSuite.withCounter, hdec, Option.map_some,
        LrpSuite.ofNat_ofBe_beBytes]

/-- A suite whose encryption can be undone in every state. -/
class InvertibleSuite (P : Primitives) (S : Type) [SessionSuite P S] : Prop where
  exists_encrypt (hP : P.Lawful) (s : S) (dir : Direction) (ti : Bytes 4) (ctr : UInt16)
    {buf : List UInt8} : buf ≠ [] → buf.length % 16 = 0 →
    ∃ ct s', SessionSuite.encrypt P s dir ti ctr buf = some (ct, s') ∧ ct.length = buf.length ∧
      SessionSuite.decrypt P s dir ti ctr ct = some (buf, s')

/-- The state of an AES suite is its keys. -/
instance (P : Primitives) : InvertibleSuite P AesSuite where
  exists_encrypt hP s dir ti ctr buf hne hblocks := by
    obtain ⟨ct, henc, hlen, hdec⟩ :=
      KeyedSuite.decrypt_encrypt (S := AesSuite) hP s 0 dir ti ctr buf hne hblocks
    exact ⟨ct, _, henc, hlen, hdec⟩

/-- The state of an LRP suite is its keys after the blocks its counter has counted. -/
instance (P : Primitives) : InvertibleSuite P LrpSuite where
  exists_encrypt hP s dir ti ctr buf hne hblocks := by
    obtain ⟨ct, henc, hlen, hdec⟩ :=
      KeyedSuite.decrypt_encrypt (S := LrpSuite) hP s.toLrpKeys s.encCtr.toNat dir ti ctr buf hne
        hblocks
    have hstate : KeyedSuite.ofKeys (P := P) s.toLrpKeys s.encCtr.toNat = s := by
      change LrpSuite.mk s.toLrpKeys (UInt32.ofNat s.encCtr.toNat) = s
      rw [UInt32.ofNat_toNat]
    rw [hstate] at henc hdec
    exact ⟨ct, _, henc, hlen, hdec⟩

/-! ### Refused buffers -/

/-- A suite that refuses exactly the buffers that are not a positive number of blocks. -/
class WholeBlocks (P : Primitives) (S : Type) [SessionSuite P S] : Prop where
  encrypt_eq_none_iff {s : S} {dir : Direction} {ti : Bytes 4} {ctr : UInt16} {buf : List UInt8} :
    SessionSuite.encrypt P s dir ti ctr buf = none ↔ buf = [] ∨ buf.length % 16 ≠ 0
  decrypt_eq_none_iff {s : S} {dir : Direction} {ti : Bytes 4} {ctr : UInt16} {buf : List UInt8} :
    SessionSuite.decrypt P s dir ti ctr buf = none ↔ buf = [] ∨ buf.length % 16 ≠ 0

instance (P : Primitives) : WholeBlocks P AesSuite where
  encrypt_eq_none_iff := Option.map_eq_none_iff.trans onBlocks_eq_none_iff
  decrypt_eq_none_iff := Option.map_eq_none_iff.trans onBlocks_eq_none_iff

/-- The four bytes of `EncCtr` are a counter that LRICB accepts. -/
theorem LrpSuite.withCounter_eq_none_iff {f : List Nibble → Block → Block} {s : LrpSuite}
    {buf : List UInt8} :
    s.withCounter (Lrp.lricb f) buf = none ↔ buf = [] ∨ buf.length % 16 ≠ 0 := by
  have hlen := length_beBytes 4 s.encCtr.toNat
  have hcounter : ¬ (beBytes 4 s.encCtr.toNat = [] ∨
      lricbCounterMaxBytes < (beBytes 4 s.encCtr.toNat).length) := by
    rintro (hnil | hlong)
    · rw [hnil] at hlen
      cases hlen
    · rw [hlen] at hlong
      exact absurd hlong (by decide)
  rw [withCounter, Option.map_eq_none_iff, Lrp.lricb, if_neg hcounter]
  split
  · rename_i h
    exact iff_of_true rfl h
  · rename_i h
    exact iff_of_false (by rintro ⟨⟩) h

instance (P : Primitives) : WholeBlocks P LrpSuite where
  encrypt_eq_none_iff := LrpSuite.withCounter_eq_none_iff
  decrypt_eq_none_iff := LrpSuite.withCounter_eq_none_iff

end Ntag424
