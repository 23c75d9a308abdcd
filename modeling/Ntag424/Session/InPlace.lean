import Mathlib.Tactic.Common
import Ntag424.Lib.InPlace
import Ntag424.Session.Suite
import Ntag424.Standard

/-!
# Encryption in Place

The suites of the source rewrite the caller's buffer and their own counter, also when they
refuse: `crypto/suite.rs` and `crypto/lrp.rs` loop over the chunks of the buffer with the
previous ciphertext block in a local array, or with the nibbles of the counter. The definitions
here are these loops, with the buffer and the suite after the call, whatever they return.

## Main results

* `AesSuite.encryptInPlace_eq`, `LrpSuite.encryptInPlace_eq` and the same for decryption: the
  loops compute what `SessionSuite.encrypt` and `SessionSuite.decrypt` say, and leave everything
  alone when they refuse.
* `suites_invertible`: decryption in place undoes encryption in place, and both leave the suite
  in the same state.
-/

namespace Ntag424

open BlockMode Numerals

/-! ### The block modes -/

section Modes

variable (P : Primitives)

/-- `aes_cbc_encrypt`: what it returns, and the buffer after the call. The ciphertext block in
`prev` is mixed into the next chunk. -/
def aesCbcEncryptInPlace (key : Key) (iv : Block) (buf : List UInt8) : Option Unit × List UInt8 :=
  if buf = [] ∨ buf.length % 16 ≠ 0 then (none, buf)
  else
    let loop := chunksMut (fun prev chunk =>
      let out := P.aesEncrypt key (chunk.xor prev)
      (out, out)) iv buf
    (some (), loop.2)

/-- `aes_cbc_decrypt`: the chunk is saved before it is overwritten. -/
def aesCbcDecryptInPlace (key : Key) (iv : Block) (buf : List UInt8) : Option Unit × List UInt8 :=
  if buf = [] ∨ buf.length % 16 ≠ 0 then (none, buf)
  else
    let loop := chunksMut (fun prev chunk =>
      let save := chunk
      (save, (P.aesDecrypt key chunk).xor prev)) iv buf
    (some (), loop.2)

/-- `load_counter`: refuses an empty counter and one that is too long. -/
def loadCounter (counter : List UInt8) : Option (List Nibble) :=
  if counter = [] ∨ lricbCounterMaxBytes < counter.length then none else some (nibbles counter)

/-- `lricb_encrypt_in_place` and `lricb_decrypt_in_place`, with the block function `f` under the
nibbles of the counter: what they return, the counter and the buffer after the call. -/
def lricbInPlace (f : List Nibble → Block → Block) (counter buf : List UInt8) :
    Option Unit × List UInt8 × List UInt8 :=
  if buf = [] ∨ buf.length % 16 ≠ 0 then (none, counter, buf)
  else
    match loadCounter counter with
    | none => (none, counter, buf)
    | some nibs =>
        let loop := chunksMut (fun nibs chunk => (incNibbles nibs, f nibs chunk)) nibs buf
        (some (), ofNibbles loop.1, loop.2)

variable {P}

/-- AES-CBC encryption in place succeeds and leaves the ciphertext, or changes nothing. -/
theorem aesCbcEncryptInPlace_eq (key : Key) (iv : Block) (buf : List UInt8) :
    aesCbcEncryptInPlace P key iv buf =
      ((aesCbcEncrypt P key iv buf).map fun _ => (), (aesCbcEncrypt P key iv buf).getD buf) := by
  rw [aesCbcEncryptInPlace, aesCbcEncrypt, onBlocks]
  split
  · rfl
  · rename_i h
    rw [chunksMut_eq _ _ (by omega), traverse_cbcEncrypt]
    rfl

/-- AES-CBC decryption in place succeeds and leaves the plaintext, or changes nothing. -/
theorem aesCbcDecryptInPlace_eq (key : Key) (iv : Block) (buf : List UInt8) :
    aesCbcDecryptInPlace P key iv buf =
      ((aesCbcDecrypt P key iv buf).map fun _ => (), (aesCbcDecrypt P key iv buf).getD buf) := by
  rw [aesCbcDecryptInPlace, aesCbcDecrypt, onBlocks]
  split
  · rfl
  · rename_i h
    rw [chunksMut_eq _ _ (by omega), traverse_cbcDecrypt]
    rfl

/-- LRICB in place leaves counter and buffer of the run, or changes neither. -/
theorem lricbInPlace_eq (f : List Nibble → Block → Block) (counter buf : List UInt8) :
    lricbInPlace f counter buf =
      match Lrp.lricb f counter buf with
      | none => (none, counter, buf)
      | some (counter, out) => (some (), counter, out) := by
  rw [lricbInPlace, Lrp.lricb, loadCounter]
  split
  · rfl
  · rename_i h
    split
    · rename_i hload
      split at hload
      · rename_i hc
        rw [if_pos hc]
      · cases hload
    · rename_i nibs hload
      split at hload
      · cases hload
      · rename_i hc
        obtain rfl := Option.some.inj hload
        rw [if_neg hc, chunksMut_eq _ _ (by omega), traverse_ctr]

end Modes

/-! ### The suites -/

/-- A suite operation in place, from the one that returns the buffer and the suite: a refusal
leaves both alone. -/
def settled {S : Type} (result : Option (List UInt8 × S)) (buf : List UInt8) (s : S) :
    Option Unit × List UInt8 × S :=
  match result with
  | some (out, s') => (some (), out, s')
  | none => (none, buf, s)

namespace AesSuite

variable (P : Primitives) (s : AesSuite) (dir : Direction) (ti : Bytes 4) (cmdCtr : UInt16)
  (buf : List UInt8)

/-- `AesSuite::encrypt`. -/
def encryptInPlace : Option Unit × List UInt8 × AesSuite :=
  let r := aesCbcEncryptInPlace P s.encKey (s.iv P dir ti cmdCtr) buf
  (r.1, r.2, s)

/-- `AesSuite::decrypt`. -/
def decryptInPlace : Option Unit × List UInt8 × AesSuite :=
  let r := aesCbcDecryptInPlace P s.encKey (s.iv P dir ti cmdCtr) buf
  (r.1, r.2, s)

/-- Encrypting in place is encrypting: a refused buffer and its suite stay as they were. -/
theorem encryptInPlace_eq : s.encryptInPlace P dir ti cmdCtr buf =
    settled (SessionSuite.encrypt P s dir ti cmdCtr buf) buf s := by
  rw [encryptInPlace, aesCbcEncryptInPlace_eq]
  simp only [SessionSuite.encrypt]
  cases aesCbcEncrypt P s.encKey (s.iv P dir ti cmdCtr) buf with
  | none => rfl
  | some out => rfl

/-- Decrypting in place is decrypting: a refused buffer and its suite stay as they were. -/
theorem decryptInPlace_eq : s.decryptInPlace P dir ti cmdCtr buf =
    settled (SessionSuite.decrypt P s dir ti cmdCtr buf) buf s := by
  rw [decryptInPlace, aesCbcDecryptInPlace_eq]
  simp only [SessionSuite.decrypt]
  cases aesCbcDecrypt P s.encKey (s.iv P dir ti cmdCtr) buf with
  | none => rfl
  | some out => rfl

end AesSuite

namespace LrpSuite

variable (P : Primitives) (s : LrpSuite) (dir : Direction) (ti : Bytes 4) (cmdCtr : UInt16)
  (buf : List UInt8)

/-- Run LRICB in place under the big-endian bytes of `EncCtr`. The counter is read back only
when it succeeds. -/
def runInPlace (f : List Nibble → Block → Block) : Option Unit × List UInt8 × LrpSuite :=
  let r := lricbInPlace f (beBytes 4 s.encCtr.toNat) buf
  match r.1 with
  | none => (none, r.2.2, s)
  | some () => (some (), r.2.2, { s with encCtr := UInt32.ofNat (ofBe r.2.1) })

/-- `LrpSuite::encrypt`: direction, transaction and command counter are ignored. -/
def encryptInPlace (_dir : Direction) (_ti : Bytes 4) (_cmdCtr : UInt16) (buf : List UInt8) :
    Option Unit × List UInt8 × LrpSuite :=
  s.runInPlace buf fun nibs b =>
    P.aesEncrypt (evalLrp P s.encKey.plaintexts s.encKey.kPrime nibs true) b

/-- `LrpSuite::decrypt`. -/
def decryptInPlace (_dir : Direction) (_ti : Bytes 4) (_cmdCtr : UInt16) (buf : List UInt8) :
    Option Unit × List UInt8 × LrpSuite :=
  s.runInPlace buf fun nibs b =>
    P.aesDecrypt (evalLrp P s.encKey.plaintexts s.encKey.kPrime nibs true) b

/-- A run of LRICB in place is a run under the counter of the suite. -/
theorem runInPlace_eq (f : List Nibble → Block → Block) :
    s.runInPlace buf f = settled (s.withCounter (Lrp.lricb f) buf) buf s := by
  rw [runInPlace, lricbInPlace_eq, withCounter]
  cases Lrp.lricb f (beBytes 4 s.encCtr.toNat) buf with
  | none => rfl
  | some r => rfl

/-- Encrypting in place is encrypting: a refused buffer and its suite stay as they were. -/
theorem encryptInPlace_eq : s.encryptInPlace P dir ti cmdCtr buf =
    settled (SessionSuite.encrypt P s dir ti cmdCtr buf) buf s :=
  s.runInPlace_eq buf _

/-- Decrypting in place is decrypting: a refused buffer and its suite stay as they were. -/
theorem decryptInPlace_eq : s.decryptInPlace P dir ti cmdCtr buf =
    settled (SessionSuite.decrypt P s dir ti cmdCtr buf) buf s :=
  s.runInPlace_eq buf _

end LrpSuite

/-! ### Invertible encryption -/

/-- The operations of a suite invert each other on a buffer of whole blocks, and both leave the
suite in the state `after`. They refuse any other buffer and leave it and the suite alone. -/
structure InvertibleOn {S : Type} (encrypt decrypt : S → List UInt8 → Option Unit × List UInt8 × S)
    (s after : S) (buf : List UInt8) : Prop where
  inverts : buf ≠ [] → buf.length % 16 = 0 →
    ∃ ct, encrypt s buf = (some (), ct, after) ∧ decrypt s ct = (some (), buf, after)
  refuses : buf = [] ∨ buf.length % 16 ≠ 0 →
    encrypt s buf = (none, buf, s) ∧ decrypt s buf = (none, buf, s)

/-- A suite seen as keys and a block count is invertible, and counts the blocks. -/
theorem InvertibleOn.of_keyed {P : Primitives} {S : Type} [KeyedSuite P S] [WholeBlocks P S]
    (hP : P.Lawful) {encrypt decrypt : S → List UInt8 → Option Unit × List UInt8 × S}
    {dir : Direction} {ti : Bytes 4} {cmdCtr : UInt16} (k : KeyedSuite.Keys P S) (n : ℕ)
    (buf : List UInt8)
    (hencrypt : ∀ s buf, encrypt s buf = settled (SessionSuite.encrypt P s dir ti cmdCtr buf) buf s)
    (hdecrypt : ∀ s buf, decrypt s buf =
      settled (SessionSuite.decrypt P s dir ti cmdCtr buf) buf s) :
    InvertibleOn encrypt decrypt (KeyedSuite.ofKeys (P := P) k n)
      (KeyedSuite.ofKeys (P := P) k (n + buf.length / 16)) buf := by
  refine ⟨fun hne hblocks => ?_, fun h => ?_⟩
  · obtain ⟨ct, henc, -, hdec⟩ := KeyedSuite.decrypt_encrypt hP k n dir ti cmdCtr buf hne hblocks
    refine ⟨ct, ?_, ?_⟩
    · rw [hencrypt, henc]
      rfl
    · rw [hdecrypt, hdec]
      rfl
  · rw [hencrypt, hdecrypt, WholeBlocks.encrypt_eq_none_iff.mpr h,
      WholeBlocks.decrypt_eq_none_iff.mpr h]
    exact ⟨rfl, rfl⟩

/-- **Session encryption is invertible and state-exact** in both suites: the AES suite does not
change, and the counter of the LRP suite advances by the number of blocks, modulo `2 ^ 32`. -/
theorem suites_invertible {P : Primitives} (hP : P.Lawful) (dir : Direction) (ti : Bytes 4)
    (cmdCtr : UInt16) (buf : List UInt8) :
    (∀ s : AesSuite, InvertibleOn (fun s => s.encryptInPlace P dir ti cmdCtr)
      (fun s => s.decryptInPlace P dir ti cmdCtr) s s buf) ∧
    ∀ s : LrpSuite, InvertibleOn (fun s => s.encryptInPlace P dir ti cmdCtr)
      (fun s => s.decryptInPlace P dir ti cmdCtr) s
      { s with encCtr := s.encCtr + UInt32.ofNat (buf.length / 16) } buf := by
  constructor
  · intro s
    exact InvertibleOn.of_keyed (S := AesSuite) hP s 0 buf
      (fun s buf => s.encryptInPlace_eq P dir ti cmdCtr buf)
      (fun s buf => s.decryptInPlace_eq P dir ti cmdCtr buf)
  · intro s
    have hkeys := InvertibleOn.of_keyed (S := LrpSuite) hP s.toLrpKeys s.encCtr.toNat buf
      (fun s buf => s.encryptInPlace_eq P dir ti cmdCtr buf)
      (fun s buf => s.decryptInPlace_eq P dir ti cmdCtr buf)
    have hstart : KeyedSuite.ofKeys (P := P) (S := LrpSuite) s.toLrpKeys s.encCtr.toNat = s := by
      simp only [KeyedSuite.ofKeys, UInt32.ofNat_toNat]
    have hafter : KeyedSuite.ofKeys (P := P) (S := LrpSuite) s.toLrpKeys
        (s.encCtr.toNat + buf.length / 16) =
        { s with encCtr := s.encCtr + UInt32.ofNat (buf.length / 16) } := by
      simp only [KeyedSuite.ofKeys, UInt32.ofNat_add, UInt32.ofNat_toNat]
    rw [hstart, hafter] at hkeys
    exact hkeys

/-- Three different blocks, with AES keys of zeros and with the LRP keys of zero randoms. -/
theorem suites_invertible_three_blocks :
    let buf : List UInt8 := List.replicate 16 0 ++ List.replicate 16 1 ++ List.replicate 16 2
    let aes : AesSuite := ⟨Bytes.zeros 16, Bytes.zeros 16⟩
    let lrp := LrpSuite.derive .standard (Bytes.zeros 16) (Bytes.zeros 16) (Bytes.zeros 16)
    (∃ ct, aes.encryptInPlace .standard .command (Bytes.zeros 4) 7 buf = (some (), ct, aes) ∧
      aes.decryptInPlace .standard .command (Bytes.zeros 4) 7 ct = (some (), buf, aes)) ∧
    ∃ ct, lrp.encryptInPlace .standard .command (Bytes.zeros 4) 7 buf =
        (some (), ct, { lrp with encCtr := 3 }) ∧
      lrp.decryptInPlace .standard .command (Bytes.zeros 4) 7 ct =
        (some (), buf, { lrp with encCtr := 3 }) := by
  intro buf aes lrp
  have hlen : buf.length = 48 := rfl
  have hne : buf ≠ [] := List.cons_ne_nil _ _
  obtain ⟨haes, hlrp⟩ :=
    suites_invertible Primitives.standard_lawful .command (Bytes.zeros 4) 7 buf
  have hctr : lrp.encCtr + UInt32.ofNat (buf.length / 16) = 3 := by
    rw [hlen]
    rfl
  have hblocks := (hlrp lrp).inverts hne (by rw [hlen])
  rw [hctr] at hblocks
  exact ⟨(haes aes).inverts hne (by rw [hlen]), hblocks⟩

end Ntag424
