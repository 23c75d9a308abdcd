import Mathlib.Tactic.Common
import Ntag424.Lib.BlockMode
import Ntag424.Lib.Numerals

/-!
# Cryptographic Primitives and LRP

The AES block cipher and CMAC come from third-party crates and are parameters here. What
the crate builds from them is modelled: AES-CBC on whole blocks, the leakage resilient
primitive LRP with its nibble counter (`crypto/lrp.rs`), CMAC over either of them, and the
truncation of a MAC to its odd bytes.

## Main results

* `aesCbcDecrypt_aesCbcEncrypt`, `lricbDecrypt_lricbEncrypt`: under an AES whose decryption
  inverts its encryption, both encryption modes are inverted from the same starting state.
* `ofNibbles_iterate_incNibbles`: the LRICB counter advances by one big-endian step for each
  block, modulo its width.
-/

namespace Ntag424

open BlockMode Numerals

/-- A 16-byte cipher block. -/
abbrev Block := Bytes 16

/-- A 16-byte key. -/
abbrev Key := Bytes 16

/-- What the library is built with: the third-party primitives, which are the AES-128 block
function in both directions and CMAC over a block function, and whether the build has debug
assertions. -/
structure Primitives where
  aesEncrypt : Key → Block → Block
  aesDecrypt : Key → Block → Block
  cmac : (Block → Block) → List UInt8 → Block
  /-- `debug_assert!` is checked, as in a build for development or tests. -/
  debugAssertions : Bool

/-- AES decryption inverts AES encryption. -/
structure Primitives.Lawful (P : Primitives) : Prop where
  decrypt_encrypt : ∀ k b, P.aesDecrypt k (P.aesEncrypt k b) = b

variable (P : Primitives)

/-! ### AES-CBC and CMAC -/

/-- `aes_cbc_encrypt`: refuses the empty and the unaligned buffer. -/
def aesCbcEncrypt (key : Key) (iv : Block) (buf : List UInt8) : Option (List UInt8) :=
  onBlocks (cbcEncrypt Bytes.xor (P.aesEncrypt key) iv) buf

/-- `aes_cbc_decrypt`. -/
def aesCbcDecrypt (key : Key) (iv : Block) (buf : List UInt8) : Option (List UInt8) :=
  onBlocks (cbcDecrypt Bytes.xor (P.aesDecrypt key) iv) buf

/-- `aes_cbc_encrypt_n`: the length is asserted at compile time, so the checked variant
never refuses the buffer. -/
def aesCbcEncryptN {n : ℕ} (key : Key) (iv : Block) (buf : Bytes n) : Bytes n :=
  Bytes.fill n ((aesCbcEncrypt P key iv buf.toList).getD buf.toList)

/-- `aes_cbc_decrypt_n`. -/
def aesCbcDecryptN {n : ℕ} (key : Key) (iv : Block) (buf : Bytes n) : Bytes n :=
  Bytes.fill n ((aesCbcDecrypt P key iv buf.toList).getD buf.toList)

/-- `cmac_aes`. -/
def cmacAes (key : Key) (data : List UInt8) : Block := P.cmac (P.aesEncrypt key) data

/-- `truncate_mac`: the odd bytes of the full MAC. -/
def truncateMac (full : Block) : Bytes 8 :=
  ⟨(List.range 8).map fun i => full.byte (2 * i + 1), by simp⟩

variable {P}

/-- **AES-CBC decryption inverts encryption** on every buffer it accepts. -/
theorem aesCbcDecrypt_aesCbcEncrypt (hP : P.Lawful) (key : Key) (iv : Block) {buf : List UInt8}
    (h₀ : buf ≠ []) (h : buf.length % 16 = 0) :
    (aesCbcEncrypt P key iv buf).bind (aesCbcDecrypt P key iv) = some buf :=
  onBlocks_onBlocks
    (cbcDecrypt_cbcEncrypt Bytes.xor_xor_cancel (hP.decrypt_encrypt key) iv)
    (length_cbcEncrypt _ _ iv) h₀ h

/-- AES-CBC keeps the length of a buffer. -/
theorem length_aesCbcEncrypt {key : Key} {iv : Block} {buf out : List UInt8}
    (h : aesCbcEncrypt P key iv buf = some out) : out.length = buf.length := by
  unfold aesCbcEncrypt onBlocks at h
  split at h
  · cases h
  · rename_i hb
    obtain rfl := Option.some.inj h
    simp only [length_ofBlocks, length_cbcEncrypt, length_toBlocks]
    omega

/-- The fixed-length variants invert each other as well. -/
theorem aesCbcDecryptN_aesCbcEncryptN (hP : P.Lawful) (key : Key) (iv : Block) {n : ℕ}
    (buf : Bytes n) (hn : n ≠ 0) (h : n % 16 = 0) :
    aesCbcDecryptN P key iv (aesCbcEncryptN P key iv buf) = buf := by
  have h₀ : buf.toList ≠ [] := by
    intro hnil
    have := buf.length_toList
    rw [hnil] at this
    exact hn this.symm
  have hround := aesCbcDecrypt_aesCbcEncrypt hP key iv h₀ (by rw [buf.length_toList]; exact h)
  obtain ⟨out, hout, hdec⟩ := Option.bind_eq_some_iff.mp hround
  have hlen : out.length = n := (length_aesCbcEncrypt hout).trans buf.length_toList
  have hfill : (aesCbcEncryptN P key iv buf).toList = out := by
    rw [aesCbcEncryptN, hout, Option.getD_some, Bytes.toList_fill_of_length hlen]
  rw [aesCbcDecryptN, hfill, hdec, Option.getD_some, Bytes.fill_toList]

/-! ### LRP -/

/-- A nibble (`F<4>`). -/
abbrev Nibble := Fin 16

/-- `F::from_masked`: the low four bits. -/
def Nibble.fromMasked (v : UInt8) : Nibble := Fin.ofNat 16 v.toNat

/-- The nibbles of a byte string, high nibble of the first byte first. -/
def nibbles : List UInt8 → List Nibble
  | [] => []
  | b :: bs => Nibble.fromMasked (b >>> 4) :: Nibble.fromMasked b :: nibbles bs

/-- The bytes of a nibble string of even length. -/
def ofNibbles : List Nibble → List UInt8
  | hi :: lo :: ns => (UInt8.ofNat hi.val <<< 4 ||| UInt8.ofNat lo.val) :: ofNibbles ns
  | _ => []

/-- `inc`: increment a big-endian nibble counter in place, with carry. -/
def incNibbles (counter : List Nibble) : List Nibble := (incDigits counter.reverse).reverse

variable (P) in
/-- The chain of intermediate keys of the two LRP key generators. -/
def lrpChain (h : Block) (i : ℕ) : Block :=
  (fun h => P.aesEncrypt h ⟨List.replicate 16 0x55, rfl⟩)^[i] h

variable (P) in
/-- `generate_plaintexts`. -/
def generatePlaintexts (k : Key) (i : Nibble) : Block :=
  P.aesEncrypt (lrpChain P (P.aesEncrypt k ⟨List.replicate 16 0x55, rfl⟩) i.val)
    ⟨List.replicate 16 0xaa, rfl⟩

variable (P) in
/-- `generate_updated_keys`: the `i`-th updated key. -/
def generateUpdatedKeys (k : Key) (i : ℕ) : Block :=
  P.aesEncrypt (lrpChain P (P.aesEncrypt k ⟨List.replicate 16 0xaa, rfl⟩) i)
    ⟨List.replicate 16 0xaa, rfl⟩

variable (P) in
/-- `eval_lrp`: fold the inputs into the updated key, and finish with one more encryption. -/
def evalLrp (plaintexts : Nibble → Block) (updatedKey : Block) (inputs : List Nibble)
    (last : Bool) : Block :=
  let y := inputs.foldl (fun y x => P.aesEncrypt y (plaintexts x)) updatedKey
  if last then P.aesEncrypt y (Bytes.zeros 16) else y

/-- Largest LRICB counter in bytes. -/
def lricbCounterMaxBytes : ℕ := 16

/-- LRP key material. -/
structure Lrp where
  plaintexts : Nibble → Block
  kPrime : Block

namespace Lrp

variable (P) in
/-- `Lrp::from_base_key`. -/
def fromBaseKey (key : Key) : Lrp := ⟨generatePlaintexts P key, generateUpdatedKeys P key 0⟩

/-- `Lrp::from_parts`. -/
def fromParts (plaintexts : Nibble → Block) (kPrime : Block) : Lrp := ⟨plaintexts, kPrime⟩

variable (P) in
/-- LRP as a block cipher, the backend of `CMAC_LRP`. -/
def encryptBlock (lrp : Lrp) (b : Block) : Block :=
  evalLrp P lrp.plaintexts lrp.kPrime (nibbles b.toList) true

/-- Run LRICB over a buffer: block `i` is processed by `f` under the `i`-th successor of the
counter. Refuses an empty or unaligned buffer and a counter of no or more than 16 bytes. -/
def lricb (f : List Nibble → Block → Block) (counter buf : List UInt8) :
    Option (List UInt8 × List UInt8) :=
  if buf = [] ∨ buf.length % 16 ≠ 0 then none
  else if counter = [] ∨ lricbCounterMaxBytes < counter.length then none
  else
    let r := ctrMap incNibbles f (nibbles counter) (toBlocks buf)
    some (ofNibbles r.2, ofBlocks r.1)

variable (P) in
/-- `lricb_encrypt_in_place`: the counter and the buffer after the call. -/
def lricbEncryptInPlace (lrp : Lrp) (counter buf : List UInt8) :
    Option (List UInt8 × List UInt8) :=
  lricb (fun nibs b => P.aesEncrypt (evalLrp P lrp.plaintexts lrp.kPrime nibs true) b) counter buf

variable (P) in
/-- `lricb_decrypt_in_place`: the counter and the buffer after the call. -/
def lricbDecryptInPlace (lrp : Lrp) (counter buf : List UInt8) :
    Option (List UInt8 × List UInt8) :=
  lricb (fun nibs b => P.aesDecrypt (evalLrp P lrp.plaintexts lrp.kPrime nibs true) b) counter buf

end Lrp

variable (P) in
/-- `cmac_lrp`. -/
def cmacLrp (lrp : Lrp) (data : List UInt8) : Block := P.cmac (lrp.encryptBlock P) data

/-! ### The nibble counter -/

@[simp] theorem length_nibbles (bs : List UInt8) : (nibbles bs).length = 2 * bs.length := by
  induction bs with
  | nil => rfl
  | cons b bs ih =>
      simp only [nibbles, List.length_cons, ih]
      omega

@[simp] theorem length_incNibbles (ns : List Nibble) : (incNibbles ns).length = ns.length := by
  simp [incNibbles]

theorem fromMasked_high_val (b : UInt8) : (Nibble.fromMasked (b >>> 4)).val = b.toNat / 16 := by
  have := b.toNat_lt
  simp only [Nibble.fromMasked, Fin.val_ofNat, UInt8.toNat_shiftRight, Nat.shiftRight_eq_div_pow]
  simp
  omega

theorem fromMasked_low_val (b : UInt8) : (Nibble.fromMasked b).val = b.toNat % 16 := rfl

/-- Joining the two nibbles of a byte. -/
theorem toNat_joinNibbles (hi lo : Nibble) :
    (UInt8.ofNat hi.val <<< 4 ||| UInt8.ofNat lo.val).toNat = 16 * hi.val + lo.val := by
  revert hi lo
  decide

/-- Splitting a byte string into nibbles and joining them gives it back. -/
@[simp] theorem ofNibbles_nibbles (bs : List UInt8) : ofNibbles (nibbles bs) = bs := by
  induction bs with
  | nil => rfl
  | cons b bs ih =>
      have hb : UInt8.ofNat (Nibble.fromMasked (b >>> 4)).val <<< 4 |||
          UInt8.ofNat (Nibble.fromMasked b).val = b := by
        apply UInt8.toNat_inj.mp
        rw [toNat_joinNibbles, fromMasked_high_val, fromMasked_low_val]
        omega
      simp only [nibbles, ofNibbles, hb, ih]

/-- A nibble string of even length is the nibble string of its bytes. -/
theorem nibbles_ofNibbles {k : ℕ} {ns : List Nibble} (h : ns.length = 2 * k) :
    nibbles (ofNibbles ns) = ns := by
  induction k generalizing ns with
  | zero =>
      obtain rfl := List.length_eq_zero_iff.mp h
      rfl
  | succ k ih =>
      match ns, h with
      | hi :: lo :: ns, h =>
          have hj := toNat_joinNibbles hi lo
          have hhi : Nibble.fromMasked ((UInt8.ofNat hi.val <<< 4 ||| UInt8.ofNat lo.val) >>> 4)
              = hi := by
            apply Fin.ext
            rw [fromMasked_high_val, hj]
            omega
          have hlo : Nibble.fromMasked (UInt8.ofNat hi.val <<< 4 ||| UInt8.ofNat lo.val) = lo := by
            apply Fin.ext
            rw [fromMasked_low_val, hj]
            omega
          have hns : ns.length = 2 * k := by
            simp only [List.length_cons] at h
            omega
          simp only [ofNibbles, nibbles, hhi, hlo, ih hns]

/-- The nibble string of a byte string writes the same number. -/
theorem digitsVal_nibbles (bs : List UInt8) : digitsVal (nibbles bs).reverse = ofBe bs := by
  induction bs with
  | nil => rfl
  | cons b bs ih =>
      have hpow : 16 ^ (2 * bs.length) = 256 ^ bs.length := by
        rw [Nat.pow_mul]
      rw [ofBe] at ih ⊢
      simp only [nibbles, List.reverse_cons, List.append_assoc, digitsVal_append, ofLe_append, ih,
        List.length_reverse, length_nibbles, digitsVal, List.cons_append, List.nil_append, hpow,
        ofLe, Nat.mul_zero, Nat.add_zero]
      rw [fromMasked_high_val, fromMasked_low_val]
      congr 2
      omega

/-- Incrementing the nibble counter adds one to the number it writes. -/
theorem digitsVal_incNibbles (ns : List Nibble) :
    digitsVal (incNibbles ns).reverse = (digitsVal ns.reverse + 1) % 16 ^ ns.length := by
  rw [incNibbles, List.reverse_reverse, digitsVal_incDigits, List.length_reverse]

theorem length_iterate_incNibbles (k : ℕ) (ns : List Nibble) :
    (incNibbles^[k] ns).length = ns.length := by
  induction k generalizing ns with
  | zero => rfl
  | succ k ih => rw [Function.iterate_succ_apply, ih, length_incNibbles]

theorem digitsVal_iterate_incNibbles (k : ℕ) (ns : List Nibble) :
    digitsVal (incNibbles^[k] ns).reverse = (digitsVal ns.reverse + k) % 16 ^ ns.length := by
  induction k generalizing ns with
  | zero =>
      have := digitsVal_lt ns.reverse
      rw [List.length_reverse] at this
      rw [Function.iterate_zero, id_eq, Nat.add_zero, Nat.mod_eq_of_lt this]
  | succ k ih =>
      rw [Function.iterate_succ_apply, ih, digitsVal_incNibbles, length_incNibbles,
        Nat.mod_add_mod, Nat.add_right_comm, Nat.add_assoc]

/-- **The LRICB counter is a big-endian number**: after `k` blocks the counter bytes write the
number `k` larger, modulo their width. -/
theorem ofNibbles_iterate_incNibbles (k : ℕ) (c : List UInt8) :
    ofNibbles (incNibbles^[k] (nibbles c)) = beBytes c.length (ofBe c + k) := by
  have hlen : (incNibbles^[k] (nibbles c)).length = 2 * c.length := by
    rw [length_iterate_incNibbles, length_nibbles]
  have hpow : 16 ^ (2 * c.length) = 256 ^ c.length := by rw [Nat.pow_mul]
  have hbytes : nibbles (beBytes c.length (ofBe c + k)) = incNibbles^[k] (nibbles c) := by
    apply List.reverse_injective
    apply digitsVal_injective
    · rw [List.length_reverse, List.length_reverse, hlen, length_nibbles, length_beBytes]
    · rw [digitsVal_nibbles, ofBe_beBytes, digitsVal_iterate_incNibbles, digitsVal_nibbles,
        length_nibbles, hpow]
  rw [← hbytes, ofNibbles_nibbles]

namespace Lrp

/-- What LRICB returns on a buffer and counter it accepts. -/
theorem lricb_of_valid {f : List Nibble → Block → Block} {counter buf : List UInt8}
    (hbuf : buf ≠ []) (hb : buf.length % 16 = 0) (hc₀ : counter ≠ [])
    (hc : counter.length ≤ lricbCounterMaxBytes) :
    lricb f counter buf =
      some (beBytes counter.length (ofBe counter + buf.length / 16),
        ofBlocks (ctrMap incNibbles f (nibbles counter) (toBlocks buf)).1) := by
  rw [lricb, if_neg (by simp [hbuf, hb]), if_neg (by simp [hc₀, hc])]
  simp only [ctrMap_snd, length_toBlocks, ofNibbles_iterate_incNibbles]

/-- **LRICB decryption inverts encryption** from the same counter. -/
theorem lricbDecrypt_lricbEncrypt (hP : P.Lawful) (lrp : Lrp) {counter buf : List UInt8}
    (hbuf : buf ≠ []) (hb : buf.length % 16 = 0) (hc₀ : counter ≠ [])
    (hc : counter.length ≤ lricbCounterMaxBytes) :
    ∃ ct, lrp.lricbEncryptInPlace P counter buf =
        some (beBytes counter.length (ofBe counter + buf.length / 16), ct) ∧
      ct.length = buf.length ∧
      lrp.lricbDecryptInPlace P counter ct =
        some (beBytes counter.length (ofBe counter + buf.length / 16), buf) := by
  have hpos : 0 < buf.length := List.length_pos_iff.mpr hbuf
  refine ⟨_, lricb_of_valid hbuf hb hc₀ hc, ?_⟩
  set ct := ofBlocks (ctrMap incNibbles
    (fun nibs b => P.aesEncrypt (evalLrp P lrp.plaintexts lrp.kPrime nibs true) b)
    (nibbles counter) (toBlocks buf)).1 with hct
  have hlen : ct.length = buf.length := by
    rw [hct, length_ofBlocks, length_ctrMap, length_toBlocks]
    omega
  refine ⟨hlen, ?_⟩
  have hne : ct ≠ [] := List.length_pos_iff.mp (by omega)
  rw [lricbDecryptInPlace, lricb_of_valid hne (by omega) hc₀ hc, hlen, hct, toBlocks_ofBlocks,
    ctrMap_inverse fun c b => hP.decrypt_encrypt (evalLrp P lrp.plaintexts lrp.kPrime c true) b,
    ofBlocks_toBlocks hb]

end Lrp

end Ntag424
