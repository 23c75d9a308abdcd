import Mathlib.Tactic.Common
import Ntag424.Lib.Bytes

/-!
# AES-128

The AES-128 block cipher on 16-byte strings (FIPS 197), with the proof that decryption
inverts encryption. The state is kept column by column, as the cipher reads its input.

## Main results

* `Aes.decrypt_encrypt`: decryption inverts encryption under every key.
* `Aes.invMixColumns_mixColumns`: the column map is invertible, by linearity of `xtime`.
-/

namespace Aes

/-- A 16-byte string from its byte function. -/
def ofFn (f : ℕ → UInt8) : Bytes 16 := ⟨(List.range 16).map f, by simp⟩

theorem byte_ofFn (f : ℕ → UInt8) {i : ℕ} (hi : i < 16) : (ofFn f).byte i = f i := by
  simp [ofFn, Bytes.byte, List.getElem?_range hi]

/-- A 16-byte string is determined by its bytes. -/
theorem ofFn_byte (b : Bytes 16) {f : ℕ → UInt8} (h : ∀ i < 16, f i = b.byte i) : ofFn f = b := by
  apply Bytes.ext
  apply List.ext_getElem (by simp)
  intro i hi _
  have hi : i < 16 := by simpa using hi
  simp [ofFn, h i hi, Bytes.byte, hi]

/-! ### The layers of a round -/

/-- The substitution table. -/
def sbox : List UInt8 :=
  [ 0x63, 0x7c, 0x77, 0x7b, 0xf2, 0x6b, 0x6f, 0xc5, 0x30, 0x01, 0x67, 0x2b, 0xfe, 0xd7, 0xab, 0x76,
    0xca, 0x82, 0xc9, 0x7d, 0xfa, 0x59, 0x47, 0xf0, 0xad, 0xd4, 0xa2, 0xaf, 0x9c, 0xa4, 0x72, 0xc0,
    0xb7, 0xfd, 0x93, 0x26, 0x36, 0x3f, 0xf7, 0xcc, 0x34, 0xa5, 0xe5, 0xf1, 0x71, 0xd8, 0x31, 0x15,
    0x04, 0xc7, 0x23, 0xc3, 0x18, 0x96, 0x05, 0x9a, 0x07, 0x12, 0x80, 0xe2, 0xeb, 0x27, 0xb2, 0x75,
    0x09, 0x83, 0x2c, 0x1a, 0x1b, 0x6e, 0x5a, 0xa0, 0x52, 0x3b, 0xd6, 0xb3, 0x29, 0xe3, 0x2f, 0x84,
    0x53, 0xd1, 0x00, 0xed, 0x20, 0xfc, 0xb1, 0x5b, 0x6a, 0xcb, 0xbe, 0x39, 0x4a, 0x4c, 0x58, 0xcf,
    0xd0, 0xef, 0xaa, 0xfb, 0x43, 0x4d, 0x33, 0x85, 0x45, 0xf9, 0x02, 0x7f, 0x50, 0x3c, 0x9f, 0xa8,
    0x51, 0xa3, 0x40, 0x8f, 0x92, 0x9d, 0x38, 0xf5, 0xbc, 0xb6, 0xda, 0x21, 0x10, 0xff, 0xf3, 0xd2,
    0xcd, 0x0c, 0x13, 0xec, 0x5f, 0x97, 0x44, 0x17, 0xc4, 0xa7, 0x7e, 0x3d, 0x64, 0x5d, 0x19, 0x73,
    0x60, 0x81, 0x4f, 0xdc, 0x22, 0x2a, 0x90, 0x88, 0x46, 0xee, 0xb8, 0x14, 0xde, 0x5e, 0x0b, 0xdb,
    0xe0, 0x32, 0x3a, 0x0a, 0x49, 0x06, 0x24, 0x5c, 0xc2, 0xd3, 0xac, 0x62, 0x91, 0x95, 0xe4, 0x79,
    0xe7, 0xc8, 0x37, 0x6d, 0x8d, 0xd5, 0x4e, 0xa9, 0x6c, 0x56, 0xf4, 0xea, 0x65, 0x7a, 0xae, 0x08,
    0xba, 0x78, 0x25, 0x2e, 0x1c, 0xa6, 0xb4, 0xc6, 0xe8, 0xdd, 0x74, 0x1f, 0x4b, 0xbd, 0x8b, 0x8a,
    0x70, 0x3e, 0xb5, 0x66, 0x48, 0x03, 0xf6, 0x0e, 0x61, 0x35, 0x57, 0xb9, 0x86, 0xc1, 0x1d, 0x9e,
    0xe1, 0xf8, 0x98, 0x11, 0x69, 0xd9, 0x8e, 0x94, 0x9b, 0x1e, 0x87, 0xe9, 0xce, 0x55, 0x28, 0xdf,
    0x8c, 0xa1, 0x89, 0x0d, 0xbf, 0xe6, 0x42, 0x68, 0x41, 0x99, 0x2d, 0x0f, 0xb0, 0x54, 0xbb, 0x16
  ]

/-- Substitute a byte. -/
def subByte (b : UInt8) : UInt8 := sbox.getD b.toNat 0

/-- The byte that substitutes to `b`. -/
def invSubByte (b : UInt8) : UInt8 := UInt8.ofNat (sbox.idxOf b)

/-- Doubling in the field of the cipher. -/
def xtime (b : UInt8) : UInt8 := (b <<< 1) ^^^ (if b &&& 0x80 = 0 then 0 else 0x1b)

/-- `SubBytes`. -/
def subBytes (s : Bytes 16) : Bytes 16 := ofFn fun i => subByte (s.byte i)

def invSubBytes (s : Bytes 16) : Bytes 16 := ofFn fun i => invSubByte (s.byte i)

/-- `ShiftRows`: row `r` is rotated by `r` columns. -/
def shiftRows (s : Bytes 16) : Bytes 16 := ofFn fun i => s.byte ((i + 4 * (i % 4)) % 16)

def invShiftRows (s : Bytes 16) : Bytes 16 := ofFn fun i => s.byte ((i + 12 * (i % 4)) % 16)

/-- The byte `k` rows below byte `i`, in the same column. -/
def below (i k : ℕ) : ℕ := 4 * (i / 4) + (i % 4 + k) % 4

/-- `MixColumns`: every column times `2 + 3 x + x ^ 2 + x ^ 3`. -/
def mixColumns (s : Bytes 16) : Bytes 16 := ofFn fun i =>
  let a := s.byte i
  let b := s.byte (below i 1)
  xtime a ^^^ (xtime b ^^^ b) ^^^ s.byte (below i 2) ^^^ s.byte (below i 3)

/-- Multiples by 9, 11, 13 and 14 of the inverse column map. -/
def mul9 (b : UInt8) : UInt8 := xtime (xtime (xtime b)) ^^^ b

def mul11 (b : UInt8) : UInt8 := xtime (xtime (xtime b)) ^^^ xtime b ^^^ b

def mul13 (b : UInt8) : UInt8 := xtime (xtime (xtime b)) ^^^ xtime (xtime b) ^^^ b

def mul14 (b : UInt8) : UInt8 := xtime (xtime (xtime b)) ^^^ xtime (xtime b) ^^^ xtime b

/-- `InvMixColumns`. -/
def invMixColumns (s : Bytes 16) : Bytes 16 := ofFn fun i =>
  mul14 (s.byte i) ^^^ mul11 (s.byte (below i 1)) ^^^ mul13 (s.byte (below i 2)) ^^^
    mul9 (s.byte (below i 3))

/-! ### The cipher -/

/-- The next round key, from the round constant and the previous round key. -/
def nextRoundKey (k : Bytes 16) (rcon : UInt8) : Bytes 16 :=
  let t (i : ℕ) : UInt8 := subByte (k.byte (12 + (i + 1) % 4)) ^^^ (if i = 0 then rcon else 0)
  let w₀ (i : ℕ) : UInt8 := k.byte i ^^^ t i
  let w₁ (i : ℕ) : UInt8 := k.byte (4 + i) ^^^ w₀ i
  let w₂ (i : ℕ) : UInt8 := k.byte (8 + i) ^^^ w₁ i
  let w₃ (i : ℕ) : UInt8 := k.byte (12 + i) ^^^ w₂ i
  ofFn fun i => if i < 4 then w₀ i else if i < 8 then w₁ (i - 4)
    else if i < 12 then w₂ (i - 8) else w₃ (i - 12)

/-- The round keys of the rounds `1` to `9`, and the last round key. -/
def roundKeys (k : Bytes 16) : List (Bytes 16) × Bytes 16 :=
  let ks := [0x01, 0x02, 0x04, 0x08, 0x10, 0x20, 0x40, 0x80, 0x1b].scanl nextRoundKey k
  (ks.tail, nextRoundKey (ks.getLastD k) 0x36)

/-- A full round. -/
def round (s k : Bytes 16) : Bytes 16 := (mixColumns (shiftRows (subBytes s))).xor k

def invRound (k s : Bytes 16) : Bytes 16 := invSubBytes (invShiftRows (invMixColumns (s.xor k)))

/-- AES-128 encryption of a block. -/
def encrypt (k b : Bytes 16) : Bytes 16 :=
  let ks := roundKeys k
  (shiftRows (subBytes (ks.1.foldl round (b.xor k)))).xor ks.2

/-- AES-128 decryption of a block. -/
def decrypt (k b : Bytes 16) : Bytes 16 :=
  let ks := roundKeys k
  (ks.1.foldr invRound (invSubBytes (invShiftRows (b.xor ks.2)))).xor k

/-! ### Decryption inverts encryption -/

theorem invSubByte_subByte (b : UInt8) : invSubByte (subByte b) = b := by
  have hall : ∀ n : Fin 256, invSubByte (subByte (UInt8.ofFin n)) = UInt8.ofFin n := by
    decide +kernel
  exact hall b.toFin

theorem invSubBytes_subBytes (s : Bytes 16) : invSubBytes (subBytes s) = s :=
  ofFn_byte s fun i hi => by rw [subBytes, byte_ofFn _ hi, invSubByte_subByte]

theorem invShiftRows_shiftRows (s : Bytes 16) : invShiftRows (shiftRows s) = s :=
  ofFn_byte s fun i hi => by
    rw [shiftRows, byte_ofFn _ (Nat.mod_lt _ (by decide))]
    congr 1
    omega

/-- The high bit of a byte, alone. -/
theorem and_high (b : UInt8) : b &&& 0x80 = 0 ∨ b &&& 0x80 = 0x80 := by
  have hall : ∀ n : Fin 256, UInt8.ofFin n &&& 0x80 = 0 ∨ UInt8.ofFin n &&& 0x80 = 0x80 := by
    decide +kernel
  exact hall b.toFin

theorem xor_left_comm (a b c : UInt8) : a ^^^ (b ^^^ c) = b ^^^ (a ^^^ c) := by
  rw [← UInt8.xor_assoc, UInt8.xor_comm a b, UInt8.xor_assoc]

/-- **Doubling is linear.** -/
theorem xtime_xor (a b : UInt8) : xtime (a ^^^ b) = xtime a ^^^ xtime b := by
  have hand : (a ^^^ b) &&& 0x80 = (a &&& 0x80) ^^^ (b &&& 0x80) := by
    apply UInt8.toBitVec_inj.mp
    ext j hj
    simp [Bool.and_xor_distrib_right]
  unfold xtime
  rw [UInt8.shiftLeft_xor, hand]
  rcases and_high a with ha | ha <;> rcases and_high b with hb | hb <;>
    simp [ha, hb, UInt8.xor_assoc, UInt8.xor_comm, xor_left_comm]

theorem below_lt {i : ℕ} (hi : i < 16) (k : ℕ) : below i k < 16 := by
  unfold below
  omega

theorem below_below (i j k : ℕ) : below (below i j) k = below i (j + k) := by
  unfold below
  omega

theorem mul9_xor (a b : UInt8) : mul9 (a ^^^ b) = mul9 a ^^^ mul9 b := by
  simp only [mul9, xtime_xor]
  ac_rfl

theorem mul11_xor (a b : UInt8) : mul11 (a ^^^ b) = mul11 a ^^^ mul11 b := by
  simp only [mul11, xtime_xor]
  ac_rfl

theorem mul13_xor (a b : UInt8) : mul13 (a ^^^ b) = mul13 a ^^^ mul13 b := by
  simp only [mul13, xtime_xor]
  ac_rfl

theorem mul14_xor (a b : UInt8) : mul14 (a ^^^ b) = mul14 a ^^^ mul14 b := by
  simp only [mul14, xtime_xor]
  ac_rfl

/-- The diagonal coefficient of the product of the two column maps. -/
theorem coeff_zero (a : UInt8) :
    mul14 (xtime a) ^^^ mul11 a ^^^ mul13 a ^^^ (mul9 (xtime a) ^^^ mul9 a) = a := by
  simp only [mul9, mul11, mul13, mul14]
  generalize xtime (xtime (xtime (xtime a))) = a₄
  generalize xtime (xtime (xtime a)) = a₃
  generalize xtime (xtime a) = a₂
  generalize xtime a = a₁
  simp [UInt8.xor_comm, xor_left_comm]

theorem coeff_one (a : UInt8) :
    mul14 (xtime a) ^^^ mul14 a ^^^ mul11 (xtime a) ^^^ mul13 a ^^^ mul9 a = 0 := by
  simp only [mul9, mul11, mul13, mul14]
  generalize xtime (xtime (xtime (xtime a))) = a₄
  generalize xtime (xtime (xtime a)) = a₃
  generalize xtime (xtime a) = a₂
  generalize xtime a = a₁
  simp [UInt8.xor_comm, xor_left_comm]

theorem coeff_two (a : UInt8) :
    mul14 a ^^^ (mul11 (xtime a) ^^^ mul11 a) ^^^ mul13 (xtime a) ^^^ mul9 a = 0 := by
  simp only [mul9, mul11, mul13, mul14]
  generalize xtime (xtime (xtime (xtime a))) = a₄
  generalize xtime (xtime (xtime a)) = a₃
  generalize xtime (xtime a) = a₂
  generalize xtime a = a₁
  simp [UInt8.xor_comm, xor_left_comm]

theorem coeff_three (a : UInt8) :
    mul14 a ^^^ mul11 a ^^^ (mul13 (xtime a) ^^^ mul13 a) ^^^ mul9 (xtime a) = 0 := by
  simp only [mul9, mul11, mul13, mul14]
  generalize xtime (xtime (xtime (xtime a))) = a₄
  generalize xtime (xtime (xtime a)) = a₃
  generalize xtime (xtime a) = a₂
  generalize xtime a = a₁
  simp [UInt8.xor_comm, xor_left_comm]

/-- **The column map is invertible**: the products of the coefficients cancel except on the
diagonal. -/
theorem invMixColumns_mixColumns (s : Bytes 16) : invMixColumns (mixColumns s) = s :=
  ofFn_byte s fun i hi => by
    have h₄ : below i 4 = i := by unfold below; omega
    have h₅ : below i 5 = below i 1 := by unfold below; omega
    have h₆ : below i 6 = below i 2 := by unfold below; omega
    simp only [mixColumns, byte_ofFn _ hi, byte_ofFn _ (below_lt hi _), below_below, h₄, h₅, h₆,
      mul9_xor, mul11_xor, mul13_xor, mul14_xor]
    generalize s.byte i = a
    generalize s.byte (below i 1) = b
    generalize s.byte (below i 2) = c
    generalize s.byte (below i 3) = d
    calc _ = (mul14 (xtime a) ^^^ mul11 a ^^^ mul13 a ^^^ (mul9 (xtime a) ^^^ mul9 a)) ^^^
          (mul14 (xtime b) ^^^ mul14 b ^^^ mul11 (xtime b) ^^^ mul13 b ^^^ mul9 b) ^^^
          (mul14 c ^^^ (mul11 (xtime c) ^^^ mul11 c) ^^^ mul13 (xtime c) ^^^ mul9 c) ^^^
          (mul14 d ^^^ mul11 d ^^^ (mul13 (xtime d) ^^^ mul13 d) ^^^ mul9 (xtime d)) := by
          ac_rfl
      _ = a := by
          rw [coeff_zero, coeff_one, coeff_two, coeff_three]
          simp

theorem invRound_round (s k : Bytes 16) : invRound k (round s k) = s := by
  rw [invRound, round, Bytes.xor_xor_cancel, invMixColumns_mixColumns, invShiftRows_shiftRows,
    invSubBytes_subBytes]

theorem foldr_invRound_foldl_round (ks : List (Bytes 16)) (s : Bytes 16) :
    ks.foldr invRound (ks.foldl round s) = s := by
  induction ks generalizing s with
  | nil => rfl
  | cons k ks ih => rw [List.foldl_cons, List.foldr_cons, ih, invRound_round]

/-- **AES-128 decryption inverts encryption.** -/
theorem decrypt_encrypt (k b : Bytes 16) : decrypt k (encrypt k b) = b := by
  simp only [decrypt, encrypt, Bytes.xor_xor_cancel, invShiftRows_shiftRows, invSubBytes_subBytes,
    foldr_invRound_foldl_round]

end Aes
