import Mathlib.Data.Nat.Bitwise
import Mathlib.Tactic.Common
import Mathlib.Tactic.Linarith
import Ntag424.KeyDiversification
import Ntag424.Standard

/-!
# Diversification as CMAC

`diversify_aes128` computes a CMAC by hand: it shifts the subkeys byte by byte, pads its input
into two blocks and chains them. On inputs of at least 16 bytes, which fill both blocks, this is
the CMAC of the input behind the diversification constant. On every input it depends only on
the padded blocks and on the choice of the subkey, and these tell the inputs apart.

## Main results

* `double_eq_cmacDouble`: the shift with carries doubles a block.
* `diversify_eq_cmac`: the diversified key is the CMAC of `0x01 ‖ M`.
* `processed_injective`: padded blocks and subkey choice determine UID, key number and system
  identifier, and differ from those of the PICC key.
-/

namespace Ntag424

open Numerals BlockMode Outcome

/-! ### Doubling -/

theorem ofBe_cons (b : UInt8) (bs : List UInt8) :
    ofBe (b :: bs) = 256 ^ bs.length * b.toNat + ofBe bs := by
  rw [ofBe, List.reverse_cons, ofLe_append, List.length_reverse, ofBe, ofLe, ofLe, Nat.mul_zero,
    Nat.add_zero, Nat.add_comm]

/-- One byte of the shift: what is carried in and out. -/
theorem toNat_shift (b carry : UInt8) (hcarry : carry.toNat ≤ 1) :
    (b <<< 1 ||| carry).toNat + 256 * (b >>> 7).toNat = 2 * b.toNat + carry.toNat := by
  have hb := b.toNat_lt
  have hlow : b.toNat <<< 1 % 2 ^ 8 = (b.toNat % 2 ^ 7) <<< 1 := by
    rw [Nat.shiftLeft_eq, Nat.shiftLeft_eq]
    omega
  have hor : (b <<< 1 ||| carry).toNat = (b.toNat % 2 ^ 7) <<< 1 + carry.toNat := by
    rw [Nat.shiftLeft_add_eq_or_of_lt (by omega), ← hlow]
    rfl
  have hhigh : (b >>> 7).toNat = b.toNat / 2 ^ 7 := Nat.shiftRight_eq_div_pow _ _
  rw [hor, hhigh, Nat.shiftLeft_eq]
  omega

/-- **The shift doubles**: what it returns and what it carries out of the first byte. -/
theorem ofBe_shiftLeft (bs : List UInt8) :
    ofBe (shiftLeft bs).1 + 256 ^ bs.length * (shiftLeft bs).2.toNat = 2 * ofBe bs ∧
      (shiftLeft bs).1.length = bs.length ∧ (shiftLeft bs).2.toNat ≤ 1 := by
  induction bs with
  | nil => exact ⟨rfl, rfl, Nat.zero_le _⟩
  | cons b bs ih =>
      obtain ⟨hval, hlen, hcarry⟩ := ih
      have hbyte := toNat_shift b (shiftLeft bs).2 hcarry
      have hb := b.toNat_lt
      have hhigh : (b >>> 7).toNat = b.toNat / 2 ^ 7 := Nat.shiftRight_eq_div_pow _ _
      simp only [shiftLeft]
      refine ⟨?_, by rw [List.length_cons, List.length_cons, hlen], by omega⟩
      have hscaled := congrArg (256 ^ bs.length * ·) hbyte
      rw [ofBe_cons, ofBe_cons, hlen, List.length_cons, Nat.pow_succ]
      linarith

/-- The first bit of a block. -/
theorem byte_and_ne_zero_iff (block : Block) :
    block.byte 0 &&& 0x80 ≠ 0 ↔ 2 ^ 127 ≤ ofBe block.toList := by
  obtain ⟨l, hl⟩ := block
  cases l with
  | nil => cases hl
  | cons b bs =>
      have hlen : bs.length = 15 := Nat.succ.inj hl
      have hlt := ofBe_lt bs
      rw [hlen] at hlt
      have hb := b.toNat_lt
      have hbit : (b &&& 0x80).toNat = (b.toNat.testBit 7).toNat * 2 ^ 7 := Nat.and_two_pow _ 7
      have hne : b &&& 0x80 ≠ 0 ↔ 2 ^ 7 ≤ b.toNat := by
        rw [ne_eq, ← UInt8.toNat_inj, hbit, Nat.testBit_eq_decide_div_mod_eq]
        simp
        omega
      change b &&& 0x80 ≠ 0 ↔ 2 ^ 127 ≤ ofBe (b :: bs)
      rw [hne, ofBe_cons, hlen]
      omega

/-- **`double` is doubling** in the field of CMAC. -/
theorem double_eq_cmacDouble (block : Block) : double block = cmacDouble block := by
  obtain ⟨hval, hlen, hcarry⟩ := ofBe_shiftLeft block.toList
  rw [block.length_toList] at hval hlen
  have hbytes := beBytes_ofBe (shiftLeft block.toList).1
  rw [hlen] at hbytes
  have hshift : (shiftLeft block.toList).1 = beBytes 16 (2 * ofBe block.toList) := by
    rw [← hval, ← beBytes_mod, Nat.add_mul_mod_self_left, beBytes_mod, hbytes]
  simp only [double, cmacDouble, hshift]
  split
  · rename_i hbit
    simp only [if_pos ((byte_and_ne_zero_iff block).mp hbit)]
    rfl
  · rename_i hbit
    have hzero : (⟨beBytes 16 0, length_beBytes _ _⟩ : Block) = Bytes.zeros 16 := rfl
    simp only [if_neg fun h => hbit ((byte_and_ne_zero_iff block).mpr h), hzero]
    rw [Bytes.xor_comm, Bytes.zeros_xor]

variable (P : Primitives)

/-! ### Two full blocks -/

/-- The last block of a message of 17 to 32 bytes, masked as the derivation masks it. -/
theorem diversified_eq_cmacOf (masterKey : Key) {input : List UInt8} (hmin : 16 ≤ input.length)
    (hmax : input.length ≤ 31) :
    diversified P masterKey input =
      cmacOf (P.aesEncrypt masterKey) (divConstAes128 :: input) := by
  have hblocks : ((divConstAes128 :: input).length - 1) / 16 = 1 := by
    rw [List.length_cons]
    omega
  have hfirst : toBlocks ((divConstAes128 :: input).take (16 * 1)) =
      [Bytes.fill 16 (divConstAes128 :: input)] := by
    have hlen : ((divConstAes128 :: input).take 16).length = 16 := by
      rw [List.length_take, List.length_cons]
      omega
    rw [toBlocks, Nat.mul_one, hlen]
    change [Bytes.fill 16 ((divConstAes128 :: input).take 16)] = _
    rw [Bytes.fill_take]
  have hlast : ((divConstAes128 :: input).drop (16 * 1)).length = input.length - 15 := by
    rw [List.length_drop, List.length_cons]
    omega
  rw [cmacOf, hblocks, hfirst]
  simp only [List.foldl_cons, List.foldl_nil, Bytes.zeros_xor, hlast, diversified,
    double_eq_cmacDouble]
  by_cases hfull : input.length = 31
  · rw [if_neg (by omega), if_neg (by omega), if_pos (by omega), List.append_nil]
  · have hpad : Bytes.fill 16 (divConstAes128 :: input ++ [0x80]) =
        Bytes.fill 16 (divConstAes128 :: input) := by
      rw [← Bytes.fill_take, List.take_append_of_le_length, Bytes.fill_take]
      rw [List.length_cons]
      omega
    rw [if_pos (by omega), if_pos (by omega), if_neg (by omega), hpad,
      List.drop_append_of_le_length (by rw [List.length_cons]; omega)]

/-- **Diversification is CMAC.** With a `cmac` crate that computes the CMAC of NIST SP 800-38B, the
hand-written derivation agrees with `cmac_aes` on the constant and the input, for every input of
16 to 31 bytes, and in particular for every input of `diversify_ntag424` with a system
identifier. -/
theorem diversify_eq_cmac (hcmac : P.cmac = cmacOf) (masterKey : Key) :
    (∀ input : List UInt8, 16 ≤ input.length → input.length ≤ 31 →
      (diversifyAes128 P masterKey input : Outcome Empty Key) =
        .ok (cmacAes P masterKey (0x01 :: input))) ∧
    ∀ uid keyNumber (systemIdentifier : List UInt8), 1 ≤ systemIdentifier.length →
      systemIdentifier.length ≤ maxSystemIdLen →
      (diversifyNtag424 P masterKey uid keyNumber systemIdentifier : Outcome Empty Key) =
        .ok (cmacAes P masterKey
          (0x01 :: diversificationInput uid keyNumber systemIdentifier)) := by
  constructor
  · intro input hmin hmax
    have hne : input ≠ [] := List.length_pos_iff.mp (by omega)
    rw [diversifyAes128, if_pos ⟨hne, hmax⟩, diversified_eq_cmacOf P masterKey hmin hmax, cmacAes,
      hcmac, divConstAes128]
  · intro uid keyNumber systemIdentifier hmin hmax
    have hlen := length_diversificationInput uid keyNumber systemIdentifier
    have hshort : systemIdentifier.length ≤ 16 := hmax
    rw [diversifyNtag424_eq P hmax, diversified_eq_cmacOf P masterKey (by omega) (by omega),
      cmacAes, hcmac, divConstAes128]

/-- The input of AN10922: a UID, the AID and a system identifier, 17 bytes. -/
theorem diversify_eq_cmac_an10922 :
    (diversifyAes128 .standard (Bytes.zeros 16)
        [0x04, 0x78, 0x2E, 0x21, 0x80, 0x1D, 0x80, 0x30, 0x42, 0xF5, 0x4E, 0x58, 0x50, 0x20, 0x41,
          0x62, 0x75] : Outcome Empty Key) =
      .ok (cmacAes .standard (Bytes.zeros 16)
        (0x01 :: [0x04, 0x78, 0x2E, 0x21, 0x80, 0x1D, 0x80, 0x30, 0x42, 0xF5, 0x4E, 0x58, 0x50,
          0x20, 0x41, 0x62, 0x75])) :=
  (diversify_eq_cmac .standard rfl (Bytes.zeros 16)).1 _ (by decide) (by decide)

/-! ### What the derivation processes -/

/-- What `diversify_aes128` derives a key from: the padded blocks `D` before a subkey is added,
and whether this is the second subkey. -/
def processed (input : List UInt8) : Bytes 32 × Bool :=
  (Bytes.fill 32 (divConstAes128 :: input ++ if input.length < 31 then [0x80] else []),
    input.length < 31)

/-- The key derived from padded blocks and a choice of the subkey. -/
def deriveFrom (masterKey : Key) (d : Bytes 32 × Bool) : Key :=
  let k₁ := double (P.aesEncrypt masterKey (Bytes.zeros 16))
  let first := Bytes.fill 16 (d.1.toList.take 16)
  let last := (Bytes.fill 16 (d.1.toList.drop 16)).xor (if d.2 then double k₁ else k₁)
  P.aesEncrypt masterKey ((P.aesEncrypt masterKey first).xor last)

/-- **The derivation reads nothing else.** -/
theorem diversified_eq_deriveFrom (masterKey : Key) {input : List UInt8}
    (hmax : input.length ≤ 31) :
    diversified P masterKey input = deriveFrom P masterKey (processed input) := by
  rw [diversified, deriveFrom, processed]
  generalize hd : (divConstAes128 :: input ++ if input.length < 31 then [0x80] else []) = d
  have hlen : d.length ≤ 32 := by
    rw [← hd, List.length_append, List.length_cons]
    split
    · rw [List.length_singleton]
      omega
    · rw [List.length_nil]
      omega
  have hdrop : Bytes.fill 16 ((d ++ List.replicate (32 - d.length) 0).drop 16) =
      Bytes.fill 16 (d.drop 16) := by
    rw [List.drop_append, List.drop_replicate, Bytes.fill_append_replicate_zero]
  simp only [decide_eq_true_eq, Bytes.toList_fill_of_le hlen, Bytes.fill_take,
    Bytes.fill_append_replicate_zero, hdrop]

/-- A marker that is no zero ends the bytes in front of zeros. -/
theorem eq_of_marked {b : UInt8} (hb : b ≠ 0) {xs ys : List UInt8} {k j : ℕ}
    (h : xs ++ b :: List.replicate k 0 = ys ++ b :: List.replicate j 0) : xs = ys := by
  have hmem : ∀ {c : UInt8} {l zs : List UInt8} {n : ℕ},
      b :: List.replicate n 0 ≠ (c :: l) ++ b :: zs := by
    intro c l zs n heq
    rw [List.cons_append] at heq
    have hin : b ∈ List.replicate n 0 := by
      rw [(List.cons.inj heq).2]
      exact List.mem_append_right _ List.mem_cons_self
    exact hb (List.eq_of_mem_replicate hin)
  rcases List.append_eq_append_iff.mp h with ⟨l, hys, hl⟩ | ⟨l, hxs, hl⟩
  · cases l with
    | nil => rw [hys, List.append_nil]
    | cons c l => exact absurd hl hmem
  · cases l with
    | nil => rw [hxs, List.append_nil]
    | cons c l => exact absurd hl hmem

/-- Different inputs of at most 31 bytes are told apart: a full input by the subkey, a shorter one
by the padding marker behind it. -/
theorem processed_inj {m m' : List UInt8} (hm : m.length ≤ 31) (hm' : m'.length ≤ 31)
    (h : processed m = processed m') : m = m' := by
  obtain ⟨hblocks, hkey⟩ := Prod.ext_iff.mp h
  have hshort : m.length < 31 ↔ m'.length < 31 := decide_eq_decide.mp hkey
  have hbytes := congrArg Bytes.toList hblocks
  simp only [processed] at hbytes
  by_cases hlt : m.length < 31
  · have hlt' := hshort.mp hlt
    have hlen : (divConstAes128 :: m ++ [0x80]).length ≤ 32 := by
      rw [List.length_append, List.length_cons, List.length_singleton]
      omega
    have hlen' : (divConstAes128 :: m' ++ [0x80]).length ≤ 32 := by
      rw [List.length_append, List.length_cons, List.length_singleton]
      omega
    rw [if_pos hlt, if_pos hlt', Bytes.toList_fill_of_le hlen, Bytes.toList_fill_of_le hlen',
      List.append_assoc, List.append_assoc] at hbytes
    exact (List.cons.inj (eq_of_marked (by decide) hbytes)).2
  · have hfull : (divConstAes128 :: m).length = 32 := by
      rw [List.length_cons]
      omega
    have hfull' : (divConstAes128 :: m').length = 32 := by
      rw [List.length_cons]
      omega
    rw [if_neg hlt, if_neg (fun hlt' => hlt (hshort.mpr hlt')), List.append_nil, List.append_nil,
      Bytes.toList_fill_of_length hfull, Bytes.toList_fill_of_length hfull'] at hbytes
    exact (List.cons.inj hbytes).2

/-- UID, key number and system identifier stand at fixed places of the input. -/
theorem diversificationInput_inj {uid uid' : Bytes 7} {keyNumber keyNumber' : KeyNumber}
    {systemIdentifier systemIdentifier' : List UInt8}
    (h : diversificationInput uid keyNumber systemIdentifier =
      diversificationInput uid' keyNumber' systemIdentifier') :
    uid = uid' ∧ keyNumber = keyNumber' ∧ systemIdentifier = systemIdentifier' := by
  have hlen : (uid.toList ++ ntag424Aid.toList).length =
      (uid'.toList ++ ntag424Aid.toList).length := by
    rw [List.length_append, List.length_append, uid.length_toList, uid'.length_toList]
  obtain ⟨hfront, hrest⟩ := List.append_inj h hlen
  obtain ⟨hnumber, hsystem⟩ := List.cons.inj hrest
  have hkey : keyNumber = keyNumber' := by
    cases keyNumber <;> cases keyNumber' <;> first | rfl | exact absurd hnumber (by decide)
  exact ⟨Bytes.ext (List.append_cancel_right hfront), hkey, hsystem⟩

/-- **Derivations never collide.** The padded blocks and the choice of the subkey determine UID, key
number and system identifier, also across system identifiers of different lengths, and no tag
key is derived from those of the PICC key. -/
theorem processed_injective (uid uid' : Bytes 7) (keyNumber keyNumber' : KeyNumber)
    (systemIdentifier systemIdentifier' : List UInt8)
    (hmax : systemIdentifier.length ≤ maxSystemIdLen)
    (hmax' : systemIdentifier'.length ≤ maxSystemIdLen) :
    (∀ masterKey, (diversifyNtag424 P masterKey uid keyNumber systemIdentifier :
        Outcome Empty Key) = .ok (deriveFrom P masterKey
          (processed (diversificationInput uid keyNumber systemIdentifier)))) ∧
    (∀ masterKey, (piccKey P masterKey : Outcome Empty Key) =
      .ok (deriveFrom P masterKey (processed piccInput))) ∧
    (processed (diversificationInput uid keyNumber systemIdentifier) =
        processed (diversificationInput uid' keyNumber' systemIdentifier') →
      uid = uid' ∧ keyNumber = keyNumber' ∧ systemIdentifier = systemIdentifier') ∧
    processed (diversificationInput uid keyNumber systemIdentifier) ≠ processed piccInput := by
  have hlen := length_diversificationInput uid keyNumber systemIdentifier
  have hlen' := length_diversificationInput uid' keyNumber' systemIdentifier'
  have h16 : systemIdentifier.length ≤ 16 := hmax
  have h16' : systemIdentifier'.length ≤ 16 := hmax'
  refine ⟨fun masterKey => ?_, fun masterKey => ?_, fun h => ?_, fun h => ?_⟩
  · rw [diversifyNtag424_eq P hmax, diversified_eq_deriveFrom P masterKey (by omega)]
  · rw [piccKey_eq, diversified_eq_deriveFrom P masterKey (by decide)]
  · exact diversificationInput_inj (processed_inj (by omega) (by omega) h)
  · have hpicc := congrArg List.length (processed_inj (by omega) (by decide) h)
    rw [hlen] at hpicc
    change 15 + systemIdentifier.length = 4 at hpicc
    omega

/-- The longest system identifier against the empty one. -/
theorem processed_injective_longest :
    (processed (diversificationInput (Bytes.zeros 7) .key0 (List.replicate 16 0x80)) =
        processed (diversificationInput (Bytes.zeros 7) .key0 []) →
      Bytes.zeros 7 = Bytes.zeros 7 ∧ KeyNumber.key0 = .key0 ∧
        List.replicate 16 (0x80 : UInt8) = []) ∧
    processed (diversificationInput (Bytes.zeros 7) .key0 (List.replicate 16 0x80)) ≠
      processed piccInput :=
  (processed_injective .standard (Bytes.zeros 7) (Bytes.zeros 7) .key0 .key0
    (List.replicate 16 0x80) [] (by decide) (by decide)).2.2

end Ntag424
