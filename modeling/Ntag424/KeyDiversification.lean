import Mathlib.Tactic.Common
import Ntag424.Crypto
import Ntag424.Lib.Outcome
import Ntag424.Types

/-!
# Key Diversification

The AES-128 key diversification of `crypto/key_diversification.rs` and the key assignment the
high-level functions build from it: the cohort-fixed PICC key and the per-tag keys. The block
cipher is a parameter. The length assertions of the source are panics here.

## Main results

* `diversifyNtag424_eq`, `diversifyNtag424_eq_panicked`: the only panic is a system
  identifier of more than 16 bytes.
* `piccKey_eq`: deriving the PICC key never panics.
-/

namespace Ntag424

open Outcome

/-- Diversification constant in front of the CMAC input. -/
def divConstAes128 : UInt8 := 0x01

/-- Reduction polynomial of the doubling. -/
def rb : UInt8 := 0x87

/-- ISO DF name of the NDEF application. -/
def ntag424Aid : Bytes 7 := ⟨[0xD2, 0x76, 0x00, 0x00, 0x85, 0x01, 0x01], rfl⟩

/-- Longest system identifier. -/
def maxSystemIdLen : ℕ := 16

/-- Shift a byte string left by one bit, from the last byte to the first, with the bit
carried out of it. -/
def shiftLeft : List UInt8 → List UInt8 × UInt8
  | [] => ([], 0)
  | b :: bs =>
      let (out, carry) := shiftLeft bs
      ((b <<< 1 ||| carry) :: out, b >>> 7)

/-- `double`: multiplication by `x` in the field of CMAC. -/
def double (block : Block) : Block :=
  let out : Block := Bytes.fill 16 (shiftLeft block.toList).1
  if block.byte 0 &&& 0x80 ≠ 0 then out.xor ⟨List.replicate 15 0 ++ [rb], rfl⟩ else out

variable (P : Primitives)

/-- The derivation of `diversify_aes128` after its length check: a CMAC over two blocks. -/
def diversified (masterKey : Key) (input : List UInt8) : Key :=
  let l := P.aesEncrypt masterKey (Bytes.zeros 16)
  let k₁ := double l
  let k₂ := double k₁
  let padded := input.length < 31
  let d := divConstAes128 :: input ++ if padded then [0x80] else []
  let d₀ : Block := Bytes.fill 16 d
  let d₁ := (Bytes.fill 16 (d.drop 16)).xor (if padded then k₂ else k₁)
  P.aesEncrypt masterKey ((P.aesEncrypt masterKey d₀).xor d₁)

/-- `diversify_aes128`: panics on an empty input and on one of more than 31 bytes. -/
def diversifyAes128 {ε : Type} (masterKey : Key) (input : List UInt8) : Outcome ε Key :=
  if input ≠ [] ∧ input.length ≤ 31 then .ok (diversified P masterKey input) else panicked

/-- The diversification input of a tag key. -/
def diversificationInput (uid : Bytes 7) (keyNumber : KeyNumber)
    (systemIdentifier : List UInt8) : List UInt8 :=
  uid.toList ++ ntag424Aid.toList ++ keyNumber.asByte :: systemIdentifier

/-- `diversify_ntag424`: panics on a system identifier of more than 16 bytes. -/
def diversifyNtag424 {ε : Type} (masterKey : Key) (uid : Bytes 7) (keyNumber : KeyNumber)
    (systemIdentifier : List UInt8) : Outcome ε Key :=
  if systemIdentifier.length ≤ maxSystemIdLen then
    diversifyAes128 P masterKey (diversificationInput uid keyNumber systemIdentifier)
  else panicked

/-- The input `b"PICC"` of the PICC key. -/
def piccInput : List UInt8 := [0x50, 0x49, 0x43, 0x43]

/-- `picc_key`: the cohort-fixed PICC encryption key. -/
def piccKey {ε : Type} (master : Key) : Outcome ε Key := diversifyAes128 P master piccInput

/-- Deriving the PICC key never panics. -/
theorem piccKey_eq {ε : Type} (master : Key) :
    (piccKey P master : Outcome ε Key) = .ok (diversified P master piccInput) := rfl

@[simp] theorem length_diversificationInput (uid : Bytes 7) (keyNumber : KeyNumber)
    (systemIdentifier : List UInt8) :
    (diversificationInput uid keyNumber systemIdentifier).length =
      15 + systemIdentifier.length := by
  simp only [diversificationInput, List.length_append, List.length_cons, Bytes.length_toList]
  omega

/-- The only panic of `diversify_ntag424` is a system identifier that is too long. -/
theorem diversifyNtag424_eq {ε : Type} {masterKey : Key} {uid : Bytes 7} {keyNumber : KeyNumber}
    {systemIdentifier : List UInt8} (h : systemIdentifier.length ≤ maxSystemIdLen) :
    (diversifyNtag424 P masterKey uid keyNumber systemIdentifier : Outcome ε Key) =
      .ok (diversified P masterKey (diversificationInput uid keyNumber systemIdentifier)) := by
  have hlen := length_diversificationInput uid keyNumber systemIdentifier
  have hne : diversificationInput uid keyNumber systemIdentifier ≠ [] := by
    intro hnil
    rw [hnil, List.length_nil] at hlen
    omega
  have hmax : (diversificationInput uid keyNumber systemIdentifier).length ≤ 31 := by
    rw [hlen]
    simp only [maxSystemIdLen] at h
    omega
  rw [diversifyNtag424, if_pos h, diversifyAes128, if_pos ⟨hne, hmax⟩]

/-- A system identifier that is too long panics for every key. -/
theorem diversifyNtag424_eq_panicked {ε : Type} {masterKey : Key} {uid : Bytes 7}
    {keyNumber : KeyNumber} {systemIdentifier : List UInt8}
    (h : maxSystemIdLen < systemIdentifier.length) :
    (diversifyNtag424 P masterKey uid keyNumber systemIdentifier : Outcome ε Key) =
      panicked := by
  rw [diversifyNtag424, if_neg (Nat.not_le.mpr h)]

end Ntag424
