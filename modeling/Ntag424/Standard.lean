import Mathlib.Tactic.Common
import Ntag424.Crypto
import Ntag424.Lib.Aes

/-!
# The Standard Primitives

The primitives as the third-party crates document them: AES-128 and CMAC as NIST SP 800-38B
defines it over a block function. Results about arbitrary lawful primitives are instantiated
with these.

## Main results

* `Primitives.standard_lawful`: the standard primitives are lawful.
-/

namespace Ntag424

open BlockMode Numerals

/-- Doubling of a block in the field of CMAC. -/
def cmacDouble (b : Block) : Block :=
  let n := ofBe b.toList
  (Bytes.fill 16 (beBytes 16 (2 * n))).xor
    ⟨beBytes 16 (if 2 ^ 127 ≤ n then 0x87 else 0), length_beBytes _ _⟩

/-- CMAC over a block function: a complete last block is masked with the first subkey, a
padded one with the second. -/
def cmacOf (e : Block → Block) (msg : List UInt8) : Block :=
  let k₁ := cmacDouble (e (Bytes.zeros 16))
  let k₂ := cmacDouble k₁
  let n := (msg.length - 1) / 16
  let last := msg.drop (16 * n)
  let masked := if last.length = 16 then (Bytes.fill 16 last).xor k₁
    else (Bytes.fill 16 (last ++ [0x80])).xor k₂
  e (((toBlocks (msg.take (16 * n))).foldl (fun c b => e (c.xor b)) (Bytes.zeros 16)).xor masked)

/-- AES-128 and CMAC, in a release build. -/
def Primitives.standard : Primitives where
  aesEncrypt := Aes.encrypt
  aesDecrypt := Aes.decrypt
  cmac := cmacOf
  debugAssertions := false

/-- The same in a build with debug assertions. -/
def Primitives.debug : Primitives := { Primitives.standard with debugAssertions := true }

/-- **The standard primitives are lawful.** -/
theorem Primitives.standard_lawful : Primitives.standard.Lawful := ⟨Aes.decrypt_encrypt⟩

theorem Primitives.debug_lawful : Primitives.debug.Lawful := ⟨Aes.decrypt_encrypt⟩

end Ntag424
