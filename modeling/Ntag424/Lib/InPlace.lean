import Mathlib.Tactic.Common
import Ntag424.Lib.BlockMode

/-!
# Block Modes in Place

A loop that rewrites the whole chunks of a buffer one after the other and carries a value from
chunk to chunk: the previous ciphertext block, or a counter. On a buffer of whole blocks it does
what the block mode does on the list of blocks.

## Main results

* `chunksMut_eq`: the loop is the traversal of the blocks with the same step.
* `traverse_cbcEncrypt`, `traverse_cbcDecrypt`, `traverse_ctr`: the block modes as traversals.
-/

namespace BlockMode

section Traverse

variable {γ β : Type*}

/-- Rewrite the elements of a list from left to right, carrying a value along. -/
def traverse (step : γ → β → γ × β) (c : γ) : List β → γ × List β
  | [] => (c, [])
  | b :: bs =>
      let r := step c b
      let rest := traverse step r.1 bs
      (rest.1, r.2 :: rest.2)

/-- CBC encryption carries the ciphertext block it has just written. -/
theorem traverse_cbcEncrypt (mix : β → β → β) (enc : β → β) (iv : β) (bs : List β) :
    (traverse (fun prev b => (enc (mix b prev), enc (mix b prev))) iv bs).2 =
      cbcEncrypt mix enc iv bs := by
  induction bs generalizing iv with
  | nil => rfl
  | cons b bs ih => simp only [traverse, cbcEncrypt, ih]

/-- CBC decryption carries the ciphertext block it has just overwritten. -/
theorem traverse_cbcDecrypt (mix : β → β → β) (dec : β → β) (iv : β) (bs : List β) :
    (traverse (fun prev b => (b, mix (dec b) prev)) iv bs).2 = cbcDecrypt mix dec iv bs := by
  induction bs generalizing iv with
  | nil => rfl
  | cons b bs ih => simp only [traverse, cbcDecrypt, ih]

/-- Counter mode carries the counter. -/
theorem traverse_ctr (next : γ → γ) (f : γ → β → β) (c : γ) (bs : List β) :
    traverse (fun c b => (next c, f c b)) c bs =
      ((ctrMap next f c bs).2, (ctrMap next f c bs).1) := by
  induction bs generalizing c with
  | nil => rfl
  | cons b bs ih => simp only [traverse, ctrMap, ih]

end Traverse

section Chunks

variable {γ : Type*} (step : γ → Bytes 16 → γ × Bytes 16)

/-- The loop over `k` chunks. -/
def chunkLoop : ℕ → γ → List UInt8 → γ × List UInt8
  | 0, c, buf => (c, buf)
  | k + 1, c, buf =>
      let r := step c (Bytes.fill 16 buf)
      let rest := chunkLoop k r.1 (buf.drop 16)
      (rest.1, r.2.toList ++ rest.2)

/-- The loop over the whole chunks of a buffer; what is left at the end stays as it is. -/
def chunksMut (c : γ) (buf : List UInt8) : γ × List UInt8 :=
  chunkLoop step (buf.length / 16) c buf

theorem chunkLoop_eq (k : ℕ) (c : γ) {buf : List UInt8} (h : buf.length = 16 * k) :
    chunkLoop step k c buf =
      ((traverse step c (takeBlocks k buf)).1,
        ofBlocks (traverse step c (takeBlocks k buf)).2) := by
  induction k generalizing c buf with
  | zero =>
      obtain rfl : buf = [] := List.length_eq_zero_iff.mp h
      rfl
  | succ k ih =>
      have hlen : (buf.drop 16).length = 16 * k := by
        rw [List.length_drop]
        omega
      simp only [chunkLoop, takeBlocks, traverse, ofBlocks, ih _ hlen]

/-- **The loop is the traversal of the blocks**, for a buffer of whole blocks. -/
theorem chunksMut_eq (c : γ) {buf : List UInt8} (h : buf.length % 16 = 0) :
    chunksMut step c buf =
      ((traverse step c (toBlocks buf)).1, ofBlocks (traverse step c (toBlocks buf)).2) :=
  chunkLoop_eq step _ c (by omega)

end Chunks

end BlockMode
