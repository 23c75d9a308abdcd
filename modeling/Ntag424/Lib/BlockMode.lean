import Mathlib.Data.List.Basic
import Mathlib.Logic.Function.Iterate
import Mathlib.Tactic.Common
import Ntag424.Lib.Bytes

/-!
# Block Modes

Two modes of operation over an arbitrary block type, and the split of a byte string into
blocks that carries them over to buffers.

* `cbcEncrypt`/`cbcDecrypt` chain every block with the previous ciphertext block.
* `ctrMap` processes block `i` under the `i`-th successor of a counter and returns the
  counter it stopped at.
* `toBlocks`/`ofBlocks` pass between a byte string and its whole blocks.

## Main results

* `cbcDecrypt_cbcEncrypt`: decryption inverts encryption from the same initial vector.
* `ctrMap_inverse`: counter mode is inverted blockwise, from the same counter.
* `ctrMap_snd`, `ctrMap_append`: the counter advances by one step for each block, so
  processing a concatenation is processing its parts one after the other.
* `toBlocks_ofBlocks`, `ofBlocks_toBlocks`: the split is a bijection on whole blocks.
-/

namespace BlockMode

/-! ### Cipher block chaining -/

section Cbc

variable {β : Type*} (mix : β → β → β) (enc dec : β → β)

/-- CBC encryption: each block is mixed with the previous ciphertext block first. -/
def cbcEncrypt (iv : β) : List β → List β
  | [] => []
  | p :: ps =>
      let c := enc (mix p iv)
      c :: cbcEncrypt c ps

/-- CBC decryption. -/
def cbcDecrypt (iv : β) : List β → List β
  | [] => []
  | c :: cs => mix (dec c) iv :: cbcDecrypt c cs

@[simp] theorem length_cbcEncrypt (iv : β) (ps : List β) :
    (cbcEncrypt mix enc iv ps).length = ps.length := by
  induction ps generalizing iv with
  | nil => rfl
  | cons p ps ih => simp only [cbcEncrypt, List.length_cons, ih]

@[simp] theorem length_cbcDecrypt (iv : β) (cs : List β) :
    (cbcDecrypt mix dec iv cs).length = cs.length := by
  induction cs generalizing iv with
  | nil => rfl
  | cons c cs ih => simp only [cbcDecrypt, List.length_cons, ih]

variable {mix enc dec}

/-- **CBC decryption inverts CBC encryption**, for an invertible block function and a mixing
operation that cancels itself. -/
theorem cbcDecrypt_cbcEncrypt (hmix : ∀ a b, mix (mix a b) b = a) (hdec : ∀ b, dec (enc b) = b)
    (iv : β) (ps : List β) : cbcDecrypt mix dec iv (cbcEncrypt mix enc iv ps) = ps := by
  induction ps generalizing iv with
  | nil => rfl
  | cons p ps ih => simp only [cbcEncrypt, cbcDecrypt, hdec, hmix, ih]

end Cbc

/-! ### Counter mode -/

section Ctr

variable {γ β : Type*} (next : γ → γ) (f : γ → β → β)

/-- Process the blocks one by one, each under its own counter; the second component is the
counter after the last block. -/
def ctrMap (c : γ) : List β → List β × γ
  | [] => ([], c)
  | b :: bs =>
      let r := ctrMap (next c) bs
      (f c b :: r.1, r.2)

@[simp] theorem length_ctrMap (c : γ) (bs : List β) :
    (ctrMap next f c bs).1.length = bs.length := by
  induction bs generalizing c with
  | nil => rfl
  | cons b bs ih => simp only [ctrMap, List.length_cons, ih]

/-- The counter advances by one step for each block. -/
@[simp] theorem ctrMap_snd (c : γ) (bs : List β) :
    (ctrMap next f c bs).2 = next^[bs.length] c := by
  induction bs generalizing c with
  | nil => rfl
  | cons b bs ih => simp only [ctrMap, List.length_cons, ih, Function.iterate_succ_apply]

/-- Processing a concatenation processes the second part from where the first one stopped. -/
theorem ctrMap_append (c : γ) (xs ys : List β) :
    (ctrMap next f c (xs ++ ys)).1 =
      (ctrMap next f c xs).1 ++ (ctrMap next f (next^[xs.length] c) ys).1 := by
  induction xs generalizing c with
  | nil => rfl
  | cons x xs ih =>
      simp only [List.cons_append, ctrMap, ih, List.length_cons, Function.iterate_succ_apply]

/-- Block `i` is processed under the `i`-th successor of the counter. -/
theorem getElem?_ctrMap (c : γ) (bs : List β) (i : ℕ) :
    (ctrMap next f c bs).1[i]? = bs[i]?.map (f (next^[i] c)) := by
  induction bs generalizing c i with
  | nil => rfl
  | cons b bs ih =>
      cases i with
      | zero => rfl
      | succ i =>
          simp only [ctrMap, List.getElem?_cons_succ, ih, Function.iterate_succ_apply]

variable {next f}

/-- **Counter mode is inverted blockwise**, starting from the same counter. -/
theorem ctrMap_inverse {g : γ → β → β} (hg : ∀ c b, g c (f c b) = b) (c : γ) (bs : List β) :
    (ctrMap next g c (ctrMap next f c bs).1).1 = bs := by
  induction bs generalizing c with
  | nil => rfl
  | cons b bs ih => simp only [ctrMap, hg, ih]

end Ctr

/-! ### Splitting a byte string into blocks -/

section Blocks

/-- The first `k` blocks of 16 bytes. -/
def takeBlocks : ℕ → List UInt8 → List (Bytes 16)
  | 0, _ => []
  | k + 1, l => Bytes.fill 16 l :: takeBlocks k (l.drop 16)

/-- The whole 16-byte blocks of a byte string. -/
def toBlocks (l : List UInt8) : List (Bytes 16) := takeBlocks (l.length / 16) l

/-- The concatenation of blocks. -/
def ofBlocks : List (Bytes 16) → List UInt8
  | [] => []
  | b :: bs => b.toList ++ ofBlocks bs

@[simp] theorem length_takeBlocks (k : ℕ) (l : List UInt8) : (takeBlocks k l).length = k := by
  induction k generalizing l with
  | zero => rfl
  | succ k ih => simp only [takeBlocks, List.length_cons, ih]

@[simp] theorem length_toBlocks (l : List UInt8) : (toBlocks l).length = l.length / 16 :=
  length_takeBlocks _ _

@[simp] theorem length_ofBlocks (bs : List (Bytes 16)) :
    (ofBlocks bs).length = 16 * bs.length := by
  induction bs with
  | nil => rfl
  | cons b bs ih =>
      simp only [ofBlocks, List.length_append, Bytes.length_toList, ih, List.length_cons]
      omega

@[simp] theorem ofBlocks_append (xs ys : List (Bytes 16)) :
    ofBlocks (xs ++ ys) = ofBlocks xs ++ ofBlocks ys := by
  induction xs with
  | nil => rfl
  | cons x xs ih => simp only [List.cons_append, ofBlocks, ih, List.append_assoc]

/-- Splitting a concatenation of blocks gives the blocks back. -/
@[simp] theorem toBlocks_ofBlocks (bs : List (Bytes 16)) : toBlocks (ofBlocks bs) = bs := by
  rw [toBlocks, length_ofBlocks, Nat.mul_div_cancel_left _ (by decide)]
  induction bs with
  | nil => rfl
  | cons b bs ih =>
      have hfill : Bytes.fill 16 (b.toList ++ ofBlocks bs) = b := by
        apply Bytes.ext
        simp only [Bytes.fill]
        rw [List.takeD_eq_take _ (by simp), List.take_left' b.length_toList]
      have hdrop : (b.toList ++ ofBlocks bs).drop 16 = ofBlocks bs :=
        List.drop_left' b.length_toList
      simp only [List.length_cons, takeBlocks, ofBlocks, hfill, hdrop, ih]

/-- A byte string of whole blocks is the concatenation of its blocks. -/
theorem ofBlocks_toBlocks {l : List UInt8} (h : l.length % 16 = 0) :
    ofBlocks (toBlocks l) = l := by
  obtain ⟨k, hk⟩ : ∃ k, l.length = 16 * k := ⟨l.length / 16, by omega⟩
  rw [toBlocks, show l.length / 16 = k by omega]
  induction k generalizing l with
  | zero =>
      obtain rfl : l = [] := List.length_eq_zero_iff.mp hk
      rfl
  | succ k ih =>
      have hfill : (Bytes.fill 16 l).toList = l.take 16 := by
        simp only [Bytes.fill]
        exact List.takeD_eq_take _ (by omega)
      have hlen : (l.drop 16).length = 16 * k := by
        rw [List.length_drop]
        omega
      simp only [takeBlocks, ofBlocks, hfill, ih (by omega) hlen, List.take_append_drop]

/-- The blocks of a concatenation, behind whole blocks. -/
theorem toBlocks_append {x y : List UInt8} (hx : x.length % 16 = 0) (hy : y.length % 16 = 0) :
    toBlocks (x ++ y) = toBlocks x ++ toBlocks y := by
  rw [← ofBlocks_toBlocks hx, ← ofBlocks_toBlocks hy, ← ofBlocks_append, toBlocks_ofBlocks,
    toBlocks_ofBlocks, toBlocks_ofBlocks]

/-- A buffer operation on whole blocks, refusing the empty and the unaligned buffer. -/
def onBlocks (g : List (Bytes 16) → List (Bytes 16)) (buf : List UInt8) : Option (List UInt8) :=
  if buf = [] ∨ buf.length % 16 ≠ 0 then none else some (ofBlocks (g (toBlocks buf)))

theorem onBlocks_eq_none_iff {g : List (Bytes 16) → List (Bytes 16)} {buf : List UInt8} :
    onBlocks g buf = none ↔ buf = [] ∨ buf.length % 16 ≠ 0 := by
  rw [onBlocks]
  split
  · rename_i h
    exact iff_of_true rfl h
  · rename_i h
    exact iff_of_false (by rintro ⟨⟩) h

theorem onBlocks_of_aligned {g : List (Bytes 16) → List (Bytes 16)} {buf : List UInt8}
    (h₀ : buf ≠ []) (h : buf.length % 16 = 0) :
    onBlocks g buf = some (ofBlocks (g (toBlocks buf))) := by
  rw [onBlocks, if_neg (by simp [h₀, h])]

/-- Two buffer operations invert each other if their block operations do. -/
theorem onBlocks_onBlocks {g g' : List (Bytes 16) → List (Bytes 16)} {buf : List UInt8}
    (hg : ∀ bs, g' (g bs) = bs) (hlen : ∀ bs, (g bs).length = bs.length) (h₀ : buf ≠ [])
    (h : buf.length % 16 = 0) : (onBlocks g buf).bind (onBlocks g') = some buf := by
  have hpos : 0 < buf.length := List.length_pos_iff.mpr h₀
  have hout : (ofBlocks (g (toBlocks buf))).length = buf.length := by
    rw [length_ofBlocks, hlen, length_toBlocks]
    omega
  rw [onBlocks_of_aligned h₀ h, Option.bind_some, onBlocks_of_aligned, toBlocks_ofBlocks, hg,
    ofBlocks_toBlocks h]
  · intro hnil
    rw [hnil] at hout
    simp only [List.length_nil] at hout
    omega
  · omega

end Blocks

end BlockMode
