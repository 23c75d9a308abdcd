import Mathlib.Algebra.Group.Int.Defs
import Mathlib.Algebra.Group.Nat.Defs
import Mathlib.Algebra.GroupWithZero.Nat
import Mathlib.Data.Fin.Basic
import Mathlib.Tactic.Common
import Ntag424.Lib.Bytes

/-!
# Fixed-Width Numerals

Numbers as byte strings of a fixed width, in both byte orders, and counters kept as digit
strings that are incremented with carry.

## Main results

* `ofLe_leBytes`, `leBytes_ofLe`: little-endian strings of `k` bytes are the numbers below
  `256 ^ k`, read modulo that bound.
* `ofBe_beBytes`, `beBytes_ofBe`: the same for big-endian strings.
* `digitsVal_incDigits`: incrementing a digit string with carry adds one, modulo the number
  of strings of its length.
-/

namespace Numerals

/-! ### Little-endian and big-endian bytes -/

/-- The `k` low bytes of a number, low byte first. -/
def leBytes : ℕ → ℕ → List UInt8
  | 0, _ => []
  | k + 1, n => UInt8.ofNat n :: leBytes k (n / 256)

/-- The number written by a byte string, low byte first. -/
def ofLe : List UInt8 → ℕ
  | [] => 0
  | b :: bs => b.toNat + 256 * ofLe bs

/-- The `k` low bytes of a number, high byte first. -/
def beBytes (k n : ℕ) : List UInt8 := (leBytes k n).reverse

/-- The number written by a byte string, high byte first. -/
def ofBe (bs : List UInt8) : ℕ := ofLe bs.reverse

@[simp] theorem length_leBytes (k n : ℕ) : (leBytes k n).length = k := by
  induction k generalizing n with
  | zero => rfl
  | succ k ih => simp only [leBytes, List.length_cons, ih]

@[simp] theorem length_beBytes (k n : ℕ) : (beBytes k n).length = k := by
  rw [beBytes, List.length_reverse, length_leBytes]

/-- A little-endian string of bytes is a number of as many bytes. -/
theorem ofLe_lt (bs : List UInt8) : ofLe bs < 256 ^ bs.length := by
  induction bs with
  | nil => decide
  | cons b bs ih =>
      have := b.toNat_lt
      simp only [ofLe, List.length_cons, Nat.pow_succ]
      omega

/-- A big-endian string of bytes is a number of as many bytes. -/
theorem ofBe_lt (bs : List UInt8) : ofBe bs < 256 ^ bs.length := by
  simpa only [ofBe, List.length_reverse] using ofLe_lt bs.reverse

/-- The bytes behind weigh more. -/
theorem ofLe_append (xs ys : List UInt8) :
    ofLe (xs ++ ys) = ofLe xs + 256 ^ xs.length * ofLe ys := by
  induction xs with
  | nil => simp [ofLe]
  | cons x xs ih =>
      simp only [List.cons_append, ofLe, ih, List.length_cons, Nat.pow_succ, Nat.mul_add]
      rw [Nat.mul_comm (256 ^ xs.length) 256, Nat.mul_assoc, Nat.add_assoc]

/-- Reading back a number written in `k` bytes gives it modulo `256 ^ k`. -/
@[simp] theorem ofLe_leBytes (k n : ℕ) : ofLe (leBytes k n) = n % 256 ^ k := by
  induction k generalizing n with
  | zero => simp only [leBytes, ofLe, Nat.pow_zero, Nat.mod_one]
  | succ k ih =>
      rw [leBytes, ofLe, ih, Nat.pow_succ, Nat.mul_comm (256 ^ k), Nat.mod_mul]
      simp

/-- Writing down the number read from a byte string gives the string back. -/
theorem leBytes_ofLe (bs : List UInt8) : leBytes bs.length (ofLe bs) = bs := by
  induction bs with
  | nil => rfl
  | cons b bs ih =>
      have hb := b.toNat_lt
      have hmod : UInt8.ofNat (b.toNat + 256 * ofLe bs) = b := by
        apply UInt8.toNat_inj.mp
        simp
      have hdiv : (b.toNat + 256 * ofLe bs) / 256 = ofLe bs := by omega
      simp only [List.length_cons, ofLe, leBytes, hmod, hdiv, ih]

@[simp] theorem ofBe_beBytes (k n : ℕ) : ofBe (beBytes k n) = n % 256 ^ k := by
  rw [ofBe, beBytes, List.reverse_reverse, ofLe_leBytes]

/-- A big-endian string is written back from its number. -/
theorem beBytes_ofBe (bs : List UInt8) : beBytes bs.length (ofBe bs) = bs := by
  have := leBytes_ofLe bs.reverse
  rw [List.length_reverse] at this
  rw [beBytes, ofBe, this, List.reverse_reverse]

/-- Two numbers have the same `k` low bytes exactly when they agree modulo `256 ^ k`. -/
theorem leBytes_eq_iff {k m n : ℕ} : leBytes k m = leBytes k n ↔ m % 256 ^ k = n % 256 ^ k := by
  constructor
  · intro h
    rw [← ofLe_leBytes, ← ofLe_leBytes, h]
  · intro h
    have hm := leBytes_ofLe (leBytes k m)
    have hn := leBytes_ofLe (leBytes k n)
    rw [length_leBytes, ofLe_leBytes] at hm hn
    rw [← hm, ← hn, h]

/-- Writing a number keeps its low bytes. -/
theorem leBytes_mod (k n : ℕ) : leBytes k (n % 256 ^ k) = leBytes k n :=
  leBytes_eq_iff.mpr (Nat.mod_mod _ _)

/-- Writing a number keeps its low bytes. -/
theorem beBytes_mod (k n : ℕ) : beBytes k (n % 256 ^ k) = beBytes k n := by
  rw [beBytes, beBytes, leBytes_mod]

/-! ### Digit strings -/

section Digits

variable {b : ℕ}

/-- The number a digit string writes, least significant digit first. -/
def digitsVal : List (Fin b) → ℕ
  | [] => 0
  | d :: ds => d.val + b * digitsVal ds

/-- Increment with carry, least significant digit first. A string of largest digits wraps to
zero. -/
def incDigits [NeZero b] : List (Fin b) → List (Fin b)
  | [] => []
  | d :: ds => if d.val + 1 = b then 0 :: incDigits ds else (d + 1) :: ds

@[simp] theorem length_incDigits [NeZero b] (ds : List (Fin b)) :
    (incDigits ds).length = ds.length := by
  induction ds with
  | nil => rfl
  | cons d ds ih =>
      unfold incDigits
      split
      · simp only [List.length_cons, ih]
      · rfl

/-- A string of digits is a number of as many digits. -/
theorem digitsVal_lt (ds : List (Fin b)) : digitsVal ds < b ^ ds.length := by
  induction ds with
  | nil => simp [digitsVal]
  | cons d ds ih =>
      have hd := d.isLt
      calc d.val + b * digitsVal ds < b * (digitsVal ds + 1) := by rw [Nat.mul_succ]; omega
        _ ≤ b * b ^ ds.length := Nat.mul_le_mul_left b ih
        _ = b ^ (ds.length + 1) := by rw [Nat.pow_succ, Nat.mul_comm]

/-- **Incrementing adds one**, modulo the number of digit strings of that length. -/
theorem digitsVal_incDigits [NeZero b] (ds : List (Fin b)) :
    digitsVal (incDigits ds) = (digitsVal ds + 1) % b ^ ds.length := by
  induction ds with
  | nil => simp [incDigits, digitsVal]
  | cons d ds ih =>
      have hb : 0 < b := Nat.pos_of_ne_zero (NeZero.ne b)
      simp only [List.length_cons, Nat.pow_succ, Nat.mul_comm (b ^ ds.length) b]
      unfold incDigits
      split
      · rename_i hd
        have hsum : d.val + b * digitsVal ds + 1 = b * (digitsVal ds + 1) := by
          rw [Nat.mul_succ]
          omega
        simp only [digitsVal, ih, hsum, Nat.mul_mod_mul_left]
        simp
      · rename_i hd
        have hlt : d.val + 1 < b := by omega
        have hval : (d + 1).val = d.val + 1 := by
          rw [Fin.val_add, Fin.val_one', Nat.add_mod_mod, Nat.mod_eq_of_lt hlt]
        have hbound : d.val + b * digitsVal ds + 1 < b * b ^ ds.length := by
          have hle : b * (digitsVal ds + 1) ≤ b * b ^ ds.length :=
            Nat.mul_le_mul_left b (digitsVal_lt ds)
          rw [Nat.mul_succ] at hle
          omega
        simp only [digitsVal, hval]
        rw [Nat.mod_eq_of_lt hbound]
        omega

/-- The digits behind weigh more. -/
theorem digitsVal_append (xs ys : List (Fin b)) :
    digitsVal (xs ++ ys) = digitsVal xs + b ^ xs.length * digitsVal ys := by
  induction xs with
  | nil => simp [digitsVal]
  | cons x xs ih =>
      simp only [List.cons_append, digitsVal, ih, List.length_cons, Nat.pow_succ, Nat.mul_add]
      rw [Nat.mul_comm (b ^ xs.length) b, Nat.mul_assoc, Nat.add_assoc]

/-- A digit string of known length is determined by its value. -/
theorem digitsVal_injective {ds es : List (Fin b)} (hlen : ds.length = es.length)
    (h : digitsVal ds = digitsVal es) : ds = es := by
  induction ds generalizing es with
  | nil =>
      cases es with
      | nil => rfl
      | cons e es => cases hlen
  | cons d ds ih =>
      cases es with
      | nil => cases hlen
      | cons e es =>
          simp only [digitsVal] at h
          have hd : d.val = e.val := by
            have := congrArg (· % b) h
            simpa [Nat.add_mul_mod_self_left, Nat.mod_eq_of_lt d.isLt, Nat.mod_eq_of_lt e.isLt]
              using this
          have hds : digitsVal ds = digitsVal es := by
            have hb : 0 < b := Nat.zero_lt_of_lt d.isLt
            have : b * digitsVal ds = b * digitsVal es := by omega
            exact Nat.eq_of_mul_eq_mul_left hb this
          rw [Fin.ext hd, ih (by simpa using hlen) hds]

end Digits

end Numerals
