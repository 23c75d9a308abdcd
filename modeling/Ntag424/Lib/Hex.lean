import Mathlib.Tactic.Common

/-!
# Hexadecimal Text

Byte strings as ASCII hexadecimal text: upper-case encoding, and decoding of both cases.

## Main results

* `Hex.decode?_encode`: decoding inverts encoding.
* `Hex.length_of_decode?`: decodable text has two digits for every byte.
* `Hex.encode_of_decode?`, `Hex.decode?_isSome`: what decodes is exactly the digits of either
  case, and encoding gives the text back in upper case.
-/

namespace Hex

/-- The value of a hexadecimal digit of either case. -/
def digitVal? (b : UInt8) : Option UInt8 :=
  if 0x30 ≤ b ∧ b ≤ 0x39 then some (b - 0x30)
  else if 0x41 ≤ b ∧ b ≤ 0x46 then some (b - 0x41 + 10)
  else if 0x61 ≤ b ∧ b ≤ 0x66 then some (b - 0x61 + 10)
  else none

/-- The upper-case digit of a nibble. -/
def digit (n : UInt8) : UInt8 := if n < 10 then 0x30 + n else 0x37 + n

/-- Upper-case hexadecimal text, high nibble first. -/
def encode : List UInt8 → List UInt8
  | [] => []
  | b :: bs => digit (b >>> 4) :: digit (b &&& 0xF) :: encode bs

/-- Decode hexadecimal text of either case; `none` for other characters and odd lengths. -/
def decode? : List UInt8 → Option (List UInt8)
  | [] => some []
  | [_] => none
  | hi :: lo :: rest => do
      let hi ← digitVal? hi
      let lo ← digitVal? lo
      let bs ← decode? rest
      return (hi <<< 4 ||| lo) :: bs

/-- The digits of either case. -/
def isDigit (b : UInt8) : Bool :=
  (0x30 ≤ b && b ≤ 0x39) || (0x41 ≤ b && b ≤ 0x46) || (0x61 ≤ b && b ≤ 0x66)

/-- ASCII upper case. -/
def upper (b : UInt8) : UInt8 := if 0x61 ≤ b ∧ b ≤ 0x7A then b - 0x20 else b

@[simp] theorem length_encode (bs : List UInt8) : (encode bs).length = 2 * bs.length := by
  induction bs with
  | nil => rfl
  | cons b bs ih =>
      simp only [encode, List.length_cons, ih]
      omega

/-- The two digits of a byte read back as its nibbles, which make up the byte. -/
theorem digitVal?_digit (b : UInt8) :
    digitVal? (digit (b >>> 4)) = some (b >>> 4) ∧
      digitVal? (digit (b &&& 0xF)) = some (b &&& 0xF) ∧ (b >>> 4) <<< 4 ||| (b &&& 0xF) = b := by
  have hall : ∀ n : Fin 256,
      digitVal? (digit (UInt8.ofFin n >>> 4)) = some (UInt8.ofFin n >>> 4) ∧
        digitVal? (digit (UInt8.ofFin n &&& 0xF)) = some (UInt8.ofFin n &&& 0xF) ∧
        (UInt8.ofFin n >>> 4) <<< 4 ||| (UInt8.ofFin n &&& 0xF) = UInt8.ofFin n := by
    decide +kernel
  exact hall b.toFin

/-- Hexadecimal text is ASCII. -/
theorem toNat_lt_of_mem_encode {bs : List UInt8} {d : UInt8} (h : d ∈ encode bs) :
    d.toNat < 0x80 := by
  have hall : ∀ n : Fin 256, (digit (UInt8.ofFin n >>> 4)).toNat < 0x80 ∧
      (digit (UInt8.ofFin n &&& 0xF)).toNat < 0x80 := by
    decide +kernel
  induction bs with
  | nil => cases h
  | cons b bs ih =>
      rcases List.mem_cons.mp h with rfl | h
      · exact (hall b.toFin).1
      · rcases List.mem_cons.mp h with rfl | h
        · exact (hall b.toFin).2
        · exact ih h

/-- **Decoding inverts encoding.** -/
@[simp] theorem decode?_encode (bs : List UInt8) : decode? (encode bs) = some bs := by
  induction bs with
  | nil => rfl
  | cons b bs ih =>
      obtain ⟨hhi, hlo, hb⟩ := digitVal?_digit b
      simp only [encode, decode?, hhi, hlo, ih, hb, Option.bind_eq_bind, Option.bind_some,
        Option.pure_def]

/-- Decodable text has two digits for every byte. -/
theorem length_of_decode? {text bs : List UInt8} (h : decode? text = some bs) :
    text.length = 2 * bs.length := by
  induction text using decode?.induct generalizing bs with
  | case1 =>
      cases h
      rfl
  | case2 _ => cases h
  | case3 hi lo rest ih =>
      simp only [decode?, Option.bind_eq_bind, Option.bind_eq_some_iff] at h
      obtain ⟨_, -, _, -, tail, htail, hbs⟩ := h
      obtain rfl := Option.some.inj hbs
      simp only [List.length_cons, ih htail]
      omega

/-- A digit has a value, and its value has this digit in upper case. -/
theorem digitVal?_cases (b : UInt8) :
    (isDigit b = true ∧ ∃ v, digitVal? b = some v ∧ v < 16 ∧ digit v = upper b) ∨
      isDigit b = false ∧ digitVal? b = none := by
  have hall : ∀ n : Fin 256, isDigit (UInt8.ofFin n) = (digitVal? (UInt8.ofFin n)).isSome ∧
      ∀ v ∈ digitVal? (UInt8.ofFin n), v < 16 ∧ digit v = upper (UInt8.ofFin n) := by
    decide +kernel
  obtain ⟨hdigit, hval⟩ := hall b.toFin
  rw [UInt8.ofFin_toFin] at hdigit hval
  cases hv : digitVal? b with
  | some v => exact .inl ⟨by rw [hdigit, hv, Option.isSome_some], v, rfl, hval v hv⟩
  | none => exact .inr ⟨by rw [hdigit, hv, Option.isSome_none], rfl⟩

/-- A byte made up of two nibbles splits into them. -/
theorem split_joined {hi lo : UInt8} (hhi : hi < 16) (hlo : lo < 16) :
    (hi <<< 4 ||| lo) >>> 4 = hi ∧ (hi <<< 4 ||| lo) &&& 0xF = lo := by
  have hall : ∀ a b : Fin 16, (UInt8.ofNat a.val <<< 4 ||| UInt8.ofNat b.val) >>> 4 =
      UInt8.ofNat a.val ∧
        (UInt8.ofNat a.val <<< 4 ||| UInt8.ofNat b.val) &&& 0xF = UInt8.ofNat b.val := by
    decide +kernel
  have h := hall ⟨hi.toNat, UInt8.lt_iff_toNat_lt.mp hhi⟩ ⟨lo.toNat, UInt8.lt_iff_toNat_lt.mp hlo⟩
  rw [UInt8.ofNat_toNat, UInt8.ofNat_toNat] at h
  exact h

/-- **Encoding gives decoded text back** in upper case. -/
theorem encode_of_decode? {text bs : List UInt8} (h : decode? text = some bs) :
    encode bs = text.map upper := by
  induction text using decode?.induct generalizing bs with
  | case1 =>
      cases h
      rfl
  | case2 _ => cases h
  | case3 hi lo rest ih =>
      simp only [decode?, Option.bind_eq_bind, Option.bind_eq_some_iff] at h
      obtain ⟨vhi, hhi, vlo, hlo, tail, htail, hbs⟩ := h
      obtain rfl := Option.some.inj hbs
      rcases digitVal?_cases hi with ⟨-, v, hv, hvlt, hvdigit⟩ | ⟨-, hnone⟩
      · rcases digitVal?_cases lo with ⟨-, w, hw, hwlt, hwdigit⟩ | ⟨-, hnone⟩
        · obtain rfl := Option.some.inj (hv.symm.trans hhi)
          obtain rfl := Option.some.inj (hw.symm.trans hlo)
          obtain ⟨hhigh, hlow⟩ := split_joined hvlt hwlt
          rw [encode, hhigh, hlow, hvdigit, hwdigit, ih htail]
          rfl
        · rw [hnone] at hlo
          cases hlo
      · rw [hnone] at hhi
        cases hhi

/-- **Text of even length decodes exactly when it consists of digits.** -/
theorem decode?_isSome {text : List UInt8} (heven : text.length % 2 = 0) :
    (decode? text).isSome = text.all isDigit := by
  induction text using decode?.induct with
  | case1 => rfl
  | case2 _ =>
      rw [List.length_singleton] at heven
      cases heven
  | case3 hi lo rest ih =>
      have hrest : rest.length % 2 = 0 := by
        simp only [List.length_cons] at heven
        omega
      have hlen := ih hrest
      rw [List.all_cons, List.all_cons, ← hlen]
      rcases digitVal?_cases hi with ⟨hdigit, v, hv, -⟩ | ⟨hdigit, hnone⟩
      · rcases digitVal?_cases lo with ⟨hdigit', w, hw, -⟩ | ⟨hdigit', hnone⟩
        · rw [decode?, hv, hw, hdigit, hdigit']
          cases decode? rest with
          | none => rfl
          | some bs => rfl
        · rw [decode?, hv, hnone, hdigit, hdigit']
          rfl
      · rw [decode?, hnone, hdigit]
        rfl

end Hex
