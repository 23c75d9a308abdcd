import Mathlib.Tactic.Common
import Ntag424.SdmVerify.Fields

/-!
# The Loops over Hexadecimal Placeholders

`decode_hex_array` writes into an array of zeros by index, `decode_hex_into` over the elements of
a slice that the caller hands in and keeps, also when the decoding fails. Both read the two digits
of byte `i` at `offset + 2 * i`. The definitions here are these loops.

## Main results

* `hexArrayLoop_eq`, `hexIntoLoop_eq`: both loops decode as `decodeHexBytes` does.
* `decodeHex_spec`: both succeed exactly on digits, with the same bytes, and fail with the
  position of the first other character.
-/

namespace Ntag424

open Outcome

/-- One pass of either loop: the byte whose digits stand at `offset + 2 * i`. -/
def decodeHexByte (data : List UInt8) (offset i : ℕ) : Outcome SdmError UInt8 := do
  let hi ← index data (offset + 2 * i)
  let hi ← ofExcept (hexNibble hi (offset + 2 * i))
  let lo ← index data (offset + 2 * i + 1)
  let lo ← ofExcept (hexNibble lo (offset + 2 * i + 1))
  return hi <<< 4 ||| lo

/-- The loop of `decode_hex_array` from `i` on, with `left` passes to go. -/
def hexArrayLoop (data : List UInt8) (offset : ℕ) :
    ℕ → ℕ → List UInt8 → Outcome SdmError (List UInt8)
  | 0, _, out => .ok out
  | left + 1, i, out => do
      let b ← decodeHexByte data offset i
      hexArrayLoop data offset left (i + 1) (out.set i b)

/-- `decode_hex_array::<N>` on its array of zeros. -/
def hexArray (n : ℕ) (data : List UInt8) (offset : ℕ) : Outcome SdmError (List UInt8) :=
  hexArrayLoop data offset n 0 (List.replicate n 0)

/-- The loop of `decode_hex_into` over the elements of `out` from the `i`-th on: what it returns,
and the elements after the call. -/
def hexIntoLoop (data : List UInt8) (offset : ℕ) :
    ℕ → List UInt8 → Outcome SdmError Unit × List UInt8
  | _, [] => (.ok (), [])
  | i, byte :: out =>
      match decodeHexByte data offset i with
      | .ok b =>
          let rest := hexIntoLoop data offset (i + 1) out
          (rest.1, b :: rest.2)
      | .error e => (.error e, byte :: out)

/-- `decode_hex_into`. -/
def hexInto (out data : List UInt8) (offset : ℕ) : Outcome SdmError Unit × List UInt8 :=
  hexIntoLoop data offset 0 out

/-! ### One decoder -/

/-- The first pass of what is left to decode. -/
theorem decodeHexBytes_succ (data : List UInt8) (offset i n : ℕ) :
    decodeHexBytes data (offset + 2 * i) (n + 1) = do
      let b ← decodeHexByte data offset i
      let rest ← decodeHexBytes data (offset + 2 * (i + 1)) n
      return b :: rest := by
  simp only [decodeHexBytes, decodeHexByte, bind_assoc, pure_bind, Nat.mul_succ, Nat.add_assoc]

/-- The array loop decodes the remaining bytes behind those already written. -/
theorem hexArrayLoop_eq (data : List UInt8) (offset left : ℕ) {i : ℕ} {front back : List UInt8}
    (hfront : front.length = i) (hback : back.length = left) :
    hexArrayLoop data offset left i (front ++ back) =
      (decodeHexBytes data (offset + 2 * i) left).map (front ++ ·) := by
  induction left generalizing i front back with
  | zero =>
      obtain rfl := List.length_eq_zero_iff.mp hback
      rfl
  | succ left ih =>
      obtain _ | ⟨c, back⟩ := back
      · cases hback
      · rw [hexArrayLoop, decodeHexBytes_succ]
        cases decodeHexByte data offset i with
        | error e => rfl
        | ok b =>
            have hset : (front ++ c :: back).set i b = (front ++ [b]) ++ back := by
              rw [← hfront, List.set_append_right _ _ (Nat.le_refl _), Nat.sub_self,
                List.set_cons_zero, List.append_assoc, List.singleton_append]
            have hlen : (front ++ [b]).length = i + 1 := by
              rw [List.length_append, hfront, List.length_singleton]
            rw [Except.ok_bind', Except.ok_bind', hset, ih hlen (Nat.succ.inj hback)]
            cases decodeHexBytes data (offset + 2 * (i + 1)) left with
            | error e => rfl
            | ok rest => exact congrArg Except.ok (List.append_assoc front [b] rest)

/-- The loop over a slice returns what the decoder does, and writes what it decodes. -/
theorem hexIntoLoop_eq (data : List UInt8) (offset i : ℕ) (out : List UInt8) :
    (hexIntoLoop data offset i out).1 =
        (decodeHexBytes data (offset + 2 * i) out.length).map (fun _ => ()) ∧
      ∀ bs, decodeHexBytes data (offset + 2 * i) out.length = .ok bs →
        (hexIntoLoop data offset i out).2 = bs := by
  induction out generalizing i with
  | nil => exact ⟨rfl, fun bs h => Except.ok.inj h⟩
  | cons c out ih =>
      obtain ⟨hresult, hbytes⟩ := ih (i + 1)
      rw [List.length_cons, decodeHexBytes_succ, hexIntoLoop]
      cases decodeHexByte data offset i with
      | error e =>
          refine ⟨rfl, fun bs h => ?_⟩
          cases h
      | ok b =>
          cases hrest : decodeHexBytes data (offset + 2 * (i + 1)) out.length with
          | error e =>
              rw [hrest] at hresult
              refine ⟨hresult, fun bs h => ?_⟩
              cases h
          | ok rest =>
              rw [hrest] at hresult
              refine ⟨hresult, fun bs h => ?_⟩
              rw [← Except.ok.inj h]
              exact congrArg (b :: ·) (hbytes rest hrest)

/-! ### The first other character -/

/-- A digit has a nibble, and another character is reported at its position. -/
theorem hexNibble_cases (b : UInt8) (offset : ℕ) :
    (Hex.isDigit b = true ∧ ∃ v, hexNibble b offset = .ok v) ∨
      Hex.isDigit b = false ∧ hexNibble b offset = .error (.invalidHex offset) := by
  rcases Hex.digitVal?_cases b with ⟨hdigit, v, hv, -⟩ | ⟨hdigit, hnone⟩
  · exact .inl ⟨hdigit, v, hexNibble_eq_ok_iff.mpr hv⟩
  · refine .inr ⟨hdigit, ?_⟩
    unfold Hex.digitVal? at hnone
    unfold hexNibble
    split_ifs at hnone ⊢
    rfl

/-- **The first character that is no digit** is reported with its position in the buffer. -/
theorem decodeHexBytes_invalidHex {data : List UInt8} {offset n k : ℕ}
    (h : offset + 2 * n ≤ data.length)
    (hfirst : (slice data offset (2 * n)).findIdx? (fun c => !Hex.isDigit c) = some k) :
    decodeHexBytes data offset n = fail (.invalidHex (offset + k)) := by
  induction n generalizing offset k with
  | zero => cases hfirst
  | succ n ih =>
      have hhi : data[offset]? = some data[offset] := List.getElem?_eq_getElem (by omega)
      have hlo : data[offset + 1]? = some data[offset + 1] := List.getElem?_eq_getElem (by omega)
      rw [slice_succ_succ hhi hlo, List.findIdx?_cons, List.findIdx?_cons] at hfirst
      rw [decodeHexBytes, index, hhi, Except.ok_bind']
      rcases hexNibble_cases data[offset] offset with ⟨hdigit, v, hv⟩ | ⟨hdigit, herror⟩
      · rw [hv, Outcome.ofExcept, Except.ok_bind', index, hlo, Except.ok_bind']
        rw [hdigit, Bool.not_true, if_neg Bool.false_ne_true] at hfirst
        rcases hexNibble_cases data[offset + 1] (offset + 1) with ⟨hdigit, w, hw⟩ | ⟨hdigit, herror⟩
        · rw [hdigit, Bool.not_true, if_neg Bool.false_ne_true, Option.map_map,
            Option.map_eq_some_iff] at hfirst
          obtain ⟨j, hj, rfl⟩ := hfirst
          have hpos : offset + 2 + j = offset + (j + 1 + 1) := by omega
          rw [hw, Outcome.ofExcept, Except.ok_bind', ih (by omega) hj, hpos]
          rfl
        · rw [hdigit, Bool.not_false, if_pos rfl] at hfirst
          obtain rfl := Option.some.inj hfirst
          rw [herror]
          rfl
      · rw [hdigit, Bool.not_false, if_pos rfl] at hfirst
        obtain rfl := Option.some.inj hfirst
        rw [herror]
        rfl

/-- **Both loops decode hexadecimal text.** On a placeholder inside the buffer they succeed exactly
if it consists of digits of either case, with the same bytes, whose text is that of the
placeholder in upper case. Otherwise both report the position of the first other character. -/
theorem decodeHex_spec (data : List UInt8) (offset n : ℕ) (out : List UInt8)
    (hout : out.length = n) (h : offset + 2 * n ≤ data.length) :
    ((∃ bs, hexArray n data offset = .ok bs) ↔
      (slice data offset (2 * n)).all Hex.isDigit = true) ∧
    ((hexInto out data offset).1 = .ok () ↔
      (slice data offset (2 * n)).all Hex.isDigit = true) ∧
    (∀ bs, hexArray n data offset = .ok bs →
      bs.length = n ∧ hexInto out data offset = (.ok (), bs) ∧
        Hex.encode bs = (slice data offset (2 * n)).map Hex.upper) ∧
    (∀ k, (slice data offset (2 * n)).findIdx? (fun c => !Hex.isDigit c) = some k →
      hexArray n data offset = fail (.invalidHex (offset + k)) ∧
        (hexInto out data offset).1 = fail (.invalidHex (offset + k))) := by
  have harray : hexArray n data offset = decodeHexBytes data offset n := by
    rw [hexArray, ← List.nil_append (List.replicate n 0),
      hexArrayLoop_eq data offset n (@List.length_nil UInt8) List.length_replicate, Nat.mul_zero,
      Nat.add_zero]
    cases decodeHexBytes data offset n <;> rfl
  obtain ⟨hinto, hwritten⟩ := hexIntoLoop_eq data offset 0 out
  rw [Nat.mul_zero, Nat.add_zero, hout] at hinto hwritten
  have hlen : (slice data offset (2 * n)).length = 2 * n := length_slice h
  have hdigits : (∃ bs, decodeHexBytes data offset n = .ok bs) ↔
      (slice data offset (2 * n)).all Hex.isDigit = true := by
    rw [← Hex.decode?_isSome (by omega), Option.isSome_iff_exists]
    exact exists_congr fun bs => decodeHexBytes_eq_ok_iff h
  rw [harray]
  refine ⟨hdigits, ?_, fun bs hbs => ?_, fun k hk => ?_⟩
  · rw [← hdigits, hexInto, hinto]
    cases decodeHexBytes data offset n with
    | error e => simp only [Except.map, reduceCtorEq, exists_false]
    | ok bs => simp only [Except.map, Except.ok.injEq, exists_eq']
  · have hdecode := (decodeHexBytes_eq_ok_iff h).mp hbs
    have hbytes := Hex.length_of_decode? hdecode
    rw [hbs] at hinto
    exact ⟨by omega, Prod.ext hinto (hwritten bs hbs), Hex.encode_of_decode? hdecode⟩
  · have herror := decodeHexBytes_invalidHex h hk
    rw [herror] at hinto ⊢
    exact ⟨rfl, hinto⟩

/-- Two bytes in mixed case behind three other characters. -/
theorem decodeHex_spec_mixed :
    ((∃ bs, hexArray 2 [0x3F, 0x65, 0x3D, 0x30, 0x61, 0x42, 0x66] 3 = .ok bs) ↔
      (slice [0x3F, 0x65, 0x3D, 0x30, 0x61, 0x42, 0x66] 3 (2 * 2)).all Hex.isDigit = true) :=
  (decodeHex_spec [0x3F, 0x65, 0x3D, 0x30, 0x61, 0x42, 0x66] 3 2 [0, 0] rfl (by decide)).1

end Ntag424
