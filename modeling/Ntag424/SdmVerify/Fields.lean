import Mathlib.Tactic.Common
import Ntag424.Crypto
import Ntag424.FileSettings.Sdm
import Ntag424.Lib.Hex
import Ntag424.Lib.Outcome

/-!
# Fields of an SDM Readout

What the verifier computes from single fields of a readout: hexadecimal placeholders
(`crypto/sdm/hex.rs`), the decrypted PICCData block (`crypto/sdm/picc.rs`) and the session
keys with the MAC check (`crypto/sdm/keys.rs`).

## Main results

* `decodeHexBytes_eq_ok_iff`, `decodeHexArray_eq_ok_iff`: a placeholder inside the buffer
  decodes exactly when its text is hexadecimal, to the bytes the text encodes.
* `decodeHexArray_of_slice`: a placeholder that holds the text of some bytes decodes to them.
-/

namespace Ntag424

open Outcome

/-- Errors of SDM verification (`crypto/sdm/verifier.rs`). -/
inductive SdmError where
  | macMismatch
  | ndefTooShort (needed have' : ℕ)
  | invalidHex (offset : ℕ)
  | invalidPiccDataTag (tag : UInt8)
  | invalidConfiguration (msg : String)
deriving DecidableEq, Repr

/-! ### Hexadecimal placeholders -/

/-- `hex_nibble`. -/
def hexNibble (b : UInt8) (offset : ℕ) : Except SdmError UInt8 :=
  if 0x30 ≤ b ∧ b ≤ 0x39 then .ok (b - 0x30)
  else if 0x41 ≤ b ∧ b ≤ 0x46 then .ok (b - 0x41 + 10)
  else if 0x61 ≤ b ∧ b ≤ 0x66 then .ok (b - 0x61 + 10)
  else .error (.invalidHex offset)

/-- The decoding loop shared by `decode_hex_array` and `decode_hex_into`: `n` bytes from the
text at `offset` on. Reading past the buffer panics. -/
def decodeHexBytes (data : List UInt8) (offset : ℕ) : ℕ → Outcome SdmError (List UInt8)
  | 0 => .ok []
  | n + 1 => do
      let hi ← index data offset
      let hi ← ofExcept (hexNibble hi offset)
      let lo ← index data (offset + 1)
      let lo ← ofExcept (hexNibble lo (offset + 1))
      let rest ← decodeHexBytes data (offset + 2) n
      return (hi <<< 4 ||| lo) :: rest

/-- `decode_hex_array::<N>`. -/
def decodeHexArray (n : ℕ) (data : List UInt8) (offset : ℕ) : Outcome SdmError (Bytes n) := do
  let bs ← decodeHexBytes data offset n
  return Bytes.fill n bs

/-- `decode_hex_into` for an output slice of `n` bytes. -/
def decodeHexInto (n : ℕ) (data : List UInt8) (offset : ℕ) : Outcome SdmError (List UInt8) :=
  decodeHexBytes data offset n

/-- `ensure_len`. -/
def ensureLen (data : List UInt8) (needed : ℕ) : Except SdmError Unit :=
  if data.length < needed then .error (.ndefTooShort needed data.length) else .ok ()

theorem hexNibble_eq_ok_iff {b v : UInt8} {offset : ℕ} :
    hexNibble b offset = .ok v ↔ Hex.digitVal? b = some v := by
  unfold hexNibble Hex.digitVal?
  split
  · simp
  · split
    · simp
    · split <;> simp

theorem ensureLen_eq_ok_iff {data : List UInt8} {needed : ℕ} {u : Unit} :
    ensureLen data needed = .ok u ↔ needed ≤ data.length := by
  unfold ensureLen
  split
  · simp
    omega
  · simp
    omega

/-- The text of a window with at least two characters. -/
theorem slice_succ_succ {data : List UInt8} {offset n : ℕ} {hi lo : UInt8}
    (hhi : data[offset]? = some hi) (hlo : data[offset + 1]? = some lo) :
    slice data offset (2 * (n + 1)) = hi :: lo :: slice data (offset + 2) (2 * n) := by
  have h₀ : data.drop offset = hi :: data.drop (offset + 1) := by
    obtain ⟨h, rfl⟩ := List.getElem?_eq_some_iff.mp hhi
    exact List.drop_eq_getElem_cons h
  have h₁ : data.drop (offset + 1) = lo :: data.drop (offset + 2) := by
    obtain ⟨h, rfl⟩ := List.getElem?_eq_some_iff.mp hlo
    exact List.drop_eq_getElem_cons h
  rw [slice, h₀, h₁, Nat.mul_succ]
  rfl

/-- **A placeholder decodes exactly when its text is hexadecimal**, to the encoded bytes. -/
theorem decodeHexBytes_eq_ok_iff {data bs : List UInt8} {offset n : ℕ}
    (h : offset + 2 * n ≤ data.length) :
    decodeHexBytes data offset n = .ok bs ↔ Hex.decode? (slice data offset (2 * n)) = some bs := by
  induction n generalizing offset bs with
  | zero => simp [decodeHexBytes, slice, Hex.decode?]
  | succ n ih =>
      have hhi : data[offset]? = some data[offset] := List.getElem?_eq_getElem (by omega)
      have hlo : data[offset + 1]? = some data[offset + 1] := List.getElem?_eq_getElem (by omega)
      have hrest {tail : List UInt8} : decodeHexBytes data (offset + 2) n = .ok tail ↔
          Hex.decode? (slice data (offset + 2) (2 * n)) = some tail := ih (by omega)
      rw [slice_succ_succ hhi hlo]
      simp only [decodeHexBytes, Hex.decode?, Except.bind_eq_ok_iff, index_eq_ok_iff,
        ofExcept_eq_ok_iff, hexNibble_eq_ok_iff, Except.pure_eq_ok_iff, hhi, hlo, Option.some.injEq,
        exists_eq_left', hrest, Option.bind_eq_bind, Option.bind_eq_some_iff, Option.pure_def]

theorem decodeHexArray_eq_ok_iff {data : List UInt8} {offset n : ℕ} {a : Bytes n}
    (h : offset + 2 * n ≤ data.length) :
    decodeHexArray n data offset = .ok a ↔
      Hex.decode? (slice data offset (2 * n)) = some a.toList := by
  rw [← decodeHexBytes_eq_ok_iff h, decodeHexArray, Except.bind_eq_ok_iff]
  constructor
  · rintro ⟨bs, hbs, ha⟩
    have hlen : bs.length = n := by
      have := Hex.length_of_decode? ((decodeHexBytes_eq_ok_iff h).mp hbs)
      rw [length_slice h] at this
      omega
    rw [← Except.pure_eq_ok_iff.mp ha, Bytes.toList_fill_of_length hlen]
    exact hbs
  · intro hbs
    exact ⟨_, hbs, by rw [Bytes.fill_toList]; rfl⟩

/-- A placeholder that holds the hexadecimal text of `a` decodes to `a`. -/
theorem decodeHexArray_of_slice {data : List UInt8} {offset n : ℕ} {a : Bytes n}
    (h : offset + 2 * n ≤ data.length) (hs : slice data offset (2 * n) = Hex.encode a.toList) :
    decodeHexArray n data offset = .ok a :=
  (decodeHexArray_eq_ok_iff h).mpr (by rw [hs, Hex.decode?_encode])

/-! ### PICCData -/

/-- Decrypted PICCData fields. -/
structure ParsedPiccData where
  uid : Option (Bytes 7)
  readCtr : Option (Bytes 3)
deriving DecidableEq, Repr

/-- `parse_picc_data_tag`. -/
def parsePiccDataTag (plain : Block) : Except SdmError ParsedPiccData :=
  let tag := plain.byte 0
  let uidPresent := tag &&& 0x80 ≠ 0
  let ctrPresent := tag &&& 0x40 ≠ 0
  let uidLen := tag &&& 0x0F
  if uidPresent ∧ uidLen ≠ 7 then .error (.invalidPiccDataTag tag)
  else
    let off := if uidPresent then 8 else 1
    .ok
      { uid := if uidPresent then some (Bytes.fill 7 (slice plain.toList 1 7)) else none
        readCtr := if ctrPresent then some (Bytes.fill 3 (slice plain.toList off 3)) else none }

/-- `decrypt_picc_data_aes`. -/
def decryptPiccDataAes (P : Primitives) (key : Key) (enc : Block) :
    Except SdmError ParsedPiccData :=
  parsePiccDataTag (aesCbcDecryptN P key (Bytes.zeros 16) enc)

/-- `decrypt_picc_data_lrp`: the wire format is `PICCRand (8) || ciphertext (16)`, and
`PICCRand` is the LRICB counter. -/
def decryptPiccDataLrp (P : Primitives) (key : Key) (wire : Bytes 24) :
    Except SdmError ParsedPiccData :=
  let counter := slice wire.toList 0 8
  let plain := slice wire.toList 8 16
  match (Lrp.fromBaseKey P key).lricbDecryptInPlace P counter plain with
  | none => .error (.invalidConfiguration "PICCData LRICB decryption failed")
  | some (_, plain) => parsePiccDataTag (Bytes.fill 16 plain)

/-! ### Session keys and MAC -/

/-- SDM session keys. -/
inductive SdmKeys where
  | aes (encKey macKey : Key)
  | lrp (enc mac : Lrp)

/-- The truncated MAC of a session over some data. -/
def SdmKeys.computeMac (P : Primitives) (keys : SdmKeys) (data : List UInt8) : Bytes 8 :=
  match keys with
  | aes _ macKey => truncateMac (cmacAes P macKey data)
  | lrp _ mac => truncateMac (cmacLrp P mac data)

/-- `SdmKeys::verify_mac`. -/
def SdmKeys.verifyMac (P : Primitives) (keys : SdmKeys) (data : List UInt8) (expected : Bytes 8) :
    Bool :=
  keys.computeMac P data = expected

/-- UID and counter as they enter the session vectors. -/
def svFields (uid : Option (Bytes 7)) (readCtr : Option (Bytes 3)) : List UInt8 :=
  (uid.map Bytes.toList).getD [] ++ (readCtr.map Bytes.toList).getD []

/-- `derive_sdm_keys_aes`. -/
def deriveSdmKeysAes (P : Primitives) (key : Key) (uid : Option (Bytes 7))
    (readCtr : Option (Bytes 3)) : SdmKeys :=
  let buildSv (label : List UInt8) : Block :=
    Bytes.fill 16 (label ++ [0x00, 0x01, 0x00, 0x80] ++ svFields uid readCtr)
  .aes (cmacAes P key (buildSv [0xC3, 0x3C]).toList) (cmacAes P key (buildSv [0x3C, 0xC3]).toList)

/-- `derive_sdm_keys_lrp`. -/
def deriveSdmKeysLrp (P : Primitives) (key : Key) (uid : Option (Bytes 7))
    (readCtr : Option (Bytes 3)) : SdmKeys :=
  let sv := (Bytes.fill 14 ([0x00, 0x01, 0x00, 0x80] ++ svFields uid readCtr)).toList ++
    [0x1E, 0xE1]
  let master := cmacLrp P (Lrp.fromBaseKey P key) sv
  let plaintexts := generatePlaintexts P master
  .lrp (Lrp.fromParts plaintexts (generateUpdatedKeys P master 1))
    (Lrp.fromParts plaintexts (generateUpdatedKeys P master 0))

/-- The session keys of a mode. -/
def deriveSdmKeys (P : Primitives) (mode : CryptoMode) (key : Key) (uid : Option (Bytes 7))
    (readCtr : Option (Bytes 3)) : SdmKeys :=
  match mode with
  | .aes => deriveSdmKeysAes P key uid readCtr
  | .lrp => deriveSdmKeysLrp P key uid readCtr

end Ntag424
