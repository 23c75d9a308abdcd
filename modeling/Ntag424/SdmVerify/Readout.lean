import Mathlib.Tactic.Common
import Ntag424.FileSettings.Layout
import Ntag424.SdmVerify.Verifier

/-!
# Genuine Readouts

What a tag writes into the placeholders of its NDEF file when it is read, as the crate
documents it: UID and counter as upper-case hexadecimal text (the counter most significant
byte first), the encrypted PICCData block `tag || UID || counter`, the tamper status as two
characters, the first half of the encrypted range as session-encrypted text over the whole
range, and the MAC over the final bytes of the MAC window.

This is the tag's side: the verifier does not call any of it. Only the session keys are the
ones of `SdmKeys`, since the documentation gives no second description of them.

## Main results

* `decryptPiccDataAes_encrypt`, `decryptPiccDataLrp_encrypt`: decrypting an encrypted
  PICCData block recovers what it was built for.
* `decryptFileData_encryptFileData`: session decryption inverts session encryption.
* `ReadoutParams.readout`: the filled file.
-/

namespace Ntag424

open BlockMode

/-- The values a tag mirrors at one read. The counter is least significant byte first. -/
structure TagValues where
  uid : Bytes 7
  readCtr : Bytes 3
  ttPerm : UInt8
  ttCurr : UInt8

/-- A 16-byte PICCData block announces and carries exactly the configured content. Unused
bits and the padding are arbitrary. -/
def IsPiccBlock (content : EncryptedContent) (t : TagValues) (block : Block) : Prop :=
  ∃ tag pad,
    block.toList = tag :: ((if content.includesUid then t.uid.toList else []) ++
      (if content.includesRctr then t.readCtr.toList else []) ++ pad) ∧
    (tag &&& 0x80 ≠ 0 ↔ content.includesUid = true) ∧
    (tag &&& 0x40 ≠ 0 ↔ content.includesRctr = true) ∧
    (content.includesUid = true → tag &&& 0x0F = 7)

/-- The PICCDataTag byte of a content: bit 7 announces the UID, bit 6 the counter, and the low
nibble is the length of the UID. -/
def piccDataTag (content : EncryptedContent) : UInt8 :=
  (if content.includesUid then 0x87 else 0) ||| (if content.includesRctr then 0x40 else 0)

/-- The PICCData block of a content, padded with zeros. -/
def piccDataBlock (content : EncryptedContent) (t : TagValues) : Block :=
  Bytes.fill 16 (piccDataTag content :: ((if content.includesUid then t.uid.toList else []) ++
    (if content.includesRctr then t.readCtr.toList else [])))

/-- The UID the readout carries. -/
def TagValues.mirroredUid (t : TagValues) (p : PiccData) : Option (Bytes 7) :=
  if p.includesUid then some t.uid else none

/-- The counter the readout carries. -/
def TagValues.mirroredCtr (t : TagValues) (p : PiccData) : Option (Bytes 3) :=
  if p.includesRctr then some t.readCtr else none

/-! ### Encryption on the tag -/

section Encryption

variable (P : Primitives)

/-- The encrypted PICCData blob. In LRP mode the random `PICCRand` is its counter. -/
def encryptPiccData (mode : CryptoMode) (key : Key) (rand : Bytes 8) (block : Block) :
    List UInt8 :=
  match mode with
  | .aes => (aesCbcEncryptN P key (Bytes.zeros 16) block).toList
  | .lrp =>
      rand.toList ++ (((Lrp.fromBaseKey P key).lricbEncryptInPlace P rand.toList
        block.toList).map Prod.snd).getD []

/-- Session encryption of file data. -/
def encryptFileData (keys : SdmKeys) (readCtr : Option (Bytes 3)) (plain : List UInt8) :
    List UInt8 :=
  let ctr := (readCtr.getD (Bytes.zeros 3)).toList
  match keys with
  | .aes encKey _ =>
      (aesCbcEncrypt P encKey (P.aesEncrypt encKey (Bytes.fill 16 ctr)) plain).getD []
  | .lrp enc _ => ((enc.lricbEncryptInPlace P (Bytes.fill 6 ctr).toList plain).map Prod.snd).getD []

variable {P}

/-- The zero-padded block is a PICCData block of its content. -/
theorem isPiccBlock_piccDataBlock (content : EncryptedContent) (t : TagValues) :
    IsPiccBlock content t (piccDataBlock content t) := by
  have hfill (l : List UInt8) (h : l.length ≤ 16) :
      (Bytes.fill 16 l).toList = l ++ List.replicate (16 - l.length) 0 :=
    Bytes.toList_fill_of_le h
  refine ⟨piccDataTag content, _, hfill _ ?_, ?_, ?_, ?_⟩
  · cases content <;> simp [EncryptedContent.includesUid, EncryptedContent.includesRctr]
  · cases content <;>
      simp [piccDataTag, EncryptedContent.includesUid, EncryptedContent.includesRctr] <;> decide
  · cases content <;>
      simp [piccDataTag, EncryptedContent.includesUid, EncryptedContent.includesRctr] <;> decide
  · cases content <;>
      simp [piccDataTag, EncryptedContent.includesUid, EncryptedContent.includesRctr] <;> decide

/-- Parsing a PICCData block recovers the values it was built for. -/
theorem parsePiccDataTag_of_isPiccBlock {content : EncryptedContent} {t : TagValues}
    {block : Block} (h : IsPiccBlock content t block) :
    parsePiccDataTag block =
      .ok ⟨if content.includesUid then some t.uid else none,
        if content.includesRctr then some t.readCtr else none⟩ := by
  obtain ⟨tag, pad, hblock, huid, hctr, hlen⟩ := h
  have htag : block.byte 0 = tag := by rw [Bytes.byte, hblock]; rfl
  unfold parsePiccDataTag
  rw [htag]
  simp only [huid, hctr]
  cases content with
  | uid =>
      have hs : slice block.toList 1 7 = t.uid.toList := by
        rw [hblock, slice, List.drop_succ_cons]
        simp [EncryptedContent.includesUid, EncryptedContent.includesRctr,
          List.take_left' t.uid.length_toList]
      have h7 := hlen rfl
      simp [EncryptedContent.includesUid, EncryptedContent.includesRctr, h7, hs]
  | rCtr f =>
      have hs : slice block.toList 1 3 = t.readCtr.toList := by
        rw [hblock, slice, List.drop_succ_cons]
        simp [EncryptedContent.includesUid, EncryptedContent.includesRctr,
          List.take_left' t.readCtr.length_toList]
      simp [EncryptedContent.includesUid, EncryptedContent.includesRctr, hs]
  | both f =>
      have hs : slice block.toList 1 7 = t.uid.toList := by
        rw [hblock, slice, List.drop_succ_cons]
        simp [EncryptedContent.includesUid, EncryptedContent.includesRctr,
          List.take_left' t.uid.length_toList]
      have hc : slice block.toList 8 3 = t.readCtr.toList := by
        rw [hblock, slice, List.drop_succ_cons]
        simp [EncryptedContent.includesUid, EncryptedContent.includesRctr,
          List.drop_left' t.uid.length_toList, List.take_left' t.readCtr.length_toList]
      have h7 := hlen rfl
      simp [EncryptedContent.includesUid, EncryptedContent.includesRctr, h7, hs, hc]

/-- **Decrypting an encrypted PICCData block parses the block** (AES). -/
theorem decryptPiccDataAes_encrypt (hP : P.Lawful) (key : Key) (block : Block) :
    decryptPiccDataAes P key (aesCbcEncryptN P key (Bytes.zeros 16) block) =
      parsePiccDataTag block := by
  rw [decryptPiccDataAes, aesCbcDecryptN_aesCbcEncryptN hP _ _ _ (by decide) (by decide)]

/-- The LRP blob has 24 bytes. -/
theorem length_encryptPiccData (hP : P.Lawful) (mode : CryptoMode) (key : Key) (rand : Bytes 8)
    (block : Block) :
    2 * (encryptPiccData P mode key rand block).length = mode.piccBlobAsciiLen := by
  cases mode with
  | aes => simp [encryptPiccData, CryptoMode.piccBlobAsciiLen, piccBlobLenAes]
  | lrp =>
      obtain ⟨ct, henc, hlen, -⟩ := (Lrp.fromBaseKey P key).lricbDecrypt_lricbEncrypt hP
        (block.toList_ne_nil) (by simp) (rand.toList_ne_nil)
        (show rand.toList.length ≤ 16 by simp)
      simp [encryptPiccData, henc, hlen, CryptoMode.piccBlobAsciiLen, piccBlobLenLrp]

/-- **Decrypting an encrypted PICCData block parses the block** (LRP). -/
theorem decryptPiccDataLrp_encrypt (hP : P.Lawful) (key : Key) (rand : Bytes 8) (block : Block)
    {wire : Bytes 24} (hw : wire.toList = encryptPiccData P .lrp key rand block) :
    decryptPiccDataLrp P key wire = parsePiccDataTag block := by
  obtain ⟨ct, henc, hlen, hdec⟩ := (Lrp.fromBaseKey P key).lricbDecrypt_lricbEncrypt hP
    (block.toList_ne_nil) (by simp) (rand.toList_ne_nil)
    (show rand.toList.length ≤ 16 by simp)
  have hct : ct.length = 16 := by rw [hlen, block.length_toList]
  have hwire : wire.toList = rand.toList ++ ct := by
    rw [hw, encryptPiccData, henc]
    rfl
  have h₁ : slice wire.toList 0 8 = rand.toList := by
    rw [hwire, slice, List.drop_zero, List.take_left' rand.length_toList]
  have h₂ : slice wire.toList 8 16 = ct := by
    rw [hwire, slice, List.drop_left' rand.length_toList, List.take_of_length_le (by omega)]
  rw [decryptPiccDataLrp, h₁, h₂, hdec]
  simp

/-- **Session decryption inverts session encryption** and keeps the length. -/
theorem decryptFileData_encryptFileData (hP : P.Lawful) (keys : SdmKeys)
    (readCtr : Option (Bytes 3)) {plain : List UInt8} (h₀ : plain ≠ [])
    (h : plain.length % 16 = 0) :
    (encryptFileData P keys readCtr plain).length = plain.length ∧
      Verifier.decryptFileData P keys readCtr (encryptFileData P keys readCtr plain) =
        .ok plain := by
  cases keys with
  | aes encKey macKey =>
      obtain ⟨ct, henc, hdec⟩ := Option.bind_eq_some_iff.mp (aesCbcDecrypt_aesCbcEncrypt hP encKey
        (P.aesEncrypt encKey (Bytes.fill 16 (readCtr.getD (Bytes.zeros 3)).toList)) h₀ h)
      simp only [encryptFileData, Verifier.decryptFileData, henc, Option.getD_some, hdec, and_true]
      exact length_aesCbcEncrypt henc
  | lrp enc mac =>
      obtain ⟨ct, henc, hlen, hdec⟩ := enc.lricbDecrypt_lricbEncrypt hP h₀ h
        (Bytes.toList_ne_nil (Bytes.fill 6 (readCtr.getD (Bytes.zeros 3)).toList))
        (show _ ≤ 16 by simp)
      simp only [encryptFileData, Verifier.decryptFileData, henc, Option.map_some,
        Option.getD_some, hdec, and_true]
      exact hlen

end Encryption

/-! ### Filling the placeholders -/

/-- Everything a readout depends on: the layout and the configuration behind it, the keys, the
mirrored values, and the random parts of the PICCData blob. -/
structure ReadoutParams where
  layout : Layout
  metaKey : Key
  fileKey : Key
  values : TagValues
  piccBlock : Block
  piccRand : Bytes 8

namespace ReadoutParams

variable (P : Primitives) (q : ReadoutParams)

/-- The session keys of the read. -/
def keys : SdmKeys :=
  deriveSdmKeys P q.layout.mode q.fileKey (q.values.mirroredUid q.layout.piccData)
    (q.values.mirroredCtr q.layout.piccData)

/-- The text of a mirror. -/
def mirrorText : Placeholder → List UInt8
  | .uid => Hex.encode q.values.uid.toList
  | .readCtr => Hex.encode q.values.readCtr.toList.reverse
  | .picc => Hex.encode (encryptPiccData P q.layout.mode q.metaKey q.piccRand q.piccBlock)
  | .tamper => [q.values.ttPerm, q.values.ttCurr]
  | .mac => []
  | .enc => []

/-- The placeholders that are filled before encryption. -/
def mirrors : List Placeholder := [.uid, .readCtr, .picc, .tamper]

/-- The mirrors the layout has, with their texts. -/
def mirrorWrites : List (ℕ × List UInt8) :=
  mirrors.filterMap fun p => (q.layout.range p).map fun r => (r.1, q.mirrorText P p)

/-- The file with all mirrors filled, before encryption. -/
def plainFile (file : List UInt8) : List UInt8 := overlayAll file (q.mirrorWrites P)

/-- The plaintext half of the encrypted range, mirrors included. -/
def plainHalf (file : List UInt8) : Option (List UInt8) :=
  (q.layout.range .enc).map fun r => slice (q.plainFile P file) r.1 (r.2 / 2)

/-- The file after encryption: the text of the ciphertext covers the whole range. -/
def encryptedFile (file : List UInt8) : List UInt8 :=
  match q.layout.range .enc with
  | none => q.plainFile P file
  | some r => overlay (q.plainFile P file) r.1
      (Hex.encode (encryptFileData P (q.keys P) (q.values.mirroredCtr q.layout.piccData)
        (slice (q.plainFile P file) r.1 (r.2 / 2))))

/-- The MAC over the final bytes of the MAC window. -/
def mac (file : List UInt8) (window : MacWindow) : Bytes 8 :=
  (q.keys P).computeMac P
    (slice (q.encryptedFile P file) window.input.val (window.mac.val - window.input.val))

/-- **The readout** of a file under a MAC window. -/
def readout (file : List UInt8) (window : MacWindow) : List UInt8 :=
  overlay (q.encryptedFile P file) window.mac.val (Hex.encode (q.mac P file window).toList)

end ReadoutParams

end Ntag424
