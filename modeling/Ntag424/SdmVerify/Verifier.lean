import Mathlib.Tactic.Common
import Ntag424.SdmVerify.Fields

/-!
# The SDM Verifier

The server-side verifier (`crypto/sdm/verifier.rs`): its construction from SDM settings, the
shift of its offsets, and the verification of a readout. Verification reads the identity data
at its source, derives the session keys, checks the MAC over the configured window, decrypts
the encrypted file data and reads the tamper status, in this order.

Buffer accesses that panic outside the buffer and the unsigned subtraction of the range
bounds are modelled as such, so that a result also says that none of them failed.

## Main results

* `Verifier.verifyInner_eq_ok_iff`: a verification that succeeds is the successful run of its
  five steps.
* `Verifier.extractPiccData_congr`, `Verifier.decryptEncFileData_congr`,
  `Verifier.extractTamperStatus_congr`: each step depends only on the window it reads.
-/

namespace Ntag424

open BlockMode Outcome

/-- Successfully verified SDM data. -/
structure SdmVerification where
  uid : Option (Bytes 7)
  readCtr : Option ℕ
  tamperStatus : Option TagTamperStatusReadout
  encFileData : Option (List UInt8)
deriving DecidableEq, Repr

/-- How the tag identity data is recovered from the readout. -/
inductive PiccSource where
  | encrypted (offset : ℕ)
  | plain (uidOffset readCtrOffset : Option ℕ)
  | none
deriving DecidableEq, Repr

/-- Server-side verifier. `encData` holds the start and the end of the encrypted range. -/
structure Verifier where
  mode : CryptoMode
  piccSource : PiccSource
  metaReadKey : Option KeyNumber
  fileReadKey : KeyNumber
  macInputOffset : ℕ
  macOffset : ℕ
  tamperStatusOffset : Option ℕ
  encData : Option (ℕ × ℕ)
deriving DecidableEq, Repr

/-- Bound on the decrypted file data: unauthenticated reads return at most 256 bytes. -/
def maxSdmEncFileDataBytes : ℕ := 256

/-- `u32::from_le_bytes([c[0], c[1], c[2], 0])`. -/
def ctrValue (c : Bytes 3) : ℕ := Numerals.ofLe c.toList

namespace Verifier

/-- The source of the identity data and the key it is decrypted with. -/
def piccSourceOf : PiccData → PiccSource × Option KeyNumber
  | .encrypted key offset _ => (.encrypted offset.val, some key)
  | .plain mirror =>
      (.plain (mirror.uidOffset.map Offset.val) (mirror.rctrOffset.map Offset.val), none)
  | .none => (.none, none)

/-- `Verifier::try_new`. Only the fields needed for verification are kept; in particular the
configured content of an encrypted PICCData blob is not. -/
def tryNew (settings : Sdm) (mode : CryptoMode) : Except SdmError Verifier :=
  match settings.fileRead with
  | none => .error
      (.invalidConfiguration "SDM read access is missing - no MAC key configured")
  | some fileRead => .ok
      { mode
        piccSource := (piccSourceOf settings.piccData).1
        metaReadKey := (piccSourceOf settings.piccData).2
        fileReadKey := fileRead.key
        macInputOffset := fileRead.window.input.val
        macOffset := fileRead.window.mac.val
        tamperStatusOffset := settings.tamperStatus.map Offset.val
        encData := fileRead.enc.map fun enc =>
          (enc.start.val, enc.start.val + enc.length.val) }

/-- The addition of `with_offset`: refuses to leave the unsigned range and the 256-byte file. -/
def addOffset (a : ℕ) (b : ℤ) : Option ℕ :=
  let sum := if b < 0 then
      if b = -2 ^ 31 then none
      else if b.natAbs ≤ a then some (a - b.natAbs) else none
    else if a + b.natAbs < 2 ^ 32 then some (a + b.natAbs) else none
  sum.filter (· ≤ 255)

/-- The source of the identity data moved by `inc`. -/
def addToPiccSource (source : PiccSource) (inc : ℤ) : Option PiccSource :=
  match source with
  | .encrypted offset => do
      let offset ← addOffset offset inc
      return .encrypted offset
  | .plain uidOffset readCtrOffset => do
      let uidOffset ← uidOffset.mapM (addOffset · inc)
      let readCtrOffset ← readCtrOffset.mapM (addOffset · inc)
      return .plain uidOffset readCtrOffset
  | .none => some .none

/-- `Verifier::with_offset`: every offset moved by `inc`. -/
def withOffset (v : Verifier) (inc : ℤ) : Option Verifier := do
  let piccSource ← addToPiccSource v.piccSource inc
  let macInputOffset ← addOffset v.macInputOffset inc
  let tamperStatusOffset ← v.tamperStatusOffset.mapM (addOffset · inc)
  let macOffset ← addOffset v.macOffset inc
  let encData ← v.encData.mapM fun range => do
    let start ← addOffset range.1 inc
    let stop ← addOffset range.2 inc
    return (start, stop)
  return { v with piccSource, macInputOffset, tamperStatusOffset, macOffset, encData }

/-- The position that stands for an offset that is not configured: `u32::MAX`. -/
def noOffset : ℕ := 2 ^ 32 - 1

/-- The lowest offset of a source. -/
def piccStart : PiccSource → ℕ
  | .encrypted offset => offset
  | .plain uidOffset readCtrOffset =>
      min (uidOffset.getD noOffset) (readCtrOffset.getD noOffset)
  | .none => noOffset

/-- `Verifier::start`: the lowest offset among all configured ones. -/
def start (v : Verifier) : ℕ :=
  min (min (min (min (piccStart v.piccSource) v.macInputOffset) v.macOffset)
    (v.tamperStatusOffset.getD noOffset)) ((v.encData.map Prod.fst).getD noOffset)

/-- Read a plain hexadecimal mirror of `n` bytes, if it is configured. -/
def extractMirror (n : ℕ) (ndefData : List UInt8) :
    Option ℕ → Outcome SdmError (Option (Bytes n))
  | none => .ok none
  | some offset => do
      ofExcept (ensureLen ndefData (offset + 2 * n))
      let a ← decodeHexArray n ndefData offset
      return some a

/-- Reverse the byte order of a counter. -/
def reverseCtr (c : Bytes 3) : Bytes 3 := ⟨c.toList.reverse, by simp⟩

variable (P : Primitives)

/-- `extract_picc_data`. The plain counter mirror is most significant byte first, everything
else least significant byte first. -/
def extractPiccData (v : Verifier) (ndefData : List UInt8) (metaKey : Key) :
    Outcome SdmError ParsedPiccData :=
  match v.piccSource with
  | .encrypted offset => do
      ofExcept (ensureLen ndefData (offset + v.mode.piccBlobAsciiLen))
      match v.mode with
      | .aes => do
          let enc ← decodeHexArray 16 ndefData offset
          ofExcept (decryptPiccDataAes P metaKey enc)
      | .lrp => do
          let wire ← decodeHexArray 24 ndefData offset
          ofExcept (decryptPiccDataLrp P metaKey wire)
  | .plain uidOffset readCtrOffset => do
      let uid ← extractMirror 7 ndefData uidOffset
      let readCtr ← extractMirror 3 ndefData readCtrOffset
      return { uid, readCtr := readCtr.map reverseCtr }
  | .none => .ok { uid := none, readCtr := none }

/-- `decrypt_picc_data`: identity data without MAC verification. -/
def decryptPiccData (v : Verifier) (metaKey : Key) (ndefData : List UInt8) :
    Outcome SdmError (Option (Bytes 7) × Option ℕ) := do
  let picc ← v.extractPiccData P ndefData metaKey
  return (picc.uid, picc.readCtr.map ctrValue)

/-- Decrypt session-encrypted file data. The counter is zero when none is mirrored. -/
def decryptFileData (keys : SdmKeys) (readCtr : Option (Bytes 3)) (ct : List UInt8) :
    Except SdmError (List UInt8) :=
  let ctr := (readCtr.getD (Bytes.zeros 3)).toList
  match keys with
  | .aes encKey _ =>
      let iv := P.aesEncrypt encKey (Bytes.fill 16 ctr)
      match aesCbcDecrypt P encKey iv ct with
      | some plain => .ok plain
      | none => .error (.invalidConfiguration
          "AES decryption failed: cipher buffer is not block-aligned")
  | .lrp enc _ =>
      match enc.lricbDecryptInPlace P (Bytes.fill 6 ctr).toList ct with
      | some (_, plain) => .ok plain
      | none => .error (.invalidConfiguration
          "LRICB decryption failed: invalid buffer length")

/-- `decrypt_enc_file_data`. -/
def decryptEncFileData (v : Verifier) (ndefData : List UInt8) (keys : SdmKeys)
    (readCtr : Option (Bytes 3)) : Outcome SdmError (Option (List UInt8)) :=
  match v.encData with
  | none => .ok none
  | some (start, stop) => do
      let asciiLen ← checkedSub stop start
      ofExcept (ensureLen ndefData (start + asciiLen))
      let binaryLen := asciiLen / 2
      if maxSdmEncFileDataBytes < binaryLen then
        fail (.invalidConfiguration "enc_data decrypted length exceeds verifier buffer limit")
      else do
        let ct ← decodeHexInto binaryLen ndefData start
        let plain ← ofExcept (decryptFileData P keys readCtr ct)
        return some plain

/-- The two tamper-status bytes at an offset of a buffer. -/
def readTamperStatus (buf : List UInt8) (offset : ℕ) :
    Outcome SdmError TagTamperStatusReadout := do
  let permanent ← index buf offset
  let current ← index buf (offset + 1)
  return .new permanent current

/-- `extract_tamper_status`: from the decrypted file data when the offset lies inside the
encrypted range, from the readout otherwise. -/
def extractTamperStatus (v : Verifier) (ndefData : List UInt8)
    (encFileData : Option (List UInt8)) : Outcome SdmError (Option TagTamperStatusReadout) :=
  match v.tamperStatusOffset with
  | none => .ok none
  | some offset =>
      let inside := v.encData.any fun range => range.1 ≤ offset && offset < range.2
      if inside then
        match encFileData with
        | none => fail (.invalidConfiguration
            "tamper_status inside enc_data requires decrypted file data")
        | some plain =>
            let relativePlain := offset - (v.encData.map Prod.fst).getD 0
            if plain.length < relativePlain + 2 then
              fail (.invalidConfiguration "tamper_status offset exceeds enc_data bounds")
            else do
              let status ← readTamperStatus plain relativePlain
              return some status
      else do
        ofExcept (ensureLen ndefData (offset + 2))
        let status ← readTamperStatus ndefData offset
        return some status

/-- `verify_inner`. -/
def verifyInner (v : Verifier) (ndefData : List UInt8) (sdmFileReadKey sdmMetaReadKey : Key) :
    Outcome SdmError SdmVerification := do
  let picc ← v.extractPiccData P ndefData sdmMetaReadKey
  let keys := deriveSdmKeys P v.mode sdmFileReadKey picc.uid picc.readCtr
  ofExcept (ensureLen ndefData (v.macOffset + 16))
  let macInput ← sliceRange ndefData v.macInputOffset v.macOffset
  let expectedMac ← decodeHexArray 8 ndefData v.macOffset
  if !keys.verifyMac P macInput expectedMac then
    fail .macMismatch
  else do
    let encFileData ← v.decryptEncFileData P ndefData keys picc.readCtr
    let tamperStatus ← v.extractTamperStatus ndefData encFileData
    return { uid := picc.uid, readCtr := picc.readCtr.map ctrValue, tamperStatus, encFileData }

/-- `Verifier::verify`. -/
def verify (v : Verifier) (ndefData : List UInt8) (key : Key) : Outcome SdmError SdmVerification :=
  v.verifyInner P ndefData key key

/-- `Verifier::verify_with_meta_key`. -/
def verifyWithMetaKey (v : Verifier) (ndefData : List UInt8)
    (sdmFileReadKey sdmMetaReadKey : Key) : Outcome SdmError SdmVerification :=
  v.verifyInner P ndefData sdmFileReadKey sdmMetaReadKey

end Verifier

/-! ### Verification step by step -/

namespace Verifier

variable {P : Primitives} {v : Verifier}

/-- The verifier of some settings, field by field. -/
theorem tryNew_eq_ok_iff {s : Sdm} {mode : CryptoMode} :
    tryNew s mode = .ok v ↔ ∃ fr, s.fileRead = some fr ∧
      v = ⟨mode, (piccSourceOf s.piccData).1, (piccSourceOf s.piccData).2, fr.key,
        fr.window.input.val, fr.window.mac.val, s.tamperStatus.map Offset.val,
        fr.enc.map fun enc => (enc.start.val, enc.start.val + enc.length.val)⟩ := by
  unfold tryNew
  cases s.fileRead with
  | none => simp
  | some fr => simp [eq_comm]

/-- The windows of a constructed verifier are consistent: the MAC window is not reversed and
the encrypted range lies inside it. -/
theorem windows_of_tryNew {s : Sdm} {mode : CryptoMode} (h : tryNew s mode = .ok v) :
    v.macInputOffset ≤ v.macOffset ∧
      ∀ range ∈ v.encData, v.macInputOffset ≤ range.1 ∧ range.1 ≤ range.2 ∧
        range.2 ≤ v.macOffset := by
  obtain ⟨fr, hfr, rfl⟩ := tryNew_eq_ok_iff.mp h
  have hvalid := s.valid
  simp only [Sdm.checkInner, Except.andThen_eq_ok_iff, checkMacWindow_eq_ok_iff,
    checkEncRange_eq_ok_iff] at hvalid
  refine ⟨hvalid.1 fr hfr, fun range hrange => ?_⟩
  obtain ⟨enc, henc, rfl⟩ := Option.map_eq_some_iff.mp hrange
  obtain ⟨⟨hin, hout⟩, -⟩ := hvalid.2.1 fr hfr enc henc
  exact ⟨hin, Nat.le_add_right _ _, hout⟩

/-- **A successful verification** is a successful run of its five steps. -/
theorem verifyInner_eq_ok_iff {data : List UInt8} {fk mk : Key} {r : SdmVerification} :
    v.verifyInner P data fk mk = .ok r ↔
      ∃ picc mac enc tamper,
        v.extractPiccData P data mk = .ok picc ∧
        (v.macInputOffset ≤ v.macOffset ∧ v.macOffset + 16 ≤ data.length) ∧
        decodeHexArray 8 data v.macOffset = .ok mac ∧
        (deriveSdmKeys P v.mode fk picc.uid picc.readCtr).verifyMac P
          (slice data v.macInputOffset (v.macOffset - v.macInputOffset)) mac = true ∧
        v.decryptEncFileData P data (deriveSdmKeys P v.mode fk picc.uid picc.readCtr)
          picc.readCtr = .ok enc ∧
        v.extractTamperStatus data enc = .ok tamper ∧
        r = ⟨picc.uid, picc.readCtr.map ctrValue, tamper, enc⟩ := by
  simp only [verifyInner, Except.bind_eq_ok_iff, ofExcept_eq_ok_iff, ensureLen_eq_ok_iff,
    sliceRange_eq_ok_iff]
  constructor
  · rintro ⟨picc, hpicc, -, hlen, _, ⟨⟨hle, -⟩, rfl⟩, mac, hmac, h⟩
    split at h
    · cases h
    · rename_i hverify
      simp only [Except.bind_eq_ok_iff, Except.pure_eq_ok_iff] at h
      obtain ⟨enc, henc, tamper, htamper, rfl⟩ := h
      exact ⟨picc, mac, enc, tamper, hpicc, ⟨hle, hlen⟩, hmac, by simpa using hverify, henc,
        htamper, rfl⟩
  · rintro ⟨picc, mac, enc, tamper, hpicc, ⟨hle, hlen⟩, hmac, hverify, henc, htamper, rfl⟩
    refine ⟨picc, hpicc, (), hlen, _, ⟨⟨hle, by omega⟩, rfl⟩, mac, hmac, ?_⟩
    rw [hverify]
    simp only [Bool.not_true, Bool.false_eq_true, if_false, Except.bind_eq_ok_iff,
      Except.pure_eq_ok_iff]
    exact ⟨enc, henc, tamper, htamper, rfl⟩

/-- A verified readout has its identity data decrypted. -/
theorem decryptPiccData_of_verifyInner {data : List UInt8} {fk mk : Key} {r : SdmVerification}
    (h : v.verifyInner P data fk mk = .ok r) :
    v.decryptPiccData P mk data = .ok (r.uid, r.readCtr) := by
  obtain ⟨picc, mac, enc, tamper, hpicc, -, -, -, -, -, rfl⟩ := verifyInner_eq_ok_iff.mp h
  rw [decryptPiccData, hpicc]
  rfl

/-- The meta-read key plays no role without an encrypted PICCData blob. -/
theorem verifyInner_congr_metaKey {data : List UInt8} {fk mk mk' : Key}
    (h : ∀ offset, v.piccSource ≠ .encrypted offset) :
    v.verifyInner P data fk mk = v.verifyInner P data fk mk' := by
  have hpicc : v.extractPiccData P data mk = v.extractPiccData P data mk' := by
    rw [extractPiccData, extractPiccData]
    cases hsrc : v.piccSource with
    | encrypted offset => exact absurd hsrc (h offset)
    | plain | none => rfl
  rw [verifyInner, verifyInner, hpicc]

/-- Decoding depends only on the window of the placeholder. -/
theorem decodeHexArray_congr {n offset : ℕ} {d d' : List UInt8} {a a' : Bytes n}
    (hd : offset + 2 * n ≤ d.length) (hd' : offset + 2 * n ≤ d'.length)
    (hs : slice d offset (2 * n) = slice d' offset (2 * n))
    (h : decodeHexArray n d offset = .ok a) (h' : decodeHexArray n d' offset = .ok a') :
    a = a' := by
  rw [decodeHexArray_eq_ok_iff hd, hs] at h
  rw [decodeHexArray_eq_ok_iff hd', h] at h'
  exact Bytes.ext (Option.some.inj h')

theorem extractMirror_eq_ok_iff {n : ℕ} {data : List UInt8} {offset : Option ℕ}
    {a : Option (Bytes n)} :
    extractMirror n data offset = .ok a ↔
      (offset = none ∧ a = none) ∨
        ∃ off b, offset = some off ∧ a = some b ∧ off + 2 * n ≤ data.length ∧
          decodeHexArray n data off = .ok b := by
  cases offset with
  | none => simp [extractMirror, eq_comm]
  | some off =>
      simp only [extractMirror, Except.bind_eq_ok_iff, ofExcept_eq_ok_iff, ensureLen_eq_ok_iff,
        Except.pure_eq_ok_iff, reduceCtorEq, false_and, false_or, Option.some.injEq]
      constructor
      · rintro ⟨-, hlen, b, hb, rfl⟩
        exact ⟨off, b, rfl, rfl, hlen, hb⟩
      · rintro ⟨_, b, rfl, rfl, hlen, hb⟩
        exact ⟨(), hlen, b, hb, rfl⟩

/-- The window of the readout that the identity data is read from. -/
def PiccWindowsAgree (v : Verifier) (d d' : List UInt8) : Prop :=
  match v.piccSource with
  | .encrypted offset =>
      slice d offset v.mode.piccBlobAsciiLen = slice d' offset v.mode.piccBlobAsciiLen
  | .plain uidOffset readCtrOffset =>
      (∀ off ∈ uidOffset, slice d off 14 = slice d' off 14) ∧
        ∀ off ∈ readCtrOffset, slice d off 6 = slice d' off 6
  | .none => True

theorem extractMirror_congr {n : ℕ} {d d' : List UInt8} {offset : Option ℕ}
    {a a' : Option (Bytes n)} (hs : ∀ off ∈ offset, slice d off (2 * n) = slice d' off (2 * n))
    (h : extractMirror n d offset = .ok a) (h' : extractMirror n d' offset = .ok a') : a = a' := by
  rw [extractMirror_eq_ok_iff] at h h'
  obtain ⟨rfl, rfl⟩ | ⟨off, b, rfl, rfl, hlen, hb⟩ := h
  · obtain ⟨-, rfl⟩ | ⟨_, _, h, -⟩ := h'
    · rfl
    · cases h
  · obtain ⟨h, -⟩ | ⟨_, b', h, rfl, hlen', hb'⟩ := h'
    · cases h
    · cases h
      rw [decodeHexArray_congr hlen hlen' (hs off rfl) hb hb']

/-- **Identity data depends only on its source windows.** -/
theorem extractPiccData_congr {d d' : List UInt8} {mk : Key} {picc picc' : ParsedPiccData}
    (hs : v.PiccWindowsAgree d d') (h : v.extractPiccData P d mk = .ok picc)
    (h' : v.extractPiccData P d' mk = .ok picc') : picc = picc' := by
  unfold PiccWindowsAgree at hs
  unfold extractPiccData at h h'
  cases hsrc : v.piccSource with
  | none =>
      simp only [hsrc] at h h'
      exact Except.ok.inj (h.symm.trans h')
  | plain uidOffset readCtrOffset =>
      simp only [hsrc, Except.bind_eq_ok_iff, Except.pure_eq_ok_iff] at h h' hs
      obtain ⟨uid, huid, ctr, hctr, rfl⟩ := h
      obtain ⟨uid', huid', ctr', hctr', rfl⟩ := h'
      rw [extractMirror_congr hs.1 huid huid', extractMirror_congr hs.2 hctr hctr']
  | encrypted offset =>
      cases hmode : v.mode with
      | aes =>
          simp only [hsrc, hmode, Except.bind_eq_ok_iff, ofExcept_eq_ok_iff,
            ensureLen_eq_ok_iff] at h h' hs
          obtain ⟨-, hlen, enc, henc, h⟩ := h
          obtain ⟨-, hlen', enc', henc', h'⟩ := h'
          obtain rfl := decodeHexArray_congr hlen hlen' hs henc henc'
          exact Except.ok.inj (h.symm.trans h')
      | lrp =>
          simp only [hsrc, hmode, Except.bind_eq_ok_iff, ofExcept_eq_ok_iff,
            ensureLen_eq_ok_iff] at h h' hs
          obtain ⟨-, hlen, enc, henc, h⟩ := h
          obtain ⟨-, hlen', enc', henc', h'⟩ := h'
          obtain rfl := decodeHexArray_congr hlen hlen' hs henc henc'
          exact Except.ok.inj (h.symm.trans h')

/-- What a successful decryption of the encrypted range has read. -/
theorem decryptEncFileData_eq_ok_iff {data : List UInt8} {keys : SdmKeys}
    {readCtr : Option (Bytes 3)} {enc : Option (List UInt8)} :
    v.decryptEncFileData P data keys readCtr = .ok enc ↔
      (v.encData = none ∧ enc = none) ∨
        ∃ start stop ct plain, v.encData = some (start, stop) ∧ enc = some plain ∧
          (start ≤ stop ∧ stop ≤ data.length) ∧ (stop - start) / 2 ≤ maxSdmEncFileDataBytes ∧
          decodeHexInto ((stop - start) / 2) data start = .ok ct ∧
          decryptFileData P keys readCtr ct = .ok plain := by
  unfold decryptEncFileData
  split
  · rename_i hnone
    simp [hnone, eq_comm]
  · rename_i start stop hsome
    simp only [Except.bind_eq_ok_iff, checkedSub_eq_ok_iff, ofExcept_eq_ok_iff,
      ensureLen_eq_ok_iff, hsome, reduceCtorEq, false_and, false_or, Option.some.injEq,
      Prod.mk.injEq]
    constructor
    · rintro ⟨_, ⟨hle, rfl⟩, -, hlen, h⟩
      split at h
      · cases h
      · simp only [Except.bind_eq_ok_iff, ofExcept_eq_ok_iff, Except.pure_eq_ok_iff] at h
        obtain ⟨ct, hct, plain, hplain, rfl⟩ := h
        exact ⟨start, stop, ct, plain, ⟨rfl, rfl⟩, rfl, ⟨hle, by omega⟩, by omega, hct, hplain⟩
    · rintro ⟨_, _, ct, plain, ⟨rfl, rfl⟩, rfl, ⟨hle, hlen⟩, hmax, hct, hplain⟩
      refine ⟨_, ⟨hle, rfl⟩, (), by omega, ?_⟩
      rw [if_neg (by omega)]
      simp only [Except.bind_eq_ok_iff, ofExcept_eq_ok_iff, Except.pure_eq_ok_iff]
      exact ⟨ct, hct, plain, hplain, rfl⟩

/-- **Decrypted file data depends only on the encrypted range** and the session. -/
theorem decryptEncFileData_congr {d d' : List UInt8} {keys : SdmKeys}
    {readCtr : Option (Bytes 3)} {enc enc' : Option (List UInt8)}
    (hs : ∀ range ∈ v.encData,
      slice d range.1 (range.2 - range.1) = slice d' range.1 (range.2 - range.1))
    (h : v.decryptEncFileData P d keys readCtr = .ok enc)
    (h' : v.decryptEncFileData P d' keys readCtr = .ok enc') : enc = enc' := by
  rw [decryptEncFileData_eq_ok_iff] at h h'
  obtain ⟨hnone, rfl⟩ | ⟨start, stop, ct, plain, hsome, rfl, ⟨hle, hlen⟩, -, hct, hplain⟩ := h
  · obtain ⟨-, rfl⟩ | ⟨_, _, _, _, hsome, -⟩ := h'
    · rfl
    · rw [hnone] at hsome
      cases hsome
  · obtain ⟨hnone, -⟩ | ⟨_, _, ct', plain', hsome', rfl, ⟨-, hlen'⟩, -, hct', hplain'⟩ := h'
    · rw [hnone] at hsome
      cases hsome
    · rw [hsome] at hsome'
      cases hsome'
      have hsub : slice d start (2 * ((stop - start) / 2)) =
          slice d' start (2 * ((stop - start) / 2)) :=
        slice_eq_of_slice_eq (hs _ hsome) le_rfl (by omega)
      rw [decodeHexInto, decodeHexBytes_eq_ok_iff (by omega)] at hct hct'
      rw [hsub, hct'] at hct
      obtain rfl := Option.some.inj hct
      rw [hplain] at hplain'
      rw [Except.ok.inj hplain']

theorem readTamperStatus_eq_ok_iff {buf : List UInt8} {offset : ℕ} {t : TagTamperStatusReadout} :
    readTamperStatus buf offset = .ok t ↔
      ∃ a b, buf[offset]? = some a ∧ buf[offset + 1]? = some b ∧ t = .new a b := by
  simp only [readTamperStatus, Except.bind_eq_ok_iff, index_eq_ok_iff, Except.pure_eq_ok_iff]
  constructor
  · rintro ⟨a, ha, b, hb, rfl⟩
    exact ⟨a, b, ha, hb, rfl⟩
  · rintro ⟨a, b, ha, hb, rfl⟩
    exact ⟨a, ha, b, hb, rfl⟩

/-- **The tamper status depends only on its two bytes**: on the decrypted file data when it
lies inside the encrypted range, on the readout otherwise. -/
theorem extractTamperStatus_congr {d d' : List UInt8} {enc : Option (List UInt8)}
    {t t' : Option TagTamperStatusReadout}
    (hs : ∀ off ∈ v.tamperStatusOffset, (∀ range ∈ v.encData, ¬ (range.1 ≤ off ∧ off < range.2)) →
      d[off]? = d'[off]? ∧ d[off + 1]? = d'[off + 1]?)
    (h : v.extractTamperStatus d enc = .ok t) (h' : v.extractTamperStatus d' enc = .ok t') :
    t = t' := by
  unfold extractTamperStatus at h h'
  cases hoff : v.tamperStatusOffset with
  | none =>
      simp only [hoff] at h h'
      exact Except.ok.inj (h.symm.trans h')
  | some off =>
      simp only [hoff] at h h'
      split at h
      · rename_i hin
        rw [if_pos hin] at h'
        exact Except.ok.inj (h.symm.trans h')
      · rename_i hin
        rw [if_neg hin] at h'
        have hout : ∀ range ∈ v.encData, ¬ (range.1 ≤ off ∧ off < range.2) := by
          intro range hrange hmem
          exact hin (by simp [Option.mem_def.mp hrange, hmem])
        obtain ⟨h₀, h₁⟩ := hs off hoff hout
        simp only [Except.bind_eq_ok_iff, ofExcept_eq_ok_iff, Except.pure_eq_ok_iff,
          readTamperStatus_eq_ok_iff] at h h'
        obtain ⟨-, -, _, ⟨a, b, ha, hb, rfl⟩, rfl⟩ := h
        obtain ⟨-, -, _, ⟨a', b', ha', hb', rfl⟩, rfl⟩ := h'
        rw [h₀, ha'] at ha
        rw [h₁, hb'] at hb
        rw [Option.some.inj ha, Option.some.inj hb]

/-- Session decryption accepts every non-empty buffer of whole blocks and keeps its length. -/
theorem decryptFileData_of_aligned {keys : SdmKeys} {readCtr : Option (Bytes 3)} {ct : List UInt8}
    (h₀ : ct ≠ []) (h : ct.length % 16 = 0) :
    ∃ plain, decryptFileData P keys readCtr ct = .ok plain ∧ plain.length = ct.length := by
  cases keys with
  | aes encKey macKey =>
      have hdec (iv : Block) : aesCbcDecrypt P encKey iv ct =
          some (ofBlocks (cbcDecrypt Bytes.xor (P.aesDecrypt encKey) iv (toBlocks ct))) :=
        onBlocks_of_aligned h₀ h
      refine ⟨_, by simp only [decryptFileData, hdec]; rfl, ?_⟩
      rw [length_ofBlocks, length_cbcDecrypt, length_toBlocks]
      omega
  | lrp enc mac =>
      refine ⟨_, by simp only [decryptFileData, Lrp.lricbDecryptInPlace, Lrp.lricb_of_valid h₀ h
        (Bytes.fill 6 _).toList_ne_nil (show _ ≤ 16 by simp)]; rfl, ?_⟩
      rw [length_ofBlocks, length_ctrMap, length_toBlocks]
      omega

/-- The tamper status can be read: from the decrypted file data when the placeholder lies
inside the encrypted range, from a long enough readout otherwise. -/
theorem extractTamperStatus_of_bounds {data : List UInt8} {enc : Option (List UInt8)}
    (hlen : ∀ off ∈ v.tamperStatusOffset, off + 2 ≤ data.length)
    (henc : ∀ range ∈ v.encData, ∃ plain, enc = some plain ∧
      ∀ off ∈ v.tamperStatusOffset, range.1 ≤ off → off < range.2 →
        off - range.1 + 2 ≤ plain.length) :
    ∃ t, v.extractTamperStatus data enc = .ok t := by
  unfold extractTamperStatus
  have hread (buf : List UInt8) (off : ℕ) (h : off + 2 ≤ buf.length) :
      ∃ t, readTamperStatus buf off = .ok t :=
    ⟨_, readTamperStatus_eq_ok_iff.mpr ⟨buf[off], buf[off + 1],
      List.getElem?_eq_getElem (by omega), List.getElem?_eq_getElem (by omega), rfl⟩⟩
  cases hoff : v.tamperStatusOffset with
  | none => exact ⟨none, rfl⟩
  | some off =>
      simp only
      have hraw : ∃ t, (do
          ofExcept (ensureLen data (off + 2))
          let status ← readTamperStatus data off
          return some status : Outcome SdmError _) = .ok t := by
        obtain ⟨t, ht⟩ := hread data off (hlen off hoff)
        refine ⟨some t, ?_⟩
        simp only [Except.bind_eq_ok_iff, ofExcept_eq_ok_iff, ensureLen_eq_ok_iff]
        exact ⟨(), hlen off hoff, t, ht, rfl⟩
      cases hrange : v.encData with
      | none => simpa using hraw
      | some range =>
          obtain ⟨plain, rfl, hplain⟩ := henc range hrange
          split
          · rename_i hin
            simp only [Option.any_some, Bool.and_eq_true, decide_eq_true_eq] at hin
            have hbound := hplain off hoff hin.1 hin.2
            obtain ⟨t, ht⟩ := hread plain (off - range.1) hbound
            refine ⟨some t, ?_⟩
            simp only [Option.map_some, Option.getD_some]
            rw [if_neg (by omega), ht]
            rfl
          · exact hraw

/-- The tamper placeholder of a constructed verifier ends inside the plaintext half when it
starts inside the encrypted range. -/
theorem tamper_of_tryNew {s : Sdm} {mode : CryptoMode} (h : tryNew s mode = .ok v) :
    ∀ range ∈ v.encData, ∀ off ∈ v.tamperStatusOffset, range.1 ≤ off → off < range.2 →
      off - range.1 + 2 ≤ (range.2 - range.1) / 2 := by
  obtain ⟨fr, hfr, rfl⟩ := tryNew_eq_ok_iff.mp h
  have hvalid := s.valid
  simp only [Sdm.checkInner, Except.andThen_eq_ok_iff] at hvalid
  have hhalf := checkTamperHalf_eq_ok_iff.mp hvalid.2.2.2.2.2.2.2.2.2.2
  intro range hrange off hoff hin hout
  obtain ⟨enc, henc, rfl⟩ := Option.map_eq_some_iff.mp hrange
  obtain ⟨tt, htt, rfl⟩ := Option.map_eq_some_iff.mp hoff
  obtain ⟨k, w⟩ | ⟨k, w, e⟩ := fr
  · cases henc
  · obtain rfl : e = enc := Option.some.inj henc
    have hrange : ttRange s.tamperStatus = some (tt.val, ttPlaceholderLen) := by rw [htt]; rfl
    have hencRange : encRange s.fileRead = some (e.start.val, e.length.val) := by rw [hfr]; rfl
    have := hhalf _ hrange _ hencRange
    simp only [ttPlaceholderLen] at this hin hout ⊢
    omega

end Verifier

end Ntag424
