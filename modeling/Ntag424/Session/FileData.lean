import Mathlib.Tactic.Common
import Ntag424.Lib.Chunks
import Ntag424.Session.Commands

/-!
# Reading and Writing File Data

`ReadData` and `WriteData` in the three communication modes (`commands/read_data.rs`,
`commands/write_data.rs`), and the plain-mode chunk loops of the session layer
(`session/authenticated.rs`), which advance the command counter once for each APDU.

## Modelling

* The caller's buffer is passed in and returned with the number of bytes copied into it. A
  slice of it beyond its end is a panic.
* Offsets and lengths are 32-bit numbers, and the offset of the next chunk wraps. A header that
  does not hold it is a panic in a build with debug assertions.
* In plain mode the assertions of the header repeat the checks before it, and are left out
  (`readDataPlain_eq`, `writeDataPlain_eq`).

## Main results

* `wp_readDataMacLoop_of`, `wp_readDataFullLoop_of`, `wp_readFilePlainLoop_of`,
  `wp_writeLoop_of`: what every APDU of a loop preserves, the loop preserves.
* `wp_readDataMacLoop`, `wp_readDataFullLoop`, `wp_readFilePlainLoop`, `wp_writeLoop`: the loops,
  by an invariant of how far they have come.
-/

namespace Ntag424

open Numerals SecureChannel

variable {E S : Type} (P : Primitives) [SessionSuite P S]

/-! ### Requests -/

/-- `U24_MAX`. -/
def u24Max : ℕ := 0xFFFFFF

/-- The file number and offset checks that reading and writing share. -/
def validateTarget {σ : Type} (fileNo : UInt8) (offset : UInt32) : Cmd E σ Unit := do
  Script.require (fileNo ≤ 0x1F)
    (.invalidCommandParameter "file_no" fileNo.toNat "must fit 5 bits")
  Script.require (offset.toNat ≤ u24Max)
    (.invalidCommandParameter "offset" offset.toNat "must fit 24 bits")

/-- `validate_request` of `read_data.rs`. -/
def validateRequest {σ : Type} (fileNo : UInt8) (offset length : UInt32) (bufLen : ℕ) :
    Cmd E σ Unit := do
  validateTarget fileNo offset
  Script.require (length.toNat ≤ u24Max)
    (.invalidCommandParameter "length" length.toNat "must fit 24 bits")
  Script.require (bufLen ≠ 0) (.invalidCommandParameter "buf.len()" 0 "must be non-zero")
  Script.require (length = 0 ∨ length.toNat ≤ bufLen)
    (.invalidCommandParameter "buf.len()" bufLen "must be at least the requested length")

/-- What the checks of a request for data demand. -/
def Readable (fileNo : UInt8) (offset length : UInt32) (bufLen : ℕ) : Prop :=
  fileNo ≤ 0x1F ∧ offset.toNat ≤ u24Max ∧ length.toNat ≤ u24Max ∧ bufLen ≠ 0 ∧
    (length = 0 ∨ length.toNat ≤ bufLen)

/-- `validate_header` of `write_data.rs`. -/
def validateHeader {σ : Type} (fileNo : UInt8) (offset : UInt32) (length : ℕ) :
    Cmd E σ Unit := do
  validateTarget fileNo offset
  Script.require (length ≠ 0) (.invalidCommandParameter "data.len()" 0 "must be non-zero")
  Script.require (length ≤ u24Max)
    (.invalidCommandParameter "data.len()" length "must fit the 24-bit Length field")

/-- What the checks of a command that writes data demand. -/
def Writable (fileNo : UInt8) (offset : UInt32) (length : ℕ) : Prop :=
  fileNo ≤ 0x1F ∧ offset.toNat ≤ u24Max ∧ length ≠ 0 ∧ length ≤ u24Max

/-- `validate_body_len`. -/
def validateBodyLen {σ : Type} (bodyLen : ℕ) : Cmd E σ Unit :=
  Script.require (bodyLen ≤ maxApduBody) (.apduBodyTooLarge bodyLen maxApduBody)

/-- The command header: `FileNo || Offset(3 LE) || Length(3 LE)`. -/
def headerBytes (fileNo : UInt8) (offset length : UInt32) : List UInt8 :=
  fileNo :: leBytes 3 offset.toNat ++ leBytes 3 length.toNat

@[simp] theorem length_headerBytes (fileNo : UInt8) (offset length : UInt32) :
    (headerBytes fileNo offset length).length = 7 := by
  simp [headerBytes]

/-- `debug_assert!`: a panic in a build with debug assertions, and nothing in any other. -/
def debugAssert {σ : Type} (c : Prop) [Decidable c] : Cmd E σ Unit :=
  Script.assert (P.debugAssertions = true → c)

/-- The fields of a header hold what is put into them. -/
abbrev HeaderFits (fileNo : UInt8) (offset length : UInt32) : Prop :=
  fileNo ≤ 0x1F ∧ offset.toNat ≤ u24Max ∧ length.toNat ≤ u24Max

/-- `build_header` of `read_data.rs`. -/
def buildReadHeader {σ : Type} (fileNo : UInt8) (offset length : UInt32) :
    Cmd E σ (List UInt8) := do
  debugAssert P (HeaderFits fileNo offset length)
  return headerBytes fileNo offset length

/-- `build_header` of `write_data.rs`. -/
def buildWriteHeader {σ : Type} (fileNo : UInt8) (offset length : UInt32) :
    Cmd E σ (List UInt8) := do
  debugAssert P (HeaderFits fileNo offset length ∧ length ≠ 0)
  return headerBytes fileNo offset length

/-- `READ_DATA_RESP_CAP`. -/
def readDataRespCap : ℕ := 256

/-- `want_plain_bytes`. -/
def wantPlainBytes (length : UInt32) (bufLen : ℕ) : ℕ :=
  min (if length = 0 then bufLen else length.toNat) readDataRespCap

/-! ### ReadData -/

/-- `read_data_plain`: the answer is truncated to what was asked for. -/
def readDataPlain {σ : Type} (fileNo : UInt8) (offset length : UInt32) (buf : List UInt8) :
    Cmd E σ (ℕ × List UInt8) := do
  validateRequest fileNo offset length buf.length
  let want := wantPlainBytes length buf.length
  let resp ← transmitExpecting .operationOk
    (nativeApdu 0xAD 0x00 0x00 (headerBytes fileNo offset length))
  let n := min (min resp.data.length want) buf.length
  return (n, overlay buf 0 (resp.data.take n))

/-- `MAC_READ_CHUNK`. -/
def macReadChunk : ℕ := 248

/-- `FULL_READ_CHUNK`. -/
def fullReadChunk : ℕ := 239

/-- `read_data_mac_one_apdu`. -/
def readDataMacOneApdu (fileNo : UInt8) (offset length : UInt32) (buf : List UInt8) :
    Cmd E (Authenticated S) (ℕ × List UInt8) := do
  let want := wantPlainBytes length buf.length
  let header ← buildReadHeader P fileNo offset length
  let resp ← transmitMac P 0xAD 0x00 0x00 header []
  let data ← verifyResponseMacAndAdvance P resp.sw2 resp.data
  Script.require (data.length ≤ want) (.unexpectedLength data.length want)
  Script.assert (data.length ≤ buf.length)
  return (data.length, overlay buf 0 data)

/-- The loop of `read_data_mac`: a short answer ends it. -/
def readDataMacLoop (fileNo : UInt8) (target total : ℕ) (currentOffset : UInt32)
    (buf : List UInt8) : Cmd E (Authenticated S) (ℕ × List UInt8) :=
  if total < target then do
    let chunk := min (target - total) macReadChunk
    Script.assert (total + chunk ≤ buf.length)
    let (n, part) ← readDataMacOneApdu P fileNo currentOffset (UInt32.ofNat chunk)
      (slice buf total chunk)
    let buf := overlay buf total part
    if n < chunk then return (total + n, buf)
    else readDataMacLoop fileNo target (total + n) (currentOffset + UInt32.ofNat chunk) buf
  else return (total, buf)
termination_by target - total
decreasing_by
  have hchunk : 0 < chunk := by simp only [chunk, macReadChunk]; omega
  omega

/-- The number of bytes to read: the given length, or the whole buffer. -/
def readTarget (length : UInt32) (bufLen : ℕ) : ℕ := if length = 0 then bufLen else length.toNat

/-- `read_data_mac`. -/
def readDataMac (fileNo : UInt8) (offset length : UInt32) (buf : List UInt8) :
    Cmd E (Authenticated S) (ℕ × List UInt8) := do
  validateRequest fileNo offset length buf.length
  readDataMacLoop P fileNo (readTarget length buf.length) 0 offset buf

/-- `read_data_full_one_apdu`. -/
def readDataFullOneApdu (fileNo : UInt8) (offset length : UInt32) (buf : List UInt8) :
    Cmd E (Authenticated S) (ℕ × List UInt8) := do
  let header ← buildReadHeader P fileNo offset length
  let resp ← transmitMac P 0xAD 0x00 0x00 header []
  let ciphertext ← verifyResponseMacAndAdvance P resp.sw2 resp.data
  let ctLen := ciphertext.length
  Script.require (ctLen ≠ 0 ∧ ctLen % 16 = 0)
    (.unexpectedLength ctLen (16 * ((max ctLen 1 + 15) / 16)))
  Script.assert (ctLen ≤ readDataRespCap)
  let scratch ← decryptResponse P ciphertext
  match stripM2Padding scratch with
  | none => Script.fail (.unexpectedLength ctLen ctLen)
  | some padStart =>
      Script.require (length = 0 ∨ padStart = length.toNat)
        (.unexpectedLength padStart length.toNat)
      Script.require (padStart ≤ buf.length) (.unexpectedLength padStart buf.length)
      return (padStart, overlay buf 0 (scratch.take padStart))

/-- The loop of `read_data_full`. An answer of no bytes to a request for some is refused, so
every round makes progress. -/
def readDataFullLoop (fileNo : UInt8) (target total : ℕ) (currentOffset : UInt32)
    (buf : List UInt8) : Cmd E (Authenticated S) (ℕ × List UInt8) :=
  if total < target then do
    let chunk := min (target - total) fullReadChunk
    Script.assert (total + chunk ≤ buf.length)
    let (n, part) ← readDataFullOneApdu P fileNo currentOffset (UInt32.ofNat chunk)
      (slice buf total chunk)
    let buf := overlay buf total part
    if n = 0 then return (total, buf)
    else readDataFullLoop fileNo target (total + n) (currentOffset + UInt32.ofNat chunk) buf
  else return (total, buf)
termination_by target - total
decreasing_by omega

/-- `read_data_full`. -/
def readDataFull (fileNo : UInt8) (offset length : UInt32) (buf : List UInt8) :
    Cmd E (Authenticated S) (ℕ × List UInt8) := do
  validateRequest fileNo offset length buf.length
  readDataFullLoop P fileNo (readTarget length buf.length) 0 offset buf

/-- `PLAIN_READ_CHUNK`. -/
def plainReadChunk : ℕ := 256

/-- The loop of `read_file_plain_chunked`. -/
def readFilePlainLoop (fileNo : UInt8) (total : ℕ) (currentOffset : UInt32) (remaining : ℕ)
    (buf : List UInt8) : Cmd E (Authenticated S) (ℕ × List UInt8) :=
  if 0 < remaining then do
    let chunk := min remaining plainReadChunk
    Script.assert (total + chunk ≤ buf.length)
    let (n, part) ← readDataPlain fileNo currentOffset (UInt32.ofNat chunk)
      (slice buf total chunk)
    advanceCounter
    let buf := overlay buf total part
    if n < chunk then return (total + n, buf)
    else
      readFilePlainLoop fileNo (total + n) (currentOffset + UInt32.ofNat chunk)
        (remaining - chunk) buf
  else return (total, buf)
termination_by remaining
decreasing_by
  have hchunk : 0 < chunk := by simp only [chunk, plainReadChunk]; omega
  omega

/-- `read_file_plain_chunked`. -/
def readFilePlainChunked (fileNo : UInt8) (offset length : UInt32) (buf : List UInt8) :
    Cmd E (Authenticated S) (ℕ × List UInt8) :=
  if length = 0 then do
    let r ← readDataPlain fileNo offset length buf
    advanceCounter
    return r
  else readFilePlainLoop fileNo 0 offset length.toNat buf

/-! ### WriteData -/

/-- `write_data_plain`. -/
def writeDataPlain {σ : Type} (fileNo : UInt8) (offset : UInt32) (data : List UInt8) :
    Cmd E σ Unit := do
  validateHeader fileNo offset data.length
  validateBodyLen (7 + data.length)
  let header := headerBytes fileNo offset (UInt32.ofNat data.length)
  let _ ← transmitExpecting .operationOk (nativeApdu 0x8D 0x00 0x00 (header ++ data))

/-- `MAC_WRITE_CHUNK`. -/
def macWriteChunk : ℕ := 240

/-- `FULL_WRITE_CHUNK`. -/
def fullWriteChunk : ℕ := 239

/-- `PLAIN_WRITE_CHUNK`. -/
def plainWriteChunk : ℕ := 248

/-- `write_data_mac_one_apdu`. -/
def writeDataMacOneApdu (fileNo : UInt8) (offset : UInt32) (data : List UInt8) :
    Cmd E (Authenticated S) Unit := do
  let header ← buildWriteHeader P fileNo offset (UInt32.ofNat data.length)
  let body ← sendMac P 0x8D 0x00 0x00 header data
  Script.require (body = []) (.unexpectedLength body.length 0)

/-- `write_data_full_one_apdu`. -/
def writeDataFullOneApdu (fileNo : UInt8) (offset : UInt32) (data : List UInt8) :
    Cmd E (Authenticated S) Unit := do
  let header ← buildWriteHeader P fileNo offset (UInt32.ofNat data.length)
  validateBodyLen (7 + (m2Pad data).length + macLen)
  let resp ← transmitFull P 0x8D header data
  let _ ← verifyResponseMacAndAdvance P resp.sw2 resp.data

/-- The write loops: one APDU for each chunk of the data at successive offsets. -/
def writeLoop {σ : Type} (chunk : ℕ) (one : UInt32 → List UInt8 → Cmd E σ Unit)
    (currentOffset : UInt32) (data : List UInt8) : Cmd E σ Unit :=
  if data ≠ [] ∧ 0 < chunk then do
    let part := data.take chunk
    one currentOffset part
    writeLoop chunk one (currentOffset + UInt32.ofNat part.length) (data.drop chunk)
  else return ()
termination_by data.length
decreasing_by
  rename_i h
  have := List.length_pos_iff.mpr h.1
  simp only [List.length_drop]
  omega

/-- `write_data_mac`. -/
def writeDataMac (fileNo : UInt8) (offset : UInt32) (data : List UInt8) :
    Cmd E (Authenticated S) Unit := do
  validateHeader fileNo offset data.length
  writeLoop macWriteChunk (writeDataMacOneApdu P fileNo) offset data

/-- `write_data_full`. -/
def writeDataFull (fileNo : UInt8) (offset : UInt32) (data : List UInt8) :
    Cmd E (Authenticated S) Unit := do
  validateHeader fileNo offset data.length
  writeLoop fullWriteChunk (writeDataFullOneApdu P fileNo) offset data

/-- One APDU of `write_file_plain_chunked`. -/
def writeFilePlainOneApdu (fileNo : UInt8) (offset : UInt32) (data : List UInt8) :
    Cmd E (Authenticated S) Unit := do
  writeDataPlain fileNo offset data
  advanceCounter

/-- `write_file_plain_chunked`. -/
def writeFilePlainChunked (fileNo : UInt8) (offset : UInt32) (data : List UInt8) :
    Cmd E (Authenticated S) Unit := do
  Script.require (data ≠ []) (.invalidCommandParameter "data.len()" 0 "must be non-zero")
  writeLoop plainWriteChunk (writeFilePlainOneApdu fileNo) offset data

/-! ### Chunks -/

/-- The position of a chunk, as long as it does not wrap. -/
theorem toNat_add_ofNat {offset : UInt32} {n : ℕ} (h : offset.toNat + n < 2 ^ 32) :
    (offset + UInt32.ofNat n).toNat = offset.toNat + n := by
  rw [UInt32.toNat_add, UInt32.toNat_ofNat', Nat.mod_eq_of_lt (by omega : n < 2 ^ 32),
    Nat.mod_eq_of_lt h]

/-- A chunk fits the length of a request. -/
theorem toNat_ofNat_chunk {n : ℕ} (h : n ≤ 256) : (UInt32.ofNat n).toNat = n := by
  rw [UInt32.toNat_ofNat', Nat.mod_eq_of_lt (by omega)]

/-- A chunk is asked for as a whole. -/
theorem wantPlainBytes_chunk {n : ℕ} (h : n ≤ 256) : wantPlainBytes (UInt32.ofNat n) n = n := by
  rw [wantPlainBytes, toNat_ofNat_chunk h, ite_self, readDataRespCap]
  exact Nat.min_eq_left h

/-! ### Checks and headers -/

section Headers

variable {W σ : Type} {env : (r : List UInt8) → W → Transmit E r → W → Prop} {I : W → Prop}
  {Q : List UInt8 → σ → W → Prop} {R : Fault (SessionError E) → σ → W → Prop} {t : σ} {w : W}
  {fileNo : UInt8} {offset length : UInt32}

/-- The checks of a read: it is readable, or a parameter is refused. -/
theorem wp_validateRequest_readable {Q : Unit → σ → W → Prop} {bufLen : ℕ}
    (hQ : Readable fileNo offset length bufLen → Q () t w)
    (hR : ∀ field value reason, ¬ Readable fileNo offset length bufLen →
      R (.error (.invalidCommandParameter field value reason)) t w) :
    (validateRequest fileNo offset length bufLen).wp env I Q R t w := by
  simp only [validateRequest, validateTarget, Script.wp_bind, Script.wp_require]
  refine ⟨fun hfile => ⟨fun hoffset => ⟨fun hlength => ⟨fun hbuf => ⟨fun hlen => ?_,
    fun hno => hR _ _ _ ?_⟩, fun hno => hR _ _ _ ?_⟩, fun hno => hR _ _ _ ?_⟩,
    fun hno => hR _ _ _ ?_⟩, fun hno => hR _ _ _ ?_⟩
  · exact hQ ⟨hfile, hoffset, hlength, hbuf, hlen⟩
  · exact fun hall => hno hall.2.2.2.2
  · exact fun hall => hno hall.2.2.2.1
  · exact fun hall => hno hall.2.2.1
  · exact fun hall => hno hall.2.1
  · exact fun hall => hno hall.1

/-- The checks of a write: it is writable, or a parameter is refused. -/
theorem wp_validateHeader_writable {Q : Unit → σ → W → Prop} {len : ℕ}
    (hQ : Writable fileNo offset len → Q () t w)
    (hR : ∀ field value reason, ¬ Writable fileNo offset len →
      R (.error (.invalidCommandParameter field value reason)) t w) :
    (validateHeader fileNo offset len).wp env I Q R t w := by
  simp only [validateHeader, validateTarget, Script.wp_bind, Script.wp_require]
  refine ⟨fun hfile => ⟨fun hoffset => ⟨fun hne => ⟨fun hlen => ?_, fun hno => hR _ _ _ ?_⟩,
    fun hno => hR _ _ _ ?_⟩, fun hno => hR _ _ _ ?_⟩, fun hno => hR _ _ _ ?_⟩
  · exact hQ ⟨hfile, hoffset, hne, hlen⟩
  · exact fun hall => hno hall.2.2.2
  · exact fun hall => hno hall.2.2.1
  · exact fun hall => hno hall.2.1
  · exact fun hall => hno hall.1

/-- The header of a read: a panic, where the build has debug assertions and a field does not fit. -/
theorem wp_buildReadHeader :
    (buildReadHeader P fileNo offset length).wp env I Q R t w ↔
      ((P.debugAssertions = true → HeaderFits fileNo offset length) →
        Q (headerBytes fileNo offset length) t w) ∧
      (¬ (P.debugAssertions = true → HeaderFits fileNo offset length) → R .panicked t w) := by
  simp only [buildReadHeader, debugAssert, Script.wp_bind, Script.wp_assert, Script.wp_pure]

/-- The header of a write. -/
theorem wp_buildWriteHeader :
    (buildWriteHeader P fileNo offset length).wp env I Q R t w ↔
      ((P.debugAssertions = true → HeaderFits fileNo offset length ∧ length ≠ 0) →
        Q (headerBytes fileNo offset length) t w) ∧
      (¬ (P.debugAssertions = true → HeaderFits fileNo offset length ∧ length ≠ 0) →
        R .panicked t w) := by
  simp only [buildWriteHeader, debugAssert, Script.wp_bind, Script.wp_assert, Script.wp_pure]

/-- The header of a chunk fails its assertions by the offset alone. -/
theorem headerFits_chunk (hfile : fileNo ≤ 0x1F) {n : ℕ} (hn : n ≤ 256) :
    HeaderFits fileNo offset (UInt32.ofNat n) ↔ offset.toNat ≤ u24Max := by
  have hlength : (UInt32.ofNat n).toNat ≤ u24Max := by
    rw [toNat_ofNat_chunk hn, u24Max]
    omega
  exact ⟨fun hfits => hfits.2.1, fun hoffset => ⟨hfile, hoffset, hlength⟩⟩

/-- A chunk of some bytes has a length. -/
theorem ofNat_chunk_ne_zero {n : ℕ} (hpos : 0 < n) (hn : n ≤ 256) : UInt32.ofNat n ≠ 0 := by
  intro hzero
  have hlen := toNat_ofNat_chunk hn
  rw [hzero] at hlen
  exact absurd hlen hpos.ne

/-- An assertion that holds does nothing. -/
theorem debugAssert_of {c : Prop} [Decidable c] (h : c) :
    (debugAssert P c : Cmd E σ Unit) = pure () := by
  rw [debugAssert, Script.assert, if_pos fun _ => h]

/-- In plain mode the assertions of the header repeat the checks of the request. -/
theorem readDataPlain_eq (fileNo : UInt8) (offset length : UInt32) (buf : List UInt8) :
    (readDataPlain fileNo offset length buf : Cmd E σ _) = do
      validateRequest fileNo offset length buf.length
      let want := wantPlainBytes length buf.length
      let header ← buildReadHeader P fileNo offset length
      let resp ← transmitExpecting .operationOk (nativeApdu 0xAD 0x00 0x00 header)
      let n := min (min resp.data.length want) buf.length
      return (n, overlay buf 0 (resp.data.take n)) := by
  refine Script.bind_congr_of_wp fun t => ?_
  simp only [validateRequest, validateTarget, Script.wp_bind, Script.wp_require]
  refine ⟨fun hfile => ⟨fun hoffset => ⟨fun hlength => ⟨fun _ => ⟨fun _ => ?_, fun _ => trivial⟩,
    fun _ => trivial⟩, fun _ => trivial⟩, fun _ => trivial⟩, fun _ => trivial⟩
  have hfits : HeaderFits fileNo offset length := ⟨hfile, hoffset, hlength⟩
  rw [buildReadHeader, debugAssert_of P hfits]
  rfl

/-- In plain mode the assertions of the header repeat the checks of the write. -/
theorem writeDataPlain_eq (fileNo : UInt8) (offset : UInt32) (data : List UInt8) :
    (writeDataPlain fileNo offset data : Cmd E σ _) = do
      validateHeader fileNo offset data.length
      validateBodyLen (7 + data.length)
      let header ← buildWriteHeader P fileNo offset (UInt32.ofNat data.length)
      let _ ← transmitExpecting .operationOk (nativeApdu 0x8D 0x00 0x00 (header ++ data))
      return () := by
  refine Script.bind_congr_of_wp fun t => ?_
  simp only [validateHeader, validateTarget, Script.wp_bind, Script.wp_require]
  refine ⟨fun hfile => ⟨fun hoffset => ⟨fun hne => ⟨fun hlength => ?_, fun _ => trivial⟩,
    fun _ => trivial⟩, fun _ => trivial⟩, fun _ => trivial⟩
  have hlen : (UInt32.ofNat data.length).toNat = data.length := by
    rw [UInt32.toNat_ofNat', Nat.mod_eq_of_lt (by rw [u24Max] at hlength; omega)]
  have hfits : HeaderFits fileNo offset (UInt32.ofNat data.length) ∧
      UInt32.ofNat data.length ≠ 0 := by
    refine ⟨⟨hfile, hoffset, hlen.le.trans hlength⟩, fun hzero => hne ?_⟩
    rw [← hlen, hzero]
    rfl
  rw [buildWriteHeader, debugAssert_of P hfits]
  rfl

end Headers

/-! ### Loop rules -/

section Loops

variable {W : Type} {env : (r : List UInt8) → W → Transmit E r → W → Prop} {I : W → Prop}

/-- What every plain request preserves, the loop preserves. -/
theorem wp_readFilePlainLoop_of {J : Authenticated S → W → Prop}
    {R : Fault (SessionError E) → Authenticated S → W → Prop} {fileNo : UInt8}
    (hone : ∀ offset length buf s w, J s w →
      (readDataPlain fileNo offset length buf).wp env I
        (fun _ s' w' => J (s'.note .unprotected).advanceCounter w') R s w)
    (hpanic : ∀ s w, J s w → R .panicked s w) (total : ℕ) (currentOffset : UInt32)
    (remaining : ℕ) (buf : List UInt8) {s : Authenticated S} {w : W} (h : J s w) :
    (readFilePlainLoop fileNo total currentOffset remaining buf).wp env I (fun _ => J) R s w := by
  induction remaining using Nat.strong_induction_on generalizing total currentOffset buf s w with
  | _ remaining ih =>
      rw [readFilePlainLoop]
      split
      · rename_i hpos
        simp only [advanceCounter, SecureChannel.note, advance, state, Script.wp_bind,
          Script.wp_assert, Script.wp_get, Script.wp_set]
        refine ⟨fun _ => ?_, fun _ => hpanic s w h⟩
        refine Script.wp_mono (hone _ _ _ _ _ h) (fun r s' w' h' => ?_) fun _ _ _ he => he
        split
        · exact Script.wp_pure.mpr h'
        · exact ih _ (by simp only [plainReadChunk]; omega) _ _ _ h'
      · exact Script.wp_pure.mpr h

/-- What every request with a MAC preserves, the loop preserves. -/
theorem wp_readDataMacLoop_of {J : Authenticated S → W → Prop}
    {R : Fault (SessionError E) → Authenticated S → W → Prop} {fileNo : UInt8}
    (hone : ∀ offset length buf s w, J s w →
      (readDataMacOneApdu P fileNo offset length buf).wp env I (fun _ => J) R s w)
    (hpanic : ∀ s w, J s w → R .panicked s w) {target : ℕ} (total : ℕ) (currentOffset : UInt32)
    (buf : List UInt8) {s : Authenticated S} {w : W} (h : J s w) :
    (readDataMacLoop P fileNo target total currentOffset buf).wp env I (fun _ => J) R s w := by
  induction hleft : target - total using Nat.strong_induction_on
    generalizing total currentOffset buf s w with
  | _ left ih =>
      rw [readDataMacLoop]
      split
      · rename_i hlt
        simp only [Script.wp_bind, Script.wp_assert]
        refine ⟨fun _ => ?_, fun _ => hpanic s w h⟩
        refine Script.wp_mono (hone _ _ _ _ _ h) (fun r s' w' h' => ?_) fun _ _ _ he => he
        split
        · exact Script.wp_pure.mpr h'
        · exact ih _ (by simp only [macReadChunk] at *; omega) _ _ _ h' rfl
      · exact Script.wp_pure.mpr h

/-- What every request for encrypted data preserves, the loop preserves. -/
theorem wp_readDataFullLoop_of {J : Authenticated S → W → Prop}
    {R : Fault (SessionError E) → Authenticated S → W → Prop} {fileNo : UInt8}
    (hone : ∀ offset length buf s w, J s w →
      (readDataFullOneApdu P fileNo offset length buf).wp env I (fun _ => J) R s w)
    (hpanic : ∀ s w, J s w → R .panicked s w) {target : ℕ} (total : ℕ) (currentOffset : UInt32)
    (buf : List UInt8) {s : Authenticated S} {w : W} (h : J s w) :
    (readDataFullLoop P fileNo target total currentOffset buf).wp env I (fun _ => J) R s w := by
  induction hleft : target - total using Nat.strong_induction_on
    generalizing total currentOffset buf s w with
  | _ left ih =>
      rw [readDataFullLoop]
      split
      · rename_i hlt
        simp only [Script.wp_bind, Script.wp_assert]
        refine ⟨fun _ => ?_, fun _ => hpanic s w h⟩
        refine Script.wp_mono (hone _ _ _ _ _ h) (fun r s' w' h' => ?_) fun _ _ _ he => he
        split
        · exact Script.wp_pure.mpr h'
        · exact ih _ (by omega) _ _ _ h' rfl
      · exact Script.wp_pure.mpr h

variable {J : ℕ → List UInt8 → Authenticated S → W → Prop}
  {Q : ℕ × List UInt8 → Authenticated S → W → Prop}
  {R : Fault (SessionError E) → Authenticated S → W → Prop} {fileNo : UInt8} {offset : UInt32}
  {target : ℕ} {buf : List UInt8} {s : Authenticated S} {w : W}

/-- Behind a chunk: a short answer ends the loop, and an answer in full goes on with `next`. -/
theorem wp_chunkRead {total chunk : ℕ} {r : ℕ × List UInt8}
    {next : Cmd E (Authenticated S) (ℕ × List UInt8)} (h : ChunkRead J Q total chunk buf r s w)
    (hnext : r.1 = chunk → J (total + chunk) (overlay buf total r.2) s w → next.wp env I Q R s w) :
    (if r.1 < chunk then pure (total + r.1, overlay buf total r.2) else next).wp env I Q R s w := by
  rw [ChunkRead] at h
  split
  · rename_i hshort
    rw [if_pos hshort] at h
    exact Script.wp_pure.mpr h
  · rename_i hfull
    rw [if_neg hfull] at h
    exact hnext h.1 h.2

/-- The plain reading loop, with an invariant of the number of bytes read and the buffer. -/
theorem wp_readFilePlainLoop (hbuf : ∀ total buf s w, J total buf s w → target ≤ buf.length)
    (hdone : ∀ buf s w, J target buf s w → Q (target, buf) s w)
    (hchunk : ∀ total buf s w, J total buf s w → total < target →
      (readDataPlain fileNo (offset + UInt32.ofNat total)
        (UInt32.ofNat (min (target - total) plainReadChunk))
        (slice buf total (min (target - total) plainReadChunk))).wp env I
        (fun r s' w' => ChunkRead J Q total (min (target - total) plainReadChunk) buf r
          (s'.note .unprotected).advanceCounter w') R s w)
    (h : J 0 buf s w) : (readFilePlainLoop fileNo 0 offset target buf).wp env I Q R s w := by
  have hsize : 0 < plainReadChunk := by simp [plainReadChunk]
  have hloop : ∀ buf s w, J 0 buf s w →
      (readFilePlainLoop fileNo 0 (offset + UInt32.ofNat 0) (target - 0) buf).wp env I Q R s w := by
    refine chunks_induction (motive := fun total => ∀ buf s w, J total buf s w →
      (readFilePlainLoop fileNo total (offset + UInt32.ofNat total) (target - total) buf).wp env I
        Q R s w) hsize (fun buf s w h => ?_) (fun total hlt ih buf s w h => ?_) (Nat.zero_le target)
    · rw [readFilePlainLoop, if_neg (by omega)]
      exact Script.wp_pure.mpr (hdone buf s w h)
    · have htarget := hbuf total buf s w h
      rw [readFilePlainLoop, if_pos (by omega)]
      simp only [advanceCounter, SecureChannel.note, advance, state, Script.wp_bind,
        Script.wp_assert, Script.wp_get, Script.wp_set]
      refine ⟨fun _ => ?_, fun hno => absurd (by omega) hno⟩
      refine Script.wp_mono (hchunk total buf s w h hlt) (fun r s' w' h' => ?_) fun _ _ _ he => he
      refine wp_chunkRead h' fun hr hJ => ?_
      have hnext := ih _ _ _ hJ
      rw [UInt32.ofNat_add, ← UInt32.add_assoc, ← Nat.sub_sub] at hnext
      rw [hr]
      exact hnext
  have hzero := hloop buf s w h
  rwa [show offset + UInt32.ofNat 0 = offset from UInt32.add_zero offset] at hzero

/-- The reading loop with a MAC, with an invariant of the number of bytes read and the buffer. -/
theorem wp_readDataMacLoop (hbuf : ∀ total buf s w, J total buf s w → target ≤ buf.length)
    (hdone : ∀ buf s w, J target buf s w → Q (target, buf) s w)
    (hchunk : ∀ total buf s w, J total buf s w → total < target →
      (readDataMacOneApdu P fileNo (offset + UInt32.ofNat total)
        (UInt32.ofNat (min (target - total) macReadChunk))
        (slice buf total (min (target - total) macReadChunk))).wp env I
        (ChunkRead J Q total (min (target - total) macReadChunk) buf) R s w)
    (h : J 0 buf s w) : (readDataMacLoop P fileNo target 0 offset buf).wp env I Q R s w := by
  have hsize : 0 < macReadChunk := by simp [macReadChunk]
  have hloop : ∀ buf s w, J 0 buf s w →
      (readDataMacLoop P fileNo target 0 (offset + UInt32.ofNat 0) buf).wp env I Q R s w := by
    refine chunks_induction (motive := fun total => ∀ buf s w, J total buf s w →
      (readDataMacLoop P fileNo target total (offset + UInt32.ofNat total) buf).wp env I Q R s w)
      hsize (fun buf s w h => ?_) (fun total hlt ih buf s w h => ?_) (Nat.zero_le target)
    · rw [readDataMacLoop, if_neg (by omega)]
      exact Script.wp_pure.mpr (hdone buf s w h)
    · have htarget := hbuf total buf s w h
      rw [readDataMacLoop, if_pos hlt]
      simp only [Script.wp_bind, Script.wp_assert]
      refine ⟨fun _ => ?_, fun hno => absurd (by omega) hno⟩
      refine Script.wp_mono (hchunk total buf s w h hlt) (fun r s' w' h' => ?_) fun _ _ _ he => he
      refine wp_chunkRead h' fun hr hJ => ?_
      have hnext := ih _ _ _ hJ
      rw [UInt32.ofNat_add, ← UInt32.add_assoc] at hnext
      rw [hr]
      exact hnext
  have hzero := hloop buf s w h
  rwa [show offset + UInt32.ofNat 0 = offset from UInt32.add_zero offset] at hzero

/-- The reading loop for encrypted data, with an invariant of the number of bytes read and the
buffer. Every chunk is answered in full. -/
theorem wp_readDataFullLoop (hbuf : ∀ total buf s w, J total buf s w → target ≤ buf.length)
    (hdone : ∀ buf s w, J target buf s w → Q (target, buf) s w)
    (hchunk : ∀ total buf s w, J total buf s w → total < target →
      (readDataFullOneApdu P fileNo (offset + UInt32.ofNat total)
        (UInt32.ofNat (min (target - total) fullReadChunk))
        (slice buf total (min (target - total) fullReadChunk))).wp env I
        (fun r s' w' => r.1 = min (target - total) fullReadChunk ∧
          J (total + min (target - total) fullReadChunk) (overlay buf total r.2) s' w') R s w)
    (h : J 0 buf s w) : (readDataFullLoop P fileNo target 0 offset buf).wp env I Q R s w := by
  have hsize : 0 < fullReadChunk := by simp [fullReadChunk]
  have hloop : ∀ buf s w, J 0 buf s w →
      (readDataFullLoop P fileNo target 0 (offset + UInt32.ofNat 0) buf).wp env I Q R s w := by
    refine chunks_induction (motive := fun total => ∀ buf s w, J total buf s w →
      (readDataFullLoop P fileNo target total (offset + UInt32.ofNat total) buf).wp env I Q R s w)
      hsize (fun buf s w h => ?_) (fun total hlt ih buf s w h => ?_) (Nat.zero_le target)
    · rw [readDataFullLoop, if_neg (by omega)]
      exact Script.wp_pure.mpr (hdone buf s w h)
    · have htarget := hbuf total buf s w h
      rw [readDataFullLoop, if_pos hlt]
      simp only [Script.wp_bind, Script.wp_assert]
      refine ⟨fun _ => ?_, fun hno => absurd (by omega) hno⟩
      refine Script.wp_mono (hchunk total buf s w h hlt) (fun r s' w' h' => ?_) fun _ _ _ he => he
      rw [if_neg (by omega)]
      have hnext := ih _ _ _ h'.2
      rw [UInt32.ofNat_add, ← UInt32.add_assoc] at hnext
      rw [h'.1]
      exact hnext
  have hzero := hloop buf s w h
  rwa [show offset + UInt32.ofNat 0 = offset from UInt32.add_zero offset] at hzero

/-- The write loops, with an invariant of the number of bytes written. -/
theorem wp_writeLoop {σ : Type} {J : ℕ → σ → W → Prop} {Q : Unit → σ → W → Prop}
    {R : Fault (SessionError E) → σ → W → Prop} {chunk : ℕ} (hchunk : 0 < chunk)
    {one : UInt32 → List UInt8 → Cmd E σ Unit} {offset : UInt32} {data : List UInt8}
    (hdone : ∀ t v, J data.length t v → Q () t v)
    (hone : ∀ written t v, J written t v → written < data.length →
      (one (offset + UInt32.ofNat written) (slice data written chunk)).wp env I
        (fun _ => J (written + (slice data written chunk).length)) R t v)
    {t : σ} {v : W} (h : J 0 t v) : (writeLoop chunk one offset data).wp env I Q R t v := by
  -- the rest of the data and the next offset are those of `written`
  have hloop : ∀ left written t v, data.length - written = left → written ≤ data.length →
      J written t v →
      (writeLoop chunk one (offset + UInt32.ofNat written) (data.drop written)).wp
        env I Q R t v := by
    intro left
    induction left using Nat.strong_induction_on with
    | _ left ih =>
        intro written t v hleft hle h
        rw [writeLoop]
        split
        · rename_i hmore
          have hlt : written < data.length := by
            rw [ne_eq, List.drop_eq_nil_iff] at hmore
            omega
          have hlen : (slice data written chunk).length = min chunk (data.length - written) := by
            rw [slice, List.length_take, List.length_drop]
          simp only [Script.wp_bind]
          refine Script.wp_mono (hone written t v h hlt) (fun _ t' v' h' => ?_) fun _ _ _ he => he
          have hnext := ih _ (by omega) (written + (slice data written chunk).length) t' v' rfl
            (by omega) h'
          rw [UInt32.ofNat_add, ← UInt32.add_assoc] at hnext
          have hdrop : (data.drop written).drop chunk =
              data.drop (written + (slice data written chunk).length) := by
            rw [List.drop_drop]
            by_cases hlast : written + chunk ≤ data.length
            · congr 1
              omega
            · rw [List.drop_eq_nil_of_le (by omega), List.drop_eq_nil_of_le (by omega)]
          rw [hdrop]
          exact hnext
        · rename_i hno
          have hend : data.length ≤ written := by
            by_contra hlt
            exact hno ⟨by rw [ne_eq, List.drop_eq_nil_iff]; exact hlt, hchunk⟩
          obtain rfl : written = data.length := by omega
          exact Script.wp_pure.mpr (hdone t v h)
  have hzero := hloop _ 0 t v rfl (Nat.zero_le _) h
  rwa [List.drop_zero, show offset + UInt32.ofNat 0 = offset from UInt32.add_zero offset] at hzero

/-- What every chunk of a write preserves, the loop preserves. -/
theorem wp_writeLoop_of {σ : Type} {J : σ → W → Prop} {R : Fault (SessionError E) → σ → W → Prop}
    {chunk : ℕ} {one : UInt32 → List UInt8 → Cmd E σ Unit} {data : List UInt8}
    (hone : ∀ offset part t v, part ≠ [] → part.length ≤ chunk → J t v →
      (one offset part).wp env I (fun _ => J) R t v)
    (currentOffset : UInt32) {t : σ} {v : W} (h : J t v) :
    (writeLoop chunk one currentOffset data).wp env I (fun _ => J) R t v := by
  rcases Nat.eq_zero_or_pos chunk with rfl | hchunk
  · rw [writeLoop, if_neg (by omega)]
    exact Script.wp_pure.mpr h
  · refine wp_writeLoop (J := fun _ => J) hchunk (fun _ _ h => h) (fun written t v h hlt => ?_) h
    refine hone _ _ t v ?_ (List.length_take_le ..) h
    rw [slice, ne_eq, List.take_eq_nil_iff, List.drop_eq_nil_iff]
    omega

end Loops

end Ntag424
