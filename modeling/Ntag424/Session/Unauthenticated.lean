import Mathlib.Tactic.Common
import Ntag424.Lib.Chunks
import Ntag424.Session.Transcript

/-!
# Unauthenticated Sessions

The plain ISO commands (`commands/iso_*.rs`), the plain forms of `GetVersion` and
`GetFileSettings`, and the operations of an unauthenticated session
(`session/unauthenticated.rs`). The session tracks what is selected on the tag, and selects the
application and a file only when they are not selected already.

## Modelling

* An operation borrows the session, so the session survives an error.
* Offsets are 16-bit numbers; the offset of a chunk is computed without overflow and checked
  before it is cut to 16 bits.

## Main results

* `wp_readUnauthenticatedLoop`, `wp_writeUnauthenticatedLoop`: the loops, by an invariant of how
  far they have come.
* `wp_readUnauthenticatedLoop_of`, `wp_writeUnauthenticatedLoop_of`: what every APDU of a loop
  preserves, the loop preserves.
* `wp_readUnauthenticatedLoop_received`: from a tag that answers every `ISOReadBinary`, the loop
  receives what a chunked reader receives.
-/

namespace Ntag424

open Numerals

variable {E σ : Type}

/-! ### ISO commands -/

/-- The APDU of `iso_select_ef_by_fid`. -/
def isoSelectEfApdu (fileId : ℕ) : List UInt8 := [0x00, 0xA4, 0x00, 0x0C, 0x02] ++ beBytes 2 fileId

/-- `iso_select_ef_by_fid`. -/
def isoSelectEfByFid (fileId : ℕ) : Cmd E σ Unit := do
  let resp ← transmit (isoSelectEfApdu fileId)
  Script.require (isoStatus resp.sw1 resp.sw2 = .normalProcessing)
    (.errorResponse (isoStatus resp.sw1 resp.sw2))

/-- `P1` and `P2` of `ISOReadBinary` and `ISOUpdateBinary`. -/
def isoAddress (shortFileId : Option UInt8) (offset : UInt16) : Cmd E σ (UInt8 × UInt8) :=
  match shortFileId with
  | some sfid => do
      Script.require (0x01 ≤ sfid ∧ sfid ≤ 0x1E)
        (.invalidCommandParameter "short_file_id" sfid.toNat "must be 0x01..=0x1E")
      Script.require (offset.toNat ≤ 0xFF)
        (.invalidCommandParameter "offset" offset.toNat "must be <= 0xFF with a short FileID")
      return (0x80 ||| sfid, UInt8.ofNat offset.toNat)
  | none => do
      Script.require (offset.toNat ≤ 0x7FFF)
        (.invalidCommandParameter "offset" offset.toNat "must be <= 0x7FFF")
      return (UInt8.ofNat (offset.toNat / 256), UInt8.ofNat offset.toNat)

/-- `ISO_READ_BINARY_MAX`. -/
def isoReadBinaryMax : ℕ := 256

/-- The APDU of `iso_read_binary`: a length byte of zero asks for the whole file. -/
def isoReadBinaryApdu (p1 p2 : UInt8) (want : ℕ) : List UInt8 :=
  [0x00, 0xB0, p1, p2, if want = isoReadBinaryMax then 0x00 else UInt8.ofNat want]

/-- `iso_read_binary`. -/
def isoReadBinary (shortFileId : Option UInt8) (offset : UInt16) (buf : List UInt8) :
    Cmd E σ (ℕ × List UInt8) := do
  Script.require (buf ≠ []) (.invalidCommandParameter "buf.len()" 0 "must be non-zero")
  let want := min buf.length isoReadBinaryMax
  let (p1, p2) ← isoAddress shortFileId offset
  let resp ← transmit (isoReadBinaryApdu p1 p2 want)
  Script.require (isoStatus resp.sw1 resp.sw2 = .normalProcessing)
    (.errorResponse (isoStatus resp.sw1 resp.sw2))
  Script.require (resp.data.length ≤ want) (.unexpectedLength resp.data.length want)
  return (resp.data.length, overlay buf 0 resp.data)

/-- `ISO_UPDATE_BINARY_MAX`. -/
def isoUpdateBinaryMax : ℕ := 255

/-- The APDU of `iso_update_binary`, without a length byte for the answer. -/
def isoUpdateBinaryApdu (p1 p2 : UInt8) (data : List UInt8) : List UInt8 :=
  [0x00, 0xD6, p1, p2, UInt8.ofNat data.length] ++ data

/-- `iso_update_binary`. -/
def isoUpdateBinary (shortFileId : Option UInt8) (offset : UInt16) (data : List UInt8) :
    Cmd E σ Unit := do
  Script.require (data ≠ []) (.invalidCommandParameter "data.len()" 0 "must be non-zero")
  Script.require (data.length ≤ isoUpdateBinaryMax)
    (.apduBodyTooLarge data.length isoUpdateBinaryMax)
  let (p1, p2) ← isoAddress shortFileId offset
  let resp ← transmit (isoUpdateBinaryApdu p1 p2 data)
  Script.require (isoStatus resp.sw1 resp.sw2 = .normalProcessing)
    (.errorResponse (isoStatus resp.sw1 resp.sw2))

/-! ### Plain native commands -/

/-- `extract_part3`. -/
def extractPart3 (data : List UInt8) : Cmd E σ (Bytes 14) := do
  Script.require (14 ≤ data.length) (.unexpectedLength data.length 14)
  return Bytes.fill 14 (data.take 14)

/-- `get_version` in plain mode. -/
def getVersionPlain : Cmd E σ Version := do
  let (part1, part2, last) ← driveChain [0x90, 0x60, 0x00, 0x00, 0x00]
  let part3 ← extractPart3 last
  return ⟨part1, part2, part3⟩

/-- `get_file_settings` in plain mode. -/
def getFileSettingsPlain (fileNo : UInt8) : Cmd E σ FileSettingsView := do
  let resp ← transmitExpecting .operationOk (nativeApdu 0xF5 0x00 0x00 [fileNo])
  liftSettings (FileSettingsView.decode resp.data)

/-- `read_sig`: in plain mode. -/
def readSig : Cmd E σ (Bytes signatureLen) := do
  let resp ← transmit (nativeApdu 0x3C 0x00 0x00 [0x00])
  let status := desfireStatus resp.sw1 resp.sw2
  Script.require (status = .operationOk ∨ status = .unknown 0x9190) (.errorResponse status)
  expectBytes signatureLen resp.data

namespace Version

/-- `has_tag_tamper_support`. -/
def hasTagTamperSupport (v : Version) : Bool := v.part1.byte 2 &&& 0x0F == 0x08

/-- `is_ntag_424`. -/
def isNtag424 (v : Version) : Bool :=
  let subType := v.part1.byte 2
  v.part1.byte 0 == 0x04 && v.part1.byte 1 == 0x04 &&
    (subType &&& 0x0F == 0x08 || subType &&& 0x0F == 0x02) &&
    (subType &&& 0xF0 == 0x00 || subType &&& 0xF0 == 0x80) &&
    v.part1.byte 3 == 0x30 && v.part1.byte 4 == 0x00 && v.part1.byte 5 == 0x11 &&
    v.part1.byte 6 == 0x05 && v.part2.byte 0 == 0x04 && v.part2.byte 1 == 0x04 &&
    v.part2.byte 2 == 0x02 && v.part2.byte 3 == 0x01 && v.part2.byte 4 == 0x02 &&
    v.part2.byte 5 == 0x11 && v.part2.byte 6 == 0x05

/-- `Version::uid`. -/
def uid (v : Version) : Bytes 7 := Bytes.fill 7 (v.part3.toList.take 7)

end Version

/-! ### Reading and writing files -/

/-- `ISO_READ_BINARY_CHUNK`. -/
def isoReadBinaryChunk : ℕ := 256

/-- `ISO_UPDATE_BINARY_CHUNK`. -/
def isoUpdateBinaryChunk : ℕ := 255

/-- The check of the offset of a chunk. -/
def requireIsoOffset (abs : ℕ) : Cmd E σ Unit :=
  Script.require (abs ≤ 0x7FFF) (.invalidCommandParameter "offset" abs "must be <= 0x7FFF")

/-- The loop of `read_file_unauthenticated`: a short answer ends it. -/
def readUnauthenticatedLoop (offset : UInt16) (len total : ℕ) (buf : List UInt8) :
    Cmd E σ (ℕ × List UInt8) :=
  if total < len then do
    let want := min (len - total) isoReadBinaryChunk
    let abs := offset.toNat + total
    requireIsoOffset abs
    let (n, part) ← isoReadBinary none (UInt16.ofNat abs) (slice buf total want)
    let buf := overlay buf total part
    if n < want then return (total + n, buf)
    else readUnauthenticatedLoop offset len (total + n) buf
  else return (total, buf)
termination_by len - total
decreasing_by
  have hwant : 0 < want := by simp only [want, isoReadBinaryChunk]; omega
  omega

/-- The loop of `write_file_unauthenticated`. -/
def writeUnauthenticatedLoop (offset : UInt16) (data : List UInt8) (written : ℕ) : Cmd E σ Unit :=
  if written < data.length then do
    let chunkLen := min (data.length - written) isoUpdateBinaryChunk
    let abs := offset.toNat + written
    requireIsoOffset abs
    isoUpdateBinary none (UInt16.ofNat abs) (slice data written chunkLen)
    writeUnauthenticatedLoop offset data (written + chunkLen)
  else return ()
termination_by data.length - written
decreasing_by
  have hchunk : 0 < chunkLen := by simp only [chunkLen, isoUpdateBinaryChunk]; omega
  omega

namespace Session

/-- Select a file before it is read or written, unless it is selected. -/
def selectFile (file : File) : Cmd E (Session Unauthenticated) Unit := do
  selectNdefApplication
  let session ← Script.get
  if session.efSelected = some file.fileId then return ()
  else
    isoSelectEfByFid file.fileId
    Script.set { session with efSelected := some file.fileId }

/-- `read_file_unauthenticated`. -/
def readFileUnauthenticated (file : File) (offset : UInt16) (buf : List UInt8) :
    Cmd E (Session Unauthenticated) (ℕ × List UInt8) := do
  selectFile file
  if buf = [] then isoReadBinary none offset buf
  else readUnauthenticatedLoop offset buf.length 0 buf

/-- `write_file_unauthenticated`. -/
def writeFileUnauthenticated (file : File) (offset : UInt16) (data : List UInt8) :
    Cmd E (Session Unauthenticated) Unit := do
  selectFile file
  if data = [] then isoUpdateBinary none offset data
  else writeUnauthenticatedLoop offset data 0

/-- `get_file_settings` of an unauthenticated session. -/
def getFileSettingsUnauthenticated (file : File) :
    Cmd E (Session Unauthenticated) FileSettingsView := do
  selectNdefApplication
  getFileSettingsPlain file.fileNo

/-- `get_version` of an unauthenticated session. -/
def getVersionUnauthenticated : Cmd E (Session Unauthenticated) Version := getVersionPlain

/-- `verify_originality` of an unauthenticated session, for a check `verify`. -/
def verifyOriginalityUnauthenticated
    (verify : Bytes signatureLen → Bytes 7 → Except OriginalityError Unit) (uid : Bytes 7) :
    Cmd E (Session Unauthenticated) (Bytes signatureLen) := do
  let sig ← readSig
  match verify sig uid with
  | .ok () => return sig
  | .error e => Script.fail (.originalityVerificationFailed e)

end Session

/-! ### Loop rules -/

section Loops

variable {W : Type} {env : (r : List UInt8) → W → Transmit E r → W → Prop} {I : W → Prop}
  {J : σ → W → Prop} {R : Fault (SessionError E) → σ → W → Prop}

/-- The reading loop, with an invariant of the number of bytes read and the buffer. -/
theorem wp_readUnauthenticatedLoop {J : ℕ → List UInt8 → σ → W → Prop}
    {Q : ℕ × List UInt8 → σ → W → Prop} {offset : UInt16} {len : ℕ}
    (hdone : ∀ total buf t w, J total buf t w → len ≤ total → Q (total, buf) t w)
    (hoffset : ∀ total buf t w, J total buf t w → total < len → 0x7FFF < offset.toNat + total →
      R (.error (.invalidCommandParameter "offset" (offset.toNat + total) "must be <= 0x7FFF"))
        t w)
    (hchunk : ∀ total buf t w, J total buf t w → total < len → offset.toNat + total ≤ 0x7FFF →
      (isoReadBinary none (UInt16.ofNat (offset.toNat + total))
        (slice buf total (min (len - total) isoReadBinaryChunk))).wp env I
        (fun r t' w' =>
          if r.1 < min (len - total) isoReadBinaryChunk then
            Q (total + r.1, overlay buf total r.2) t' w'
          else J (total + r.1) (overlay buf total r.2) t' w') R t w)
    (total : ℕ) (buf : List UInt8) {t : σ} {w : W} (h : J total buf t w) :
    (readUnauthenticatedLoop offset len total buf).wp env I Q R t w := by
  induction hleft : len - total using Nat.strong_induction_on generalizing total buf t w with
  | _ left ih =>
      rw [readUnauthenticatedLoop]
      split
      · rename_i hlt
        simp only [requireIsoOffset, Script.wp_bind, Script.wp_require]
        refine ⟨fun hle => ?_, fun hgt => hoffset total buf t w h hlt (by omega)⟩
        refine Script.wp_mono (hchunk total buf t w h hlt hle) (fun r t' w' h' => ?_)
          fun _ _ _ he => he
        split
        · rename_i hshort
          rw [if_pos hshort] at h'
          exact Script.wp_pure.mpr h'
        · rename_i hfull
          rw [if_neg hfull] at h'
          exact ih _ (by simp only [isoReadBinaryChunk] at *; omega) _ _ h' rfl
      · rename_i hge
        exact Script.wp_pure.mpr (hdone total buf t w h (by omega))

/-- What every request preserves, the loop preserves. -/
theorem wp_readUnauthenticatedLoop_of
    (hone : ∀ offset buf t w, J t w →
      (isoReadBinary none offset buf).wp env I (fun _ => J) R t w)
    (hR : ∀ e t w, J t w → R (.error e) t w) (offset : UInt16) {len : ℕ} (total : ℕ)
    (buf : List UInt8) {t : σ} {w : W} (h : J t w) :
    (readUnauthenticatedLoop offset len total buf).wp env I (fun _ => J) R t w := by
  refine wp_readUnauthenticatedLoop (J := fun _ _ => J) (fun _ _ _ _ h _ => h)
    (fun _ _ t w h _ _ => hR _ t w h) (fun total buf t w h _ _ => ?_) total buf h
  refine Script.wp_mono (hone _ _ t w h) (fun r t' w' h' => ?_) fun _ _ _ he => he
  split
  · exact h'
  · exact h'

/-- The writing loop, with an invariant of the number of bytes written. -/
theorem wp_writeUnauthenticatedLoop {J : ℕ → σ → W → Prop} {Q : Unit → σ → W → Prop}
    {offset : UInt16} {data : List UInt8}
    (hdone : ∀ written t w, J written t w → data.length ≤ written → Q () t w)
    (hoffset : ∀ written t w, J written t w → written < data.length →
      0x7FFF < offset.toNat + written →
      R (.error (.invalidCommandParameter "offset" (offset.toNat + written) "must be <= 0x7FFF"))
        t w)
    (hchunk : ∀ written t w, J written t w → written < data.length →
      offset.toNat + written ≤ 0x7FFF →
      (isoUpdateBinary none (UInt16.ofNat (offset.toNat + written))
        (slice data written (min (data.length - written) isoUpdateBinaryChunk))).wp env I
        (fun _ => J (written + min (data.length - written) isoUpdateBinaryChunk)) R t w)
    (written : ℕ) {t : σ} {w : W} (h : J written t w) :
    (writeUnauthenticatedLoop offset data written).wp env I Q R t w := by
  induction hleft : data.length - written using Nat.strong_induction_on
    generalizing written t w with
  | _ left ih =>
      rw [writeUnauthenticatedLoop]
      split
      · rename_i hlt
        simp only [requireIsoOffset, Script.wp_bind, Script.wp_require]
        refine ⟨fun hle => ?_, fun hgt => hoffset written t w h hlt (by omega)⟩
        refine Script.wp_mono (hchunk written t w h hlt hle) (fun _ t' w' h' => ?_)
          fun _ _ _ he => he
        exact ih _ (by simp only [isoUpdateBinaryChunk]; omega) _ h' rfl
      · rename_i hge
        exact Script.wp_pure.mpr (hdone written t w h (by omega))

/-- What every chunk preserves, the loop preserves. -/
theorem wp_writeUnauthenticatedLoop_of
    (hone : ∀ offset part t w, J t w →
      (isoUpdateBinary none offset part).wp env I (fun _ => J) R t w)
    (hR : ∀ e t w, J t w → R (.error e) t w) (offset : UInt16) (data : List UInt8) (written : ℕ)
    {t : σ} {w : W} (h : J t w) :
    (writeUnauthenticatedLoop offset data written).wp env I (fun _ => J) R t w :=
  wp_writeUnauthenticatedLoop (J := fun _ => J) (fun _ _ _ h _ => h)
    (fun _ t w h _ _ => hR _ t w h) (fun _ t w h _ _ => hone _ _ t w h) written h

end Loops

/-! ### Tags that answer `ISOReadBinary` -/

section Reads

variable {W : Type} {env : (r : List UInt8) → W → Transmit E r → W → Prop} {J : W → Prop}
  {read : ℕ → ℕ → List UInt8} {R : Fault (SessionError E) → σ → W → Prop} {t : σ} {w : W}

/-- A tag that answers every `ISOReadBinary` in the worlds `J`, with no more bytes than asked. -/
structure ReadsBinary (env : (r : List UInt8) → W → Transmit E r → W → Prop) (J : W → Prop)
    (read : ℕ → ℕ → List UInt8) : Prop where
  length_read : ∀ offset want, (read offset want).length ≤ want
  answer : ∀ {offset want : ℕ} {w : W} {answer : Except E Response} {w' : W}, J w →
    offset ≤ 0x7FFF → 0 < want → want ≤ isoReadBinaryMax →
    env (isoReadBinaryApdu (UInt8.ofNat (offset / 256)) (UInt8.ofNat offset) want) w answer w' →
    answer = .ok ⟨read offset want, 0x90, 0x00⟩ ∧ J w'

/-- One answered `ISOReadBinary`. -/
theorem wp_isoReadBinary_answered (hread : ReadsBinary env J read) {offset : ℕ}
    (hoffset : offset ≤ 0x7FFF) {buf : List UInt8} (hbuf : buf ≠ [])
    {Q : ℕ × List UInt8 → σ → W → Prop}
    (hJ : J w) (hQ : ∀ w', J w' → Q ((read offset (min buf.length isoReadBinaryMax)).length,
      overlay buf 0 (read offset (min buf.length isoReadBinaryMax))) t w') :
    (isoReadBinary none (UInt16.ofNat offset) buf).wp env (fun _ => True) Q R t w := by
  have htoNat : (UInt16.ofNat offset).toNat = offset := by
    rw [UInt16.toNat_ofNat', Nat.mod_eq_of_lt (by omega)]
  have hpos := List.length_pos_iff.mpr hbuf
  simp only [isoReadBinary, isoAddress, Script.wp_bind, Script.wp_require, Script.wp_pure, htoNat]
  refine ⟨fun _ => ⟨fun _ => ?_, fun hno => absurd hoffset hno⟩, fun hno => absurd hbuf hno⟩
  have hwant : 0 < min buf.length isoReadBinaryMax := by
    simp only [isoReadBinaryMax]
    omega
  refine wp_transmit trivial (fun resp w' hanswer => ?_) fun e w' hanswer => ?_
  · obtain ⟨hresp, hJ'⟩ := hread.answer hJ hoffset hwant (Nat.min_le_right _ _) hanswer
    obtain rfl := Except.ok.inj hresp
    refine ⟨fun _ => ⟨fun _ => hQ w' hJ', fun hno => ?_⟩, fun hno => absurd rfl hno⟩
    exact absurd (hread.length_read _ _) hno
  · obtain ⟨hresp, -⟩ := hread.answer hJ hoffset hwant (Nat.min_le_right _ _) hanswer
    cases hresp

/-- **The reading loop receives** what the tag answers, up to the first short answer. -/
theorem wp_readUnauthenticatedLoop_received (hread : ReadsBinary env J read) {offset : UInt16}
    {buf : List UInt8} (hfits : offset.toNat + buf.length ≤ 0x8000)
    {Q : ℕ × List UInt8 → σ → W → Prop} (hJ : J w)
    (hQ : ∀ w', J w' → Q
      ((received isoReadBinaryChunk read offset.toNat buf.length).length,
        overlay buf 0 (received isoReadBinaryChunk read offset.toNat buf.length)) t w') :
    (readUnauthenticatedLoop offset buf.length 0 buf).wp env (fun _ => True) Q R t w := by
  refine wp_readUnauthenticatedLoop (J := ReadSoFar isoReadBinaryChunk read offset.toNat buf.length
    buf fun t' w' => J w' ∧ t' = t) ?_ (fun _ _ _ _ _ hlt hgt => by omega) ?_ 0 buf
    (.start ⟨hJ, rfl⟩)
  · intro total buf' t' w' h hdone
    obtain ⟨hJ', rfl⟩ := h.kept
    rw [h.done hdone]
    exact hQ w' hJ'
  · intro total buf' t' w' h hlt hoffset
    obtain ⟨hJ', rfl⟩ := h.kept
    have hlen := h.length_buf le_rfl
    have hchunk : 0 < isoReadBinaryChunk := by simp [isoReadBinaryChunk]
    have hslice : (slice buf' total (min (buf.length - total) isoReadBinaryChunk)).length =
        min (buf.length - total) isoReadBinaryChunk := length_slice (by omega)
    have hmin : min (min (buf.length - total) isoReadBinaryChunk) isoReadBinaryMax =
        min (buf.length - total) isoReadBinaryChunk := by
      simp only [isoReadBinaryChunk, isoReadBinaryMax]
      omega
    refine wp_isoReadBinary_answered hread hoffset (fun hnil => ?_) hJ' fun w'' hJ'' => ?_
    · rw [hnil, List.length_nil] at hslice
      omega
    · have hnext := h.chunkRead le_rfl hchunk hlt (hread.length_read _ _) ⟨hJ'', rfl⟩
        (hQ w'' hJ'')
      rw [ChunkRead] at hnext
      rw [hslice, hmin]
      split
      · rename_i hshort
        rwa [if_pos hshort] at hnext
      · rename_i hfull
        rw [if_neg hfull] at hnext
        rw [hnext.1]
        exact hnext.2

/-- A tag that can be selected and read as the session `ready` tells. -/
structure ServesFile (env : (r : List UInt8) → W → Transmit E r → W → Prop)
    (ready : Session Unauthenticated → W → Prop) (file : File) (read : ℕ → ℕ → List UInt8) :
    Prop where
  selectApplication : ∀ {session : Session Unauthenticated} {w : W} {answer : Except E Response}
    {w' : W}, ready session w →
    env (isoSelectDfByNameApdu ndefApplicationDfName) w answer w' →
    (∃ data, answer = .ok ⟨data, 0x90, 0x00⟩) ∧
      ready { session with ndefSelected := true, efSelected := none } w'
  selectFile : ∀ {session : Session Unauthenticated} {w : W} {answer : Except E Response} {w' : W},
    session.ndefSelected = true → ready session w → env (isoSelectEfApdu file.fileId) w answer w' →
    (∃ data, answer = .ok ⟨data, 0x90, 0x00⟩) ∧
      ready { session with efSelected := some file.fileId } w'
  reads : ∀ {session : Session Unauthenticated}, session.ndefSelected = true →
    session.efSelected = some file.fileId → ReadsBinary env (ready session) read

variable {ready : Session Unauthenticated → W → Prop} {file : File}
  {session : Session Unauthenticated}

/-- Selecting the file. -/
theorem wp_selectFile_served (hserves : ServesFile env ready file read) (h : ready session w)
    {Q : Unit → Session Unauthenticated → W → Prop}
    {R : Fault (SessionError E) → Session Unauthenticated → W → Prop}
    (hQ : ∀ session' w', session'.ndefSelected = true → session'.efSelected = some file.fileId →
      ready session' w' → Q () session' w') :
    (Session.selectFile file).wp env (fun _ => True) Q R session w := by
  have hef : ∀ (session : Session Unauthenticated) (w : W), session.ndefSelected = true →
      ready session w → (isoSelectEfByFid file.fileId).wp env (fun _ => True)
        (fun _ session' w' => session' = session ∧
          ready { session with efSelected := some file.fileId } w') R session w := by
    intro session w happ h
    simp only [isoSelectEfByFid, Script.wp_bind, Script.wp_require]
    refine wp_transmit trivial (fun resp w' hanswer => ?_) fun e w' hanswer => ?_
    · obtain ⟨⟨data, hresp⟩, h'⟩ := hserves.selectFile happ h hanswer
      obtain rfl := Except.ok.inj hresp
      exact ⟨fun _ => ⟨rfl, h'⟩, fun hno => absurd rfl hno⟩
    · obtain ⟨⟨data, hresp⟩, -⟩ := hserves.selectFile happ h hanswer
      cases hresp
  have happ : (Session.selectNdefApplication).wp env (fun _ => True)
      (fun _ session' w' => session'.ndefSelected = true ∧ ready session' w') R session w := by
    simp only [Session.selectNdefApplication, Script.wp_bind, Script.wp_get]
    by_cases hsel : session.ndefSelected = true
    · rw [if_pos hsel]
      exact Script.wp_pure.mpr ⟨hsel, h⟩
    · rw [if_neg hsel]
      simp only [isoSelectNdefApplication, Script.wp_bind, Script.wp_require, Script.wp_set]
      refine wp_transmit trivial (fun resp w' hanswer => ?_) fun e w' hanswer => ?_
      · obtain ⟨⟨data, hresp⟩, h'⟩ := hserves.selectApplication h hanswer
        obtain rfl := Except.ok.inj hresp
        exact ⟨fun _ => ⟨trivial, h'⟩, fun hno => absurd rfl hno⟩
      · obtain ⟨⟨data, hresp⟩, -⟩ := hserves.selectApplication h hanswer
        cases hresp
  rw [Session.selectFile]
  refine Script.wp_bind_of happ (fun _ session' w' h' => ?_) fun _ _ _ he => he
  simp only [Script.wp_bind, Script.wp_get]
  by_cases hsel : session'.efSelected = some file.fileId
  · rw [if_pos hsel]
    exact Script.wp_pure.mpr (hQ session' w' h'.1 hsel h'.2)
  · rw [if_neg hsel]
    refine Script.wp_bind_of (hef session' w' h'.1 h'.2) ?_ fun _ _ _ he => he
    rintro _ _ w'' ⟨rfl, h''⟩
    exact Script.wp_set.mpr (hQ _ w'' h'.1 rfl h'')

/-- **A whole read** of a file that the tag serves. Afterwards the tag is as the session tells. -/
theorem wp_readFileUnauthenticated_ready (hserves : ServesFile env ready file read)
    (h : ready session w) {offset : UInt16} {buf : List UInt8} (hbuf : buf ≠ [])
    (hfits : offset.toNat + buf.length ≤ 0x8000)
    {R : Fault (SessionError E) → Session Unauthenticated → W → Prop} :
    (Session.readFileUnauthenticated file offset buf).wp env (fun _ => True)
      (fun r session' w' => r = ((received isoReadBinaryChunk read offset.toNat buf.length).length,
        overlay buf 0 (received isoReadBinaryChunk read offset.toNat buf.length)) ∧
        ready session' w') R session w := by
  simp only [Session.readFileUnauthenticated, Script.wp_bind, if_neg hbuf]
  refine wp_selectFile_served hserves h fun session' w' happ hef h' => ?_
  exact wp_readUnauthenticatedLoop_received (hserves.reads happ hef) hfits h'
    fun _ hready => ⟨rfl, hready⟩

/-- What it returns. -/
theorem wp_readFileUnauthenticated_served (hserves : ServesFile env ready file read)
    (h : ready session w) {offset : UInt16} {buf : List UInt8} (hbuf : buf ≠ [])
    (hfits : offset.toNat + buf.length ≤ 0x8000)
    {R : Fault (SessionError E) → Session Unauthenticated → W → Prop} :
    (Session.readFileUnauthenticated file offset buf).wp env (fun _ => True)
      (fun r _ _ => r = ((received isoReadBinaryChunk read offset.toNat buf.length).length,
        overlay buf 0 (received isoReadBinaryChunk read offset.toNat buf.length))) R session w :=
  Script.wp_mono (wp_readFileUnauthenticated_ready hserves h hbuf hfits) (fun _ _ _ hr => hr.1)
    fun _ _ _ hR => hR

end Reads

end Ntag424
