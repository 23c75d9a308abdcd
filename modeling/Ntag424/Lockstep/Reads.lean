import Mathlib.Tactic.Common
import Ntag424.Lockstep.FileData
import Ntag424.Session.Buffers
import Ntag424.Session.Unauthenticated
import Ntag424.Standard

/-!
# Chunked Reads Are One Read

A tag that serves a file answers every request for data with bytes of the file, no more than
were asked for. A read in chunks then returns what one read of the whole range would have
returned, or, when an answer is short, what it has received up to and including that answer.

## Main results

* `wp_readFilePlainChunked_served`, `wp_readDataMac_served`, `wp_readDataFull_served`: the
  authenticated reads of a card that serves a file.
* `chunked_reads_eq_received`: every read of such a tag runs to the end and returns what it
  received, which is the slice of the file when every answer is.
-/

namespace Ntag424

open Numerals SecureChannel

variable {P : Primitives} {E S A W σ : Type} [LinkedSuite P S] {app : TagApp A} {k : KeyNumber}
  {a : A} {s : Authenticated S} {w : Card A} {m : UInt8 → FileAccess → CommMode}
  {fileNo : UInt8} {read : ℕ → ℕ → List UInt8} {offset length : UInt32} {buf : List UInt8}

/-! ### Serving a file -/

/-- The application answers every request for data of a file, in every state, with no more than
was asked for. -/
structure TagApp.Serves (app : TagApp A) (k : KeyNumber) (fileNo : UInt8)
    (read : ℕ → ℕ → List UInt8) : Prop where
  length_read : ∀ o n, (read o n).length ≤ n
  exec : ∀ o n a, ∃ a', app.exec k (.readData fileNo o n) a = (.ok (read o n), a')

namespace TagApp.Serves

variable {o n : ℕ}

/-- A served read returns what is served. -/
theorem eq_read (hserves : app.Serves k fileNo read) {d : List UInt8} {a' : A}
    (hexec : app.exec k (.readData fileNo o n) a = (.ok d, a')) : d = read o n := by
  obtain ⟨a'', hread⟩ := hserves.exec o n a
  rw [hexec] at hread
  exact Except.ok.inj (congrArg Prod.fst hread)

/-- A served read is not refused. -/
theorem not_refused (hserves : app.Serves k fileNo read) {e : TagError} {a' : A}
    (hexec : app.exec k (.readData fileNo o n) a = (.error e, a')) : False := by
  obtain ⟨a'', hread⟩ := hserves.exec o n a
  rw [hexec] at hread
  cases congrArg Prod.fst hread

end TagApp.Serves

/-- A chunk is asked for where it is, and as long as it is. -/
theorem readDataCommand_chunk (fileNo : UInt8) (hoffset : offset.toNat ≤ u24Max)
    {n : ℕ} (hn : n ≤ 256) :
    readDataCommand fileNo offset (UInt32.ofNat n) = .readData fileNo offset.toNat n := by
  rw [u24Max] at hoffset
  rw [readDataCommand, toNat_ofNat_chunk hn, Nat.mod_eq_of_lt (by omega),
    Nat.mod_eq_of_lt (by omega)]

/-! ### One request -/

section One

variable {n : ℕ} {Q : ℕ × List UInt8 → Authenticated S → Card A → Prop}

/-- One plain request to a card that serves the file. -/
theorem wp_readDataPlain_served (hmode : m fileNo .read = .plain)
    (hserves : app.Serves k fileNo read) (hfile : fileNo ≤ 0x1F) (hoffset : offset.toNat ≤ u24Max)
    (hpos : 0 < n) (hn : n ≤ 256) (hbuf : buf.length = n) (h : LockedIn P app k m s w)
    (hQ : ∀ w', LockedIn P app k m s.advanceCounter w' →
      Q ((read offset.toNat n).length, overlay buf 0 (read offset.toNat n)) s w') :
    (readDataPlain fileNo offset (UInt32.ofNat n) buf).wp (Prog.Answers (Card.transmit P app))
      (fun _ => True) Q (fun (_ : Fault (SessionError E)) _ _ => False) s w := by
  obtain ⟨a, rfl, hlock⟩ := h
  have hcommand := readDataCommand_chunk fileNo hoffset hn
  have hread := hserves.length_read offset.toNat n
  refine wp_readDataPlain hmode hlock trivial ?_ ?_ fun e hno => absurd ?_ hno
  · intro d a' w' hexec hlock'
    rw [hcommand] at hexec
    obtain rfl := hserves.eq_read hexec
    have hcopied : copied (UInt32.ofNat n) buf (read offset.toNat n) =
        ((read offset.toNat n).length, overlay buf 0 (read offset.toNat n)) := by
      rw [copied, hbuf, wantPlainBytes_chunk hn, Nat.min_eq_left hread, Nat.min_eq_left hread,
        List.take_length]
    rw [hcopied]
    exact hQ w' (.of_exec rfl hexec trivial hlock')
  · rintro e w' ⟨e', a', hexec, -, -⟩
    rw [hcommand] at hexec
    exact hserves.not_refused hexec
  · refine ⟨hfile, hoffset, ?_, by omega, ?_⟩
    · rw [toNat_ofNat_chunk hn, u24Max]
      omega
    · rw [toNat_ofNat_chunk hn, hbuf]
      exact .inr le_rfl

/-- One request with a MAC to a card that serves the file. -/
theorem wp_readDataMacOneApdu_served (hmode : m fileNo .read = .mac)
    (hserves : app.Serves k fileNo read) (hfile : fileNo ≤ 0x1F) (hoffset : offset.toNat ≤ u24Max)
    (hn : n ≤ macReadChunk) (hbuf : buf.length = n) (h : LockedIn P app k m s w)
    (hQ : ∀ s' w', LockedIn P app k m s' w' →
      Q ((read offset.toNat n).length, overlay buf 0 (read offset.toNat n)) s' w') :
    (readDataMacOneApdu P fileNo offset (UInt32.ofNat n) buf).wp
      (Prog.Answers (Card.transmit P app)) (fun _ => True) Q
      (fun (_ : Fault (SessionError E)) _ _ => False) s w := by
  obtain ⟨a, rfl, hlock⟩ := h
  rw [macReadChunk] at hn
  have hcommand := readDataCommand_chunk fileNo hoffset (n := n) (by omega)
  have hfits : HeaderFits fileNo offset (UInt32.ofNat n) :=
    (headerFits_chunk hfile (by omega)).mpr hoffset
  refine wp_readDataMacOneApdu hmode hlock trivial ?_ ?_ (fun hno => absurd (fun _ => hfits) hno) ?_
  · intro d a' s' w' hexec hlock'
    rw [hcommand] at hexec
    obtain rfl := hserves.eq_read hexec
    exact hQ s' w' (.of_exec rfl hexec trivial hlock')
  · rintro e s' w' ⟨e', a', hexec, -, -⟩
    rw [hcommand] at hexec
    exact hserves.not_refused hexec
  · intro d a' e s' w' hexec hlong _
    rw [hcommand] at hexec
    obtain rfl := hserves.eq_read hexec
    have hread := hserves.length_read offset.toNat n
    refine hlong ⟨?_, by omega, by rw [maxApduBody]; omega⟩
    rw [hbuf, wantPlainBytes_chunk (by omega)]
    exact hread

/-- One request for encrypted data to a card that serves the file and answers it in full. -/
theorem wp_readDataFullOneApdu_served (hP : P.Lawful) (hmode : m fileNo .read = .full)
    (hserves : app.Serves k fileNo read) (hfile : fileNo ≤ 0x1F) (hoffset : offset.toNat ≤ u24Max)
    (hn : n ≤ fullReadChunk) (hfull : (read offset.toNat n).length = n) (hbuf : buf.length = n)
    (h : LockedIn P app k m s w)
    (hQ : ∀ s' w', LockedIn P app k m s' w' →
      Q ((read offset.toNat n).length, overlay buf 0 (read offset.toNat n)) s' w') :
    (readDataFullOneApdu P fileNo offset (UInt32.ofNat n) buf).wp
      (Prog.Answers (Card.transmit P app)) (fun _ => True) Q
      (fun (_ : Fault (SessionError E)) _ _ => False) s w := by
  obtain ⟨a, rfl, hlock⟩ := h
  rw [fullReadChunk] at hn
  have hcommand := readDataCommand_chunk fileNo hoffset (n := n) (by omega)
  have hfits : HeaderFits fileNo offset (UInt32.ofNat n) :=
    (headerFits_chunk hfile (by omega)).mpr hoffset
  refine wp_readDataFullOneApdu hP hmode hlock trivial ?_ ?_
    (fun hno => absurd (fun _ => hfits) hno) ?_
  · intro d a' s' w' hexec hlock'
    rw [hcommand] at hexec
    obtain rfl := hserves.eq_read hexec
    exact hQ s' w' (.of_exec rfl hexec trivial hlock')
  · rintro e s' w' ⟨e', a', hexec, -, -⟩
    rw [hcommand] at hexec
    exact hserves.not_refused hexec
  · intro d a' e s' w' hexec hother _
    rw [hcommand] at hexec
    obtain rfl := hserves.eq_read hexec
    refine hother ⟨.inr ?_, by omega, ?_⟩
    · rw [hfull, toNat_ofNat_chunk (by omega)]
    · rw [length_m2Pad, maxApduBody, hfull]
      omega

end One

/-! ### The loops -/

/-- Every chunk of a read within the range has a position. -/
theorem toNat_chunk {len total : ℕ} (hrange : offset.toNat + len ≤ u24Max) (hlt : total < len) :
    (offset + UInt32.ofNat total).toNat = offset.toNat + total :=
  toNat_add_ofNat (by rw [u24Max] at hrange; omega)

/-- The checks of a read within the range and the buffer pass. -/
theorem wp_validateRequest_ok {env : (r : List UInt8) → W → Transmit E r → W → Prop} {t : σ}
    {v : W} {Q : Unit → σ → W → Prop} (hfile : fileNo ≤ 0x1F) (hpos : length ≠ 0)
    (hbuf : length.toNat ≤ buf.length) (hrange : offset.toNat + length.toNat ≤ u24Max)
    (hQ : Q () t v) :
    (validateRequest fileNo offset length buf.length).wp env (fun _ => True) Q
      (fun (_ : Fault (SessionError E)) _ _ => False) t v := by
  have hlen : length.toNat ≠ 0 := fun hzero => hpos (UInt32.toNat_inj.mp hzero)
  exact wp_validateRequest hQ fun _ hno _ =>
    hno ⟨hfile, by omega, by omega, by omega, .inr hbuf⟩

section Loops

variable (hserves : app.Serves k fileNo read) (hfile : fileNo ≤ 0x1F) (hpos : length ≠ 0)
  (hbuf : length.toNat ≤ buf.length) (hrange : offset.toNat + length.toNat ≤ u24Max)
  (h : LockedIn P app k m s w)

include hserves hfile hpos hbuf hrange h

/-- The plain read returns what it received. -/
theorem wp_readFilePlainChunked_served (hmode : m fileNo .read = .plain) :
    (readFilePlainChunked fileNo offset length buf).wp (Prog.Answers (Card.transmit P app))
      (fun _ => True)
      (fun r _ _ => r = ((received plainReadChunk read offset.toNat length.toNat).length,
        overlay buf 0 (received plainReadChunk read offset.toNat length.toNat)))
      (fun (_ : Fault (SessionError E)) _ _ => False) s w := by
  rw [readFilePlainChunked, if_neg hpos]
  refine wp_readFilePlainLoop (J := ReadSoFar plainReadChunk read offset.toNat length.toNat buf
    (LockedIn P app k m)) (fun _ _ _ _ hsofar => by rw [hsofar.length_buf hbuf]; exact hbuf)
    (fun _ _ _ hsofar => hsofar.done le_rfl) (fun total buf' s' w' hsofar hlt => ?_) (.start h)
  have hsize : 0 < plainReadChunk := by simp [plainReadChunk]
  have hlen := hsofar.length_buf hbuf
  have hslice : (slice buf' total (min (length.toNat - total) plainReadChunk)).length =
      min (length.toNat - total) plainReadChunk := length_slice (by omega)
  have hoffset := toNat_chunk hrange hlt
  refine wp_readDataPlain_served hmode hserves hfile (by omega) (by omega)
    (Nat.min_le_right ..) hslice hsofar.kept fun w'' h' => ?_
  rw [hoffset]
  exact hsofar.chunkRead hbuf hsize hlt (hserves.length_read _ _) (h'.note (u := .unprotected)) rfl

/-- The read with a MAC returns what it received. -/
theorem wp_readDataMac_served (hmode : m fileNo .read = .mac) :
    (readDataMac P fileNo offset length buf).wp (Prog.Answers (Card.transmit P app))
      (fun _ => True)
      (fun r _ _ => r = ((received macReadChunk read offset.toNat length.toNat).length,
        overlay buf 0 (received macReadChunk read offset.toNat length.toNat)))
      (fun (_ : Fault (SessionError E)) _ _ => False) s w := by
  simp only [readDataMac, Script.wp_bind, readTarget, if_neg hpos]
  refine wp_validateRequest_ok hfile hpos hbuf hrange ?_
  refine wp_readDataMacLoop P (J := ReadSoFar macReadChunk read offset.toNat length.toNat buf
    (LockedIn P app k m)) (fun _ _ _ _ hsofar => by rw [hsofar.length_buf hbuf]; exact hbuf)
    (fun _ _ _ hsofar => hsofar.done le_rfl) (fun total buf' s' w' hsofar hlt => ?_) (.start h)
  have hsize : 0 < macReadChunk := by simp [macReadChunk]
  have hlen := hsofar.length_buf hbuf
  have hslice : (slice buf' total (min (length.toNat - total) macReadChunk)).length =
      min (length.toNat - total) macReadChunk := length_slice (by omega)
  have hoffset := toNat_chunk hrange hlt
  refine wp_readDataMacOneApdu_served hmode hserves hfile (by omega) (Nat.min_le_right ..) hslice
    hsofar.kept fun s'' w'' h' => ?_
  rw [hoffset]
  exact hsofar.chunkRead hbuf hsize hlt (hserves.length_read _ _) h' rfl

/-- The encrypted read returns what it received, when every answer is in full. -/
theorem wp_readDataFull_served (hP : P.Lawful) (hmode : m fileNo .read = .full)
    (hfull : ∀ o n, o + n ≤ offset.toNat + length.toNat → (read o n).length = n) :
    (readDataFull P fileNo offset length buf).wp (Prog.Answers (Card.transmit P app))
      (fun _ => True)
      (fun r _ _ => r = ((received fullReadChunk read offset.toNat length.toNat).length,
        overlay buf 0 (received fullReadChunk read offset.toNat length.toNat)))
      (fun (_ : Fault (SessionError E)) _ _ => False) s w := by
  simp only [readDataFull, Script.wp_bind, readTarget, if_neg hpos]
  refine wp_validateRequest_ok hfile hpos hbuf hrange ?_
  refine wp_readDataFullLoop P (J := ReadSoFar fullReadChunk read offset.toNat length.toNat buf
    (LockedIn P app k m)) (fun _ _ _ _ hsofar => by rw [hsofar.length_buf hbuf]; exact hbuf)
    (fun _ _ _ hsofar => hsofar.done le_rfl) (fun total buf' s' w' hsofar hlt => ?_) (.start h)
  have hsize : 0 < fullReadChunk := by simp [fullReadChunk]
  have hlen := hsofar.length_buf hbuf
  have hslice : (slice buf' total (min (length.toNat - total) fullReadChunk)).length =
      min (length.toNat - total) fullReadChunk := length_slice (by omega)
  have hoffset := toNat_chunk hrange hlt
  have hanswer : (read (offset.toNat + total) (min (length.toNat - total) fullReadChunk)).length =
      min (length.toNat - total) fullReadChunk := hfull _ _ (by omega)
  refine wp_readDataFullOneApdu_served hP hmode hserves hfile (by omega) (Nat.min_le_right ..)
    (by rw [hoffset, hanswer]) hslice hsofar.kept fun s'' w'' h' => ?_
  rw [hoffset]
  have hnext := hsofar.chunkRead (Q := fun _ _ _ => True) hbuf hsize hlt hanswer.le h' trivial
  rwa [ChunkRead, if_neg (by omega)] at hnext

end Loops

/-! ### Whole reads -/

/-- The read of an authenticated session in a mode. -/
def readIn (P : Primitives) {E S : Type} [SessionSuite P S] (mode : CommMode) (fileNo : UInt8)
    (offset length : UInt32) (buf : List UInt8) : Cmd E (Authenticated S) (ℕ × List UInt8) :=
  match mode with
  | .plain => readFilePlainChunked fileNo offset length buf
  | .mac => readDataMac P fileNo offset length buf
  | .full => readDataFull P fileNo offset length buf

/-- The most bytes that a mode asks for at a time. -/
def readChunk : CommMode → ℕ
  | .plain => plainReadChunk
  | .mac => macReadChunk
  | .full => fullReadChunk

/-- Against a handler, the read runs to its end and returns `r`. -/
def RunsTo {β : Type} (h : (apdu : List UInt8) → W → Transmit E apdu × W) (cmd : Cmd E σ β) (r : β)
    (t : σ) (w : W) : Prop :=
  ∃ t' w', Prog.run h (cmd t) w = ((.ok r, t'), w')

/-- A command that ends well against a handler runs to its result. -/
theorem RunsTo.of_wp {β : Type} {h : (apdu : List UInt8) → W → Transmit E apdu × W}
    {cmd : Cmd E σ β} {r : β} {t : σ} {w : W}
    (hwp : cmd.wp (Prog.Answers h) (fun _ => True) (fun b _ _ => b = r) (fun _ _ _ => False) t w) :
    RunsTo h cmd r t w := by
  obtain ⟨b, t', w', hrun, rfl⟩ := Script.exists_run hwp
  exact ⟨t', w', hrun⟩

/-- The number of the bytes `d`, and the buffer with `d` at its front and its rest as it was. -/
def filled (buf d : List UInt8) : ℕ × List UInt8 := (d.length, d ++ buf.drop d.length)

/-- **Chunked reads return what they receive**: up to a short answer in plain mode, with a MAC
and without a session, and the slice of the file in every mode when every answer is the slice
that was asked for. -/
theorem chunked_reads_eq_received (hP : P.Lawful) (hlock : LockedIn P app k m s w)
    (hfile : fileNo ≤ 0x1F) (hserves : app.Serves k fileNo read) (hpos : length ≠ 0)
    (hbuf : length.toNat ≤ buf.length) (hrange : offset.toNat + length.toNat ≤ u24Max)
    {h : (apdu : List UInt8) → W → Transmit E apdu × W} {ready : Session Unauthenticated → W → Prop}
    {file : File} {isoRead : ℕ → ℕ → List UInt8}
    (hiso : ServesFile (Prog.Answers h) ready file isoRead) (session : Session Unauthenticated)
    (v : W) (hready : ready session v)
    {isoOffset : UInt16} {isoBuf : List UInt8} (hne : isoBuf ≠ [])
    (hisoRange : isoOffset.toNat + isoBuf.length ≤ 0x8000) :
    (∀ mode, m fileNo .read = mode → mode ≠ .full →
      RunsTo (E := E) (Card.transmit P app) (readIn P mode fileNo offset length buf)
        (filled buf (received (readChunk mode) read offset.toNat length.toNat)) s w) ∧
    (∀ mode contents, m fileNo .read = mode → read = slice contents →
      offset.toNat + length.toNat ≤ contents.length →
      RunsTo (E := E) (Card.transmit P app) (readIn P mode fileNo offset length buf)
        (length.toNat, slice contents offset.toNat length.toNat ++ buf.drop length.toNat) s w) ∧
    RunsTo h (Session.readFileUnauthenticated file isoOffset isoBuf)
      (filled isoBuf (received isoReadBinaryChunk isoRead isoOffset.toNat isoBuf.length))
      session v ∧
    (∀ contents, isoRead = slice contents →
      isoOffset.toNat + isoBuf.length ≤ contents.length →
      RunsTo h (Session.readFileUnauthenticated file isoOffset isoBuf)
        (isoBuf.length, slice contents isoOffset.toNat isoBuf.length) session v) := by
  have hsize : ∀ mode, 0 < readChunk mode := by
    intro mode
    cases mode <;> simp [readChunk, plainReadChunk, macReadChunk, fullReadChunk]
  have hshort : ∀ mode, m fileNo .read = mode →
      (mode = .full → ∀ o n, o + n ≤ offset.toNat + length.toNat → (read o n).length = n) →
      RunsTo (E := E) (Card.transmit P app) (readIn P mode fileNo offset length buf)
        (filled buf (received (readChunk mode) read offset.toNat length.toNat)) s w := by
    intro mode hmode hfull
    refine .of_wp ?_
    rw [filled, ← overlay_zero]
    cases mode with
    | plain => exact wp_readFilePlainChunked_served hserves hfile hpos hbuf hrange hlock hmode
    | mac => exact wp_readDataMac_served hserves hfile hpos hbuf hrange hlock hmode
    | full => exact wp_readDataFull_served hserves hfile hpos hbuf hrange hlock hP hmode (hfull rfl)
  have hwhole : RunsTo h (Session.readFileUnauthenticated file isoOffset isoBuf)
      (filled isoBuf (received isoReadBinaryChunk isoRead isoOffset.toNat isoBuf.length))
      session v := by
    refine .of_wp ?_
    rw [filled, ← overlay_zero]
    exact wp_readFileUnauthenticated_served hiso hready hne hisoRange
  refine ⟨fun mode hmode hno => hshort mode hmode fun heq => absurd heq hno, ?_, hwhole, ?_⟩
  · rintro mode contents hmode rfl hcontents
    have hslices := hshort mode hmode fun _ o n hle => length_slice (by omega)
    rwa [received_slice (hsize mode) hcontents, filled, length_slice hcontents] at hslices
  · rintro contents rfl hcontents
    rwa [received_slice (by simp [isoReadBinaryChunk]) hcontents, filled, length_slice hcontents,
      List.drop_length, List.append_nil] at hwhole

/-! ### A tag with one file -/

/-- An application with all-zero keys that serves `contents` as every file, in one mode, and
refuses everything else. -/
def TagApp.serving (mode : CommMode) (contents : List UInt8) : TagApp Unit where
  key _ _ := Bytes.zeros 16
  lrpMode _ := false
  rndB _ := (Bytes.zeros 16, ())
  newTi _ := (Bytes.zeros 4, ())
  pdCap2 _ := Bytes.zeros 6
  exec
    | _, .readData _ o n, _ => (.ok (slice contents o n), ())
    | _, _, _ => (.error .permissionDenied, ())
  fileMode _ _ _ _ := mode
  countersEncrypted _ _ := false
  configurationSilent _ _ := false
  signatureStatus _ := false
  length_exec {_ c _ _ _} h := by
    cases c with
    | readData fileNo o n => trivial
    | _ => cases h
  fileMode_exec _ := rfl
  fileMode_settings h := nomatch h

/-- The serving application serves its contents. -/
theorem TagApp.serves_serving (mode : CommMode) (contents : List UInt8) :
    (TagApp.serving mode contents).Serves k fileNo (slice contents) :=
  ⟨fun _ _ => List.length_take_le .., fun _ _ _ => ⟨(), rfl⟩⟩

/-- A tag that accepts every selection and reads `contents`. -/
def binaryTag (contents : List UInt8) (apdu : List UInt8) (v : Unit) :
    Transmit Empty apdu × Unit :=
  match apdu.map UInt8.toNat with
  | [0x00, 0xB0, p1, p2, le] =>
      (.ok ⟨slice contents (256 * p1 + p2) (if le = 0 then 256 else le), 0x90, 0x00⟩, v)
  | _ => (.ok ⟨[], 0x90, 0x00⟩, v)

/-- The tag answers an ISO read with the slice that is asked for. -/
theorem binaryTag_readBinary (contents : List UInt8) {o n : ℕ} (ho : o ≤ 0x7FFF) (hpos : 0 < n)
    (hn : n ≤ isoReadBinaryMax) (v : Unit) :
    binaryTag contents (isoReadBinaryApdu (UInt8.ofNat (o / 256)) (UInt8.ofNat o) n) v =
      (.ok ⟨slice contents o n, 0x90, 0x00⟩, v) := by
  have hp1 : (UInt8.ofNat (o / 256)).toNat = o / 256 := by
    rw [UInt8.toNat_ofNat', Nat.mod_eq_of_lt (by omega)]
  have hp2 : (UInt8.ofNat o).toNat = o % 256 := UInt8.toNat_ofNat'
  have hposition : 256 * (o / 256) + o % 256 = o := Nat.div_add_mod ..
  have hle : (if (if n = isoReadBinaryMax then (0x00 : UInt8) else UInt8.ofNat n).toNat = 0 then 256
      else (if n = isoReadBinaryMax then (0x00 : UInt8) else UInt8.ofNat n).toNat) = n := by
    by_cases hmax : n = isoReadBinaryMax
    · rw [if_pos hmax, hmax]
      rfl
    · have htoNat : (UInt8.ofNat n).toNat = n := by
        rw [UInt8.toNat_ofNat', Nat.mod_eq_of_lt (by rw [isoReadBinaryMax] at *; omega)]
      rw [if_neg hmax, htoNat, if_neg (by omega)]
  have hapdu : (isoReadBinaryApdu (UInt8.ofNat (o / 256)) (UInt8.ofNat o) n).map UInt8.toNat =
      [0x00, 0xB0, (UInt8.ofNat (o / 256)).toNat, (UInt8.ofNat o).toNat,
        (if n = isoReadBinaryMax then (0x00 : UInt8) else UInt8.ofNat n).toNat] := rfl
  simp only [binaryTag, hapdu, hle, hp1, hp2, hposition]

/-- The tag serves its contents over ISO reads. -/
theorem servesFile_binaryTag (contents : List UInt8) (file : File) :
    ServesFile (Prog.Answers (binaryTag contents)) (fun _ _ => True) file (slice contents) := by
  refine ⟨?_, ?_, fun _ _ => ⟨fun _ _ => List.length_take_le .., ?_⟩⟩
  · rintro session w answer w' - ⟨⟩
    exact ⟨⟨_, rfl⟩, trivial⟩
  · rintro session w answer w' - - ⟨⟩
    exact ⟨⟨_, rfl⟩, trivial⟩
  · rintro o n w answer w' - ho hpos hn hanswer
    rw [Prog.Answers, binaryTag_readBinary contents ho hpos hn] at hanswer
    cases hanswer
    exact ⟨rfl, trivial⟩

/-- The tag's side of a session just opened, with keys of zeros. -/
def zeroTagSession : TagSession AesSuite :=
  ⟨.key0, ⟨Bytes.zeros 16, Bytes.zeros 16⟩, Bytes.zeros 4, 0, 0, .none⟩

/-- The session with zero keys agrees with the card that was made for it. -/
theorem lockedIn_zeroSession {app : TagApp A} {a : A} {m : UInt8 → FileAccess → CommMode}
    (hm : app.fileMode a .key0 = m) :
    LockedIn .standard app .key0 m zeroSession.state ⟨.aes zeroTagSession, a⟩ :=
  ⟨a, hm, zeroTagSession, rfl, ⟨rfl, rfl, rfl, rfl⟩, rfl⟩

/-- A file of 600 bytes, read from its tenth byte on in three chunks: in a session of each mode, and
without one. -/
theorem chunked_reads_three_chunks :
    let contents : List UInt8 := List.replicate 600 7
    (∀ mode, RunsTo (E := Empty) (Card.transmit .standard (.serving mode contents))
      (readIn .standard mode 0x02 10 550 (List.replicate 560 0))
      (550, List.replicate 550 7 ++ List.replicate 10 0) zeroSession.state
      ⟨.aes zeroTagSession, ()⟩) ∧
    RunsTo (binaryTag contents) (Session.readFileUnauthenticated .ndef 10 (List.replicate 550 0))
      (550, List.replicate 550 7) .new () := by
  intro contents
  have hfile : (0x02 : UInt8) ≤ 0x1F := by decide
  have hpos : (550 : UInt32) ≠ 0 := by decide
  have hbuf : (550 : UInt32).toNat ≤ (List.replicate 560 (0 : UInt8)).length := by
    rw [List.length_replicate]
    decide
  have hrange : (10 : UInt32).toNat + (550 : UInt32).toNat ≤ u24Max := by decide
  have hne : List.replicate 550 (0 : UInt8) ≠ [] :=
    List.ne_nil_of_length_pos (by rw [List.length_replicate]; decide)
  have hfits : (10 : UInt16).toNat + (List.replicate 550 (0 : UInt8)).length ≤ 0x8000 := by
    rw [List.length_replicate]
    decide
  have hcontents : 10 + 550 ≤ contents.length := by
    rw [List.length_replicate]
    decide
  have hslice : slice contents 10 550 = List.replicate 550 7 := by
    rw [slice, List.drop_replicate, List.take_replicate]
    rfl
  have hlock : ∀ mode, LockedIn .standard (.serving mode contents) .key0 (fun _ _ => mode)
      zeroSession.state ⟨.aes zeroTagSession, ()⟩ := fun _ => lockedIn_zeroSession rfl
  have hreads := fun mode => chunked_reads_eq_received (E := Empty) Primitives.standard_lawful
    (hlock mode) hfile (TagApp.serves_serving mode contents) hpos hbuf hrange
    (servesFile_binaryTag contents .ndef) .new () trivial hne hfits
  refine ⟨fun mode => ?_, ?_⟩
  · have hread := (hreads mode).2.1 mode contents rfl rfl hcontents
    rwa [show (10 : UInt32).toNat = 10 from rfl, show (550 : UInt32).toNat = 550 from rfl, hslice,
      List.drop_replicate] at hread
  · have hread := (hreads .plain).2.2.2 contents rfl
      (by rw [List.length_replicate]; exact hcontents)
    rwa [List.length_replicate, show (10 : UInt16).toNat = 10 from rfl, hslice] at hread

end Ntag424
