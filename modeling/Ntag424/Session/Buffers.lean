import Mathlib.Tactic.Common
import Ntag424.Session.Headers
import Ntag424.Session.Operations
import Ntag424.Standard

/-!
# The Caller's Buffer

What the reads of a session do with the buffer they are given, whatever its length: they never
reach beyond its end, and refuse one that is too small before anything is sent. The transport
may answer anything of at most 256 bytes.

## Main results

* `reads_respect_buffer_iff`: a read respects the buffer, except that the plain loop does not
  compare the buffer with the whole length before it starts, and that the protected loops panic,
  in a build with debug assertions, at a chunk whose offset needs more than three bytes.
-/

namespace Ntag424

open Numerals SecureChannel

variable {E S σ β : Type}

/-! ### Respecting a buffer -/

/-- The error that refuses a buffer too small for the length. -/
def bufferRefusal (offset length : UInt32) (bufLen : ℕ) : SessionError E :=
  if u24Max < offset.toNat then
    .invalidCommandParameter "offset" offset.toNat "must fit 24 bits"
  else if u24Max < length.toNat then
    .invalidCommandParameter "length" length.toNat "must fit 24 bits"
  else if bufLen = 0 then .invalidCommandParameter "buf.len()" 0 "must be non-zero"
  else .invalidCommandParameter "buf.len()" bufLen "must be at least the requested length"

/-- A read that respects its buffer never panics, and refuses a buffer that is too small before
anything is sent. -/
structure RespectsBuffer (offset length : UInt32) (bufLen : ℕ) (cmd : Cmd E σ β) (t : σ) :
    Prop where
  no_panic : ∀ t' w',
    ¬ Prog.Ends (Records shortAnswer) (cmd t) [] (.error .panicked, t') w'
  refused : bufLen < length.toNat → ∀ r t' w',
    Prog.Ends (Records shortAnswer) (cmd t) [] (r, t') w' →
      r = .error (.error (bufferRefusal offset length bufLen)) ∧ w' = []

/-- A fault that is an error. -/
def NoPanic (f : Fault (SessionError E)) : Prop := f ≠ .panicked

/-- A fault that refuses the buffer with nothing sent. -/
def BufferRefused (offset length : UInt32) (bufLen : ℕ) (f : Fault (SessionError E))
    (w : Transcript E) :
    Prop :=
  f = .error (bufferRefusal offset length bufLen) ∧ w = []

theorem RespectsBuffer.of_wp {offset length : UInt32} {bufLen : ℕ} {cmd : Cmd E σ β} {t : σ}
    {Q : β → σ → Transcript E → Prop}
    (hpanic : length.toNat ≤ bufLen → cmd.wp (Records shortAnswer) (fun _ => True) Q
      (fun f _ _ => NoPanic f) t [])
    (hrefused : bufLen < length.toNat → cmd.wp (Records shortAnswer) (fun _ => True)
      (fun _ _ _ => False) (fun f _ => BufferRefused offset length bufLen f) t []) :
    RespectsBuffer offset length bufLen cmd t := by
  constructor
  · intro t' w' hend
    rcases Nat.lt_or_ge bufLen length.toNat with hsmall | hlarge
    · exact nomatch (Script.wp_ends_fault (hrefused hsmall) hend).1
    · exact Script.wp_ends_fault (hpanic hlarge) hend rfl
  · intro hsmall r t' w' hend
    rcases r with f | b
    · obtain ⟨rfl, hw⟩ := Script.wp_ends_fault (hrefused hsmall) hend
      exact ⟨rfl, hw⟩
    · exact (Script.wp_ends (hrefused hsmall) hend).elim

/-- A read into a buffer that is too small sends something or panics. -/
def Overruns (f : Fault (SessionError E)) (w : Transcript E) : Prop := f = .panicked ∨ w ≠ []

theorem not_respectsBuffer_of_wp {offset length : UInt32} {bufLen : ℕ} {cmd : Cmd E σ β} {t : σ}
    (hsmall : bufLen < length.toNat)
    (h : cmd.wp (Prog.Answers acceptAll) (fun _ => True) (fun _ _ w' => w' ≠ [])
      (fun f _ w' => Overruns f w') t []) : ¬ RespectsBuffer offset length bufLen cmd t := by
  intro hrespects
  have hend := Prog.ends_run acceptAll (cmd t) []
  rcases hrun : Prog.run acceptAll (cmd t) [] with ⟨⟨r, t'⟩, w'⟩
  rw [hrun] at hend
  have hshort : Prog.Ends (Records shortAnswer) (cmd t) [] (r, t') w' := by
    refine hend.mono ?_
    rintro _ _ _ _ ⟨⟩
    refine ⟨fun resp hresp => ?_, rfl⟩
    obtain rfl := Except.ok.inj hresp
    exact Nat.zero_le _
  obtain ⟨hr, hw⟩ := hrespects.refused hsmall r t' w' hshort
  subst hr
  rcases Script.wp_ends_fault h hend with hpanic | hsent
  · cases hpanic
  · exact hsent hw

/-! ### One request -/

section One

variable {I : Transcript E → Prop} {t : σ} {w : Transcript E}

/-- A plain request copies no more than it asked for. -/
theorem wp_readDataPlain_bounded (fileNo : UInt8) (offset length : UInt32) (buf : List UInt8) :
    (readDataPlain fileNo offset length buf).wp (Records shortAnswer) (fun _ => True)
      (fun r _ _ => r.1 ≤ wantPlainBytes length buf.length ∧ r.2.length = buf.length)
      (fun f _ _ => NoPanic (E := E) f) t w := by
  simp only [readDataPlain, validateRequest, validateTarget, Script.wp_bind, Script.wp_require,
    Script.wp_pure]
  refine ⟨fun _ =>
    ⟨fun _ => ⟨fun _ => ⟨fun _ => ⟨fun _ => ?_, fun _ => by rintro ⟨⟩⟩, fun _ => by rintro ⟨⟩⟩,
    fun _ => by rintro ⟨⟩⟩, fun _ => by rintro ⟨⟩⟩, fun _ => by rintro ⟨⟩⟩
  refine wp_transmitExpecting_recorded trivial (fun resp _ _ => ⟨by omega, ?_⟩)
    fun _ _ _ => by rintro ⟨⟩
  exact length_overlay (by rw [List.length_take]; omega)

variable (P : Primitives) [SessionSuite P S] {s : Authenticated S}

/-- A request with a MAC is answered with at most 256 bytes. -/
theorem wp_transmitMac_short (ins p1 p2 : UInt8) {header data : List UInt8}
    (hlen : header.length + data.length ≤ maxApduBody) :
    (transmitMac P ins p1 p2 header data).wp (Records shortAnswer) (fun _ => True)
      (fun resp _ _ => resp.data.length ≤ 256) (fun f _ _ => NoPanic (E := E) f) s w := by
  have hcap : (macInput ins s.cmdCounter s.ti header data).length ≤ macInputCap := by
    simp only [macInput, macInputCap, List.length_cons, List.length_append, length_leBytes,
      Bytes.length_toList]
    omega
  simp only [transmitMac, computeCmdMac, SecureChannel.state, SecureChannel.note, Script.wp_bind,
    Script.wp_get, Script.wp_assert, Script.wp_set, Script.wp_pure]
  refine ⟨fun _ => ?_, fun hno => absurd hcap hno⟩
  exact wp_transmitExpecting_recorded trivial (fun resp hanswer _ => hanswer resp rfl)
    fun _ _ _ => by rintro ⟨⟩

/-- Its answer holds at most 248 bytes beside the MAC. -/
theorem wp_verifyResponse_short (rc : UInt8) {body : List UInt8} (hbody : body.length ≤ 256) :
    (verifyResponseMacAndAdvance P rc body).wp (Records shortAnswer) (fun _ => True)
      (fun data _ _ => data.length ≤ 248) (fun f _ _ => NoPanic (E := E) f) s w := by
  simp only [verifyResponseMacAndAdvance, SecureChannel.state, SecureChannel.note, advance,
    Script.wp_bind, Script.wp_get, Script.wp_assert, Script.wp_set, Script.wp_pure,
    Script.wp_require]
  have hdata : (body.take (body.length - macLen)).length ≤ 248 := by
    rw [List.length_take, macLen]
    omega
  have hcap : (macInput rc (s.cmdCounter + 1) s.ti (body.take (body.length - macLen)) []).length ≤
      macInputCap := by
    simp only [macInput, macInputCap, maxApduBody, List.length_cons, List.length_append,
      length_leBytes, Bytes.length_toList, List.length_nil]
    omega
  exact ⟨fun _ => ⟨fun _ => ⟨fun _ => hdata, fun _ => by rintro ⟨⟩⟩, fun hno => absurd hcap hno⟩,
    fun _ => by rintro ⟨⟩⟩

/-- A request with a MAC, whose header fits, copies no more than it asked for. -/
theorem wp_readDataMacOneApdu_bounded {fileNo : UInt8} {offset : UInt32} {n : ℕ} (hmax : n ≤ 256)
    (hfits : P.debugAssertions = true → HeaderFits fileNo offset (UInt32.ofNat n))
    {buf : List UInt8} (hbuf : buf.length = n) :
    (readDataMacOneApdu P fileNo offset (UInt32.ofNat n) buf).wp (Records shortAnswer)
      (fun _ => True) (fun r _ _ => r.1 ≤ n ∧ r.2.length = n) (fun f _ _ => NoPanic (E := E) f)
      s w := by
  have hwant : wantPlainBytes (UInt32.ofNat n) buf.length = n := by
    rw [hbuf, wantPlainBytes_chunk hmax]
  have hlen : (headerBytes fileNo offset (UInt32.ofNat n)).length + ([] : List UInt8).length ≤
      maxApduBody := by
    simp [maxApduBody]
  simp only [readDataMacOneApdu, wp_buildReadHeader, Script.wp_bind]
  refine ⟨fun _ => ?_, fun hno => absurd hfits hno⟩
  refine Script.wp_mono (wp_transmitMac_short P _ _ _ hlen) (fun resp _ _ hresp => ?_)
    fun _ _ _ he => he
  refine Script.wp_mono (wp_verifyResponse_short P _ hresp) (fun data _ _ hdata => ?_)
    fun _ _ _ he => he
  simp only [Script.wp_require, Script.wp_assert, Script.wp_pure]
  refine ⟨fun hle => ⟨fun _ => ⟨by omega, ?_⟩, fun hno => absurd (by omega) hno⟩,
    fun _ => by rintro ⟨⟩⟩
  rw [length_overlay (by omega), hbuf]

/-- A request for encrypted data, whose header fits, copies just what it asked for. -/
theorem wp_readDataFullOneApdu_bounded {fileNo : UInt8} {offset : UInt32} {n : ℕ} (hn : 0 < n)
    (hmax : n ≤ 256)
    (hfits : P.debugAssertions = true → HeaderFits fileNo offset (UInt32.ofNat n))
    {buf : List UInt8} (hbuf : buf.length = n) :
    (readDataFullOneApdu P fileNo offset (UInt32.ofNat n) buf).wp (Records shortAnswer)
      (fun _ => True) (fun r _ _ => r.1 = n ∧ r.2.length = n) (fun f _ _ => NoPanic (E := E) f)
      s w := by
  have htoNat := toNat_ofNat_chunk hmax
  have hne := ofNat_chunk_ne_zero hn hmax
  have hlen : (headerBytes fileNo offset (UInt32.ofNat n)).length + ([] : List UInt8).length ≤
      maxApduBody := by
    simp [maxApduBody]
  simp only [readDataFullOneApdu, wp_buildReadHeader, Script.wp_bind]
  refine ⟨fun _ => ?_, fun hno => absurd hfits hno⟩
  refine Script.wp_mono (wp_transmitMac_short P _ _ _ hlen) (fun resp _ _ hresp => ?_)
    fun _ _ _ he => he
  refine Script.wp_mono (wp_verifyResponse_short P _ hresp) (fun ct s' _ hct => ?_)
    fun _ _ _ he => he
  simp only [decryptResponse, SecureChannel.state, SecureChannel.note, Script.wp_bind,
    Script.wp_require, Script.wp_assert, Script.wp_get]
  refine ⟨fun _ => ⟨fun _ => ?_, fun hno => absurd ?_ hno⟩, fun _ => by rintro ⟨⟩⟩
  · cases SessionSuite.decrypt P s'.suite .response s'.ti s'.cmdCounter ct with
    | none => exact Script.wp_fail.mpr (by rintro ⟨⟩)
    | some plain =>
        simp only [Script.wp_bind, Script.wp_set, Script.wp_get, Script.wp_pure]
        cases stripM2Padding plain.1 with
        | none => exact Script.wp_fail.mpr (by rintro ⟨⟩)
        | some padStart =>
            simp only [Script.wp_bind, Script.wp_require, Script.wp_pure]
            refine ⟨fun hpinned => ⟨fun hfits => ⟨?_, ?_⟩, fun _ => by rintro ⟨⟩⟩,
              fun _ => by rintro ⟨⟩⟩
            · rw [htoNat] at hpinned
              exact hpinned.resolve_left hne
            · rw [length_overlay (by rw [List.length_take]; omega), hbuf]
  · rw [readDataRespCap]
    omega

end One

/-! ### The whole read -/

section Reads

/-- When the plain loop does what the protected ones do: the buffer is large enough, or the
offset is refused before the loop reaches beyond its end. -/
def PlainReadFits (offset length : UInt32) (bufLen : ℕ) : Prop :=
  length.toNat ≤ bufLen ∨ u24Max < offset.toNat ∧ min length.toNat plainReadChunk ≤ bufLen

variable (P : Primitives) [SessionSuite P S] {s : Authenticated S} {fileNo : UInt8}
  {offset length : UInt32} {buf : List UInt8}

/-- Whether a read keeps to the buffer and to the offsets it can put into a header. -/
def ReadFits (fileNo : UInt8) (offset length : UInt32) (bufLen : ℕ) : CommMode → Prop
  | .plain => PlainReadFits offset length bufLen
  | .mac => ReadHeadersFit P macReadChunk fileNo offset length bufLen
  | .full => ReadHeadersFit P fullReadChunk fileNo offset length bufLen

/-- The plain loop stays within a buffer that is large enough. -/
theorem wp_readFilePlainChunked_within (hlen : length.toNat ≤ buf.length) :
    (readFilePlainChunked (S := S) fileNo offset length buf).wp (Records shortAnswer)
      (fun _ => True) (fun _ _ _ => True) (fun f _ _ => NoPanic (E := E) f) s [] := by
  rw [readFilePlainChunked]
  split
  · simp only [advanceCounter, SecureChannel.note, advance, SecureChannel.state, Script.wp_bind,
      Script.wp_get, Script.wp_set, Script.wp_pure]
    exact Script.wp_mono (wp_readDataPlain_bounded ..) (fun _ _ _ _ => trivial) fun _ _ _ he => he
  · refine wp_readFilePlainLoop (J := InBuffer plainReadChunk buf.length length.toNat
      fun _ _ => True) (fun _ buf' _ _ h' => hlen.trans_eq h'.1.symm) (fun _ _ _ _ => trivial)
      (fun total buf' s' w' h' hlt => ?_) ⟨rfl, .zero _ _, trivial⟩
    have hmax : min (length.toNat - total) plainReadChunk ≤ 256 := Nat.min_le_right ..
    refine Script.wp_mono (wp_readDataPlain_bounded ..) (fun r _ _ hr => ?_) fun _ _ _ he => he
    rw [h'.length_part hlen hlt, wantPlainBytes_chunk hmax] at hr
    exact h'.chunkRead hlen hlt hr.1 hr.2 trivial

/-- The loop with a MAC stays within a buffer that is large enough. -/
theorem wp_readDataMacLoop_within (hfile : fileNo ≤ 0x1F) {target : ℕ}
    (hfits : LastHeaderFits P macReadChunk offset target) (hlen : target ≤ buf.length)
    {w : Transcript E} :
    (readDataMacLoop P fileNo target 0 offset buf).wp (Records shortAnswer)
      (fun _ => True) (fun _ _ _ => True) (fun f _ _ => NoPanic f) s w := by
  refine wp_readDataMacLoop P (J := InBuffer macReadChunk buf.length target fun _ _ => True)
    (fun _ buf' _ _ h' => hlen.trans_eq h'.1.symm) (fun _ _ _ _ => trivial)
    (fun total buf' s' w' h' hlt => ?_) ⟨rfl, .zero _ _, trivial⟩
  have hmax : min (target - total) macReadChunk ≤ 256 :=
    (Nat.min_le_right ..).trans (by simp [macReadChunk])
  have hheader := hfits.headerFits hfile h'.2.1 hlt hmax
  exact Script.wp_mono (wp_readDataMacOneApdu_bounded P hmax hheader (h'.length_part hlen hlt))
    (fun r _ _ hr => h'.chunkRead hlen hlt hr.1 hr.2 trivial) fun _ _ _ he => he

/-- The loop for encrypted data stays within a buffer that is large enough. -/
theorem wp_readDataFullLoop_within (hfile : fileNo ≤ 0x1F) {target : ℕ}
    (hfits : LastHeaderFits P fullReadChunk offset target) (hlen : target ≤ buf.length)
    {w : Transcript E} :
    (readDataFullLoop P fileNo target 0 offset buf).wp (Records shortAnswer)
      (fun _ => True) (fun _ _ _ => True) (fun f _ _ => NoPanic f) s w := by
  refine wp_readDataFullLoop P (J := InBuffer fullReadChunk buf.length target fun _ _ => True)
    (fun _ buf' _ _ h' => hlen.trans_eq h'.1.symm) (fun _ _ _ _ => trivial)
    (fun total buf' s' w' h' hlt => ?_) ⟨rfl, .zero _ _, trivial⟩
  have hpos : 0 < min (target - total) fullReadChunk := by
    simp only [fullReadChunk]
    omega
  have hmax : min (target - total) fullReadChunk ≤ 256 :=
    (Nat.min_le_right ..).trans (by simp [fullReadChunk])
  have hheader := hfits.headerFits hfile h'.2.1 hlt hmax
  exact Script.wp_mono
    (wp_readDataFullOneApdu_bounded P hpos hmax hheader (h'.length_part hlen hlt))
    (fun r _ _ hr => ⟨hr.1, h'.next hlen hlt hr.2 trivial⟩) fun _ _ _ he => he

/-- A request into a buffer that is too small is refused. -/
theorem wp_validateRequest_refused {Q : Unit → σ → Transcript E → Prop} {t : σ}
    (hfile : fileNo ≤ 0x1F) {bufLen : ℕ} (hsmall : bufLen < length.toNat) :
    (validateRequest fileNo offset length bufLen).wp (Records shortAnswer) (fun _ => True) Q
      (fun f _ => BufferRefused (E := E) offset length bufLen f) t [] := by
  have hne : length ≠ 0 := by
    rintro rfl
    exact absurd hsmall (Nat.not_lt_zero _)
  simp only [validateRequest, validateTarget, Script.wp_bind, Script.wp_require]
  refine ⟨fun _ => ⟨fun hoffset => ⟨fun hlength => ⟨fun hempty => ⟨fun hok => ?_, fun _ => ?_⟩,
    fun hempty => ?_⟩, fun hlength => ?_⟩, fun hoffset => ?_⟩, fun hno => absurd hfile hno⟩
  · rcases hok with hzero | hle
    · exact absurd hzero hne
    · omega
  · refine ⟨?_, rfl⟩
    rw [bufferRefusal, if_neg (by omega), if_neg (by omega), if_neg hempty]
  · refine ⟨?_, rfl⟩
    rw [bufferRefusal, if_neg (by omega), if_neg (by omega), if_pos (not_not.mp hempty)]
  · refine ⟨?_, rfl⟩
    rw [bufferRefusal, if_neg (by omega), if_pos (by omega)]
  · refine ⟨?_, rfl⟩
    rw [bufferRefusal, if_pos (by omega)]

/-- The offset is refused in the first round. -/
theorem wp_readFilePlainChunked_refused (hfile : fileNo ≤ 0x1F)
    (hsmall : buf.length < length.toNat) (hoffset : u24Max < offset.toNat)
    (hfirst : min length.toNat plainReadChunk ≤ buf.length) :
    (readFilePlainChunked (S := S) fileNo offset length buf).wp (Records shortAnswer)
      (fun _ => True) (fun _ _ _ => False)
      (fun f _ => BufferRefused (E := E) offset length buf.length f) s [] := by
  have hne : length ≠ 0 := by
    rintro rfl
    exact absurd hsmall (Nat.not_lt_zero _)
  rw [readFilePlainChunked, if_neg hne, readFilePlainLoop, if_pos (by omega)]
  simp only [readDataPlain, validateRequest, validateTarget, Script.wp_bind, Script.wp_assert,
    Script.wp_require]
  refine ⟨fun _ => ⟨fun _ => ⟨fun hle => absurd hle (by omega), fun _ => ⟨?_, rfl⟩⟩,
    fun hno => absurd hfile hno⟩, fun hno => absurd (by omega) hno⟩
  rw [bufferRefusal, if_pos hoffset]

/-- Without that, the loop reaches beyond the end of the buffer at once, or sends its first
request. -/
theorem wp_readFilePlainChunked_overruns (hfile : fileNo ≤ 0x1F)
    (hfits : ¬ PlainReadFits offset length buf.length) :
    (readFilePlainChunked (S := S) fileNo offset length buf).wp
      (Prog.Answers (acceptAll (E := E))) (fun _ => True) (fun _ _ w' => w' ≠ [])
      (fun f _ w' => Overruns f w') s [] := by
  obtain ⟨hsmall, hfirst⟩ := not_or.mp hfits
  have hne : length ≠ 0 := by
    rintro rfl
    exact hsmall (Nat.zero_le _)
  rw [readFilePlainChunked, if_neg hne, readFilePlainLoop, if_pos (by omega)]
  simp only [Script.wp_bind, Script.wp_assert]
  refine ⟨fun hle => ?_, fun _ => .inl rfl⟩
  have hmax : min length.toNat plainReadChunk ≤ 256 := Nat.min_le_right ..
  have hpos : 0 < min length.toNat plainReadChunk := by
    simp only [plainReadChunk]
    omega
  have hslice : (slice buf 0 (min length.toNat plainReadChunk)).length =
      min length.toNat plainReadChunk := length_slice hle
  have htoNat := toNat_ofNat_chunk hmax
  have hoffset : offset.toNat ≤ u24Max := by
    by_contra hfar
    exact hfirst ⟨by omega, by omega⟩
  simp only [readDataPlain, validateRequest, validateTarget, transmitExpecting, advanceCounter,
    SecureChannel.note, advance, SecureChannel.state, Script.wp_bind, Script.wp_require,
    Script.wp_pure, Script.wp_get, Script.wp_set, hslice, htoNat]
  refine ⟨fun _ => ⟨fun _ => ⟨fun _ => ⟨fun _ => ⟨fun _ => ?_, fun hno => absurd (.inr le_rfl) hno⟩,
    fun hno => absurd hpos.ne' hno⟩, fun hno => absurd ?_ hno⟩, fun hno => absurd hoffset hno⟩,
    fun hno => absurd hfile hno⟩
  · -- the answer is empty, and ends the loop
    refine wp_transmit_acceptAll fun answer => ⟨fun _ => ?_, fun hno => absurd rfl hno⟩
    rw [if_pos (by simpa using hpos)]
    exact Script.wp_pure.mpr (List.cons_ne_nil _ _)
  · simp only [u24Max]
    omega

/-- The command behind `read_file_with_mode`, with a buffer that is large enough. -/
theorem wp_readCommand_within (file : File) {mode : CommMode}
    (hfits : ReadFits P file.fileNo offset length buf.length mode)
    (hlen : length.toNat ≤ buf.length) :
    (Session.readCommand P file offset length mode buf).wp (Records shortAnswer) (fun _ => True)
      (fun _ _ _ => True) (fun f _ _ => NoPanic (E := E) f) s [] := by
  cases mode with
  | plain => exact wp_readFilePlainChunked_within hlen
  | mac =>
      simp only [Session.readCommand, readDataMac, Script.wp_bind]
      refine wp_validateRequest_readable (fun hread => ?_) fun _ _ _ _ => by rintro ⟨⟩
      exact wp_readDataMacLoop_within P hread.1 (hfits hread) hread.target.2
  | full =>
      simp only [Session.readCommand, readDataFull, Script.wp_bind]
      refine wp_validateRequest_readable (fun hread => ?_) fun _ _ _ _ => by rintro ⟨⟩
      exact wp_readDataFullLoop_within P hread.1 (hfits hread) hread.target.2

/-- The command behind `read_file_with_mode`, with a buffer that is too small. -/
theorem wp_readCommand_refused (file : File) {mode : CommMode}
    (hfits : mode = .plain → PlainReadFits offset length buf.length)
    (hsmall : buf.length < length.toNat) :
    (Session.readCommand P file offset length mode buf).wp (Records shortAnswer) (fun _ => True)
      (fun _ _ _ => False) (fun f _ => BufferRefused (E := E) offset length buf.length f) s [] := by
  have hfile : file.fileNo ≤ 0x1F := by cases file <;> decide
  cases mode with
  | plain =>
      rcases hfits rfl with hlen | ⟨hoffset, hfirst⟩
      · omega
      · exact wp_readFilePlainChunked_refused hfile hsmall hoffset hfirst
  | mac =>
      simp only [Session.readCommand, readDataMac, Script.wp_bind]
      exact wp_validateRequest_refused hfile hsmall
  | full =>
      simp only [Session.readCommand, readDataFull, Script.wp_bind]
      exact wp_validateRequest_refused hfile hsmall

/-- A read that may panic does not respect its buffer. -/
theorem not_respectsBuffer_of_mayPanic {cmd : Cmd E (Authenticated S) (ℕ × List UInt8)}
    {session : Session (Authenticated S)} {bufLen : ℕ} (h : MayPanic cmd session.state []) :
    ¬ RespectsBuffer offset length bufLen (session.consume cmd) () := by
  intro hrespects
  have hconsumed : MayPanic (session.consume cmd) () [] := by
    simp only [MayPanic, Session.consume, Script.may_bind, Script.may_on]
    rw [MayPanic] at h
    exact Script.may_mono h (fun _ _ _ hno => hno.elim) fun _ _ _ hf => hf
  obtain ⟨t', w', hend⟩ := hconsumed.exists_ends
  exact hrespects.no_panic t' w' hend

/-- **Reads respect the buffer**, exactly when the plain loop cannot slice it beyond its end, or,
in the protected modes of a build with debug assertions, when the last chunk has a place in its
header. -/
theorem reads_respect_buffer_iff [InvertibleSuite P S] (hP : P.Lawful)
    (session : Session (Authenticated S)) (file : File) (offset length : UInt32)
    (buf : List UInt8) :
    (∀ mode, RespectsBuffer (E := E) offset length buf.length
        (session.readFileWithMode P file offset length mode buf) () ↔
      ReadFits P file.fileNo offset length buf.length mode) ∧
    (RespectsBuffer (E := E) offset length buf.length
        (Session.readFilePlain file offset length buf) session ↔
      PlainReadFits offset length buf.length) := by
  have hfile : file.fileNo ≤ 0x1F := by cases file <;> decide
  have hsmall : ¬ PlainReadFits offset length buf.length → buf.length < length.toNat :=
    fun hfits => Nat.lt_of_not_le (not_or.mp hfits).1
  refine ⟨fun mode => ⟨fun hrespects => ?_, fun hfits => ?_⟩, fun hrespects => ?_, fun hfits => ?_⟩
  · by_contra hfits
    cases mode with
    | plain =>
        exact not_respectsBuffer_of_wp (hsmall hfits)
          (wp_consume.mpr (wp_readFilePlainChunked_overruns hfile hfits)) hrespects
    | mac => exact not_respectsBuffer_of_mayPanic (readDataMac_mayPanic hfits) hrespects
    | full => exact not_respectsBuffer_of_mayPanic (readDataFull_mayPanic hP hfits) hrespects
  · refine .of_wp (Q := fun _ _ _ => True) (fun hlen => wp_consume.mpr
      (wp_readCommand_within P file hfits hlen)) fun hsmall => wp_consume.mpr
      (wp_readCommand_refused P file ?_ hsmall)
    rintro rfl
    exact hfits
  · by_contra hfits
    exact not_respectsBuffer_of_wp (hsmall hfits)
      (wp_borrow.mpr (wp_readFilePlainChunked_overruns hfile hfits)) hrespects
  · refine .of_wp (Q := fun _ _ _ => True) (fun hlen => wp_borrow.mpr
      (wp_readFilePlainChunked_within hlen)) fun hsmall => wp_borrow.mpr ?_
    have hfits' : CommMode.plain = .plain → PlainReadFits offset length buf.length := fun _ => hfits
    exact wp_readCommand_refused P file hfits' hsmall

/-- A session just opened, with keys of zeros. -/
def zeroSession : Session (Authenticated AesSuite) :=
  ⟨.withAuthResult ⟨⟨Bytes.zeros 16, Bytes.zeros 16⟩, Bytes.zeros 4, Bytes.zeros 6, Bytes.zeros 6⟩
    .key0, true, none⟩

/-- A read with a MAC whose second chunk starts behind the last offset: it respects its buffer,
but not in a build with debug assertions. -/
theorem read_behind_last_offset :
    RespectsBuffer (E := Empty) 0xFFFFFF 249 249
      (zeroSession.readFileWithMode .standard .ndef 0xFFFFFF 249 .mac
        (List.replicate 249 0x00)) () ∧
    ¬ RespectsBuffer (E := Empty) 0xFFFFFF 249 249
      (zeroSession.readFileWithMode .debug .ndef 0xFFFFFF 249 .mac
        (List.replicate 249 0x00)) () := by
  have hrelease := (reads_respect_buffer_iff (E := Empty) .standard Primitives.standard_lawful
    zeroSession .ndef 0xFFFFFF 249 (List.replicate 249 0x00)).1 .mac
  have hdebug := (reads_respect_buffer_iff (E := Empty) .debug Primitives.debug_lawful zeroSession
    .ndef 0xFFFFFF 249 (List.replicate 249 0x00)).1 .mac
  rw [List.length_replicate] at hrelease hdebug
  refine ⟨hrelease.mpr fun _ hno => ?_, fun hrespects => ?_⟩
  · cases hno
  · have hread : Readable File.ndef.fileNo 0xFFFFFF 249 249 :=
      ⟨by decide, by decide, by decide, by decide, .inr (by decide)⟩
    exact absurd (hdebug.mp hrespects hread rfl) (by decide)

/-- Reading one byte into an empty buffer. -/
theorem empty_buffer_overrun :
    ¬ RespectsBuffer (E := Empty) 0 1 0 (Session.readFilePlain .ndef 0 1 []) zeroSession := by
  have hfits : ¬ PlainReadFits 0 1 0 := by
    rintro (hlen | hoffset)
    · exact absurd hlen (by decide)
    · exact absurd hoffset.1 (by decide)
  have hfile : File.ndef.fileNo ≤ 0x1F := by decide
  exact not_respectsBuffer_of_wp (by decide)
    (wp_borrow.mpr (wp_readFilePlainChunked_overruns hfile hfits))

end Reads

end Ntag424
