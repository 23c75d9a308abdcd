import Mathlib.Tactic.Common
import Ntag424.Lib.May
import Ntag424.Session.FileData
import Ntag424.Session.Transcript

/-!
# Headers That Do Not Fit

A protected transfer checks the offset of its first chunk only, and the assertions of
`build_header` check every later one: a build with debug assertions panics at the first chunk
whose offset needs more than three bytes. Whether it gets there is up to the tag, which may answer
everything before in full.

## Modelling

* The tag's answers are put together from the state of the session: data with a right response
  MAC, encrypted under the suite of the session where the command expects it.

## Main results

* `LastHeaderFits.headerFits`: where the last chunk has a place in the header, the assertions of
  every chunk hold.
* `readDataMac_mayPanic`, `readDataFull_mayPanic`, `writeDataMac_mayPanic`,
  `writeDataFull_mayPanic`: where it has none, some tag makes the command panic.
-/

namespace Ntag424

open Numerals SecureChannel

/-! ### The last header -/

section Fits

variable (P : Primitives)

/-- The last of the chunks has a place in the header, or the build has no assertion about it. -/
def LastHeaderFits (chunk : ℕ) (offset : UInt32) (len : ℕ) : Prop :=
  P.debugAssertions = true → offset.toNat + lastStart chunk len ≤ u24Max

/-- A read is refused before its first APDU, or its last header fits. -/
def ReadHeadersFit (chunk : ℕ) (fileNo : UInt8) (offset length : UInt32) (bufLen : ℕ) : Prop :=
  Readable fileNo offset length bufLen → LastHeaderFits P chunk offset (readTarget length bufLen)

/-- A write is refused before its first APDU, or its last header fits. -/
def WriteHeadersFit (chunk : ℕ) (fileNo : UInt8) (offset : UInt32) (len : ℕ) : Prop :=
  Writable fileNo offset len → LastHeaderFits P chunk offset len

variable {P} {chunk len : ℕ} {offset : UInt32}

/-- Every chunk up to the last one that fits has a place in the header. The 32 bits of its offset
may have wrapped, which makes the offset smaller. -/
theorem LastHeaderFits.offset_le (h : LastHeaderFits P chunk offset len)
    (hdebug : P.debugAssertions = true) {total : ℕ} (hat : AtChunk chunk len total)
    (hlt : total < len) : (offset + UInt32.ofNat total).toNat ≤ u24Max := by
  obtain ⟨k, rfl⟩ := hat hlt
  have hlast := h hdebug
  have hstart := le_lastStart hlt
  have hwrap := Nat.mod_le (offset.toNat + (UInt32.ofNat (chunk * k)).toNat) (2 ^ 32)
  have hchunk : (UInt32.ofNat (chunk * k)).toNat ≤ chunk * k := by
    rw [UInt32.toNat_ofNat']
    exact Nat.mod_le ..
  rw [UInt32.toNat_add]
  omega

/-- **No assertion fails** before the last header, if that one fits. -/
theorem LastHeaderFits.headerFits {fileNo : UInt8} (h : LastHeaderFits P chunk offset len)
    (hfile : fileNo ≤ 0x1F) {total n : ℕ} (hat : AtChunk chunk len total) (hlt : total < len)
    (hn : n ≤ 256) :
    P.debugAssertions = true →
      HeaderFits fileNo (offset + UInt32.ofNat total) (UInt32.ofNat n) :=
  fun hdebug => (headerFits_chunk hfile hn).mpr (h.offset_le hdebug hat hlt)

/-- A request that passes the checks is for some bytes, all of them in the buffer. -/
theorem Readable.target {fileNo : UInt8} {length : UInt32} {bufLen : ℕ}
    (h : Readable fileNo offset length bufLen) :
    0 < readTarget length bufLen ∧ readTarget length bufLen ≤ bufLen := by
  obtain ⟨-, -, -, hbuf, hlen⟩ := h
  rw [readTarget]
  by_cases hzero : length = 0
  · rw [if_pos hzero]
    exact ⟨Nat.pos_of_ne_zero hbuf, le_rfl⟩
  · rw [if_neg hzero]
    have hne : length.toNat ≠ 0 := fun hnat => hzero (UInt32.toNat_inj.mp hnat)
    exact ⟨Nat.pos_of_ne_zero hne, hlen.resolve_left hzero⟩

end Fits

/-! ### Answers of at most 256 bytes -/

/-- Every answer has at most 256 bytes. -/
def shortAnswer {E : Type} (_ : List UInt8) (answer : Except E Response) : Prop :=
  ∀ resp, answer = .ok resp → resp.data.length ≤ 256

section Exchanges

variable {P : Primitives} {E S σ β : Type}

/-- Some tag with answers of at most 256 bytes makes the command panic. -/
def MayPanic (cmd : Cmd E σ β) (t : σ) (w : Transcript E) : Prop :=
  cmd.may (Records shortAnswer) (fun _ _ _ => False) (fun f _ _ => f = .panicked) t w

/-- **There is such a run.** -/
theorem MayPanic.exists_ends {cmd : Cmd E σ β} {t : σ} {w : Transcript E} (h : MayPanic cmd t w) :
    ∃ t' w', Prog.Ends (Records shortAnswer) (cmd t) w (.error .panicked, t') w' := by
  rcases Script.exists_ends_of_may h with ⟨_, _, _, -, hno⟩ | ⟨_, t', w', hend, rfl⟩
  · exact hno.elim
  · exact ⟨t', w', hend⟩

variable [SessionSuite P S] {s s' : Authenticated S} {w : Transcript E}
  {R : Fault (SessionError E) → Authenticated S → Transcript E → Prop}

/-- The state of the host agrees with `s` but for the record of its counter. -/
structure SameChannel (s s' : Authenticated S) : Prop where
  suite : s'.suite = s.suite
  ti : s'.ti = s.ti
  cmdCounter : s'.cmdCounter = s.cmdCounter

variable (P) in
/-- A body with the response MAC that the host in state `s` expects next. -/
def rightAnswer (s : Authenticated S) (body : List UInt8) : Response :=
  ⟨body ++ (SessionSuite.mac P s.suite (macInput 0x00 (s.cmdCounter + 1) s.ti body [])).toList,
    0x91, 0x00⟩

/-- The host accepts the right answer. -/
theorem may_verifyResponse {Q : List UInt8 → Authenticated S → Transcript E → Prop}
    {body : List UInt8} (hbody : body.length ≤ maxApduBody) (hs : SameChannel s s')
    (hQ : ∀ s'', SameChannel s.advanceCounter s'' → Q body s'' w) :
    (verifyResponseMacAndAdvance P (rightAnswer P s body).sw2 (rightAnswer P s body).data).may
      (Records shortAnswer) Q R s' w := by
  have hlen : (rightAnswer P s body).data.length = body.length + macLen := by
    rw [rightAnswer, List.length_append, Bytes.length_toList, macLen]
  have htake : (rightAnswer P s body).data.take body.length = body := List.take_left' rfl
  have hdrop : (rightAnswer P s body).data.drop body.length =
      (SessionSuite.mac P s.suite (macInput 0x00 (s.cmdCounter + 1) s.ti body [])).toList :=
    List.drop_left' rfl
  have hinput : (macInput 0x00 (s.cmdCounter + 1) s.ti body []).length ≤ macInputCap := by
    simp only [macInput, macInputCap, List.cons_append, List.length_cons, List.length_append,
      length_leBytes, Bytes.length_toList, List.length_nil]
    omega
  simp only [verifyResponseMacAndAdvance, SecureChannel.state, SecureChannel.note, advance,
    Script.may_bind, Script.may_get, Script.may_assert, Script.may_set, Script.may_pure,
    Script.may_require, hlen, Nat.add_sub_cancel, htake, hdrop, hs.suite, hs.ti, hs.cmdCounter]
  refine ⟨fun _ => ⟨fun _ => ⟨fun _ => ?_, fun hno => absurd rfl hno⟩,
    fun hno => absurd hinput hno⟩, fun hno => absurd (Nat.le_add_left ..) hno⟩
  refine hQ _ ⟨hs.suite, hs.ti, ?_⟩
  exact congrArg (· + 1) hs.cmdCounter

/-- **One exchange with a MAC** may be answered with any body of at most 248 bytes. -/
theorem may_exchange {Q : List UInt8 → Authenticated S → Transcript E → Prop}
    {ins p1 p2 : UInt8} {header data : List UInt8} (body : List UInt8)
    (hlen : header.length + data.length ≤ maxApduBody) (hbody : body.length ≤ 248)
    (hQ : ∀ s' apdu, SameChannel s.advanceCounter s' →
      Q body s' (w ++ [(apdu, .ok (rightAnswer P s body))])) :
    (transmitMac P ins p1 p2 header data).may (Records shortAnswer)
      (fun resp s' w' => (verifyResponseMacAndAdvance P resp.sw2 resp.data).may
        (Records shortAnswer) Q R s' w') R s w := by
  have hcap : (macInput ins s.cmdCounter s.ti header data).length ≤ macInputCap := by
    simp only [macInput, macInputCap, List.length_cons, List.length_append, length_leBytes,
      Bytes.length_toList]
    omega
  have hshort : shortAnswer (E := E) [] (.ok (rightAnswer P s body)) := by
    rintro _ ⟨⟩
    rw [rightAnswer, List.length_append, Bytes.length_toList]
    omega
  simp only [transmitMac, computeCmdMac, transmitExpecting, transmit, SecureChannel.state,
    SecureChannel.note, Script.may_bind, Script.may_get, Script.may_assert, Script.may_set,
    Script.may_pure, Script.may_request]
  refine ⟨fun _ => ⟨.ok (rightAnswer P s body), _, ⟨hshort, rfl⟩, ?_⟩, fun hno => absurd hcap hno⟩
  simp only [Script.may_require, Script.may_pure]
  refine ⟨fun _ => ?_, fun hno => absurd rfl hno⟩
  exact may_verifyResponse (by rw [maxApduBody]; omega) ⟨rfl, rfl, rfl⟩ fun s'' hs => hQ s'' _ hs

end Exchanges

/-! ### One request -/

section One

variable {P : Primitives} {E S : Type} [SessionSuite P S] {s : Authenticated S} {w : Transcript E}
  {R : Fault (SessionError E) → Authenticated S → Transcript E → Prop} {fileNo : UInt8}
  {offset : UInt32} {n : ℕ} {buf part : List UInt8}

/-- A read with a MAC may be answered in full. -/
theorem may_readDataMacOneApdu {Q : ℕ × List UInt8 → Authenticated S → Transcript E → Prop}
    (hfile : fileNo ≤ 0x1F) (hoffset : offset.toNat ≤ u24Max) (hn : n ≤ macReadChunk)
    (hbuf : buf.length = n) (hQ : ∀ part s' w', part.length = n → Q (n, part) s' w') :
    (readDataMacOneApdu P fileNo offset (UInt32.ofNat n) buf).may (Records shortAnswer) Q R
      s w := by
  rw [macReadChunk] at hn
  have hfits : HeaderFits fileNo offset (UInt32.ofNat n) :=
    (headerFits_chunk hfile (by omega)).mpr hoffset
  have hlen : (List.replicate n (0x00 : UInt8)).length = n := List.length_replicate
  simp only [readDataMacOneApdu, buildReadHeader, debugAssert, Script.may_bind, Script.may_assert,
    Script.may_require, Script.may_pure, hbuf, wantPlainBytes_chunk (n := n) (by omega)]
  refine ⟨fun _ => ?_, fun hno => absurd (fun _ => hfits) hno⟩
  refine may_exchange (List.replicate n 0x00) (by simp [maxApduBody]) (by omega)
    fun s' _ _ => ⟨fun _ => ⟨fun _ => ?_, fun hno => absurd hlen.le hno⟩,
      fun hno => absurd hlen.le hno⟩
  rw [hlen]
  exact hQ _ s' _ (by rw [length_overlay (by omega), hbuf])

/-- A read of encrypted data may be answered in full. -/
theorem may_readDataFullOneApdu [InvertibleSuite P S] (hP : P.Lawful)
    {Q : ℕ × List UInt8 → Authenticated S → Transcript E → Prop} (hfile : fileNo ≤ 0x1F)
    (hoffset : offset.toNat ≤ u24Max) (hn : n ≤ fullReadChunk) (hbuf : buf.length = n)
    (hQ : ∀ part s' w', part.length = n → Q (n, part) s' w') :
    (readDataFullOneApdu P fileNo offset (UInt32.ofNat n) buf).may (Records shortAnswer) Q R
      s w := by
  rw [fullReadChunk] at hn
  have hfits : HeaderFits fileNo offset (UInt32.ofNat n) :=
    (headerFits_chunk hfile (by omega)).mpr hoffset
  have htoNat := toNat_ofNat_chunk (n := n) (by omega)
  have hlen : (List.replicate n (0x00 : UInt8)).length = n := List.length_replicate
  have htake := take_m2Pad (List.replicate n (0x00 : UInt8))
  rw [hlen] at htake
  -- the ciphertext that the host decrypts to `n` zeros with their padding
  obtain ⟨ct, suite, -, hct, hdec⟩ := InvertibleSuite.exists_encrypt hP s.suite .response s.ti
    (s.cmdCounter + 1) (m2Pad_ne_nil (List.replicate n 0x00)) (length_m2Pad_mod _)
  rw [length_m2Pad, hlen] at hct
  simp only [readDataFullOneApdu, buildReadHeader, debugAssert, Script.may_bind,
    Script.may_assert, Script.may_require, Script.may_pure]
  refine ⟨fun _ => ?_, fun hno => absurd (fun _ => hfits) hno⟩
  refine may_exchange ct (by simp [maxApduBody]) (by omega) fun s' _ hs =>
    ⟨fun _ => ⟨fun _ => ?_, fun hno => absurd ?_ hno⟩, fun hno => absurd ⟨by omega, by omega⟩ hno⟩
  · have hdec' : SessionSuite.decrypt P s'.suite .response s'.ti s'.cmdCounter ct =
        some (m2Pad (List.replicate n 0x00), suite) := by
      rw [hs.suite, hs.ti, hs.cmdCounter]
      exact hdec
    simp only [decryptResponse, SecureChannel.state, SecureChannel.note, Script.may_bind,
      Script.may_get, hdec', Script.may_set, Script.may_pure, stripM2Padding_m2Pad,
      Script.may_require, hlen, htake, htoNat, hbuf]
    refine ⟨fun _ => ⟨fun _ => ?_, fun hno => absurd le_rfl hno⟩,
      fun hno => absurd (.inr trivial) hno⟩
    exact hQ _ _ _ (by rw [length_overlay (by omega), hbuf])
  · rw [readDataRespCap]
    omega

/-- A write with a MAC may be accepted. -/
theorem may_writeDataMacOneApdu {Q : Unit → Authenticated S → Transcript E → Prop}
    (hfile : fileNo ≤ 0x1F) (hoffset : offset.toNat ≤ u24Max) (hne : part ≠ [])
    (hpart : part.length ≤ macWriteChunk) (hQ : ∀ s' w', Q () s' w') :
    (writeDataMacOneApdu P fileNo offset part).may (Records shortAnswer) Q R s w := by
  rw [macWriteChunk] at hpart
  have hfits : HeaderFits fileNo offset (UInt32.ofNat part.length) :=
    (headerFits_chunk hfile (by omega)).mpr hoffset
  have hlength := ofNat_chunk_ne_zero (List.length_pos_iff.mpr hne) (by omega)
  simp only [writeDataMacOneApdu, buildWriteHeader, debugAssert, sendMac, Script.may_bind,
    Script.may_assert, Script.may_require, Script.may_pure, length_headerBytes]
  refine ⟨fun _ => ⟨fun _ => ?_, fun hno => absurd ?_ hno⟩,
    fun hno => absurd (fun _ => ⟨hfits, hlength⟩) hno⟩
  · refine may_exchange [] ?_ (Nat.zero_le _) fun s' _ _ =>
      ⟨fun _ => ⟨fun _ => hQ s' _, fun hno => absurd rfl hno⟩,
        fun hno => absurd (Nat.zero_le _) hno⟩
    rw [length_headerBytes, maxApduBody]
    omega
  · rw [macLen, maxApduBody]
    omega

/-- A write of encrypted data may be accepted. -/
theorem may_writeDataFullOneApdu [InvertibleSuite P S] (hP : P.Lawful)
    {Q : Unit → Authenticated S → Transcript E → Prop} (hfile : fileNo ≤ 0x1F)
    (hoffset : offset.toNat ≤ u24Max) (hne : part ≠ []) (hpart : part.length ≤ fullWriteChunk)
    (hQ : ∀ s' w', Q () s' w') :
    (writeDataFullOneApdu P fileNo offset part).may (Records shortAnswer) Q R s w := by
  rw [fullWriteChunk] at hpart
  have hfits : HeaderFits fileNo offset (UInt32.ofNat part.length) :=
    (headerFits_chunk hfile (by omega)).mpr hoffset
  have hlength := ofNat_chunk_ne_zero (List.length_pos_iff.mpr hne) (by omega)
  obtain ⟨ct, suite, henc, hct, -⟩ := InvertibleSuite.exists_encrypt hP s.suite .command s.ti
    s.cmdCounter (m2Pad_ne_nil part) (length_m2Pad_mod part)
  have hblocks := length_m2Pad part
  simp only [writeDataFullOneApdu, buildWriteHeader, debugAssert, validateBodyLen, transmitFull,
    encryptCommand, SecureChannel.state, SecureChannel.note, Script.may_bind, Script.may_assert,
    Script.may_require, Script.may_get, henc, Script.may_set, Script.may_pure]
  refine ⟨fun _ => ⟨fun _ => ?_, fun hno => absurd ?_ hno⟩,
    fun hno => absurd (fun _ => ⟨hfits, hlength⟩) hno⟩
  · refine may_exchange [] ?_ (Nat.zero_le _) fun s' _ _ => hQ s' _
    rw [length_headerBytes, maxApduBody]
    omega
  · rw [macLen, maxApduBody]
    omega

end One

/-! ### Whole transfers -/

section Transfers

variable {P : Primitives} {E S σ : Type} [SessionSuite P S] {s : Authenticated S}
  {w : Transcript E} {fileNo : UInt8} {offset length : UInt32} {buf data : List UInt8}

/-- The offset of the first chunk that is too far away has not wrapped. -/
theorem lt_toNat_of_first_far {chunk k : ℕ} (hoffset : offset.toNat ≤ u24Max) (hchunk : chunk ≤ 256)
    (hfar : u24Max < offset.toNat + chunk * k)
    (hfirst : ∀ j < k, ¬ u24Max < offset.toNat + chunk * j) :
    u24Max < (offset + UInt32.ofNat (chunk * k)).toNat := by
  rcases k with _ | k
  · omega
  · have hbefore := hfirst k (Nat.lt_succ_self k)
    rw [Nat.mul_succ] at hfar ⊢
    rw [u24Max] at hbefore
    rw [toNat_add_ofNat (by omega)]
    exact hfar

/-- The loop with a MAC reaches the first chunk that is too far away, and panics. -/
theorem readDataMacLoop_mayPanic (hdebug : P.debugAssertions = true) (hfile : fileNo ≤ 0x1F)
    (hoffset : offset.toNat ≤ u24Max) {target : ℕ} (hpos : 0 < target)
    (hbuf : target ≤ buf.length) (hfar : u24Max < offset.toNat + lastStart macReadChunk target) :
    MayPanic (readDataMacLoop P fileNo target 0 offset buf) s w := by
  have hloop : ∀ buf (s : Authenticated S) w, target ≤ buf.length →
      MayPanic (readDataMacLoop P (E := E) fileNo target 0 (offset + UInt32.ofNat 0) buf) s w := by
    refine chunks_until_far (motive := fun total => ∀ buf (s : Authenticated S) w,
      target ≤ buf.length →
        MayPanic (readDataMacLoop P fileNo target total (offset + UInt32.ofNat total) buf) s w)
      (p := fun start => u24Max < offset.toNat + start) hpos hfar ?_ ?_
    · intro k hlt hfar hfirst buf s w hbuf
      have hover := lt_toNat_of_first_far hoffset (by simp [macReadChunk]) hfar hfirst
      rw [readDataMacLoop, if_pos hlt]
      simp only [MayPanic, readDataMacOneApdu, buildReadHeader, debugAssert, Script.may_bind,
        Script.may_assert]
      exact ⟨fun _ => ⟨fun hfits => absurd (hfits hdebug).2.1 (Nat.not_le.mpr hover),
        fun _ => trivial⟩, fun _ => trivial⟩
    · intro k hlt hnear ih buf s w hbuf
      rw [Nat.mul_succ] at hlt ih
      have hmin : min (target - macReadChunk * k) macReadChunk = macReadChunk := by omega
      have hoffset' : (offset + UInt32.ofNat (macReadChunk * k)).toNat ≤ u24Max := by
        rw [u24Max] at hnear
        rw [toNat_add_ofNat (by omega), u24Max]
        omega
      rw [readDataMacLoop, if_pos (by omega)]
      simp only [MayPanic, hmin, Script.may_bind, Script.may_assert]
      refine ⟨fun hfits => ?_, fun hno => absurd (by omega) hno⟩
      refine may_readDataMacOneApdu hfile hoffset' le_rfl (length_slice hfits)
        fun part s' w' hpart => ?_
      have hcopy : macReadChunk * k + part.length ≤ buf.length := hpart.symm ▸ hfits
      rw [if_neg (Nat.lt_irrefl _), UInt32.add_assoc, ← UInt32.ofNat_add]
      exact ih _ s' w' (by rw [length_overlay hcopy]; exact hbuf)
  have hzero := hloop buf s w hbuf
  rwa [show offset + UInt32.ofNat 0 = offset from UInt32.add_zero offset] at hzero

/-- So does the loop for encrypted data. -/
theorem readDataFullLoop_mayPanic [InvertibleSuite P S] (hP : P.Lawful)
    (hdebug : P.debugAssertions = true) (hfile : fileNo ≤ 0x1F) (hoffset : offset.toNat ≤ u24Max)
    {target : ℕ} (hpos : 0 < target) (hbuf : target ≤ buf.length)
    (hfar : u24Max < offset.toNat + lastStart fullReadChunk target) :
    MayPanic (readDataFullLoop P fileNo target 0 offset buf) s w := by
  have hloop : ∀ buf (s : Authenticated S) w, target ≤ buf.length →
      MayPanic (readDataFullLoop P (E := E) fileNo target 0 (offset + UInt32.ofNat 0) buf) s w := by
    refine chunks_until_far (motive := fun total => ∀ buf (s : Authenticated S) w,
      target ≤ buf.length →
        MayPanic (readDataFullLoop P fileNo target total (offset + UInt32.ofNat total) buf) s w)
      (p := fun start => u24Max < offset.toNat + start) hpos hfar ?_ ?_
    · intro k hlt hfar hfirst buf s w hbuf
      have hover := lt_toNat_of_first_far hoffset (by simp [fullReadChunk]) hfar hfirst
      rw [readDataFullLoop, if_pos hlt]
      simp only [MayPanic, readDataFullOneApdu, buildReadHeader, debugAssert, Script.may_bind,
        Script.may_assert]
      exact ⟨fun _ => ⟨fun hfits => absurd (hfits hdebug).2.1 (Nat.not_le.mpr hover),
        fun _ => trivial⟩, fun _ => trivial⟩
    · intro k hlt hnear ih buf s w hbuf
      rw [Nat.mul_succ] at hlt ih
      have hmin : min (target - fullReadChunk * k) fullReadChunk = fullReadChunk := by omega
      have hoffset' : (offset + UInt32.ofNat (fullReadChunk * k)).toNat ≤ u24Max := by
        rw [u24Max] at hnear
        rw [toNat_add_ofNat (by omega), u24Max]
        omega
      rw [readDataFullLoop, if_pos (by omega)]
      simp only [MayPanic, hmin, Script.may_bind, Script.may_assert]
      refine ⟨fun hfits => ?_, fun hno => absurd (by omega) hno⟩
      refine may_readDataFullOneApdu hP hfile hoffset' le_rfl (length_slice hfits)
        fun part s' w' hpart => ?_
      have hcopy : fullReadChunk * k + part.length ≤ buf.length := hpart.symm ▸ hfits
      rw [if_neg (by simp [fullReadChunk]), UInt32.add_assoc, ← UInt32.ofNat_add]
      exact ih _ s' w' (by rw [length_overlay hcopy]; exact hbuf)
  have hzero := hloop buf s w hbuf
  rwa [show offset + UInt32.ofNat 0 = offset from UInt32.add_zero offset] at hzero

/-- So do the loops of a write. -/
theorem writeLoop_mayPanic {chunk : ℕ} {one : UInt32 → List UInt8 → Cmd E σ Unit} {t : σ}
    (hpos : 0 < chunk) (hchunk : chunk ≤ 256) (hoffset : offset.toNat ≤ u24Max) (hne : data ≠ [])
    (hfar : u24Max < offset.toNat + lastStart chunk data.length)
    (hone : ∀ offset part t w {Q R}, offset.toNat ≤ u24Max → part ≠ [] → part.length ≤ chunk →
      (∀ t' w', Q () t' w') → (one offset part).may (Records shortAnswer) Q R t w)
    (hpanic : ∀ offset part t w, u24Max < offset.toNat → MayPanic (one offset part) t w) :
    MayPanic (writeLoop chunk one offset data) t w := by
  have hmore : ∀ {written : ℕ}, written < data.length → data.drop written ≠ [] := by
    intro written hlt
    rw [ne_eq, List.drop_eq_nil_iff]
    omega
  have hloop : ∀ t w, MayPanic
      (writeLoop chunk one (offset + UInt32.ofNat 0) (data.drop 0)) t w := by
    refine chunks_until_far (motive := fun written => ∀ t w, MayPanic
      (writeLoop chunk one (offset + UInt32.ofNat written) (data.drop written)) t w)
      (p := fun start => u24Max < offset.toNat + start) (List.length_pos_iff.mpr hne) hfar ?_ ?_
    · intro k hlt hfar hfirst t w
      have hover := lt_toNat_of_first_far hoffset hchunk hfar hfirst
      rw [writeLoop, if_pos ⟨hmore hlt, hpos⟩]
      simp only [MayPanic, Script.may_bind]
      have hone := hpanic _ ((data.drop (chunk * k)).take chunk) t w hover
      rw [MayPanic] at hone
      exact Script.may_mono hone (fun _ _ _ hno => hno.elim) fun _ _ _ hf => hf
    · intro k hlt hnear ih t w
      rw [Nat.mul_succ] at hlt ih
      have hoffset' : (offset + UInt32.ofNat (chunk * k)).toNat ≤ u24Max := by
        rw [u24Max] at hnear
        rw [toNat_add_ofNat (by omega), u24Max]
        omega
      have hlen : ((data.drop (chunk * k)).take chunk).length = chunk := by
        rw [List.length_take, List.length_drop]
        omega
      have hpart : (data.drop (chunk * k)).take chunk ≠ [] :=
        List.length_pos_iff.mp (hpos.trans_eq hlen.symm)
      rw [writeLoop, if_pos ⟨hmore (by omega), hpos⟩]
      simp only [MayPanic, Script.may_bind]
      refine hone _ _ t w hoffset' hpart hlen.le fun t' w' => ?_
      rw [hlen, UInt32.add_assoc, ← UInt32.ofNat_add, List.drop_drop]
      exact ih t' w'
  have hzero := hloop t w
  rwa [List.drop_zero, show offset + UInt32.ofNat 0 = offset from UInt32.add_zero offset] at hzero

/-! ### Commands -/

/-- A request that passes the checks gets to its loop. -/
theorem mayPanic_validateRequest {β : Type} {bufLen : ℕ} {next : Cmd E σ β} {t : σ}
    (h : Readable fileNo offset length bufLen) (hnext : MayPanic next t w) :
    MayPanic (do validateRequest fileNo offset length bufLen; next) t w := by
  obtain ⟨hfile, hoffset, hlength, hbuf, hlen⟩ := h
  simp only [MayPanic, validateRequest, validateTarget, Script.may_bind, Script.may_require]
  exact ⟨fun _ => ⟨fun _ => ⟨fun _ => ⟨fun _ => ⟨fun _ => hnext, fun hno => absurd hlen hno⟩,
    fun hno => absurd hbuf hno⟩, fun hno => absurd hlength hno⟩, fun hno => absurd hoffset hno⟩,
    fun hno => absurd hfile hno⟩

/-- A write that passes the checks gets to its loop. -/
theorem mayPanic_validateHeader {β : Type} {len : ℕ} {next : Cmd E σ β} {t : σ}
    (h : Writable fileNo offset len) (hnext : MayPanic next t w) :
    MayPanic (do validateHeader fileNo offset len; next) t w := by
  obtain ⟨hfile, hoffset, hne, hlen⟩ := h
  simp only [MayPanic, validateHeader, validateTarget, Script.may_bind, Script.may_require]
  exact ⟨fun _ => ⟨fun _ => ⟨fun _ => ⟨fun _ => hnext, fun hno => absurd hlen hno⟩,
    fun hno => absurd hne hno⟩, fun hno => absurd hoffset hno⟩, fun hno => absurd hfile hno⟩

/-- **`read_data_mac` may panic** where its last header does not fit. -/
theorem readDataMac_mayPanic
    (h : ¬ ReadHeadersFit P macReadChunk fileNo offset length buf.length) :
    MayPanic (readDataMac P fileNo offset length buf) s w := by
  rw [ReadHeadersFit, LastHeaderFits, Classical.not_imp, Classical.not_imp, Nat.not_le] at h
  obtain ⟨hread, hdebug, hfar⟩ := h
  obtain ⟨hpos, hbuf⟩ := hread.target
  exact mayPanic_validateRequest hread
    (readDataMacLoop_mayPanic hdebug hread.1 hread.2.1 hpos hbuf hfar)

/-- **`read_data_full` may panic** where its last header does not fit. -/
theorem readDataFull_mayPanic [InvertibleSuite P S] (hP : P.Lawful)
    (h : ¬ ReadHeadersFit P fullReadChunk fileNo offset length buf.length) :
    MayPanic (readDataFull P fileNo offset length buf) s w := by
  rw [ReadHeadersFit, LastHeaderFits, Classical.not_imp, Classical.not_imp, Nat.not_le] at h
  obtain ⟨hread, hdebug, hfar⟩ := h
  obtain ⟨hpos, hbuf⟩ := hread.target
  exact mayPanic_validateRequest hread
    (readDataFullLoop_mayPanic hP hdebug hread.1 hread.2.1 hpos hbuf hfar)

/-- **`write_data_mac` may panic** where its last header does not fit. -/
theorem writeDataMac_mayPanic (h : ¬ WriteHeadersFit P macWriteChunk fileNo offset data.length) :
    MayPanic (writeDataMac P fileNo offset data) s w := by
  rw [WriteHeadersFit, LastHeaderFits, Classical.not_imp, Classical.not_imp, Nat.not_le] at h
  obtain ⟨hwrite, hdebug, hfar⟩ := h
  have hne : data ≠ [] := fun hnil => hwrite.2.2.1 (hnil ▸ rfl)
  refine mayPanic_validateHeader hwrite (writeLoop_mayPanic (by simp [macWriteChunk])
    (by simp [macWriteChunk]) hwrite.2.1 hne hfar ?_ ?_)
  · intro offset part t w Q R hoffset hne hpart hQ
    exact may_writeDataMacOneApdu hwrite.1 hoffset hne hpart hQ
  · intro offset part t w hover
    simp only [MayPanic, writeDataMacOneApdu, buildWriteHeader, debugAssert, Script.may_bind,
      Script.may_assert]
    exact ⟨fun hfits => absurd (hfits hdebug).1.2.1 (Nat.not_le.mpr hover), fun _ => trivial⟩

/-- **`write_data_full` may panic** where its last header does not fit. -/
theorem writeDataFull_mayPanic [InvertibleSuite P S] (hP : P.Lawful)
    (h : ¬ WriteHeadersFit P fullWriteChunk fileNo offset data.length) :
    MayPanic (writeDataFull P fileNo offset data) s w := by
  rw [WriteHeadersFit, LastHeaderFits, Classical.not_imp, Classical.not_imp, Nat.not_le] at h
  obtain ⟨hwrite, hdebug, hfar⟩ := h
  have hne : data ≠ [] := fun hnil => hwrite.2.2.1 (hnil ▸ rfl)
  refine mayPanic_validateHeader hwrite (writeLoop_mayPanic (by simp [fullWriteChunk])
    (by simp [fullWriteChunk]) hwrite.2.1 hne hfar ?_ ?_)
  · intro offset part t w Q R hoffset hne hpart hQ
    exact may_writeDataFullOneApdu hP hwrite.1 hoffset hne hpart hQ
  · intro offset part t w hover
    simp only [MayPanic, writeDataFullOneApdu, buildWriteHeader, debugAssert, Script.may_bind,
      Script.may_assert]
    exact ⟨fun hfits => absurd (hfits hdebug).1.2.1 (Nat.not_le.mpr hover), fun _ => trivial⟩

end Transfers

end Ntag424
