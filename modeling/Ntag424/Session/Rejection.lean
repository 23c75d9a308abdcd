import Mathlib.Tactic.Common
import Ntag424.Session.Operations
import Ntag424.Session.Unauthenticated

/-!
# Rejected Arguments

What the file accesses do with arguments they reject: which of them are rejected before
anything is sent, and which only when a later chunk is due. The transport may answer anything.

## Main results

* `writes_rejected_cleanly_iff`: a write that is rejected has sent nothing, except that the
  plain loop and the unauthenticated one check the position of a chunk when it is due.
-/

namespace Ntag424

open Numerals SecureChannel

variable {E S σ β : Type}

/-! ### Rejections -/

/-- The errors that reject the arguments of a call. -/
def SessionError.Rejects : SessionError E → Prop
  | .invalidCommandParameter .. | .apduBodyTooLarge .. => True
  | _ => False

/-- A `WriteData` or `ISOUpdateBinary`. -/
def IsWrite (apdu : List UInt8) : Prop :=
  apdu.take 2 = [0x90, 0x8D] ∨ apdu.take 2 = [0x00, 0xD6]

/-- Nothing was written. -/
def Unwritten (w : Transcript E) : Prop := ∀ entry ∈ w, ¬ IsWrite entry.1

/-- A command that rejects its arguments has written nothing and kept what `keep` tells of its
state, whatever the transport answers. -/
def RejectsCleanly (keep : σ → σ → Prop) (cmd : Cmd E σ β) (t : σ) : Prop :=
  ∀ e t' w', Prog.Ends (Records anyAnswer) (cmd t) [] (.error (.error e), t') w' → e.Rejects →
    Unwritten w' ∧ keep t t'

/-- A fault that does not reject arguments. -/
def NotRejects (f : Fault (SessionError E)) : Prop := ∀ e, f = .error e → ¬ e.Rejects

theorem notRejects_panicked : NotRejects (.panicked : Fault (SessionError E)) := nofun

theorem notRejects_error {e : SessionError E} (h : ¬ e.Rejects) : NotRejects (.error e) := by
  rintro _ ⟨⟩
  exact h

/-- A command whose faults are clean rejects cleanly. -/
theorem RejectsCleanly.of_wp {keep : σ → σ → Prop} {cmd : Cmd E σ β} {t : σ}
    {Q : β → σ → Transcript E → Prop} {I : Transcript E → Prop}
    (h : cmd.wp (Records anyAnswer) I Q
      (fun f t' w' => NotRejects f ∨ Unwritten w' ∧ keep t t') t []) :
    RejectsCleanly keep cmd t := by
  intro e t' w' hend hrejects
  rcases Script.wp_ends_fault h hend with hno | hclean
  · exact absurd hrejects (hno e rfl)
  · exact hclean

/-- A fault that rejects the arguments after something was written. -/
def RejectsLate (f : Fault (SessionError E)) (w : Transcript E) : Prop :=
  (∃ e, f = .error e ∧ e.Rejects) ∧ ¬ Unwritten w

/-- One late rejection, against the transport that accepts everything, is one too many. -/
theorem not_rejectsCleanly_of_wp {keep : σ → σ → Prop} {cmd : Cmd E σ β} {t : σ}
    (h : cmd.wp (Prog.Answers acceptAll) (fun _ => True) (fun _ _ _ => False)
      (fun f _ w' => RejectsLate f w') t []) : ¬ RejectsCleanly keep cmd t := by
  intro hclean
  have hend := Prog.ends_run acceptAll (cmd t) []
  rcases hrun : Prog.run acceptAll (cmd t) [] with ⟨⟨f | b, t'⟩, w'⟩
  · rw [hrun] at hend
    obtain ⟨⟨e, rfl, hrejects⟩, hwritten⟩ := Script.wp_ends_fault h hend
    have hany : Prog.Ends (Records anyAnswer) (cmd t) [] (.error (.error e), t') w' :=
      hend.mono (by rintro _ _ _ _ ⟨⟩; exact ⟨trivial, rfl⟩)
    exact hwritten (hclean e t' w' hany hrejects).1
  · rw [hrun] at hend
    exact (Script.wp_ends h hend).elim

/-! ### Commands that do not reject -/

section One

variable {W : Type} {env : (r : List UInt8) → W → Transmit E r → W → Prop} {I : W → Prop}
  {R : Fault (SessionError E) → σ → W → Prop} {t : σ} {w : W}

/-- An exchange never rejects arguments. -/
theorem wp_transmitExpecting_unrejected (status : ResponseStatus) (apdu : List UInt8) :
    (transmitExpecting status apdu).wp env (fun _ => True) (fun _ _ _ => True)
      (fun f _ _ => NotRejects (E := E) f) t w := by
  simp only [transmitExpecting, Script.wp_bind, Script.wp_require, Script.wp_pure]
  exact wp_transmit trivial (fun _ _ _ => ⟨fun _ => trivial, fun _ => notRejects_error id⟩)
    fun _ _ _ => notRejects_error id

variable (P : Primitives) [SessionSuite P S] {s : Authenticated S}

theorem wp_transmitMac_unrejected (ins p1 p2 : UInt8) (header data : List UInt8) :
    (transmitMac P ins p1 p2 header data).wp env (fun _ => True) (fun _ _ _ => True)
      (fun f _ _ => NotRejects (E := E) f) s w := by
  simp only [transmitMac, computeCmdMac, SecureChannel.state, SecureChannel.note, Script.wp_bind,
    Script.wp_get, Script.wp_assert, Script.wp_set, Script.wp_pure]
  exact ⟨fun _ => wp_transmitExpecting_unrejected _ _, fun _ => notRejects_panicked⟩

theorem wp_verifyResponse_unrejected (rc : UInt8) (body : List UInt8) :
    (verifyResponseMacAndAdvance P rc body).wp env (fun _ => True) (fun _ _ _ => True)
      (fun f _ _ => NotRejects (E := E) f) s w := by
  simp only [verifyResponseMacAndAdvance, SecureChannel.state, SecureChannel.note, advance,
    Script.wp_bind, Script.wp_get, Script.wp_assert, Script.wp_set, Script.wp_pure,
    Script.wp_require]
  exact ⟨fun _ => ⟨fun _ => ⟨fun _ => trivial, fun _ => notRejects_error id⟩,
    fun _ => notRejects_panicked⟩, fun _ => notRejects_error id⟩

/-- A chunk with a MAC fits an APDU. -/
theorem wp_writeDataMacOneApdu_unrejected (fileNo : UInt8) (offset : UInt32) {data : List UInt8}
    (hlen : data.length ≤ macWriteChunk) :
    (writeDataMacOneApdu P fileNo offset data).wp env (fun _ => True) (fun _ _ _ => True)
      (fun f _ _ => NotRejects (E := E) f) s w := by
  have hbody : 7 + data.length + macLen ≤ maxApduBody := by
    simp only [macWriteChunk, macLen, maxApduBody] at *
    omega
  simp only [writeDataMacOneApdu, wp_buildWriteHeader, sendMac, Script.wp_bind, Script.wp_require,
    Script.wp_pure, length_headerBytes]
  refine ⟨fun _ => ⟨fun _ => ?_, fun hno => absurd hbody hno⟩, fun _ => notRejects_panicked⟩
  refine Script.wp_mono (wp_transmitMac_unrejected P ..) (fun _ _ _ _ => ?_) fun _ _ _ h => h
  refine Script.wp_mono (wp_verifyResponse_unrejected P ..) (fun _ _ _ _ => ?_) fun _ _ _ h => h
  exact ⟨fun _ => ⟨fun _ => trivial, fun _ => notRejects_error id⟩, fun _ => notRejects_error id⟩

/-- An encrypted chunk fits an APDU with its padding. -/
theorem wp_writeDataFullOneApdu_unrejected (fileNo : UInt8) (offset : UInt32) {data : List UInt8}
    (hlen : data.length ≤ fullWriteChunk) :
    (writeDataFullOneApdu P fileNo offset data).wp env (fun _ => True) (fun _ _ _ => True)
      (fun f _ _ => NotRejects (E := E) f) s w := by
  have hbody : 7 + (m2Pad data).length + macLen ≤ maxApduBody := by
    rw [length_m2Pad]
    simp only [fullWriteChunk, macLen, maxApduBody] at *
    omega
  simp only [writeDataFullOneApdu, wp_buildWriteHeader, validateBodyLen, transmitFull,
    encryptCommand, SecureChannel.state, SecureChannel.note, Script.wp_bind, Script.wp_require,
    Script.wp_get]
  refine ⟨fun _ => ⟨fun _ => ?_, fun hno => absurd hbody hno⟩, fun _ => notRejects_panicked⟩
  cases SessionSuite.encrypt P s.suite .command s.ti s.cmdCounter (m2Pad data) with
  | none => exact Script.wp_fail.mpr (notRejects_error id)
  | some ct =>
      simp only [Script.wp_bind, Script.wp_set, Script.wp_get, Script.wp_pure]
      refine Script.wp_mono (wp_transmitMac_unrejected P ..) (fun _ _ _ _ => ?_) fun _ _ _ h => h
      exact Script.wp_mono (wp_verifyResponse_unrejected P ..) (fun _ _ _ _ => trivial)
        fun _ _ _ h => h

end One

/-! ### Plain writes -/

/-- The first chunk of a plain write is refused, or the last one still has a position. -/
def PlainWriteFits (offset : UInt32) (data : List UInt8) : Prop :=
  u24Max < offset.toNat ∨ offset.toNat + lastStart plainWriteChunk data.length ≤ u24Max

section Plain

variable {W : Type} {env : (r : List UInt8) → W → Transmit E r → W → Prop}
  {s : Authenticated S} {w : W}

/-- The checks of a chunk of a plain write, whose length is right. -/
theorem wp_writeDataPlain_checked {Q : Unit → Authenticated S → W → Prop}
    {R : Fault (SessionError E) → Authenticated S → W → Prop} {fileNo : UInt8} {offset : UInt32}
    {data : List UInt8} (hfile : fileNo ≤ 0x1F) (hne : data ≠ [])
    (hlen : data.length ≤ plainWriteChunk)
    (hfar : u24Max < offset.toNat →
      R (.error (.invalidCommandParameter "offset" offset.toNat "must fit 24 bits")) s w)
    (hnear : offset.toNat ≤ u24Max →
      (transmitExpecting .operationOk (nativeApdu 0x8D 0x00 0x00
        (headerBytes fileNo offset (UInt32.ofNat data.length) ++ data))).wp env (fun _ => True)
        (fun _ => Q ()) R s w) :
    (writeDataPlain fileNo offset data).wp env (fun _ => True) Q R s w := by
  have hbody : 7 + data.length ≤ maxApduBody := by
    simp only [plainWriteChunk, maxApduBody] at *
    omega
  have hmax : data.length ≤ u24Max := by
    simp only [plainWriteChunk, u24Max] at *
    omega
  simp only [writeDataPlain, validateHeader, validateTarget, validateBodyLen, Script.wp_bind,
    Script.wp_require, Script.wp_pure]
  refine ⟨fun _ =>
    ⟨fun hle => ⟨fun _ => ⟨fun _ => ⟨fun _ => hnear hle, fun hno => absurd hbody hno⟩,
    fun hno => absurd hmax hno⟩, fun hno => absurd (fun hzero => ?_) hno⟩,
    fun hno => hfar (Nat.lt_of_not_le hno)⟩, fun hno => absurd hfile hno⟩
  exact hne (List.length_eq_zero_iff.mp hzero)

/-- A plain write that fits fails cleanly: after its first chunk nothing is refused. -/
theorem wp_writeFilePlainChunked_clean {fileNo : UInt8} (hfile : fileNo ≤ 0x1F) {offset : UInt32}
    {data : List UInt8} (hfits : PlainWriteFits offset data) :
    (writeFilePlainChunked (S := S) fileNo offset data).wp (Records anyAnswer) (fun _ => True)
      (fun _ _ _ => True)
      (fun f s' w' => NotRejects (E := E) f ∨ Unwritten w' ∧ s'.cmdCounter = s.cmdCounter)
      s [] := by
  have hclean : Unwritten ([] : Transcript E) := fun _ h => absurd h List.not_mem_nil
  have hchunk : 0 < plainWriteChunk := by simp [plainWriteChunk]
  simp only [writeFilePlainChunked, Script.wp_bind, Script.wp_require]
  refine ⟨fun hne => ?_, fun _ => .inr ⟨hclean, trivial⟩⟩
  refine wp_writeLoop (J := fun written s' w' =>
      ∃ k, written = min (plainWriteChunk * k) data.length ∧
      (k = 0 → s' = s ∧ w' = []) ∧ (0 < k → offset.toNat ≤ u24Max)) hchunk (fun _ _ _ => trivial)
    ?_ ⟨0, by simp, fun _ => ⟨rfl, rfl⟩, fun h => absurd h (by omega)⟩
  rintro written s' w' ⟨k, hwritten, hstart, hnear⟩ hlt
  have hk : written = plainWriteChunk * k := by omega
  have hlast := le_lastStart (hk ▸ hlt)
  have hlen : (slice data written plainWriteChunk).length =
      min plainWriteChunk (data.length - written) := by
    rw [slice, List.length_take, List.length_drop]
  simp only [writeFilePlainOneApdu, Script.wp_bind]
  refine wp_writeDataPlain_checked hfile (fun hnil => ?_) (by omega) (fun hfar => ?_) fun hle => ?_
  · rw [hnil, List.length_nil] at hlen
    omega
  · -- only the first chunk can be refused
    rcases Nat.eq_zero_or_pos k with rfl | hpos
    · obtain ⟨rfl, rfl⟩ := hstart rfl
      exact .inr ⟨hclean, rfl⟩
    · have hoffset := hnear hpos
      rcases hfits with hfits | hfits
      · omega
      · rw [hk, toNat_add_ofNat (by simp only [u24Max] at *; omega)] at hfar
        omega
  · refine Script.wp_mono (wp_transmitExpecting_unrejected _ _) (fun _ s₁ w₁ _ => ?_)
      fun _ _ _ h => .inl h
    simp only [advanceCounter, SecureChannel.note, advance, SecureChannel.state, Script.wp_bind,
      Script.wp_get, Script.wp_set]
    refine ⟨k + 1, ?_, fun h => absurd h (by omega), fun _ => ?_⟩
    · rw [Nat.mul_succ]
      omega
    · rcases Nat.eq_zero_or_pos k with rfl | hpos
      · rw [hk, Nat.mul_zero, toNat_add_ofNat (by have := offset.toNat_lt; omega)] at hle
        omega
      · exact hnear hpos

/-- A plain write that does not fit is refused after its first chunk. -/
theorem wp_writeFilePlainChunked_late {fileNo : UInt8} (hfile : fileNo ≤ 0x1F) {offset : UInt32}
    {data : List UInt8} (hfits : ¬ PlainWriteFits offset data) :
    (writeFilePlainChunked (S := S) fileNo offset data).wp (Prog.Answers (acceptAll (E := E)))
      (fun _ => True) (fun _ _ _ => False) (fun f _ w' => RejectsLate f w') s [] := by
  obtain ⟨hnear, hfar⟩ := not_or.mp hfits
  have hchunk : 0 < plainWriteChunk := by simp [plainWriteChunk]
  have hne : data ≠ [] := by
    rintro rfl
    simp only [lastStart, List.length_nil, Nat.zero_sub, Nat.zero_div, Nat.mul_zero] at hfar
    omega
  simp only [writeFilePlainChunked, Script.wp_bind, Script.wp_require]
  refine ⟨fun _ => ?_, fun hno => absurd hne hno⟩
  refine wp_writeLoop (J := fun written _ w' =>
      ∃ k, written = min (plainWriteChunk * k) data.length ∧
      (0 < k → offset.toNat + plainWriteChunk * (k - 1) ≤ u24Max ∧ ¬ Unwritten w')) hchunk
    ?_ ?_ ⟨0, by simp, fun h => absurd h (by omega)⟩
  · rintro s' w' ⟨k, hwritten, hlate⟩
    have hpos := List.length_pos_iff.mpr hne
    have hk : 0 < k := by
      rcases Nat.eq_zero_or_pos k with rfl | hk
      · omega
      · exact hk
    have hlast := lastStart_le hchunk (show data.length ≤ plainWriteChunk * k by omega)
    have hle := (hlate hk).1
    omega
  · rintro written s' w' ⟨k, hwritten, hlate⟩ hlt
    have hk : written = plainWriteChunk * k := by omega
    have hlen : (slice data written plainWriteChunk).length =
        min plainWriteChunk (data.length - written) := by
      rw [slice, List.length_take, List.length_drop]
    have hnowrap : offset.toNat + written < 2 ^ 32 := by
      rcases k with _ | k
      · have := offset.toNat_lt
        omega
      · have hle := (hlate (by omega)).1
        rw [Nat.add_sub_cancel] at hle
        rw [hk, Nat.mul_succ]
        simp only [u24Max, plainWriteChunk] at *
        omega
    simp only [writeFilePlainOneApdu, Script.wp_bind]
    refine wp_writeDataPlain_checked hfile (fun hnil => ?_) (by omega) (fun hover => ?_)
      fun hle => ?_
    · rw [hnil, List.length_nil] at hlen
      omega
    · rw [toNat_add_ofNat hnowrap] at hover
      rcases Nat.eq_zero_or_pos k with rfl | hpos
      · omega
      · exact ⟨⟨_, rfl, trivial⟩, (hlate hpos).2⟩
    · simp only [transmitExpecting, Script.wp_bind, Script.wp_require, Script.wp_pure]
      refine wp_transmit_acceptAll fun answer => ⟨fun _ => ?_, fun hno => absurd rfl hno⟩
      simp only [advanceCounter, SecureChannel.note, advance, SecureChannel.state, Script.wp_bind,
        Script.wp_get, Script.wp_set]
      refine ⟨k + 1, ?_, fun _ => ⟨?_, fun hun => ?_⟩⟩
      · rw [Nat.mul_succ]
        omega
      · rw [toNat_add_ofNat hnowrap] at hle
        rw [Nat.add_sub_cancel, ← hk]
        exact hle
      · exact hun _ (List.mem_append_right _ (List.mem_singleton_self _)) (.inl rfl)

end Plain

/-! ### Unauthenticated writes -/

/-- The first chunk of an unauthenticated write is refused, or the last one still has a
position. -/
def IsoWriteFits (offset : UInt16) (data : List UInt8) : Prop :=
  0x7FFF < offset.toNat ∨ offset.toNat + lastStart isoUpdateBinaryChunk data.length ≤ 0x7FFF

section Iso

variable {W : Type} {env : (r : List UInt8) → W → Transmit E r → W → Prop}
  {session : Session Unauthenticated}

/-- The checks of a chunk, whose position and length are right. -/
theorem wp_isoUpdateBinary_checked {Q : Unit → σ → W → Prop}
    {R : Fault (SessionError E) → σ → W → Prop} {t : σ} {w : W} {offset : ℕ}
    (hoffset : offset ≤ 0x7FFF) {data : List UInt8} (hne : data ≠ [])
    (hlen : data.length ≤ isoUpdateBinaryChunk)
    (h : ∀ p1 p2, (transmit (isoUpdateBinaryApdu p1 p2 data)).wp env (fun _ => True)
      (fun resp t' w' =>
        (isoStatus resp.sw1 resp.sw2 = .normalProcessing → Q () t' w') ∧
        (isoStatus resp.sw1 resp.sw2 ≠ .normalProcessing →
          R (.error (.errorResponse (isoStatus resp.sw1 resp.sw2))) t' w')) R t w) :
    (isoUpdateBinary none (UInt16.ofNat offset) data).wp env (fun _ => True) Q R t w := by
  have htoNat : (UInt16.ofNat offset).toNat = offset := by
    rw [UInt16.toNat_ofNat', Nat.mod_eq_of_lt (by omega)]
  simp only [isoUpdateBinary, isoAddress, Script.wp_bind, Script.wp_require, Script.wp_pure, htoNat]
  exact ⟨fun _ => ⟨fun _ => ⟨fun _ => h _ _, fun hno => absurd hoffset hno⟩,
    fun hno => absurd hlen hno⟩, fun hno => absurd hne hno⟩

/-- Selecting a file writes nothing. -/
theorem wp_selectFile_unwritten (file : File) :
    (Session.selectFile file).wp (Records anyAnswer) (fun _ => True) (fun _ _ => Unwritten)
      (fun f _ _ => NotRejects (E := E) f) session [] := by
  have hstep : ∀ {w : Transcript E} {apdu : List UInt8} {answer : Except E Response}, Unwritten w →
      ¬ IsWrite apdu → Unwritten (w ++ [(apdu, answer)]) := by
    intro w apdu answer hw hapdu entry hentry
    rcases List.mem_append.mp hentry with hentry | hentry
    · exact hw entry hentry
    · obtain rfl := List.mem_singleton.mp hentry
      exact hapdu
  have hef : ∀ {s : Session Unauthenticated} {w : Transcript E}, Unwritten w →
      (isoSelectEfByFid file.fileId).wp (Records anyAnswer) (fun _ => True) (fun _ _ => Unwritten)
        (fun f _ _ => NotRejects (E := E) f) s w := by
    intro s w hw
    simp only [isoSelectEfByFid, Script.wp_bind, Script.wp_require]
    refine wp_transmit_recorded trivial (fun resp _ => ⟨fun _ => ?_, fun _ => ?_⟩) fun _ _ => ?_
    · exact hstep hw (by simp [IsWrite, isoSelectEfApdu])
    · exact notRejects_error id
    · exact notRejects_error id
  have happ : (Session.selectNdefApplication).wp (Records anyAnswer) (fun _ => True)
      (fun _ _ => Unwritten) (fun f _ _ => NotRejects (E := E) f) session [] := by
    simp only [Session.selectNdefApplication, Script.wp_bind, Script.wp_get]
    split
    · exact Script.wp_pure.mpr fun _ h => absurd h List.not_mem_nil
    · simp only [isoSelectNdefApplication, Script.wp_bind, Script.wp_require, Script.wp_set]
      refine wp_transmit_recorded trivial (fun resp _ => ⟨fun _ => ?_, fun _ => ?_⟩) fun _ _ => ?_
      · exact hstep (fun _ h => absurd h List.not_mem_nil)
          (by simp [IsWrite, isoSelectDfByNameApdu])
      · exact notRejects_error id
      · exact notRejects_error id
  rw [Session.selectFile]
  refine Script.wp_bind_of happ (fun _ s w hw => ?_) fun _ _ _ h => h
  simp only [Script.wp_bind, Script.wp_get]
  split
  · exact Script.wp_pure.mpr hw
  · exact Script.wp_bind_of (hef hw) (fun _ _ _ hw' => Script.wp_set.mpr hw') fun _ _ _ h => h

/-- An unauthenticated write that fits fails cleanly. -/
theorem wp_writeFileUnauthenticated_clean (file : File) {offset : UInt16} {data : List UInt8}
    (hfits : IsoWriteFits offset data) :
    (Session.writeFileUnauthenticated file offset data).wp (Records anyAnswer) (fun _ => True)
      (fun _ _ _ => True)
      (fun f _ w' => NotRejects (E := E) f ∨ Unwritten w' ∧ True) session [] := by
  have hchunk : 0 < isoUpdateBinaryChunk := by simp [isoUpdateBinaryChunk]
  rw [Session.writeFileUnauthenticated]
  refine Script.wp_bind_of (wp_selectFile_unwritten file) (fun _ s w hw => ?_) fun _ _ _ h => .inl h
  split
  · rename_i hnil
    simp only [isoUpdateBinary, Script.wp_bind, Script.wp_require, hnil]
    exact ⟨fun hno => absurd rfl hno, fun _ => .inr ⟨hw, trivial⟩⟩
  · refine wp_writeUnauthenticatedLoop (J := fun written _ w' => ∃ k,
      written = min (isoUpdateBinaryChunk * k) data.length ∧ (k = 0 → Unwritten w') ∧
      (0 < k → offset.toNat ≤ 0x7FFF)) (fun _ _ _ _ _ => trivial) ?_ ?_ 0
      ⟨0, by simp, fun _ => hw, fun h => absurd h (by omega)⟩
    · rintro written s' w' ⟨k, hwritten, hstart, hnear⟩ hlt hfar
      have hlast := le_lastStart (show isoUpdateBinaryChunk * k < data.length by omega)
      rcases Nat.eq_zero_or_pos k with rfl | hpos
      · exact .inr ⟨hstart rfl, trivial⟩
      · -- a later chunk is in range when the write fits
        have hoffset := hnear hpos
        rcases hfits with hfits | hfits <;> omega
    · rintro written s' w' ⟨k, hwritten, hstart, hnear⟩ hlt hle
      have hk : written = isoUpdateBinaryChunk * k := by omega
      have hlen : (slice data written (min (data.length - written) isoUpdateBinaryChunk)).length =
          min (data.length - written) isoUpdateBinaryChunk := length_slice (by omega)
      refine wp_isoUpdateBinary_checked hle (fun hnil => ?_) (by omega) fun p1 p2 => ?_
      · rw [hnil, List.length_nil] at hlen
        omega
      · refine wp_transmit trivial (fun resp w'' _ =>
          ⟨fun _ => ?_, fun _ => .inl (notRejects_error id)⟩)
          fun _ _ _ => .inl (notRejects_error id)
        refine ⟨k + 1, ?_, fun h => absurd h (by omega), fun _ => by omega⟩
        rw [Nat.mul_succ]
        omega

theorem wp_selectFile_acceptAll (file : File) (session : Session Unauthenticated)
    (w : Transcript E) :
    (Session.selectFile file).wp (Prog.Answers acceptAll) (fun _ => True) (fun _ _ _ => True)
      (fun _ _ _ => False) session w := by
  have hef : ∀ (s : Session Unauthenticated) (w : Transcript E),
      (isoSelectEfByFid file.fileId).wp (Prog.Answers acceptAll) (fun _ => True)
        (fun _ _ _ => True) (fun _ _ _ => False) s w := by
    intro s w
    simp only [isoSelectEfByFid, Script.wp_bind, Script.wp_require]
    exact wp_transmit_acceptAll fun answer => ⟨fun _ => trivial, fun hno => hno rfl⟩
  have happ : (Session.selectNdefApplication).wp (Prog.Answers acceptAll) (fun _ => True)
      (fun _ _ _ => True) (fun _ _ _ => False) session w := by
    simp only [Session.selectNdefApplication, Script.wp_bind, Script.wp_get]
    split
    · exact Script.wp_pure.mpr trivial
    · simp only [isoSelectNdefApplication, Script.wp_bind, Script.wp_require, Script.wp_set]
      exact wp_transmit_acceptAll fun answer => ⟨fun _ => trivial, fun hno => hno rfl⟩
  rw [Session.selectFile]
  refine Script.wp_bind_of happ (fun _ s w _ => ?_) fun _ _ _ h => h
  simp only [Script.wp_bind, Script.wp_get]
  split
  · exact Script.wp_pure.mpr trivial
  · exact Script.wp_bind_of (hef s w) (fun _ _ _ _ => Script.wp_set.mpr trivial) fun _ _ _ h => h

/-- An unauthenticated write that does not fit is refused after its first chunk. -/
theorem wp_writeFileUnauthenticated_late (file : File) {offset : UInt16} {data : List UInt8}
    (hfits : ¬ IsoWriteFits offset data) :
    (Session.writeFileUnauthenticated file offset data).wp (Prog.Answers (acceptAll (E := E)))
      (fun _ => True) (fun _ _ _ => False) (fun f _ w' => RejectsLate f w') session [] := by
  obtain ⟨hnear, hfar⟩ := not_or.mp hfits
  have hchunk : 0 < isoUpdateBinaryChunk := by simp [isoUpdateBinaryChunk]
  have hne : data ≠ [] := by
    rintro rfl
    simp only [lastStart, List.length_nil, Nat.zero_sub, Nat.zero_div, Nat.mul_zero] at hfar
    omega
  have hselect := wp_selectFile_acceptAll (E := E) file session []
  rw [Session.writeFileUnauthenticated]
  refine Script.wp_bind_of hselect (fun _ s w _ => ?_) fun _ _ _ h => h.elim
  rw [if_neg hne]
  refine wp_writeUnauthenticatedLoop (J := fun written _ w' => ∃ k,
    written = min (isoUpdateBinaryChunk * k) data.length ∧
    (0 < k → offset.toNat + isoUpdateBinaryChunk * (k - 1) ≤ 0x7FFF ∧ ¬ Unwritten w')) ?_ ?_ ?_ 0
    ⟨0, by simp, fun h => absurd h (by omega)⟩
  · rintro written s' w' ⟨k, hwritten, hlate⟩ hdone
    have hpos := List.length_pos_iff.mpr hne
    have hk : 0 < k := by
      rcases Nat.eq_zero_or_pos k with rfl | hk
      · omega
      · exact hk
    have hlast := lastStart_le hchunk (show data.length ≤ isoUpdateBinaryChunk * k by omega)
    have hle := (hlate hk).1
    omega
  · rintro written s' w' ⟨k, hwritten, hlate⟩ hlt hover
    rcases Nat.eq_zero_or_pos k with rfl | hpos
    · omega
    · exact ⟨⟨_, rfl, trivial⟩, (hlate hpos).2⟩
  · rintro written s' w' ⟨k, hwritten, hlate⟩ hlt hle
    have hk : written = isoUpdateBinaryChunk * k := by omega
    have hlen : (slice data written (min (data.length - written) isoUpdateBinaryChunk)).length =
        min (data.length - written) isoUpdateBinaryChunk := length_slice (by omega)
    refine wp_isoUpdateBinary_checked hle (fun hnil => ?_) (by omega) fun p1 p2 => ?_
    · rw [hnil, List.length_nil] at hlen
      omega
    · refine wp_transmit_acceptAll fun answer => ⟨fun _ => ?_, fun hno => absurd rfl hno⟩
      refine ⟨k + 1, ?_, fun _ => ⟨?_, fun hun => ?_⟩⟩
      · rw [Nat.mul_succ]
        omega
      · rw [Nat.add_sub_cancel, ← hk]
        exact hle
      · exact hun _ (List.mem_append_right _ (List.mem_singleton_self _)) (.inr rfl)

end Iso

/-! ### The write operations -/

section Writes

variable (P : Primitives) [SessionSuite P S]

/-- The checks of a protected write come before everything else. -/
theorem wp_validateHeader_clean {W : Type} {env : (r : List UInt8) → W → Transmit E r → W → Prop}
    {Q : Unit → σ → W → Prop} {R : Fault (SessionError E) → σ → W → Prop} {t : σ} {w : W}
    {fileNo : UInt8} {offset : UInt32} {length : ℕ} (hQ : Q () t w)
    (hR : ∀ f, R f t w) : (validateHeader fileNo offset length).wp env (fun _ => True) Q R t w := by
  simp only [validateHeader, validateTarget, Script.wp_bind, Script.wp_require]
  exact ⟨fun _ => ⟨fun _ => ⟨fun _ => ⟨fun _ => hQ, fun _ => hR _⟩, fun _ => hR _⟩, fun _ => hR _⟩,
    fun _ => hR _⟩

/-- The command behind `write_file_with_mode` fails cleanly, if a plain write fits. -/
theorem wp_writeCommand_clean (file : File) (offset : UInt32) (data : List UInt8) (mode : CommMode)
    (hfits : mode = .plain → PlainWriteFits offset data) {s : Authenticated S} :
    (Session.writeCommand P file offset data mode).wp (Records anyAnswer) (fun _ => True)
      (fun _ _ _ => True)
      (fun f s' w' => NotRejects (E := E) f ∨ Unwritten w' ∧ s'.cmdCounter = s.cmdCounter)
      s [] := by
  have hclean : Unwritten ([] : Transcript E) := fun _ h => absurd h List.not_mem_nil
  have hfile : file.fileNo ≤ 0x1F := by cases file <;> decide
  cases mode with
  | plain => exact wp_writeFilePlainChunked_clean hfile (hfits rfl)
  | mac =>
      simp only [Session.writeCommand, writeDataMac, Script.wp_bind]
      refine wp_validateHeader_clean (Script.wp_mono (wp_writeLoop_of (J := fun _ _ => True)
        (fun offset part t v _ hpart _ => wp_writeDataMacOneApdu_unrejected P _ _ hpart) offset
        trivial) (fun _ _ _ h => h) fun _ _ _ h => .inl h) fun _ => .inr ⟨hclean, rfl⟩
  | full =>
      simp only [Session.writeCommand, writeDataFull, Script.wp_bind]
      refine wp_validateHeader_clean (Script.wp_mono (wp_writeLoop_of (J := fun _ _ => True)
        (fun offset part t v _ hpart _ => wp_writeDataFullOneApdu_unrejected P _ _ hpart) offset
        trivial) (fun _ _ _ h => h) fun _ _ _ h => .inl h) fun _ => .inr ⟨hclean, rfl⟩

/-- **Rejected writes wrote nothing**, exactly when the last chunk of a plain or unauthenticated
write has a position, or already the first has none. -/
theorem writes_rejected_cleanly_iff (session : Session (Authenticated S))
    (unauthenticated : Session Unauthenticated) (file : File) (offset : UInt32)
    (isoOffset : UInt16) (data : List UInt8) :
    (∀ mode, RejectsCleanly (E := E) (fun s s' => s'.cmdCounter = s.cmdCounter)
        (Session.writeCommand P file offset data mode) session.state ↔
      (mode = .plain → PlainWriteFits offset data)) ∧
    (∀ mode, RejectsCleanly (E := E) (fun _ _ => True)
        (session.writeFileWithMode P file offset data mode) () ↔
      (mode = .plain → PlainWriteFits offset data)) ∧
    (RejectsCleanly (E := E) (fun s s' => s'.state.cmdCounter = s.state.cmdCounter)
        (Session.writeFilePlain file offset data) session ↔ PlainWriteFits offset data) ∧
    (RejectsCleanly (E := E) (fun _ _ => True)
        (Session.writeFileUnauthenticated file isoOffset data) unauthenticated ↔
      IsoWriteFits isoOffset data) := by
  have hfile : file.fileNo ≤ 0x1F := by cases file <;> decide
  refine ⟨fun mode => ⟨fun hclean hplain => ?_, fun hfits => ?_⟩,
    fun mode => ⟨fun hclean hplain => ?_, fun hfits => ?_⟩, ⟨fun hclean => ?_, fun hfits => ?_⟩,
    ⟨fun hclean => ?_, fun hfits => ?_⟩⟩
  · subst hplain
    by_contra hfits
    exact not_rejectsCleanly_of_wp (wp_writeFilePlainChunked_late hfile hfits) hclean
  · exact .of_wp (wp_writeCommand_clean P file offset data mode hfits)
  · subst hplain
    by_contra hfits
    exact not_rejectsCleanly_of_wp (wp_consumeUnit.mpr (wp_writeFilePlainChunked_late hfile hfits))
      hclean
  · refine .of_wp (Q := fun _ _ _ => True) (I := fun _ => True) (wp_consumeUnit.mpr ?_)
    refine Script.wp_mono (wp_writeCommand_clean P file offset data mode hfits)
      (fun _ _ _ _ => trivial) fun _ _ _ h => ?_
    exact h.imp_right fun h => ⟨h.1, trivial⟩
  · by_contra hfits
    exact not_rejectsCleanly_of_wp (wp_borrow.mpr (wp_writeFilePlainChunked_late hfile hfits))
      hclean
  · exact .of_wp (Q := fun _ _ _ => True)
      (wp_borrow.mpr (wp_writeFilePlainChunked_clean hfile hfits))
  · by_contra hfits
    exact not_rejectsCleanly_of_wp (wp_writeFileUnauthenticated_late file hfits) hclean
  · exact .of_wp (wp_writeFileUnauthenticated_clean file hfits)

/-- Writing 256 bytes from the last position of the NDEF file on writes 255 of them before the
last one is refused. -/
theorem write_rejected_late :
    ¬ RejectsCleanly (E := Empty) (fun _ _ => True)
      (Session.writeFileUnauthenticated .ndef 0x7FFF (List.replicate 256 0)) .new := by
  refine not_rejectsCleanly_of_wp (wp_writeFileUnauthenticated_late .ndef ?_)
  rintro (hfar | hlast)
  · exact absurd hfar (by decide)
  · rw [List.length_replicate] at hlast
    exact absurd hlast (by decide)

end Writes

end Ntag424
