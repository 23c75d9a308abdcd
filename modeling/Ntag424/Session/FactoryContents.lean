import Mathlib.Tactic.Common
import Ntag424.Lockstep.Delivered
import Ntag424.Session.CounterAdvance
import Ntag424.Session.FileReads
import Ntag424.Session.Operations
import Ntag424.Session.Padding
import Ntag424.Standard

/-!
# What the Check of the Factory State Has Seen

When `check_factory_state` succeeds, what has the tag returned, whatever it answered? One buffer
serves the three files, and a short answer leaves the rest of the buffer as it was.

The bytes of the capability container that were not returned cannot make it the default one. The
proprietary file is read in full, because a session demands as many bytes as it asked for. But the
NDEF file passes as empty when the tag returns only the first of its zeros.

## Main results

* `wp_checkContents_returned`: what the first part of the check has seen.
* `wp_readDataFull_opened`: an encrypted read that fits one APDU is answered in full.
* `factory_contents_iff`: the check is sound if and only if the NDEF file was answered in full.
-/

namespace Ntag424

open SecureChannel

variable {E S σ β : Type}

/-! ### Reading a whole file -/

/-- A file that fits one `ISOReadBinary` is read with one: the answer is no longer than asked. -/
theorem wp_readUnauthenticatedLoop_whole {buf : List UInt8} (hne : buf ≠ [])
    (hlen : buf.length ≤ isoReadBinaryChunk) {Q : ℕ × List UInt8 → σ → Transcript E → Prop} {t : σ}
    {w : Transcript E}
    (hQ : ∀ n resp, resp.data.length ≤ buf.length →
      Q (n, overlay buf 0 resp.data) t (w ++ [(isoReadBinaryApdu 0 0 buf.length, .ok resp)])) :
    (readUnauthenticatedLoop 0 buf.length 0 buf).wp (Records anyAnswer) (fun _ => True) Q
      (fun _ _ _ => True) t w := by
  have hpos := List.length_pos_iff.mpr hne
  have hwant : min (buf.length - 0) isoReadBinaryChunk = buf.length := Nat.min_eq_left hlen
  refine wp_readUnauthenticatedLoop
    (J := fun total buf' t' w' => (total = 0 ∧ buf' = buf ∧ t' = t ∧ w' = w) ∨
      (buf.length ≤ total ∧ ∀ n, Q (n, buf') t' w')) ?_ (fun _ _ _ _ _ _ _ => trivial) ?_ 0 buf
    (.inl ⟨rfl, rfl, rfl, rfl⟩)
  · rintro total buf' t' w' (⟨rfl, -, -, -⟩ | ⟨-, h⟩) hdone
    · omega
    · exact h total
  · rintro total buf' t' w' (⟨rfl, rfl, rfl, rfl⟩ | ⟨hge, -⟩) hlt -
    · have hslice : slice buf' 0 buf'.length = buf' := by simp [slice]
      rw [hwant, hslice]
      simp only [isoReadBinary, isoAddress, Script.wp_bind, Script.wp_require, Script.wp_pure]
      refine ⟨fun _ => ⟨fun _ => ?_, fun _ => trivial⟩, fun _ => trivial⟩
      have hmin : min buf'.length isoReadBinaryMax = buf'.length := Nat.min_eq_left hlen
      rw [hmin]
      refine wp_transmit_recorded trivial (fun resp _ => ?_) fun _ _ => trivial
      refine ⟨fun _ => ⟨fun hle => ?_, fun _ => trivial⟩, fun _ => trivial⟩
      have hover := overlay_zero_take hle (Nat.le_refl buf'.length)
      rw [List.take_length] at hover
      rw [hover]
      split
      · exact hQ _ resp hle
      · exact .inr ⟨by omega, fun n => hQ n resp hle⟩
    · omega

/-- One more answer to the read of a file, and none to another. -/
structure OneMoreRead (file : File) (resp : Response) (w w' : Transcript E) : Prop where
  here : answersTo (readApdu file) w' = answersTo (readApdu file) w ++ [.ok resp]
  elsewhere : ∀ other, readApdu other ≠ readApdu file →
    answersTo (readApdu other) w' = answersTo (readApdu other) w

/-- Reading a file into the front of a buffer. -/
theorem wp_readInto_answered (file : File) {buf : List UInt8} (hbuf : file.size ≤ buf.length)
    (session : Session Unauthenticated) (w : Transcript E) :
    (readInto file buf).wp (Records anyAnswer) (fun _ => True)
      (fun buf' _ w' => ∃ resp, resp.data.length ≤ file.size ∧ buf' = overlay buf 0 resp.data ∧
        OneMoreRead file resp w w') (fun _ _ _ => True) session w := by
  have hsize : 0 < file.size ∧ file.size ≤ isoReadBinaryChunk := by cases file <;> decide
  have hlen : (buf.take file.size).length = file.size := by
    rw [List.length_take, Nat.min_eq_left hbuf]
  have hne : buf.take file.size ≠ [] := List.length_pos_iff.mp (by rw [hlen]; exact hsize.1)
  rw [readInto, Session.readFileUnauthenticated]
  simp only [if_neg hne, Script.wp_bind, Script.wp_pure]
  refine Script.wp_mono (wp_sameReads_of_asks (asks_selectFile file))
    (fun _ session' w' hsame => ?_) fun _ _ _ _ => trivial
  refine wp_readUnauthenticatedLoop_whole hne (by rw [hlen]; exact hsize.2) fun n resp hle => ?_
  rw [hlen] at hle ⊢
  refine ⟨resp, hle, overlay_zero_take hle hbuf, ?_, fun other hother => ?_⟩
  · rw [← hsame file]
    exact answersTo_concat_self _ _ _
  · rw [← hsame other]
    exact answersTo_concat_of_ne hother.symm _ _

/-! ### The first part of the check -/

/-- The tag answered the read of the capability container once, with bytes that decode to the
container at delivery. -/
def ContainerReturned (w : Transcript E) : Prop :=
  ∃ resp, answersTo (readApdu .capabilityContainer) w = [.ok resp] ∧
    CapabilityContainer.fromBytes resp.data = .ok .default

/-- The tag answered the read of the NDEF file once, with the whole file, which is empty. -/
def NdefReturned (w : Transcript E) : Prop :=
  ∃ resp, answersTo (readApdu .ndef) w = [.ok resp] ∧
    resp.data = List.replicate File.ndef.size 0

/-- What the first part of the check has seen of the NDEF file: no more than the file, and only
zeros. -/
def NdefZeros (w : Transcript E) : Prop :=
  ∃ resp, answersTo (readApdu .ndef) w = [.ok resp] ∧ resp.data.length ≤ File.ndef.size ∧
    ∀ b ∈ resp.data, b = 0

theorem ContainerReturned.of_sameReads {w w' : Transcript E} (h : ContainerReturned w)
    (hsame : SameReads w w') : ContainerReturned w' := by
  obtain ⟨resp, hw, hdefault⟩ := h
  exact ⟨resp, (hsame _).trans hw, hdefault⟩

theorem NdefZeros.of_sameReads {w w' : Transcript E} (h : NdefZeros w) (hsame : SameReads w w') :
    NdefZeros w' := by
  obtain ⟨resp, hw, hzeros⟩ := h
  exact ⟨resp, (hsame _).trans hw, hzeros⟩

section Contents

variable {session : Session Unauthenticated} {w : Transcript E}

/-- The check of the container. -/
theorem wp_checkContainer_returned :
    (checkContainer (E := E)).wp (Records anyAnswer) (fun _ => True)
      (fun r _ w => r.2.length = 256 ∧ ContainerReturned w ∧ answersTo (readApdu .ndef) w = [])
      (fun _ _ _ => True) session [] := by
  have hfits : File.capabilityContainer.size ≤ (List.replicate 256 (0 : UInt8)).length := by
    rw [List.length_replicate]
    decide
  have hread := wp_readInto_answered (E := E) .capabilityContainer hfits session []
  rw [checkContainer]
  refine Script.wp_bind_of (wp_orNotFactoryState (J := fun _ _ => True) hread
    fun _ _ _ _ => trivial) ?_ fun _ _ _ h => h
  rintro buf session' w ⟨resp, hle, rfl, hmore⟩
  have hcc : resp.data.length ≤ 32 := hle
  have hbuf : (overlay (List.replicate 256 (0 : UInt8)) 0 resp.data).take
      File.capabilityContainer.size = resp.data ++ List.replicate (32 - resp.data.length) 0 := by
    rw [overlay_zero, List.take_append, List.take_of_length_le hle, List.drop_replicate,
      List.take_replicate]
    congr 2
    simp only [File.size]
    omega
  have hlen : (overlay (List.replicate 256 (0 : UInt8)) 0 resp.data).length = 256 := by
    rw [overlay_zero, List.length_append, List.length_drop, List.length_replicate]
    omega
  generalize overlay (List.replicate 256 (0 : UInt8)) 0 resp.data = buf at hbuf hlen
  have hversion : (Session.getVersionUnauthenticated (E := E)).wp (Records anyAnswer)
      (fun _ => True) (fun _ _ w' => SameReads w w') (fun _ _ w' => SameReads w w') session' w :=
    wp_sameReads_of_asks (asks_getVersionPlain noFileRead_getVersion
      (noFileRead_native 0xAF 0x00 0x00 []))
  simp only [requireFactoryState, Script.wp_bind, Script.wp_require, Script.wp_pure, hbuf]
  refine ⟨fun hdefault => ?_, fun _ => trivial⟩
  refine Script.wp_mono hversion (fun _ _ w' hsame => ?_) fun _ _ _ _ => trivial
  refine ⟨fun _ => ⟨hlen, ?_, ?_⟩, fun _ => trivial⟩
  · refine ContainerReturned.of_sameReads ⟨resp, hmore.here, ?_⟩ hsame
    exact CapabilityContainer.fromBytes_of_append_zeros hdefault
  · exact (hsame _).trans (hmore.elsewhere .ndef (by decide))

/-- The check of the NDEF file, whatever the buffer held before. -/
theorem wp_checkNdef_returned {buf : List UInt8} (hbuf : buf.length = 256)
    (hcontainer : ContainerReturned w) (hunread : answersTo (readApdu .ndef) w = []) :
    (checkNdef (E := E) buf).wp (Records anyAnswer) (fun _ => True)
      (fun r _ w' => r.length = 256 ∧ ContainerReturned w' ∧ NdefZeros w') (fun _ _ _ => True)
      session w := by
  have hread := wp_readInto_answered .ndef (by rw [hbuf]; decide) session w
  rw [checkNdef]
  refine Script.wp_bind_of (wp_orNotFactoryState (J := fun _ _ => True) hread
    fun _ _ _ _ => trivial) ?_ fun _ _ _ h => h
  rintro buf' session' w' ⟨resp, hle, rfl, hmore⟩
  simp only [requireFactoryState, Script.wp_bind, Script.wp_require, Script.wp_pure]
  have hndef : resp.data.length ≤ 256 := hle
  refine ⟨fun hzeros => ⟨?_, ?_, resp, ?_, hle, fun b hb => hzeros b ?_⟩, fun _ => trivial⟩
  · rw [overlay_zero, List.length_append, List.length_drop]
    omega
  · obtain ⟨cc, hcc, hdefault⟩ := hcontainer
    exact ⟨cc, (hmore.elsewhere .capabilityContainer (by decide)).trans hcc, hdefault⟩
  · rw [hmore.here, hunread, List.nil_append]
  · rw [overlay_zero, List.take_append, List.take_of_length_le hle]
    exact List.mem_append_left _ hb

/-- **The first part of the check** has seen the container, and a part of the NDEF file. -/
theorem wp_checkContents_returned :
    (checkContents (E := E)).wp (Records anyAnswer) (fun _ => True)
      (fun r _ w => r.2.length = 256 ∧ ContainerReturned w ∧ NdefZeros w) (fun _ _ _ => True)
      session [] := by
  rw [checkContents]
  refine Script.wp_bind_of wp_checkContainer_returned ?_ fun _ _ _ h => h
  rintro ⟨version, buf⟩ session' w ⟨hbuf, hcontainer, hunread⟩
  refine Script.wp_bind_of (wp_checkNdef_returned hbuf hcontainer hunread) ?_ fun _ _ _ h => h
  intro _ _ _ h
  exact Script.wp_pure.mpr h

end Contents

/-! ### Reading the proprietary file -/

section Full

variable (P : Primitives) [SessionSuite P S]

/-- An answer with a right response MAC, whose ciphertext the session decrypts to `plain`. -/
def Authenticated.Opens (s : Authenticated S) (resp : Response) (plain : List UInt8) : Prop :=
  MacVerifies P s s.cmdCounter resp.sw2 resp.data ∧
    ∃ suite, SessionSuite.decrypt P s.suite .response s.ti (s.cmdCounter + 1)
      (resp.data.take (resp.data.length - macLen)) = some (plain, suite)

/-- The APDU of `ReadData` in a session, with the MAC of the command. -/
def Authenticated.readDataApdu (s : Authenticated S) (fileNo : UInt8) (offset length : UInt32) :
    List UInt8 :=
  let header := headerBytes fileNo offset length
  nativeApdu 0xAD 0x00 0x00 (header ++
    (SessionSuite.mac P s.suite (macInput 0xAD s.cmdCounter s.ti header [])).toList)

variable {P} {s : Authenticated S} {w : Transcript E} {fileNo : UInt8} {offset length : UInt32}
  {buf : List UInt8}

/-- One request for encrypted data: the answer was opened, and holds as many bytes as asked. -/
theorem wp_readDataFullOneApdu_opened (hlength : length ≠ 0) :
    (readDataFullOneApdu P fileNo offset length buf).wp (Records anyAnswer) (fun _ => True)
      (fun r _ w' => ∃ resp front k,
        w' = w ++ [(s.readDataApdu P fileNo offset length, .ok resp)] ∧
        s.Opens P resp (front ++ 0x80 :: List.replicate k 0) ∧ front.length = length.toNat ∧
        r = (length.toNat, overlay buf 0 front)) (fun _ _ _ => True) s w := by
  simp only [readDataFullOneApdu, wp_buildReadHeader, transmitMac, computeCmdMac,
    verifyResponseMacAndAdvance, decryptResponse, state, note, advance, Script.wp_bind,
    Script.wp_get, Script.wp_set, Script.wp_assert, Script.wp_require, Script.wp_pure]
  refine ⟨fun _ => ⟨fun _ => ?_, fun _ => trivial⟩, fun _ => trivial⟩
  refine wp_transmitExpecting_recorded trivial (fun resp _ hstatus => ?_) fun _ _ _ => trivial
  refine ⟨fun hle => ⟨fun _ => ⟨fun hmac => ?_, fun _ => trivial⟩, fun _ => trivial⟩,
    fun _ => trivial⟩
  refine ⟨fun _ => ⟨fun _ => ?_, fun _ => trivial⟩, fun _ => trivial⟩
  split
  · exact Script.wp_fail.mpr trivial
  · rename_i plain suite hdecrypt
    simp only [Script.wp_bind, Script.wp_get, Script.wp_set, Script.wp_pure]
    cases hstrip : stripM2Padding plain with
    | none => exact Script.wp_fail.mpr trivial
    | some n =>
        simp only [Script.wp_bind, Script.wp_require, Script.wp_pure]
        refine ⟨fun hn => ⟨fun _ => ?_, fun _ => trivial⟩, fun _ => trivial⟩
        obtain rfl := hn.resolve_left hlength
        obtain ⟨front, k, rfl, hfront⟩ := eq_marked_of_strip hstrip
        refine ⟨resp, front, k, ?_, ⟨⟨hle, hmac⟩, suite, hdecrypt⟩, hfront, ?_⟩
        · rw [List.append_nil, Authenticated.readDataApdu]
        · rw [← hfront, List.take_left]

/-- A request that fits one APDU, into a buffer of its size, is answered with the whole of it. -/
theorem wp_readDataFull_opened (hpos : 0 < length.toNat) (hlen : length.toNat ≤ fullReadChunk)
    (hbuf : buf.length = length.toNat) :
    (readDataFull P fileNo offset length buf).wp (Records anyAnswer) (fun _ => True)
      (fun r _ w' => ∃ resp k,
        w' = w ++ [(s.readDataApdu P fileNo offset length, .ok resp)] ∧
        s.Opens P resp (r.2 ++ 0x80 :: List.replicate k 0)) (fun _ _ _ => True) s w := by
  have hne : length ≠ 0 := by
    rintro rfl
    exact Nat.lt_irrefl 0 hpos
  have htarget : readTarget length buf.length = length.toNat := if_neg hne
  have hchunk : min (length.toNat - 0) fullReadChunk = length.toNat := Nat.min_eq_left hlen
  have hslice : slice buf 0 length.toNat = buf := by
    rw [slice, List.drop_zero, ← hbuf, List.take_length]
  simp only [readDataFull, validateRequest, validateTarget, Script.wp_bind, Script.wp_require]
  refine ⟨fun _ => ⟨fun _ => ⟨fun _ => ⟨fun _ => ⟨fun _ => ?_, fun _ => trivial⟩,
    fun _ => trivial⟩, fun _ => trivial⟩, fun _ => trivial⟩, fun _ => trivial⟩
  rw [htarget, readDataFullLoop, if_pos hpos]
  simp only [hchunk, hslice, UInt32.ofNat_toNat, Script.wp_bind, Script.wp_assert]
  refine ⟨fun _ => ?_, fun _ => trivial⟩
  refine Script.wp_mono (wp_readDataFullOneApdu_opened hne) ?_ fun _ _ _ h => h
  rintro _ s' w' ⟨resp, front, k, rfl, hopens, hfront, rfl⟩
  -- the second round of the loop has nothing left to ask for
  rw [if_neg (Nat.ne_of_gt hpos), Nat.zero_add, readDataFullLoop, if_neg (Nat.lt_irrefl _)]
  refine Script.wp_pure.mpr ⟨resp, k, rfl, ?_⟩
  have hover := overlay_zero_take (l := buf) (w := front) (n := buf.length) (by omega) (by omega)
  rw [List.take_length] at hover
  rw [hover, overlay_zero, List.drop_eq_nil_of_le (by omega), List.append_nil]
  exact hopens

end Full

/-! ### The session of key 2 -/

section Key2

variable (P : Primitives) (verify : Bytes signatureLen → Bytes 7 → Except OriginalityError Unit)
  (rnd : ℕ → Bytes 16)

namespace EncryptedSession

/-- The APDU of `ReadData`. -/
def readDataApdu (session : EncryptedSession) (fileNo : UInt8) (offset length : UInt32) :
    List UInt8 :=
  match session with
  | aes session => session.state.readDataApdu P fileNo offset length
  | lrp session => session.state.readDataApdu P fileNo offset length

/-- An answer with a right response MAC, whose ciphertext the session decrypts to `plain`. -/
def Opens (session : EncryptedSession) (resp : Response) (plain : List UInt8) : Prop :=
  match session with
  | aes session => session.state.Opens P resp plain
  | lrp session => session.state.Opens P resp plain

/-- A file that fits one APDU is read with the session. -/
theorem wp_readFileWithMode_opened (session : EncryptedSession) (file : File) {length : UInt32}
    {buf : List UInt8} (hpos : 0 < length.toNat) (hlen : length.toNat ≤ fullReadChunk)
    (hbuf : buf.length = length.toNat) {w : Transcript E} :
    (session.readFileWithMode P file 0 length .full buf).wp (Records anyAnswer) (fun _ => True)
      (fun r _ w' => ∃ resp k, w' = w ++ [(session.readDataApdu P file.fileNo 0 length, .ok resp)] ∧
        session.Opens P resp (r.1.2 ++ 0x80 :: List.replicate k 0)) (fun _ _ _ => True) () w := by
  cases session with
  | aes session =>
      simp only [readFileWithMode, dispatchValue, Script.wp_bind, Script.wp_pure,
        Session.readFileWithMode, wp_consume, Session.readCommand]
      exact wp_readDataFull_opened hpos hlen hbuf
  | lrp session =>
      simp only [readFileWithMode, dispatchValue, Script.wp_bind, Script.wp_pure,
        Session.readFileWithMode, wp_consume, Session.readCommand]
      exact wp_readDataFull_opened hpos hlen hbuf

end EncryptedSession

/-- What the check does before it reads the proprietary file. It leaves the session of key 2, the
number of randoms drawn, the result of the check and the buffer. -/
def untilKey2 : Cmd E (Session Unauthenticated)
    (EncryptedSession × ℕ × FactoryStateCheckResult × List UInt8) := do
  let (version, buf) ← checkContents
  let (key2, n, result) ← beside do
    let (master, n) ← authenticateMaster P rnd
    let master ← checkSettings P [.capabilityContainer, .ndef, .proprietary] master
    let mode := master.mode
    let (tagTamperStatus, master) ← readTagTamper P version master
    let (uid, master) ← orNotFactoryState "unable to read UID with default keys" (master.getUid P)
    let (signature, master) ← orNotFactoryState
      "originality signature verification failed with default keys"
      (master.verifyOriginality P verify uid)
    let key2 ← orNotFactoryState "unable to authenticate with default key 2"
      (master.authenticate P .key2 factoryKey (rnd n))
    return (key2, n, (⟨version.uid.byte 0 == 0x08, mode, tagTamperStatus, signature, uid⟩ :
      FactoryStateCheckResult))
  return (key2, n, result, buf)

/-- The rest of the check. -/
def fromKey2 (key2 : EncryptedSession) (n : ℕ) (result : FactoryStateCheckResult)
    (buf : List UInt8) : Task E FactoryStateCheckResult := do
  let ((_, prop), key2) ← orNotFactoryState "unable to read proprietary file"
    (key2.readFileWithMode P .proprietary 0 128 .full (buf.take File.proprietary.size))
  requireFactoryState (prop = factoryProp) "proprietary file not empty"
  checkKeys P rnd [.key1, .key3, .key4] (n + 1) key2
  return result

/-- The check in two parts. -/
theorem wp_checkFactoryState_iff {W : Type} {env : (r : List UInt8) → W → Transmit E r → W → Prop}
    {I : W → Prop} {Q : FactoryStateCheckResult → Session Unauthenticated → W → Prop}
    {R : Fault (SessionError E) → Session Unauthenticated → W → Prop}
    {session : Session Unauthenticated} {w : W} :
    (checkFactoryState P verify rnd).wp env I Q R session w ↔
      (untilKey2 P verify rnd).wp env I (fun r => (beside (fromKey2 P rnd r.1 r.2.1 r.2.2.1
        r.2.2.2)).wp env I Q R) R session w := by
  simp only [checkFactoryState, untilKey2, checkAuthenticated, fromKey2, beside, Script.wp_bind,
    Script.wp_on, Script.wp_pure]

/-- The buffer that the first part leaves is still the whole buffer. -/
theorem wp_untilKey2_buffer {session : Session Unauthenticated} :
    (untilKey2 (E := E) P verify rnd).wp (Records anyAnswer) (fun _ => True)
      (fun r _ _ => r.2.2.2.length = 256) (fun _ _ _ => True) session [] := by
  rw [untilKey2]
  refine Script.wp_bind_of wp_checkContents_returned ?_ fun _ _ _ h => h
  rintro ⟨version, buf⟩ session' w ⟨hbuf, -⟩
  refine Script.wp_bind_of (Script.wp_any _) ?_ fun _ _ _ h => h
  intro _ _ _ _
  exact Script.wp_pure.mpr hbuf

/-- In the session that the check authenticated with key 2, the tag answered the read of the whole
proprietary file: the answer has a right MAC and is decrypted to the file at delivery, with the
marker and zeros behind it. -/
def ProprietaryReturned (session : Session Unauthenticated) (w : Transcript E) : Prop :=
  ∃ key2 n result buf session' before resp after k,
    Prog.Ends (Records anyAnswer) (untilKey2 P verify rnd session) []
      (.ok (key2, n, result, buf), session') before ∧
    w = before ++ (key2.readDataApdu P File.proprietary.fileNo 0 128, .ok resp) :: after ∧
    key2.Opens P resp (factoryProp ++ 0x80 :: List.replicate k 0)

/-- What was recorded stays recorded. -/
theorem wp_recorded (cmd : Cmd E σ β) {t : σ} {w : Transcript E} :
    cmd.wp (Records anyAnswer) (fun _ => True) (fun _ _ w' => w <+: w') (fun _ _ w' => w <+: w')
      t w := by
  have hall : cmd.Asks fun _ => True := fun s => Prog.asks_all (cmd s)
  refine hall.wp (fun apdu w₁ answer w₂ _ hw hrecords => ?_) List.prefix_rfl
  obtain ⟨-, rfl⟩ := hrecords
  exact hw.trans (List.prefix_append _ _)

/-- **The second part of the check** has read the whole proprietary file. -/
theorem wp_checkFactoryState_proprietary (session : Session Unauthenticated) :
    (checkFactoryState (E := E) P verify rnd).wp (Records anyAnswer) (fun _ => True)
      (fun _ _ w => ProprietaryReturned P verify rnd session w) (fun _ _ _ => True) session [] := by
  rw [wp_checkFactoryState_iff]
  refine Script.wp_mono (Script.wp_with_ends (wp_untilKey2_buffer P verify rnd)) ?_
    fun _ _ _ h => h
  rintro ⟨key2, n, result, buf⟩ session' before ⟨hbuf, hend⟩
  have hprop : (buf.take File.proprietary.size).length = (128 : UInt32).toNat := by
    rw [List.length_take, hbuf]
    rfl
  simp only [beside, fromKey2, Script.wp_bind, Script.wp_on, Script.wp_pure]
  refine wp_orNotFactoryState (J := fun _ _ => True) (Script.wp_mono
    (key2.wp_readFileWithMode_opened P .proprietary (by decide) (by decide) hprop) ?_
    fun _ _ _ h => h) fun _ _ _ h => h
  rintro ⟨⟨len, prop⟩, key2'⟩ _ _ ⟨resp, k, rfl, hopens⟩
  simp only [requireFactoryState, Script.wp_require]
  refine ⟨fun hfactory => ?_, fun _ => trivial⟩
  refine Script.wp_mono (wp_recorded (checkKeys P rnd _ _ _)) ?_ fun _ _ _ _ => trivial
  rintro _ _ _ ⟨after, rfl⟩
  refine ⟨key2, n, result, buf, session', before, resp, after, k, hend, ?_, ?_⟩
  · rw [List.append_assoc]
    rfl
  · rw [← hfactory]
    exact hopens

/-- What the whole check has seen of the files that are read in the clear. -/
theorem wp_checkFactoryState_contents (session : Session Unauthenticated) :
    (checkFactoryState (E := E) P verify rnd).wp (Records anyAnswer) (fun _ => True)
      (fun _ _ w => ContainerReturned w ∧ NdefZeros w) (fun _ _ _ => True) session [] := by
  rw [checkFactoryState]
  refine Script.wp_bind_of wp_checkContents_returned ?_ fun _ _ _ h => h
  rintro ⟨version, buf⟩ session' w ⟨-, hcontainer, hndef⟩
  simp only [beside, Script.wp_bind, Script.wp_on, Script.wp_pure]
  refine Script.wp_mono (wp_sameReads_of_asks
    ((asks_checkAuthenticated P verify rnd version buf).mono fun _ => SessionApdu.noFileRead))
    (fun _ _ w' hsame => ?_) fun _ _ _ _ => trivial
  exact ⟨hcontainer.of_sameReads hsame, hndef.of_sameReads hsame⟩

end Key2

/-! ### Soundness -/

/-- Every answer to the read of the NDEF file carries the whole file. -/
def NdefAnsweredInFull (w : Transcript E) : Prop :=
  ∀ resp, .ok resp ∈ answersTo (readApdu .ndef) w → resp.data.length = File.ndef.size

/-- Zeros are the whole file if and only if there are enough of them. -/
theorem NdefZeros.ndefReturned_iff {w : Transcript E} (h : NdefZeros w) :
    NdefReturned w ↔ NdefAnsweredInFull w := by
  obtain ⟨resp, hw, -, hzeros⟩ := h
  constructor
  · rintro ⟨resp', hw', hdata⟩ resp'' hmem
    rw [hw', List.mem_singleton] at hmem
    obtain rfl := Except.ok.inj hmem
    rw [hdata, List.length_replicate]
  · intro hfull
    refine ⟨resp, hw, ?_⟩
    rw [← hfull resp (by rw [hw]; exact List.mem_singleton_self _)]
    exact List.eq_replicate_iff.mpr ⟨rfl, hzeros⟩

/-- **The check is sound about the file contents** if and only if the tag answers the read of the
NDEF file in full. -/
theorem factory_contents_iff (P : Primitives)
    (verify : Bytes signatureLen → Bytes 7 → Except OriginalityError Unit) (rnd : ℕ → Bytes 16)
    {session session' : Session Unauthenticated} {result : FactoryStateCheckResult}
    {w : Transcript E}
    (hend : Prog.Ends (Records anyAnswer) (checkFactoryState P verify rnd session) []
      (.ok result, session') w) :
    (NdefReturned w ∧ ProprietaryReturned P verify rnd session w ∧ ContainerReturned w) ↔
      NdefAnsweredInFull w := by
  have hcontents := wp_checkFactoryState_contents (E := E) P verify rnd session
  have hproprietary := wp_checkFactoryState_proprietary (E := E) P verify rnd session
  obtain ⟨hcontainer, hndef⟩ := Script.wp_ends hcontents hend
  have hprop := Script.wp_ends hproprietary hend
  rw [← hndef.ndefReturned_iff]
  exact ⟨And.left, fun hreturned => ⟨hreturned, hprop, hcontainer⟩⟩

/-- On a tag at delivery, that answers in full. -/
theorem factory_contents_delivered : ∃ result session w,
    Prog.Ends (Records anyAnswer) (checkFactoryState (E := Empty) .standard verifyDelivered
      (fun _ => Bytes.zeros 16) .new) [] (.ok result, session) w ∧
    NdefReturned w ∧
      ProprietaryReturned .standard verifyDelivered (fun _ => Bytes.zeros 16) .new w ∧
      ContainerReturned w := by
  have hpass : DeliveredTag.contentsPass .standard (List.replicate 256 0) = true := by
    decide +kernel
  obtain ⟨result, session, w, hend, hread⟩ := DeliveredTag.exists_run
    Primitives.standard_lawful hpass fun _ => Bytes.zeros 16
  refine ⟨result, session, w, hend, (factory_contents_iff _ _ _ hend).mpr fun resp hresp => ?_⟩
  rw [hread, List.mem_singleton] at hresp
  obtain rfl := Except.ok.inj hresp
  exact List.length_replicate

/-- **A tag that returns 23 zeros** of its NDEF file passes the check: the other bytes that are
compared are zeros of the buffer. -/
theorem short_ndef_passes : ∃ result session w,
    Prog.Ends (Records anyAnswer) (checkFactoryState (E := Empty) .standard verifyDelivered
      (fun _ => Bytes.zeros 16) .new) [] (.ok result, session) w ∧
    answersTo (readApdu .ndef) w = [.ok ⟨List.replicate 23 0, 0x90, 0x00⟩] ∧ ¬ NdefReturned w := by
  have hpass : DeliveredTag.contentsPass .standard (List.replicate 23 0) = true := by
    decide +kernel
  obtain ⟨result, session, w, hend, hread⟩ := DeliveredTag.exists_run
    Primitives.standard_lawful hpass fun _ => Bytes.zeros 16
  refine ⟨result, session, w, hend, hread, ?_⟩
  rintro ⟨resp, hresp, hdata⟩
  rw [hread] at hresp
  obtain rfl := Except.ok.inj (List.singleton_inj.mp hresp)
  have hlen := congrArg List.length hdata
  rw [List.length_replicate, List.length_replicate] at hlen
  cases hlen

end Ntag424
