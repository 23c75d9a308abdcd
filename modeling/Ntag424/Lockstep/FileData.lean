import Mathlib.Tactic.Common
import Ntag424.Lockstep.Commands

/-!
# File Accesses Keep Host and Tag in Lockstep

Reading and writing files in the mode the tag demands, over any number of APDUs. An access
changes no communication mode, so every chunk meets the tag in the mode of the first.

## Main results

* `wp_readCommand`, `wp_writeCommand`: a whole access in any mode keeps the lock.
-/

namespace Ntag424

open Numerals SecureChannel

variable {P : Primitives} {E S A : Type} [LinkedSuite P S] {app : TagApp A} {k : KeyNumber} {a : A}
  {s : Authenticated S} {w : Card A} {I : Card A → Prop}

/-! ### The commands as the tag sees them -/

/-- The parameters of a request for data. -/
theorem parse_readData (fileNo : UInt8) (offset length : UInt32) :
    AppCommand.parse 0xAD (headerBytes fileNo offset length) [] =
      some (.readData fileNo (offset.toNat % 256 ^ 3) (length.toNat % 256 ^ 3)) := by
  have hoffset : (leBytes 3 offset.toNat ++ leBytes 3 length.toNat).take 3 =
      leBytes 3 offset.toNat := List.take_left' (length_leBytes ..)
  have hlength : (leBytes 3 offset.toNat ++ leBytes 3 length.toNat).drop 3 =
      leBytes 3 length.toNat := List.drop_left' (length_leBytes ..)
  have hparse : AppCommand.parse 0xAD (headerBytes fileNo offset length) [] =
      some (.readData fileNo (ofLe ((leBytes 3 offset.toNat ++ leBytes 3 length.toNat).take 3))
        (ofLe ((leBytes 3 offset.toNat ++ leBytes 3 length.toNat).drop 3))) := rfl
  rw [hparse, hoffset, hlength, ofLe_leBytes, ofLe_leBytes]

/-- The parameters of a command that writes data. -/
theorem parse_writeData (fileNo : UInt8) (offset length : UInt32) (data : List UInt8) :
    AppCommand.parse 0x8D (headerBytes fileNo offset length) data =
      some (.writeData fileNo (offset.toNat % 256 ^ 3) (length.toNat % 256 ^ 3) data) := by
  have hoffset : (leBytes 3 offset.toNat ++ leBytes 3 length.toNat).take 3 =
      leBytes 3 offset.toNat := List.take_left' (length_leBytes ..)
  have hlength : (leBytes 3 offset.toNat ++ leBytes 3 length.toNat).drop 3 =
      leBytes 3 length.toNat := List.drop_left' (length_leBytes ..)
  have hparse : AppCommand.parse 0x8D (headerBytes fileNo offset length) data =
      some (.writeData fileNo (ofLe ((leBytes 3 offset.toNat ++ leBytes 3 length.toNat).take 3))
        (ofLe ((leBytes 3 offset.toNat ++ leBytes 3 length.toNat).drop 3)) data) := rfl
  rw [hparse, hoffset, hlength, ofLe_leBytes, ofLe_leBytes]

/-- The communication mode of a request for data. -/
theorem commandMode_readData (fileNo : UInt8) (offset length : UInt32) (rest : List UInt8) :
    app.commandMode a k 0xAD (headerBytes fileNo offset length ++ rest) =
      if app.fileMode a k fileNo .read = .plain then .plain else .mac := rfl

/-- The communication mode of a command that writes data. -/
theorem commandMode_writeData (fileNo : UInt8) (offset length : UInt32) (rest : List UInt8) :
    app.commandMode a k 0x8D (headerBytes fileNo offset length ++ rest) =
      app.fileMode a k fileNo .write := rfl

/-! ### Plain accesses -/

/-- The application refused the command, and the session goes on. -/
def Declined (P : Primitives) {S A : Type} [LinkedSuite P S] (app : TagApp A) (k : KeyNumber)
    (c : AppCommand) (a : A) (e : Fault (SessionError E)) (s : Authenticated S) (w : Card A) :
    Prop :=
  ∃ e' a', app.exec k c a = (.error e', a') ∧ e = .error (.errorResponse e'.status) ∧
    Locked P k a' s w

/-- A plain command in a session is transmitted and answered. The host counts it later. -/
theorem wp_transmitPlain {Q : Response → Authenticated S → Card A → Prop}
    {R : Fault (SessionError E) → Authenticated S → Card A → Prop} {ins : UInt8}
    {header data : List UInt8} {c : AppCommand} (hlock : Locked P k a s w) (hI : I w)
    (hlen : header.length + data.length ≤ maxApduBody)
    (hhl : AppCommand.headerLength ins = some header.length)
    (hmode : app.commandMode a k ins (header ++ data) = .plain)
    (hparse : AppCommand.parse ins header data = some c) (hc : c ≠ .getVersion)
    (hcode : app.successCode a c = 0x00) (hframing : app.framing a k c = .plain)
    (hends : ¬ c.EndsSession k)
    (hok : ∀ d a' w', app.exec k c a = (.ok d, a') → Locked P k a' s.advanceCounter w' →
      Q ⟨d, 0x91, 0x00⟩ s w')
    (herr : ∀ e w', Declined P app k c a e s w' → R e s w') :
    (transmitExpecting .operationOk (nativeApdu ins 0x00 0x00 (header ++ data))).wp
      (Prog.Answers (Card.transmit P app)) I Q R s w := by
  obtain ⟨ts, rfl, hs, rfl⟩ := hlock
  have h71 : ins ≠ 0x71 := AppCommand.ne_of_headerLength hhl rfl
  have hhandle : ts.handle P (S := S) app ins (header ++ data) a =
      TagSession.react P (S := S) app c ts.idle a := by
    rw [TagSession.handle_of_headerLength hhl]
    simp only [TagSession.command, hhl, show ts.idle.keyNo = ts.keyNo from rfl, hmode,
      TagSession.receive, List.take_left', List.drop_left', hparse]
  have hbody : (header ++ data).length ≤ maxApduBody := by
    rw [List.length_append]
    exact hlen
  have hcard : (Card.inSession P (S := S) ts a).handle P app
      (nativeApdu ins 0x00 0x00 (header ++ data)) = _ := Card.handle_inSession h71 hbody
  rw [hhandle] at hcard
  rcases hexec : app.exec ts.idle.keyNo c a with ⟨e | d, a'⟩
  · rw [TagSession.react_error hexec] at hcard
    exact wp_transmitExpecting_card hI hcard (fun hok => absurd hok e.status_ne.1) fun _ =>
      herr _ _ ⟨e, a', hexec, rfl, _, rfl, hs.idle, rfl⟩
  · rw [TagSession.react_ok hexec hc, show ts.idle.keyNo = ts.keyNo from rfl, hcode, hframing,
      if_neg hends] at hcard
    exact wp_transmitExpecting_card hI hcard
      (fun _ => hok d a' _ hexec ⟨_, rfl, hs.idle.accept, rfl⟩)
      fun hno => absurd rfl hno

/-- The card is in a session that agrees with the host, and demands the modes `m` of it. -/
def LockedIn (P : Primitives) {S A : Type} [LinkedSuite P S] (app : TagApp A) (k : KeyNumber)
    (m : UInt8 → FileAccess → CommMode) (s : Authenticated S) (w : Card A) : Prop :=
  ∃ a, app.fileMode a k = m ∧ Locked P k a s w

/-- A fault that leaves the session usable. -/
def Survived (P : Primitives) {S A : Type} [LinkedSuite P S] (app : TagApp A) (k : KeyNumber)
    (m : UInt8 → FileAccess → CommMode) (e : Fault (SessionError E)) (s : Authenticated S)
    (w : Card A) : Prop :=
  NoMismatch e s w ∧ LockedIn P app k m s w

variable {m : UInt8 → FileAccess → CommMode}

/-- A command that keeps the modes leaves them as the session knows them. -/
theorem LockedIn.of_exec {c : AppCommand} {r : Except TagError (List UInt8)} {a' : A}
    {s' : Authenticated S} {w' : Card A} (hm : app.fileMode a k = m)
    (hexec : app.exec k c a = (r, a')) (hc : c.KeepsModes) (hlock : Locked P k a' s' w') :
    LockedIn P app k m s' w' := by
  have hkeep := app.fileMode_exec (k := k) (a := a) hc
  rw [hexec] at hkeep
  exact ⟨a', by rw [hkeep, hm], hlock⟩

theorem LockedIn.note {u : CounterUse} (h : LockedIn P app k m s w) :
    LockedIn P app k m (s.note u) w := by
  obtain ⟨a, hm, ts, hw, hs, hk⟩ := h
  exact ⟨a, hm, ts, hw, hs.note u, hk⟩

theorem Locked.note {u : CounterUse} (h : Locked P k a s w) : Locked P k a (s.note u) w := by
  obtain ⟨ts, hw, hs, hk⟩ := h
  exact ⟨ts, hw, hs.note u, hk⟩

/-- The checks of a request for data. -/
theorem wp_validateRequest {σ W : Type} {env : (r : List UInt8) → W → Transmit E r → W → Prop}
    {I : W → Prop} {Q : Unit → σ → W → Prop} {R : Fault (SessionError E) → σ → W → Prop} {t : σ}
    {v : W} {fileNo : UInt8} {offset length : UInt32} {bufLen : ℕ} (hQ : Q () t v)
    (hR : ∀ e, ¬ Readable fileNo offset length bufLen → NoMismatch e t v → R e t v) :
    (validateRequest fileNo offset length bufLen).wp env I Q R t v :=
  wp_validateRequest_readable (fun _ => hQ) fun _ _ _ hno => hR _ hno (by rintro ⟨⟩)

/-- The command of a request for data. -/
def readDataCommand (fileNo : UInt8) (offset length : UInt32) : AppCommand :=
  .readData fileNo (offset.toNat % 256 ^ 3) (length.toNat % 256 ^ 3)

/-- What a plain request copies into a buffer. -/
def copied (length : UInt32) (buf d : List UInt8) : ℕ × List UInt8 :=
  let n := min (min d.length (wantPlainBytes length buf.length)) buf.length
  (n, overlay buf 0 (d.take n))

/-- One plain request for data. -/
theorem wp_readDataPlain {Q : ℕ × List UInt8 → Authenticated S → Card A → Prop}
    {R : Fault (SessionError E) → Authenticated S → Card A → Prop} {fileNo : UInt8}
    {offset length : UInt32} {buf : List UInt8} (hmode : app.fileMode a k fileNo .read = .plain)
    (hlock : Locked P k a s w) (hI : I w)
    (hok : ∀ d a' w', app.exec k (readDataCommand fileNo offset length) a = (.ok d, a') →
      Locked P k a' s.advanceCounter w' → Q (copied length buf d) s w')
    (herr : ∀ e w', Declined P app k (readDataCommand fileNo offset length) a e s w' → R e s w')
    (hbad : ∀ e, ¬ Readable fileNo offset length buf.length → NoMismatch e s w → R e s w) :
    (readDataPlain fileNo offset length buf).wp (Prog.Answers (Card.transmit P app)) I Q R s w := by
  simp only [readDataPlain, Script.wp_bind, Script.wp_pure]
  refine wp_validateRequest ?_ hbad
  have hlen : (headerBytes fileNo offset length).length + ([] : List UInt8).length ≤
      maxApduBody := by
    simp [maxApduBody]
  rw [← List.append_nil (headerBytes fileNo offset length)]
  exact wp_transmitPlain hlock hI hlen (by rw [length_headerBytes]; rfl)
    (by rw [commandMode_readData, if_pos hmode]) (parse_readData ..) (by rintro ⟨⟩) rfl
    (by simp only [TagApp.framing, hmode]) id hok herr

/-- One plain request keeps the lock. -/
theorem wp_readDataPlain_lockedIn {Q : ℕ × List UInt8 → Authenticated S → Card A → Prop}
    {fileNo : UInt8} (offset length : UInt32) (buf : List UInt8)
    (hmode : m fileNo .read = .plain) (h : LockedIn P app k m s w)
    (hQ : ∀ r w', LockedIn P app k m s.advanceCounter w' → Q r s w') :
    (readDataPlain fileNo offset length buf).wp (Prog.Answers (Card.transmit P app))
      (fun _ => True) Q (Survived (E := E) P app k m) s w := by
  obtain ⟨a, rfl, hlock⟩ := h
  refine wp_readDataPlain hmode hlock trivial ?_ ?_ fun e _ he => ⟨he, a, rfl, hlock⟩
  · intro d a' w' hexec hlock'
    exact hQ _ _ (.of_exec rfl hexec trivial hlock')
  · rintro e w' ⟨e', a', hexec, rfl, hlock'⟩
    exact ⟨nofun, .of_exec rfl hexec trivial hlock'⟩

/-- The loop of plain requests. -/
theorem wp_readFilePlainLoop_lockedIn {fileNo : UInt8} (hmode : m fileNo .read = .plain)
    (total : ℕ) (currentOffset : UInt32) (remaining : ℕ) (buf : List UInt8)
    (h : LockedIn P app k m s w) :
    (readFilePlainLoop fileNo total currentOffset remaining buf).wp
      (Prog.Answers (Card.transmit P app)) (fun _ => True) (fun _ => LockedIn P app k m)
      (Survived (E := E) P app k m) s w := by
  refine wp_readFilePlainLoop_of (J := LockedIn P app k m) ?_ (fun _ _ h => ⟨nofun, h⟩) _ _ _ _ h
  intro offset length buf s w h
  refine wp_readDataPlain_lockedIn offset length buf hmode h ?_
  intro r w' h'
  exact h'.note (u := .unprotected)

/-- `read_file_plain_chunked`. -/
theorem wp_readFilePlainChunked {fileNo : UInt8} (hmode : m fileNo .read = .plain)
    (offset length : UInt32) (buf : List UInt8) (h : LockedIn P app k m s w) :
    (readFilePlainChunked fileNo offset length buf).wp (Prog.Answers (Card.transmit P app))
      (fun _ => True) (fun _ => LockedIn P app k m) (Survived (E := E) P app k m) s w := by
  rw [readFilePlainChunked]
  split
  · simp only [Script.wp_bind, Script.wp_pure]
    refine wp_readDataPlain_lockedIn _ _ _ hmode h fun r w₁ h₁ => ?_
    exact wp_advance (h₁.note (u := .unprotected))
  · exact wp_readFilePlainLoop_lockedIn hmode _ _ _ _ h

/-! ### Protected reads -/

/-- One request for data with a MAC. Only an answer that is longer than the request is refused,
and only a header that does not fit stops a build with debug assertions. -/
theorem wp_readDataMacOneApdu {Q : ℕ × List UInt8 → Authenticated S → Card A → Prop}
    {R : Fault (SessionError E) → Authenticated S → Card A → Prop} {fileNo : UInt8}
    {offset length : UInt32} {buf : List UInt8} (hmode : app.fileMode a k fileNo .read = .mac)
    (hlock : Locked P k a s w) (hI : I w)
    (hok : ∀ d a' s' w', app.exec k (readDataCommand fileNo offset length) a = (.ok d, a') →
      Locked P k a' s' w' → Q (d.length, overlay buf 0 d) s' w')
    (herr : ∀ e s' w', Refused app k (readDataCommand fileNo offset length) a e s' w' → R e s' w')
    (hpanic : ¬ (P.debugAssertions = true → HeaderFits fileNo offset length) → R .panicked s w)
    (hlong : ∀ d a' e s' w', app.exec k (readDataCommand fileNo offset length) a = (.ok d, a') →
      ¬ (d.length ≤ wantPlainBytes length buf.length ∧ d.length ≤ buf.length ∧
        d.length ≤ maxApduBody) → NoMismatch e s' w' → R e s' w') :
    (readDataMacOneApdu P fileNo offset length buf).wp (Prog.Answers (Card.transmit P app)) I Q R
      s w := by
  obtain ⟨ts, rfl, hs, rfl⟩ := hlock
  simp only [readDataMacOneApdu, wp_buildReadHeader, Script.wp_bind, Script.wp_require,
    Script.wp_assert, Script.wp_pure]
  refine ⟨fun _ => ?_, hpanic⟩
  have hlen : (headerBytes fileNo offset length).length + ([] : List UInt8).length + macLen ≤
      maxApduBody := by
    simp [maxApduBody, macLen]
  refine wp_transmitMac (n := 0) hs.idle hI hlen (by rw [length_headerBytes]; rfl)
    (fun rest => by rw [commandMode_readData, if_neg (by rw [hmode]; decide)]) (.mac [])
    (parse_readData ..) (by rintro ⟨⟩) rfl (fun d a' s₁ hexec h₁ => ?_)
    fun e a' s₁ hexec _ => herr _ _ _ ⟨e, a', hexec, rfl, rfl⟩
  have hframing : app.framing a ts.keyNo (readDataCommand fileNo offset length) = .mac := by
    simp only [readDataCommand, TagApp.framing, hmode]
  rw [← readDataCommand, hframing]
  refine wp_verifyResponse h₁ (fun hbig => hlong d a' _ _ _ hexec (by omega) (by rintro ⟨⟩))
    fun s₂ h₂ =>
    ⟨fun _ => ⟨fun _ => hok d a' _ _ hexec ⟨_, rfl, h₂, rfl⟩, fun hno => ?_⟩, fun hno => ?_⟩
  · exact hlong d a' _ _ _ hexec (fun hall => hno hall.2.1) (by rintro ⟨⟩)
  · exact hlong d a' _ _ _ hexec (fun hall => hno hall.1) (by rintro ⟨⟩)

/-- The loop of requests with a MAC. -/
theorem wp_readDataMacLoop_lockedIn {fileNo : UInt8} (hmode : m fileNo .read = .mac) {target : ℕ}
    (total : ℕ) (currentOffset : UInt32) (buf : List UInt8) (h : LockedIn P app k m s w) :
    (readDataMacLoop P fileNo target total currentOffset buf).wp
      (Prog.Answers (Card.transmit P app)) (fun _ => True) (fun _ => LockedIn P app k m)
      (NoMismatch (E := E)) s w := by
  refine wp_readDataMacLoop_of P (J := LockedIn P app k m) ?_ (fun _ _ _ => nofun) _ _ _ h
  rintro offset length buf s w ⟨a, rfl, hlock⟩
  exact wp_readDataMacOneApdu hmode hlock trivial
    (fun d a' s' w' hexec hlock' => .of_exec rfl hexec trivial hlock')
    (fun _ _ _ he => he.noMismatch) (fun _ => by rintro ⟨⟩) fun _ _ _ _ _ _ _ he => he

/-- One request for encrypted data. Only an answer of another length than asked is refused, and
only a header that does not fit stops a build with debug assertions. -/
theorem wp_readDataFullOneApdu (hP : P.Lawful)
    {Q : ℕ × List UInt8 → Authenticated S → Card A → Prop}
    {R : Fault (SessionError E) → Authenticated S → Card A → Prop} {fileNo : UInt8}
    {offset length : UInt32} {buf : List UInt8} (hmode : app.fileMode a k fileNo .read = .full)
    (hlock : Locked P k a s w) (hI : I w)
    (hok : ∀ d a' s' w', app.exec k (readDataCommand fileNo offset length) a = (.ok d, a') →
      Locked P k a' s' w' → Q (d.length, overlay buf 0 d) s' w')
    (herr : ∀ e s' w', Refused app k (readDataCommand fileNo offset length) a e s' w' → R e s' w')
    (hpanic : ¬ (P.debugAssertions = true → HeaderFits fileNo offset length) → R .panicked s w)
    (hother : ∀ d a' e s' w', app.exec k (readDataCommand fileNo offset length) a = (.ok d, a') →
      ¬ ((length = 0 ∨ d.length = length.toNat) ∧ d.length ≤ buf.length ∧
        (m2Pad d).length ≤ maxApduBody) → NoMismatch e s' w' → R e s' w') :
    (readDataFullOneApdu P fileNo offset length buf).wp (Prog.Answers (Card.transmit P app)) I Q R
      s w := by
  obtain ⟨ts, rfl, hs, rfl⟩ := hlock
  simp only [readDataFullOneApdu, wp_buildReadHeader, Script.wp_bind, Script.wp_require,
    Script.wp_assert]
  refine ⟨fun _ => ?_, hpanic⟩
  have hlen : (headerBytes fileNo offset length).length + ([] : List UInt8).length + macLen ≤
      maxApduBody := by
    simp [maxApduBody, macLen]
  refine wp_transmitMac (n := 0) hs.idle hI hlen (by rw [length_headerBytes]; rfl)
    (fun rest => by rw [commandMode_readData, if_neg (by rw [hmode]; decide)]) (.mac [])
    (parse_readData ..) (by rintro ⟨⟩) rfl (fun d a' s₁ hexec h₁ => ?_)
    fun e a' s₁ hexec _ => herr _ _ _ ⟨e, a', hexec, rfl, rfl⟩
  obtain ⟨ct, hct, hanswer, hdec⟩ := TagSession.answer_full hP (ts.idle.counted 0) 0x00 d
  have hframing : app.framing a ts.keyNo (readDataCommand fileNo offset length) = .full := by
    simp only [readDataCommand, TagApp.framing, hmode]
  have hblocks : ct.length ≠ 0 ∧ ct.length % 16 = 0 := by
    rw [hct, length_m2Pad]
    omega
  rw [← readDataCommand, hframing, hanswer]
  refine wp_verifyResponse h₁ (fun hbig => hother d a' _ _ _ hexec (by omega) (by rintro ⟨⟩))
    fun s₂ h₂ =>
    ⟨fun _ => ⟨fun _ => ?_, fun hno => ?_⟩, fun hno => absurd hblocks hno⟩
  · refine wp_decryptResponse h₂ hdec fun s₃ h₃ => ?_
    simp only [stripM2Padding_m2Pad, Script.wp_bind, Script.wp_require, Script.wp_pure, take_m2Pad]
    refine ⟨fun _ => ⟨fun _ => hok d a' _ _ hexec ⟨_, rfl, h₃, rfl⟩, fun hno => ?_⟩, fun hno => ?_⟩
    · exact hother d a' _ _ _ hexec (fun hall => hno hall.2.1) (by rintro ⟨⟩)
    · exact hother d a' _ _ _ hexec (fun hall => hno hall.1) (by rintro ⟨⟩)
  · refine hother d a' _ _ _ hexec (fun hall => hno ?_) (by rintro ⟨⟩)
    have hmax := hall.2.2
    rw [maxApduBody] at hmax
    rw [hct, readDataRespCap]
    omega

/-- The loop of requests for encrypted data. -/
theorem wp_readDataFullLoop_lockedIn (hP : P.Lawful) {fileNo : UInt8}
    (hmode : m fileNo .read = .full) {target : ℕ} (total : ℕ) (currentOffset : UInt32)
    (buf : List UInt8) (h : LockedIn P app k m s w) :
    (readDataFullLoop P fileNo target total currentOffset buf).wp
      (Prog.Answers (Card.transmit P app)) (fun _ => True) (fun _ => LockedIn P app k m)
      (NoMismatch (E := E)) s w := by
  refine wp_readDataFullLoop_of P (J := LockedIn P app k m) ?_ (fun _ _ _ => nofun) _ _ _ h
  rintro offset length buf s w ⟨a, rfl, hlock⟩
  exact wp_readDataFullOneApdu hP hmode hlock trivial
    (fun d a' s' w' hexec hlock' => .of_exec rfl hexec trivial hlock')
    (fun _ _ _ he => he.noMismatch) (fun _ => by rintro ⟨⟩) fun _ _ _ _ _ _ _ he => he

/-! ### Writes -/

/-- What the checks of a plain write demand. -/
def WritablePlain (fileNo : UInt8) (offset : UInt32) (data : List UInt8) : Prop :=
  fileNo ≤ 0x1F ∧ offset.toNat ≤ u24Max ∧ data ≠ [] ∧ data.length ≤ plainWriteChunk

/-- The checks of a command that writes data. -/
theorem wp_validateHeader {σ W : Type} {env : (r : List UInt8) → W → Transmit E r → W → Prop}
    {I : W → Prop} {Q : Unit → σ → W → Prop} {R : Fault (SessionError E) → σ → W → Prop} {t : σ}
    {v : W} {fileNo : UInt8} {offset : UInt32} {length : ℕ} (hQ : Q () t v)
    (hR : ∀ e, ¬ Writable fileNo offset length → NoMismatch e t v → R e t v) :
    (validateHeader fileNo offset length).wp env I Q R t v :=
  wp_validateHeader_writable (fun _ => hQ) fun _ _ _ hno => hR _ hno (by rintro ⟨⟩)

/-- The command of a write. -/
def writeDataCommand (fileNo : UInt8) (offset : UInt32) (data : List UInt8) : AppCommand :=
  .writeData fileNo (offset.toNat % 256 ^ 3) ((UInt32.ofNat data.length).toNat % 256 ^ 3) data

/-- One APDU of a plain write: it is counted if and only if the application accepts it. -/
theorem wp_writeFilePlainOneApdu {R : Fault (SessionError E) → Authenticated S → Card A → Prop}
    {fileNo : UInt8} {offset : UInt32} {data : List UInt8}
    (hmode : app.fileMode a k fileNo .write = .plain) (hlock : Locked P k a s w) (hI : I w)
    (herr : ∀ e w', Declined P app k (writeDataCommand fileNo offset data) a e s w' → R e s w')
    (hbad : ∀ e, ¬ WritablePlain fileNo offset data → NoMismatch e s w → R e s w) :
    (writeFilePlainOneApdu fileNo offset data).wp (Prog.Answers (Card.transmit P app)) I
      (Executed P app k (writeDataCommand fileNo offset data) a fun _ => ()) R s w := by
  simp only [writeFilePlainOneApdu, writeDataPlain, validateBodyLen, Script.wp_bind,
    Script.wp_require, Script.wp_pure]
  refine wp_validateHeader ⟨fun hbody => ?_, fun hno => hbad _ (fun hall => hno ?_) (by rintro ⟨⟩)⟩
    fun e hno he => hbad e (fun hall => hno ?_) he
  · have hlen : (headerBytes fileNo offset (UInt32.ofNat data.length)).length + data.length ≤
        maxApduBody := by
      rw [length_headerBytes]
      exact hbody
    refine wp_transmitPlain hlock hI hlen (by rw [length_headerBytes]; rfl)
      (by rw [commandMode_writeData, hmode]) (parse_writeData ..) (by rintro ⟨⟩) rfl
      (by simp only [TagApp.framing, hmode, if_true]) id ?_ herr
    intro d a' w' hexec hlock'
    exact wp_advance ⟨d, a', hexec, rfl, hlock'.note (u := .unprotected)⟩
  · obtain ⟨-, -, -, hle⟩ := hall
    rw [plainWriteChunk] at hle
    rw [maxApduBody]
    omega
  · obtain ⟨hfile, hoffset, hne, hle⟩ := hall
    refine ⟨hfile, hoffset, fun hzero => hne (List.length_eq_zero_iff.mp hzero), ?_⟩
    rw [plainWriteChunk] at hle
    rw [u24Max]
    omega

/-- One APDU of a write with a MAC succeeds if and only if its header fits and the application
accepts it. -/
theorem wp_writeDataMacOneApdu {R : Fault (SessionError E) → Authenticated S → Card A → Prop}
    {fileNo : UInt8} {offset : UInt32} {data : List UInt8}
    (hmode : app.fileMode a k fileNo .write = .mac) (hdata : data.length ≤ macWriteChunk)
    (hlock : Locked P k a s w) (hI : I w)
    (herr : ∀ e s' w', Refused app k (writeDataCommand fileNo offset data) a e s' w' → R e s' w')
    (hpanic : ¬ (P.debugAssertions = true → HeaderFits fileNo offset (UInt32.ofNat data.length) ∧
      UInt32.ofNat data.length ≠ 0) → R .panicked s w) :
    (writeDataMacOneApdu P fileNo offset data).wp (Prog.Answers (Card.transmit P app)) I
      (Executed P app k (writeDataCommand fileNo offset data) a fun _ => ()) R s w := by
  have hlen : (headerBytes fileNo offset (UInt32.ofNat data.length)).length + data.length + macLen ≤
      maxApduBody := by
    rw [macWriteChunk] at hdata
    rw [length_headerBytes, macLen, maxApduBody]
    omega
  have hempty : ∀ {d a'}, app.exec k (writeDataCommand fileNo offset data) a = (.ok d, a') →
      d = [] := fun hexec => List.length_eq_zero_iff.mp (app.length_exec hexec)
  simp only [writeDataMacOneApdu, wp_buildWriteHeader, Script.wp_bind, Script.wp_require]
  refine ⟨fun _ => ?_, hpanic⟩
  refine wp_sendMac hlock hI hlen (by rw [length_headerBytes]; rfl)
    (fun rest => by rw [commandMode_writeData, hmode]) (parse_writeData ..) (by rintro ⟨⟩) rfl
    (by simp only [TagApp.framing, hmode]; rfl) id (fun d a' s' w' hexec hlock' => ?_)
    herr fun d a' _ _ _ hexec hbig => ?_
  · exact ⟨fun _ => ⟨d, a', hexec, rfl, hlock'⟩, fun hno => absurd (hempty hexec) hno⟩
  · rw [hempty hexec] at hbig
    exact absurd hbig (Nat.not_lt_zero _)

/-- One APDU of an encrypted write succeeds if and only if its header fits and the application
accepts it. -/
theorem wp_writeDataFullOneApdu (hP : P.Lawful)
    {R : Fault (SessionError E) → Authenticated S → Card A → Prop} {fileNo : UInt8}
    {offset : UInt32} {data : List UInt8} (hmode : app.fileMode a k fileNo .write = .full)
    (hdata : data.length ≤ fullWriteChunk) (hlock : Locked P k a s w) (hI : I w)
    (herr : ∀ e s' w', Refused app k (writeDataCommand fileNo offset data) a e s' w' → R e s' w')
    (hpanic : ¬ (P.debugAssertions = true → HeaderFits fileNo offset (UInt32.ofNat data.length) ∧
      UInt32.ofNat data.length ≠ 0) → R .panicked s w) :
    (writeDataFullOneApdu P fileNo offset data).wp (Prog.Answers (Card.transmit P app)) I
      (Executed P app k (writeDataCommand fileNo offset data) a fun _ => ()) R s w := by
  have hbody : 7 + (m2Pad data).length + macLen ≤ maxApduBody := by
    rw [fullWriteChunk] at hdata
    rw [length_m2Pad, macLen, maxApduBody]
    omega
  have hempty : ∀ {d a'}, app.exec k (writeDataCommand fileNo offset data) a = (.ok d, a') →
      d = [] := fun hexec => List.length_eq_zero_iff.mp (app.length_exec hexec)
  simp only [writeDataFullOneApdu, wp_buildWriteHeader, validateBodyLen, Script.wp_bind,
    Script.wp_require]
  refine ⟨fun _ => ⟨fun _ => ?_, fun hno => absurd hbody hno⟩, hpanic⟩
  refine wp_transmitFull hP hlock hI (by rw [length_headerBytes]; exact hbody)
    (by rw [length_headerBytes]; rfl) (fun rest => by rw [commandMode_writeData, hmode])
    (parse_writeData ..) (by rintro ⟨⟩) rfl ?_ herr
  intro d a' ts s₁ hexec h₁ hk
  obtain rfl := hempty hexec
  simp only [TagApp.framing, hmode]
  refine wp_verifyResponse h₁ (fun hbig => absurd hbig (Nat.not_lt_zero _)) fun s₂ h₂ =>
    Script.wp_pure.mpr ⟨[], a', hexec, rfl, _, rfl, h₂, hk⟩

/-! ### Whole accesses -/

/-- The command behind `read_file_with_mode` in the mode of the file. -/
theorem wp_readCommand (hP : P.Lawful) (file : File) (offset length : UInt32) {mode : CommMode}
    (buf : List UInt8) (hmode : m file.fileNo .read = mode) (h : LockedIn P app k m s w) :
    (Session.readCommand P file offset length mode buf).wp (Prog.Answers (Card.transmit P app))
      (fun _ => True) (fun _ => LockedIn P app k m) (NoMismatch (E := E)) s w := by
  cases mode with
  | plain =>
      exact Script.wp_mono (wp_readFilePlainChunked hmode offset length buf h) (fun _ _ _ h => h)
        fun _ _ _ he => he.1
  | mac =>
      simp only [Session.readCommand, readDataMac, Script.wp_bind]
      exact wp_validateRequest (wp_readDataMacLoop_lockedIn hmode _ _ _ h) fun _ _ he => he
  | full =>
      simp only [Session.readCommand, readDataFull, Script.wp_bind]
      exact wp_validateRequest (wp_readDataFullLoop_lockedIn hP hmode _ _ _ h) fun _ _ he => he

/-- `write_file_plain_chunked`. -/
theorem wp_writeFilePlainChunked {fileNo : UInt8} (hmode : m fileNo .write = .plain)
    (offset : UInt32) (data : List UInt8) (h : LockedIn P app k m s w) :
    (writeFilePlainChunked fileNo offset data).wp (Prog.Answers (Card.transmit P app))
      (fun _ => True) (fun _ => LockedIn P app k m) (Survived (E := E) P app k m) s w := by
  simp only [writeFilePlainChunked, Script.wp_bind, Script.wp_require]
  refine ⟨fun _ => wp_writeLoop_of (J := LockedIn P app k m) (fun offset part t v _ _ ht => ?_)
    offset h, fun _ => ⟨nofun, h⟩⟩
  obtain ⟨a, rfl, hlock⟩ := ht
  refine Script.wp_mono (wp_writeFilePlainOneApdu hmode hlock trivial ?_ ?_) ?_
    fun _ _ _ he => he
  · rintro e w' ⟨e', a', hexec, rfl, hlock'⟩
    exact ⟨nofun, .of_exec rfl hexec trivial hlock'⟩
  · intro e _ he
    exact ⟨he, a, rfl, hlock⟩
  · rintro _ s' w' ⟨d, a', hexec, -, hlock'⟩
    exact .of_exec rfl hexec trivial hlock'

/-- The command behind `write_file_with_mode` in the mode of the file. -/
theorem wp_writeCommand (hP : P.Lawful) (file : File) (offset : UInt32) {mode : CommMode}
    (data : List UInt8) (hmode : m file.fileNo .write = mode) (h : LockedIn P app k m s w) :
    (Session.writeCommand P file offset data mode).wp (Prog.Answers (Card.transmit P app))
      (fun _ => True) (fun _ => LockedIn P app k m) (NoMismatch (E := E)) s w := by
  cases mode with
  | plain =>
      exact Script.wp_mono (wp_writeFilePlainChunked hmode offset data h) (fun _ _ _ h => h)
        fun _ _ _ he => he.1
  | mac =>
      simp only [Session.writeCommand, writeDataMac, Script.wp_bind]
      refine wp_validateHeader (wp_writeLoop_of (J := LockedIn P app k m)
        (fun offset part t v _ hpart ht => ?_) offset h) fun _ _ he => he
      obtain ⟨a, rfl, hlock⟩ := ht
      refine Script.wp_mono (wp_writeDataMacOneApdu hmode hpart hlock trivial
        (fun _ _ _ he => he.noMismatch) fun _ => by rintro ⟨⟩) ?_ fun _ _ _ he => he
      rintro _ s' w' ⟨d, a', hexec, -, hlock'⟩
      exact .of_exec rfl hexec trivial hlock'
  | full =>
      simp only [Session.writeCommand, writeDataFull, Script.wp_bind]
      refine wp_validateHeader (wp_writeLoop_of (J := LockedIn P app k m)
        (fun offset part t v _ hpart ht => ?_) offset h) fun _ _ he => he
      obtain ⟨a, rfl, hlock⟩ := ht
      refine Script.wp_mono (wp_writeDataFullOneApdu hP hmode hpart hlock trivial
        (fun _ _ _ he => he.noMismatch) fun _ => by rintro ⟨⟩) ?_ fun _ _ _ he => he
      rintro _ s' w' ⟨d, a', hexec, -, hlock'⟩
      exact .of_exec rfl hexec trivial hlock'

end Ntag424
