import Mathlib.Tactic.Common
import Ntag424.Lockstep.Reads
import Ntag424.Session.Transcript

/-!
# What a Chunked Write Writes

A write in chunks to a tag that accepts everything: the offsets, lengths and data the tag is
told, in the order in which it is told. Only the position of the first chunk is checked before
anything is sent. The later ones are refused when they are due in plain mode, and wrap around
the three bytes of the offset in the protected modes, or stop the program if the build has debug
assertions.

## Main results

* `wp_writeLoop_logged`: what a protected write has the tag write.
* `wp_writeFilePlainChunked_logged`: what a plain write has it write.
* `chunked_writes_cover_iff`: a write covers its range if and only if the last chunk starts
  within the range of the offset.
-/

namespace Ntag424

open Numerals SecureChannel

/-! ### The APDUs -/

section Apdus

variable {P : Primitives} {E S : Type} [KeyedSuite P S]

/-- A `WriteData` with its true length. -/
def IsWriteData (apdu : List UInt8) : Prop :=
  ∃ body, apdu = nativeApdu 0x8D 0x00 0x00 body ∧ body.length ≤ maxApduBody

/-- The suite has session keys, and every APDU of the transcript is such a `WriteData`. -/
def OnlyWriteData (P : Primitives) {E S : Type} [KeyedSuite P S] (s : Authenticated S)
    (w : Transcript E) : Prop :=
  (∃ keys n, s.suite = KeyedSuite.ofKeys (P := P) keys n) ∧ ∀ entry ∈ w, IsWriteData entry.1

/-- An exchange of a `WriteData`. -/
theorem keeps_transmitExpecting_writeData {body : List UInt8} (hlen : body.length ≤ maxApduBody) :
    Script.Keeps (Records anyAnswer) (OnlyWriteData P (E := E) (S := S))
      (transmitExpecting .operationOk (nativeApdu 0x8D 0x00 0x00 body)) := by
  refine keeps_transmitExpecting _ ?_
  rintro s w answer _ ⟨hs, hw⟩ ⟨-, rfl⟩
  refine ⟨hs, fun entry hentry => ?_⟩
  rcases List.mem_append.mp hentry with hentry | hentry
  · exact hw entry hentry
  · obtain rfl := List.mem_singleton.mp hentry
    exact ⟨body, rfl, hlen⟩

theorem keeps_transmitMac_writeData {header data : List UInt8}
    (hlen : header.length + data.length + macLen ≤ maxApduBody) :
    Script.Keeps (Records anyAnswer) (OnlyWriteData P (E := E) (S := S))
      (transmitMac P 0x8D 0x00 0x00 header data) := by
  intro s w h
  simp only [transmitMac, computeCmdMac, SecureChannel.state, SecureChannel.note, Script.wp_bind,
    Script.wp_get, Script.wp_assert, Script.wp_set, Script.wp_pure]
  refine ⟨fun _ => keeps_transmitExpecting_writeData ?_ _ _ h, fun _ => h⟩
  rw [List.length_append, List.length_append, Bytes.length_toList]
  exact hlen

theorem keeps_verifyResponse_writeData (rc : UInt8) (body : List UInt8) :
    Script.Keeps (Records anyAnswer) (OnlyWriteData P (E := E) (S := S))
      (verifyResponseMacAndAdvance P rc body) := by
  intro s w h
  simp only [verifyResponseMacAndAdvance, SecureChannel.state, SecureChannel.note, advance,
    Script.wp_bind, Script.wp_get, Script.wp_assert, Script.wp_set, Script.wp_pure,
    Script.wp_require]
  exact ⟨fun _ => ⟨fun _ => ⟨fun _ => h, fun _ => h⟩, fun _ => h⟩, fun _ => h⟩

/-- One plain APDU. -/
theorem keeps_writeFilePlainOneApdu (fileNo : UInt8) (offset : UInt32) (part : List UInt8) :
    Script.Keeps (Records anyAnswer) (OnlyWriteData P (E := E) (S := S))
      (writeFilePlainOneApdu fileNo offset part) := by
  intro s w h
  simp only [writeFilePlainOneApdu, writeDataPlain, validateHeader, validateTarget,
    validateBodyLen, advanceCounter, SecureChannel.note, advance, SecureChannel.state,
    Script.wp_bind, Script.wp_require, Script.wp_get, Script.wp_set, Script.wp_pure]
  refine ⟨fun _ => ⟨fun _ => ⟨fun _ => ⟨fun _ => ⟨fun hbody => ?_, fun _ => h⟩, fun _ => h⟩,
    fun _ => h⟩, fun _ => h⟩, fun _ => h⟩
  refine keeps_transmitExpecting_writeData ?_ _ _ h
  rw [List.length_append, length_headerBytes]
  exact hbody

/-- One APDU with a MAC. -/
theorem keeps_writeDataMacOneApdu (fileNo : UInt8) (offset : UInt32) (part : List UInt8) :
    Script.Keeps (Records anyAnswer) (OnlyWriteData P (E := E) (S := S))
      (writeDataMacOneApdu P fileNo offset part) := by
  intro s w h
  simp only [writeDataMacOneApdu, wp_buildWriteHeader, sendMac, Script.wp_bind, Script.wp_require,
    Script.wp_pure]
  refine ⟨fun _ => ⟨fun hbody => ?_, fun _ => h⟩, fun _ => h⟩
  refine Script.wp_mono (keeps_transmitMac_writeData hbody s w h) (fun resp s' w' h' => ?_)
    fun _ _ _ h' => h'
  refine Script.wp_mono (keeps_verifyResponse_writeData resp.sw2 resp.data s' w' h')
    (fun _ _ _ h'' => ?_) fun _ _ _ h'' => h''
  exact ⟨fun _ => ⟨fun _ => h'', fun _ => h''⟩, fun _ => h''⟩

/-- One encrypted APDU. The ciphertext is as long as the padded data. -/
theorem keeps_writeDataFullOneApdu (hP : P.Lawful) (fileNo : UInt8) (offset : UInt32)
    (part : List UInt8) :
    Script.Keeps (Records anyAnswer) (OnlyWriteData P (E := E) (S := S))
      (writeDataFullOneApdu P fileNo offset part) := by
  intro s w h
  obtain ⟨⟨keys, n, hsuite⟩, hw⟩ := h
  obtain ⟨ct, henc, hct, -⟩ := KeyedSuite.decrypt_encrypt (S := S) hP keys n .command s.ti
    s.cmdCounter (m2Pad part) (m2Pad_ne_nil part) (length_m2Pad_mod part)
  simp only [writeDataFullOneApdu, wp_buildWriteHeader, validateBodyLen, transmitFull,
    encryptCommand, SecureChannel.state, SecureChannel.note, Script.wp_bind, Script.wp_require,
    Script.wp_get, hsuite, henc, Script.wp_set, Script.wp_pure]
  refine ⟨fun _ => ⟨fun hbody => ?_, fun _ => ⟨⟨keys, n, hsuite⟩, hw⟩⟩,
    fun _ => ⟨⟨keys, n, hsuite⟩, hw⟩⟩
  have hlen : (headerBytes fileNo offset (UInt32.ofNat part.length)).length + ct.length + macLen ≤
      maxApduBody := by
    rw [length_headerBytes, hct]
    exact hbody
  refine Script.wp_mono (keeps_transmitMac_writeData hlen _ w ⟨⟨keys, _, rfl⟩, hw⟩)
    (fun resp s' w' h' => ?_) fun _ _ _ h' => h'
  exact keeps_verifyResponse_writeData resp.sw2 resp.data s' w' h'

end Apdus

variable {P : Primitives} {E S A : Type} [LinkedSuite P S] {app : TagApp A} {k : KeyNumber}
  {s : Authenticated S} {w : Card A} {m : UInt8 → FileAccess → CommMode} {fileNo : UInt8}
  {log : A → List (ℕ × ℕ × List UInt8)} {offset : UInt32} {data : List UInt8}

/-! ### Accepting writes -/

/-- The application accepts every write to a file, and `log` tells offset, length and data of
those it accepted. -/
structure TagApp.Accepts (app : TagApp A) (k : KeyNumber) (fileNo : UInt8)
    (log : A → List (ℕ × ℕ × List UInt8)) : Prop where
  exec : ∀ o n d a, ∃ a', app.exec k (.writeData fileNo o n d) a = (.ok [], a') ∧
    log a' = log a ++ [(o, n, d)]

/-- What a chunk has the tag write. -/
def told (offset : UInt32) (part : List UInt8) : ℕ × ℕ × List UInt8 :=
  (offset.toNat % 256 ^ 3, part.length, part)

/-- The application was told a chunk. -/
def Told (P : Primitives) {S A : Type} [LinkedSuite P S] (app : TagApp A) (k : KeyNumber)
    (m : UInt8 → FileAccess → CommMode) (log : A → List (ℕ × ℕ × List UInt8)) (offset : UInt32)
    (part : List UInt8) (w : Card A) (s' : Authenticated S) (w' : Card A) : Prop :=
  LockedIn P app k m s' w' ∧ log w'.app = log w.app ++ [told offset part]

/-- A chunk is written with its own length. -/
theorem writeDataCommand_chunk {part : List UInt8} (hpart : part.length ≤ 256) :
    writeDataCommand fileNo offset part =
      .writeData fileNo (offset.toNat % 256 ^ 3) part.length part := by
  have hlen : part.length % 256 ^ 3 = part.length := Nat.mod_eq_of_lt (by omega)
  rw [writeDataCommand, toNat_ofNat_chunk hpart, hlen]

theorem Told.of_executed (haccepts : app.Accepts k fileNo log) {a : A} {part : List UInt8}
    (hm : app.fileMode a k = m) (hpart : part.length ≤ 256) {b : Unit} {s' : Authenticated S}
    {w' : Card A}
    (h : Executed P app k (writeDataCommand fileNo offset part) a (fun _ => ()) b s' w') :
    LockedIn P app k m s' w' ∧ log w'.app = log a ++ [told offset part] := by
  obtain ⟨d, a', hexec, -, hlock⟩ := h
  refine ⟨.of_exec hm hexec trivial hlock, ?_⟩
  obtain ⟨ts, rfl, -⟩ := hlock
  rw [writeDataCommand_chunk hpart] at hexec
  obtain ⟨a'', hexec', hlog⟩ := haccepts.exec (offset.toNat % 256 ^ 3) part.length part a
  rw [hexec] at hexec'
  obtain ⟨-, rfl⟩ := Prod.mk.inj hexec'
  exact hlog

theorem TagApp.Accepts.not_refused (haccepts : app.Accepts k fileNo log) {a : A}
    {part : List UInt8} {e : TagError} {a' : A}
    (h : app.exec k (writeDataCommand fileNo offset part) a = (.error e, a')) : False := by
  obtain ⟨a'', hexec, -⟩ := haccepts.exec _ _ part a
  rw [writeDataCommand, hexec] at h
  cases congrArg Prod.fst h

/-- The header of a chunk whose offset is beyond the range stops a build with debug assertions. -/
def StoppedOffset (offset : UInt32) (f : Fault (SessionError E)) (_ : Authenticated S)
    (_ : Card A) : Prop :=
  u24Max < offset.toNat ∧ f = .panicked

omit [LinkedSuite P S] in
/-- A header of a chunk is built, or stops the write because of the offset. -/
theorem stoppedOffset_of_header (hfile : fileNo ≤ 0x1F) {part : List UInt8} (hne : part ≠ [])
    (hpart : part.length ≤ 256)
    (hno : ¬ (P.debugAssertions = true → HeaderFits fileNo offset (UInt32.ofNat part.length) ∧
      UInt32.ofNat part.length ≠ 0)) : StoppedOffset (E := E) offset .panicked s w := by
  refine ⟨?_, rfl⟩
  by_contra hnear
  refine hno fun _ => ⟨(headerFits_chunk hfile hpart).mpr (Nat.le_of_not_lt hnear), ?_⟩
  exact ofNat_chunk_ne_zero (List.length_pos_iff.mpr hne) hpart

/-- One APDU with a MAC. -/
theorem wp_writeDataMacOneApdu_told (haccepts : app.Accepts k fileNo log)
    (hmode : m fileNo .write = .mac) (hfile : fileNo ≤ 0x1F) {part : List UInt8} (hne : part ≠ [])
    (hpart : part.length ≤ macWriteChunk) (h : LockedIn P app k m s w) :
    (writeDataMacOneApdu P fileNo offset part).wp (Prog.Answers (Card.transmit P app))
      (fun _ => True) (fun _ => Told P app k m log offset part w)
      (StoppedOffset (E := E) offset) s w := by
  obtain ⟨a, rfl, hlock⟩ := h
  have happ : w.app = a := hlock.app_eq
  have hlen : part.length ≤ 256 := hpart.trans (by simp [macWriteChunk])
  refine Script.wp_mono (wp_writeDataMacOneApdu hmode hpart hlock trivial ?_ ?_)
    (fun _ _ _ he => ?_) fun _ _ _ he => he
  · rintro e s' w' ⟨e', a', hexec, -, -⟩
    exact (haccepts.not_refused hexec).elim
  · exact stoppedOffset_of_header hfile hne hlen
  · rw [Told, happ]
    exact Told.of_executed haccepts rfl hlen he

/-- One encrypted APDU. -/
theorem wp_writeDataFullOneApdu_told (hP : P.Lawful) (haccepts : app.Accepts k fileNo log)
    (hmode : m fileNo .write = .full) (hfile : fileNo ≤ 0x1F) {part : List UInt8} (hne : part ≠ [])
    (hpart : part.length ≤ fullWriteChunk) (h : LockedIn P app k m s w) :
    (writeDataFullOneApdu P fileNo offset part).wp (Prog.Answers (Card.transmit P app))
      (fun _ => True) (fun _ => Told P app k m log offset part w)
      (StoppedOffset (E := E) offset) s w := by
  obtain ⟨a, rfl, hlock⟩ := h
  have happ : w.app = a := hlock.app_eq
  have hlen : part.length ≤ 256 := hpart.trans (by simp [fullWriteChunk])
  refine Script.wp_mono (wp_writeDataFullOneApdu hP hmode hpart hlock trivial ?_ ?_)
    (fun _ _ _ he => ?_) fun _ _ _ he => he
  · rintro e s' w' ⟨e', a', hexec, -, -⟩
    exact (haccepts.not_refused hexec).elim
  · exact stoppedOffset_of_header hfile hne hlen
  · rw [Told, happ]
    exact Told.of_executed haccepts rfl hlen he

/-- A plain APDU whose offset is beyond the range is refused. -/
def RefusedOffset (offset : UInt32) (w : Card A) (f : Fault (SessionError E))
    (_ : Authenticated S) (w' : Card A) : Prop :=
  u24Max < offset.toNat ∧ (∃ e, f = .error e) ∧ w' = w

/-- One plain APDU. -/
theorem wp_writeFilePlainOneApdu_told (haccepts : app.Accepts k fileNo log)
    (hmode : m fileNo .write = .plain) (hfile : fileNo ≤ 0x1F) {part : List UInt8}
    (hne : part ≠ []) (hpart : part.length ≤ plainWriteChunk) (h : LockedIn P app k m s w) :
    (writeFilePlainOneApdu fileNo offset part).wp (Prog.Answers (Card.transmit P app))
      (fun _ => True)
      (fun _ s' w' => offset.toNat ≤ u24Max ∧ Told P app k m log offset part w s' w')
      (RefusedOffset (E := E) offset w) s w := by
  rcases Nat.lt_or_ge u24Max offset.toNat with hfar | hnear
  · simp only [writeFilePlainOneApdu, writeDataPlain, validateHeader, validateTarget,
      Script.wp_bind, Script.wp_require]
    exact ⟨fun _ => ⟨fun hle => absurd hle (Nat.not_le_of_lt hfar), fun _ => ⟨hfar, ⟨_, rfl⟩, rfl⟩⟩,
      fun hno => absurd hfile hno⟩
  · obtain ⟨a, rfl, hlock⟩ := h
    have happ : w.app = a := hlock.app_eq
    refine Script.wp_mono (wp_writeFilePlainOneApdu hmode hlock trivial ?_ ?_)
      (fun _ _ _ he => ⟨hnear, ?_⟩) fun _ _ _ he => he
    · rintro e w' ⟨e', a', hexec, -, -⟩
      exact (haccepts.not_refused hexec).elim
    · exact fun e hno _ => absurd ⟨hfile, hnear, hne, hpart⟩ hno
    · rw [plainWriteChunk] at hpart
      rw [Told, happ]
      exact Told.of_executed haccepts rfl (by omega) he

/-! ### The loops -/

/-- What the tag was told so far: the first `written` bytes, in place if `inPlace` says so. -/
def WrittenSoFar (P : Primitives) {S A : Type} [LinkedSuite P S] (app : TagApp A) (k : KeyNumber)
    (m : UInt8 → FileAccess → CommMode) (log : A → List (ℕ × ℕ × List UInt8)) (chunk : ℕ)
    (offset : UInt32) (data : List UInt8) (w : Card A) (written : ℕ) (s' : Authenticated S)
    (w' : Card A) : Prop :=
  LockedIn P app k m s' w' ∧ (∃ q, written = min (chunk * q) data.length) ∧
    ∃ pieces, log w'.app = log w.app ++ pieces ∧
      (Tiles offset.toNat pieces (data.take written) ↔
        0 < written → offset.toNat + lastStart chunk written ≤ u24Max)

namespace WrittenSoFar

variable {chunk written : ℕ} {s' : Authenticated S} {w' : Card A}

theorem start (h : LockedIn P app k m s w) :
    WrittenSoFar P app k m log chunk offset data w 0 s w := by
  refine ⟨h, ⟨0, (Nat.zero_min _).symm⟩, [], (List.append_nil _).symm, ?_⟩
  exact ⟨fun _ hpos => absurd hpos (Nat.lt_irrefl 0), fun _ => rfl⟩

/-- A chunk starts behind whole ones. -/
theorem eq_mul (h : WrittenSoFar P app k m log chunk offset data w written s' w')
    (hlt : written < data.length) : ∃ q, written = chunk * q := by
  obtain ⟨-, ⟨q, hq⟩, -⟩ := h
  exact ⟨q, by omega⟩

/-- **One more chunk.** -/
theorem next (h : WrittenSoFar P app k m log chunk offset data w written s' w')
    (hchunk : 0 < chunk) (hmax : data.length ≤ u24Max) (hoffset : offset.toNat ≤ u24Max)
    (hlt : written < data.length) {s'' : Authenticated S} {w'' : Card A}
    (htold : Told P app k m log (offset + UInt32.ofNat written) (slice data written chunk) w'
      s'' w'') :
    WrittenSoFar P app k m log chunk offset data w
      (written + (slice data written chunk).length) s'' w'' := by
  obtain ⟨q, rfl⟩ := h.eq_mul hlt
  obtain ⟨-, -, pieces, hlog, htiles⟩ := h
  obtain ⟨hlock, hlog'⟩ := htold
  have hlen : (slice data (chunk * q) chunk).length = min chunk (data.length - chunk * q) := by
    rw [slice, List.length_take, List.length_drop]
  have htake : data.take (chunk * q + (slice data (chunk * q) chunk).length) =
      data.take (chunk * q) ++ slice data (chunk * q) chunk := by
    rw [List.take_add, hlen, slice]
    congr 1
    exact List.take_eq_take_iff.mpr (by rw [List.length_drop]; omega)
  have hlast : lastStart chunk (chunk * q + (slice data (chunk * q) chunk).length) = chunk * q :=
    lastStart_mul_add (by omega) (by omega)
  have hposition : (offset + UInt32.ofNat (chunk * q)).toNat = offset.toNat + chunk * q :=
    toNat_add_ofNat (by rw [u24Max] at *; omega)
  refine ⟨hlock, ⟨q + 1, by rw [Nat.mul_succ]; omega⟩, 
    pieces ++ [told (offset + UInt32.ofNat (chunk * q)) (slice data (chunk * q) chunk)], ?_, ?_⟩
  · rw [hlog', hlog, List.append_assoc]
  · rw [htake, told, tiles_concat, hlast, hposition, List.length_take,
      Nat.min_eq_left hlt.le, htiles]
    have hself := lastStart_le_self chunk (chunk * q)
    constructor
    · rintro ⟨-, hplace, -⟩ -
      rw [u24Max]
      omega
    · intro hplace
      have hle := hplace (by omega)
      rw [u24Max] at *
      exact ⟨fun _ => by omega, by omega, rfl⟩

end WrittenSoFar

/-- The loop of a protected write, whose APDUs are all accepted. Only a header that does not fit
stops it. -/
theorem wp_writeLoop_logged {chunk : ℕ} {one : UInt32 → List UInt8 → Cmd E (Authenticated S) Unit}
    (hchunk : 0 < chunk)
    (hone : ∀ {offset part s' w'}, part ≠ [] → part.length ≤ chunk → LockedIn P app k m s' w' →
      (one offset part).wp (Prog.Answers (Card.transmit P app)) (fun _ => True)
        (fun _ => Told P app k m log offset part w') (StoppedOffset (E := E) offset) s' w')
    (hmax : data.length ≤ u24Max) (hoffset : offset.toNat ≤ u24Max)
    (h : LockedIn P app k m s w) :
    (writeLoop chunk one offset data).wp (Prog.Answers (Card.transmit P app)) (fun _ => True)
      (fun _ => WrittenSoFar P app k m log chunk offset data w data.length)
      (fun f _ _ => u24Max < offset.toNat + lastStart chunk data.length ∧ f = .panicked) s w := by
  refine wp_writeLoop (J := WrittenSoFar P app k m log chunk offset data w) hchunk
    (fun _ _ h => h) (fun written s' w' hsofar hlt => ?_) (.start h)
  have hpart : slice data written chunk ≠ [] := by
    rw [slice, ne_eq, List.take_eq_nil_iff, List.drop_eq_nil_iff]
    omega
  refine Script.wp_mono (hone hpart (List.length_take_le ..) hsofar.1)
    (fun _ _ _ htold => hsofar.next hchunk hmax hoffset hlt htold) ?_
  rintro f _ _ ⟨hfar, rfl⟩
  obtain ⟨q, rfl⟩ := hsofar.eq_mul hlt
  have hlast := le_lastStart hlt
  rw [toNat_add_ofNat (by rw [u24Max] at *; omega)] at hfar
  exact ⟨by omega, rfl⟩

/-- A plain write that fits, as far as it has come. -/
def PlainSoFar (P : Primitives) {S A : Type} [LinkedSuite P S] (app : TagApp A) (k : KeyNumber)
    (m : UInt8 → FileAccess → CommMode) (log : A → List (ℕ × ℕ × List UInt8)) (offset : UInt32)
    (data : List UInt8) (w : Card A) (written : ℕ) (s' : Authenticated S) (w' : Card A) : Prop :=
  WrittenSoFar P app k m log plainWriteChunk offset data w written s' w' ∧
    offset.toNat + lastStart plainWriteChunk written ≤ u24Max

/-- What a late refusal leaves: the last chunk has no position, and something was written. -/
def RefusedLate (log : A → List (ℕ × ℕ × List UInt8)) (offset : UInt32) (data : List UInt8)
    (w : Card A) (f : Fault (SessionError E)) (_ : Authenticated S) (w' : Card A) : Prop :=
  u24Max < offset.toNat + lastStart plainWriteChunk data.length ∧ (∃ e, f = .error e) ∧
    log w'.app ≠ log w.app

/-- The plain write. -/
theorem wp_writeFilePlainChunked_logged (haccepts : app.Accepts k fileNo log)
    (hmode : m fileNo .write = .plain) (hfile : fileNo ≤ 0x1F) (hne : data ≠ [])
    (hmax : data.length ≤ u24Max) (hoffset : offset.toNat ≤ u24Max)
    (h : LockedIn P app k m s w) :
    (writeFilePlainChunked fileNo offset data).wp (Prog.Answers (Card.transmit P app))
      (fun _ => True) (fun _ => PlainSoFar P app k m log offset data w data.length)
      (RefusedLate (E := E) log offset data w) s w := by
  have hchunk : 0 < plainWriteChunk := by simp [plainWriteChunk]
  simp only [writeFilePlainChunked, Script.wp_bind, Script.wp_require]
  refine ⟨fun _ => ?_, fun hno => absurd hne hno⟩
  refine wp_writeLoop (J := PlainSoFar P app k m log offset data w) hchunk (fun _ _ h => h)
    (fun written s' w' hsofar hlt => ?_) ⟨.start h, by simpa [lastStart] using hoffset⟩
  obtain ⟨q, rfl⟩ := hsofar.1.eq_mul hlt
  have hlen : (slice data (plainWriteChunk * q) plainWriteChunk).length =
      min plainWriteChunk (data.length - plainWriteChunk * q) := by
    rw [slice, List.length_take, List.length_drop]
  have hposition : (offset + UInt32.ofNat (plainWriteChunk * q)).toNat =
      offset.toNat + plainWriteChunk * q := toNat_add_ofNat (by rw [u24Max] at *; omega)
  refine Script.wp_mono (wp_writeFilePlainOneApdu_told haccepts hmode hfile (fun hnil => ?_)
    (by omega) hsofar.1.1) ?_ ?_
  · rw [hnil, List.length_nil] at hlen
    omega
  · rintro _ s'' w'' ⟨hnear, htold⟩
    refine ⟨hsofar.1.next hchunk hmax hoffset hlt htold, ?_⟩
    rw [lastStart_mul_add (by omega) (by omega)]
    omega
  · rintro f s'' w'' ⟨hfar, hf, rfl⟩
    have hlast := le_lastStart hlt
    refine ⟨by omega, hf, fun hsame => ?_⟩
    -- something was written before, since the first chunk has a position
    obtain ⟨-, -, pieces, hlog, htiles⟩ := hsofar.1
    rw [hsame, List.self_eq_append_right] at hlog
    subst hlog
    have htaken : data.take (plainWriteChunk * q) = [] := htiles.mpr fun _ => hsofar.2
    rw [List.take_eq_nil_iff] at htaken
    rcases htaken with hzero | hnil
    · omega
    · exact hne hnil

/-! ### Whole writes -/

/-- The write of an authenticated session in a mode. -/
def writeIn (P : Primitives) {E S : Type} [SessionSuite P S] (mode : CommMode) (fileNo : UInt8)
    (offset : UInt32) (data : List UInt8) : Cmd E (Authenticated S) Unit :=
  match mode with
  | .plain => writeFilePlainChunked fileNo offset data
  | .mac => writeDataMac P fileNo offset data
  | .full => writeDataFull P fileNo offset data

/-- The most bytes that a mode writes at a time. -/
def writeChunk : CommMode → ℕ
  | .plain => plainWriteChunk
  | .mac => macWriteChunk
  | .full => fullWriteChunk

/-- A write covers its range: it returns an error with nothing sent, or succeeds, has sent
nothing but `WriteData`s with their true lengths, and had the tag write the data in order, piece
by piece, from the offset on. -/
def CoversRange (P : Primitives) {E S A : Type} [LinkedSuite P S] (app : TagApp A)
    (log : A → List (ℕ × ℕ × List UInt8)) (cmd : Cmd E (Authenticated S) Unit) (offset : UInt32)
    (data : List UInt8) (s : Authenticated S) (w : Card A) : Prop :=
  ∀ r s' w' tr, Prog.run (traced (Card.transmit P app)) (cmd s) (w, []) = ((r, s'), (w', tr)) →
    ((∃ e, r = .error (.error e)) ∧ tr = []) ∨
    (r = .ok () ∧ (∀ entry ∈ tr, IsWriteData entry.1) ∧
      ∃ pieces, log w'.app = log w.app ++ pieces ∧ Tiles offset.toNat pieces data)

/-- What the tag is told by a whole write. -/
def WrittenAll (log : A → List (ℕ × ℕ × List UInt8)) (chunk : ℕ) (offset : UInt32)
    (data : List UInt8) (w w' : Card A) : Prop :=
  ∃ pieces, log w'.app = log w.app ++ pieces ∧
    (Tiles offset.toNat pieces data ↔ offset.toNat + lastStart chunk data.length ≤ u24Max)

theorem WrittenSoFar.all {chunk : ℕ} {s' : Authenticated S} {w' : Card A} (hne : data ≠ [])
    (h : WrittenSoFar P app k m log chunk offset data w data.length s' w') :
    WrittenAll log chunk offset data w w' := by
  obtain ⟨-, -, pieces, hlog, htiles⟩ := h
  rw [List.take_length] at htiles
  exact ⟨pieces, hlog, htiles.trans ⟨fun hplace => hplace (List.length_pos_iff.mpr hne),
    fun hle _ => hle⟩⟩

/-- The write as the tag sees it. -/
theorem wp_writeIn_logged (hP : P.Lawful) (haccepts : app.Accepts k fileNo log) {mode : CommMode}
    (hmode : m fileNo .write = mode) (hfile : fileNo ≤ 0x1F) (hne : data ≠ [])
    (hmax : data.length ≤ u24Max) (hoffset : offset.toNat ≤ u24Max)
    (h : LockedIn P app k m s w) :
    (writeIn P mode fileNo offset data).wp (Prog.Answers (Card.transmit P app)) (fun _ => True)
      (fun _ _ => WrittenAll log (writeChunk mode) offset data w)
      (fun f _ w' => u24Max < offset.toNat + lastStart (writeChunk mode) data.length ∧
        (f = .panicked ∨ (∃ e : SessionError E, f = .error e) ∧ log w'.app ≠ log w.app)) s w := by
  have hheader : fileNo ≤ 0x1F ∧ offset.toNat ≤ u24Max ∧ data.length ≠ 0 ∧ data.length ≤ u24Max :=
    ⟨hfile, hoffset, fun hzero => hne (List.length_eq_zero_iff.mp hzero), hmax⟩
  cases mode with
  | plain =>
      exact Script.wp_mono
        (wp_writeFilePlainChunked_logged haccepts hmode hfile hne hmax hoffset h)
        (fun _ _ _ h' => h'.1.all hne) fun _ _ _ he => ⟨he.1, .inr he.2⟩
  | mac =>
      simp only [writeIn, writeDataMac, Script.wp_bind]
      refine wp_validateHeader ?_ fun _ hno _ => absurd hheader hno
      exact Script.wp_mono (wp_writeLoop_logged (by simp [macWriteChunk])
        (fun hne hpart hlock => wp_writeDataMacOneApdu_told haccepts hmode hfile hne hpart hlock)
        hmax hoffset h) (fun _ _ _ h' => h'.all hne) fun _ _ _ he => ⟨he.1, .inl he.2⟩
  | full =>
      simp only [writeIn, writeDataFull, Script.wp_bind]
      refine wp_validateHeader ?_ fun _ hno _ => absurd hheader hno
      exact Script.wp_mono (wp_writeLoop_logged (by simp [fullWriteChunk])
        (fun hne hpart hlock =>
          wp_writeDataFullOneApdu_told hP haccepts hmode hfile hne hpart hlock)
        hmax hoffset h) (fun _ _ _ h' => h'.all hne) fun _ _ _ he => ⟨he.1, .inl he.2⟩

/-- A file number of more than five bits is refused at once. -/
theorem wp_writeIn_refused {W : Type} {env : (r : List UInt8) → W → Transmit E r → W → Prop}
    {v : W} (mode : CommMode) (hfile : 0x1F < fileNo) (hne : data ≠ []) :
    (writeIn P mode fileNo offset data).wp env (fun _ => True) (fun _ _ _ => False)
      (fun f _ v' => (∃ e, f = .error e) ∧ v' = v) s v := by
  have hno : ¬ fileNo ≤ 0x1F := UInt8.not_le.mpr hfile
  have hheader : ∀ {Q : Unit → Authenticated S → W → Prop} {offset : UInt32} {length : ℕ},
      (validateHeader fileNo offset length).wp env (fun _ => True) Q
        (fun f _ v' => (∃ e, f = .error e) ∧ v' = v) s v := by
    intro Q offset length
    simp only [validateHeader, validateTarget, Script.wp_bind, Script.wp_require]
    exact ⟨fun hle => absurd hle hno, fun _ => ⟨⟨_, rfl⟩, trivial⟩⟩
  cases mode with
  | plain =>
      have hpos : 0 < plainWriteChunk := by simp [plainWriteChunk]
      simp only [writeIn, writeFilePlainChunked, Script.wp_bind, Script.wp_require]
      refine ⟨fun _ => ?_, fun hnil => absurd hne hnil⟩
      rw [writeLoop, if_pos ⟨hne, hpos⟩]
      simp only [writeFilePlainOneApdu, writeDataPlain, Script.wp_bind]
      exact hheader
  | mac =>
      simp only [writeIn, writeDataMac, Script.wp_bind]
      exact hheader
  | full =>
      simp only [writeIn, writeDataFull, Script.wp_bind]
      exact hheader

/-- Every APDU of a write is a `WriteData` with its true length. -/
theorem keeps_writeIn (hP : P.Lawful) (mode : CommMode) :
    Script.Keeps (Records anyAnswer) (OnlyWriteData P (E := E) (S := S))
      (writeIn P mode fileNo offset data) := by
  intro s w h
  cases mode with
  | plain =>
      simp only [writeIn, writeFilePlainChunked, Script.wp_bind, Script.wp_require]
      exact ⟨fun _ => wp_writeLoop_of
        (fun offset part s w _ _ h => keeps_writeFilePlainOneApdu fileNo offset part s w h)
        offset h,
        fun _ => h⟩
  | mac =>
      simp only [writeIn, writeDataMac, validateHeader, validateTarget, Script.wp_bind,
        Script.wp_require]
      exact ⟨fun _ => ⟨fun _ => ⟨fun _ => ⟨fun _ => wp_writeLoop_of
        (fun offset part s w _ _ h => keeps_writeDataMacOneApdu fileNo offset part s w h) offset h,
        fun _ => h⟩, fun _ => h⟩, fun _ => h⟩, fun _ => h⟩
  | full =>
      simp only [writeIn, writeDataFull, validateHeader, validateTarget, Script.wp_bind,
        Script.wp_require]
      exact ⟨fun _ => ⟨fun _ => ⟨fun _ => ⟨fun _ => wp_writeLoop_of
        (fun offset part s w _ _ h => keeps_writeDataFullOneApdu hP fileNo offset part s w h)
        offset h, fun _ => h⟩, fun _ => h⟩, fun _ => h⟩, fun _ => h⟩

/-- A write to a file number of more than five bits sends nothing. -/
theorem coversRange_of_refused (mode : CommMode) (hfile : 0x1F < fileNo) (hne : data ≠ []) :
    CoversRange (E := E) P app log (writeIn P mode fileNo offset data) offset data s w := by
  intro r s' w' tr hrun
  have hend := Prog.ends_run (traced (Card.transmit P app))
    (writeIn (E := E) P mode fileNo offset data s) (w, [])
  rw [hrun] at hend
  have hrefused : (writeIn (E := E) P mode fileNo offset data).wp
      (Prog.Answers (traced (Card.transmit P app))) (fun _ => True) (fun _ _ _ => False)
      (fun f _ v' => (∃ e, f = .error e) ∧ v' = (w, [])) s (w, []) :=
    wp_writeIn_refused mode hfile hne
  rcases r with f | b
  · obtain ⟨⟨e, rfl⟩, hv⟩ := Script.wp_ends_fault hrefused hend
    exact .inl ⟨⟨e, rfl⟩, (Prod.mk.inj hv).2⟩
  · exact (Script.wp_ends hrefused hend).elim

section Covers

variable (hP : P.Lawful) (haccepts : app.Accepts k fileNo log) (hlock : LockedIn P app k m s w)
  (hoffset : offset.toNat ≤ u24Max) (hne : data ≠ []) (hmax : data.length ≤ u24Max)
  {mode : CommMode} (hmode : m fileNo .write = mode) (hfile : fileNo ≤ 0x1F)

include hP haccepts hlock hoffset hne hmax hmode hfile

/-- A write whose last chunk has a position covers its range. -/
theorem coversRange_of_fits
    (hfits : offset.toNat + lastStart (writeChunk mode) data.length ≤ u24Max) :
    CoversRange (E := E) P app log (writeIn P mode fileNo offset data) offset data s w := by
  intro r s' w' tr hrun
  have hstart : OnlyWriteData P (E := E) s [] := by
    obtain ⟨a, -, ts, -, hs, -⟩ := hlock
    exact ⟨⟨ts.keys, ts.encCtr, hs.suite⟩, fun _ hentry => absurd hentry List.not_mem_nil⟩
  have hkeeps : Script.Keeps (Records anyAnswer) (OnlyWriteData P (E := E) (S := S))
      (writeIn P mode fileNo offset data) := keeps_writeIn hP mode
  have hlogged := wp_traced (v := (w, []))
    (wp_writeIn_logged (E := E) hP haccepts hmode hfile hne hmax hoffset hlock)
  have honly := wp_traced_recorded (h := Card.transmit P app) (v := (w, [])) (hkeeps s [] hstart)
  have hend := Prog.ends_run (traced (Card.transmit P app))
    (writeIn (E := E) P mode fileNo offset data s) (w, [])
  rw [hrun] at hend
  rcases r with f | b
  · obtain ⟨hover, -⟩ := Script.wp_ends_fault hlogged hend
    omega
  · obtain ⟨pieces, hlog, htiles⟩ := Script.wp_ends hlogged hend
    exact .inr ⟨rfl, (Script.wp_ends honly hend).2, pieces, hlog, htiles.mpr hfits⟩

/-- The last chunk of a write that covers its range has a position. -/
theorem fits_of_coversRange
    (hcovers : CoversRange (E := E) P app log (writeIn P mode fileNo offset data) offset data s w) :
    offset.toNat + lastStart (writeChunk mode) data.length ≤ u24Max := by
  have hlogged := wp_traced (v := (w, []))
    (wp_writeIn_logged (E := E) hP haccepts hmode hfile hne hmax hoffset hlock)
  have huntouched := wp_untouched (h := Card.transmit P app)
    (writeIn (E := E) P mode fileNo offset data s) w
  have hend := Prog.ends_run (traced (Card.transmit P app))
    (writeIn (E := E) P mode fileNo offset data s) (w, [])
  rcases hrun : Prog.run (traced (Card.transmit P app))
    (writeIn (E := E) P mode fileNo offset data s) (w, []) with ⟨⟨f | b, s'⟩, ⟨w', tr⟩⟩
  · -- a refusal that is not the first thing leaves a mark on the tag
    rw [hrun] at hend
    obtain ⟨-, hfault⟩ := Script.wp_ends_fault hlogged hend
    rcases hcovers _ _ _ _ hrun with ⟨⟨e, he⟩, htr⟩ | ⟨hok, -⟩
    · rcases hfault with rfl | ⟨-, hlog⟩
      · cases he
      · exact absurd (congrArg (fun w => log w.app) (Prog.wp_ends huntouched hend htr)) hlog
    · cases hok
  · rw [hrun] at hend
    obtain ⟨pieces, hlog, htiles⟩ := Script.wp_ends hlogged hend
    rcases hcovers _ _ _ _ hrun with ⟨⟨e, he⟩, -⟩ | ⟨-, -, pieces', hlog', htiles'⟩
    · cases he
    · obtain rfl := List.append_cancel_left (hlog'.symm.trans hlog)
      exact htiles.mp htiles'

end Covers

/-- **Chunked writes cover their range**, if and only if the file number is refused at once or
the last chunk still has a position. -/
theorem chunked_writes_cover_iff (hP : P.Lawful) (haccepts : app.Accepts k fileNo log)
    (hlock : LockedIn P app k m s w) (hoffset : offset.toNat ≤ u24Max) (hne : data ≠ [])
    (hmax : data.length ≤ u24Max) (mode : CommMode) (hmode : m fileNo .write = mode) :
    CoversRange (E := E) P app log (writeIn P mode fileNo offset data) offset data s w ↔
      0x1F < fileNo ∨ offset.toNat + lastStart (writeChunk mode) data.length ≤ u24Max := by
  rcases UInt8.lt_or_le 0x1F fileNo with hfar | hfile
  · exact iff_of_true (coversRange_of_refused mode hfar hne) (.inl hfar)
  · constructor
    · intro hcovers
      exact .inr (fits_of_coversRange hP haccepts hlock hoffset hne hmax hmode hfile hcovers)
    · rintro (hfar | hfits)
      · exact absurd hfile (UInt8.not_le.mpr hfar)
      · exact coversRange_of_fits hP haccepts hlock hoffset hne hmax hmode hfile hfits

/-! ### A tag that records writes -/

/-- An application with all-zero keys that accepts every write to every file, in one mode,
records it, and refuses everything else. -/
def TagApp.recording (mode : CommMode) : TagApp (List (ℕ × ℕ × List UInt8)) where
  key _ _ := Bytes.zeros 16
  lrpMode _ := false
  rndB a := (Bytes.zeros 16, a)
  newTi a := (Bytes.zeros 4, a)
  pdCap2 _ := Bytes.zeros 6
  exec
    | _, .writeData _ o n d, a => (.ok [], a ++ [(o, n, d)])
    | _, _, a => (.error .permissionDenied, a)
  fileMode _ _ _ _ := mode
  countersEncrypted _ _ := false
  configurationSilent _ _ := false
  signatureStatus _ := false
  length_exec {_ c _ _ _} h := by
    cases c with
    | writeData fileNo o n d =>
        cases h
        rfl
    | _ => cases h
  fileMode_exec _ := rfl
  fileMode_settings h := nomatch h

theorem TagApp.accepts_recording (mode : CommMode) :
    (TagApp.recording mode).Accepts k fileNo id :=
  ⟨fun _ _ _ _ => ⟨_, rfl, rfl⟩⟩

/-- A write in three chunks, the last of them near the end of the range. -/
theorem chunked_write_three_chunks :
    let data : List UInt8 := List.replicate 500 0x07
    let Covers (mode : CommMode) : Prop := CoversRange (E := Empty) .standard (.recording mode) id
      (writeIn .standard mode 0x02 0xFFFE00 data) 0xFFFE00 data zeroSession.state
      ⟨.aes zeroTagSession, []⟩
    Covers .plain ∧ Covers .mac ∧ Covers .full := by
  intro data Covers
  have hne : data ≠ [] := List.ne_nil_of_length_pos (by rw [List.length_replicate]; decide)
  have hlen : data.length ≤ u24Max := by
    rw [List.length_replicate]
    decide
  have hlock : ∀ mode, LockedIn .standard (.recording mode) .key0 (fun _ _ => mode)
      zeroSession.state ⟨.aes zeroTagSession, []⟩ := fun _ => lockedIn_zeroSession rfl
  have hcovers : ∀ mode, (0xFFFE00 : UInt32).toNat + lastStart (writeChunk mode) data.length ≤
      u24Max → Covers mode := fun mode hfits =>
    (chunked_writes_cover_iff Primitives.standard_lawful (TagApp.accepts_recording mode)
      (hlock mode) (by decide) hne hlen mode rfl).mpr (.inr hfits)
  rw [List.length_replicate] at hcovers
  exact ⟨hcovers .plain (by decide), hcovers .mac (by decide), hcovers .full (by decide)⟩

/-- The second chunk of a write from the last position on goes to the beginning of the file. -/
theorem chunked_write_wraps :
    ¬ CoversRange (E := Empty) .standard (.recording .mac) id
      (writeIn .standard .mac 0x02 0xFFFFFF (List.replicate 241 0x00)) 0xFFFFFF
      (List.replicate 241 0x00) zeroSession.state ⟨.aes zeroTagSession, []⟩ := by
  intro hcovers
  have hlock : LockedIn .standard (.recording .mac) .key0 (fun _ _ => .mac) zeroSession.state
      ⟨.aes zeroTagSession, []⟩ := lockedIn_zeroSession rfl
  have hlen : (List.replicate 241 (0x00 : UInt8)).length ≤ u24Max := by
    rw [List.length_replicate]
    decide
  have hfits := fits_of_coversRange Primitives.standard_lawful (TagApp.accepts_recording .mac) hlock
    (by decide) (by simp) hlen rfl (by decide) hcovers
  rw [List.length_replicate] at hfits
  exact absurd hfits (by decide)

end Ntag424
