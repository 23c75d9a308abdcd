import Mathlib.Tactic.Common
import Ntag424.Lockstep.Profile
import Ntag424.Lockstep.Reads
import Ntag424.Lockstep.Writes

/-!
# File Data on a Documented Tag

Reading and writing the files of a tag that obeys the laws of `TagApp.Documented`, in any of the
three communication modes. A write is split into chunks, so the file is left with a prefix of the
data between two exchanges.

## Main results

* `AtProfile.wp_writeCommand`: a write within a file, with the profiles on the way.
* `AtProfile.wp_readCommand`: a read within a file.
-/

namespace Ntag424

open Numerals SecureChannel

variable {P : Primitives} {E S A : Type} {app : TagApp A} {profile : A → Profile}
  {k : KeyNumber} {c : Profile} {J : Profile → Prop} [LinkedSuite P S] {s : Authenticated S}
  {w : Card A} {file : File} {offset : UInt32} {data : List UInt8}

namespace AtProfile

/-- Numbers and sizes of the files fit the commands. -/
theorem fileNo_le (file : File) : file.fileNo ≤ 0x1F := by cases file <;> decide

theorem size_le (file : File) : file.size ≤ 256 := by cases file <;> decide

/-! ### Writing -/

/-- A part of a write that the tag accepts. -/
structure Accepted (c : Profile) (k : KeyNumber) (mode : CommMode) (file : File) (offset : UInt32)
    (part : List UInt8) : Prop where
  mode_eq : (c.settings file).writeMode k = mode
  writable : (c.settings file).Writable k
  ne_nil : part ≠ []
  within : offset.toNat + part.length ≤ file.size

theorem Accepted.position {mode : CommMode} (h : Accepted c k mode file offset data) :
    writeDataCommand file.fileNo offset data =
      .writeData file.fileNo offset.toNat data.length data := by
  have hsize := size_le file
  have hwithin := h.within
  rw [writeDataCommand_chunk (by omega), Nat.mod_eq_of_lt (by omega)]

theorem Accepted.performs (happ : app.Documented profile) {a : A} {mode : CommMode}
    (h : Accepted (profile a) k mode file offset data) :
    app.Performs profile k (writeDataCommand file.fileNo offset data) a []
      ((profile a).written file offset.toNat data) := by
  rw [h.position]
  exact happ.writeData h.writable h.within

theorem Accepted.fileMode_eq (happ : app.Documented profile) {a : A} {mode : CommMode}
    (h : Accepted (profile a) k mode file offset data) :
    app.fileMode a k file.fileNo .write = mode := (happ.fileMode ..).trans h.mode_eq

/-- Every part of a file has a place in a header. -/
theorem Accepted.headerFits {mode : CommMode} (h : Accepted c k mode file offset data) :
    HeaderFits file.fileNo offset (UInt32.ofNat data.length) ∧
      UInt32.ofNat data.length ≠ 0 := by
  have hsize := size_le file
  have hwithin := h.within
  refine ⟨(headerFits_chunk (fileNo_le file) (by omega)).mpr (by rw [u24Max]; omega), ?_⟩
  exact ofNat_chunk_ne_zero (List.length_pos_iff.mpr h.ne_nil) (by omega)

/-- One APDU of a plain write. -/
theorem wp_writePlainOne (happ : app.Documented profile) (h : AtProfile P k profile c s w)
    (hpart : Accepted c k .plain file offset data) (hchunk : data.length ≤ plainWriteChunk)
    (hJ : J c) :
    (writeFilePlainOneApdu file.fileNo offset data).wp (Prog.Answers (Card.transmit P app))
      (fun w => J (profile w.app))
      (fun _ => AtProfile P k profile (c.written file offset.toNat data))
      (fun (_ : Fault (SessionError E)) _ _ => False) s w := by
  have hI := h.invariant hJ
  obtain ⟨a, hlock, rfl⟩ := h
  have hperforms := hpart.performs happ
  obtain ⟨a₁, hexec₁, -⟩ := id hperforms
  have hexecuted : (writeFilePlainOneApdu file.fileNo offset data).wp
      (Prog.Answers (Card.transmit P app)) (fun w => J (profile w.app))
      (Executed P app k (writeDataCommand file.fileNo offset data) a fun _ => ())
      (Refused (E := E) app k (writeDataCommand file.fileNo offset data) a) s w := by
    refine wp_writeFilePlainOneApdu (hpart.fileMode_eq happ) hlock hI ?_ ?_
    · rintro e w' ⟨e', a', hexec, -, -⟩
      rw [hexec₁] at hexec
      cases (Prod.mk.inj hexec).1
    · intro e hno _
      have hsize := size_le file
      have hwithin := hpart.within
      exact absurd ⟨fileNo_le file, by rw [u24Max]; omega, hpart.ne_nil, hchunk⟩ hno
  exact Script.wp_mono (wp_performed hexecuted hperforms) (fun _ _ _ h' => h'.2) fun _ _ _ he => he

/-- One APDU of a write with a MAC. -/
theorem wp_writeMacOne (happ : app.Documented profile) (h : AtProfile P k profile c s w)
    (hpart : Accepted c k .mac file offset data) (hchunk : data.length ≤ macWriteChunk)
    (hJ : J c) :
    (writeDataMacOneApdu P file.fileNo offset data).wp (Prog.Answers (Card.transmit P app))
      (fun w => J (profile w.app))
      (fun _ => AtProfile P k profile (c.written file offset.toNat data))
      (fun (_ : Fault (SessionError E)) _ _ => False) s w := by
  have hI := h.invariant hJ
  obtain ⟨a, hlock, rfl⟩ := h
  have hexecuted : (writeDataMacOneApdu P file.fileNo offset data).wp
      (Prog.Answers (Card.transmit P app)) (fun w => J (profile w.app))
      (Executed P app k (writeDataCommand file.fileNo offset data) a fun _ => ())
      (Refused (E := E) app k (writeDataCommand file.fileNo offset data) a) s w :=
    wp_writeDataMacOneApdu (hpart.fileMode_eq happ) hchunk hlock hI (fun _ _ _ he => he)
      fun hno => absurd (fun _ => hpart.headerFits) hno
  exact Script.wp_mono (wp_performed hexecuted (hpart.performs happ)) (fun _ _ _ h' => h'.2)
    fun _ _ _ he => he

/-- One APDU of an encrypted write. -/
theorem wp_writeFullOne (hP : P.Lawful) (happ : app.Documented profile)
    (h : AtProfile P k profile c s w) (hpart : Accepted c k .full file offset data)
    (hchunk : data.length ≤ fullWriteChunk) (hJ : J c) :
    (writeDataFullOneApdu P file.fileNo offset data).wp (Prog.Answers (Card.transmit P app))
      (fun w => J (profile w.app))
      (fun _ => AtProfile P k profile (c.written file offset.toNat data))
      (fun (_ : Fault (SessionError E)) _ _ => False) s w := by
  have hI := h.invariant hJ
  obtain ⟨a, hlock, rfl⟩ := h
  have hexecuted : (writeDataFullOneApdu P file.fileNo offset data).wp
      (Prog.Answers (Card.transmit P app)) (fun w => J (profile w.app))
      (Executed P app k (writeDataCommand file.fileNo offset data) a fun _ => ())
      (Refused (E := E) app k (writeDataCommand file.fileNo offset data) a) s w :=
    wp_writeDataFullOneApdu hP (hpart.fileMode_eq happ) hchunk hlock hI (fun _ _ _ he => he)
      fun hno => absurd (fun _ => hpart.headerFits) hno
  exact Script.wp_mono (wp_performed hexecuted (hpart.performs happ)) (fun _ _ _ h' => h'.2)
    fun _ _ _ he => he

/-- **The loop of a write.** After some chunks the file holds a prefix of the data. -/
theorem wp_writeChunks {mode : CommMode} {chunk : ℕ} (hchunk : 0 < chunk)
    {one : UInt32 → List UInt8 → Cmd E (Authenticated S) Unit}
    (hone : ∀ {c : Profile} {offset : UInt32} {part : List UInt8} {s : Authenticated S}
      {w : Card A}, AtProfile P k profile c s w → Accepted c k mode file offset part →
      part.length ≤ chunk → J c →
      (one offset part).wp (Prog.Answers (Card.transmit P app)) (fun w => J (profile w.app))
        (fun _ => AtProfile P k profile (c.written file offset.toNat part)) (fun _ _ _ => False)
        s w)
    (h : AtProfile P k profile c s w) (hdata : Accepted c k mode file offset data)
    (hJ : ∀ n, J (c.written file offset.toNat (data.take n))) :
    (writeLoop chunk one offset data).wp (Prog.Answers (Card.transmit P app))
      (fun w => J (profile w.app))
      (fun _ => AtProfile P k profile (c.written file offset.toNat data)) (fun _ _ _ => False)
      s w := by
  have hsize := size_le file
  have hwithin := hdata.within
  refine wp_writeLoop (J := fun written => AtProfile P k profile
    (c.written file offset.toNat (data.take written))) hchunk ?_ ?_ ?_
  · intro s w h'
    rwa [List.take_length] at h'
  · intro written s w h' hlt
    have hlen : (slice data written chunk).length = min chunk (data.length - written) := by
      rw [slice, List.length_take, List.length_drop]
    have hposition : (offset + UInt32.ofNat written).toNat = offset.toNat + written :=
      toNat_add_ofNat (by omega)
    have htake : (data.take written).length = written := List.length_take_of_le (by omega)
    have hnext : data.take written ++ slice data written chunk =
        data.take (written + (slice data written chunk).length) := by
      have hmin : (data.drop written).take chunk =
          (data.drop written).take (min chunk (data.length - written)) := by
        rw [List.take_eq_take_iff, List.length_drop]
        omega
      rw [hlen, slice, List.take_add, hmin]
    have hpart : Accepted (c.written file offset.toNat (data.take written)) k mode file
        (offset + UInt32.ofNat written) (slice data written chunk) := by
      refine ⟨hdata.mode_eq, hdata.writable, fun hnil => ?_, by rw [hposition]; omega⟩
      rw [hnil, List.length_nil] at hlen
      omega
    refine Script.wp_mono (hone h' hpart (by omega) (hJ written)) ?_ fun _ _ _ he => he
    intro _ s' w' h''
    have hwritten : (c.written file offset.toNat (data.take written)).written file
        (offset.toNat + (data.take written).length) (slice data written chunk) =
        c.written file offset.toNat (data.take written ++ slice data written chunk) :=
      Profile.written_written (by rw [hnext, List.length_take]; omega)
    rw [htake, hnext] at hwritten
    rwa [hposition, hwritten] at h''
  · rwa [List.take_zero, Profile.written_nil]

/-- **The command behind `write_file_with_mode`** in the mode of the file. -/
theorem wp_writeCommand (hP : P.Lawful) (happ : app.Documented profile) {mode : CommMode}
    (h : AtProfile P k profile c s w) (hdata : Accepted c k mode file offset data)
    (hJ : ∀ n, J (c.written file offset.toNat (data.take n))) :
    (Session.writeCommand P file offset data mode).wp (Prog.Answers (Card.transmit P app))
      (fun w => J (profile w.app))
      (fun _ => AtProfile P k profile (c.written file offset.toNat data))
      (fun (_ : Fault (SessionError E)) _ _ => False) s w := by
  have hsize := size_le file
  have hwithin := hdata.within
  have hheader : file.fileNo ≤ 0x1F ∧ offset.toNat ≤ u24Max ∧ data.length ≠ 0 ∧
      data.length ≤ u24Max := by
    refine ⟨fileNo_le file, ?_, fun hzero => hdata.ne_nil (List.length_eq_zero_iff.mp hzero), ?_⟩
    · rw [u24Max]
      omega
    · rw [u24Max]
      omega
  cases mode with
  | plain =>
      simp only [Session.writeCommand, writeFilePlainChunked, Script.wp_bind, Script.wp_require]
      refine ⟨fun _ => ?_, fun hno => absurd hdata.ne_nil hno⟩
      exact wp_writeChunks (by decide) (fun h' hpart hlen hJ' =>
        wp_writePlainOne happ h' hpart hlen hJ') h hdata hJ
  | mac =>
      simp only [Session.writeCommand, writeDataMac, Script.wp_bind]
      refine wp_validateHeader ?_ fun _ hno _ => hno hheader
      exact wp_writeChunks (by decide) (fun h' hpart hlen hJ' =>
        wp_writeMacOne happ h' hpart hlen hJ') h hdata hJ
  | full =>
      simp only [Session.writeCommand, writeDataFull, Script.wp_bind]
      refine wp_validateHeader ?_ fun _ hno _ => hno hheader
      exact wp_writeChunks (by decide) (fun h' hpart hlen hJ' =>
        wp_writeFullOne hP happ h' hpart hlen hJ') h hdata hJ

/-! ### Reading -/

/-- A part of a file that the tag hands out. -/
structure Offered (c : Profile) (k : KeyNumber) (mode : CommMode) (file : File) (offset n : ℕ) :
    Prop where
  mode_eq : (c.settings file).readMode k = mode
  readable : (c.settings file).Readable k
  ne_zero : n ≠ 0
  within : offset + n ≤ file.size

variable {buf : List UInt8} {n : ℕ} {length : UInt32}

/-- What is read of a file. -/
theorem length_slice_contents {mode : CommMode} {offset : ℕ}
    (h : Offered c k mode file offset n) :
    (slice (c.contents file).toList offset n).length = n := by
  refine length_slice ?_
  rw [Bytes.length_toList]
  exact h.within

theorem Offered.performs (happ : app.Documented profile) {a : A} {mode : CommMode}
    (h : Offered (profile a) k mode file offset.toNat n) (hn : n ≤ 256) :
    app.Performs profile k (readDataCommand file.fileNo offset (UInt32.ofNat n)) a
      (slice ((profile a).contents file).toList offset.toNat n) (profile a) := by
  have hsize := size_le file
  have hwithin := h.within
  rw [readDataCommand_chunk file.fileNo (by rw [u24Max]; omega) hn]
  exact happ.readData h.readable h.ne_zero h.within

theorem Offered.fileMode_eq (happ : app.Documented profile) {a : A} {mode : CommMode}
    (h : Offered (profile a) k mode file offset.toNat n) :
    app.fileMode a k file.fileNo .read = mode := (happ.fileMode ..).trans h.mode_eq

/-- What a request returns: the part of the file, in front of the buffer. -/
def Answered (P : Primitives) {S A : Type} [LinkedSuite P S] (k : KeyNumber)
    (profile : A → Profile) (c : Profile) (file : File) (offset n : ℕ) (buf : List UInt8)
    (r : ℕ × List UInt8) (s : Authenticated S) (w : Card A) : Prop :=
  r = (n, overlay buf 0 (slice (c.contents file).toList offset n)) ∧ AtProfile P k profile c s w

/-- Every part of a file has a place in a header. -/
theorem Offered.headerFits {mode : CommMode} (h : Offered c k mode file offset.toNat n) :
    HeaderFits file.fileNo offset (UInt32.ofNat n) := by
  have hsize := size_le file
  have hwithin := h.within
  exact (headerFits_chunk (fileNo_le file) (by omega)).mpr (by rw [u24Max]; omega)

/-- One APDU of a plain read. -/
theorem wp_readPlainOne (happ : app.Documented profile) (h : AtProfile P k profile c s w)
    (hpart : Offered c k .plain file offset.toNat n) (hn : n ≤ plainReadChunk)
    (hbuf : buf.length = n) (hJ : J c) :
    (readDataPlain file.fileNo offset (UInt32.ofNat n) buf).wp (Prog.Answers (Card.transmit P app))
      (fun w => J (profile w.app))
      (fun r s' => Answered P k profile c file offset.toNat n buf r
        (s'.note .unprotected).advanceCounter)
      (fun (_ : Fault (SessionError E)) _ _ => False) s w := by
  have hI := h.invariant hJ
  have hlen := length_slice_contents hpart
  obtain ⟨a, hlock, rfl⟩ := h
  obtain ⟨a₁, hexec₁, hprofile⟩ := hpart.performs happ hn
  refine wp_readDataPlain (hpart.fileMode_eq happ) hlock hI ?_ ?_ fun e hno _ => hno ?_
  · intro d a' w' hexec hlock'
    rw [hexec₁] at hexec
    obtain ⟨hd, rfl⟩ := Prod.mk.inj hexec
    obtain rfl := Except.ok.inj hd
    refine ⟨?_, _, hlock'.note (u := .unprotected), hprofile⟩
    rw [copied, hbuf, wantPlainBytes_chunk hn, hlen, Nat.min_self, Nat.min_self,
      List.take_of_length_le hlen.le]
  · rintro e w' ⟨e', a', hexec, -, -⟩
    rw [hexec₁] at hexec
    cases (Prod.mk.inj hexec).1
  · have hsize := size_le file
    have hwithin := hpart.within
    have hne := hpart.ne_zero
    refine ⟨fileNo_le file, by rw [u24Max]; omega, ?_, by omega, .inr ?_⟩
    · rw [toNat_ofNat_chunk hn, u24Max]
      omega
    · rw [toNat_ofNat_chunk hn, hbuf]

/-- One APDU of a read with a MAC. -/
theorem wp_readMacOne (happ : app.Documented profile) (h : AtProfile P k profile c s w)
    (hpart : Offered c k .mac file offset.toNat n) (hn : n ≤ macReadChunk)
    (hbuf : buf.length = n) (hJ : J c) :
    (readDataMacOneApdu P file.fileNo offset (UInt32.ofNat n) buf).wp
      (Prog.Answers (Card.transmit P app)) (fun w => J (profile w.app))
      (Answered P k profile c file offset.toNat n buf)
      (fun (_ : Fault (SessionError E)) _ _ => False) s w := by
  have hI := h.invariant hJ
  have hlen := length_slice_contents hpart
  rw [macReadChunk] at hn
  obtain ⟨a, hlock, rfl⟩ := h
  obtain ⟨a₁, hexec₁, hprofile⟩ := hpart.performs happ (by omega)
  refine wp_readDataMacOneApdu (hpart.fileMode_eq happ) hlock hI ?_ ?_
    (fun hno => absurd (fun _ => hpart.headerFits) hno) ?_
  · intro d a' s' w' hexec hlock'
    rw [hexec₁] at hexec
    obtain ⟨hd, rfl⟩ := Prod.mk.inj hexec
    obtain rfl := Except.ok.inj hd
    exact ⟨by rw [hlen], _, hlock', hprofile⟩
  · rintro e s' w' ⟨e', a', hexec, -, -⟩
    rw [hexec₁] at hexec
    cases (Prod.mk.inj hexec).1
  · intro d a' e s' w' hexec hlong _
    rw [hexec₁] at hexec
    obtain rfl := Except.ok.inj (Prod.mk.inj hexec).1
    refine hlong ⟨?_, by omega, by rw [maxApduBody]; omega⟩
    rw [hbuf, wantPlainBytes_chunk (by omega), hlen]

/-- One APDU of an encrypted read. -/
theorem wp_readFullOne (hP : P.Lawful) (happ : app.Documented profile)
    (h : AtProfile P k profile c s w) (hpart : Offered c k .full file offset.toNat n)
    (hn : n ≤ fullReadChunk) (hbuf : buf.length = n) (hJ : J c) :
    (readDataFullOneApdu P file.fileNo offset (UInt32.ofNat n) buf).wp
      (Prog.Answers (Card.transmit P app)) (fun w => J (profile w.app))
      (Answered P k profile c file offset.toNat n buf)
      (fun (_ : Fault (SessionError E)) _ _ => False) s w := by
  have hI := h.invariant hJ
  have hlen := length_slice_contents hpart
  rw [fullReadChunk] at hn
  obtain ⟨a, hlock, rfl⟩ := h
  obtain ⟨a₁, hexec₁, hprofile⟩ := hpart.performs happ (by omega)
  refine wp_readDataFullOneApdu hP (hpart.fileMode_eq happ) hlock hI ?_ ?_
    (fun hno => absurd (fun _ => hpart.headerFits) hno) ?_
  · intro d a' s' w' hexec hlock'
    rw [hexec₁] at hexec
    obtain ⟨hd, rfl⟩ := Prod.mk.inj hexec
    obtain rfl := Except.ok.inj hd
    exact ⟨by rw [hlen], _, hlock', hprofile⟩
  · rintro e s' w' ⟨e', a', hexec, -, -⟩
    rw [hexec₁] at hexec
    cases (Prod.mk.inj hexec).1
  · intro d a' e s' w' hexec hother _
    rw [hexec₁] at hexec
    obtain rfl := Except.ok.inj (Prod.mk.inj hexec).1
    refine hother ⟨.inr ?_, by omega, ?_⟩
    · rw [hlen, toNat_ofNat_chunk (by omega)]
    · rw [length_m2Pad, maxApduBody, hlen]
      omega

/-- What is read of a file so far, in chunks. -/
def ReadUpTo (P : Primitives) {S A : Type} [LinkedSuite P S] (k : KeyNumber)
    (profile : A → Profile) (c : Profile) (file : File) (chunk offset length : ℕ)
    (buf : List UInt8) : ℕ → List UInt8 → Authenticated S → Card A → Prop :=
  ReadSoFar chunk (slice (c.contents file).toList) offset length buf (AtProfile P k profile c)

/-- The result of a read: the part of the file, in front of the buffer. -/
theorem ReadUpTo.done {mode : CommMode} {chunk : ℕ} (hchunk : 0 < chunk)
    (hall : Offered c k mode file offset.toNat length.toNat) {buf' : List UInt8}
    (h : ReadUpTo P k profile c file chunk offset.toNat length.toNat buf length.toNat buf' s w) :
    Answered P k profile c file offset.toNat length.toNat buf (length.toNat, buf') s w := by
  have hdone := ReadSoFar.done h le_rfl
  have hwithin : offset.toNat + length.toNat ≤ (c.contents file).toList.length := by
    rw [Bytes.length_toList]
    exact hall.within
  rw [received_slice hchunk hwithin, length_slice hwithin] at hdone
  exact ⟨hdone, h.kept⟩

/-- The next chunk of a read is offered as well. -/
theorem Offered.chunk {mode : CommMode} (hall : Offered c k mode file offset.toNat length.toNat)
    {chunk total : ℕ} (hchunk : 0 < chunk) (hlt : total < length.toNat) :
    (offset + UInt32.ofNat total).toNat = offset.toNat + total ∧
      Offered c k mode file (offset + UInt32.ofNat total).toNat
        (min (length.toNat - total) chunk) := by
  have hsize := size_le file
  have hwithin := hall.within
  have hposition : (offset + UInt32.ofNat total).toNat = offset.toNat + total :=
    toNat_add_ofNat (by omega)
  exact ⟨hposition, hall.mode_eq, hall.readable, by omega, by rw [hposition]; omega⟩

/-- A chunk that is answered is answered in full and continues the read. -/
theorem ReadUpTo.answered {mode : CommMode} {chunk total : ℕ} (hchunk : 0 < chunk)
    (hbuf : length.toNat ≤ buf.length) (hlt : total < length.toNat)
    (hall : Offered c k mode file offset.toNat length.toNat) {buf' : List UInt8}
    (h : ReadUpTo P k profile c file chunk offset.toNat length.toNat buf total buf' s w)
    {r : ℕ × List UInt8} {s' : Authenticated S} {w' : Card A}
    (hr : Answered P k profile c file (offset + UInt32.ofNat total).toNat
      (min (length.toNat - total) chunk) (slice buf' total (min (length.toNat - total) chunk))
      r s' w') :
    r.1 = min (length.toNat - total) chunk ∧
      ReadUpTo P k profile c file chunk offset.toNat length.toNat buf
        (total + min (length.toNat - total) chunk) (overlay buf' total r.2) s' w' := by
  obtain ⟨hposition, hpart⟩ := hall.chunk hchunk hlt
  obtain ⟨rfl, hat⟩ := hr
  have hlen := length_slice_contents hpart
  rw [hposition] at hlen ⊢
  have hnext := ReadSoFar.chunkRead (Q := fun _ _ _ => True) h hbuf hchunk hlt hlen.le hat trivial
  rw [ChunkRead, hlen, if_neg (Nat.lt_irrefl _)] at hnext
  exact hnext

/-- An answer in full. -/
theorem chunkRead_of_full {J : ℕ → List UInt8 → Authenticated S → Card A → Prop}
    {Q : ℕ × List UInt8 → Authenticated S → Card A → Prop} {total chunk : ℕ}
    {r : ℕ × List UInt8} (h : r.1 = chunk ∧ J (total + chunk) (overlay buf total r.2) s w) :
    ChunkRead J Q total chunk buf r s w := by
  rw [ChunkRead, if_neg (Nat.not_lt_of_le h.1.ge)]
  exact h

/-- **The command behind `read_file_with_mode`** in the mode of the file. -/
theorem wp_readCommand (hP : P.Lawful) (happ : app.Documented profile) {mode : CommMode}
    (h : AtProfile P k profile c s w) (hall : Offered c k mode file offset.toNat length.toNat)
    (hbuf : length.toNat ≤ buf.length) (hJ : J c) :
    (Session.readCommand P file offset length mode buf).wp (Prog.Answers (Card.transmit P app))
      (fun w => J (profile w.app)) (Answered P k profile c file offset.toNat length.toNat buf)
      (fun (_ : Fault (SessionError E)) _ _ => False) s w := by
  have hsize := size_le file
  have hwithin := hall.within
  have hne := hall.ne_zero
  have hlength : length ≠ 0 := fun hzero => hne (by rw [hzero]; rfl)
  have hrequest : Ntag424.Readable file.fileNo offset length buf.length := by
    refine ⟨fileNo_le file, ?_, ?_, by omega, .inr hbuf⟩
    · rw [u24Max]
      omega
    · rw [u24Max]
      omega
  have hslice : ∀ {chunk total : ℕ} {buf' : List UInt8} {s' : Authenticated S} {w' : Card A},
      ReadUpTo P k profile c file chunk offset.toNat length.toNat buf total buf' s' w' →
      total < length.toNat →
      (slice buf' total (min (length.toNat - total) chunk)).length =
        min (length.toNat - total) chunk := fun h' hlt => by
    have hlen := ReadSoFar.length_buf h' hbuf
    exact length_slice (by omega)
  cases mode with
  | plain =>
      have hchunk : 0 < plainReadChunk := by decide
      rw [Session.readCommand, readFilePlainChunked, if_neg hlength]
      refine wp_readFilePlainLoop
        (J := ReadUpTo P k profile c file plainReadChunk offset.toNat length.toNat buf)
        (fun _ _ _ _ h' => ?_) (fun _ _ _ h' => h'.done hchunk hall)
        (fun total buf' s' w' h' hlt => ?_) (.start h)
      · rwa [ReadSoFar.length_buf h' hbuf]
      · exact Script.wp_mono (wp_readPlainOne happ h'.kept (hall.chunk hchunk hlt).2
          (Nat.min_le_right ..) (hslice h' hlt) hJ)
          (fun _ _ _ hr => chunkRead_of_full (h'.answered hchunk hbuf hlt hall hr))
          fun _ _ _ he => he
  | mac =>
      have hchunk : 0 < macReadChunk := by decide
      simp only [Session.readCommand, readDataMac, Script.wp_bind, readTarget, if_neg hlength]
      refine wp_validateRequest ?_ fun _ hno _ => hno hrequest
      refine wp_readDataMacLoop P
        (J := ReadUpTo P k profile c file macReadChunk offset.toNat length.toNat buf)
        (fun _ _ _ _ h' => ?_) (fun _ _ _ h' => h'.done hchunk hall)
        (fun total buf' s' w' h' hlt => ?_) (.start h)
      · rwa [ReadSoFar.length_buf h' hbuf]
      · exact Script.wp_mono (wp_readMacOne happ h'.kept (hall.chunk hchunk hlt).2
          (Nat.min_le_right ..) (hslice h' hlt) hJ)
          (fun _ _ _ hr => chunkRead_of_full (h'.answered hchunk hbuf hlt hall hr))
          fun _ _ _ he => he
  | full =>
      have hchunk : 0 < fullReadChunk := by decide
      simp only [Session.readCommand, readDataFull, Script.wp_bind, readTarget, if_neg hlength]
      refine wp_validateRequest ?_ fun _ hno _ => hno hrequest
      refine wp_readDataFullLoop P
        (J := ReadUpTo P k profile c file fullReadChunk offset.toNat length.toNat buf)
        (fun _ _ _ _ h' => ?_) (fun _ _ _ h' => h'.done hchunk hall)
        (fun total buf' s' w' h' hlt => ?_) (.start h)
      · rwa [ReadSoFar.length_buf h' hbuf]
      · exact Script.wp_mono (wp_readFullOne hP happ h'.kept (hall.chunk hchunk hlt).2
          (Nat.min_le_right ..) (hslice h' hlt) hJ)
          (fun _ _ _ hr => h'.answered hchunk hbuf hlt hall hr) fun _ _ _ he => he

end AtProfile

end Ntag424
