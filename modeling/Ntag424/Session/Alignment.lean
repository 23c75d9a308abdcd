import Mathlib.Tactic.Common
import Ntag424.Lib.Raises
import Ntag424.Session.Buffers
import Ntag424.Session.Selection

/-!
# Block Alignment

`encrypt_command` and `decrypt_response` refuse a buffer that is not a positive number of blocks,
with an error that is meant never to be seen. Both suites refuse just these buffers, and every
command hands over whole blocks: padded data, prepared plaintexts, and answers whose length it
has checked. So the error is unreachable in every operation, whatever the tag answers.

## Main results

* `never_misaligned`: no public operation of any session returns `NotBlockAligned`.
-/

namespace Ntag424

open BlockMode SecureChannel

/-! ### Blocks -/

/-- A positive number of blocks. -/
def Blocks (buf : List UInt8) : Prop := buf ≠ [] ∧ buf.length % 16 = 0

/-- A buffer whose length is written as a positive multiple of sixteen is made of blocks. -/
theorem blocks_of_length {buf : List UInt8} {n : ℕ} (h : buf.length = 16 * (n + 1)) :
    Blocks buf := by
  refine ⟨List.length_pos_iff.mp (by omega), by omega⟩

/-- Padding completes the last block and adds one if there is none, so padded data is never
empty and never ends inside a block. -/
theorem blocks_m2Pad (data : List UInt8) : Blocks (m2Pad data) :=
  ⟨m2Pad_ne_nil data, length_m2Pad_mod data⟩

variable {E S σ β : Type}

/-- A fault that is not the error of a misaligned buffer. -/
def Aligned (f : Fault (SessionError E)) : Prop := ∀ n, f ≠ .error (.notBlockAligned n)

/-! ### Exchanges -/

/-- The transport and the reader of responses have errors of their own, none of which is that
of a misaligned buffer. -/
theorem raises_transmit (apdu : List UInt8) :
    (transmit apdu : Cmd E σ Response).Raises Aligned := by
  refine (Script.raises_request apdu).bind ?_
  rintro (e | resp)
  · exact Script.raises_fail nofun
  · exact Script.raises_pure resp

/-- An unexpected status is reported as the status it is. -/
theorem raises_transmitExpecting (status : ResponseStatus) (apdu : List UInt8) :
    (transmitExpecting status apdu : Cmd E σ Response).Raises Aligned := by
  refine (raises_transmit apdu).bind fun resp => ?_
  exact (Script.raises_require nofun).bind fun _ => Script.raises_pure resp

/-- An answer of another length than the expected one is reported with both lengths. -/
theorem raises_expectBytes (n : ℕ) (data : List UInt8) :
    (expectBytes n data : Cmd E σ (Bytes n)).Raises Aligned := by
  rw [expectBytes]
  cases Bytes.ofList? n data with
  | some bytes => exact Script.raises_pure bytes
  | none => exact Script.raises_fail (by rintro _ ⟨⟩)

/-- Errors of the settings codec are passed on as errors of the file settings. -/
theorem raises_liftSettings (r : Except FileSettingsError β) :
    (liftSettings r : Cmd E σ β).Raises Aligned := by
  cases r with
  | ok b => exact Script.raises_pure b
  | error e => exact Script.raises_fail nofun

/-! ### The channel -/

section Channel

variable (P : Primitives) [SessionSuite P S]

/-- Noting a use of the counter cannot fail. -/
theorem raises_note (u : CounterUse) : (note u : Cmd E (Authenticated S) Unit).Raises Aligned :=
  Script.raises_get.bind fun _ => Script.raises_set _

/-- Counting a command cannot fail. -/
theorem raises_advance : (advance : Cmd E (Authenticated S) Unit).Raises Aligned :=
  Script.raises_get.bind fun _ => Script.raises_set _

/-- Counting a command without a response MAC cannot fail either. -/
theorem raises_advanceCounter :
    (advanceCounter : Cmd E (Authenticated S) Unit).Raises Aligned :=
  (raises_note _).bind fun _ => raises_advance

/-- A command MAC is computed over bytes, not over blocks: only the assertion about the size of
the input can fail. -/
theorem raises_computeCmdMac (cmd : UInt8) (header data : List UInt8) :
    (computeCmdMac P cmd header data : Cmd E (Authenticated S) (Bytes 8)).Raises Aligned := by
  refine Script.raises_get.bind fun s => ?_
  refine (Script.raises_assert nofun).bind fun _ => ?_
  exact (raises_note _).bind fun _ => Script.raises_pure _

/-- **Whole blocks are encrypted**: the suite refuses only what is not a positive number of
blocks. -/
theorem raises_encryptCommand [WholeBlocks P S] {buf : List UInt8} (h : Blocks buf) :
    (encryptCommand P buf : Cmd E (Authenticated S) (List UInt8)).Raises Aligned := by
  refine Script.raises_get.bind fun s => ?_
  cases henc : SessionSuite.encrypt P s.suite .command s.ti s.cmdCounter buf with
  | none =>
      rcases WholeBlocks.encrypt_eq_none_iff.mp henc with hnil | hmod
      · exact absurd hnil h.1
      · exact absurd h.2 hmod
  | some r =>
      refine (Script.raises_set _).bind fun _ => ?_
      exact (raises_note _).bind fun _ => Script.raises_pure r.1

/-- **Whole blocks are decrypted**: the suite refuses only what is not a positive number of
blocks. -/
theorem raises_decryptResponse [WholeBlocks P S] {buf : List UInt8} (h : Blocks buf) :
    (decryptResponse P buf : Cmd E (Authenticated S) (List UInt8)).Raises Aligned := by
  refine Script.raises_get.bind fun s => ?_
  cases hdec : SessionSuite.decrypt P s.suite .response s.ti s.cmdCounter buf with
  | none =>
      rcases WholeBlocks.decrypt_eq_none_iff.mp hdec with hnil | hmod
      · exact absurd hnil h.1
      · exact absurd h.2 hmod
  | some r =>
      refine (Script.raises_set _).bind fun _ => ?_
      exact (raises_note _).bind fun _ => Script.raises_pure r.1

/-- Checking a response MAC decrypts nothing: it fails for a short answer, an answer that no
response holds, or a wrong MAC. -/
theorem raises_verifyResponse (rc : UInt8) (body : List UInt8) :
    (verifyResponseMacAndAdvance P rc body : Cmd E (Authenticated S) (List UInt8)).Raises
      Aligned := by
  refine (Script.raises_require nofun).bind fun _ => ?_
  refine Script.raises_get.bind fun s => ?_
  refine (Script.raises_assert nofun).bind fun _ => ?_
  refine (Script.raises_require nofun).bind fun _ => ?_
  refine (raises_note _).bind fun _ => ?_
  exact raises_advance.bind fun _ => Script.raises_pure _

/-- The length of the ciphertext is checked before it is decrypted. -/
theorem raises_decryptFullFixed [WholeBlocks P S] {ct k : ℕ} (hct : ct = 16 * (k + 1)) (p : ℕ)
    (rc : UInt8) (body : List UInt8) :
    (decryptFullFixed P ct p rc body : Cmd E (Authenticated S) (Bytes p)).Raises Aligned := by
  refine (raises_verifyResponse P rc body).bind fun ciphertext => ?_
  refine Script.Raises.require_bind nofun fun hlen => ?_
  refine (raises_decryptResponse P (blocks_of_length (hlen.trans hct))).bind fun buf => ?_
  exact (Script.raises_require nofun).bind fun _ => Script.raises_pure _

/-- A command under a MAC is sent in the clear, so its length does not matter to the suite. -/
theorem raises_transmitMac (ins p1 p2 : UInt8) (header data : List UInt8) :
    (transmitMac P ins p1 p2 header data : Cmd E (Authenticated S) Response).Raises Aligned :=
  (raises_computeCmdMac P ins header data).bind fun _ => raises_transmitExpecting _ _

/-- A command under a MAC with an answer under a MAC encrypts nothing in either direction. -/
theorem raises_sendMac (cmd p1 p2 : UInt8) (header data : List UInt8) :
    (sendMac P cmd p1 p2 header data : Cmd E (Authenticated S) (List UInt8)).Raises Aligned := by
  refine (Script.raises_require nofun).bind fun _ => ?_
  refine (raises_transmitMac P cmd p1 p2 header data).bind fun resp => ?_
  refine (raises_verifyResponse P resp.sw2 resp.data).bind fun plain => ?_
  exact (Script.raises_require nofun).bind fun _ => Script.raises_pure plain

/-- Padded data is encrypted, whatever the data: this is the only way a command of variable
length reaches the cipher. -/
theorem raises_transmitFull [WholeBlocks P S] (ins : UInt8) (header data : List UInt8) :
    (transmitFull P ins header data : Cmd E (Authenticated S) Response).Raises Aligned :=
  (raises_encryptCommand P (blocks_m2Pad data)).bind fun _ => raises_transmitMac P _ _ _ _ _

end Channel

/-! ### Commands -/

section Commands

variable (P : Primitives) [SessionSuite P S]

/-- The three frames of the version have fixed lengths and one MAC over all of them. -/
theorem raises_getVersionMac :
    (getVersionMac P : Cmd E (Authenticated S) Version).Raises Aligned := by
  have hpart (apdu : List UInt8) :
      (requestIntermediatePart apdu : Cmd E (Authenticated S) (Bytes 7)).Raises Aligned :=
    (raises_transmitExpecting _ apdu).bind fun resp => raises_expectBytes 7 resp.data
  refine (raises_computeCmdMac P _ _ _).bind fun mac => ?_
  refine Script.Raises.bind ?_ fun r => ?_
  · refine (hpart _).bind fun part1 => (hpart _).bind fun part2 => ?_
    exact (raises_transmitExpecting _ _).bind fun r3 => Script.raises_pure _
  · refine (Script.raises_require nofun).bind fun _ => ?_
    exact (raises_verifyResponse P _ _).bind fun _ => Script.raises_pure _

/-- The key version is a single byte, in the clear under a MAC. -/
theorem raises_getKeyVersion (keyNo : KeyNumber) :
    (getKeyVersion P keyNo : Cmd E (Authenticated S) UInt8).Raises Aligned := by
  refine (raises_sendMac P _ _ _ _ _).bind ?_
  rintro (_ | ⟨version, _ | _⟩)
  · exact Script.raises_fail nofun
  · exact Script.raises_pure version
  · exact Script.raises_fail nofun

/-- File settings are read in the clear under a MAC and then decoded. -/
theorem raises_getFileSettingsMac (fileNo : UInt8) :
    (getFileSettingsMac P fileNo : Cmd E (Authenticated S) FileSettingsView).Raises Aligned :=
  (raises_sendMac P _ _ _ _ _).bind fun _ => raises_liftSettings _

variable [WholeBlocks P S]

/-- Both prepared plaintexts of `ChangeKey` have two blocks. -/
theorem raises_transmitKey (keyNo : KeyNumber) {plaintext : List UInt8}
    (hlen : plaintext.length = 32) (expectMact : Bool) :
    (transmitKey P keyNo plaintext expectMact : Cmd E (Authenticated S) Unit).Raises Aligned := by
  refine (raises_encryptCommand P (blocks_of_length (n := 1) hlen)).bind fun ct => ?_
  refine (raises_transmitMac P _ _ _ _ _).bind fun resp => ?_
  cases expectMact with
  | true => exact (raises_verifyResponse P _ _).bind fun _ => Script.raises_pure ()
  | false => exact (Script.raises_require nofun).bind fun _ => raises_advanceCounter

/-- The plaintext for another key is key, version, checksum and padding: two blocks. -/
theorem raises_changeKey (keyNo : NonMasterKeyNumber) (newKey : Key) (newKeyVersion : UInt8)
    (oldKey : Key) :
    (changeKey P keyNo newKey newKeyVersion oldKey : Cmd E (Authenticated S) Unit).Raises
      Aligned :=
  raises_transmitKey P _ (by simp [changeKeyPlaintext, crc32]) true

/-- The plaintext for the master key has no checksum and more padding: two blocks again. -/
theorem raises_changeMasterKey (newKey : Key) (newKeyVersion : UInt8) :
    (changeMasterKey P newKey newKeyVersion : Cmd E (Authenticated S) Unit).Raises Aligned :=
  raises_transmitKey P _ (by simp [changeMasterKeyPlaintext]) false

/-- A command whose encrypted answer has a fixed number of blocks. -/
theorem raises_readFullFixed {ct k : ℕ} (hct : ct = 16 * (k + 1)) (ins : UInt8)
    (header : List UInt8) (p : ℕ) :
    (readFullFixed P ins header ct p : Cmd E (Authenticated S) (Bytes p)).Raises Aligned :=
  (raises_transmitMac P _ _ _ _ _).bind fun _ => raises_decryptFullFixed P hct p _ _

/-- The UID fills one block with its padding. -/
theorem raises_getCardUid : (getCardUid P : Cmd E (Authenticated S) (Bytes 7)).Raises Aligned :=
  raises_readFullFixed P (k := 0) rfl _ _ _

/-- The two status bytes of tag tamper fill one block with their padding. -/
theorem raises_getTtStatus :
    (getTtStatus P : Cmd E (Authenticated S) TagTamperStatusReadout).Raises Aligned :=
  (raises_readFullFixed P (k := 0) rfl _ _ _).bind fun _ => Script.raises_pure _

/-- The signature of 56 bytes fills four blocks with its padding. -/
theorem raises_readSigMac :
    (readSigMac P : Cmd E (Authenticated S) (Bytes signatureLen)).Raises Aligned := by
  refine (raises_computeCmdMac P _ _ _).bind fun mac => ?_
  refine (raises_transmit _).bind fun resp => ?_
  refine (Script.raises_require nofun).bind fun _ => ?_
  exact raises_decryptFullFixed P (k := 3) rfl _ _ _

/-- An answer is decrypted only if it is one block. The answer of a file whose counters are in
the clear is told by its length. -/
theorem raises_getFileCounters (fileNo : UInt8) :
    (getFileCounters P fileNo : Cmd E (Authenticated S) ℕ).Raises Aligned := by
  refine (raises_sendMac P _ _ _ _ _).bind fun resp => ?_
  by_cases hplain : resp.length = fileCountersLen
  · rw [if_pos hplain]
    exact Script.raises_pure _
  · rw [if_neg hplain]
    by_cases hblock : resp.length = 16
    · rw [if_pos hblock]
      refine (raises_decryptResponse P (blocks_of_length (n := 0) hblock)).bind fun ct => ?_
      exact (Script.raises_require nofun).bind fun _ => Script.raises_pure _
    · rw [if_neg hblock]
      exact Script.raises_fail nofun

/-- Every option is padded before it is encrypted, so their number and lengths do not matter. -/
theorem raises_setOptions (options : List (UInt8 × List UInt8)) :
    (setOptions P options : Cmd E (Authenticated S) Unit).Raises Aligned := by
  induction options with
  | nil => exact Script.raises_pure ()
  | cons option options ih =>
      refine Script.Raises.bind ?_ fun _ => ih
      refine (raises_transmitFull P _ _ _).bind fun resp => ?_
      by_cases hempty : resp.data = []
      · rw [if_pos hempty]
        exact raises_advanceCounter
      · rw [if_neg hempty]
        exact (raises_verifyResponse P _ _).bind fun _ => Script.raises_pure ()

/-- The encoded settings are padded before they are encrypted. -/
theorem raises_changeFileSettings (fileNo : UInt8) (settings : FileSettingsUpdate) :
    (changeFileSettings P fileNo settings : Cmd E (Authenticated S) Unit).Raises Aligned := by
  refine (raises_liftSettings _).bind fun raw => ?_
  refine (raises_transmitFull P _ _ _).bind fun resp => ?_
  exact (raises_verifyResponse P _ _).bind fun _ => Script.raises_pure ()

end Commands

/-! ### File data -/

section FileData

variable (P : Primitives) [SessionSuite P S]

/-- The file number and the offset are checked before anything is sent, with errors of their
own. -/
theorem raises_validateTarget (fileNo : UInt8) (offset : UInt32) :
    (validateTarget fileNo offset : Cmd E σ Unit).Raises Aligned :=
  (Script.raises_require nofun).bind fun _ => Script.raises_require nofun

/-- A read is checked against its buffer and the size of a length field, with errors of their
own. -/
theorem raises_validateRequest (fileNo : UInt8) (offset length : UInt32) (bufLen : ℕ) :
    (validateRequest fileNo offset length bufLen : Cmd E σ Unit).Raises Aligned := by
  refine (raises_validateTarget fileNo offset).bind fun _ => ?_
  refine (Script.raises_require nofun).bind fun _ => ?_
  exact (Script.raises_require nofun).bind fun _ => Script.raises_require nofun

/-- A write is checked against the size of its header fields, with errors of their own. -/
theorem raises_validateHeader (fileNo : UInt8) (offset : UInt32) (length : ℕ) :
    (validateHeader fileNo offset length : Cmd E σ Unit).Raises Aligned := by
  refine (raises_validateTarget fileNo offset).bind fun _ => ?_
  exact (Script.raises_require nofun).bind fun _ => Script.raises_require nofun

/-- A plain read copies the answer into the buffer. -/
theorem raises_readDataPlain (fileNo : UInt8) (offset length : UInt32) (buf : List UInt8) :
    (readDataPlain fileNo offset length buf : Cmd E σ (ℕ × List UInt8)).Raises Aligned := by
  refine (raises_validateRequest fileNo offset length _).bind fun _ => ?_
  exact (raises_transmitExpecting _ _).bind fun _ => Script.raises_pure _

/-- A plain read in chunks is plain reads and counted commands. -/
theorem raises_readFilePlainChunked (fileNo : UInt8) (offset length : UInt32) (buf : List UInt8) :
    (readFilePlainChunked fileNo offset length buf :
      Cmd E (Authenticated S) (ℕ × List UInt8)).Raises Aligned := by
  rw [readFilePlainChunked]
  split
  · refine (raises_readDataPlain fileNo offset length buf).bind fun r => ?_
    exact raises_advanceCounter.bind fun _ => Script.raises_pure r
  · exact fun s => wp_readFilePlainLoop_of (J := fun _ _ => True)
      (fun offset length buf s _ _ => raises_readDataPlain fileNo offset length buf s)
      (fun _ _ _ => by rintro _ ⟨⟩) _ _ _ _ trivial

/-- The header of a read is built, or an assertion of it fails. -/
theorem raises_buildReadHeader (fileNo : UInt8) (offset length : UInt32) :
    (buildReadHeader P fileNo offset length : Cmd E σ (List UInt8)).Raises Aligned :=
  (Script.raises_assert nofun).bind fun _ => Script.raises_pure _

/-- One chunk under a MAC is read in the clear: no cipher takes part. -/
theorem raises_readDataMacOneApdu (fileNo : UInt8) (offset length : UInt32) (buf : List UInt8) :
    (readDataMacOneApdu P fileNo offset length buf :
      Cmd E (Authenticated S) (ℕ × List UInt8)).Raises Aligned := by
  refine (raises_buildReadHeader P fileNo offset length).bind fun header => ?_
  refine (raises_transmitMac P _ _ _ header _).bind fun resp => ?_
  refine (raises_verifyResponse P _ _).bind fun data => ?_
  refine (Script.raises_require nofun).bind fun _ => ?_
  exact (Script.raises_assert nofun).bind fun _ => Script.raises_pure _

/-- A read under a MAC repeats the read of one chunk until the buffer is full. -/
theorem raises_readDataMac (fileNo : UInt8) (offset length : UInt32) (buf : List UInt8) :
    (readDataMac P fileNo offset length buf :
      Cmd E (Authenticated S) (ℕ × List UInt8)).Raises Aligned :=
  (raises_validateRequest fileNo offset length _).bind fun _ _ =>
    wp_readDataMacLoop_of P (J := fun _ _ => True)
      (fun offset length buf s _ _ => raises_readDataMacOneApdu P fileNo offset length buf s)
      (fun _ _ _ => nofun) _ _ _ trivial

/-- A loop of writes that each stay aligned stays aligned, by the rule of the loop. -/
theorem raises_writeLoop {chunk : ℕ} {one : UInt32 → List UInt8 → Cmd E σ Unit}
    (hone : ∀ offset data, (one offset data).Raises Aligned) (offset : UInt32)
    (data : List UInt8) : (writeLoop chunk one offset data).Raises Aligned :=
  fun _ => wp_writeLoop_of (J := fun _ _ => True)
    (fun offset part t _ _ _ _ => hone offset part t) offset trivial

/-- A plain write sends its chunks in the clear and counts them. -/
theorem raises_writeFilePlainChunked (fileNo : UInt8) (offset : UInt32) (data : List UInt8) :
    (writeFilePlainChunked fileNo offset data : Cmd E (Authenticated S) Unit).Raises Aligned := by
  refine (Script.raises_require nofun).bind fun _ => raises_writeLoop (fun offset data => ?_) _ _
  refine Script.Raises.bind ?_ fun _ => raises_advanceCounter
  refine (raises_validateHeader fileNo offset _).bind fun _ => ?_
  refine (Script.raises_require nofun).bind fun _ => ?_
  exact (raises_transmitExpecting _ _).bind fun _ => Script.raises_pure ()

/-- The header of a write is built, or an assertion of it fails. -/
theorem raises_buildWriteHeader (fileNo : UInt8) (offset length : UInt32) :
    (buildWriteHeader P fileNo offset length : Cmd E σ (List UInt8)).Raises Aligned :=
  (Script.raises_assert nofun).bind fun _ => Script.raises_pure _

/-- A write under a MAC sends its chunks in the clear. -/
theorem raises_writeDataMac (fileNo : UInt8) (offset : UInt32) (data : List UInt8) :
    (writeDataMac P fileNo offset data : Cmd E (Authenticated S) Unit).Raises Aligned := by
  refine (raises_validateHeader fileNo offset _).bind fun _ => ?_
  refine raises_writeLoop (fun offset data => ?_) offset data
  refine (raises_buildWriteHeader P _ _ _).bind fun header => ?_
  exact (raises_sendMac P _ _ _ header _).bind fun _ => Script.raises_require nofun

variable [WholeBlocks P S]

/-- The length of the answer is checked before it is decrypted, so an answer that is empty or
ends inside a block is reported as what it is. -/
theorem raises_readDataFullOneApdu (fileNo : UInt8) (offset length : UInt32) (buf : List UInt8) :
    (readDataFullOneApdu P fileNo offset length buf :
      Cmd E (Authenticated S) (ℕ × List UInt8)).Raises Aligned := by
  refine (raises_buildReadHeader P fileNo offset length).bind fun header => ?_
  refine (raises_transmitMac P _ _ _ header _).bind fun resp => ?_
  refine (raises_verifyResponse P _ _).bind fun ciphertext => ?_
  refine Script.Raises.require_bind nofun fun hlen => ?_
  refine (Script.raises_assert nofun).bind fun _ => ?_
  have hblocks : Blocks ciphertext := by
    refine ⟨?_, hlen.2⟩
    rintro rfl
    exact hlen.1 rfl
  refine (raises_decryptResponse P hblocks).bind fun scratch => ?_
  cases stripM2Padding scratch with
  | none => exact Script.raises_fail nofun
  | some padStart =>
      refine (Script.raises_require nofun).bind fun _ => ?_
      exact (Script.raises_require nofun).bind fun _ => Script.raises_pure _

/-- An encrypted read repeats the read of one chunk until the buffer is full. -/
theorem raises_readDataFull (fileNo : UInt8) (offset length : UInt32) (buf : List UInt8) :
    (readDataFull P fileNo offset length buf :
      Cmd E (Authenticated S) (ℕ × List UInt8)).Raises Aligned :=
  (raises_validateRequest fileNo offset length _).bind fun _ _ =>
    wp_readDataFullLoop_of P (J := fun _ _ => True)
      (fun offset length buf s _ _ => raises_readDataFullOneApdu P fileNo offset length buf s)
      (fun _ _ _ => nofun) _ _ _ trivial

/-- An encrypted write pads each chunk by itself. -/
theorem raises_writeDataFull (fileNo : UInt8) (offset : UInt32) (data : List UInt8) :
    (writeDataFull P fileNo offset data : Cmd E (Authenticated S) Unit).Raises Aligned := by
  refine (raises_validateHeader fileNo offset _).bind fun _ => ?_
  refine raises_writeLoop (fun offset data => ?_) offset data
  refine (raises_buildWriteHeader P _ _ _).bind fun header => ?_
  refine (Script.raises_require nofun).bind fun _ => ?_
  refine (raises_transmitFull P _ header _).bind fun resp => ?_
  exact (raises_verifyResponse P _ _).bind fun _ => Script.raises_pure ()

end FileData

/-! ### Handshakes -/

section Handshakes

variable (P : Primitives)

/-- An AES re-authentication works on randoms of one block, and on the fixed lengths of its
answers. -/
theorem raises_aesNonFirst (keyNo : KeyNumber) (key : Key) (rndA : Bytes 16) :
    (AesSuite.authenticateEv2NonFirst P keyNo key rndA : Cmd E σ AesSuite).Raises Aligned := by
  refine (raises_transmitExpecting _ _).bind fun r1 => ?_
  refine (raises_expectBytes 16 r1.data).bind fun rndBEnc => ?_
  refine (raises_transmitExpecting _ _).bind fun r2 => ?_
  refine (raises_expectBytes 16 r2.data).bind fun enc => ?_
  exact (Script.raises_require nofun).bind fun _ => Script.raises_pure _

/-- A first AES authentication works on one block and on an answer of two. -/
theorem raises_aesFirst (keyNo : KeyNumber) (key : Key) (rndA : Bytes 16) :
    (AesSuite.authenticateEv2First P keyNo key rndA :
      Cmd E σ (AuthResult AesSuite)).Raises Aligned := by
  refine (raises_transmitExpecting _ _).bind fun r1 => ?_
  refine (raises_expectBytes 16 r1.data).bind fun rndBEnc => ?_
  refine (raises_transmitExpecting _ _).bind fun r2 => ?_
  refine (raises_expectBytes 32 r2.data).bind fun enc => ?_
  exact (Script.raises_require nofun).bind fun _ => Script.raises_pure _

/-- The challenge of LRP mode is in the clear: a mode byte and the random of the tag. -/
theorem raises_expectRndB (data : List UInt8) :
    (LrpSuite.expectRndB data : Cmd E σ (Bytes 16)).Raises Aligned := by
  refine (Script.raises_require nofun).bind fun _ => ?_
  exact (Script.raises_require nofun).bind fun _ => Script.raises_pure _

/-- An LRP re-authentication exchanges MACs and encrypts nothing. -/
theorem raises_lrpNonFirst (keyNo : KeyNumber) (key : Key) (rndA : Bytes 16) :
    (LrpSuite.authenticateEv2NonFirst P keyNo key rndA : Cmd E σ LrpSuite).Raises Aligned := by
  refine (raises_transmitExpecting _ _).bind fun r1 => ?_
  refine (raises_expectRndB r1.data).bind fun rndB => ?_
  refine (raises_transmitExpecting _ _).bind fun r2 => ?_
  refine (raises_expectBytes 16 r2.data).bind fun piccResponse => ?_
  exact (Script.raises_require nofun).bind fun _ => Script.raises_pure _

/-- A first LRP authentication decrypts the first half of an answer of two blocks, without an
error of its own. -/
theorem raises_lrpFirst (keyNo : KeyNumber) (key : Key) (rndA : Bytes 16) :
    (LrpSuite.authenticateEv2First P keyNo key rndA :
      Cmd E σ (AuthResult LrpSuite)).Raises Aligned := by
  refine (raises_transmitExpecting _ _).bind fun r1 => ?_
  refine (raises_expectRndB r1.data).bind fun rndB => ?_
  refine (raises_transmitExpecting _ _).bind fun r2 => ?_
  refine (raises_expectBytes 32 r2.data).bind fun data2 => ?_
  refine (Script.raises_require nofun).bind fun _ => ?_
  exact (Script.raises_require nofun).bind fun _ => Script.raises_pure _

end Handshakes

/-! ### Operations of an authenticated session -/

section Session

variable (P : Primitives)

/-- A command that consumes the session ends as the command does. -/
theorem raises_consume {cmd : Cmd E (Authenticated S) β} (h : cmd.Raises Aligned)
    (session : Session (Authenticated S)) : (session.consume cmd).Raises Aligned :=
  (h.on session.state).bind fun _ => Script.raises_pure _

/-- The same for a command without a value. -/
theorem raises_consumeUnit {cmd : Cmd E (Authenticated S) Unit} (h : cmd.Raises Aligned)
    (session : Session (Authenticated S)) : (session.consumeUnit cmd).Raises Aligned :=
  (raises_consume h session).bind fun _ => Script.raises_pure _

/-- A command that borrows the session ends as the command does. -/
theorem raises_borrow {cmd : Cmd E (Authenticated S) β} (h : cmd.Raises Aligned) :
    (Session.borrow cmd).Raises Aligned :=
  Script.Raises.zoom h

/-- An operation whose end is not the error of a misaligned buffer. -/
def EndsAligned {γ : Type} (op : Task E (Except (SessionError E) Unit × γ)) : Prop :=
  op.wp (fun _ (_ : Unit) _ _ => True) (fun _ => True)
    (fun r _ _ => ∀ n, r.1 ≠ .error (.notBlockAligned n)) (fun _ _ _ => True) () ()

/-- An aligned error, as a value. -/
theorem Aligned.value {γ : Type} {e : SessionError E} (h : Aligned (.error e)) (n : ℕ) :
    (.error e : Except (SessionError E) γ) ≠ .error (.notBlockAligned n) := by
  intro heq
  exact h n (congrArg Fault.error (Except.error.inj heq))

/-- An operation that consumes the session hands back its error as a value. The value is not
the error of a misaligned buffer if the operation never ends in that error. -/
theorem endsAligned_consuming {op : Task E (Session (Authenticated S))}
    (h : op.Raises Aligned) : EndsAligned (SessionOp.consuming op) := by
  refine Script.wp_bind.mpr (Script.wp_attempt.mpr (Script.wp_mono (h ()) ?_ ?_))
  · exact fun session _ _ _ => Script.wp_pure.mpr nofun
  · rintro (e | _) _ _ he
    · exact Script.wp_pure.mpr he.value
    · trivial

/-- The same for an operation that drops the value of its command. -/
theorem endsAligned_consumingValue {cmd : Cmd E (Authenticated S) β} (h : cmd.Raises Aligned)
    (session : Session (Authenticated S)) :
    EndsAligned (SessionOp.consuming (SessionOp.dropValue (session.consume cmd))) :=
  endsAligned_consuming ((raises_consume h session).bind fun _ => Script.raises_pure _)

/-- An operation that borrows the session hands back its error beside the session. -/
theorem endsAligned_borrowing {op : Cmd E (Session (Authenticated S)) β}
    (h : op.Raises Aligned) (session : Session (Authenticated S)) :
    EndsAligned (SessionOp.borrowing op session) := by
  refine Script.wp_bind.mpr (Script.wp_on.mpr (Script.wp_attempt.mpr
    (Script.wp_mono (h session) ?_ ?_)))
  · exact fun b _ _ _ => Script.wp_pure.mpr nofun
  · rintro (e | _) _ _ he
    · exact Script.wp_pure.mpr he.value
    · trivial

variable [SessionSuite P S] [WholeBlocks P S]

/-- A read with an explicit mode is one of the three reads. -/
theorem raises_readCommand (file : File) (offset length : UInt32) (mode : CommMode)
    (buf : List UInt8) :
    (Session.readCommand P file offset length mode buf :
      Cmd E (Authenticated S) (ℕ × List UInt8)).Raises Aligned := by
  cases mode with
  | plain => exact raises_readFilePlainChunked _ offset length buf
  | mac => exact raises_readDataMac P _ offset length buf
  | full => exact raises_readDataFull P _ offset length buf

/-- A write with an explicit mode is one of the three writes. -/
theorem raises_writeCommand (file : File) (offset : UInt32) (data : List UInt8)
    (mode : CommMode) :
    (Session.writeCommand P file offset data mode : Cmd E (Authenticated S) Unit).Raises
      Aligned := by
  cases mode with
  | plain => exact raises_writeFilePlainChunked _ offset data
  | mac => exact raises_writeDataMac P _ offset data
  | full => exact raises_writeDataFull P _ offset data

/-- The check of the signature comes after the last exchange and has errors of its own. -/
theorem raises_verifyOriginality
    (verify : Bytes signatureLen → Bytes 7 → Except OriginalityError Unit)
    (session : Session (Authenticated S)) (uid : Bytes 7) :
    (session.verifyOriginality (E := E) P verify uid).Raises Aligned := by
  refine (raises_consume (raises_readSigMac P) session).bind fun r => ?_
  dsimp only
  cases verify r.1 uid with
  | ok _ => exact Script.raises_pure _
  | error e => exact Script.raises_fail nofun

end Session

section Perform

variable (P : Primitives) [HandshakeSuite P S]
  (hhandshake : ∀ keyNo key rndA,
    (HandshakeSuite.authenticateEv2NonFirst P keyNo key rndA : Task E S).Raises Aligned)

include hhandshake in
/-- A re-authentication ends as the handshake of its suite does. -/
theorem raises_authenticate (session : Session (Authenticated S)) (keyNo : KeyNumber) (key : Key)
    (rndA : Bytes 16) : (session.authenticate (E := E) P keyNo key rndA).Raises Aligned :=
  (hhandshake keyNo key rndA).bind fun _ => Script.raises_pure _

include hhandshake in
/-- **Every operation of a session** whose suite refuses only misaligned buffers. -/
theorem endsAligned_perform [WholeBlocks P S]
    (verify : Bytes signatureLen → Bytes 7 → Except OriginalityError Unit) (op : SessionOp)
    (session : Session (Authenticated S)) : EndsAligned (E := E) (op.perform P verify session) := by
  cases op with
  | getVersion => exact endsAligned_consumingValue (raises_getVersionMac P) session
  | changeKey keyNo newKey newKeyVersion oldKey =>
      exact endsAligned_consuming
        (raises_consumeUnit (raises_changeKey P keyNo newKey newKeyVersion oldKey) session)
  | getUid => exact endsAligned_consumingValue (raises_getCardUid P) session
  | getKeyVersion keyNo => exact endsAligned_consumingValue (raises_getKeyVersion P keyNo) session
  | getFileSettings file =>
      exact endsAligned_consumingValue (raises_getFileSettingsMac P file.fileNo) session
  | changeFileSettings file settings =>
      exact endsAligned_consuming
        (raises_consumeUnit (raises_changeFileSettings P file.fileNo settings) session)
  | getFileCounters file =>
      exact endsAligned_consumingValue (raises_getFileCounters P file.fileNo) session
  | getTtStatus => exact endsAligned_consumingValue (raises_getTtStatus P) session
  | setConfiguration configuration =>
      exact endsAligned_consuming
        (raises_consumeUnit (raises_setOptions P configuration.build) session)
  | verifyOriginality uid =>
      exact endsAligned_consuming
        ((raises_verifyOriginality P verify session uid).bind fun _ => Script.raises_pure _)
  | readFilePlain file offset length buf =>
      exact endsAligned_borrowing
        (raises_borrow (raises_readFilePlainChunked file.fileNo offset length buf)) session
  | writeFilePlain file offset data =>
      exact endsAligned_borrowing
        (raises_borrow (raises_writeFilePlainChunked file.fileNo offset data)) session
  | readFileWithMode file offset length mode buf =>
      exact endsAligned_consumingValue (raises_readCommand P file offset length mode buf) session
  | writeFileWithMode file offset data mode =>
      exact endsAligned_consuming
        (raises_consumeUnit (raises_writeCommand P file offset data mode) session)
  | readFile file offset length buf =>
      refine endsAligned_consuming (Script.Raises.bind ?_ fun _ => Script.raises_pure _)
      refine (raises_consume (raises_getFileSettingsMac P file.fileNo) session).bind fun r => ?_
      exact raises_consume (raises_readCommand P file offset length _ buf) r.2
  | writeFile file offset data =>
      refine endsAligned_consuming ?_
      refine (raises_consume (raises_getFileSettingsMac P file.fileNo) session).bind fun r => ?_
      exact raises_consumeUnit (raises_writeCommand P file offset data _) r.2
  | authenticate keyNo key rndA =>
      exact endsAligned_consuming (raises_authenticate P hhandshake session keyNo key rndA)

end Perform

/-! ### Operations of a session of either suite -/

section Encrypted

variable (P : Primitives)

/-- An operation on a session of either suite stays aligned if it does on both. -/
theorem raises_dispatchValue
    {f : (S : Type) → [HandshakeSuite P S] → Session (Authenticated S) →
      Task E (β × Session (Authenticated S))}
    (haes : ∀ session, (f AesSuite session).Raises Aligned)
    (hlrp : ∀ session, (f LrpSuite session).Raises Aligned) (session : EncryptedSession) :
    (session.dispatchValue P f).Raises Aligned := by
  cases session with
  | aes session => exact (haes session).bind fun _ => Script.raises_pure _
  | lrp session => exact (hlrp session).bind fun _ => Script.raises_pure _

/-- Both suites have an aligned handshake, so a session of either re-authenticates aligned. -/
theorem raises_authenticateEncrypted (session : EncryptedSession) (keyNo : KeyNumber) (key : Key)
    (rndA : Bytes 16) : (session.authenticate (E := E) P keyNo key rndA).Raises Aligned := by
  cases session with
  | aes session =>
      exact (raises_authenticate P (raises_aesNonFirst P) session keyNo key rndA).bind
        fun _ => Script.raises_pure _
  | lrp session =>
      exact (raises_authenticate P (raises_lrpNonFirst P) session keyNo key rndA).bind
        fun _ => Script.raises_pure _

/-- Changing the master key ends a session of either suite without the error. -/
theorem raises_changeMasterKeyEncrypted (session : EncryptedSession) (newKey : Key)
    (newKeyVersion : UInt8) :
    (session.changeMasterKey (E := E) P newKey newKeyVersion).Raises Aligned := by
  cases session with
  | aes session =>
      exact (raises_consumeUnit (raises_changeMasterKey P newKey newKeyVersion) session).bind
        fun _ => Script.raises_pure _
  | lrp session =>
      exact (raises_consumeUnit (raises_changeMasterKey P newKey newKeyVersion) session).bind
        fun _ => Script.raises_pure _

/-- Enabling LRP mode sets one option and leaves the AES session. -/
theorem raises_enableLrp (session : Session (Authenticated AesSuite)) :
    (Session.enableLrp (E := E) P session).Raises Aligned :=
  (raises_consume (raises_setOptions P _) session).bind fun _ => Script.raises_pure _

end Encrypted

/-! ### Operations of an unauthenticated session -/

section Unauthenticated

variable (P : Primitives)

/-- An ISO command without an answer is sent in the clear and reports its status. -/
theorem raises_isoStatus (apdu : List UInt8) :
    (do
      let resp ← transmit apdu
      Script.require (isoStatus resp.sw1 resp.sw2 = .normalProcessing)
        (.errorResponse (isoStatus resp.sw1 resp.sw2)) : Cmd E σ Unit).Raises Aligned :=
  (raises_transmit apdu).bind fun _ => Script.raises_require nofun

/-- The application is selected once, by an ISO command in the clear. -/
theorem raises_selectNdefApplication :
    (Session.selectNdefApplication : Cmd E (Session Unauthenticated) Unit).Raises Aligned := by
  refine Script.raises_get.bind fun session => ?_
  split
  · exact Script.raises_pure ()
  · exact (raises_isoStatus _).bind fun _ => Script.raises_set _

/-- A file is selected once, by an ISO command in the clear. -/
theorem raises_selectFile (file : File) :
    (Session.selectFile file : Cmd E (Session Unauthenticated) Unit).Raises Aligned := by
  refine raises_selectNdefApplication.bind fun _ => ?_
  refine Script.raises_get.bind fun session => ?_
  split
  · exact Script.raises_pure ()
  · exact (raises_isoStatus _).bind fun _ => Script.raises_set _

/-- The parameters of an ISO command are refused if the offset does not fit them. -/
theorem raises_isoAddress (shortFileId : Option UInt8) (offset : UInt16) :
    (isoAddress shortFileId offset : Cmd E σ (UInt8 × UInt8)).Raises Aligned := by
  cases shortFileId with
  | some sfid =>
      refine (Script.raises_require nofun).bind fun _ => ?_
      exact (Script.raises_require nofun).bind fun _ => Script.raises_pure _
  | none => exact (Script.raises_require nofun).bind fun _ => Script.raises_pure _

/-- An ISO read copies the answer into the buffer. -/
theorem raises_isoReadBinary (shortFileId : Option UInt8) (offset : UInt16) (buf : List UInt8) :
    (isoReadBinary shortFileId offset buf : Cmd E σ (ℕ × List UInt8)).Raises Aligned := by
  refine (Script.raises_require nofun).bind fun _ => ?_
  refine (raises_isoAddress shortFileId offset).bind fun address => ?_
  refine (raises_transmit _).bind fun resp => ?_
  refine (Script.raises_require nofun).bind fun _ => ?_
  exact (Script.raises_require nofun).bind fun _ => Script.raises_pure _

/-- An ISO write sends its data in the clear. -/
theorem raises_isoUpdateBinary (shortFileId : Option UInt8) (offset : UInt16)
    (data : List UInt8) :
    (isoUpdateBinary shortFileId offset data : Cmd E σ Unit).Raises Aligned := by
  refine (Script.raises_require nofun).bind fun _ => ?_
  refine (Script.raises_require nofun).bind fun _ => ?_
  exact (raises_isoAddress shortFileId offset).bind fun _ => raises_isoStatus _

/-- A file that fits one answer is read by one ISO read, a longer one by a loop of them. -/
theorem raises_readFileUnauthenticated (file : File) (offset : UInt16) (buf : List UInt8) :
    (Session.readFileUnauthenticated file offset buf :
      Cmd E (Session Unauthenticated) (ℕ × List UInt8)).Raises Aligned := by
  refine (raises_selectFile file).bind fun _ => ?_
  split
  · exact raises_isoReadBinary _ _ _
  · intro t
    refine wp_readUnauthenticatedLoop (J := fun _ _ _ _ => True) (fun _ _ _ _ _ _ => trivial)
      (fun _ _ _ _ _ _ _ => by nofun) (fun total buf t _ _ _ _ => ?_) 0 buf trivial
    refine Script.wp_mono (raises_isoReadBinary none _ _ t) (fun r _ _ _ => ?_) fun _ _ _ h => h
    split <;> trivial

/-- A file is written by one ISO write or by a loop of them. -/
theorem raises_writeFileUnauthenticated (file : File) (offset : UInt16) (data : List UInt8) :
    (Session.writeFileUnauthenticated file offset data :
      Cmd E (Session Unauthenticated) Unit).Raises Aligned := by
  refine (raises_selectFile file).bind fun _ => ?_
  split
  · exact raises_isoUpdateBinary _ _ _
  · intro t
    exact wp_writeUnauthenticatedLoop (J := fun _ _ _ => True) (fun _ _ _ _ _ => trivial)
      (fun _ _ _ _ _ _ => by nofun) (fun _ t _ _ _ _ => raises_isoUpdateBinary none _ _ t) 0 trivial

/-- The version outside a session has three frames of fixed lengths. -/
theorem raises_getVersionPlain : (getVersionPlain : Cmd E σ Version).Raises Aligned := by
  have hpart (apdu : List UInt8) :
      (requestIntermediatePart apdu : Cmd E σ (Bytes 7)).Raises Aligned :=
    (raises_transmitExpecting _ apdu).bind fun resp => raises_expectBytes 7 resp.data
  refine Script.Raises.bind ?_ fun r => ?_
  · refine (hpart _).bind fun part1 => (hpart _).bind fun part2 => ?_
    exact (raises_transmitExpecting _ _).bind fun r3 => Script.raises_pure _
  · refine Script.Raises.bind ?_ fun part3 => Script.raises_pure _
    exact (Script.raises_require nofun).bind fun _ => Script.raises_pure _

/-- File settings outside a session are decoded from a plain answer. -/
theorem raises_getFileSettingsUnauthenticated (file : File) :
    (Session.getFileSettingsUnauthenticated file :
      Cmd E (Session Unauthenticated) FileSettingsView).Raises Aligned := by
  refine raises_selectNdefApplication.bind fun _ => ?_
  exact (raises_transmitExpecting _ _).bind fun _ => raises_liftSettings _

/-- The signature outside a session is in the clear and has a fixed length. -/
theorem raises_verifyOriginalityUnauthenticated
    (verify : Bytes signatureLen → Bytes 7 → Except OriginalityError Unit) (uid : Bytes 7) :
    (Session.verifyOriginalityUnauthenticated verify uid :
      Cmd E (Session Unauthenticated) (Bytes signatureLen)).Raises Aligned := by
  refine Script.Raises.bind ?_ fun sig => ?_
  · refine (raises_transmit _).bind fun resp => ?_
    exact (Script.raises_require nofun).bind fun _ => raises_expectBytes _ _
  · cases verify sig uid with
    | ok _ => exact Script.raises_pure sig
    | error e => exact Script.raises_fail nofun

/-- Opening an AES session selects the application and authenticates. -/
theorem raises_authenticateAes (session : Session Unauthenticated) (keyNo : KeyNumber) (key : Key)
    (rndA : Bytes 16) :
    (Session.authenticateAes (E := E) P session keyNo key rndA).Raises Aligned := by
  refine (raises_selectNdefApplication.on session).bind fun r => ?_
  exact (raises_aesFirst P keyNo key rndA).bind fun _ => Script.raises_pure _

/-- Opening an LRP session selects the application and authenticates. -/
theorem raises_authenticateLrp (session : Session Unauthenticated) (keyNo : KeyNumber) (key : Key)
    (rndA : Bytes 16) :
    (Session.authenticateLrp (E := E) P session keyNo key rndA).Raises Aligned := by
  refine (raises_selectNdefApplication.on session).bind fun r => ?_
  exact (raises_lrpFirst P keyNo key rndA).bind fun _ => Script.raises_pure _

/-! ### The check of the factory state -/

/-- A failed check of the factory state is reported as such, so it hides every other error of
its part. -/
theorem raises_orNotFactoryState {m : Cmd E σ β} (hm : m.Raises Aligned) (what : String) :
    (orNotFactoryState what m).Raises Aligned :=
  hm.attempt_bind (fun b => Script.raises_pure b) fun _ _ => Script.raises_fail nofun

/-- The check reads a whole file into a buffer of its size. -/
theorem raises_readInto (file : File) (buf : List UInt8) :
    (readInto file buf : Cmd E (Session Unauthenticated) (List UInt8)).Raises Aligned :=
  (raises_readFileUnauthenticated file 0 _).bind fun _ => Script.raises_pure _

/-- The first part of the check reads two files and the version, in the clear. -/
theorem raises_checkContents :
    (checkContents : Cmd E (Session Unauthenticated) (Version × List UInt8)).Raises Aligned := by
  refine Script.Raises.bind ?_ fun r => Script.Raises.bind ?_ fun _ => Script.raises_pure _
  · refine (raises_orNotFactoryState (raises_readInto _ _) _).bind fun buf => ?_
    refine (Script.raises_require nofun).bind fun _ => ?_
    refine raises_getVersionPlain.bind fun version => ?_
    exact (Script.raises_require nofun).bind fun _ => Script.raises_pure _
  · refine (raises_orNotFactoryState (raises_readInto _ _) _).bind fun buf => ?_
    exact (Script.raises_require nofun).bind fun _ => Script.raises_pure _

/-- The check tries an AES session before an LRP session. -/
theorem raises_authenticateMaster (rnd : ℕ → Bytes 16) :
    (authenticateMaster (E := E) P rnd).Raises Aligned := by
  refine (raises_authenticateAes P _ _ _ _).attempt_bind (fun s => Script.raises_pure _)
    fun _ _ => ?_
  exact (raises_orNotFactoryState (raises_authenticateLrp P _ _ _ _) _).bind
    fun _ => Script.raises_pure _

/-- A session of either suite reads file settings aligned. -/
theorem raises_getFileSettingsEncrypted (session : EncryptedSession) (file : File) :
    (session.getFileSettings (E := E) P file).Raises Aligned :=
  raises_dispatchValue P (raises_consume (raises_getFileSettingsMac P _))
    (raises_consume (raises_getFileSettingsMac P _)) session

/-- The check reads the settings of one file after the other, by induction on the files. -/
theorem raises_checkSettings (files : List File) (session : EncryptedSession) :
    (checkSettings (E := E) P files session).Raises Aligned := by
  induction files generalizing session with
  | nil => exact Script.raises_pure session
  | cons file files ih =>
      refine (raises_orNotFactoryState
        (raises_getFileSettingsEncrypted P session file) _).bind fun r => ?_
      exact (Script.raises_require nofun).bind fun _ => ih r.2

/-- The check authenticates with one key after the other, by induction on the keys. -/
theorem raises_checkKeys (rnd : ℕ → Bytes 16) (keys : List KeyNumber) (n : ℕ)
    (session : EncryptedSession) : (checkKeys (E := E) P rnd keys n session).Raises Aligned := by
  induction keys generalizing n session with
  | nil => exact Script.raises_pure ()
  | cons keyNo keys ih =>
      exact (raises_orNotFactoryState
        (raises_authenticateEncrypted P session _ _ _) _).bind fun s => ih (n + 1) s

/-- The tamper status is read only of a tag that has one. -/
theorem raises_readTagTamper (version : Version) (session : EncryptedSession) :
    (readTagTamper (E := E) P version session).Raises Aligned := by
  rw [readTagTamper]
  split
  · refine (raises_orNotFactoryState ?_ _).bind fun _ => Script.raises_pure _
    exact raises_dispatchValue P (raises_consume (raises_getTtStatus P))
      (raises_consume (raises_getTtStatus P)) session
  · exact Script.raises_pure _

variable (verify : Bytes signatureLen → Bytes 7 → Except OriginalityError Unit)

/-- A session of either suite verifies the signature aligned. -/
theorem raises_verifyOriginalityEncrypted (session : EncryptedSession) (uid : Bytes 7) :
    (session.verifyOriginality (E := E) P verify uid).Raises Aligned :=
  raises_dispatchValue P
    (fun s => (raises_verifyOriginality P verify s uid).bind fun _ => Script.raises_pure _)
    (fun s => (raises_verifyOriginality P verify s uid).bind fun _ => Script.raises_pure _) session

/-- The second part of the check strings together sessions, settings, signature, file and keys,
none of which ends in the error. -/
theorem raises_checkAuthenticated (rnd : ℕ → Bytes 16) (version : Version) (buf : List UInt8) :
    (checkAuthenticated (E := E) P verify rnd version buf).Raises Aligned := by
  refine (raises_authenticateMaster P rnd).bind fun first => ?_
  refine (raises_checkSettings P _ first.1).bind fun master => ?_
  refine (raises_readTagTamper P version master).bind fun tamper => ?_
  refine (raises_orNotFactoryState ?_ _).bind fun uid => ?_
  · exact raises_dispatchValue P (raises_consume (raises_getCardUid P))
      (raises_consume (raises_getCardUid P)) tamper.2
  · refine (raises_orNotFactoryState
      (raises_verifyOriginalityEncrypted P verify uid.2 uid.1) _).bind fun signature => ?_
    refine (raises_orNotFactoryState
      (raises_authenticateEncrypted P signature.2 _ _ _) _).bind fun key2 => ?_
    refine (raises_orNotFactoryState ?_ _).bind fun prop => ?_
    · exact raises_dispatchValue P (raises_consume (raises_readCommand P _ _ _ _ _))
        (raises_consume (raises_readCommand P _ _ _ _ _)) key2
    · refine (Script.raises_require nofun).bind fun _ => ?_
      exact (raises_checkKeys P rnd _ _ prop.2).bind fun _ => Script.raises_pure _

/-- **Every operation outside a session**: one case for each of them. -/
theorem raises_performUnauthenticated (op : UnauthenticatedOp) :
    (op.perform (E := E) P verify).Raises Aligned := by
  cases op with
  | readFile file offset buf =>
      exact (raises_readFileUnauthenticated file offset buf).bind fun _ => Script.raises_pure ()
  | writeFile file offset data => exact raises_writeFileUnauthenticated file offset data
  | getFileSettings file =>
      exact (raises_getFileSettingsUnauthenticated file).bind fun _ => Script.raises_pure ()
  | getVersion => exact raises_getVersionPlain.bind fun _ => Script.raises_pure ()
  | checkFactoryState rnd =>
      refine Script.Raises.bind ?_ fun _ => Script.raises_pure ()
      refine raises_checkContents.bind fun r => ?_
      exact ((raises_checkAuthenticated P verify rnd r.1 r.2).on ()).bind
        fun _ => Script.raises_pure _

end Unauthenticated

/-! ### All operations -/

/-- No run of a script against a transport with answers of at most 256 bytes ends in the error
`NotBlockAligned`. -/
def NeverMisaligned (m : Cmd E σ β) : Prop :=
  ∀ s w s' w' n, ¬ Prog.Ends (Records shortAnswer) (m s) w
    (.error (.error (.notBlockAligned n)), s') w'

/-- A script whose faults are aligned against any answers never ends in the error against short
ones. -/
theorem NeverMisaligned.of_raises {m : Cmd E σ β} (h : m.Raises Aligned) : NeverMisaligned m :=
  fun _ _ _ _ n hend => h.of_ends hend n rfl

/-- The same for an operation that returns its error beside the session that is left. -/
def NeverReturnsMisaligned {γ : Type} (m : Task E (Except (SessionError E) Unit × γ)) : Prop :=
  ∀ w left w' n, ¬ Prog.Ends (Records shortAnswer) (m ()) w
    (.ok (.error (.notBlockAligned n), left), ()) w'

/-- An operation that ends aligned in a world without state does so in every world. -/
theorem NeverReturnsMisaligned.of_endsAligned {γ : Type}
    {m : Task E (Except (SessionError E) Unit × γ)} (h : EndsAligned m) :
    NeverReturnsMisaligned m := by
  intro w left w' n hend
  have hunit : Prog.Ends (fun _ (_ : Unit) _ _ => True) (m ()) ()
      (.ok (.error (.notBlockAligned n), left), ()) () :=
    hend.comap (f := fun _ => ()) fun _ _ _ _ _ => trivial
  exact Script.wp_ends h hunit n rfl

/-- A dispatched operation ends as the operation does. -/
theorem EndsAligned.map {γ δ : Type} {m : Task E (Except (SessionError E) Unit × γ)}
    (h : EndsAligned m) (f : γ → δ) :
    EndsAligned (do
      let r ← m
      return (r.1, f r.2)) :=
  Script.wp_bind.mpr (Script.wp_mono h (fun _ _ _ hr => Script.wp_pure.mpr hr) fun _ _ _ h => h)

variable (P : Primitives) (verify : Bytes signatureLen → Bytes 7 → Except OriginalityError Unit)

/-- **Every operation of a session of either suite** ends as the operation of its suite does. -/
theorem endsAligned_performEncrypted (op : SessionOp) (session : EncryptedSession) :
    EndsAligned (E := E) (op.performEncrypted P verify session) := by
  cases session with
  | aes session =>
      exact (endsAligned_perform P (raises_aesNonFirst P) verify op session).map
        (·.map EncryptedSession.aes)
  | lrp session =>
      exact (endsAligned_perform P (raises_lrpNonFirst P) verify op session).map
        (·.map EncryptedSession.lrp)

/-- **No public operation of any session** returns `NotBlockAligned`: not an operation of a
session of either suite or of both, not a change of the master key or of the suite, not a
handshake, and not an operation without authentication, whatever its arguments and whatever the
tag answers. The suites refuse exactly the buffers that are not a positive number of blocks, so
no command hands them such a buffer. -/
theorem never_misaligned :
    (∀ (op : SessionOp) (session : Session (Authenticated AesSuite)),
      NeverReturnsMisaligned (E := E) (op.perform P verify session)) ∧
    (∀ (op : SessionOp) (session : Session (Authenticated LrpSuite)),
      NeverReturnsMisaligned (E := E) (op.perform P verify session)) ∧
    (∀ (op : SessionOp) (session : EncryptedSession),
      NeverReturnsMisaligned (E := E) (op.performEncrypted P verify session)) ∧
    (∀ (session : EncryptedSession) (newKey : Key) (newKeyVersion : UInt8),
      NeverMisaligned (E := E) (session.changeMasterKey P newKey newKeyVersion)) ∧
    (∀ session : Session (Authenticated AesSuite),
      NeverMisaligned (E := E) (session.enableLrp P)) ∧
    (∀ (session : Session Unauthenticated) (keyNo : KeyNumber) (key : Key) (rndA : Bytes 16),
      NeverMisaligned (E := E) (session.authenticateAes P keyNo key rndA) ∧
      NeverMisaligned (E := E) (session.authenticateLrp P keyNo key rndA)) ∧
    (∀ op : UnauthenticatedOp, NeverMisaligned (E := E) (op.perform P verify)) ∧
    (∀ uid : Bytes 7,
      NeverMisaligned (E := E) (Session.verifyOriginalityUnauthenticated verify uid)) ∧
    (∀ (answer : Except E (List UInt8)) (n : ℕ),
      Session.getSelectedUid answer ≠ .error (.notBlockAligned n)) ∧
    WholeBlocks P AesSuite ∧ WholeBlocks P LrpSuite := by
  refine ⟨fun op session => .of_endsAligned ?_, fun op session => .of_endsAligned ?_,
    fun op session => .of_endsAligned ?_, fun session newKey newKeyVersion => .of_raises ?_,
    fun session => .of_raises ?_, fun session keyNo key rndA => ⟨.of_raises ?_, .of_raises ?_⟩,
    fun op => .of_raises ?_, fun uid => .of_raises ?_, fun answer n => ?_, inferInstance,
    inferInstance⟩
  · exact endsAligned_perform P (raises_aesNonFirst P) verify op session
  · exact endsAligned_perform P (raises_lrpNonFirst P) verify op session
  · exact endsAligned_performEncrypted P verify op session
  · exact raises_changeMasterKeyEncrypted P session newKey newKeyVersion
  · exact raises_enableLrp P session
  · exact raises_authenticateAes P session keyNo key rndA
  · exact raises_authenticateLrp P session keyNo key rndA
  · exact raises_performUnauthenticated P verify op
  · exact raises_verifyOriginalityUnauthenticated verify uid
  · unfold Session.getSelectedUid
    split
    · nofun
    · split
      · nofun
      · split <;> nofun

end Ntag424
