import Mathlib.Tactic.Common
import Ntag424.Lib.Requests
import Ntag424.Session.Session

/-!
# How Many APDUs an Operation Sends

The number of exchanges of the operations that administer a tag. It does not depend on the
answers, as long as the operation succeeds.

## Main results

* `takes_changeFileSettings`, `takes_changeKey`, `takes_changeMasterKey`: one exchange each.
* `takes_writeFilePlainChunked`: one exchange for each chunk.
* `takes_authenticateAes`, `wp_authenticateLrp_counts`: opening a session takes three.
-/

namespace Ntag424

open SecureChannel

variable {E S σ β : Type} {P : Primitives}

/-! ### Exchanges -/

/-- One exchange takes one request. -/
theorem takes_transmit (apdu : List UInt8) : (transmit apdu : Cmd E σ Response).Takes 1 := by
  refine (Script.takes_request apdu).bind_free ?_
  rintro (e | resp)
  · exact Script.takes_fail 0 _
  · exact Script.takes_pure resp

/-- An exchange whose status is checked takes one request. -/
theorem takes_transmitExpecting (status : ResponseStatus) (apdu : List UInt8) :
    (transmitExpecting status apdu : Cmd E σ Response).Takes 1 := by
  refine (takes_transmit apdu).bind_free fun resp => ?_
  exact (Script.takes_require _ _).free_bind fun _ => Script.takes_pure resp

/-! ### Commands of a session -/

section Suite

variable [SessionSuite P S]

/-- Noting a use of the counter takes none. -/
theorem takes_note (u : CounterUse) : (note u : Cmd E (Authenticated S) Unit).Takes 0 :=
  Script.takes_get.free_bind fun _ => Script.takes_set _

/-- Counting a command takes none. -/
theorem takes_advance : (advance : Cmd E (Authenticated S) Unit).Takes 0 :=
  Script.takes_get.free_bind fun _ => Script.takes_set _

/-- Counting a command without a response MAC takes none. -/
theorem takes_advanceCounter : (advanceCounter : Cmd E (Authenticated S) Unit).Takes 0 :=
  (takes_note _).free_bind fun _ => takes_advance

/-- Computing a command MAC takes none. -/
theorem takes_computeCmdMac (cmd : UInt8) (header data : List UInt8) :
    (computeCmdMac P cmd header data : Cmd E (Authenticated S) (Bytes 8)).Takes 0 := by
  refine Script.takes_get.free_bind fun s => ?_
  refine (Script.takes_assert _).free_bind fun _ => ?_
  exact (takes_note _).free_bind fun _ => Script.takes_pure _

/-- Encrypting data takes none. -/
theorem takes_encryptCommand (buf : List UInt8) :
    (encryptCommand P buf : Cmd E (Authenticated S) (List UInt8)).Takes 0 := by
  refine Script.takes_get.free_bind fun s => ?_
  cases SessionSuite.encrypt P s.suite .command s.ti s.cmdCounter buf with
  | none => exact Script.takes_fail 0 _
  | some r =>
      refine (Script.takes_set _).free_bind fun _ => ?_
      exact (takes_note _).free_bind fun _ => Script.takes_pure r.1

/-- Checking a response MAC takes none. -/
theorem takes_verifyResponseMacAndAdvance (rc : UInt8) (body : List UInt8) :
    (verifyResponseMacAndAdvance P rc body : Cmd E (Authenticated S) (List UInt8)).Takes 0 := by
  refine (Script.takes_require _ _).free_bind fun _ => ?_
  refine Script.takes_get.free_bind fun s => ?_
  refine (Script.takes_assert _).free_bind fun _ => ?_
  refine (Script.takes_require _ _).free_bind fun _ => ?_
  refine (takes_note _).free_bind fun _ => ?_
  exact takes_advance.free_bind fun _ => Script.takes_pure _

/-- A command under a MAC takes one request. -/
theorem takes_transmitMac (ins p1 p2 : UInt8) (header data : List UInt8) :
    (transmitMac P ins p1 p2 header data : Cmd E (Authenticated S) Response).Takes 1 :=
  (takes_computeCmdMac _ _ _).free_bind fun _ => takes_transmitExpecting _ _

/-- An encrypted command takes one request. -/
theorem takes_transmitFull (ins : UInt8) (header data : List UInt8) :
    (transmitFull P ins header data : Cmd E (Authenticated S) Response).Takes 1 :=
  (takes_encryptCommand _).free_bind fun _ => takes_transmitMac _ _ _ _ _

/-- `change_file_settings` is one exchange. -/
theorem takes_changeFileSettings (fileNo : UInt8) (settings : FileSettingsUpdate) :
    (changeFileSettings P fileNo settings : Cmd E (Authenticated S) Unit).Takes 1 := by
  refine Script.Takes.free_bind ?_ fun raw => ?_
  · cases settings.encode maxChangeFileSettingsLen with
    | error e => exact Script.takes_fail 0 _
    | ok raw => exact Script.takes_pure raw
  · refine (takes_transmitFull _ _ _).bind_free fun resp => ?_
    exact (takes_verifyResponseMacAndAdvance _ _).free_bind fun _ => Script.takes_pure ()

/-- Changing a key takes one request, with a response MAC or without one. -/
theorem takes_transmitKey (keyNo : KeyNumber) (plaintext : List UInt8) (mact : Bool) :
    (transmitKey P keyNo plaintext mact : Cmd E (Authenticated S) Unit).Takes 1 := by
  refine (takes_encryptCommand _).free_bind fun ct => ?_
  refine (takes_transmitMac _ _ _ _ _).bind_free fun resp => ?_
  cases mact with
  | true => exact (takes_verifyResponseMacAndAdvance _ _).free_bind fun _ => Script.takes_pure ()
  | false => exact (Script.takes_require _ _).free_bind fun _ => takes_advanceCounter

/-- `change_key` is one exchange. -/
theorem takes_changeKey (keyNo : NonMasterKeyNumber) (newKey : Key) (version : UInt8)
    (oldKey : Key) :
    (changeKey P keyNo newKey version oldKey : Cmd E (Authenticated S) Unit).Takes 1 :=
  takes_transmitKey _ _ _

/-- `change_master_key` is one exchange. -/
theorem takes_changeMasterKey (newKey : Key) (version : UInt8) :
    (changeMasterKey P newKey version : Cmd E (Authenticated S) Unit).Takes 1 :=
  takes_transmitKey _ _ _

/-! ### Plain writes -/

/-- One chunk of a plain write takes one request. -/
theorem takes_writeFilePlainOneApdu (fileNo : UInt8) (offset : UInt32) (data : List UInt8) :
    (writeFilePlainOneApdu fileNo offset data : Cmd E (Authenticated S) Unit).Takes 1 := by
  refine Script.Takes.bind_free ?_ fun _ => takes_advanceCounter
  rw [writeDataPlain, validateHeader, validateTarget, validateBodyLen]
  refine Script.Takes.free_bind ?_ fun _ => ?_
  · refine Script.Takes.free_bind ?_ fun _ => ?_
    · exact (Script.takes_require _ _).free_bind fun _ => Script.takes_require _ _
    · exact (Script.takes_require _ _).free_bind fun _ => Script.takes_require _ _
  · refine (Script.takes_require _ _).free_bind fun _ => ?_
    exact (takes_transmitExpecting _ _).bind_free fun _ => Script.takes_pure ()

/-- A write loop makes one exchange for each chunk. -/
theorem takes_writeLoop {chunk : ℕ} (hchunk : 0 < chunk) {one : UInt32 → List UInt8 → Cmd E σ Unit}
    (hone : ∀ offset part, (one offset part).Takes 1) (offset : UInt32) (data : List UInt8) :
    (writeLoop chunk one offset data).Takes ((data.length + chunk - 1) / chunk) := by
  induction hlen : data.length using Nat.strong_induction_on generalizing offset data with
  | _ len ih =>
      subst hlen
      rw [writeLoop]
      by_cases hnil : data = []
      · rw [if_neg (fun h => h.1 hnil), hnil, List.length_nil, Nat.zero_add,
          Nat.div_eq_of_lt (by omega)]
        exact Script.takes_pure ()
      · have hpos := List.length_pos_iff.mpr hnil
        have hrest : ((data.drop chunk).length + chunk - 1) / chunk + 1 =
            (data.length + chunk - 1) / chunk := by
          rw [List.length_drop]
          rcases Nat.le_total data.length chunk with hle | hle
          · rw [Nat.sub_eq_zero_of_le hle, Nat.zero_add, Nat.div_eq_of_lt (by omega),
              Nat.sub_add_comm hpos, Nat.add_div_right _ hchunk, Nat.div_eq_of_lt (by omega)]
          · rw [Nat.sub_add_cancel hle, Nat.sub_add_comm hpos, Nat.add_div_right _ hchunk]
        rw [if_pos ⟨hnil, hchunk⟩, ← hrest, Nat.add_comm]
        refine (hone _ _).bind fun _ => ?_
        exact ih _ (by rw [List.length_drop]; omega) _ _ rfl

/-- `write_file_plain_chunked`. -/
theorem takes_writeFilePlainChunked (fileNo : UInt8) (offset : UInt32) (data : List UInt8) :
    (writeFilePlainChunked fileNo offset data : Cmd E (Authenticated S) Unit).Takes
      ((data.length + plainWriteChunk - 1) / plainWriteChunk) :=
  (Script.takes_require _ _).free_bind fun _ => takes_writeLoop (by simp [plainWriteChunk])
    (takes_writeFilePlainOneApdu fileNo) offset data

/-! ### Operations -/

/-- A command that consumes the session takes as many requests as the command. -/
theorem takes_consumeUnit {m : ℕ} {cmd : Cmd E (Authenticated S) Unit} (h : cmd.Takes m)
    (session : Session (Authenticated S)) : (session.consumeUnit cmd).Takes m := by
  refine Script.Takes.bind_free ?_ fun _ => Script.takes_pure _
  exact (h.on _).bind_free fun _ => Script.takes_pure _

end Suite

/-- An operation on a session of either suite. -/
theorem takes_dispatch {m : ℕ} {f : (S : Type) → [HandshakeSuite P S] →
      Session (Authenticated S) → Task E (Session (Authenticated S))}
    (hf : ∀ (S : Type) [HandshakeSuite P S] (session : Session (Authenticated S)),
      (f S session).Takes m) (session : EncryptedSession) : (session.dispatch P f).Takes m := by
  cases session with
  | aes session => exact (hf AesSuite session).bind_free fun _ => Script.takes_pure _
  | lrp session => exact (hf LrpSuite session).bind_free fun _ => Script.takes_pure _

namespace EncryptedSession

variable (session : EncryptedSession)

/-- `change_file_settings` in a session of either suite. -/
theorem takes_changeFileSettings (file : File) (settings : FileSettingsUpdate) :
    (session.changeFileSettings (E := E) P file settings).Takes 1 :=
  takes_dispatch (fun _ _ session =>
    takes_consumeUnit (Ntag424.takes_changeFileSettings file.fileNo settings) session) session

/-- `write_file_with_mode` in plain. -/
theorem takes_writePlain (file : File) (offset : UInt32) (data : List UInt8) :
    (session.writeFileWithMode (E := E) P file offset data .plain).Takes
      ((data.length + plainWriteChunk - 1) / plainWriteChunk) :=
  takes_dispatch (fun _ _ session =>
    takes_consumeUnit (takes_writeFilePlainChunked file.fileNo offset data) session) session

/-- `change_key` in a session of either suite. -/
theorem takes_changeKey (keyNo : NonMasterKeyNumber) (newKey : Key) (version : UInt8)
    (oldKey : Key) : (session.changeKey (E := E) P keyNo newKey version oldKey).Takes 1 :=
  takes_dispatch (fun _ _ session =>
    takes_consumeUnit (Ntag424.takes_changeKey keyNo newKey version oldKey) session) session

/-- `change_master_key` in a session of either suite. -/
theorem takes_changeMasterKey (newKey : Key) (version : UInt8) :
    (session.changeMasterKey (E := E) P newKey version).Takes 1 := by
  cases session with
  | aes session =>
      have hkey := takes_consumeUnit (E := E)
        (Ntag424.takes_changeMasterKey (P := P) newKey version) session
      exact hkey.bind_free fun _ => Script.takes_pure _
  | lrp session =>
      have hkey := takes_consumeUnit (E := E)
        (Ntag424.takes_changeMasterKey (P := P) newKey version) session
      exact hkey.bind_free fun _ => Script.takes_pure _

end EncryptedSession

/-! ### Opening a session -/

/-- An exchange is counted, and fails with the error of the transport or of the tag. -/
theorem wp_transmitExpecting_counts (status : ResponseStatus) (apdu : List UInt8) (t : σ) (n : ℕ) :
    (transmitExpecting status apdu).wp Prog.Counts (fun k => k = n) (fun _ _ k => k = n + 1)
      (fun (f : Fault (SessionError E)) _ _ => ∀ got want, f ≠ .error (.unexpectedLength got want))
      t n := by
  rw [transmitExpecting, transmit]
  simp only [Script.wp_bind, Script.wp_request, Script.wp_require, Script.wp_pure]
  refine ⟨trivial, ?_⟩
  rintro (e | resp) k hk
  · exact Script.wp_fail.mpr (by rintro _ _ ⟨⟩)
  · exact Script.wp_pure.mpr ⟨fun _ => hk, by rintro _ _ _ ⟨⟩⟩

/-- Checking the length of an answer takes none. -/
theorem takes_expectBytes (m : ℕ) (data : List UInt8) :
    (expectBytes m data : Cmd E σ (Bytes m)).Takes 0 := by
  rw [expectBytes]
  cases Bytes.ofList? m data with
  | none => exact Script.takes_fail 0 _
  | some bytes => exact Script.takes_pure bytes

/-- Selecting the application in a new session. -/
theorem takes_selectNdefApplication :
    ((Session.selectNdefApplication (E := E)).on Session.new : Cmd E σ _).Takes 1 := by
  intro t n
  rw [Script.wp_on, Session.selectNdefApplication]
  simp only [Script.wp_bind, Script.wp_get]
  exact ((takes_transmit _).bind_free fun _ => Script.takes_require _ _).bind_free
    (fun _ => Script.takes_set _) _ _

/-- A first AES authentication takes two requests, one for each part. -/
theorem AesSuite.takes_authenticateEv2First (keyNo : KeyNumber) (key : Key) (rndA : Bytes 16) :
    (AesSuite.authenticateEv2First P keyNo key rndA : Cmd E σ (AuthResult AesSuite)).Takes 2 := by
  change Script.Takes (1 + 1) _
  refine (takes_transmitExpecting _ _).bind fun _ => ?_
  refine (takes_expectBytes _ _).free_bind fun _ => ?_
  refine (takes_transmitExpecting _ _).bind_free fun _ => ?_
  refine (takes_expectBytes _ _).free_bind fun _ => ?_
  exact (Script.takes_require _ _).free_bind fun _ => Script.takes_pure _

/-- `authenticate_aes` in a new session. -/
theorem takes_authenticateAes (keyNo : KeyNumber) (key : Key) (rndA : Bytes 16) :
    (Session.new.authenticateAes (E := E) P keyNo key rndA).Takes 3 := by
  change Script.Takes (1 + 2) _
  refine takes_selectNdefApplication.bind fun _ => ?_
  exact (AesSuite.takes_authenticateEv2First keyNo key rndA).bind_free fun _ => Script.takes_pure _

/-- Selecting the application in a new session does not fail for a length. -/
theorem wp_selectNdefApplication_counts (t : σ) (n : ℕ) :
    ((Session.selectNdefApplication (E := E)).on Session.new).wp Prog.Counts
      (fun k => k = n) (fun _ _ k => k = n + 1)
      (fun f _ _ => f ≠ .error (.unexpectedLength 16 17)) t n := by
  rw [Script.wp_on, Session.selectNdefApplication, isoSelectNdefApplication, transmit,
    Script.wp_bind, Script.wp_get, if_neg (by decide)]
  simp only [Script.wp_bind, Script.wp_request]
  refine ⟨trivial, ?_⟩
  rintro (e | resp) k hk
  · exact Script.wp_fail.mpr (by rintro ⟨⟩)
  · simp only [Script.wp_pure, Script.wp_require, Script.wp_set]
    exact ⟨fun _ => hk, fun _ => by rintro ⟨⟩⟩

/-- The handshake in LRP mode fails for the length of the tag's random after one exchange. -/
theorem LrpSuite.wp_authenticateEv2First_counts (keyNo : KeyNumber) (key : Key) (rndA : Bytes 16)
    (t : σ) (n : ℕ) :
    (LrpSuite.authenticateEv2First (E := E) P keyNo key rndA).wp Prog.Counts
      (fun k => n ≤ k ∧ k < n + 2) (fun _ _ k => k = n + 2)
      (fun f _ k => f = .error (.unexpectedLength 16 17) → k = n + 1) t n := by
  rw [LrpSuite.authenticateEv2First]
  refine Script.wp_bind_of (Script.wp_weaken (wp_transmitExpecting_counts _ _ t n) ?_) ?_
    fun f _ _ hno heq => absurd heq (hno 16 17)
  · intro k hk
    omega
  intro r1 t k hk
  simp only [LrpSuite.expectRndB, Script.wp_bind, Script.wp_require, Script.wp_pure]
  refine ⟨fun _ => ⟨fun _ => ?_, fun _ _ => hk⟩, fun _ _ => hk⟩
  refine Script.wp_mono (Script.wp_weaken (wp_transmitExpecting_counts _ _ t k) ?_) ?_
    fun f _ _ hno heq => absurd heq (hno 16 17)
  · intro j hj
    omega
  intro r2 t j hj
  rw [expectBytes]
  cases Bytes.ofList? 32 r2.data with
  | none =>
      refine Script.wp_fail.mpr fun heq => ?_
      have hwant := (SessionError.unexpectedLength.inj (Fault.error.inj heq)).2
      exact absurd hwant (by decide)
  | some data2 =>
      simp only [Script.wp_pure, LrpSuite.verifyAndExtractAuthResult, Script.wp_bind,
        Script.wp_require]
      refine ⟨fun _ => ⟨fun _ => ?_, ?_⟩, ?_⟩
      · omega
      · rintro - ⟨⟩
      · rintro - ⟨⟩

/-- `authenticate_lrp` in a new session. It fails for the length of the tag's random after two
exchanges. -/
theorem wp_authenticateLrp_counts (keyNo : KeyNumber) (key : Key) (rndA : Bytes 16) (n : ℕ) :
    (Session.new.authenticateLrp (E := E) P keyNo key rndA).wp Prog.Counts
      (fun k => n ≤ k ∧ k < n + 3) (fun _ _ k => k = n + 3)
      (fun f _ k => f = .error (.unexpectedLength 16 17) → k = n + 2) () n := by
  rw [Session.authenticateLrp]
  refine Script.wp_bind_of (Script.wp_weaken (wp_selectNdefApplication_counts () n) ?_) ?_
    fun _ _ _ hne heq => absurd heq hne
  · intro k hk
    omega
  rintro ⟨_, session⟩ t k hk
  have hauth := LrpSuite.wp_authenticateEv2First_counts (E := E) (P := P) keyNo key rndA t k
  refine Script.wp_bind_of (Script.wp_weaken hauth ?_) ?_ ?_
  · intro j hj
    omega
  · intro _ _ j hj
    exact Script.wp_pure.mpr (by omega)
  · intro f _ j hj heq
    rw [hj heq, hk]

end Ntag424
