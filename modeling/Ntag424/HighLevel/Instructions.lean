import Mathlib.Tactic.Common
import Ntag424.HighLevel.Provisioning
import Ntag424.Session.FileReads

/-!
# What Provisioning and Resetting Send

Every part of provisioning and resetting a tag sends native commands of a few instructions, with a
body, and the selection of the application, whatever a tag answers. A kind of APDU that takes in
these instructions takes in all that the part sends.

## Main results

* `asks_authenticateUsingFactoryDefaults`, `asks_verifyOriginality`: finding out about a tag.
* `asks_configure`, `asks_configureNdef`, `asks_provisionKeys`: changing it.
* `asks_resetKeys`, `asks_resolveUid`: the parts of resetting.
-/

namespace Ntag424

open SecureChannel

variable {E S σ β K : Type} (P : Primitives) {p : List UInt8 → Prop}

/-! ### Commands -/

section Commands

variable [SessionSuite P S]

/-- Encrypting data asks nothing. -/
theorem asks_encryptCommand (buf : List UInt8) :
    (encryptCommand P buf : Cmd E (Authenticated S) (List UInt8)).Asks p := by
  refine asks_state.bind fun s => ?_
  cases SessionSuite.encrypt P s.suite .command s.ti s.cmdCounter buf with
  | none => exact Script.asks_fail _
  | some r =>
      refine (Script.asks_set _).bind fun _ => ?_
      exact (asks_note _).bind fun _ => Script.asks_pure r.1

/-- An encrypted command asks one APDU. The kind has to take it in whatever the ciphertext and
the MAC are. -/
theorem asks_transmitFull {ins : UInt8} {header : List UInt8}
    (h : ∀ ct (mac : Bytes 8), p (nativeApdu ins 0x00 0x00 (header ++ ct ++ mac.toList)))
    (data : List UInt8) :
    (transmitFull P ins header data : Cmd E (Authenticated S) Response).Asks p :=
  (asks_encryptCommand P _).bind fun ct => asks_transmitMac P (h ct)

/-- Counting a command asks nothing. -/
theorem asks_advanceCounter :
    (advanceCounter : Cmd E (Authenticated S) Unit).Asks p :=
  (asks_note _).bind fun _ => asks_state.bind fun _ => Script.asks_set _

/-- Setting options asks one command of instruction `5C` for each, which starts with the number
of the option. -/
theorem asks_setOptions {options : List (UInt8 × List UInt8)}
    (h : ∀ o ∈ options, ∀ body, p (nativeApdu 0x5C 0x00 0x00 (o.1 :: body))) :
    (setOptions P options : Cmd E (Authenticated S) Unit).Asks p := by
  induction options with
  | nil => exact Script.asks_pure ()
  | cons o options ih =>
      obtain ⟨hfirst, hrest⟩ := List.forall_mem_cons.mp h
      refine Script.Asks.bind ?_ fun _ => ih hrest
      refine (asks_transmitFull P (fun ct mac => hfirst (ct ++ mac.toList)) _).bind fun resp => ?_
      split
      · exact asks_advanceCounter
      · exact (asks_verifyResponseMacAndAdvance P resp.sw2 resp.data).bind fun _ =>
          Script.asks_pure ()

/-- Changing file settings asks a command of instruction `5F`. -/
theorem asks_changeFileSettings (hins : Covers p 0x5F) (fileNo : UInt8)
    (settings : FileSettingsUpdate) :
    (changeFileSettings P fileNo settings : Cmd E (Authenticated S) Unit).Asks p := by
  refine (asks_liftSettings _).bind fun raw => ?_
  refine (asks_transmitFull P (fun _ => hins.mac _ _ _ _) _).bind fun resp => ?_
  exact (asks_verifyResponseMacAndAdvance P resp.sw2 resp.data).bind fun _ => Script.asks_pure ()

/-- Changing a key asks a command of instruction `C4`. -/
theorem asks_transmitKey (hins : Covers p 0xC4) (keyNo : KeyNumber) (plaintext : List UInt8)
    (expectMact : Bool) :
    (transmitKey P keyNo plaintext expectMact : Cmd E (Authenticated S) Unit).Asks p := by
  refine (asks_encryptCommand P _).bind fun ct => ?_
  refine (asks_transmitMac P (hins.mac _ _ _ _)).bind fun resp => ?_
  split
  · exact (asks_verifyResponseMacAndAdvance P resp.sw2 resp.data).bind fun _ => Script.asks_pure ()
  · exact (Script.asks_require _ _).bind fun _ => asks_advanceCounter

/-- A write asks what its chunks ask. -/
theorem asks_writeLoop {chunk : ℕ}
    {one : UInt32 → List UInt8 → Cmd E σ Unit} (hone : ∀ offset part, (one offset part).Asks p)
    (currentOffset : UInt32) (data : List UInt8) :
    (writeLoop chunk one currentOffset data).Asks p := by
  induction hlen : data.length using Nat.strong_induction_on generalizing currentOffset data with
  | _ n ih =>
      rw [writeLoop]
      split
      · rename_i hmore
        refine (hone _ _).bind fun _ => ih _ ?_ _ _ rfl
        have hpos := List.length_pos_iff.mpr hmore.1
        rw [List.length_drop]
        omega
      · exact Script.asks_pure ()

/-- Checking the arguments of a write asks nothing. -/
theorem asks_validateHeader (fileNo : UInt8) (offset : UInt32)
    (length : ℕ) : (validateHeader fileNo offset length : Cmd E σ Unit).Asks p := by
  refine Script.Asks.bind ?_ fun _ => ?_
  · exact (Script.asks_require _ _).bind fun _ => Script.asks_require _ _
  · exact (Script.asks_require _ _).bind fun _ => Script.asks_require _ _

/-- Building the header of a write asks nothing. -/
theorem asks_buildWriteHeader (fileNo : UInt8) (offset length : UInt32) :
    (buildWriteHeader P fileNo offset length : Cmd E σ (List UInt8)).Asks p :=
  (Script.asks_assert _).bind fun _ => Script.asks_pure _

/-- A write in any mode asks commands of instruction `8D`, one for each chunk. -/
theorem asks_writeCommand (hins : Covers p 0x8D) (file : File) (offset : UInt32)
    (data : List UInt8) (mode : CommMode) :
    (Session.writeCommand P file offset data mode : Cmd E (Authenticated S) Unit).Asks p := by
  cases mode with
  | plain =>
      refine (Script.asks_require _ _).bind fun _ => asks_writeLoop (fun offset part => ?_) _ _
      refine Script.Asks.bind ?_ fun _ => asks_advanceCounter
      refine (asks_validateHeader _ _ _).bind fun _ => ?_
      refine (Script.asks_require _ _).bind fun _ => ?_
      refine (asks_transmitExpecting _ (hins _ _ _ ?_)).bind fun _ => Script.asks_pure ()
      exact List.append_ne_nil_of_left_ne_nil (List.cons_ne_nil _ _) _
  | mac =>
      refine (asks_validateHeader _ _ _).bind fun _ => asks_writeLoop (fun offset part => ?_) _ _
      refine (asks_buildWriteHeader P _ _ _).bind fun header => ?_
      exact (asks_sendMac P hins _ _ header _).bind fun _ => Script.asks_require _ _
  | full =>
      refine (asks_validateHeader _ _ _).bind fun _ => asks_writeLoop (fun offset part => ?_) _ _
      refine (asks_buildWriteHeader P _ _ _).bind fun header => ?_
      refine (Script.asks_require _ _).bind fun _ => ?_
      refine (asks_transmitFull P (fun _ => hins.mac _ _ header _) _).bind fun resp => ?_
      exact (asks_verifyResponseMacAndAdvance P resp.sw2 resp.data).bind fun _ =>
        Script.asks_pure ()

end Commands

/-! ### Sessions -/

/-- A command without a value that consumes the session asks what the command asks. -/
theorem asks_consumeUnit {cmd : Cmd E (Authenticated S) Unit} (h : cmd.Asks p)
    (session : Session (Authenticated S)) : (session.consumeUnit cmd).Asks p :=
  (asks_consume h session).bind fun _ => Script.asks_pure _

/-- An operation on a session of either suite asks what it asks of both. -/
theorem asks_dispatch {f : (S : Type) → [HandshakeSuite P S] → Session (Authenticated S) →
      Task E (Session (Authenticated S))}
    (hf : ∀ (S : Type) [HandshakeSuite P S] (s : Session (Authenticated S)), (f S s).Asks p)
    (session : EncryptedSession) : (session.dispatch P f).Asks p := by
  cases session with
  | aes session => exact (hf AesSuite session).bind fun _ => Script.asks_pure _
  | lrp session => exact (hf LrpSuite session).bind fun _ => Script.asks_pure _

/-- The kind takes in a first authentication. -/
structure Authenticates (p : List UInt8 → Prop) : Prop where
  select : p (isoSelectDfByNameApdu ndefApplicationDfName)
  first : Covers p 0x71
  next : Covers p 0xAF

/-- The APDUs of a session take in a first authentication. -/
theorem authenticates_sessionApdu : Authenticates SessionApdu :=
  ⟨.inr rfl, covers_sessionApdu _, covers_sessionApdu _⟩

/-- Opening an AES session selects the application and authenticates. -/
theorem asks_authenticateAes (hl : Authenticates p) (session : Session Unauthenticated)
    (keyNo : KeyNumber) (key : Key) (rndA : Bytes 16) :
    (session.authenticateAes (E := E) P keyNo key rndA).Asks p := by
  refine ((asks_selectNdefApplication hl.select).on _).bind fun _ => ?_
  refine Script.Asks.bind ?_ fun _ => Script.asks_pure _
  refine (asks_transmitExpecting _ (hl.first _ _ _ (by simp))).bind fun r1 => ?_
  refine (asks_expectBytes 16 r1.data).bind fun rndBEnc => ?_
  refine (asks_transmitExpecting _ (hl.next _ _ _ (Bytes.toList_ne_nil _))).bind fun r2 => ?_
  refine (asks_expectBytes 32 r2.data).bind fun enc => ?_
  exact (Script.asks_require _ _).bind fun _ => Script.asks_pure _

/-- Opening an LRP session selects the application and authenticates. -/
theorem asks_authenticateLrp (hl : Authenticates p) (session : Session Unauthenticated)
    (keyNo : KeyNumber) (key : Key) (rndA : Bytes 16) :
    (session.authenticateLrp (E := E) P keyNo key rndA).Asks p := by
  refine ((asks_selectNdefApplication hl.select).on _).bind fun _ => ?_
  refine Script.Asks.bind ?_ fun _ => Script.asks_pure _
  refine (asks_transmitExpecting _ (hl.first _ _ _ (by simp))).bind fun r1 => ?_
  refine (asks_expectRndB r1.data).bind fun rndB => ?_
  refine (asks_transmitExpecting _ (hl.next _ _ _ (LrpSuite.part2Body_ne_nil P _ _ _))).bind
    fun r2 => ?_
  refine (asks_expectBytes 32 r2.data).bind fun data2 => ?_
  refine (Script.asks_require _ _).bind fun _ => ?_
  exact (Script.asks_require _ _).bind fun _ => Script.asks_pure _

/-! ### Provisioning -/

/-- The kind takes in what provisioning asks of a tag before it trusts it: a first authentication,
the option of LRP mode, the UID and the originality signature. -/
structure Identifies (p : List UInt8 → Prop) : Prop extends Authenticates p where
  lrp : ∀ body, p (nativeApdu 0x5C 0x00 0x00 (0x05 :: body))
  uid : Covers p 0x51
  signature : Covers p 0x3C

/-- The kind takes in what provisioning does to a tag that it trusts. -/
structure Deploys (p : List UInt8 → Prop) : Prop where
  set : Covers p 0x5C
  tamper : Covers p 0xF7
  settings : Covers p 0xF5
  write : Covers p 0x8D
  change : Covers p 0x5F
  key : Covers p 0xC4

/-- The APDUs of a session take in what is asked of a tag before it is trusted. -/
theorem identifies_sessionApdu : Identifies SessionApdu :=
  ⟨authenticates_sessionApdu, fun _ => sessionApdu_native (List.cons_ne_nil _ _),
    covers_sessionApdu _, covers_sessionApdu _⟩

/-- The APDUs of a session take in what is done to a trusted tag. -/
theorem deploys_sessionApdu : Deploys SessionApdu :=
  ⟨covers_sessionApdu _, covers_sessionApdu _, covers_sessionApdu _, covers_sessionApdu _,
    covers_sessionApdu _, covers_sessionApdu _⟩

/-- Enabling LRP mode is one option with ten bytes of data. -/
theorem build_withLrpEnabled :
    Configuration.new.withLrpEnabled.build = [(0x05, [0, 0, 0, 0, 2, 0, 0, 0, 0, 0])] := rfl

/-- **Opening the first session** asks a first authentication, in LRP mode after the option of
LRP mode if there is an AES session to set it in. -/
theorem asks_authenticateUsingFactoryDefaults (h : Identifies p) (rnd : ℕ → Bytes 16) :
    (authenticateUsingFactoryDefaults (E := E) P rnd).Asks p := by
  have hlrp : ∀ o ∈ Configuration.new.withLrpEnabled.build, ∀ body,
      p (nativeApdu 0x5C 0x00 0x00 (o.1 :: body)) := by
    rw [build_withLrpEnabled]
    exact List.forall_mem_singleton.mpr h.lrp
  refine Script.Asks.bind ?_ fun _ => ?_
  · refine (asks_authenticateAes P h.toAuthenticates _ _ _ _).attempt.bind ?_
    rintro (e | session)
    · exact Script.asks_pure ()
    · refine Script.Asks.bind ?_ fun _ => Script.asks_pure ()
      exact (asks_consume (asks_setOptions P hlrp) session).bind fun _ => Script.asks_pure _
  · exact (asks_authenticateLrp P h.toAuthenticates _ _ _ _).bind fun _ => Script.asks_pure _

/-- Reading the UID asks a command of instruction `51`. -/
theorem asks_getUid (hins : Covers p 0x51) (session : EncryptedSession) :
    (session.getUid (E := E) P).Asks p :=
  asks_dispatchValue P (fun _ _ s => asks_consume (asks_readFullFixed P hins _ _ _) s) session

/-- **Verifying the signature** asks the UID and the signature, and nothing that changes a tag. -/
theorem asks_verifyOriginality (h : Identifies p)
    (verify : Bytes signatureLen → Bytes 7 → Except OriginalityError Unit)
    (session : EncryptedSession) : (verifyOriginality (E := E) P verify session).Asks p := by
  refine (asks_getUid P h.uid session).bind fun uid => ?_
  refine Script.Asks.bind ?_ fun _ => Script.asks_pure _
  refine asks_dispatchValue P (fun _ _ s => ?_) uid.2
  refine Script.Asks.bind ?_ fun _ => Script.asks_pure _
  refine (asks_consume (asks_readSigMac P h.signature) s).bind fun r => ?_
  dsimp only
  cases verify r.1 uid.1 with
  | ok _ => exact Script.asks_pure _
  | error e => exact Script.asks_fail _

/-- Configuring a trusted tag sets options and, if tag tamper is enabled, reads its status. -/
theorem asks_configure (h : Deploys p) (session : EncryptedSession) (version : Version)
    (enableTagTamper : Bool) :
    (configure P session version enableTagTamper : ProvisioningTask E K _).Asks p := by
  refine Script.Asks.bind (Script.Asks.mapError ?_ _) fun session => ?_
  · refine asks_dispatch P (fun _ _ s => asks_consumeUnit (asks_setOptions P ?_) s) session
    exact fun _ _ _ => h.set _ _ _ (List.cons_ne_nil _ _)
  · split
    · refine Script.Asks.bind (Script.Asks.mapError ?_ _) fun r => ?_
      · exact asks_dispatchValue P
          (fun _ _ s => asks_consume (asks_getTtStatus P h.tamper) s) session
      · exact (Script.asks_require _ _).bind fun _ => Script.asks_pure _
    · exact Script.asks_pure _

/-- Configuring the file reads its settings, writes it, changes its settings and writes the
capability container. -/
theorem asks_configureNdef (h : Deploys p) (session : EncryptedSession)
    (config : SdmUrl.SdmUrlConfig) : (configureNdef (E := E) P session config).Asks p := by
  refine Script.Asks.bind ?_ fun session => ?_
  · refine asks_dispatch P (fun _ _ s => ?_) session
    refine (asks_consume (asks_getFileSettingsMac P h.settings _) s).bind fun r => ?_
    exact asks_consumeUnit (asks_writeCommand P h.write _ _ _ _) r.2
  · refine Script.Asks.bind ?_ fun session => ?_
    · exact asks_dispatch P
        (fun _ _ s => asks_consumeUnit (asks_changeFileSettings P h.change _ _) s) session
    · refine (Script.asks_lift _).bind fun ccBytes => ?_
      exact asks_dispatch P
        (fun _ _ s => asks_consumeUnit (asks_writeCommand P h.write _ _ _ _) s) session

/-- Changing the master key of a session of either suite asks a command of instruction `C4`. -/
theorem asks_changeMasterKey (hins : Covers p 0xC4) (session : EncryptedSession) (newKey : Key)
    (newKeyVersion : UInt8) :
    (session.changeMasterKey (E := E) P newKey newKeyVersion).Asks p := by
  cases session with
  | aes session =>
      exact (asks_consumeUnit (asks_transmitKey P hins _ _ _) session).bind fun _ =>
        Script.asks_pure _
  | lrp session =>
      exact (asks_consumeUnit (asks_transmitKey P hins _ _ _) session).bind fun _ =>
        Script.asks_pure _

/-- Changing another key asks a command of instruction `C4`. -/
theorem asks_changeKey (hins : Covers p 0xC4) (session : EncryptedSession)
    (keyNo : NonMasterKeyNumber) (newKey : Key) (newKeyVersion : UInt8) (oldKey : Key) :
    (session.changeKey (E := E) P keyNo newKey newKeyVersion oldKey).Asks p :=
  asks_dispatch P (fun _ _ s => asks_consumeUnit (asks_transmitKey P hins _ _ _) s) session

/-- The keys are changed one after the other, by induction on those that are left. -/
theorem asks_setKeys (hins : Covers p 0xC4) (keys : KeyNumber → Key)
    (rest : List NonMasterKeyNumber) (session : EncryptedSession) :
    (setKeys (E := E) P keys rest session).Asks p := by
  induction rest generalizing session with
  | nil => exact Script.asks_pure session
  | cons keyNo rest ih => exact (asks_changeKey P hins session _ _ _ _).bind ih

/-- The new keys are set with the master key as the last one. -/
theorem asks_provisionKeys (hins : Covers p 0xC4) (session : EncryptedSession)
    (keys : KeyNumber → Key) : (provisionKeys (E := E) P session keys).Asks p := by
  refine (asks_setKeys P hins keys _ session).bind fun session => ?_
  exact (asks_changeMasterKey P hins session _ _).bind fun _ => Script.asks_pure ()

/-- **Provisioning in its sessions** asks what identifies a tag before it asks what deploys it. -/
theorem asks_provisionInSessions (h : Identifies p) (h' : Deploys p)
    (verify : Bytes signatureLen → Bytes 7 → Except OriginalityError Unit)
    (config : SdmUrl.SdmUrlConfig) (keys : Bytes 7 → Except K (KeyNumber → Key))
    (rnd : ℕ → Bytes 16) (version : Version) :
    (provisionInSessions P verify config keys rnd version : ProvisioningTask E K _).Asks p := by
  refine ((asks_authenticateUsingFactoryDefaults P h rnd).mapError _).bind fun session => ?_
  refine ((asks_verifyOriginality P h verify session).mapError _).bind fun r => ?_
  dsimp only
  cases keys r.1 with
  | error e => exact Script.asks_fail _
  | ok newKeys =>
      refine (asks_configure P h' _ _ _).bind fun session => ?_
      refine ((asks_configureNdef P h' session config).mapError _).bind fun session => ?_
      refine ((asks_provisionKeys P h'.key session newKeys).mapError _).bind fun _ => ?_
      exact Script.asks_pure _

/-! ### Resetting -/

/-- **Resetting with known keys** authenticates, restores the settings and contents of both
files and zeroes the keys. -/
theorem asks_resetKeys (hl : Authenticates p) (hchange : Covers p 0x5F) (hwrite : Covers p 0x8D)
    (hkey : Covers p 0xC4) (keys : KeyNumber → Key) (rnd : ℕ → Bytes 16) :
    (resetKeys (E := E) P keys rnd).Asks p := by
  have hzero : ∀ (rest : List NonMasterKeyNumber) (session : EncryptedSession),
      (zeroKeys (E := E) P keys rest session).Asks p := by
    intro rest
    induction rest with
    | nil =>
        intro session
        exact Script.asks_pure session
    | cons keyNo rest ih =>
        intro session
        exact (asks_changeKey P hkey session _ _ _ _).bind ih
  have hsettings : ∀ (session : EncryptedSession) (file : File) (u : FileSettingsUpdate),
      (session.changeFileSettings (E := E) P file u).Asks p := fun session file u =>
    asks_dispatch P
      (fun _ _ s => asks_consumeUnit (asks_changeFileSettings P hchange _ _) s) session
  have hwrites : ∀ (session : EncryptedSession) (file : File) (data : List UInt8),
      (session.writeFileWithMode (E := E) P file 0 data .plain).Asks p :=
    fun session file data => asks_dispatch P
      (fun _ _ s => asks_consumeUnit (asks_writeCommand P hwrite _ _ _ _) s) session
  refine Script.Asks.bind ?_ fun session => ?_
  · refine (asks_authenticateLrp P hl _ _ _ _).attempt.bind ?_
    rintro (e | session)
    · exact (asks_authenticateAes P hl _ _ _ _).bind fun _ => Script.asks_pure _
    · exact Script.asks_pure _
  refine Script.Asks.bind ?_ fun session => ?_
  · refine (hsettings session _ _).bind fun session => ?_
    refine (hsettings session _ _).bind fun session => ?_
    refine (Script.asks_lift _).bind fun ccBytes => ?_
    exact (hwrites session _ _).bind fun session => hwrites session _ _
  · refine (hzero _ session).bind fun session => ?_
    exact (asks_changeMasterKey P hkey session _ _).bind fun _ => Script.asks_pure ()

/-- The UID is asked in a session of its own, unless it is given. -/
theorem asks_resolveUid (hl : Authenticates p) (huid : Covers p 0x51) (masterKey : Key)
    (rnd : Bytes 16) (uid : Option (Bytes 7)) :
    (resolveUid (E := E) P masterKey rnd uid).Asks p := by
  cases uid with
  | some uid => exact Script.asks_pure uid
  | none =>
      refine (Script.asks_lift _).bind fun key1 => ?_
      refine (asks_authenticateLrp P hl _ _ _ _).bind fun session => ?_
      refine Script.Asks.bind ?_ fun _ => Script.asks_pure _
      exact asks_consume (asks_readFullFixed P huid _ _ _) session

end Ntag424
