import Mathlib.Tactic.Common
import Ntag424.HighLevel.Provisioning
import Ntag424.Lockstep.ProfileData

/-!
# Sessions of Either Suite with a Documented Tag

The operations of an `EncryptedSession` on a tag that obeys the laws of `TagApp.Documented`: what
each returns, and the profile that it leaves.

## Main results

* `InProfile.wp_writeFile`, `InProfile.wp_readFile`: `write_file` and `read_file`, in the mode that
  the settings of the file ask for.
* `InProfile.wp_verifyOriginality`: `verify_originality`.
-/

namespace Ntag424

open Numerals SecureChannel

variable {P : Primitives} {E A : Type} {app : TagApp A} {profile : A → Profile} {k : KeyNumber}
  {c c' : Profile} {J : Profile → Prop} {session : EncryptedSession} {w : Card A} {file : File}

/-- A re-authentication with a key of the tag. -/
theorem AtProfile.wp_authenticate {S : Type} [HonestSuite P S] (hP : P.Lawful)
    (happ : app.Documented profile) {s : Session (Authenticated S)}
    (h : AtProfile P k profile c s.state w) (keyNo : KeyNumber) {key : Key}
    (hkey : c.keys keyNo = key) (rndA : Bytes 16) :
    (s.authenticate P keyNo key rndA).wp (Prog.Answers (Card.transmit P app)) (fun _ => True)
      (fun s' _ w' => AtProfile P keyNo profile c s'.state w')
      (fun (_ : Fault (SessionError E)) _ _ => False) () w := by
  obtain ⟨a, ⟨ts, rfl, hs, rfl⟩, rfl⟩ := h
  subst hkey
  rw [← happ.key]
  refine Script.wp_mono (Session.wp_authenticate app hP s ts a keyNo rndA) ?_ fun _ _ _ he => he
  rintro _ _ _ ⟨rfl, rfl⟩
  exact ⟨_, ⟨_, rfl, ⟨rfl, hs.ti, hs.cmdCounter, rfl⟩, rfl⟩, happ.rndB a⟩

namespace InProfile

/-- The profile of the card. -/
theorem profile_app (h : InProfile P k profile c session w) : profile w.app = c := by
  cases session with
  | aes session => exact AtProfile.profile_app h
  | lrp session => exact AtProfile.profile_app h

/-- `get_uid`. -/
theorem wp_getUid (hP : P.Lawful) (happ : app.Documented profile)
    (h : InProfile P k profile c session w) (hJ : J c) :
    (session.getUid P).wp (Prog.Answers (Card.transmit P app)) (fun w => J (profile w.app))
      (fun r _ w' => r.1 = c.uid ∧ InProfile P k profile c r.2 w')
      (fun (_ : Fault (SessionError E)) _ _ => False) () w :=
  h.wp_dispatchValue (V := fun uid => uid = c.uid) (R := fun _ _ => False) fun _ _ _ hs =>
    AtProfile.wp_consume (AtProfile.wp_getCardUid hP happ hs hJ)

/-- `get_tt_status`. -/
theorem wp_getTtStatus (hP : P.Lawful) (happ : app.Documented profile)
    (h : InProfile P k profile c session w) {d : Bytes 2} (hreport : c.tamperReport k = some d)
    (hJ : J c) :
    (session.getTtStatus P).wp (Prog.Answers (Card.transmit P app)) (fun w => J (profile w.app))
      (fun r _ w' => r.1 = .new (d.byte 0) (d.byte 1) ∧ InProfile P k profile c r.2 w')
      (fun (_ : Fault (SessionError E)) _ _ => False) () w :=
  h.wp_dispatchValue (V := fun status => status = TagTamperStatusReadout.new (d.byte 0) (d.byte 1))
    (R := fun _ _ => False) fun _ _ _ hs =>
    AtProfile.wp_consume (AtProfile.wp_getTtStatus hP happ hs hreport hJ)

/-- `get_tt_status` with a key that may not read the status. -/
theorem wp_getTtStatus_refused (hP : P.Lawful) (happ : app.GuardsTamperStatus profile)
    (h : InProfile P k profile c session w) (hsupport : c.version.hasTagTamperSupport = true)
    (hreport : c.tamperReport k = none) (hJ : J c) :
    (session.getTtStatus P).wp (Prog.Answers (Card.transmit P app)) (fun w => J (profile w.app))
      (fun _ _ _ => False)
      (fun (f : Fault (SessionError E)) _ w' => (∃ status, f = .error (.errorResponse status)) ∧
        profile w'.app = c) () w := by
  have hrefused : (session.getTtStatus P).wp (Prog.Answers (Card.transmit P app))
      (fun w => J (profile w.app)) (fun r _ w' => False ∧ InProfile P k profile c r.2 w')
      (fun (f : Fault (SessionError E)) _ w' => (∃ status, f = .error (.errorResponse status)) ∧
        profile w'.app = c) () w := by
    refine h.wp_dispatchValue (V := fun _ => False)
      (R := fun (f : Fault (SessionError E)) w' => (∃ status, f = .error (.errorResponse status)) ∧
        profile w'.app = c) fun S _ s hs => ?_
    refine AtProfile.wp_consume (V := fun _ => False) (Script.wp_mono
      (AtProfile.wp_getTtStatus_refused hP happ hs hsupport hreport hJ) ?_ fun _ _ _ hf => hf)
    intro _ _ _ hno
    exact hno.elim
  exact Script.wp_mono hrefused (fun _ _ _ hno => hno.1) fun _ _ _ hf => hf

/-- **`verify_originality`**: what the check says about the signature of the tag. -/
theorem wp_verifyOriginality (hP : P.Lawful) (happ : app.Documented profile)
    (h : InProfile P k profile c session w) (hJ : J c)
    (verify : Bytes signatureLen → Bytes 7 → Except OriginalityError Unit) (uid : Bytes 7) :
    (session.verifyOriginality P verify uid).wp (Prog.Answers (Card.transmit P app))
      (fun w => J (profile w.app))
      (fun r _ w' => (r.1 = c.signature ∧ verify c.signature uid = .ok ()) ∧
        InProfile P k profile c r.2 w')
      (fun (f : Fault (SessionError E)) _ w' => ∃ e, verify c.signature uid = .error e ∧
        f = .error (.originalityVerificationFailed e) ∧ profile w'.app = c) () w := by
  refine h.wp_dispatchValue
    (V := fun signature => signature = c.signature ∧ verify c.signature uid = .ok ())
    (R := fun (f : Fault (SessionError E)) w' => ∃ e, verify c.signature uid = .error e ∧
      f = .error (.originalityVerificationFailed e) ∧ profile w'.app = c) ?_
  intro S _ s hs
  simp only [Session.verifyOriginality, Script.wp_bind, Script.wp_pure]
  refine Script.wp_mono (AtProfile.wp_consume (V := fun signature => signature = c.signature)
    (R := fun _ _ => False) (AtProfile.wp_readSigMac hP happ hs hJ)) ?_ fun _ _ _ he => he.elim
  rintro ⟨signature, s'⟩ _ w' ⟨rfl, hs'⟩
  cases hverify : verify c.signature uid with
  | ok _ =>
      exact Script.wp_pure.mpr ⟨⟨rfl, rfl⟩, hs'⟩
  | error e =>
      exact Script.wp_fail.mpr ⟨e, rfl, rfl, hs'.profile_app⟩

/-- A command without a result. -/
theorem wp_dispatchUnit {I : Card A → Prop} (h : InProfile P k profile c session w)
    {cmd : (S : Type) → [HandshakeSuite P S] → Cmd E (Authenticated S) Unit}
    (hcmd : ∀ (S : Type) [HonestSuite P S] (s : Authenticated S), AtProfile P k profile c s w →
      (cmd S).wp (Prog.Answers (Card.transmit P app)) I (fun _ => AtProfile P k profile c')
        (fun _ _ _ => False) s w) :
    (session.dispatch P fun S _ s => s.consumeUnit (cmd S)).wp
      (Prog.Answers (Card.transmit P app)) I
      (fun session' _ w' => InProfile P k profile c' session' w') (fun _ _ _ => False) () w :=
  h.wp_dispatch fun S _ s hs => Ntag424.wp_consumeUnit.mpr (hcmd S s.state hs)

/-- `set_configuration`. -/
theorem wp_setConfiguration (hP : P.Lawful) (happ : app.Documented profile)
    (h : InProfile P .key0 profile c session w) {configuration : Configuration}
    (hall : c.configuredAll configuration.build = some c')
    (hJ : ∀ n c₁, c.configuredAll (configuration.build.take n) = some c₁ → J c₁) :
    (session.setConfiguration P configuration).wp (Prog.Answers (Card.transmit P app))
      (fun w => J (profile w.app))
      (fun session' _ w' => InProfile P .key0 profile c' session' w')
      (fun (_ : Fault (SessionError E)) _ _ => False) () w :=
  h.wp_dispatchUnit fun _ _ _ hs => AtProfile.wp_setConfiguration hP happ hall hs hJ

/-- `change_file_settings` to settings that the tag reports back. -/
theorem wp_changeFileSettings (hP : P.Lawful) (happ : app.Documented profile)
    (h : InProfile P k profile c session w) {u : FileSettingsUpdate} {raw : List UInt8}
    {v : FileSettingsView} (hraw : u.encode maxChangeFileSettingsLen = .ok raw)
    (hdecode : FileSettingsView.decode (payloadWith raw file.size) = .ok v)
    (hchange : (c.settings file).accessRights.change.Admits k) (hJ : J c) :
    (session.changeFileSettings P file u).wp (Prog.Answers (Card.transmit P app))
      (fun w => J (profile w.app))
      (fun session' _ w' => InProfile P k profile (c.withSettings file v) session' w')
      (fun (_ : Fault (SessionError E)) _ _ => False) () w :=
  h.wp_dispatchUnit fun _ _ _ hs =>
    AtProfile.wp_changeFileSettings hP happ hraw hdecode hs hchange hJ

/-- `write_file_with_mode`, in the mode of the file. -/
theorem wp_writeFileWithMode (hP : P.Lawful) (happ : app.Documented profile)
    (h : InProfile P k profile c session w) {mode : CommMode} {offset : UInt32}
    {data : List UInt8} (hdata : AtProfile.Accepted c k mode file offset data)
    (hJ : ∀ n, J (c.written file offset.toNat (data.take n))) :
    (session.writeFileWithMode P file offset data mode).wp (Prog.Answers (Card.transmit P app))
      (fun w => J (profile w.app))
      (fun session' _ w' =>
        InProfile P k profile (c.written file offset.toNat data) session' w')
      (fun (_ : Fault (SessionError E)) _ _ => False) () w :=
  h.wp_dispatchUnit fun _ _ _ hs => AtProfile.wp_writeCommand hP happ hs hdata hJ

/-- `change_key`, with the old key that the tag holds. -/
theorem wp_changeKey (hP : P.Lawful) (happ : app.Documented profile)
    (h : InProfile P .key0 profile c session w) (keyNo : NonMasterKeyNumber) (newKey : Key)
    (version : UInt8) {oldKey : Key} (hold : c.keys keyNo.toKeyNumber = oldKey) (hJ : J c) :
    (session.changeKey P keyNo newKey version oldKey).wp (Prog.Answers (Card.transmit P app))
      (fun w => J (profile w.app))
      (fun session' _ w' => InProfile P .key0 profile
        (c.changedKey keyNo.toKeyNumber newKey version) session' w')
      (fun (_ : Fault (SessionError E)) _ _ => False) () w :=
  h.wp_dispatchUnit fun _ _ _ hs =>
    AtProfile.wp_changeKey hP happ keyNo newKey version hs hold hJ

/-- `change_key` with another old key than the tag holds. -/
theorem wp_changeKey_refused (hP : P.Lawful) (happ : app.Documented profile)
    (h : InProfile P .key0 profile c session w) (keyNo : NonMasterKeyNumber) (newKey : Key)
    (version : UInt8) {oldKey : Key}
    (hcrc : crc32 ((newKey.xor oldKey).xor (c.keys keyNo.toKeyNumber)).toList ≠
      crc32 newKey.toList) (hJ : J c) :
    (session.changeKey P keyNo newKey version oldKey).wp (Prog.Answers (Card.transmit P app))
      (fun w => J (profile w.app)) (fun _ _ _ => False)
      (fun (f : Fault (SessionError E)) _ w' => (∃ status, f = .error (.errorResponse status)) ∧
        profile w'.app = c) () w := by
  cases session with
  | aes session =>
      simp only [EncryptedSession.changeKey, EncryptedSession.dispatch, Script.wp_bind]
      exact Ntag424.wp_consumeUnit.mpr (Script.wp_mono (AtProfile.wp_changeKey_refused hP happ
        keyNo newKey version h hcrc hJ) (fun _ _ _ hno => hno.elim) fun _ _ _ he => he)
  | lrp session =>
      simp only [EncryptedSession.changeKey, EncryptedSession.dispatch, Script.wp_bind]
      exact Ntag424.wp_consumeUnit.mpr (Script.wp_mono (AtProfile.wp_changeKey_refused hP happ
        keyNo newKey version h hcrc hJ) (fun _ _ _ hno => hno.elim) fun _ _ _ he => he)

/-- `change_master_key`. -/
theorem wp_changeMasterKey (hP : P.Lawful) (happ : app.Documented profile)
    (h : InProfile P .key0 profile c session w) (newKey : Key) (version : UInt8) (hJ : J c) :
    (session.changeMasterKey P newKey version).wp (Prog.Answers (Card.transmit P app))
      (fun w => J (profile w.app))
      (fun _ _ w' => profile w'.app = c.changedKey .key0 newKey version)
      (fun (_ : Fault (SessionError E)) _ _ => False) () w := by
  cases session with
  | aes session =>
      simp only [EncryptedSession.changeMasterKey, Session.changeMasterKey, Script.wp_bind,
        Script.wp_pure]
      exact Ntag424.wp_consumeUnit.mpr (AtProfile.wp_changeMasterKey hP happ newKey version h hJ)
  | lrp session =>
      simp only [EncryptedSession.changeMasterKey, Session.changeMasterKey, Script.wp_bind,
        Script.wp_pure]
      exact Ntag424.wp_consumeUnit.mpr (AtProfile.wp_changeMasterKey hP happ newKey version h hJ)

/-! ### Files -/

/-- The settings of a file in a session. -/
theorem wp_getFileSettings {S : Type} [HonestSuite P S] (happ : app.Documented profile)
    (file : File) {s : Session (Authenticated S)} (h : AtProfile P k profile c s.state w)
    (hJ : J c) :
    (s.getFileSettings P file).wp (Prog.Answers (Card.transmit P app))
      (fun w => J (profile w.app))
      (fun r _ w' => r.1 = c.settings file ∧ AtProfile P k profile c r.2.state w')
      (fun (_ : Fault (SessionError E)) _ _ => False) () w :=
  AtProfile.wp_consume (V := fun v => v = c.settings file) (R := fun _ _ => False)
    (AtProfile.wp_getFileSettings happ file h hJ)

/-- **`write_file`**: the mode is the one that the file asks for. -/
theorem wp_writeFile (hP : P.Lawful) (happ : app.Documented profile)
    (h : InProfile P k profile c session w) {offset : UInt32} {data : List UInt8}
    (hwritable : (c.settings file).Writable k) (hne : data ≠ [])
    (hwithin : offset.toNat + data.length ≤ file.size)
    (hJ : ∀ n, J (c.written file offset.toNat (data.take n))) :
    (session.writeFile P file offset data).wp (Prog.Answers (Card.transmit P app))
      (fun w => J (profile w.app))
      (fun session' _ w' =>
        InProfile P k profile (c.written file offset.toNat data) session' w')
      (fun (_ : Fault (SessionError E)) _ _ => False) () w := by
  have hJ₀ : J c := by
    have hnone := hJ 0
    rwa [List.take_zero, Profile.written_nil] at hnone
  refine h.wp_dispatch fun S _ s hs => ?_
  simp only [Session.writeFile, Script.wp_bind]
  refine Script.wp_mono (wp_getFileSettings happ file hs hJ₀) ?_ fun _ _ _ he => he
  rintro ⟨settings, s'⟩ _ w' ⟨rfl, hs'⟩
  refine Ntag424.wp_consumeUnit.mpr (AtProfile.wp_writeCommand hP happ hs' ?_ hJ)
  exact ⟨by rw [hs'.keyNumber_eq], hwritable, hne, hwithin⟩

/-- `read_file_with_mode`, in the mode of the file. -/
theorem wp_readFileWithMode (hP : P.Lawful) (happ : app.Documented profile)
    (h : InProfile P k profile c session w) {mode : CommMode} {offset length : UInt32}
    {buf : List UInt8} (hall : AtProfile.Offered c k mode file offset.toNat length.toNat)
    (hbuf : length.toNat ≤ buf.length) (hJ : J c) :
    (session.readFileWithMode P file offset length mode buf).wp
      (Prog.Answers (Card.transmit P app)) (fun w => J (profile w.app))
      (fun r _ w' => r.1 = (length.toNat,
        overlay buf 0 (slice (c.contents file).toList offset.toNat length.toNat)) ∧
        InProfile P k profile c r.2 w')
      (fun (_ : Fault (SessionError E)) _ _ => False) () w :=
  h.wp_dispatchValue (V := fun r => r = (length.toNat,
    overlay buf 0 (slice (c.contents file).toList offset.toNat length.toNat)))
    (R := fun _ _ => False) fun _ _ _ hs =>
    AtProfile.wp_consume (AtProfile.wp_readCommand hP happ hs hall hbuf hJ)

/-- **`read_file`**: the mode is the one that the file asks for. -/
theorem wp_readFile (hP : P.Lawful) (happ : app.Documented profile)
    (h : InProfile P k profile c session w) {offset length : UInt32} {buf : List UInt8}
    (hreadable : (c.settings file).Readable k) (hne : length.toNat ≠ 0)
    (hwithin : offset.toNat + length.toNat ≤ file.size) (hbuf : length.toNat ≤ buf.length)
    (hJ : J c) :
    (session.readFile P file offset length buf).wp (Prog.Answers (Card.transmit P app))
      (fun w => J (profile w.app))
      (fun r _ w' => r.1 = (length.toNat,
        overlay buf 0 (slice (c.contents file).toList offset.toNat length.toNat)) ∧
        InProfile P k profile c r.2 w')
      (fun (_ : Fault (SessionError E)) _ _ => False) () w := by
  refine h.wp_dispatchValue (V := fun r => r = (length.toNat,
    overlay buf 0 (slice (c.contents file).toList offset.toNat length.toNat)))
    (R := fun _ _ => False) fun S _ s hs => ?_
  simp only [Session.readFile, Script.wp_bind]
  refine Script.wp_mono (wp_getFileSettings happ file hs hJ) ?_ fun _ _ _ he => he
  rintro ⟨settings, s'⟩ _ w' ⟨rfl, hs'⟩
  refine AtProfile.wp_consume (V := fun r => r = (length.toNat,
    overlay buf 0 (slice (c.contents file).toList offset.toNat length.toNat)))
    (R := fun _ _ => False) (AtProfile.wp_readCommand hP happ hs' ?_ hbuf hJ)
  exact ⟨by rw [hs'.keyNumber_eq], hreadable, hne, hwithin⟩

/-- `authenticate`. -/
theorem wp_authenticate (hP : P.Lawful) (happ : app.Documented profile)
    (h : InProfile P k profile c session w) (keyNo : KeyNumber) {key : Key}
    (hkey : c.keys keyNo = key) (rndA : Bytes 16) :
    (session.authenticate P keyNo key rndA).wp (Prog.Answers (Card.transmit P app)) (fun _ => True)
      (fun session' _ w' => InProfile P keyNo profile c session' w')
      (fun (_ : Fault (SessionError E)) _ _ => False) () w := by
  cases session with
  | aes session =>
      simp only [EncryptedSession.authenticate, EncryptedSession.dispatch, Script.wp_bind,
        Script.wp_pure]
      exact AtProfile.wp_authenticate hP happ h keyNo hkey rndA
  | lrp session =>
      simp only [EncryptedSession.authenticate, EncryptedSession.dispatch, Script.wp_bind,
        Script.wp_pure]
      exact AtProfile.wp_authenticate hP happ h keyNo hkey rndA

end InProfile

end Ntag424
