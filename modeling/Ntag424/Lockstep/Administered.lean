import Mathlib.Tactic.Common
import Ntag424.Lockstep.Handshake
import Ntag424.Lockstep.Writes
import Ntag424.Tag.Administered

/-!
# Administering a Tag in Lockstep

The commands of a session of the master key that change the setup of a tag, on a tag that obeys
the laws of `TagApp.Administered`. Each rule says what the setup is afterwards, and carries an
invariant `J` of the setups in which the tag is left between two exchanges.

## Main results

* `AtSetup.wp_changeKey`: the new key of the tag is the exclusive or of what the host sent and what
  the tag held, and only a key that is not the old one can be refused.
* `MasterSession.wp_dispatch`: a command in a session of either suite.
-/

namespace Ntag424

open Numerals SecureChannel

/-! ### The checksum of a key -/

/-- What the tag recovers from the field of the host. -/
theorem recoveredKey_changeKeyField (newKey : Key) (version : UInt8) (oldKey current : Key) :
    recoveredKey (changeKeyField newKey version oldKey) current =
      (newKey.xor oldKey).xor current := by
  have htake : (changeKeyField newKey version oldKey).take 16 = (newKey.xor oldKey).toList := by
    rw [changeKeyField, List.append_assoc, List.take_left' (Bytes.length_toList _)]
  rw [recoveredKey, htake, Bytes.fill_toList]

/-- The checksum in the field of the host. -/
theorem drop_changeKeyField (newKey : Key) (version : UInt8) (oldKey : Key) :
    (changeKeyField newKey version oldKey).drop 17 = crc32 newKey.toList := by
  rw [changeKeyField, List.drop_left' (by simp)]

variable {P : Primitives} {E S A : Type} {app : TagApp A} {setup : A → Setup} {c : Setup}
  {J : Setup → Prop}

/-! ### Commands -/

/-- The card is in a session of the master key that agrees with the host, and has the setup `c`. -/
def AtSetup (P : Primitives) {S A : Type} [LinkedSuite P S] (setup : A → Setup) (c : Setup)
    (s : Authenticated S) (w : Card A) : Prop :=
  ∃ a, Locked P .key0 a s w ∧ setup a = c

namespace AtSetup

section Commands

variable [LinkedSuite P S] {s : Authenticated S} {w : Card A}

/-- The setup of the card. -/
theorem setup_app (h : AtSetup P setup c s w) : setup w.app = c := by
  obtain ⟨a, hlock, rfl⟩ := h
  rw [hlock.app_eq]

/-- `change_file_settings` back to the settings of delivery. -/
theorem wp_restore (hP : P.Lawful) (happ : app.Administered setup) (file : File)
    (h : AtSetup P setup c s w) (hchange : (c.settings file).accessRights.change.Admits .key0)
    (hJ : J c) :
    (changeFileSettings P file.fileNo (FileSettingsView.factory file).intoUpdate).wp
      (Prog.Answers (Card.transmit P app)) (fun w => J (setup w.app))
      (fun _ => AtSetup P setup (c.restored file))
      (fun (_ : Fault (SessionError E)) _ _ => False) s w := by
  have hI : J (setup w.app) := by rwa [h.setup_app]
  obtain ⟨a, hlock, rfl⟩ := h
  have hraw := FileSettingsUpdate.encode_of_no_sdm
    (u := (FileSettingsView.factory file).intoUpdate) (by cases file <;> rfl)
  obtain ⟨a₁, hexec₁, hsetup⟩ := happ.changeFileSettings hchange hraw
  refine Script.wp_mono (wp_changeFileSettings hP file.fileNo hraw hlock hI) ?_ ?_
  · rintro _ s' w' ⟨d, a', hexec, -, hlock'⟩
    rw [hexec₁] at hexec
    obtain ⟨-, rfl⟩ := Prod.mk.inj hexec
    exact ⟨a₁, hlock', hsetup⟩
  · rintro e s' w' ⟨e', a', hexec, -, -⟩
    rw [hexec₁] at hexec
    cases (Prod.mk.inj hexec).1

/-- A plain write from the beginning of a file, within the file. -/
theorem wp_writePlain (happ : app.Administered setup) {file : File} {data : List UInt8}
    (h : AtSetup P setup c s w) (hmode : (c.settings file).writeMode .key0 = .plain)
    (hwritable : (c.settings file).Writable .key0) (hne : data ≠ [])
    (hsize : data.length ≤ file.size)
    (hJ : J c) :
    (writeFilePlainChunked file.fileNo 0 data).wp (Prog.Answers (Card.transmit P app))
      (fun w => J (setup w.app)) (fun _ => AtSetup P setup c)
      (fun (_ : Fault (SessionError E)) _ _ => False) s w := by
  have hfile : file.fileNo ≤ 0x1F ∧ file.size ≤ 256 := by cases file <;> decide
  simp only [writeFilePlainChunked, Script.wp_bind, Script.wp_require]
  refine ⟨fun _ => ?_, fun hno => absurd hne hno⟩
  refine wp_writeLoop (J := fun _ => AtSetup P setup c) (by simp [plainWriteChunk])
    (fun _ _ h => h) (fun written s w h hlt => ?_) h
  have hI : J (setup w.app) := by rwa [h.setup_app]
  obtain ⟨a, hlock, rfl⟩ := h
  have hlen : (slice data written plainWriteChunk).length =
      min plainWriteChunk (data.length - written) := by
    rw [slice, List.length_take, List.length_drop]
  have hchunk : (slice data written plainWriteChunk).length ≤ plainWriteChunk := by omega
  have hposition : (0 + UInt32.ofNat written).toNat = written := by
    rw [toNat_add_ofNat (by rw [UInt32.toNat_zero]; omega), UInt32.toNat_zero, Nat.zero_add]
  have haccepted : ∃ a', app.exec .key0 (.writeData file.fileNo written
      (slice data written plainWriteChunk).length (slice data written plainWriteChunk)) a =
        (.ok [], a') ∧ setup a' = setup a := happ.writeData hwritable (by omega)
  obtain ⟨a₁, hexec₁, hsetup⟩ := haccepted
  have hcommand : writeDataCommand file.fileNo (0 + UInt32.ofNat written)
      (slice data written plainWriteChunk) = .writeData file.fileNo written
        (slice data written plainWriteChunk).length (slice data written plainWriteChunk) := by
    rw [writeDataCommand_chunk (by rw [plainWriteChunk] at hchunk; omega), hposition,
      Nat.mod_eq_of_lt (by omega)]
  refine Script.wp_mono (wp_writeFilePlainOneApdu ?_ hlock hI ?_ ?_) ?_ fun _ _ _ he => he
  · rw [happ.fileMode, hmode]
  · rintro e w' ⟨e', a', hexec, -, -⟩
    rw [hcommand, hexec₁] at hexec
    cases (Prod.mk.inj hexec).1
  · intro e hno _
    refine hno ⟨hfile.1, by rw [hposition, u24Max]; omega, fun hnil => ?_, hchunk⟩
    rw [hnil, List.length_nil, plainWriteChunk] at hlen
    omega
  · rintro _ s' w' ⟨d, a', hexec, -, hlock'⟩
    rw [hcommand, hexec₁] at hexec
    obtain ⟨-, rfl⟩ := Prod.mk.inj hexec
    exact ⟨a₁, hlock', hsetup⟩

/-- **`change_key`**: the tag holds the exclusive or of what the host sent and what it held
before. With the right old key that is the new one. -/
theorem wp_changeKey (hP : P.Lawful) (happ : app.Administered setup)
    (keyNo : NonMasterKeyNumber) (newKey : Key) (version : UInt8) (oldKey : Key)
    (h : AtSetup P setup c s w) (hJ : J c) :
    (changeKey P keyNo newKey version oldKey).wp (Prog.Answers (Card.transmit P app))
      (fun w => J (setup w.app))
      (fun _ => AtSetup P setup (c.withKey keyNo.toKeyNumber
        ((newKey.xor oldKey).xor (c.keys keyNo.toKeyNumber))))
      (fun (_ : Fault (SessionError E)) _ _ => c.keys keyNo.toKeyNumber ≠ oldKey) s w := by
  have hI : J (setup w.app) := by rwa [h.setup_app]
  obtain ⟨a, hlock, rfl⟩ := h
  have hlen := length_changeKeyField newKey version oldKey
  refine Script.wp_mono (Ntag424.wp_changeKey hP newKey version oldKey keyNo.toKeyNumber_ne_key0
    hlock hI) ?_ ?_
  · rintro _ s' w' ⟨d, a', hexec, -, hlock'⟩
    by_cases hcrc : crc32 (recoveredKey (changeKeyField newKey version oldKey)
        ((setup a).keys keyNo.toKeyNumber)).toList = (changeKeyField newKey version oldKey).drop 17
    · obtain ⟨a₁, hexec₁, hsetup⟩ := happ.changeKey hlen hcrc
      rw [hexec₁] at hexec
      obtain ⟨-, rfl⟩ := Prod.mk.inj hexec
      rw [recoveredKey_changeKeyField] at hsetup
      exact ⟨a₁, hlock', hsetup⟩
    · obtain ⟨e, hexec₁⟩ := happ.changeKey_refused hlen hcrc
      rw [hexec₁] at hexec
      cases (Prod.mk.inj hexec).1
  · rintro e s' w' ⟨e', a', hexec, -, -⟩ hold
    have hcrc : crc32 (recoveredKey (changeKeyField newKey version oldKey)
        ((setup a).keys keyNo.toKeyNumber)).toList =
          (changeKeyField newKey version oldKey).drop 17 := by
      rw [recoveredKey_changeKeyField, hold, Bytes.xor_xor_cancel, drop_changeKeyField]
    obtain ⟨a₁, hexec₁, -⟩ := happ.changeKey hlen hcrc
    rw [hexec₁] at hexec
    cases (Prod.mk.inj hexec).1

/-- `change_master_key`. -/
theorem wp_changeMasterKey (hP : P.Lawful) (happ : app.Administered setup) (newKey : Key)
    (version : UInt8) (h : AtSetup P setup c s w) (hJ : J c) :
    (changeMasterKey P newKey version).wp (Prog.Answers (Card.transmit P app))
      (fun w => J (setup w.app)) (fun _ _ w' => setup w'.app = c.withKey .key0 newKey)
      (fun (_ : Fault (SessionError E)) _ _ => False) s w := by
  have hI : J (setup w.app) := by rwa [h.setup_app]
  obtain ⟨a, hlock, rfl⟩ := h
  have hlen : (changeMasterKeyField newKey version).length = 17 := by simp [changeMasterKeyField]
  have hfill : Bytes.fill 16 ((changeMasterKeyField newKey version).take 16) = newKey := by
    rw [changeMasterKeyField, List.take_left' (Bytes.length_toList _), Bytes.fill_toList]
  obtain ⟨a₁, hexec₁, hsetup⟩ := happ.changeMasterKey (a := a) hlen
  refine Script.wp_mono (Ntag424.wp_changeMasterKey hP newKey version hlock hI) ?_ ?_
  · rintro _ s' w' ⟨d, a', hexec, rfl⟩
    rw [hexec₁] at hexec
    obtain ⟨-, rfl⟩ := Prod.mk.inj hexec
    rw [hsetup, hfill]
  · rintro e s' w' ⟨e', a', hexec, -, -⟩
    rw [hexec₁] at hexec
    cases (Prod.mk.inj hexec).1

end Commands

/-! ### A new session -/

section First

variable {w : Card A}

/-- A handshake changes nothing. -/
theorem setup_drawn (happ : app.Administered setup) {a a' : A} {ti : Bytes 4}
    (h : app.newTi (app.rndB a).2 = (ti, a')) : setup a' = setup a := by
  have hsame := happ.newTi (app.rndB a).2
  rw [h, happ.rndB] at hsame
  exact hsame

/-- A new session with the master key of a tag in LRP mode. -/
theorem wp_authenticateLrp (hP : P.Lawful) (happ : app.Administered setup)
    (hmode : (setup w.app).lrpMode = true) (rndA : Bytes 16) (hJ : J (setup w.app)) :
    (Session.new.authenticateLrp (E := E) P .key0 ((setup w.app).keys .key0) rndA).wp
      (Prog.Answers (Card.transmit P app)) (fun w => J (setup w.app))
      (fun session _ w' => AtSetup P setup (setup w.app) session.state w') (fun _ _ _ => False)
      () w := by
  rw [← happ.lrpMode] at hmode
  rw [← happ.key]
  refine Script.wp_mono (Session.wp_authenticateLrp hP (by nofun) hmode .key0 rndA (fun _ => hJ)
    fun _ => ?_) ?_ fun _ _ _ he => he
  · rwa [happ.rndB]
  · rintro session _ w' ⟨keys, ti, a', rfl, hti, hstate, rfl⟩
    refine ⟨a', ⟨_, rfl, ?_, rfl⟩, setup_drawn happ hti⟩
    rw [hstate]
    exact ⟨rfl, rfl, rfl, rfl⟩

/-- A new session with the master key of a tag in AES mode. -/
theorem wp_authenticateAes (hP : P.Lawful) (happ : app.Administered setup)
    (hmode : (setup w.app).lrpMode = false) (rndA : Bytes 16) (hJ : J (setup w.app)) :
    (Session.new.authenticateAes (E := E) P .key0 ((setup w.app).keys .key0) rndA).wp
      (Prog.Answers (Card.transmit P app)) (fun w => J (setup w.app))
      (fun session _ w' => AtSetup P setup (setup w.app) session.state w') (fun _ _ _ => False)
      () w := by
  rw [← happ.lrpMode] at hmode
  rw [← happ.key]
  refine Script.wp_mono (Session.wp_authenticateAes hP (by nofun) hmode .key0 rndA (fun _ => hJ)
    fun _ => ?_) ?_ fun _ _ _ he => he
  · rwa [happ.rndB]
  · rintro session _ w' ⟨keys, ti, a', rfl, hti, hstate, rfl⟩
    refine ⟨a', ⟨_, rfl, ?_, rfl⟩, setup_drawn happ hti⟩
    rw [hstate]
    exact ⟨rfl, rfl, rfl, rfl⟩

/-- The handshake in LRP mode stops at the challenge of a tag in AES mode. -/
theorem wp_authenticateLrp_aesMode (happ : app.Administered setup)
    (hmode : (setup w.app).lrpMode = false) (key : Key) (rndA : Bytes 16) (hJ : J (setup w.app)) :
    (Session.new.authenticateLrp (E := E) P .key0 key rndA).wp
      (Prog.Answers (Card.transmit P app)) (fun w => J (setup w.app)) (fun _ _ _ => False)
      (fun f _ w' => f = .error (.unexpectedLength 16 17) ∧ setup w'.app = setup w.app) () w := by
  rw [← happ.lrpMode] at hmode
  refine Script.wp_mono (Session.wp_authenticateLrp_aesMode (by nofun) hmode .key0 key rndA
    fun _ => hJ) (fun _ _ _ hno => hno) ?_
  rintro f _ w' ⟨herr, happ'⟩
  rw [happ', happ.rndB]
  exact ⟨herr, rfl⟩

end First

end AtSetup

/-! ### Sessions of either suite -/

/-- A session of the master key of either suite, in lockstep with a card of the setup `c`. -/
def MasterSession (P : Primitives) (setup : A → Setup) (c : Setup) :
    EncryptedSession → Card A → Prop
  | .aes session, w => AtSetup P setup c session.state w
  | .lrp session, w => AtSetup P setup c session.state w

namespace MasterSession

variable {session : EncryptedSession} {w : Card A}

/-- A command in a session of either suite. -/
theorem wp_dispatch {c' : Setup} {I : Card A → Prop}
    {R : Fault (SessionError E) → Unit → Card A → Prop}
    {f : (S : Type) → [HandshakeSuite P S] → Session (Authenticated S) →
      Task E (Session (Authenticated S))}
    (hf : ∀ (S : Type) [HonestSuite P S] (session : Session (Authenticated S)),
      AtSetup P setup c session.state w →
      (f S session).wp (Prog.Answers (Card.transmit P app)) I
        (fun session' _ w' => AtSetup P setup c' session'.state w') R () w)
    (h : MasterSession P setup c session w) :
    (session.dispatch P f).wp (Prog.Answers (Card.transmit P app)) I
      (fun session' _ w' => MasterSession P setup c' session' w') R () w := by
  cases session with
  | aes session =>
      simp only [EncryptedSession.dispatch, Script.wp_bind, Script.wp_pure]
      exact hf AesSuite session h
  | lrp session =>
      simp only [EncryptedSession.dispatch, Script.wp_bind, Script.wp_pure]
      exact hf LrpSuite session h

end MasterSession

end Ntag424
