import Mathlib.Data.List.GetD
import Mathlib.Tactic.Common
import Ntag424.Lockstep.Administered
import Ntag424.Lockstep.Run
import Ntag424.Session.FactoryState
import Ntag424.Tag.Profile

/-!
# Commands on a Documented Tag

The commands of a session with a tag that obeys the laws of `TagApp.Documented`. Each rule says
what the command returns and what the profile of the tag is afterwards, and carries an invariant
`J` of the profiles in which the tag is left between two exchanges.

## Main results

* `AtProfile.wp_performed`: what a command returns and does is what the application performs.
* `AtProfile.wp_setConfiguration`: the options are applied in their order.
* `InProfile.wp_dispatch`, `InProfile.wp_dispatchValue`: a command in a session of either suite.
* `wp_openAes`, `wp_openLrp`, `wp_openAes_lrpMode`, `wp_openLrp_aesMode`: a new session.
-/

namespace Ntag424

open Numerals SecureChannel

variable {P : Primitives} {E S A β : Type} {app : TagApp A} {profile : A → Profile}
  {k : KeyNumber} {c c' : Profile} {J : Profile → Prop}

/-- The card is in a session of a key that agrees with the host, and has the profile `c`. -/
def AtProfile (P : Primitives) {S A : Type} [LinkedSuite P S] (k : KeyNumber)
    (profile : A → Profile) (c : Profile) (s : Authenticated S) (w : Card A) : Prop :=
  ∃ a, Locked P k a s w ∧ profile a = c

namespace AtProfile

section Commands

variable [LinkedSuite P S] {s : Authenticated S} {w : Card A}

/-- The profile of the card. -/
theorem profile_app (h : AtProfile P k profile c s w) : profile w.app = c := by
  obtain ⟨a, hlock, rfl⟩ := h
  rw [hlock.app_eq]

/-- The invariant holds where a command starts. -/
theorem invariant (h : AtProfile P k profile c s w) (hJ : J c) : J (profile w.app) := by
  rwa [h.profile_app]

/-- The host knows the key of the session. -/
theorem keyNumber_eq (h : AtProfile P k profile c s w) : s.keyNumber = k := by
  obtain ⟨a, ⟨ts, -, hs, rfl⟩, -⟩ := h
  exact hs.keyNumber

/-- **What a command returns and does** is what the application performs. -/
theorem wp_performed {I : Card A → Prop} {cmd : Cmd E (Authenticated S) β} {ac : AppCommand}
    {f : List UInt8 → β} {d : List UInt8} {a : A}
    (hcmd : cmd.wp (Prog.Answers (Card.transmit P app)) I (Executed P app k ac a f)
      (Refused (E := E) app k ac a) s w)
    (hperforms : app.Performs profile k ac a d c') :
    cmd.wp (Prog.Answers (Card.transmit P app)) I
      (fun b s' w' => b = f d ∧ AtProfile P k profile c' s' w') (fun _ _ _ => False) s w := by
  obtain ⟨a₁, hexec₁, hprofile⟩ := hperforms
  refine Script.wp_mono hcmd ?_ ?_
  · rintro b s' w' ⟨d', a', hexec, rfl, hlock⟩
    rw [hexec₁] at hexec
    obtain ⟨hd, rfl⟩ := Prod.mk.inj hexec
    obtain rfl := Except.ok.inj hd
    exact ⟨rfl, a₁, hlock, hprofile⟩
  · rintro e s' w' ⟨e', a', hexec, -, -⟩
    rw [hexec₁] at hexec
    cases (Prod.mk.inj hexec).1

/-! ### Commands that change nothing -/

/-- `get_card_uid`. -/
theorem wp_getCardUid (hP : P.Lawful) (happ : app.Documented profile)
    (h : AtProfile P k profile c s w) (hJ : J c) :
    (getCardUid P).wp (Prog.Answers (Card.transmit P app)) (fun w => J (profile w.app))
      (fun uid s' w' => uid = c.uid ∧ AtProfile P k profile c s' w')
      (fun (_ : Fault (SessionError E)) _ _ => False) s w := by
  have hI := h.invariant hJ
  obtain ⟨a, hlock, rfl⟩ := h
  refine Script.wp_mono (wp_performed (Ntag424.wp_getCardUid hP hlock hI) (happ.getCardUid a k)) ?_
    fun _ _ _ he => he
  rintro uid s' w' ⟨rfl, h'⟩
  exact ⟨Bytes.fill_toList _, h'⟩

/-- `read_sig_mac`. -/
theorem wp_readSigMac (hP : P.Lawful) (happ : app.Documented profile)
    (h : AtProfile P k profile c s w) (hJ : J c) :
    (readSigMac P).wp (Prog.Answers (Card.transmit P app)) (fun w => J (profile w.app))
      (fun sig s' w' => sig = c.signature ∧ AtProfile P k profile c s' w')
      (fun (_ : Fault (SessionError E)) _ _ => False) s w := by
  have hI := h.invariant hJ
  obtain ⟨a, hlock, rfl⟩ := h
  refine Script.wp_mono (wp_performed (Ntag424.wp_readSigMac hP hlock hI) (happ.readSig a k)) ?_
    fun _ _ _ he => he
  rintro sig s' w' ⟨rfl, h'⟩
  exact ⟨Bytes.fill_toList _, h'⟩

/-- `get_tt_status`. -/
theorem wp_getTtStatus (hP : P.Lawful) (happ : app.Documented profile)
    (h : AtProfile P k profile c s w) {d : Bytes 2} (hreport : c.tamperReport k = some d)
    (hJ : J c) :
    (getTtStatus P).wp (Prog.Answers (Card.transmit P app)) (fun w => J (profile w.app))
      (fun status s' w' => status = .new (d.byte 0) (d.byte 1) ∧ AtProfile P k profile c s' w')
      (fun (_ : Fault (SessionError E)) _ _ => False) s w := by
  have hI := h.invariant hJ
  obtain ⟨a, hlock, rfl⟩ := h
  refine Script.wp_mono (wp_performed (Ntag424.wp_getTtStatus hP hlock hI)
    (happ.getTtStatus hreport)) ?_ fun _ _ _ he => he
  rintro status s' w' ⟨rfl, h'⟩
  rw [Bytes.fill_toList]
  exact ⟨rfl, h'⟩

/-- `get_tt_status` with a key that may not read the status: the tag refuses it, and nothing is
changed. -/
theorem wp_getTtStatus_refused (hP : P.Lawful) (happ : app.GuardsTamperStatus profile)
    (h : AtProfile P k profile c s w) (hsupport : c.version.hasTagTamperSupport = true)
    (hreport : c.tamperReport k = none) (hJ : J c) :
    (getTtStatus P).wp (Prog.Answers (Card.transmit P app)) (fun w => J (profile w.app))
      (fun _ _ _ => False)
      (fun (f : Fault (SessionError E)) _ w' => (∃ status, f = .error (.errorResponse status)) ∧
        profile w'.app = c) s w := by
  have hI := h.invariant hJ
  obtain ⟨a, hlock, rfl⟩ := h
  obtain ⟨e, a₁, hexec, hsame⟩ := happ hsupport hreport
  refine Script.wp_mono (Ntag424.wp_getTtStatus hP hlock hI) ?_ ?_
  · rintro _ s' w' ⟨d, a', hexec', -, -⟩
    rw [hexec] at hexec'
    cases (Prod.mk.inj hexec').1
  · rintro f s' w' ⟨e', a', hexec', rfl, happ'⟩
    rw [hexec] at hexec'
    obtain ⟨-, rfl⟩ := Prod.mk.inj hexec'
    exact ⟨⟨_, rfl⟩, by rw [happ', hsame]⟩

/-- What decodes into file settings fits a frame. -/
theorem length_le_of_decode {p : List UInt8} {v : FileSettingsView}
    (h : FileSettingsView.decode p = .ok v) : p.length ≤ maxResponseData := by
  obtain ⟨option, tail, rfl, -, -, -, htail⟩ := FileSettingsView.decode_eq_ok_iff.mp h
  have hlen : tail.length ≤ 1 + 2 + 9 * 3 := by
    unfold SdmTail at htail
    split at htail
    · obtain ⟨s, b, key, ctrRet, -, -, rfl⟩ := htail
      exact b.length_bytes_le
    · rw [htail.2]
      exact Nat.zero_le _
  have hrights : v.accessRights.toLeBytes.length = 2 := rfl
  simp only [List.length_append, List.length_cons, List.length_nil, hrights, length_leBytes,
    maxResponseData, maxApduBody, macLen]
  omega

/-- `get_file_settings_mac`. -/
theorem wp_getFileSettings (happ : app.Documented profile) (file : File)
    (h : AtProfile P k profile c s w) (hJ : J c) :
    (getFileSettingsMac P file.fileNo).wp (Prog.Answers (Card.transmit P app))
      (fun w => J (profile w.app))
      (fun v s' w' => v = c.settings file ∧ AtProfile P k profile c s' w')
      (fun (_ : Fault (SessionError E)) _ _ => False) s w := by
  have hI := h.invariant hJ
  obtain ⟨a, hlock, rfl⟩ := h
  obtain ⟨d₁, hdecode, a₁, hexec₁, hprofile⟩ := happ.getFileSettings a k file
  simp only [getFileSettingsMac, Script.wp_bind]
  refine wp_sendMac hlock hI (by simp [macLen, maxApduBody]) rfl (fun _ => rfl) rfl (by rintro ⟨⟩)
    rfl rfl id ?_ ?_ ?_
  · intro d a' s' w' hexec hlock'
    rw [hexec₁] at hexec
    obtain ⟨hd, rfl⟩ := Prod.mk.inj hexec
    obtain rfl := Except.ok.inj hd
    rw [hdecode]
    exact Script.wp_pure.mpr ⟨rfl, a₁, hlock', hprofile⟩
  · rintro e s' w' ⟨e', a', hexec, -, -⟩
    rw [hexec₁] at hexec
    cases (Prod.mk.inj hexec).1
  · intro d a' e s' w' hexec hlong _
    rw [hexec₁] at hexec
    obtain rfl := Except.ok.inj (Prod.mk.inj hexec).1
    exact absurd hlong (Nat.not_lt_of_le (length_le_of_decode hdecode))

/-- A command in a session that it consumes. -/
theorem wp_consume {session : Session (Authenticated S)} {I : Card A → Prop}
    {cmd : Cmd E (Authenticated S) β} {V : β → Prop} {R : Fault (SessionError E) → Card A → Prop}
    (h : cmd.wp (Prog.Answers (Card.transmit P app)) I
      (fun b s' w' => V b ∧ AtProfile P k profile c s' w') (fun e _ w' => R e w') session.state w) :
    (session.consume cmd).wp (Prog.Answers (Card.transmit P app)) I
      (fun r _ w' => V r.1 ∧ AtProfile P k profile c r.2.state w') (fun e _ w' => R e w') () w :=
  Ntag424.wp_consume.mpr h

/-! ### Commands that change the profile -/

/-- The loop of `set_configuration`: one option after the other. -/
theorem wp_setOptions (hP : P.Lawful) (happ : app.Documented profile)
    {options : List (UInt8 × List UInt8)} (hdata : ∀ o ∈ options, o.2.length ≤ 200)
    (hall : c.configuredAll options = some c') (h : AtProfile P .key0 profile c s w)
    (hJ : ∀ n c₁, c.configuredAll (options.take n) = some c₁ → J c₁) :
    (setOptions P options).wp (Prog.Answers (Card.transmit P app)) (fun w => J (profile w.app))
      (fun _ => AtProfile P .key0 profile c') (fun (_ : Fault (SessionError E)) _ _ => False)
      s w := by
  induction options generalizing c s w with
  | nil =>
      obtain rfl := Option.some.inj hall
      exact Script.wp_pure.mpr h
  | cons o options ih =>
      obtain ⟨option, data⟩ := o
      obtain ⟨hd, hrest⟩ := List.forall_mem_cons.mp hdata
      obtain ⟨c₁, hone, htail⟩ := Option.bind_eq_some_iff.mp hall
      have hI := h.invariant (hJ 0 c rfl)
      obtain ⟨a, hlock, rfl⟩ := h
      simp only [setOptions, Script.wp_bind]
      refine Script.wp_mono (wp_performed (wp_setConfigurationOne hP option hd hlock hI)
        (happ.setConfiguration hone)) ?_ fun _ _ _ he => he
      rintro _ s' w' ⟨-, h'⟩
      refine ih hrest htail h' fun n c₂ hn => hJ (n + 1) c₂ ?_
      exact Option.bind_eq_some_iff.mpr ⟨c₁, hone, hn⟩

/-- `set_configuration`. -/
theorem wp_setConfiguration (hP : P.Lawful) (happ : app.Documented profile)
    {configuration : Configuration} (hall : c.configuredAll configuration.build = some c')
    (h : AtProfile P .key0 profile c s w)
    (hJ : ∀ n c₁, c.configuredAll (configuration.build.take n) = some c₁ → J c₁) :
    (setConfiguration P configuration).wp (Prog.Answers (Card.transmit P app))
      (fun w => J (profile w.app)) (fun _ => AtProfile P .key0 profile c')
      (fun (_ : Fault (SessionError E)) _ _ => False) s w :=
  wp_setOptions hP happ (fun _ ho => (Configuration.length_le ho).trans (by decide)) hall h hJ

/-- `change_file_settings` to settings that the tag reports back. -/
theorem wp_changeFileSettings (hP : P.Lawful) (happ : app.Documented profile) {file : File}
    {u : FileSettingsUpdate} {raw : List UInt8} {v : FileSettingsView}
    (hraw : u.encode maxChangeFileSettingsLen = .ok raw)
    (hdecode : FileSettingsView.decode (payloadWith raw file.size) = .ok v)
    (h : AtProfile P k profile c s w)
    (hchange : (c.settings file).accessRights.change.Admits k) (hJ : J c) :
    (changeFileSettings P file.fileNo u).wp (Prog.Answers (Card.transmit P app))
      (fun w => J (profile w.app)) (fun _ => AtProfile P k profile (c.withSettings file v))
      (fun (_ : Fault (SessionError E)) _ _ => False) s w := by
  have hI := h.invariant hJ
  obtain ⟨a, hlock, rfl⟩ := h
  exact Script.wp_mono (wp_performed (Ntag424.wp_changeFileSettings hP file.fileNo hraw hlock hI)
    (happ.changeFileSettings hchange hdecode)) (fun _ _ _ h' => h'.2) fun _ _ _ he => he

/-- `change_key`, with the old key that the tag holds. -/
theorem wp_changeKey (hP : P.Lawful) (happ : app.Documented profile) (keyNo : NonMasterKeyNumber)
    (newKey : Key) (version : UInt8) {oldKey : Key} (h : AtProfile P .key0 profile c s w)
    (hold : c.keys keyNo.toKeyNumber = oldKey) (hJ : J c) :
    (changeKey P keyNo newKey version oldKey).wp (Prog.Answers (Card.transmit P app))
      (fun w => J (profile w.app))
      (fun _ => AtProfile P .key0 profile (c.changedKey keyNo.toKeyNumber newKey version))
      (fun (_ : Fault (SessionError E)) _ _ => False) s w := by
  have hI := h.invariant hJ
  obtain ⟨a, hlock, rfl⟩ := h
  have hlen := length_changeKeyField newKey version oldKey
  have hrecovered : recoveredKey (changeKeyField newKey version oldKey)
      ((profile a).keys keyNo.toKeyNumber) = newKey := by
    rw [recoveredKey_changeKeyField, hold, Bytes.xor_xor_cancel]
  have hversion : (changeKeyField newKey version oldKey).getD 16 0 = version := by
    rw [changeKeyField, List.append_assoc, List.getD_append_right _ _ _ _ (by simp)]
    simp
  have hcrc : crc32 (recoveredKey (changeKeyField newKey version oldKey)
      ((profile a).keys keyNo.toKeyNumber)).toList =
      (changeKeyField newKey version oldKey).drop 17 := by
    rw [hrecovered, drop_changeKeyField]
  have hperforms := happ.changeKey hlen hcrc
  rw [hrecovered, hversion] at hperforms
  exact Script.wp_mono (wp_performed (Ntag424.wp_changeKey hP newKey version oldKey
    keyNo.toKeyNumber_ne_key0 hlock hI) hperforms) (fun _ _ _ h' => h'.2) fun _ _ _ he => he

/-- `change_key` with another old key than the tag holds, if the checksum tells: the tag refuses
it, and nothing is changed. -/
theorem wp_changeKey_refused (hP : P.Lawful) (happ : app.Documented profile)
    (keyNo : NonMasterKeyNumber) (newKey : Key) (version : UInt8) {oldKey : Key}
    (h : AtProfile P .key0 profile c s w)
    (hcrc : crc32 ((newKey.xor oldKey).xor (c.keys keyNo.toKeyNumber)).toList ≠
      crc32 newKey.toList) (hJ : J c) :
    (changeKey P keyNo newKey version oldKey).wp (Prog.Answers (Card.transmit P app))
      (fun w => J (profile w.app)) (fun _ _ _ => False)
      (fun (f : Fault (SessionError E)) _ w' => (∃ status, f = .error (.errorResponse status)) ∧
        profile w'.app = c) s w := by
  have hI := h.invariant hJ
  obtain ⟨a, hlock, rfl⟩ := h
  have hlen := length_changeKeyField newKey version oldKey
  have hcrc' : crc32 (recoveredKey (changeKeyField newKey version oldKey)
      ((profile a).keys keyNo.toKeyNumber)).toList ≠
      (changeKeyField newKey version oldKey).drop 17 := by
    rwa [recoveredKey_changeKeyField, drop_changeKeyField]
  obtain ⟨e, hexec⟩ := happ.changeKey_refused hlen hcrc'
  refine Script.wp_mono (Ntag424.wp_changeKey hP newKey version oldKey keyNo.toKeyNumber_ne_key0
    hlock hI) ?_ ?_
  · rintro _ s' w' ⟨d, a', hexec', -, -⟩
    rw [hexec] at hexec'
    cases (Prod.mk.inj hexec').1
  · rintro f s' w' ⟨e', a', hexec', rfl, happ'⟩
    rw [hexec] at hexec'
    obtain ⟨-, rfl⟩ := Prod.mk.inj hexec'
    exact ⟨⟨_, rfl⟩, by rw [happ']⟩

/-- `change_master_key`, which ends the session. -/
theorem wp_changeMasterKey (hP : P.Lawful) (happ : app.Documented profile) (newKey : Key)
    (version : UInt8) (h : AtProfile P .key0 profile c s w) (hJ : J c) :
    (changeMasterKey P newKey version).wp (Prog.Answers (Card.transmit P app))
      (fun w => J (profile w.app))
      (fun _ _ w' => profile w'.app = c.changedKey .key0 newKey version)
      (fun (_ : Fault (SessionError E)) _ _ => False) s w := by
  have hI := h.invariant hJ
  obtain ⟨a, hlock, rfl⟩ := h
  have hlen : (changeMasterKeyField newKey version).length = 17 := by simp [changeMasterKeyField]
  have hfill : Bytes.fill 16 ((changeMasterKeyField newKey version).take 16) = newKey := by
    rw [changeMasterKeyField, List.take_left' (Bytes.length_toList _), Bytes.fill_toList]
  have hversion : (changeMasterKeyField newKey version).getD 16 0 = version := by
    rw [changeMasterKeyField, List.getD_append_right _ _ _ _ (by simp)]
    simp
  obtain ⟨a₁, hexec₁, hprofile⟩ := happ.changeMasterKey (a := a) hlen
  rw [hfill, hversion] at hprofile
  refine Script.wp_mono (Ntag424.wp_changeMasterKey hP newKey version hlock hI) ?_ ?_
  · rintro _ s' w' ⟨d, a', hexec, rfl⟩
    rw [hexec₁] at hexec
    obtain ⟨-, rfl⟩ := Prod.mk.inj hexec
    exact hprofile
  · rintro e s' w' ⟨e', a', hexec, -, -⟩
    rw [hexec₁] at hexec
    cases (Prod.mk.inj hexec).1

end Commands

end AtProfile

/-! ### A new session -/

section First

variable {card : Card A} {I : Card A → Prop}

/-- A tag in LRP mode refuses an AES authentication. -/
theorem AesSuite.wp_authenticateEv2First_lrpMode {σ : Type} {t : σ}
    (hsel : card.channel ≠ .deselected) (hmode : app.lrpMode card.app = true) (keyNo : KeyNumber)
    (key : Key) (rndA : Bytes 16) (hI : I card) :
    (AesSuite.authenticateEv2First P keyNo key rndA : Cmd E σ (AuthResult AesSuite)).wp
      (Prog.Answers (Card.transmit P app)) I (fun _ _ _ => False)
      (fun f _ w' => f = .error (.errorResponse TagError.permissionDenied.status) ∧
        w'.app = card.app) t card := by
  have hpart1 : card.handle P app
      (nativeApdu 0x71 0x00 0x00 [keyNo.asByte, 0x03, 0x00, 0x00, 0x00]) =
      Card.refuse .permissionDenied card.app := by
    rw [Card.handle_first hsel (by simp)]
    simp only [Card.firstPart1, KeyNumber.ofNibble?_asByte, hmode]
    rfl
  simp only [AesSuite.authenticateEv2First, Script.wp_bind]
  refine wp_transmitExpecting_card hI hpart1 (fun hok => ?_) fun _ => ⟨rfl, rfl⟩
  exact absurd hok TagError.permissionDenied.status_ne.2.1

/-- Drawing the randoms of a handshake changes nothing else. -/
theorem TagApp.Documented.profile_drawn (happ : app.Documented profile) {a a' : A} {ti : Bytes 4}
    (h : app.newTi (app.rndB a).2 = (ti, a')) : profile a' = profile a := by
  have hsame := happ.newTi (app.rndB a).2
  rw [h, happ.rndB] at hsame
  exact hsame

variable {w : Card A}

/-- A new session of a key of a tag in AES mode. -/
theorem wp_openAes (hP : P.Lawful) (happ : app.Documented profile)
    (hprofile : profile w.app = c) (hmode : c.lrpMode = false) {key : Key} (hkey : c.keys k = key)
    (rndA : Bytes 16) (hJ : J c) :
    (Session.new.authenticateAes (E := E) P k key rndA).wp
      (Prog.Answers (Card.transmit P app)) (fun w => J (profile w.app))
      (fun session _ w' => AtProfile P k profile c session.state w') (fun _ _ _ => False) () w := by
  subst hprofile hkey
  rw [← happ.lrpMode] at hmode
  rw [← happ.key]
  refine Script.wp_mono (Session.wp_authenticateAes hP (by rintro ⟨⟩) hmode k rndA (fun _ => hJ)
    fun _ => ?_) ?_ fun _ _ _ he => he
  · rwa [happ.rndB]
  · rintro session _ w' ⟨keys, ti, a', rfl, hti, hstate, rfl⟩
    refine ⟨a', ⟨_, rfl, ?_, rfl⟩, happ.profile_drawn hti⟩
    rw [hstate]
    exact ⟨rfl, rfl, rfl, rfl⟩

/-- A new session of a key of a tag in LRP mode. -/
theorem wp_openLrp (hP : P.Lawful) (happ : app.Documented profile)
    (hprofile : profile w.app = c) (hmode : c.lrpMode = true) {key : Key} (hkey : c.keys k = key)
    (rndA : Bytes 16) (hJ : J c) :
    (Session.new.authenticateLrp (E := E) P k key rndA).wp
      (Prog.Answers (Card.transmit P app)) (fun w => J (profile w.app))
      (fun session _ w' => AtProfile P k profile c session.state w') (fun _ _ _ => False) () w := by
  subst hprofile hkey
  rw [← happ.lrpMode] at hmode
  rw [← happ.key]
  refine Script.wp_mono (Session.wp_authenticateLrp hP (by rintro ⟨⟩) hmode k rndA (fun _ => hJ)
    fun _ => ?_) ?_ fun _ _ _ he => he
  · rwa [happ.rndB]
  · rintro session _ w' ⟨keys, ti, a', rfl, hti, hstate, rfl⟩
    refine ⟨a', ⟨_, rfl, ?_, rfl⟩, happ.profile_drawn hti⟩
    rw [hstate]
    exact ⟨rfl, rfl, rfl, rfl⟩

/-- No AES session opens on a tag in LRP mode. -/
theorem wp_openAes_lrpMode (happ : app.Documented profile) (hprofile : profile w.app = c)
    (hmode : c.lrpMode = true) (key : Key) (rndA : Bytes 16) (hJ : J c) :
    (Session.new.authenticateAes (E := E) P k key rndA).wp
      (Prog.Answers (Card.transmit P app)) (fun w => J (profile w.app)) (fun _ _ _ => False)
      (fun f _ w' => f = .error (.errorResponse TagError.permissionDenied.status) ∧
        profile w'.app = c) () w := by
  subst hprofile
  rw [← happ.lrpMode] at hmode
  simp only [Session.authenticateAes, Script.wp_bind, Script.wp_on, Script.wp_pure]
  refine Session.wp_selectNdefApplication hJ (by rintro ⟨⟩) fun session' card' hsel happ' => ?_
  rw [← happ'] at hmode hJ ⊢
  refine Script.wp_mono (AesSuite.wp_authenticateEv2First_lrpMode hsel hmode k key rndA hJ)
    (fun _ _ _ hno => hno.elim) ?_
  rintro f _ w' ⟨rfl, hsame⟩
  exact ⟨rfl, by rw [hsame]⟩

/-- No LRP session opens on a tag in AES mode. -/
theorem wp_openLrp_aesMode (happ : app.Documented profile) (hprofile : profile w.app = c)
    (hmode : c.lrpMode = false) (key : Key) (rndA : Bytes 16) (hJ : J c) :
    (Session.new.authenticateLrp (E := E) P k key rndA).wp
      (Prog.Answers (Card.transmit P app)) (fun w => J (profile w.app)) (fun _ _ _ => False)
      (fun f _ w' => f = .error (.unexpectedLength 16 17) ∧ profile w'.app = c) () w := by
  subst hprofile
  rw [← happ.lrpMode] at hmode
  refine Script.wp_mono (Session.wp_authenticateLrp_aesMode (by rintro ⟨⟩) hmode k key rndA
    fun _ => hJ) (fun _ _ _ hno => hno) ?_
  rintro f _ w' ⟨herr, happ'⟩
  rw [happ', happ.rndB]
  exact ⟨herr, rfl⟩

end First

/-! ### Sessions of either suite -/

/-- A session of a key and either suite, in lockstep with a card of the profile `c`. -/
def InProfile (P : Primitives) (k : KeyNumber) (profile : A → Profile) (c : Profile) :
    EncryptedSession → Card A → Prop
  | .aes session, w => AtProfile P k profile c session.state w
  | .lrp session, w => AtProfile P k profile c session.state w

namespace InProfile

variable {session : EncryptedSession} {w : Card A} {I : Card A → Prop}

/-- A command in a session of either suite. -/
theorem wp_dispatch {R : Fault (SessionError E) → Unit → Card A → Prop}
    {f : (S : Type) → [HandshakeSuite P S] → Session (Authenticated S) →
      Task E (Session (Authenticated S))}
    (h : InProfile P k profile c session w)
    (hf : ∀ (S : Type) [HonestSuite P S] (session : Session (Authenticated S)),
      AtProfile P k profile c session.state w →
      (f S session).wp (Prog.Answers (Card.transmit P app)) I
        (fun session' _ w' => AtProfile P k profile c' session'.state w') R () w) :
    (session.dispatch P f).wp (Prog.Answers (Card.transmit P app)) I
      (fun session' _ w' => InProfile P k profile c' session' w') R () w := by
  cases session with
  | aes session =>
      simp only [EncryptedSession.dispatch, Script.wp_bind, Script.wp_pure]
      exact hf AesSuite session h
  | lrp session =>
      simp only [EncryptedSession.dispatch, Script.wp_bind, Script.wp_pure]
      exact hf LrpSuite session h

/-- A command with a result. -/
theorem wp_dispatchValue {V : β → Prop} {R : Fault (SessionError E) → Card A → Prop}
    {f : (S : Type) → [HandshakeSuite P S] → Session (Authenticated S) →
      Task E (β × Session (Authenticated S))}
    (h : InProfile P k profile c session w)
    (hf : ∀ (S : Type) [HonestSuite P S] (session : Session (Authenticated S)),
      AtProfile P k profile c session.state w →
      (f S session).wp (Prog.Answers (Card.transmit P app)) I
        (fun r _ w' => V r.1 ∧ AtProfile P k profile c' r.2.state w') (fun e _ w' => R e w') () w) :
    (session.dispatchValue P f).wp (Prog.Answers (Card.transmit P app)) I
      (fun r _ w' => V r.1 ∧ InProfile P k profile c' r.2 w') (fun e _ w' => R e w') () w := by
  cases session with
  | aes session =>
      simp only [EncryptedSession.dispatchValue, Script.wp_bind, Script.wp_pure]
      exact hf AesSuite session h
  | lrp session =>
      simp only [EncryptedSession.dispatchValue, Script.wp_bind, Script.wp_pure]
      exact hf LrpSuite session h

end InProfile

end Ntag424
