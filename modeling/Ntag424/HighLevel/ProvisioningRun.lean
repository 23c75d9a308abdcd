import Mathlib.Tactic.Common
import Ntag424.HighLevel.DocumentedTag
import Ntag424.HighLevel.Instructions
import Ntag424.HighLevel.ProvisionedProfile
import Ntag424.Tag.Powered

/-!
# Provisioning a Documented Tag

On a tag with default keys that obeys the laws of `TagApp.Documented`, provisioning over the wire
does to the profile of the tag what `Profile.provision` says, and between two exchanges the tag has
one of the profiles of `Profile.Waypoint`.

## Main results

* `wp_provisionInSessions`: the sessions of a run, on the card.
* `PoweredTag.wp_provisionWithFn`: the whole run, on a tag in the field.
-/

namespace Ntag424

open SdmUrl Numerals

variable {P : Primitives} {E A K : Type} {app : TagApp A} {profile : A → Profile} {c : Profile}
  {J : Profile → Prop} {session : EncryptedSession} {w : Card A}

/-! ### Options -/

/-- One option is applied or not. -/
theorem invariant_take_one {o : UInt8 × List UInt8} {c' : Profile}
    (hall : c.configuredAll [o] = some c') (hJ : J c) (hJ' : J c') (n : ℕ) (c₁ : Profile)
    (h : c.configuredAll ([o].take n) = some c₁) : J c₁ := by
  cases n with
  | zero =>
      obtain rfl := Option.some.inj h
      exact hJ
  | succ n =>
      rw [List.take_succ_cons, List.take_nil, hall] at h
      obtain rfl := Option.some.inj h
      exact hJ'

theorem configuredAll_withLrpEnabled (c : Profile) :
    c.configuredAll Configuration.new.withLrpEnabled.build = some c.inLrpMode := by
  have hone : c.configuredAll Configuration.new.withLrpEnabled.build =
      some { c with lrpMode := c.lrpMode || true } := rfl
  rw [hone, Bool.or_true]
  rfl

theorem build_provisioningConfiguration (tamper : Bool) :
    (provisioningConfiguration tamper).build =
      (0x00, [0x02]) :: if tamper then [(0x07, [0x01, 0x0E])] else [] := by
  cases tamper <;> rfl

theorem configuredAll_randomUid (c : Profile) :
    c.configuredAll [(0x00, [0x02])] = some (c.tagged false) := by
  have hone : c.configuredAll [(0x00, [0x02])] =
      some { c with randomUid := c.randomUid || true } := rfl
  rw [hone, Bool.or_true]
  rfl

theorem configuredAll_provisioning {tamper : Bool}
    (htamper : tamper = true → c.version.hasTagTamperSupport = true) :
    c.configuredAll (provisioningConfiguration tamper).build = some (c.tagged tamper) := by
  rw [build_provisioningConfiguration]
  cases tamper with
  | false => exact configuredAll_randomUid c
  | true =>
      have hfirst : c.configured 0x00 [0x02] = some (c.tagged false) := by
        have hone : c.configured 0x00 [0x02] =
            some { c with randomUid := c.randomUid || true } := rfl
        rw [hone, Bool.or_true]
        rfl
      have hsecond : (c.tagged false).configured 0x07 [0x01, 0x0E] = some (c.tagged true) :=
        if_pos (htamper rfl)
      rw [if_pos rfl, Profile.configuredAll, hfirst, Option.bind_some, Profile.configuredAll,
        hsecond]
      rfl

/-! ### The sessions of a run -/

/-- The attempt at an AES session leaves the tag in LRP mode. -/
theorem wp_switchToLrp (hP : P.Lawful) (happ : app.Documented profile)
    (hprofile : profile w.app = c) (hkey : c.keys .key0 = factoryKey) (rnd : Bytes 16)
    (hJ : J c) (hlrp : J c.inLrpMode) :
    (switchToLrp P rnd).wp (Prog.Answers (Card.transmit P app)) (fun w => J (profile w.app))
      (fun _ _ w' => profile w'.app = c.inLrpMode) (fun (_ : Fault (SessionError E)) _ _ => False)
      () w := by
  simp only [switchToLrp, Script.wp_bind, Script.wp_attempt]
  cases hmode : c.lrpMode with
  | false =>
      refine Script.wp_mono (wp_openAes hP happ hprofile hmode hkey rnd hJ) ?_
        fun _ _ _ he => he.elim
      intro session _ w' hs
      simp only [Session.enableLrp, Script.wp_bind, Script.wp_pure]
      have hall := configuredAll_withLrpEnabled c
      refine Script.wp_mono (AtProfile.wp_consume (V := fun _ => True) (R := fun _ _ => False)
        (Script.wp_mono (AtProfile.wp_setConfiguration hP happ hall hs ?_)
          (fun _ _ _ h' => ⟨trivial, h'⟩) fun _ _ _ he => he)) ?_ fun _ _ _ he => he
      · exact invariant_take_one hall hJ hlrp
      · rintro r _ w'' ⟨-, hs'⟩
        exact hs'.profile_app
  | true =>
      refine Script.wp_mono (wp_openAes_lrpMode happ hprofile hmode factoryKey rnd hJ)
        (fun _ _ _ hno => hno.elim) ?_
      rintro _ _ w' ⟨rfl, hsame⟩
      refine Script.wp_pure.mpr ?_
      rw [hsame, Profile.inLrpMode, ← hmode]

/-- The session of a run. -/
theorem wp_authenticateUsingFactoryDefaults (hP : P.Lawful) (happ : app.Documented profile)
    (hprofile : profile w.app = c) (hkey : c.keys .key0 = factoryKey) (rnd : ℕ → Bytes 16)
    (hJ : J c) (hlrp : J c.inLrpMode) :
    (authenticateUsingFactoryDefaults P rnd).wp (Prog.Answers (Card.transmit P app))
      (fun w => J (profile w.app))
      (fun session _ w' => InProfile P .key0 profile c.inLrpMode session w')
      (fun (_ : Fault (SessionError E)) _ _ => False) () w := by
  rw [authenticateUsingFactoryDefaults]
  refine Script.wp_bind_of (wp_switchToLrp hP happ hprofile hkey _ hJ hlrp) ?_ fun _ _ _ he => he
  intro _ _ w' hprofile'
  simp only [Script.wp_bind, Script.wp_pure]
  exact Script.wp_mono (wp_openLrp hP happ hprofile' rfl hkey _ hlrp)
    (fun _ _ _ hs => hs) fun _ _ _ he => he

/-- The identity of the tag, if its signature is genuine. -/
theorem wp_verifyOriginality (hP : P.Lawful) (happ : app.Documented profile)
    (h : InProfile P .key0 profile c session w) (hJ : J c)
    (verify : Bytes signatureLen → Bytes 7 → Except OriginalityError Unit) :
    (verifyOriginality P verify session).wp (Prog.Answers (Card.transmit P app))
      (fun w => J (profile w.app))
      (fun r _ w' => (r.1 = c.uid ∧ r.2.2 = c.signature ∧ verify c.signature c.uid = .ok ()) ∧
        InProfile P .key0 profile c r.2.1 w')
      (fun (f : Fault (SessionError E)) _ w' => ∃ e, verify c.signature c.uid = .error e ∧
        f = .error (.originalityVerificationFailed e) ∧ profile w'.app = c) () w := by
  rw [verifyOriginality]
  refine Script.wp_bind_of (h.wp_getUid hP happ hJ) ?_ fun _ _ _ he => he.elim
  rintro ⟨uid, session'⟩ _ w' ⟨rfl, hs⟩
  simp only [Script.wp_bind, Script.wp_pure]
  refine Script.wp_mono (InProfile.wp_verifyOriginality hP happ hs hJ verify c.uid) ?_
    fun _ _ _ he => he
  rintro ⟨signature, session''⟩ _ w'' ⟨⟨rfl, hverify⟩, hs'⟩
  exact ⟨⟨trivial, rfl, hverify⟩, hs'⟩

/-- The options of a run: the tag is found tampered with, or it is not. -/
theorem wp_configure (hP : P.Lawful) (happ : app.Documented profile)
    (h : InProfile P .key0 profile c session w) {enable : Bool} (hJ : J c)
    (hfirst : J (c.tagged false)) (hall : J (c.tagged (enablesTagTamper c.version enable))) :
    (configure P session c.version enable : ProvisioningTask E K _).wp
      (Prog.Answers (Card.transmit P app)) (fun w => J (profile w.app))
      (fun session' _ w' =>
        (enablesTagTamper c.version enable = true → c.tamperReadout.isTampered = false) ∧
        InProfile P .key0 profile (c.tagged (enablesTagTamper c.version enable)) session' w')
      (fun f _ w' => f = .error (.tampered c.tamperReadout) ∧
        (enablesTagTamper c.version enable = true ∧ c.tamperReadout.isTampered = true) ∧
        profile w'.app = c.tagged (enablesTagTamper c.version enable)) () w := by
  have hsupport : enablesTagTamper c.version enable = true →
      c.version.hasTagTamperSupport = true := fun h => (Bool.and_eq_true_iff.mp h).1
  have hconfigured := configuredAll_provisioning hsupport
  rw [configure]
  generalize hwatch : enablesTagTamper c.version enable = watch at *
  simp only [Script.wp_bind, Script.wp_mapError]
  refine Script.wp_mono (h.wp_setConfiguration hP happ hconfigured ?_) ?_ fun _ _ _ he => he.elim
  · intro n c₁ hn
    rw [build_provisioningConfiguration] at hn hconfigured
    cases watch with
    | false => exact invariant_take_one hconfigured hJ hall n c₁ hn
    | true =>
        rcases n with _ | _ | n
        · obtain rfl := Option.some.inj hn
          exact hJ
        · have hone : c.configuredAll [(0x00, [0x02])] = some c₁ := hn
          rw [configuredAll_randomUid] at hone
          obtain rfl := Option.some.inj hone
          exact hfirst
        · have htwo : c.configuredAll [(0x00, [0x02]), (0x07, [0x01, 0x0E])] = some c₁ := by
            rwa [if_pos rfl, List.take_succ_cons, List.take_succ_cons, List.take_nil] at hn
          rw [if_pos rfl, htwo] at hconfigured
          obtain rfl := Option.some.inj hconfigured
          exact hall
  intro session' _ w' hs
  cases watch with
  | false =>
      rw [if_neg Bool.false_ne_true]
      exact Script.wp_pure.mpr ⟨by rintro ⟨⟩, hs⟩
  | true =>
      have hreport : (c.tagged true).tamperReport .key0 = some c.tamperStatus := by
        have hversion : (c.tagged true).version.hasTagTamperSupport = true := hsupport rfl
        rw [Profile.tamperReport, if_pos hversion]
        rfl
      simp only [if_true, Script.wp_bind, Script.wp_mapError, Script.wp_require, Script.wp_pure]
      refine Script.wp_mono (hs.wp_getTtStatus hP happ hreport hall) ?_ fun _ _ _ he => he.elim
      rintro ⟨status, session''⟩ _ w'' ⟨hstatus, hs'⟩
      obtain rfl : status = c.tamperReadout := hstatus
      refine ⟨fun hclosed => ⟨fun _ => hclosed, hs'⟩, fun hopen => ?_⟩
      exact ⟨rfl, ⟨trivial, (Bool.not_eq_false _).mp hopen⟩, hs'.profile_app⟩

/-- The two files of a run. -/
theorem wp_configureNdef (hP : P.Lawful) (happ : app.Documented profile) {config : SdmUrlConfig}
    (h : InProfile P .key0 profile c session w) (hdeployable : config.Deployable)
    (hndef : (c.settings .ndef).Writable .key0)
    (hchange : (c.settings .ndef).accessRights.change.Admits .key0)
    (hcontainer : (c.settings .capabilityContainer).Writable .key0)
    (hplain : (c.settings .capabilityContainer).writeMode .key0 = .plain)
    (hwriting : ∀ n, J (c.written .ndef 0 (config.ndefBytes.take n)))
    (hlabelling : ∀ n, J ((c.mirroring config).written .capabilityContainer 0
      (provisionedContainerBytes.take n))) :
    (configureNdef P session config).wp (Prog.Answers (Card.transmit P app))
      (fun w => J (profile w.app))
      (fun session' _ w' => InProfile P .key0 profile (c.filed config) session' w')
      (fun (_ : Fault (SessionError E)) _ _ => False) () w := by
  obtain ⟨raw, hraw, hdecode⟩ := hdeployable.settings
  have hwithin : (0 : UInt32).toNat + config.ndefBytes.length ≤ File.ndef.size := by
    rw [UInt32.toNat_zero, Nat.zero_add]
    exact hdeployable.length_le
  have hwritten : J (c.written .ndef 0 config.ndefBytes) := by
    have hall := hwriting config.ndefBytes.length
    rwa [List.take_length] at hall
  have hsettings : (c.mirroring config).settings .capabilityContainer =
      c.settings .capabilityContainer := Profile.withSettings_settings_of_ne (by decide) _
  rw [configureNdef]
  refine Script.wp_bind_of (h.wp_writeFile hP happ hndef hdeployable.ne_nil hwithin hwriting) ?_
    fun _ _ _ he => he
  intro session₁ _ w₁ h₁
  refine Script.wp_bind_of (h₁.wp_changeFileSettings hP happ hraw hdecode hchange hwritten) ?_
    fun _ _ _ he => he
  intro session₂ _ w₂ h₂
  rw [toBytes_provisionedContainer]
  simp only [Script.wp_bind, Script.wp_lift_ok]
  refine InProfile.wp_writeFileWithMode hP happ h₂ ?_ hlabelling
  refine ⟨?_, ?_, by decide, by decide⟩
  · rw [← hplain, ← hsettings]
    rfl
  · rw [← hsettings] at hcontainer
    exact hcontainer

/-- The loop over the keys: before each key, those before it are new. -/
theorem wp_setKeys (hP : P.Lawful) (happ : app.Documented profile) {newKeys : KeyNumber → Key}
    {keys : List NonMasterKeyNumber} (hnodup : keys.Nodup)
    (h : InProfile P .key0 profile c session w)
    (hold : ∀ keyNo ∈ keys, c.keys keyNo.toKeyNumber = factoryKey)
    (hJ : ∀ n, J (c.keyed newKeys 0x01 (keys.take n))) :
    (setKeys P newKeys keys session).wp (Prog.Answers (Card.transmit P app))
      (fun w => J (profile w.app))
      (fun session' _ w' => InProfile P .key0 profile (c.keyed newKeys 0x01 keys) session' w')
      (fun (_ : Fault (SessionError E)) _ _ => False) () w := by
  induction keys generalizing c session w with
  | nil => exact Script.wp_pure.mpr h
  | cons keyNo rest ih =>
      obtain ⟨hfirst, hnodup⟩ := List.nodup_cons.mp hnodup
      obtain ⟨hfactory, hold⟩ := List.forall_mem_cons.mp hold
      rw [setKeys]
      refine Script.wp_bind_of (h.wp_changeKey hP happ keyNo _ 0x01 hfactory (hJ 0)) ?_
        fun _ _ _ he => he
      intro session₁ _ w₁ h₁
      refine ih hnodup h₁ ?_ fun n => hJ (n + 1)
      intro other hother
      have hne : other.toKeyNumber ≠ keyNo.toKeyNumber := by
        intro hsame
        rw [NonMasterKeyNumber.toKeyNumber_injective hsame] at hother
        exact hfirst hother
      rw [Profile.changedKey_keys_of_ne hne, hold other hother]

/-- The keys of a run, the master key last. -/
theorem wp_provisionKeys (hP : P.Lawful) (happ : app.Documented profile)
    {newKeys : KeyNumber → Key} (h : InProfile P .key0 profile c session w)
    (hold : ∀ k, c.keys k = factoryKey)
    (hJ : ∀ n, J (c.keyed newKeys 0x01 (nonMasterKeys.take n))) :
    (provisionKeys P session newKeys).wp (Prog.Answers (Card.transmit P app))
      (fun w => J (profile w.app))
      (fun _ _ w' => profile w'.app =
        (c.keyed newKeys 0x01 nonMasterKeys).changedKey .key0 (newKeys .key0) 0x01)
      (fun (_ : Fault (SessionError E)) _ _ => False) () w := by
  rw [provisionKeys]
  refine Script.wp_bind_of (wp_setKeys hP happ (by decide) h (fun _ _ => hold _) hJ) ?_
    fun _ _ _ he => he
  intro session₁ _ w₁ h₁
  simp only [Script.wp_bind, Script.wp_pure]
  exact h₁.wp_changeMasterKey hP happ _ _ (hJ nonMasterKeys.length)

/-! ### A whole run -/

variable {verify : Bytes signatureLen → Bytes 7 → Except OriginalityError Unit}
  {config : SdmUrlConfig} {keys : Bytes 7 → Except K (KeyNumber → Key)}

/-- Before its files are written the tag is configured, and the rights are as they were. -/
theorem Profile.FilesWritable.prepared (h : c.FilesWritable) :
    (c.prepared config).FilesWritable :=
  ⟨h.ndef_writable, h.ndef_change, h.container_writable, h.container_plain⟩

/-- The sessions of a run, on the card of a tag with the master key of delivery, up to the keys:
what happens to them is left open. -/
theorem wp_provisionInSessions_of (hP : P.Lawful) (happ : app.Documented profile)
    (hprofile : profile w.app = c) (hmaster : c.keys .key0 = factoryKey)
    (hwritable : c.FilesWritable) (hdeployable : config.Deployable)
    (hversion : c.version.hwType = 0x04) (rnd : ℕ → Bytes 16)
    {Q : Bytes 7 × Bytes signatureLen → Card A → Prop}
    {R : ProvisioningFailure E K → Card A → Prop}
    (hfailed : ∀ e w', c.provision verify config keys E = (.error e, profile w'.app) → R e w')
    (hkeyed : ∀ newKeys session w', c.Approved verify keys newKeys → c.Untampered config →
      InProfile P .key0 profile ((c.prepared config).filed config) session w' →
      (provisionKeys P session newKeys).wp (Prog.Answers (Card.transmit P app))
        (fun w => c.Waypoint verify config keys (profile w.app))
        (fun _ _ => Q (c.uid, c.signature))
        (fun f _ w'' => ∃ e, f = .error e ∧ R (.sessionError e) w'') () w') :
    (provisionInSessions P verify config keys rnd c.version).wp
      (Prog.Answers (Card.transmit P app)) (fun w => c.Waypoint verify config keys (profile w.app))
      (fun r _ => Q r) (fun f _ w' => ∃ e, f = .error e ∧ R e w') () w := by
  have hlrp : c.Waypoint verify config keys c.inLrpMode := .inLrpMode hversion
  simp only [provisionInSessions, Script.wp_bind, Script.wp_mapError]
  refine Script.wp_mono (wp_authenticateUsingFactoryDefaults hP happ hprofile hmaster rnd
    .untouched hlrp) ?_ fun _ _ _ he => he.elim
  intro session _ w₁ h
  refine Script.wp_mono (wp_verifyOriginality hP happ h hlrp verify) ?_ ?_
  rotate_left
  · -- the signature is not genuine
    rintro _ _ w₂ ⟨e, hverify, rfl, hprofile'⟩
    refine ⟨_, rfl, hfailed _ _ ?_⟩
    have hverify' : verify c.signature c.uid = .error e := hverify
    rw [Profile.provision, if_pos hversion, hverify', hprofile']
  rintro ⟨uid, session₂, signature⟩ _ w₂ ⟨⟨rfl, rfl, hverify⟩, h⟩
  have hverify : verify c.signature c.uid = .ok () := hverify
  cases hkeys : keys c.uid with
  | error e =>
      have hkeys' : keys c.inLrpMode.uid = .error e := hkeys
      simp only [hkeys']
      refine Script.wp_fail.mpr ⟨_, rfl, hfailed _ _ ?_⟩
      rw [Profile.provision, if_pos hversion, hverify, hkeys, h.profile_app]
  | ok newKeys =>
      have hkeys' : keys c.inLrpMode.uid = .ok newKeys := hkeys
      have happroved : c.Approved verify keys newKeys := ⟨hversion, hverify, hkeys⟩
      simp only [hkeys', Script.wp_bind, Script.wp_mapError, Script.wp_pure]
      refine Script.wp_mono (wp_configure hP happ h hlrp (.tagging happroved)
        (.prepared happroved)) ?_ ?_
      rotate_left
      · -- the tag has been tampered with
        rintro _ _ w₃ ⟨rfl, htampered, hprofile'⟩
        refine ⟨_, rfl, hfailed _ _ ?_⟩
        rw [Profile.provision, if_pos hversion, hverify, hkeys]
        exact (if_pos htampered).trans (by rw [hprofile']; rfl)
      rintro session₃ _ w₃ ⟨hclosed, h⟩
      have huntampered : c.Untampered config := hclosed
      have hprepared : (c.prepared config).FilesWritable := hwritable.prepared
      refine Script.wp_mono (wp_configureNdef hP happ h hdeployable hprepared.ndef_writable
        hprepared.ndef_change hprepared.container_writable hprepared.container_plain
        (.writing happroved huntampered) (.labelling happroved huntampered)) ?_
        fun _ _ _ he => he.elim
      intro session₄ _ w₄ h
      refine Script.wp_mono (hkeyed newKeys session₄ w₄ happroved huntampered h)
        (fun _ _ _ hend => hend) ?_
      rintro _ _ w₅ ⟨e, rfl, hend⟩
      exact ⟨_, rfl, hend⟩

/-- **The sessions of a run**, on the card of a tag with default keys. -/
theorem wp_provisionInSessions (hP : P.Lawful) (happ : app.Documented profile)
    (hprofile : profile w.app = c) (hstart : c.Provisionable) (hdeployable : config.Deployable)
    (hversion : c.version.hwType = 0x04) (rnd : ℕ → Bytes 16) :
    (provisionInSessions P verify config keys rnd c.version).wp
      (Prog.Answers (Card.transmit P app)) (fun w => c.Waypoint verify config keys (profile w.app))
      (fun r _ w' => c.provision verify config keys E = (.ok r, profile w'.app))
      (fun f _ w' => ∃ e, f = .error e ∧
        c.provision verify config keys E = (.error e, profile w'.app)) () w := by
  refine wp_provisionInSessions_of hP happ hprofile (hstart.keys .key0) hstart.toFilesWritable
    hdeployable hversion rnd (fun _ _ hend => hend) ?_
  intro newKeys session w' happroved huntampered h
  refine Script.wp_mono (wp_provisionKeys hP happ h hstart.keys
    (.keying happroved huntampered)) ?_ fun _ _ _ he => he.elim
  intro _ _ w'' hend
  rw [Profile.provision_eq_ok happroved huntampered, hend]
  rfl

/-! ### A tag in the field -/

/-- What a run returns, for what happens in its sessions. -/
def provisioningOutcome (urlTemplate : String) (verifier : Verifier) (config : SdmUrlConfig) :
    Except (ProvisioningFailure E K) (Bytes 7 × Bytes signatureLen) →
      Outcome (ProvisioningFailure E K) ApplicationVerifier
  | .ok identity => .ok ⟨urlTemplate, verifier, config.uriPrefix, provisioningSystemIdentifier,
      some identity.1, some identity.2⟩
  | .error e => Outcome.fail e

namespace PoweredTag

variable {view : PublicView A} {tag : PoweredTag A}

/-- The version of an idle tag, which is that of a product that is provisioned, or is not. -/
theorem wp_checkVersion {I : PoweredTag A → Prop}
    (hI : ∀ frame, I ⟨frame, tag.selected, tag.card⟩) (hidle : tag.card.channel.isIdle = true) :
    (checkVersion : ProvisioningTask E K Version).wp (Prog.Answers (transmit P app view)) I
      (fun version _ tag' => version = view.version tag.card.app ∧ version.hwType = 0x04 ∧
        tag'.card = tag.card)
      (fun f _ tag' => f = .error (.versionMismatch (view.version tag.card.app).hwType) ∧
        (view.version tag.card.app).hwType ≠ 0x04 ∧ tag'.card = tag.card) () tag := by
  simp only [checkVersion, Script.wp_bind, Script.wp_mapError, Script.wp_on, Script.wp_require,
    Script.wp_pure]
  refine Script.wp_mono (wp_getVersionUnauthenticated (R := fun _ _ _ => False) hI hidle) ?_
    fun _ _ _ hno => hno.elim
  rintro version _ tag' ⟨rfl, -, rfl⟩
  exact ⟨fun hversion => ⟨rfl, hversion, rfl⟩, fun hother => ⟨rfl, hother, rfl⟩⟩

/-- A whole run on an idle tag, for a template that compiles: what happens in sessions is left
open. -/
theorem wp_provisionWithFn_of (hview : ∀ a, view.version a = (profile a).version)
    (hidle : tag.card.channel.isIdle = true) (hprofile : profile tag.card.app = c)
    {urlTemplate : String} {verifier : Verifier}
    (hconfig : createSdmUrlConfig urlTemplate provisioningMode = .ok (config, verifier))
    (huid : config.mirrorsUid = true) (rnd : ℕ → Bytes 16)
    {Q : Bytes 7 × Bytes signatureLen → Card A → Prop}
    {R : ProvisioningFailure E K → Card A → Prop}
    (hfailed : ∀ e w', c.provision verify config keys E = (.error e, profile w'.app) → R e w')
    (hsessions : c.version.hwType = 0x04 →
      (provisionInSessions P verify config keys rnd c.version).wp
        (Prog.Answers (Card.transmit P app))
        (fun w => c.Waypoint verify config keys (profile w.app)) (fun r _ => Q r)
        (fun f _ w' => ∃ e, f = .error e ∧ R e w') () tag.card) :
    (provisionWithFn P verify urlTemplate keys rnd).wp (Prog.Answers (transmit P app view))
      (fun tag => c.Waypoint verify config keys (profile tag.card.app))
      (fun r _ tag' => ∃ identity, Q identity tag'.card ∧
        r = ⟨urlTemplate, verifier, config.uriPrefix, provisioningSystemIdentifier,
          some identity.1, some identity.2⟩)
      (fun f _ tag' => ∃ e, f = .error e ∧ R e tag'.card) () tag := by
  have hstays : ∀ frame, c.Waypoint verify config keys
      (profile (⟨frame, tag.selected, tag.card⟩ : PoweredTag A).card.app) := by
    intro frame
    rw [hprofile]
    exact .untouched
  simp only [provisionWithFn, hconfig, provisionTag, Script.wp_bind, Script.wp_mapError,
    Script.wp_lift_ok, Script.wp_require, Script.wp_pure]
  refine ⟨fun _ => ?_, fun hno => absurd huid hno⟩
  have hsame : view.version tag.card.app = c.version := by rw [hview, hprofile]
  refine Script.wp_mono (wp_checkVersion hstays hidle) ?_ ?_
  · rintro version _ tag' ⟨rfl, hversion, hcard⟩
    rw [hsame] at hversion ⊢
    rw [← hcard] at hsessions
    have hasks := asks_provisionInSessions (E := E) P identifies_sessionApdu deploys_sessionApdu
      verify config keys rnd c.version
    refine Script.wp_mono (wp_of_card hasks (hsessions hversion)) ?_ fun _ _ _ he => he
    rintro ⟨uid, signature⟩ _ tag'' hend
    exact ⟨_, hend, rfl⟩
  · rintro _ _ tag' ⟨rfl, hother, hcard⟩
    rw [hsame] at hother ⊢
    refine ⟨_, rfl, hfailed _ _ ?_⟩
    rw [Profile.provision, if_neg hother, hcard, hprofile]

/-- **A whole run**, on an idle tag with default keys. -/
theorem wp_provisionWithFn (hP : P.Lawful) (happ : app.Documented profile)
    (hview : ∀ a, view.version a = (profile a).version) (hidle : tag.card.channel.isIdle = true)
    (hprofile : profile tag.card.app = c) (hstart : c.Provisionable) {urlTemplate : String}
    {verifier : Verifier}
    (hconfig : createSdmUrlConfig urlTemplate provisioningMode = .ok (config, verifier))
    (huid : config.mirrorsUid = true) (rnd : ℕ → Bytes 16) :
    (provisionWithFn P verify urlTemplate keys rnd).wp (Prog.Answers (transmit P app view))
      (fun tag => c.Waypoint verify config keys (profile tag.card.app))
      (fun r _ tag' => ∃ identity,
        c.provision verify config keys E = (.ok identity, profile tag'.card.app) ∧
        r = ⟨urlTemplate, verifier, config.uriPrefix, provisioningSystemIdentifier,
          some identity.1, some identity.2⟩)
      (fun f _ tag' => ∃ e, f = .error e ∧
        c.provision verify config keys E = (.error e, profile tag'.card.app)) () tag :=
  wp_provisionWithFn_of hview hidle hprofile hconfig huid rnd (fun _ _ hend => hend)
    fun hversion => wp_provisionInSessions hP happ hprofile hstart
      (deployable_of_createSdmUrlConfig hconfig) hversion rnd

/-- **Provisioning does what it is for.** It returns the result of `Profile.provision` and leaves
its profile, whether it succeeds or not, and a run that is cut off leaves a profile on the way. -/
theorem run_provisionWithFn (hP : P.Lawful) (happ : app.Documented profile)
    (hview : ∀ a, view.version a = (profile a).version) (hidle : tag.card.channel.isIdle = true)
    (hprofile : profile tag.card.app = c) (hstart : c.Provisionable) {urlTemplate : String}
    {verifier : Verifier}
    (hconfig : createSdmUrlConfig urlTemplate provisioningMode = .ok (config, verifier))
    (huid : config.mirrorsUid = true) (rnd : ℕ → Bytes 16) :
    (∃ tag', Prog.run (transmit P app view (E := E))
        (provisionWithFn P verify urlTemplate keys rnd ()) tag =
        ((provisioningOutcome urlTemplate verifier config (c.provision verify config keys E).1,
          ()), tag') ∧
      profile tag'.card.app = (c.provision verify config keys E).2) ∧
    ∀ n tag', Prog.runUntil (transmit P app view (E := E)) n
        (provisionWithFn P verify urlTemplate keys rnd ()) tag = (none, tag') →
      c.Waypoint verify config keys (profile tag'.card.app) := by
  have hwp : (provisionWithFn P verify urlTemplate keys rnd).wp
      (Prog.Answers (transmit P app view (E := E))) _ _ _ () tag :=
    wp_provisionWithFn hP happ hview hidle hprofile hstart hconfig huid rnd
  refine ⟨?_, fun n tag' hstop => ?_⟩
  · rcases Script.run_cases hwp with ⟨_, _, tag', hrun, identity, hend, rfl⟩ |
      ⟨_, _, tag', hrun, e, rfl, hend⟩
    · exact ⟨tag', by rw [hrun, hend]; rfl, by rw [hend]⟩
    · exact ⟨tag', by rw [hrun, hend]; rfl, by rw [hend]⟩
  · have hway := Script.wp_runUntil hwp hstop
    exact hway

/-- A tag at delivery gets the keys of the all-zero master key. -/
theorem run_provisionWithFn_delivered :
    ∃ config verifier, createSdmUrlConfig exampleTemplate provisioningMode =
        .ok (config, verifier) ∧
      ∃ tag', Prog.run (transmit .standard TagApp.stored .stored (E := Empty))
          (provisionWithFn .standard verifyDelivered exampleTemplate
            (fun uid => Except.ok (ε := Empty) (keysForUid .standard (Bytes.zeros 16) uid))
            (fun _ => Bytes.zeros 16) ()) ⟨0, none, .deselected, .delivered⟩ =
          ((provisioningOutcome exampleTemplate verifier config (.ok (deliveredUid,
            deliveredSignature)), ()), tag') ∧
        tag'.card.app.profile = StoredProfile.delivered.profile.provisioned config
          (keysForUid .standard (Bytes.zeros 16) deliveredUid) := by
  obtain ⟨config, verifier, hconfig, huid⟩ := exampleTemplate_created
  have hspec : StoredProfile.delivered.profile.provision verifyDelivered config
      (fun uid => Except.ok (ε := Empty) (keysForUid .standard (Bytes.zeros 16) uid)) Empty =
      (.ok (deliveredUid, deliveredSignature), _) :=
    Profile.provision_eq_ok (Profile.approved_delivered rfl) (Profile.untampered_delivered config)
      Empty
  have hrun : ∀ spec, StoredProfile.delivered.profile.provision verifyDelivered config
      (fun uid => Except.ok (ε := Empty) (keysForUid .standard (Bytes.zeros 16) uid)) Empty = spec →
      ∃ tag', Prog.run (transmit .standard TagApp.stored .stored (E := Empty))
          (provisionWithFn .standard verifyDelivered exampleTemplate
            (fun uid => Except.ok (ε := Empty) (keysForUid .standard (Bytes.zeros 16) uid))
            (fun _ => Bytes.zeros 16) ()) ⟨0, none, .deselected, .delivered⟩ =
          ((provisioningOutcome exampleTemplate verifier config spec.1, ()), tag') ∧
        tag'.card.app.profile = spec.2 := by
    rintro _ rfl
    exact (run_provisionWithFn Primitives.standard_lawful TagApp.stored_documented
      PublicView.version_stored rfl rfl StoredProfile.delivered_delivered.provisionable hconfig
      huid fun _ => Bytes.zeros 16).1
  exact ⟨config, verifier, hconfig, hrun _ hspec⟩

end PoweredTag

end Ntag424
