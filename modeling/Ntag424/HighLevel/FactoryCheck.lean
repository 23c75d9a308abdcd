import Mathlib.Tactic.Common
import Ntag424.HighLevel.ProvisionReset
import Ntag424.Lockstep.Delivered

/-!
# The Factory State of a Documented Tag

`check_factory_state` on a tag that obeys the laws of `TagApp.Documented` and has the contents,
settings and keys of delivery, in any mode and with any feature enabled. It reports what the tag
is, unless the tag is of another type, does not let the master key read its tamper status, or has
a forged signature.

## Main results

* `InProfile.wp_checkAuthenticated`, `PoweredTag.wp_checkContents`: the two parts of the check.
* `PoweredTag.wp_checkFactoryState`: the whole check returns `Profile.factoryCheck`.
* `PoweredTag.exists_reset_checked`: a tag that was provisioned and reset passes it.
-/

namespace Ntag424

open SdmUrl Numerals SecureChannel

variable {P : Primitives} {E A : Type} {app : TagApp A} {profile : A → Profile} {k : KeyNumber}
  {c : Profile} {session : EncryptedSession} {w : Card A}

/-! ### What the check reports -/

/-- What the check reports of a tag. -/
def Profile.factoryResult (c : Profile) : FactoryStateCheckResult where
  randomIdMode := c.version.uid.byte 0 == 0x08
  mode := if c.lrpMode then .lrp else .aes
  tagTamperStatus := (c.tamperReport .key0).map fun d => .new (d.byte 0) (d.byte 1)
  originalitySignature := c.signature
  uid := c.uid

/-- The tag has a tamper status that the master key may not read. -/
def Profile.HidesTamper (c : Profile) : Prop :=
  c.version.hasTagTamperSupport = true ∧ c.tamperReport .key0 = none

instance (c : Profile) : Decidable c.HidesTamper := inferInstanceAs (Decidable (_ ∧ _))

/-- What another type of tag is refused with. -/
def versionRefused : Fault (SessionError E) := .error (.notFactoryState "version mismatch")

/-- What a tag is refused with whose tamper status the master key may not read. -/
def tamperRefused : Fault (SessionError E) :=
  .error (.notFactoryState "unable to read tag-tamper status")

/-- What the originality signature is refused with. -/
def originalityRefused : Fault (SessionError E) :=
  .error (.notFactoryState "originality signature verification failed with default keys")

variable {verify : Bytes signatureLen → Bytes 7 → Except OriginalityError Unit}

variable (verify E) in
/-- **What the check returns** on a tag with the contents, settings and keys of delivery, in the
order in which it looks at the rest. -/
def Profile.factoryCheck (c : Profile) :
    Except (Fault (SessionError E)) FactoryStateCheckResult :=
  if c.version.isNtag424 = false then .error versionRefused
  else if c.HidesTamper then .error tamperRefused
  else if verify c.signature c.uid = .ok () then .ok c.factoryResult
  else .error originalityRefused

/-- Another type of tag is refused first. -/
theorem Profile.factoryCheck_of_version (hversion : c.version.isNtag424 = false) :
    c.factoryCheck E verify = .error versionRefused := if_pos hversion

section IsNtag424

variable (hversion : c.version.isNtag424 = true)
include hversion

/-- Then a tag that hides its tamper status from the master key. -/
theorem Profile.factoryCheck_of_hidesTamper (hhides : c.HidesTamper) :
    c.factoryCheck E verify = .error tamperRefused := by
  rw [factoryCheck, hversion, if_neg Bool.noConfusion, if_pos hhides]

/-- Then one with a signature that does not verify. -/
theorem Profile.factoryCheck_of_forged (hshown : ¬ c.HidesTamper)
    (hforged : verify c.signature c.uid ≠ .ok ()) :
    c.factoryCheck E verify = .error originalityRefused := by
  rw [factoryCheck, hversion, if_neg Bool.noConfusion, if_neg hshown, if_neg hforged]

/-- Every other tag passes. -/
theorem Profile.factoryCheck_of_genuine (hshown : ¬ c.HidesTamper)
    (hgenuine : verify c.signature c.uid = .ok ()) :
    c.factoryCheck E verify = .ok c.factoryResult := by
  rw [factoryCheck, hversion, if_neg Bool.noConfusion, if_neg hshown, if_pos hgenuine]

end IsNtag424

/-- A tag that the check takes to be as it was delivered: it is an NTAG 424 DNA, and the master key
may read its tag-tamper status. -/
structure Profile.PassesFactoryCheck (c : Profile) : Prop extends c.Delivered where
  isNtag424 : c.version.isNtag424 = true
  tamperReport : c.version.hasTagTamperSupport = true → (c.tamperReport .key0).isSome = true

/-- The features of provisioning are no matter of the check. -/
theorem Profile.PassesFactoryCheck.prepared (hc : c.PassesFactoryCheck) (config : SdmUrlConfig) :
    (c.prepared config).PassesFactoryCheck where
  keys := hc.keys
  keyVersions := hc.keyVersions
  settings := hc.settings
  contents := hc.contents
  isNtag424 := hc.isNtag424
  tamperReport hsupport := by
    cases henabled : c.enablesTamper config with
    | true =>
        have haccess : (c.prepared config).tamperAccess = some .free := if_pos henabled
        have hreport : (c.prepared config).tamperReport .key0 = some c.tamperStatus := by
          rw [Profile.tamperReport, if_pos hsupport, haccess]
          rfl
        rw [hreport]
        rfl
    | false =>
        have haccess : (c.prepared config).tamperAccess = c.tamperAccess :=
          if_neg (by rw [henabled]; exact Bool.false_ne_true)
        have hreport : (c.prepared config).tamperReport .key0 = c.tamperReport .key0 := by
          rw [Profile.tamperReport, haccess]
          rfl
        rw [hreport]
        exact hc.tamperReport hsupport

/-- An error is replaced by the one that names what failed. -/
theorem wp_orNotFactoryState_error {W σ β : Type}
    {env : (r : List UInt8) → W → Transmit E r → W → Prop} {what : String} {m : Cmd E σ β} {t : σ}
    {w : W} {Q : β → σ → W → Prop} {J : σ → W → Prop}
    (hm : m.wp env (fun _ => True) Q (fun f t w => (∃ e, f = .error e) ∧ J t w) t w) :
    (orNotFactoryState what m).wp env (fun _ => True) Q
      (fun f t w => f = .error (.notFactoryState what) ∧ J t w) t w := by
  simp only [orNotFactoryState, Script.wp_bind, Script.wp_attempt]
  refine Script.wp_mono hm (fun _ _ _ hQ => Script.wp_pure.mpr hQ) ?_
  rintro _ s' w' ⟨⟨e, rfl⟩, hJ⟩
  exact Script.wp_fail.mpr ⟨rfl, hJ⟩

/-! ### The sessions of the check -/

namespace InProfile

/-- The mode of a session is that of the tag. -/
theorem wp_authenticateMaster (hP : P.Lawful) (happ : app.Documented profile)
    (hprofile : profile w.app = c) (hkey : c.keys .key0 = factoryKey) (rnd : ℕ → Bytes 16) :
    (authenticateMaster P rnd).wp (Prog.Answers (Card.transmit P app)) (fun _ => True)
      (fun r _ w' => InProfile P .key0 profile c r.1 w' ∧
        r.1.mode = if c.lrpMode then .lrp else .aes)
      (fun (_ : Fault (SessionError E)) _ _ => False) () w := by
  simp only [authenticateMaster, Script.wp_bind, Script.wp_attempt]
  cases hmode : c.lrpMode with
  | false =>
      refine Script.wp_mono (wp_openAes (J := fun _ => True) hP happ hprofile hmode hkey _ trivial)
        ?_ fun _ _ _ he => he.elim
      intro session _ w' h
      exact Script.wp_pure.mpr ⟨h, rfl⟩
  | true =>
      refine Script.wp_mono (wp_openAes_lrpMode (J := fun _ => True) happ hprofile hmode factoryKey
        _ trivial) (fun _ _ _ hno => hno.elim) ?_
      rintro _ _ w' ⟨rfl, hprofile'⟩
      refine wp_orNotFactoryState_ok ?_
      refine Script.wp_mono (wp_openLrp (J := fun _ => True) hP happ hprofile' hmode hkey _ trivial)
        ?_ fun _ _ _ he => he
      intro session _ w'' h
      exact Script.wp_pure.mpr ⟨h, rfl⟩

/-- `get_file_settings`, which keeps the suite. -/
theorem wp_fileSettings (happ : app.Documented profile) (h : InProfile P k profile c session w)
    (file : File) :
    (session.getFileSettings P file).wp (Prog.Answers (Card.transmit P app)) (fun _ => True)
      (fun r _ w' => r.1 = c.settings file ∧ r.2.mode = session.mode ∧
        InProfile P k profile c r.2 w')
      (fun (_ : Fault (SessionError E)) _ _ => False) () w := by
  cases session with
  | aes session =>
      simp only [EncryptedSession.getFileSettings, EncryptedSession.dispatchValue, Script.wp_bind,
        Script.wp_pure]
      refine Script.wp_mono (InProfile.wp_getFileSettings (J := fun _ => True) happ file h trivial)
        ?_ fun _ _ _ he => he
      rintro ⟨v, s⟩ _ w' ⟨rfl, h'⟩
      exact ⟨rfl, rfl, h'⟩
  | lrp session =>
      simp only [EncryptedSession.getFileSettings, EncryptedSession.dispatchValue, Script.wp_bind,
        Script.wp_pure]
      refine Script.wp_mono (InProfile.wp_getFileSettings (J := fun _ => True) happ file h trivial)
        ?_ fun _ _ _ he => he
      rintro ⟨v, s⟩ _ w' ⟨rfl, h'⟩
      exact ⟨rfl, rfl, h'⟩

/-- The settings of the files. -/
theorem wp_checkSettings (happ : app.Documented profile)
    (hsettings : ∀ file, c.settings file = .factory file) (files : List File)
    (h : InProfile P k profile c session w) :
    (checkSettings P files session).wp (Prog.Answers (Card.transmit P app)) (fun _ => True)
      (fun session' _ w' => session'.mode = session.mode ∧ InProfile P k profile c session' w')
      (fun (_ : Fault (SessionError E)) _ _ => False) () w := by
  induction files generalizing session w with
  | nil => exact Script.wp_pure.mpr ⟨rfl, h⟩
  | cons file files ih =>
      simp only [checkSettings, requireFactoryState, Script.wp_bind, Script.wp_require]
      refine wp_orNotFactoryState_ok ?_
      refine Script.wp_mono (h.wp_fileSettings happ file) ?_ fun _ _ _ he => he
      rintro ⟨v, session'⟩ _ w' ⟨rfl, hmode, h'⟩
      refine ⟨fun _ => ?_, fun hno => absurd (hsettings file) hno⟩
      rw [← hmode]
      exact ih h'

/-- The tag-tamper status, or the refusal if the master key may not read it. -/
theorem wp_readTagTamper (hP : P.Lawful) (happ : app.Documented profile)
    (hguards : c.HidesTamper → app.GuardsTamperStatus profile)
    (h : InProfile P .key0 profile c session w) :
    (readTagTamper P c.version session).wp (Prog.Answers (Card.transmit P app)) (fun _ => True)
      (fun r _ w' => (¬ c.HidesTamper ∧
        r.1 = (c.tamperReport .key0).map (fun d => .new (d.byte 0) (d.byte 1))) ∧
        InProfile P .key0 profile c r.2 w')
      (fun (f : Fault (SessionError E)) _ w' => f = tamperRefused ∧
        c.HidesTamper ∧ profile w'.app = c) () w := by
  cases htamper : c.version.hasTagTamperSupport with
  | false =>
      have hnone : c.tamperReport .key0 = none := by
        rw [Profile.tamperReport, htamper]
        rfl
      have hshown : ¬ c.HidesTamper := by
        rintro ⟨hsupport, -⟩
        rw [htamper] at hsupport
        cases hsupport
      rw [readTagTamper, htamper, hnone]
      exact Script.wp_pure.mpr ⟨⟨hshown, rfl⟩, h⟩
  | true =>
      rw [readTagTamper, htamper, if_pos rfl]
      simp only [Script.wp_bind, Script.wp_pure]
      cases hreport : c.tamperReport .key0 with
      | none =>
          have hhides : c.HidesTamper := ⟨htamper, hreport⟩
          refine wp_orNotFactoryState_error (Script.wp_mono (h.wp_getTtStatus_refused
            (J := fun _ => True) hP (hguards hhides) htamper hreport trivial)
            (fun _ _ _ hno => hno.elim) ?_)
          rintro f _ w' ⟨⟨status, rfl⟩, hprofile⟩
          exact ⟨⟨_, rfl⟩, hhides, hprofile⟩
      | some d =>
          have hshown : ¬ c.HidesTamper := by
            rintro ⟨-, hnone⟩
            rw [hreport] at hnone
            cases hnone
          refine Script.wp_mono (wp_orNotFactoryState_ok (h.wp_getTtStatus (J := fun _ => True) hP
            happ hreport trivial)) ?_ fun _ _ _ he => he.elim
          rintro ⟨status, session'⟩ _ w' ⟨rfl, h'⟩
          exact ⟨⟨hshown, rfl⟩, h'⟩

/-- The default keys. -/
theorem wp_checkKeys (hP : P.Lawful) (happ : app.Documented profile)
    (hkeys : ∀ k, c.keys k = factoryKey) (rnd : ℕ → Bytes 16) (keys : List KeyNumber) (n : ℕ)
    (h : InProfile P k profile c session w) :
    (checkKeys P rnd keys n session).wp (Prog.Answers (Card.transmit P app)) (fun _ => True)
      (fun _ _ w' => profile w'.app = c) (fun (_ : Fault (SessionError E)) _ _ => False) () w := by
  induction keys generalizing n session w k with
  | nil => exact Script.wp_pure.mpr h.profile_app
  | cons keyNo keys ih =>
      simp only [checkKeys, Script.wp_bind]
      refine wp_orNotFactoryState_ok ?_
      refine Script.wp_mono (h.wp_authenticate hP happ keyNo (hkeys keyNo) (rnd n)) ?_
        fun _ _ _ he => he
      intro session' _ w' h'
      exact ih (n + 1) h'

end InProfile

/-- **The sessions of the check.** -/
theorem wp_checkAuthenticated (hP : P.Lawful) (happ : app.Documented profile)
    (hguards : c.HidesTamper → app.GuardsTamperStatus profile) (hprofile : profile w.app = c)
    (hc : c.Delivered) (hversion : c.version.isNtag424 = true) (rnd : ℕ → Bytes 16)
    {buf : List UInt8} (hbuf : buf.length = 256) :
    (checkAuthenticated P verify rnd c.version buf).wp (Prog.Answers (Card.transmit P app))
      (fun _ => True)
      (fun r _ w' => c.factoryCheck E verify = .ok r ∧ profile w'.app = c)
      (fun f _ w' => c.factoryCheck E verify = .error f ∧ profile w'.app = c) () w := by
  have hprop : (buf.take File.proprietary.size).length = 128 := by
    rw [List.length_take, hbuf]
    rfl
  rw [checkAuthenticated]
  refine Script.wp_bind_of (InProfile.wp_authenticateMaster hP happ hprofile (hc.keys .key0) rnd)
    ?_ fun _ _ _ he => he.elim
  rintro ⟨master, n⟩ _ w₁ ⟨h, hmode⟩
  refine Script.wp_bind_of (h.wp_checkSettings happ hc.settings _) ?_ fun _ _ _ he => he.elim
  rintro master _ w₂ ⟨hsame, h⟩
  simp only [hsame, hmode]
  refine Script.wp_bind_of (h.wp_readTagTamper hP happ hguards) ?_ ?_
  rotate_right
  · -- the tamper status is refused
    rintro _ _ w₃ ⟨rfl, hhides, hprofile'⟩
    exact ⟨Profile.factoryCheck_of_hidesTamper hversion hhides, hprofile'⟩
  rintro ⟨status, master⟩ _ w₃ ⟨⟨hshown, rfl⟩, h⟩
  refine Script.wp_bind_of (wp_orNotFactoryState_ok (h.wp_getUid (J := fun _ => True) hP happ
    trivial)) ?_ fun _ _ _ he => he.elim
  rintro ⟨uid, master⟩ _ w₄ ⟨rfl, h⟩
  refine Script.wp_bind_of (wp_orNotFactoryState_error
    (J := fun _ w' => verify c.signature c.uid ≠ .ok () ∧ profile w'.app = c) (Script.wp_mono
    (h.wp_verifyOriginality (J := fun _ => True) hP happ trivial verify c.uid)
    (fun _ _ _ hQ => hQ) ?_)) ?_ ?_
  rotate_right
  · -- the signature is refused
    rintro _ _ w₅ ⟨rfl, hverify, hprofile'⟩
    exact ⟨Profile.factoryCheck_of_forged hversion hshown hverify, hprofile'⟩
  · rintro _ _ w₅ ⟨e, hverify, rfl, hprofile'⟩
    refine ⟨⟨_, rfl⟩, ?_, hprofile'⟩
    rw [hverify]
    rintro ⟨⟩
  rintro ⟨signature, master⟩ _ w₅ ⟨⟨rfl, hverify⟩, h⟩
  refine Script.wp_bind_of (wp_orNotFactoryState_ok (h.wp_authenticate hP happ .key2
    (hc.keys .key2) (rnd n))) ?_ fun _ _ _ he => he.elim
  intro key2 _ w₆ h
  have hoffered : AtProfile.Offered c .key2 .full .proprietary (0 : UInt32).toNat
      (128 : UInt32).toNat := by
    refine ⟨?_, ?_, by decide, by decide⟩
    · rw [hc.settings]
      rfl
    · rw [hc.settings]
      exact .inl (.inr rfl)
  refine Script.wp_bind_of (wp_orNotFactoryState_ok (h.wp_readFileWithMode (J := fun _ => True) hP
    happ hoffered hprop.ge trivial)) ?_ fun _ _ _ he => he.elim
  rintro ⟨⟨len, prop⟩, key2⟩ _ w₇ ⟨hread, h⟩
  have hfactory : prop = factoryProp := by
    have hslice : slice (c.contents .proprietary).toList (0 : UInt32).toNat (128 : UInt32).toNat =
        factoryProp := by
      rw [hc.contents]
      rfl
    have hlength : factoryProp.length = 128 := rfl
    obtain ⟨-, rfl⟩ := Prod.mk.inj hread
    rw [hslice, overlay_zero, hlength, List.drop_eq_nil_of_le hprop.le, List.append_nil]
  simp only [requireFactoryState, Script.wp_bind, Script.wp_require, Script.wp_pure]
  refine ⟨fun _ => ?_, fun hno => absurd hfactory hno⟩
  refine Script.wp_mono (h.wp_checkKeys hP happ hc.keys rnd _ (n + 1)) ?_ fun _ _ _ he => he.elim
  intro _ _ w₈ hprofile'
  exact ⟨Profile.factoryCheck_of_genuine hversion hshown hverify, hprofile'⟩

/-! ### What is read without authentication -/

namespace PoweredTag

variable {view : PublicView A} {tag : PoweredTag A}

/-- A file read into a buffer that is long enough. -/
theorem wp_readInto {a : A} {file : File} {content buf : List UInt8} {s : Session Unauthenticated}
    (hcontent : view.binary a file = content) (hlen : content.length = file.size)
    (hbuf : buf.length = 256) (h : Agrees a s tag) :
    (readInto file buf).wp (Prog.Answers (transmit P app view)) (fun _ => True)
      (fun buf' s' tag' => buf' = overlay buf 0 content ∧ Agrees a s' tag')
      (fun (_ : Fault (SessionError E)) _ _ => False) s tag := by
  have hsize : file.size ≤ 256 := by cases file <;> decide
  have hpos : 0 < file.size := by cases file <;> decide
  have htake : (buf.take file.size).length = file.size := by
    rw [List.length_take, hbuf]
    omega
  have hne : buf.take file.size ≠ [] := by
    rw [← List.length_pos_iff, htake]
    exact hpos
  have hread : received isoReadBinaryChunk (slice content) (0 : UInt16).toNat
      (buf.take file.size).length = content := by
    have hzero : (0 : UInt16).toNat = 0 := rfl
    rw [htake, hzero, received_slice (by decide) (by omega), ← hlen, slice_zero_length]
  have hserves : ServesFile (Prog.Answers (transmit P app view (E := E))) (Agrees a) file
      (slice content) := hcontent ▸ servesFile a file
  simp only [readInto, Script.wp_bind, Script.wp_pure]
  refine Script.wp_mono (wp_readFileUnauthenticated_ready hserves h hne ?_) ?_ fun _ _ _ he => he
  · rw [htake]
    exact (Nat.zero_add _).le.trans (by omega)
  rintro ⟨n, part⟩ s' tag' ⟨hpart, h'⟩
  obtain ⟨-, rfl⟩ := Prod.mk.inj hpart
  refine ⟨?_, h'⟩
  rw [hread, overlay_zero_take hlen.le (by omega)]

/-- The capability container and the NDEF file are shown as they are, unless they mirror. -/
def ShowsContents (view : PublicView A) (profile : A → Profile) : Prop :=
  ∀ a file, file ≠ .proprietary → ((profile a).settings file).sdm = none →
    view.binary a file = ((profile a).contents file).toList

/-- **What is read without authentication.** -/
theorem wp_checkContents (hview : ∀ a, view.version a = (profile a).version)
    (hshows : ShowsContents view profile) (hidle : tag.card.channel.isIdle = true)
    (hprofile : profile tag.card.app = c) (hc : c.Delivered) :
    checkContents.wp (Prog.Answers (transmit P app view)) (fun _ => True)
      (fun r _ tag' => (c.version.isNtag424 = true ∧ r.1 = c.version ∧ r.2.length = 256) ∧
        profile tag'.card.app = c)
      (fun (f : Fault (SessionError E)) _ tag' => (c.version.isNtag424 = false ∧
        f = versionRefused) ∧ profile tag'.card.app = c) Session.new tag := by
  have hbinary : ∀ file, file ≠ .proprietary →
      view.binary tag.card.app file = file.factoryContents := by
    intro file hfile
    rw [hshows _ file hfile (by rw [hprofile, hc.settings]; rfl), hprofile, hc.contents]
  have hzeros : (List.replicate 256 (0 : UInt8)).length = 256 := List.length_replicate
  simp only [checkContents, checkContainer, checkNdef, requireFactoryState, Script.wp_bind,
    Script.wp_require, Script.wp_pure]
  refine wp_orNotFactoryState (J := fun _ _ => False) ?_ fun _ _ _ hno => hno.elim
  refine Script.wp_mono (wp_readInto (hbinary .capabilityContainer (by decide)) rfl hzeros
    (agrees_new hidle)) ?_ fun _ _ _ he => he
  rintro buf₁ s₁ tag₁ ⟨hbuf₁, h₁⟩
  have hcontainer : CapabilityContainer.fromBytes (buf₁.take File.capabilityContainer.size) =
      .ok .default := by
    have htake : buf₁.take File.capabilityContainer.size =
        File.capabilityContainer.factoryContents := by
      rw [hbuf₁, overlay_zero]
      exact List.take_left' rfl
    rw [htake]
    exact CapabilityContainer.fromBytes_default _
  refine ⟨fun _ => ?_, fun hno => absurd hcontainer hno⟩
  refine Script.wp_mono (wp_getVersionUnauthenticated (I := fun _ : PoweredTag A => True)
    (R := fun _ _ _ => False) (fun _ => trivial) h₁.idle) ?_ fun _ _ _ he => he.elim
  rintro version s₂ tag₂ ⟨rfl, rfl, rfl⟩
  have hversion : view.version tag₁.card.app = c.version := by
    rw [hview, h₁.app_eq, hprofile]
  have h₂ : Agrees tag.card.app s₂ (⟨3, tag₁.selected, tag₁.card⟩ : PoweredTag A) :=
    ⟨h₁.app_eq, h₁.idle, h₁.selected, h₁.file⟩
  rw [hversion]
  refine ⟨fun hversion => ?_, fun hno => ⟨⟨Bool.eq_false_iff.mpr hno, rfl⟩, ?_⟩⟩
  rotate_right
  · -- another type of tag
    rw [h₂.app_eq, hprofile]
  have hlen₁ : buf₁.length = 256 := by
    rw [hbuf₁, length_overlay (by rw [hzeros]; decide), hzeros]
  refine wp_orNotFactoryState (J := fun _ _ => False) ?_ fun _ _ _ hno => hno.elim
  refine Script.wp_mono (wp_readInto (hbinary .ndef (by decide)) List.length_replicate hlen₁ h₂) ?_
    fun _ _ _ he => he
  rintro buf₃ s₃ tag₃ ⟨hbuf₃, h₃⟩
  have hempty : buf₃ = List.replicate 256 0 := by
    rw [hbuf₃, overlay_zero, List.drop_eq_nil_of_le (by rw [hlen₁]; exact hzeros.ge),
      List.append_nil]
    rfl
  refine ⟨fun _ => ⟨⟨hversion, rfl, ?_⟩, ?_⟩, fun hno => absurd ?_ hno⟩
  · rw [hempty, hzeros]
  · rw [h₃.app_eq, hprofile]
  · intro b hb
    rw [hempty] at hb
    exact List.eq_of_mem_replicate (List.mem_of_mem_take hb)

/-- **The whole check** passes if the originality signature does, and reports what the tag is. -/
theorem wp_checkFactoryState (hP : P.Lawful) (happ : app.Documented profile)
    (hguards : c.HidesTamper → app.GuardsTamperStatus profile)
    (hview : ∀ a, view.version a = (profile a).version) (hshows : ShowsContents view profile)
    (hidle : tag.card.channel.isIdle = true) (hprofile : profile tag.card.app = c)
    (hc : c.Delivered) (rnd : ℕ → Bytes 16) :
    (checkFactoryState P verify rnd).wp (Prog.Answers (transmit P app view)) (fun _ => True)
      (fun r _ tag' => c.factoryCheck E verify = .ok r ∧ profile tag'.card.app = c)
      (fun f _ tag' => c.factoryCheck E verify = .error f ∧ profile tag'.card.app = c)
      Session.new tag := by
  rw [checkFactoryState]
  refine Script.wp_bind_of (wp_checkContents hview hshows hidle hprofile hc) ?_ ?_
  rotate_right
  · rintro _ _ tag₁ ⟨⟨hversion, rfl⟩, hprofile₁⟩
    exact ⟨Profile.factoryCheck_of_version hversion, hprofile₁⟩
  rintro ⟨version, buf⟩ s tag₁ ⟨⟨hversion, rfl, hbuf⟩, hprofile₁⟩
  simp only [beside, Script.wp_bind, Script.wp_on, Script.wp_pure]
  exact wp_of_card (asks_checkAuthenticated P verify rnd c.version buf)
    (wp_checkAuthenticated hP happ hguards hprofile₁ hc hversion rnd hbuf)

end PoweredTag

end Ntag424
