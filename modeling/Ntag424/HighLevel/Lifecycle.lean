import Mathlib.Logic.Relation
import Mathlib.Tactic.Common
import Ntag424.HighLevel.ProvisioningRun
import Ntag424.HighLevel.ResetRun

/-!
# The Life of a Tag

A tag enters the field again and again. Each time it is provisioned, or reset with the keys that it
has then, and it may leave the field after any exchange. Whatever happened to it, one reset makes
it a tag that can be provisioned.

## Modelling

* A tag that enters the field is powered up: no application is selected, and nothing of a session
  is left.
* A run that is cut off stops between two exchanges. A command that is lost on its way, or whose
  answer is, leaves the tag in such a state.
* Nobody tries to provision a tag that does not have its default keys.

## Main results

* `InField.kept`: what no run and no interruption changes.
* `InField.exists_reset`: a reset with the keys of the tag always completes.
* `InField.exists_recovered`: after it the tag can be provisioned again.
-/

namespace Ntag424

open SdmUrl

variable {P : Primitives} {E K A : Type} {app : TagApp A} {view : PublicView A}
  {profile : A → Profile} {verify : Bytes signatureLen → Bytes 7 → Except OriginalityError Unit}

/-- A tag that enters the field. -/
def PoweredTag.new (a : A) : PoweredTag A := ⟨0, none, .deselected, a⟩

theorem PoweredTag.isIdle_new (a : A) : (PoweredTag.new a).card.channel.isIdle = true := rfl

/-! ### Resets in the field -/

section Reset

variable {tag : PoweredTag A} {c : Profile} {currentKeys : KeyNumber → Key} {uid : Bytes 7}

/-- `reset_with_fn`, with the keys of the tag. -/
theorem PoweredTag.wp_resetWithFn (hP : P.Lawful) (happ : app.Documented profile)
    {keys : Bytes 7 → Except K (KeyNumber → Key)} (hcurrent : keys uid = .ok currentKeys)
    (hprofile : profile tag.card.app = c) (hkeys : ∀ k, c.keys k = currentKeys k)
    (hrestorable : c.Restorable) (rnd : ℕ → Bytes 16) :
    (resetWithFn P uid keys rnd).wp (Prog.Answers (PoweredTag.transmit P app view))
      (fun tag => c.Kept (profile tag.card.app)) (fun _ _ tag' => profile tag'.card.app = c.reset)
      (fun (_ : Fault (ResetError E K)) _ _ => False) () tag := by
  have hasks := asks_resetKeys (E := E) P authenticates_sessionApdu (covers_sessionApdu _)
    (covers_sessionApdu _) (covers_sessionApdu _) currentKeys rnd
  simp only [resetWithFn, hcurrent, Script.wp_mapError]
  refine Script.wp_mono (PoweredTag.wp_of_card hasks
    (happ.wp_resetKeys hP hprofile hkeys hrestorable rnd)) (fun _ _ _ h => h) ?_
  intro _ _ _ hno
  exact hno.elim

/-- A tag that is reset. -/
theorem PoweredTag.exists_reset (hP : P.Lawful) (happ : app.Documented profile)
    {keys : Bytes 7 → Except K (KeyNumber → Key)} (hcurrent : keys uid = .ok currentKeys)
    (hprofile : profile tag.card.app = c) (hkeys : ∀ k, c.keys k = currentKeys k)
    (hrestorable : c.Restorable) (rnd : ℕ → Bytes 16) :
    ∃ tag', Prog.run (PoweredTag.transmit P app view (E := E)) (resetWithFn P uid keys rnd ()) tag =
        ((.ok (), ()), tag') ∧
      profile tag'.card.app = c.reset := by
  obtain ⟨_, _, tag', hrun, hend⟩ := Script.exists_run (PoweredTag.wp_resetWithFn (E := E)
    hP happ hcurrent hprofile hkeys hrestorable rnd)
  exact ⟨tag', hrun, hend⟩

end Reset

/-! ### A life -/

/-- The tag enters the field, and is provisioned or reset, until it leaves the field after some
exchanges or the run is at its end. -/
inductive FieldStep (P : Primitives) (E : Type) (app : TagApp A) (view : PublicView A)
    (profile : A → Profile) (verify : Bytes signatureLen → Bytes 7 → Except OriginalityError Unit)
    (a : A) : A → Prop
  | provision (urlTemplate : String) (newKeys : KeyNumber → Key) (rnd : ℕ → Bytes 16) (n : ℕ)
      (hstart : (profile a).Provisionable) :
      FieldStep P E app view profile verify a
        (Prog.runUntil (PoweredTag.transmit P app view (E := E)) n
          (provisionWithKeys P verify urlTemplate newKeys rnd ()) (PoweredTag.new a)).2.card.app
  | reset (uid : Bytes 7) (rnd : ℕ → Bytes 16) (n : ℕ) :
      FieldStep P E app view profile verify a
        (Prog.runUntil (PoweredTag.transmit P app view (E := E)) n
          (resetWithKeys P uid (profile a).keys rnd ()) (PoweredTag.new a)).2.card.app

/-- A tag that entered the field any number of times. -/
def InField (P : Primitives) (E : Type) (app : TagApp A) (view : PublicView A)
    (profile : A → Profile) (verify : Bytes signatureLen → Bytes 7 → Except OriginalityError Unit) :
    A → A → Prop :=
  Relation.ReflTransGen (FieldStep P E app view profile verify)

/-- Provisioning keeps what it has to, whatever the template. -/
theorem PoweredTag.wp_provisionWithFn_kept (hP : P.Lawful) (happ : app.Documented profile)
    (hview : ∀ a, view.version a = (profile a).version) {tag : PoweredTag A} {c : Profile}
    (hidle : tag.card.channel.isIdle = true) (hprofile : profile tag.card.app = c)
    (hstart : c.Provisionable) (urlTemplate : String)
    (keys : Bytes 7 → Except K (KeyNumber → Key)) (rnd : ℕ → Bytes 16) :
    (provisionWithFn P verify urlTemplate keys rnd).wp
      (Prog.Answers (PoweredTag.transmit P app view)) (fun tag => c.Kept (profile tag.card.app))
      (fun _ _ tag' => c.Kept (profile tag'.card.app))
      (fun (_ : Fault (ProvisioningFailure E K)) _ tag' => c.Kept (profile tag'.card.app))
      () tag := by
  have huntouched : c.Kept (profile tag.card.app) := by
    rw [hprofile]
    exact .refl c
  cases hconfig : createSdmUrlConfig urlTemplate provisioningMode with
  | error f =>
      simp only [provisionWithFn, hconfig, Script.wp_bind, Script.wp_mapError,
        Script.wp_lift_error]
      cases f with
      | error e => exact huntouched
      | panicked => exact huntouched
  | ok r =>
      obtain ⟨config, verifier⟩ := r
      by_cases huid : config.mirrorsUid = true
      · refine Script.wp_weaken (Script.wp_mono (PoweredTag.wp_provisionWithFn hP happ hview hidle
          hprofile hstart hconfig huid rnd) ?_ ?_) fun _ h => Profile.Kept.waypoint h
        · rintro r _ tag' ⟨identity, hend, -⟩
          have hkept : c.Kept (c.provision verify config keys E).2 := .provision E
          rwa [hend] at hkept
        · rintro f _ tag' ⟨e, rfl, hend⟩
          have hkept : c.Kept (c.provision verify config keys E).2 := .provision E
          rwa [hend] at hkept
      · simp only [provisionWithFn, hconfig, Script.wp_bind, Script.wp_mapError, Script.wp_lift_ok,
          Script.wp_require]
        exact ⟨fun h => absurd h huid, fun _ => huntouched⟩

/-- Nothing is lost in one step. -/
theorem FieldStep.kept (hP : P.Lawful) (happ : app.Documented profile)
    (hview : ∀ a, view.version a = (profile a).version) {a a' : A}
    (hrestorable : (profile a).Restorable) (h : FieldStep P E app view profile verify a a') :
    (profile a).Kept (profile a') := by
  cases h with
  | provision urlTemplate newKeys rnd n hstart =>
      exact Script.wp_runUntil_always n
        (PoweredTag.wp_provisionWithFn_kept (c := profile a) hP happ hview rfl rfl hstart
          urlTemplate _ rnd)
  | reset uid rnd n =>
      have hreset : (profile a).Kept (profile a).reset := (Profile.Kept.refl _).reset
      refine Script.wp_runUntil_always n (Script.wp_mono (PoweredTag.wp_resetWithFn (c := profile a)
        hP happ rfl rfl (fun _ => rfl) hrestorable rnd) ?_ fun _ _ _ hno => hno.elim)
      intro _ _ tag' hend
      rwa [hend]

/-- **Nothing is lost in a life.** -/
theorem InField.kept (hP : P.Lawful) (happ : app.Documented profile)
    (hview : ∀ a, view.version a = (profile a).version) {a a' : A}
    (hrestorable : (profile a).Restorable) (h : InField P E app view profile verify a a') :
    (profile a).Kept (profile a') := by
  induction h with
  | refl => exact .refl _
  | tail _ hstep ih => exact ih.trans (hstep.kept hP happ hview (ih.restorable hrestorable))

/-! ### The way back -/

/-- **A reset with the keys of the tag completes.** -/
theorem InField.exists_reset (hP : P.Lawful) (happ : app.Documented profile)
    (hview : ∀ a, view.version a = (profile a).version) {a a' : A}
    (hrestorable : (profile a).Restorable) (h : InField P E app view profile verify a a')
    (uid : Bytes 7) (rnd : ℕ → Bytes 16) :
    ∃ tag, Prog.run (PoweredTag.transmit P app view (E := E))
        (resetWithKeys P uid (profile a').keys rnd ()) (PoweredTag.new a') = ((.ok (), ()), tag) ∧
      profile tag.card.app = (profile a').reset :=
  PoweredTag.exists_reset (c := profile a') hP happ rfl rfl (fun _ => rfl)
    ((h.kept hP happ hview hrestorable).restorable hrestorable) rnd

section Provisioned

variable {tag : PoweredTag A} {c : Profile} {urlTemplate : String} {config : SdmUrlConfig}
  {verifier : Verifier} {keys : Bytes 7 → Except K (KeyNumber → Key)} {newKeys : KeyNumber → Key}

/-- Provisioning an approved tag that was not tampered with. -/
theorem PoweredTag.wp_provisioned (hP : P.Lawful) (happ : app.Documented profile)
    (hview : ∀ a, view.version a = (profile a).version) (hidle : tag.card.channel.isIdle = true)
    (hprofile : profile tag.card.app = c) (hstart : c.Provisionable)
    (hconfig : createSdmUrlConfig urlTemplate provisioningMode = .ok (config, verifier))
    (huid : config.mirrorsUid = true) (happroved : c.Approved verify keys newKeys)
    (hclosed : c.Untampered config) (rnd : ℕ → Bytes 16) :
    (provisionWithFn P verify urlTemplate keys rnd).wp
      (Prog.Answers (PoweredTag.transmit P app view))
      (fun tag => c.Waypoint verify config keys (profile tag.card.app))
      (fun r _ tag' => r = ⟨urlTemplate, verifier, config.uriPrefix,
          provisioningSystemIdentifier, some c.uid, some c.signature⟩ ∧
        profile tag'.card.app = c.provisioned config newKeys)
      (fun (_ : Fault (ProvisioningFailure E K)) _ _ => False) () tag := by
  have hspec := Profile.provision_eq_ok happroved hclosed E
  refine Script.wp_mono (PoweredTag.wp_provisionWithFn hP happ hview hidle hprofile hstart hconfig
    huid rnd) ?_ ?_
  · rintro _ _ tag' ⟨identity, hend, rfl⟩
    rw [hspec] at hend
    obtain ⟨hidentity, hprofile'⟩ := Prod.mk.inj hend
    obtain rfl := Except.ok.inj hidentity
    exact ⟨rfl, hprofile'.symm⟩
  · rintro _ _ _ ⟨e, -, hno⟩
    rw [hspec] at hno
    cases (Prod.mk.inj hno).1

/-- A tag that is provisioned. -/
theorem PoweredTag.exists_provisioned (hP : P.Lawful) (happ : app.Documented profile)
    (hview : ∀ a, view.version a = (profile a).version) (hidle : tag.card.channel.isIdle = true)
    (hprofile : profile tag.card.app = c) (hstart : c.Provisionable)
    (hconfig : createSdmUrlConfig urlTemplate provisioningMode = .ok (config, verifier))
    (huid : config.mirrorsUid = true) (happroved : c.Approved verify keys newKeys)
    (hclosed : c.Untampered config) (rnd : ℕ → Bytes 16) :
    ∃ tag', Prog.run (PoweredTag.transmit P app view (E := E))
        (provisionWithFn P verify urlTemplate keys rnd ()) tag =
        ((.ok ⟨urlTemplate, verifier, config.uriPrefix, provisioningSystemIdentifier, some c.uid,
          some c.signature⟩, ()), tag') ∧
      profile tag'.card.app = c.provisioned config newKeys := by
  obtain ⟨_, _, tag', hrun, rfl, hend⟩ := Script.exists_run (PoweredTag.wp_provisioned (E := E)
    hP happ hview hidle hprofile hstart hconfig huid happroved hclosed rnd)
  exact ⟨tag', hrun, hend⟩

end Provisioned

/-- **After that reset the tag can be provisioned again.** -/
theorem InField.exists_recovered (hP : P.Lawful) (happ : app.Documented profile)
    (hview : ∀ a, view.version a = (profile a).version) {a a' : A}
    (hrestorable : (profile a).Restorable) (h : InField P E app view profile verify a a')
    {urlTemplate : String} {config : SdmUrlConfig} {verifier : Verifier}
    (hconfig : createSdmUrlConfig urlTemplate provisioningMode = .ok (config, verifier))
    (huid : config.mirrorsUid = true) {newKeys : KeyNumber → Key}
    (happroved : (profile a).Approved verify (fun _ => Except.ok (ε := Empty) newKeys) newKeys)
    (hclosed : (profile a).Untampered config) (uid : Bytes 7) (rnd rnd' : ℕ → Bytes 16) :
    ∃ tag, Prog.run (PoweredTag.transmit P app view (E := E))
        (resetWithKeys P uid (profile a').keys rnd ()) (PoweredTag.new a') = ((.ok (), ()), tag) ∧
      ∃ tag', Prog.run (PoweredTag.transmit P app view (E := E))
          (provisionWithKeys P verify urlTemplate newKeys rnd' ()) (PoweredTag.new tag.card.app) =
          ((.ok ⟨urlTemplate, verifier, config.uriPrefix, provisioningSystemIdentifier,
            some (profile a).uid, some (profile a).signature⟩, ()), tag') ∧
        ∀ k, (profile tag'.card.app).keys k = newKeys k := by
  have hkept := (h.kept hP happ hview hrestorable).reset
  obtain ⟨tag, hrun, hend⟩ := h.exists_reset hP happ hview hrestorable uid rnd
  obtain ⟨tag', hrun', hend'⟩ := PoweredTag.exists_provisioned (E := E) hP happ
    hview (PoweredTag.isIdle_new tag.card.app) hend (Profile.Provisionable.reset _) hconfig huid
    (hkept.approved happroved) (hkept.untampered hclosed) rnd'
  rw [hkept.uid, hkept.signature] at hrun'
  refine ⟨tag, hrun, tag', hrun', fun k => ?_⟩
  rw [hend', Profile.provisioned_keys]

/-- A tag at delivery whose provisioning was cut off after some exchanges. -/
@[irreducible] def StoredProfile.cutOff (n : ℕ) : StoredProfile :=
  (Prog.runUntil (PoweredTag.transmit .standard TagApp.stored .stored (E := Empty)) n
    (provisionWithKeys .standard verifyDelivered exampleTemplate
      (keysForUid .standard (Bytes.zeros 16) deliveredUid) (fun _ => Bytes.zeros 16) ())
    (PoweredTag.new .delivered)).2.card.app

theorem StoredProfile.inField_cutOff (n : ℕ) :
    InField .standard Empty TagApp.stored .stored StoredProfile.profile verifyDelivered .delivered
      (.cutOff n) := by
  rw [cutOff]
  exact .single (.provision exampleTemplate _ _ n StoredProfile.delivered_delivered.provisionable)

/-- That tag is reset and provisioned. -/
theorem InField.exists_recovered_cutOff :
    ∃ config verifier tag tag', createSdmUrlConfig exampleTemplate provisioningMode =
        .ok (config, verifier) ∧
      Prog.run (PoweredTag.transmit .standard TagApp.stored .stored (E := Empty))
          (resetWithKeys .standard deliveredUid (StoredProfile.cutOff 40).profile.keys
            (fun _ => Bytes.zeros 16) ()) (PoweredTag.new (.cutOff 40)) = ((.ok (), ()), tag) ∧
      Prog.run (PoweredTag.transmit .standard TagApp.stored .stored (E := Empty))
          (provisionWithKeys .standard verifyDelivered exampleTemplate
            (keysForUid .standard (Bytes.zeros 16) deliveredUid) (fun _ => Bytes.zeros 16) ())
          (PoweredTag.new tag.card.app) =
        ((.ok ⟨exampleTemplate, verifier, config.uriPrefix, provisioningSystemIdentifier,
          some deliveredUid, some deliveredSignature⟩, ()), tag') ∧
      ∀ k, tag'.card.app.profile.keys k = keysForUid .standard (Bytes.zeros 16) deliveredUid k := by
  obtain ⟨config, verifier, hconfig, huid⟩ := exampleTemplate_created
  obtain ⟨tag, hreset, tag', hprovision, hkeys⟩ := InField.exists_recovered
    Primitives.standard_lawful TagApp.stored_documented (fun _ => rfl)
    StoredProfile.delivered_delivered.restorable (StoredProfile.inField_cutOff 40) hconfig huid
    (Profile.approved_delivered rfl) (Profile.untampered_delivered config) deliveredUid
    (fun _ => Bytes.zeros 16) fun _ => Bytes.zeros 16
  exact ⟨config, verifier, tag, tag', hconfig, hreset, hprovision, hkeys⟩

end Ntag424
