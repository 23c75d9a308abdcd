import Mathlib.Data.List.Pairwise
import Mathlib.Tactic.Common
import Ntag424.HighLevel.EndToEnd
import Ntag424.HighLevel.Lifecycle

/-!
# Tapping a Provisioned Tag

A tag is provisioned over the wire. Every phone that taps it afterwards shows the URL of its read
to the server, and the verifier that provisioning returned accepts one after the other.

## Modelling

* Between two taps the tag counts further, and nothing else of it changes.

## Main results

* `Profile.deployed_provisioned`: what provisioning leaves in the profile is the tag that a
  template describes.
* `ApplicationVerifier.taps_eq`: all taps with increasing counters are accepted.
* `PoweredTag.exists_provisioned_taps`: of a tag that was provisioned over the wire.
-/

namespace Ntag424

open Outcome SdmUrl

/-! ### The tag of a profile -/

/-- The tag as a phone finds it, if its NDEF file mirrors. -/
def Profile.deployed (c : Profile) : Option DeployedTag :=
  (c.settings .ndef).sdm.map fun sdm =>
    ⟨c.keys, sdm, if c.lrpMode then .lrp else .aes, (c.contents .ndef).toList⟩

/-- **What provisioning leaves** is the tag that the template describes. -/
theorem Profile.deployed_provisioned {config : SdmUrlConfig} (hdeployable : config.Deployable)
    (c : Profile) (newKeys : KeyNumber → Key) :
    (c.provisioned config newKeys).deployed = some (config.deploy newKeys
      ((c.contents .ndef).toList.drop config.ndefBytes.length)) := by
  have hkeys : (c.provisioned config newKeys).keys = newKeys :=
    funext (Profile.provisioned_keys config newKeys)
  have hcontents : ((c.provisioned config newKeys).contents .ndef).toList =
      config.ndefBytes ++ (c.contents .ndef).toList.drop config.ndefBytes.length := by
    rw [← overlay_zero]
    exact Profile.written_contents_self (c := c.prepared config)
      (by rw [Nat.zero_add]; exact hdeployable.length_le)
  have hdeployed : (c.provisioned config newKeys).deployed =
      some ⟨(c.provisioned config newKeys).keys, config.sdmSettings, .lrp,
        ((c.provisioned config newKeys).contents .ndef).toList⟩ := rfl
  rw [hdeployed, hkeys, hcontents]
  rfl

/-! ### Taps -/

namespace ApplicationVerifier

variable (P : Primitives) {E : Type} (app : ApplicationVerifier) (masterKey : Key)

/-- One tap: what the server says of the URL that the phone reads, if there is one. -/
def tap (tag : DeployedTag) (rd : TagRead) (store : CounterStore) :
    Option (Outcome (VerificationError E) VerifiedTagReadout) × CounterStore :=
  match parseNdefUri (tag.read P rd) with
  | .ok url =>
      let (r, store') := (app.verify P masterKey (Utf8.encode url.toList)).run StoreOp.answer store
      (some r, store')
  | .error _ => (none, store)

/-- Taps one after the other. -/
def taps (tag : DeployedTag) : List TagRead → CounterStore →
    List (Option (Outcome (VerificationError E) VerifiedTagReadout)) × CounterStore
  | [], store => ([], store)
  | rd :: reads, store =>
      let first := app.tap P masterKey tag rd store
      let rest := taps tag reads first.2
      (first.1 :: rest.1, rest.2)

end ApplicationVerifier

/-- What the server reports of a read. -/
def TagRead.readout (rd : TagRead) (config : SdmUrlConfig) : VerifiedTagReadout where
  uid := rd.values.uid
  readCtr := (rd.values.mirroredCtr config.sdmSettings.piccData).map ctrValue
  tamperStatus := config.sdmSettings.tamperStatus.map fun _ =>
    .new rd.values.ttPerm rd.values.ttCurr

/-- The store after a read was accepted. -/
def TagRead.stored (config : SdmUrlConfig) (store : CounterStore) (rd : TagRead) : CounterStore :=
  ((rd.readout config).readCtr.map (Function.update store rd.values.uid)).getD store

section Taps

variable {P : Primitives} {E : Type} {app : ApplicationVerifier} {masterKey : Key}
  {config : SdmUrlConfig} {tail : List UInt8} {uid : Bytes 7} {store : CounterStore}
  {urlTemplate : String} {identity : Option (Bytes 7)} {signature : Option (Bytes signatureLen)}

/-- **One tap** with a counter above the stored one is accepted. -/
theorem ApplicationVerifier.tap_eq (hP : P.Lawful)
    (happ : createAppVerifier urlTemplate = .ok app)
    (hconfig : sdmUrlConfig urlTemplate provisioningMode provisioningOptions = .ok config)
    (huid : config.mirrorsUid = true) {rd : TagRead} (hrd : rd.values.uid = uid)
    (hdocumented : (config.deploy (keysForUid P masterKey uid) tail).Documented rd)
    (hfresh : ∀ ctr ∈ (rd.readout config).readCtr, store uid < ctr) :
    { app with uid := identity, originalitySignature := signature }.tap P (E := E) masterKey
        (config.deploy (keysForUid P masterKey uid) tail) rd store =
      (some (.ok (rd.readout config)), rd.stored config store) := by
  subst hrd
  obtain ⟨fr, url, -, hparse, hrec⟩ :=
    DeployedTag.recover_read (E := E) hP happ hconfig huid rfl hdocumented
  have hrec' : ({ app with uid := identity, originalitySignature := signature }.recover P masterKey
      (Utf8.encode url.toList) : Outcome (VerificationError E) _) = .ok (rd.values.uid, _) := hrec
  have hrun := ApplicationVerifier.run_verify hrec' hfresh
  simp only [ApplicationVerifier.tap, hparse, hrun]
  rfl

/-- A read that is stored leaves a counter that is not above it. -/
theorem TagRead.stored_le {rd : TagRead} (hrd : rd.values.uid = uid) {ctr : ℕ}
    (hstore : store uid < ctr) (hctr : ∀ ctr' ∈ (rd.readout config).readCtr, ctr' < ctr) :
    rd.stored config store uid < ctr := by
  rw [TagRead.stored]
  cases hread : (rd.readout config).readCtr with
  | none => exact hstore
  | some ctr' =>
      rw [Option.map_some, Option.getD_some, hrd, Function.update_self]
      exact hctr ctr' hread

/-- **Taps with increasing counters** are accepted, one after the other. -/
theorem ApplicationVerifier.taps_eq (hP : P.Lawful)
    (happ : createAppVerifier urlTemplate = .ok app)
    (hconfig : sdmUrlConfig urlTemplate provisioningMode provisioningOptions = .ok config)
    (huid : config.mirrorsUid = true) {reads : List TagRead}
    (hreads : ∀ rd ∈ reads, rd.values.uid = uid ∧
      (config.deploy (keysForUid P masterKey uid) tail).Documented rd)
    (hcounts : reads.Pairwise fun rd rd' =>
      ctrValue rd.values.readCtr < ctrValue rd'.values.readCtr)
    (hfresh : ∀ rd ∈ reads, store uid < ctrValue rd.values.readCtr) :
    { app with uid := identity, originalitySignature := signature }.taps P (E := E) masterKey
        (config.deploy (keysForUid P masterKey uid) tail) reads store =
      (reads.map fun rd => some (.ok (rd.readout config)),
        reads.foldl (TagRead.stored config) store) := by
  have hcounter : ∀ rd : TagRead, ∀ ctr ∈ (rd.readout config).readCtr,
      ctr = ctrValue rd.values.readCtr := by
    intro rd ctr hctr
    obtain ⟨value, hvalue, rfl⟩ := Option.map_eq_some_iff.mp hctr
    rw [TagValues.mirroredCtr] at hvalue
    split at hvalue
    · rw [Option.some.inj hvalue]
    · cases hvalue
  induction reads generalizing store with
  | nil => rfl
  | cons rd reads ih =>
      obtain ⟨⟨hrd, hdocumented⟩, hreads⟩ := List.forall_mem_cons.mp hreads
      obtain ⟨hfirst, hcounts⟩ := List.pairwise_cons.mp hcounts
      obtain ⟨hnow, hfresh⟩ := List.forall_mem_cons.mp hfresh
      have hbelow : ∀ ctr ∈ (rd.readout config).readCtr, store uid < ctr := by
        intro ctr hctr
        rwa [hcounter rd ctr hctr]
      have hstored : ∀ rd' ∈ reads, rd.stored config store uid < ctrValue rd'.values.readCtr := by
        intro rd' hrd'
        refine TagRead.stored_le hrd (hfresh rd' hrd') fun ctr hctr => ?_
        rw [hcounter rd ctr hctr]
        exact hfirst rd' hrd'
      simp only [ApplicationVerifier.taps,
        ApplicationVerifier.tap_eq hP happ hconfig huid hrd hdocumented hbelow,
        ih hreads hcounts hstored]
      rfl

end Taps

/-! ### From the wire to the server -/

section Provisioned

variable {P : Primitives} {E E' A : Type} {app : TagApp A} {view : PublicView A}
  {profile : A → Profile} {verify : Bytes signatureLen → Bytes 7 → Except OriginalityError Unit}

/-- **A tag that was provisioned over the wire** is accepted at every tap. -/
theorem PoweredTag.exists_provisioned_taps (hP : P.Lawful) (happ : app.Documented profile)
    (hview : ∀ a, view.version a = (profile a).version) {tag : PoweredTag A} {c : Profile}
    (hidle : tag.card.channel.isIdle = true) (hprofile : profile tag.card.app = c)
    (hstart : c.Provisionable) {urlTemplate : String} {config : SdmUrlConfig} {verifier : Verifier}
    (hconfig : createSdmUrlConfig urlTemplate provisioningMode = .ok (config, verifier))
    (huid : config.mirrorsUid = true) (hversion : c.version.hwType = 0x04)
    (hgenuine : verify c.signature c.uid = .ok ()) (hclosed : c.Untampered config)
    (masterKey : Key) (rnd : ℕ → Bytes 16) :
    ∃ server tag' deployed, Prog.run (PoweredTag.transmit P app view (E := E))
        (provision P verify urlTemplate masterKey rnd ()) tag = ((.ok server, ()), tag') ∧
      (profile tag'.card.app).deployed = some deployed ∧
      deployed = config.deploy (keysForUid P masterKey c.uid)
        ((c.contents .ndef).toList.drop config.ndefBytes.length) ∧
      deployed.settings = config.sdmSettings ∧
      ∀ (reads : List TagRead) (store : CounterStore),
        (∀ rd ∈ reads, rd.values.uid = c.uid ∧ deployed.Documented rd) →
        (reads.Pairwise fun rd rd' => ctrValue rd.values.readCtr < ctrValue rd'.values.readCtr) →
        (∀ rd ∈ reads, store c.uid < ctrValue rd.values.readCtr) →
        server.taps P (E := E') masterKey deployed reads store =
          (reads.map fun rd => some (.ok (rd.readout config)),
            reads.foldl (TagRead.stored config) store) := by
  have happroved : c.Approved verify
      (fun uid => Except.ok (ε := Empty) (keysForUid P masterKey uid))
      (keysForUid P masterKey c.uid) := ⟨hversion, hgenuine, rfl⟩
  obtain ⟨tag', hrun, hend⟩ := PoweredTag.exists_provisioned (E := E) hP happ hview hidle hprofile
    hstart hconfig huid happroved hclosed rnd
  have hverifier : createAppVerifier urlTemplate =
      .ok ⟨urlTemplate, verifier, config.uriPrefix, provisioningSystemIdentifier, none, none⟩ :=
    createAppVerifier_eq_ok_iff.mpr ⟨config, verifier, hconfig, rfl⟩
  have hdeployed := Profile.deployed_provisioned (deployable_of_createSdmUrlConfig hconfig) c
    (keysForUid P masterKey c.uid)
  rw [← hend] at hdeployed
  refine ⟨_, tag', _, hrun, hdeployed, rfl, rfl, ?_⟩
  intro reads store hreads hcounts hfresh
  exact ApplicationVerifier.taps_eq hP hverifier (createSdmUrlConfig_eq_ok_iff.mp hconfig).1 huid
    hreads hcounts hfresh

/-- The read of the tag at delivery with a counter, once it is provisioned. -/
def deliveredRead (readCtr : Bytes 3) : TagRead where
  values := ⟨deliveredUid, readCtr, 0x43, 0x43⟩
  piccBlock := piccDataBlock (.both ⟨none, .noAccess⟩) ⟨deliveredUid, readCtr, 0x43, 0x43⟩
  piccRand := Bytes.zeros 8

/-- Two taps of a tag that was provisioned with the example template. -/
theorem PoweredTag.exists_provisioned_taps_delivered :
    ∃ server tag' deployed, Prog.run (PoweredTag.transmit .standard TagApp.stored .stored
        (E := Empty)) (provision .standard verifyDelivered exampleTemplate (Bytes.zeros 16)
          (fun _ => Bytes.zeros 16) ()) (PoweredTag.new .delivered) = ((.ok server, ()), tag') ∧
      tag'.card.app.profile.deployed = some deployed ∧
      deployed.keys = keysForUid .standard (Bytes.zeros 16) deliveredUid ∧
      (server.taps .standard (E := Empty) (Bytes.zeros 16) deployed
        [deliveredRead ⟨[5, 0, 0], rfl⟩, deliveredRead ⟨[6, 0, 0], rfl⟩] emptyStore).1 =
        [some (.ok ⟨deliveredUid, some 5, some (.new 0x43 0x43)⟩),
          some (.ok ⟨deliveredUid, some 6, some (.new 0x43 0x43)⟩)] := by
  obtain ⟨config, verifier, hconfig, huid⟩ := exampleTemplate_created
  obtain ⟨-, hfields⟩ := exampleTemplate_config
  rw [(createSdmUrlConfig_eq_ok_iff.mp hconfig).1] at hfields
  obtain ⟨hpicc, htamper⟩ := Prod.mk.inj (Option.some.inj hfields)
  obtain ⟨server, tag', deployed, hrun, hdeployed, hdeploy, hsettings, htaps⟩ :=
    PoweredTag.exists_provisioned_taps (E := Empty) (c := StoredProfile.delivered.profile)
      Primitives.standard_lawful TagApp.stored_documented PublicView.version_stored
      (PoweredTag.isIdle_new StoredProfile.delivered) rfl
      StoredProfile.delivered_delivered.provisionable hconfig huid rfl Profile.genuine_delivered
      (Profile.untampered_delivered config) (Bytes.zeros 16) fun _ => Bytes.zeros 16
  refine ⟨server, tag', deployed, hrun, hdeployed, congrArg DeployedTag.keys hdeploy, ?_⟩
  have hdocumented : ∀ readCtr, deployed.Documented (deliveredRead readCtr) := by
    intro readCtr
    have hclosed : ReadoutParams.IsAscii 0x43 ∧ ReadoutParams.IsAscii 0x43 := by decide
    refine ⟨fun k o content h => ?_, hclosed⟩
    rw [hsettings, hpicc] at h
    cases h
    exact isPiccBlock_piccDataBlock _ _
  rw [htaps _ emptyStore]
  · simp only [List.map_cons, List.map_nil, TagRead.readout, hpicc, htamper]
    rfl
  · intro rd hrd
    rcases List.mem_pair.mp hrd with rfl | rfl
    · exact ⟨rfl, hdocumented _⟩
    · exact ⟨rfl, hdocumented _⟩
  · refine List.pairwise_pair.mpr ?_
    decide
  · intro rd hrd
    rcases List.mem_pair.mp hrd with rfl | rfl <;> decide

end Provisioned

end Ntag424
