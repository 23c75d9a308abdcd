import Mathlib.Tactic.Common
import Ntag424.HighLevel.DocumentedTag
import Ntag424.HighLevel.Instructions
import Ntag424.HighLevel.ProvisionedProfile
import Ntag424.Tag.Powered

/-!
# Resetting a Documented Tag

On a tag that obeys the laws of `TagApp.Documented`, with keys that the caller knows, resetting
over the wire does to the profile of the tag what `Profile.reset` says.

## Modelling

* `Profile.Kept` collects what neither resetting nor provisioning changes: the identity of the tag,
  its proprietary file, LRP mode and random UIDs once they are enabled, and the right of the master
  key to change the settings of the other two files.

## Main results

* `Profile.Kept.waypoint`: provisioning keeps it.
* `TagApp.Documented.wp_resetKeys`: what a reset does, and what it keeps on the way.
* `Profile.Provisionable.reset`: a reset tag can be provisioned.
-/

namespace Ntag424

open SdmUrl Numerals

namespace Profile

variable {c c₀ c₁ c₂ : Profile}

/-! ### What stays -/

/-- Sessions of the master key may change the settings of both files. -/
def Restorable (c : Profile) : Prop :=
  ∀ file, file ≠ .proprietary → (c.settings file).accessRights.change.Admits .key0

/-- A tag of delivery can be reset: its settings are the master key's to change. -/
theorem Delivered.restorable (h : c.Delivered) : c.Restorable := by
  rintro file -
  rw [h.settings]
  cases file <;> exact .inr rfl

/-- What neither provisioning nor resetting changes. -/
structure Kept (c c' : Profile) : Prop where
  uid : c'.uid = c.uid
  signature : c'.signature = c.signature
  version : c'.version = c.version
  tamperStatus : c'.tamperStatus = c.tamperStatus
  lrpMode : c.lrpMode = true → c'.lrpMode = true
  randomUid : c.randomUid = true → c'.randomUid = true
  settings : c'.settings .proprietary = c.settings .proprietary
  contents : c'.contents .proprietary = c.contents .proprietary
  restorable : c.Restorable → c'.Restorable

namespace Kept

protected theorem refl (c : Profile) : c.Kept c :=
  ⟨rfl, rfl, rfl, rfl, id, id, rfl, rfl, id⟩

protected theorem trans (h : c₀.Kept c₁) (h' : c₁.Kept c₂) : c₀.Kept c₂ where
  uid := h'.uid.trans h.uid
  signature := h'.signature.trans h.signature
  version := h'.version.trans h.version
  tamperStatus := h'.tamperStatus.trans h.tamperStatus
  lrpMode hlrp := h'.lrpMode (h.lrpMode hlrp)
  randomUid hrandom := h'.randomUid (h.randomUid hrandom)
  settings := h'.settings.trans h.settings
  contents := h'.contents.trans h.contents
  restorable hc := h'.restorable (h.restorable hc)

protected theorem inLrpMode (h : c₀.Kept c) : c₀.Kept c.inLrpMode :=
  h.trans ⟨rfl, rfl, rfl, rfl, fun _ => rfl, id, rfl, rfl, id⟩

protected theorem tagged (h : c₀.Kept c) (tamper : Bool) : c₀.Kept (c.tagged tamper) :=
  h.trans ⟨rfl, rfl, rfl, rfl, id, fun _ => rfl, rfl, rfl, id⟩

protected theorem changedKey (h : c₀.Kept c) (k : KeyNumber) (key : Key) (version : UInt8) :
    c₀.Kept (c.changedKey k key version) :=
  h.trans ⟨rfl, rfl, rfl, rfl, id, id, rfl, rfl, id⟩

protected theorem written (h : c₀.Kept c) {file : File} (hfile : file ≠ .proprietary)
    (offset : ℕ) (data : List UInt8) : c₀.Kept (c.written file offset data) :=
  h.trans ⟨rfl, rfl, rfl, rfl, id, id, rfl, written_contents_of_ne hfile.symm .., id⟩

protected theorem withSettings (h : c₀.Kept c) {file : File} (hfile : file ≠ .proprietary)
    {v : FileSettingsView} (hv : v.accessRights.change.Admits .key0) :
    c₀.Kept (c.withSettings file v) := by
  refine h.trans ⟨rfl, rfl, rfl, rfl, id, id, withSettings_settings_of_ne hfile.symm _, rfl, ?_⟩
  intro hc other hother
  by_cases hsame : other = file
  · subst hsame
    rwa [withSettings_settings_self]
  · rw [withSettings_settings_of_ne hsame]
    exact hc other hother

protected theorem keyed (h : c₀.Kept c) (newKeys : KeyNumber → Key) (keyVersion : UInt8)
    (keys : List NonMasterKeyNumber) : c₀.Kept (c.keyed newKeys keyVersion keys) := by
  induction keys generalizing c with
  | nil => exact h
  | cons keyNo rest ih => exact ih (h.changedKey _ _ _)

variable {verify : Bytes signatureLen → Bytes 7 → Except OriginalityError Unit} {K : Type}
  {config : SdmUrlConfig} {keys : Bytes 7 → Except K (KeyNumber → Key)}

protected theorem prepared (h : c₀.Kept c) : c₀.Kept (c.prepared config) :=
  h.inLrpMode.tagged _

protected theorem mirroring (h : c₀.Kept c) : c₀.Kept (c.mirroring config) :=
  (h.written (by decide) _ _).withSettings (by decide) (.inr rfl)

protected theorem provisioned (h : c₀.Kept c) (newKeys : KeyNumber → Key) :
    c₀.Kept (c.provisioned config newKeys) :=
  ((h.prepared.mirroring.written (by decide) _ _).keyed _ _ _).changedKey _ _ _

/-- **Provisioning keeps it**, wherever it is stopped. -/
theorem waypoint {c' : Profile} (h : c.Waypoint verify config keys c') : c.Kept c' := by
  have hprepared : c.Kept (c.prepared config) := (Kept.refl c).prepared
  cases h with
  | untouched => exact .refl c
  | inLrpMode _ => exact (Kept.refl c).inLrpMode
  | tagging _ => exact (Kept.refl c).inLrpMode.tagged false
  | prepared _ => exact hprepared
  | writing _ _ n => exact hprepared.written (by decide) _ _
  | labelling _ _ n => exact hprepared.mirroring.written (by decide) _ _
  | keying _ _ n => exact (hprepared.mirroring.written (by decide) _ _).keyed _ _ _

/-- Provisioning keeps it. -/
theorem provision (E : Type) : c.Kept (c.provision verify config keys E).2 := by
  rw [Profile.provision]
  split
  · split
    · exact (Kept.refl c).inLrpMode
    · exact (Kept.refl c).inLrpMode
    · split
      · exact (Kept.refl c).prepared
      · exact (Kept.refl c).provisioned _
  · exact .refl c

/-- The identity of the tag is kept, and so is the trust in it. -/
theorem approved (h : c.Kept c₁) {newKeys : KeyNumber → Key}
    (happroved : c.Approved verify keys newKeys) : c₁.Approved verify keys newKeys where
  hwType := by rw [h.version, happroved.hwType]
  genuine := by rw [h.signature, h.uid, happroved.genuine]
  keys_eq := by rw [h.uid, happroved.keys_eq]

/-- What is kept includes that the tag was not tampered with. -/
theorem untampered (h : c.Kept c₁) (hclosed : c.Untampered config) :
    c₁.Untampered config := by
  rw [Untampered, enablesTamper, tamperReadout, h.version, h.tamperStatus]
  exact hclosed

end Kept

/-! ### A reset -/

/-- Both files with their settings of delivery. -/
def unmirrored (c : Profile) : Profile :=
  (c.withSettings .ndef (.factory .ndef)).withSettings .capabilityContainer
    (.factory .capabilityContainer)

/-- Both files as they are delivered. -/
def unfiled (c : Profile) : Profile :=
  (c.unmirrored.written .capabilityContainer 0 CapabilityContainer.defaultBytes).written .ndef 0
    (List.replicate 256 0)

/-- What a reset leaves. -/
def reset (c : Profile) : Profile :=
  (c.unfiled.keyed (fun _ => factoryKey) 0x00 nonMasterKeys).changedKey .key0 factoryKey 0x00

/-- Switching the mirrors off keeps what is kept. -/
theorem Kept.unmirrored (h : c₀.Kept c) : c₀.Kept c.unmirrored :=
  (h.withSettings (by decide) (.inr rfl)).withSettings (by decide) (.inr rfl)

/-- Emptying the file keeps what is kept. -/
theorem Kept.unfiled (h : c₀.Kept c) : c₀.Kept c.unfiled :=
  (h.unmirrored.written (by decide) _ _).written (by decide) _ _

/-- A reset keeps what is kept. -/
theorem Kept.reset (h : c₀.Kept c) : c₀.Kept c.reset :=
  (h.unfiled.keyed _ _ _).changedKey _ _ _

/-- A key that is not among those replaced. -/
theorem keyed_keys_of_notMem (newKeys : KeyNumber → Key) (keyVersion : UInt8)
    {keys : List NonMasterKeyNumber} {k : KeyNumber} (h : ∀ keyNo ∈ keys, k ≠ keyNo.toKeyNumber) :
    (c.keyed newKeys keyVersion keys).keys k = c.keys k := by
  induction keys generalizing c with
  | nil => rfl
  | cons keyNo rest ih =>
      obtain ⟨hfirst, hrest⟩ := List.forall_mem_cons.mp h
      rw [keyed, ih hrest, changedKey_keys_of_ne hfirst]

/-- Keys that are replaced by new ones once are the new ones. -/
theorem keyed_keys_of_mem (newKeys : KeyNumber → Key) (keyVersion : UInt8)
    {keys : List NonMasterKeyNumber} (hnodup : keys.Nodup) {keyNo : NonMasterKeyNumber}
    (h : keyNo ∈ keys) :
    (c.keyed newKeys keyVersion keys).keys keyNo.toKeyNumber = newKeys keyNo.toKeyNumber := by
  induction keys generalizing c with
  | nil => cases h
  | cons other rest ih =>
      obtain ⟨hfirst, hnodup⟩ := List.nodup_cons.mp hnodup
      rcases List.mem_cons.mp h with rfl | h
      · rw [keyed, keyed_keys_of_notMem, changedKey_keys_self]
        intro other hother hsame
        rw [NonMasterKeyNumber.toKeyNumber_injective hsame] at hfirst
        exact hfirst hother
      · exact ih hnodup h

/-- All keys replaced, the master key last. -/
theorem keys_of_keyed_changedKey (newKeys : KeyNumber → Key) (keyVersion : UInt8) (k : KeyNumber) :
    ((c.keyed newKeys keyVersion nonMasterKeys).changedKey .key0 (newKeys .key0)
      keyVersion).keys k = newKeys k := by
  cases k <;> rfl

/-- Replacing keys changes no settings. -/
theorem keyed_settings (newKeys : KeyNumber → Key) (keyVersion : UInt8)
    (keys : List NonMasterKeyNumber) :
    (c.keyed newKeys keyVersion keys).settings = c.settings := by
  induction keys generalizing c with
  | nil => rfl
  | cons keyNo rest ih => exact ih

/-- After a reset every key is that of delivery. -/
theorem reset_keys (k : KeyNumber) : c.reset.keys k = factoryKey :=
  keys_of_keyed_changedKey (fun _ => factoryKey) 0x00 k

/-- After a reset the settings of both standard files are those of delivery. -/
theorem reset_settings {file : File} (hfile : file ≠ .proprietary) :
    c.reset.settings file = .factory file := by
  have hsettings : c.reset.settings = c.unfiled.settings := keyed_settings ..
  rw [hsettings]
  cases file with
  | capabilityContainer => rfl
  | ndef => rfl
  | proprietary => exact absurd rfl hfile

/-- **A reset tag can be provisioned.** -/
theorem Provisionable.reset (c : Profile) : c.reset.Provisionable where
  keys := reset_keys
  ndef_writable := by
    rw [reset_settings (by decide)]
    decide
  ndef_change := by
    rw [reset_settings (by decide)]
    decide
  container_writable := by
    rw [reset_settings (by decide)]
    decide
  container_plain := by
    rw [reset_settings (by decide)]
    rfl

/-- The keys of a provisioned tag. -/
theorem provisioned_keys (config : SdmUrlConfig) (newKeys : KeyNumber → Key) (k : KeyNumber) :
    (c.provisioned config newKeys).keys k = newKeys k :=
  keys_of_keyed_changedKey newKeys 0x01 k

end Profile

/-! ### A reset over the wire -/

section Run

variable {P : Primitives} {E A : Type} {app : TagApp A} {profile : A → Profile} {c c₀ : Profile}
  {session : EncryptedSession} {w : Card A} {currentKeys : KeyNumber → Key}

/-- The session of a reset: in LRP mode at once, in AES mode at the second attempt. -/
theorem TagApp.Documented.wp_openMaster (happ : app.Documented profile) (hP : P.Lawful)
    (hprofile : profile w.app = c) {key : Key} (hkey : c.keys .key0 = key) (rnd : ℕ → Bytes 16)
    {J : Profile → Prop} (hJ : J c) :
    (openMaster P key rnd).wp (Prog.Answers (Card.transmit P app)) (fun w => J (profile w.app))
      (fun session _ w' => InProfile P .key0 profile c session w')
      (fun (_ : Fault (SessionError E)) _ _ => False) () w := by
  simp only [openMaster, Script.wp_bind, Script.wp_attempt]
  cases hmode : c.lrpMode with
  | true =>
      refine Script.wp_mono (wp_openLrp hP happ hprofile hmode hkey _ hJ) ?_
        fun _ _ _ he => he.elim
      intro session _ w' h
      exact Script.wp_pure.mpr h
  | false =>
      refine Script.wp_mono (wp_openLrp_aesMode happ hprofile hmode key _ hJ)
        (fun _ _ _ hno => hno.elim) ?_
      rintro _ _ w' ⟨rfl, hprofile'⟩
      simp only [Script.wp_pure]
      exact Script.wp_mono (wp_openAes hP happ hprofile' hmode hkey _ hJ)
        (fun _ _ _ h => h) fun _ _ _ he => he

/-- Settings and contents of both files. -/
theorem InProfile.wp_restoreFiles (happ : app.Documented profile) (hP : P.Lawful)
    (h : InProfile P .key0 profile c session w) (hrestorable : c.Restorable) (hkept : c₀.Kept c) :
    (restoreFiles P session).wp (Prog.Answers (Card.transmit P app))
      (fun w => c₀.Kept (profile w.app))
      (fun session' _ w' => InProfile P .key0 profile c.unfiled session' w')
      (fun (_ : Fault (SessionError E)) _ _ => False) () w := by
  have hrestore : ∀ file : File, ∃ raw,
      (FileSettingsView.factory file).intoUpdate.encode maxChangeFileSettingsLen = .ok raw ∧
        FileSettingsView.decode (payloadWith raw file.size) = .ok (.factory file) := by
    intro file
    have hlimit : ∀ s ∈ (FileSettingsView.factory file).intoUpdate.sdm,
        s.piccData.readCtrLimit = none := by rintro _ ⟨⟩
    obtain ⟨raw, hraw⟩ := FileSettingsUpdate.exists_encode hlimit
    exact ⟨raw, hraw, TagApp.decode_factory hraw⟩
  obtain ⟨rawNdef, hrawNdef, hdecodeNdef⟩ := hrestore .ndef
  obtain ⟨rawCc, hrawCc, hdecodeCc⟩ := hrestore .capabilityContainer
  have hfirst : c₀.Kept (c.withSettings .ndef (.factory .ndef)) :=
    hkept.withSettings (by decide) (.inr rfl)
  have hcc : (FileSettingsView.factory .capabilityContainer).Writable .key0 := by decide
  have hndef : (FileSettingsView.factory .ndef).Writable .key0 := by decide
  rw [restoreFiles]
  refine Script.wp_bind_of (h.wp_changeFileSettings hP happ hrawNdef hdecodeNdef
    (hrestorable _ (by decide)) hkept) ?_ fun _ _ _ he => he
  intro session₁ _ w₁ h₁
  refine Script.wp_bind_of (h₁.wp_changeFileSettings hP happ hrawCc hdecodeCc
    (hrestorable _ (by decide)) hfirst) ?_ fun _ _ _ he => he
  intro session₂ _ w₂ h₂
  rw [CapabilityContainer.toBytes_default]
  simp only [Script.wp_bind, Script.wp_lift_ok]
  refine Script.wp_mono (h₂.wp_writeFileWithMode hP happ ⟨rfl, hcc, by decide, by decide⟩
    fun n => hkept.unmirrored.written (by decide) _ _) ?_ fun _ _ _ he => he
  intro session₃ _ w₃ h₃
  refine InProfile.wp_writeFileWithMode hP happ h₃ ⟨rfl, hndef, ?_, ?_⟩ ?_
  · rw [ne_eq, List.replicate_eq_nil_iff]
    decide
  · rw [List.length_replicate]
    decide
  · intro n
    exact (hkept.unmirrored.written (by decide) _ _).written (by decide) _ _

/-- The loop over the keys that are set to zero. -/
theorem InProfile.wp_zeroKeys (happ : app.Documented profile) (hP : P.Lawful)
    {keys : List NonMasterKeyNumber} (hnodup : keys.Nodup)
    (h : InProfile P .key0 profile c session w)
    (hold : ∀ keyNo ∈ keys, c.keys keyNo.toKeyNumber = currentKeys keyNo.toKeyNumber)
    (hkept : c₀.Kept c) :
    (zeroKeys P currentKeys keys session).wp (Prog.Answers (Card.transmit P app))
      (fun w => c₀.Kept (profile w.app))
      (fun session' _ w' =>
        InProfile P .key0 profile (c.keyed (fun _ => factoryKey) 0x00 keys) session' w')
      (fun (_ : Fault (SessionError E)) _ _ => False) () w := by
  induction keys generalizing c session w with
  | nil => exact Script.wp_pure.mpr h
  | cons keyNo rest ih =>
      obtain ⟨hfirst, hnodup⟩ := List.nodup_cons.mp hnodup
      obtain ⟨hcurrent, hold⟩ := List.forall_mem_cons.mp hold
      rw [zeroKeys]
      refine Script.wp_bind_of (h.wp_changeKey hP happ keyNo _ 0x00 hcurrent hkept) ?_
        fun _ _ _ he => he
      intro session₁ _ w₁ h₁
      refine ih hnodup h₁ ?_ (hkept.changedKey _ _ _)
      intro other hother
      have hne : other.toKeyNumber ≠ keyNo.toKeyNumber := by
        intro hsame
        rw [NonMasterKeyNumber.toKeyNumber_injective hsame] at hother
        exact hfirst hother
      rw [Profile.changedKey_keys_of_ne hne, hold other hother]

/-- **A whole reset**, with the keys of the tag. -/
theorem TagApp.Documented.wp_resetKeys (happ : app.Documented profile) (hP : P.Lawful)
    (hprofile : profile w.app = c) (hkeys : ∀ k, c.keys k = currentKeys k)
    (hrestorable : c.Restorable) (rnd : ℕ → Bytes 16) :
    (resetKeys P currentKeys rnd).wp (Prog.Answers (Card.transmit P app))
      (fun w => c.Kept (profile w.app)) (fun _ _ w' => profile w'.app = c.reset)
      (fun (_ : Fault (SessionError E)) _ _ => False) () w := by
  have hunfiled : ∀ k, c.unfiled.keys k = currentKeys k := hkeys
  rw [resetKeys]
  refine Script.wp_bind_of (happ.wp_openMaster hP hprofile (hkeys .key0) rnd (.refl c)) ?_
    fun _ _ _ he => he
  intro session₁ _ w₁ h₁
  refine Script.wp_bind_of (h₁.wp_restoreFiles happ hP hrestorable (.refl c)) ?_
    fun _ _ _ he => he
  intro session₂ _ w₂ h₂
  refine Script.wp_bind_of (h₂.wp_zeroKeys happ hP (by decide) (fun _ _ => hunfiled _)
    (Profile.Kept.refl c).unfiled) ?_ fun _ _ _ he => he
  intro session₃ _ w₃ h₃
  simp only [Script.wp_bind, Script.wp_pure]
  exact h₃.wp_changeMasterKey hP happ _ _ ((Profile.Kept.refl c).unfiled.keyed _ _ _)

end Run

end Ntag424
