import Mathlib.Tactic.Common
import Ntag424.HighLevel.Lifecycle
import Ntag424.Lib.Stops
import Ntag424.Tag.DeliveredProfile

/-!
# Running an Interrupted Provisioning Again

A provisioning that is interrupted leaves the tag with the master key of delivery. As long as no
key was replaced, a second run leads to the tag that the first would have led to. Afterwards a
second run is refused at the first key, unless its checksum is that of the default key, and
nothing of the tag changes any more.

## Main results

* `Profile.Waypoint.resumes`, `Profile.Resumes.provisioned_eq`: every profile on the way leads to
  the same end.
* `PoweredTag.keys_of_interrupted`: the keys of an interrupted tag.
* `PoweredTag.provision_again`: the second run, before a key was replaced.
* `PoweredTag.provision_again_refused`: the second run, afterwards.
-/

namespace Ntag424

open SdmUrl

/-! ### Profiles on the way -/

namespace Profile

variable {c c' : Profile} {config : SdmUrlConfig}

/-- Provisioning can go on from `c'` as from `c`: outside of what it writes both are the same. -/
structure Resumes (config : SdmUrlConfig) (c c' : Profile) : Prop where
  kept : c.Kept c'
  ndef_settings : c'.settings .ndef = c.settings .ndef ∨
    c'.settings .ndef = provisionedSettings config
  container_settings : c'.settings .capabilityContainer = c.settings .capabilityContainer
  ndef : (c'.contents .ndef).toList.drop config.ndefBytes.length =
    (c.contents .ndef).toList.drop config.ndefBytes.length
  container : (c'.contents .capabilityContainer).toList.drop provisionedContainerBytes.length =
    (c.contents .capabilityContainer).toList.drop provisionedContainerBytes.length
  tamperAccess : c.enablesTamper config = false → c'.tamperAccess = c.tamperAccess

namespace Resumes

variable {c₀ : Profile}

protected theorem refl (c : Profile) : c.Resumes config c :=
  ⟨.refl c, .inl rfl, rfl, rfl, rfl, fun _ => rfl⟩

protected theorem inLrpMode (h : c₀.Resumes config c) : c₀.Resumes config c.inLrpMode :=
  ⟨h.kept.inLrpMode, h.ndef_settings, h.container_settings, h.ndef, h.container, h.tamperAccess⟩

protected theorem tagged (h : c₀.Resumes config c) {tamper : Bool}
    (htamper : c₀.enablesTamper config = false → tamper = false) :
    c₀.Resumes config (c.tagged tamper) := by
  refine ⟨h.kept.tagged _, h.ndef_settings, h.container_settings, h.ndef, h.container, ?_⟩
  intro hno
  rw [htamper hno]
  exact h.tamperAccess hno

/-- A write from the start of a file, of what provisioning writes there at most. -/
protected theorem written (h : c₀.Resumes config c) {file : File} (hfile : file ≠ .proprietary)
    {data : List UInt8} (hsize : data.length ≤ file.size)
    (hndef : file = .ndef → data.length ≤ config.ndefBytes.length)
    (hcontainer : file = .capabilityContainer → data.length ≤ provisionedContainerBytes.length) :
    c₀.Resumes config (c.written file 0 data) := by
  have hwithin : 0 + data.length ≤ file.size := by rwa [Nat.zero_add]
  refine ⟨h.kept.written hfile _ _, h.ndef_settings, h.container_settings, ?_, ?_,
    h.tamperAccess⟩
  · by_cases hsame : file = .ndef
    · subst hsame
      rw [written_contents_self hwithin, drop_overlay_zero (hndef rfl), h.ndef]
    · rw [written_contents_of_ne (Ne.symm hsame), h.ndef]
  · by_cases hsame : file = .capabilityContainer
    · subst hsame
      rw [written_contents_self hwithin, drop_overlay_zero (hcontainer rfl), h.container]
    · rw [written_contents_of_ne (Ne.symm hsame), h.container]

protected theorem keyed (h : c₀.Resumes config c) (newKeys : KeyNumber → Key)
    (keyVersion : UInt8) (keys : List NonMasterKeyNumber) :
    c₀.Resumes config (c.keyed newKeys keyVersion keys) := by
  induction keys generalizing c with
  | nil => exact h
  | cons keyNo rest ih =>
      exact ih ⟨h.kept.changedKey _ _ _, h.ndef_settings, h.container_settings, h.ndef,
        h.container, h.tamperAccess⟩

protected theorem prepared (h : c₀.Resumes config c) : c₀.Resumes config (c.prepared config) := by
  refine h.inLrpMode.tagged fun hno => ?_
  rw [enablesTamper, h.kept.version]
  exact hno

protected theorem mirroring (h : c₀.Resumes config c) (hdeployable : config.Deployable) :
    c₀.Resumes config (c.mirroring config) := by
  have hwritten := h.written (by decide) hdeployable.length_le (fun _ => le_rfl) (by rintro ⟨⟩)
  exact ⟨hwritten.kept.withSettings (by decide) (.inr rfl), .inr rfl,
    hwritten.container_settings, hwritten.ndef, hwritten.container, hwritten.tamperAccess⟩

/-- What has to be allowed is allowed. -/
theorem filesWritable (h : c.Resumes config c') (hwritable : c.FilesWritable) :
    c'.FilesWritable where
  ndef_writable := by
    rcases h.ndef_settings with hsame | hnew
    · rw [hsame]
      exact hwritable.ndef_writable
    · rw [hnew]
      exact .inr (.inr rfl)
  ndef_change := by
    rcases h.ndef_settings with hsame | hnew
    · rw [hsame]
      exact hwritable.ndef_change
    · rw [hnew]
      exact .inr rfl
  container_writable := by
    rw [h.container_settings]
    exact hwritable.container_writable
  container_plain := by
    rw [h.container_settings]
    exact hwritable.container_plain

/-- **The end of provisioning** is the same. -/
theorem provisioned_eq (h : c.Resumes config c') (newKeys : KeyNumber → Key) :
    c'.provisioned config newKeys = c.provisioned config newKeys := by
  have htamper : c'.enablesTamper config = c.enablesTamper config := by
    rw [enablesTamper, enablesTamper, h.kept.version]
  have hkeys : (c'.provisioned config newKeys).keys = (c.provisioned config newKeys).keys := by
    funext k
    rw [provisioned_keys, provisioned_keys]
  have hsettings : (c'.provisioned config newKeys).settings =
      (c.provisioned config newKeys).settings := by
    funext file
    cases file with
    | capabilityContainer => exact h.container_settings
    | ndef => rfl
    | proprietary => exact h.kept.settings
  have hversions : (c'.provisioned config newKeys).keyVersions =
      (c.provisioned config newKeys).keyVersions := by
    funext k
    cases k <;> rfl
  have hoverlay : ∀ (file : File) (data : List UInt8),
      (c'.contents file).toList.drop data.length = (c.contents file).toList.drop data.length →
      Bytes.fill file.size (overlay (c'.contents file).toList 0 data) =
        Bytes.fill file.size (overlay (c.contents file).toList 0 data) := by
    intro file data hsame
    rw [overlay_zero, overlay_zero, hsame]
  have hcontents : (c'.provisioned config newKeys).contents =
      (c.provisioned config newKeys).contents := by
    funext file
    cases file with
    | capabilityContainer => exact hoverlay .capabilityContainer _ h.container
    | ndef => exact hoverlay .ndef _ h.ndef
    | proprietary => exact h.kept.contents
  have haccess : (c'.provisioned config newKeys).tamperAccess =
      (c.provisioned config newKeys).tamperAccess := by
    have hend : ∀ c : Profile, (c.provisioned config newKeys).tamperAccess =
        if c.enablesTamper config then some .free else c.tamperAccess := fun _ => rfl
    rw [hend, hend, htamper]
    cases henabled : c.enablesTamper config with
    | true => rfl
    | false => exact h.tamperAccess henabled
  exact Profile.ext hkeys hsettings rfl hversions hcontents h.kept.uid h.kept.signature
    h.kept.version rfl haccess h.kept.tamperStatus

end Resumes

variable {K : Type} {verify : Bytes signatureLen → Bytes 7 → Except OriginalityError Unit}
  {keys : Bytes 7 → Except K (KeyNumber → Key)}

/-- **Every profile on the way** can be gone on from. -/
theorem Waypoint.resumes (h : c.Waypoint verify config keys c') (hdeployable : config.Deployable) :
    c.Resumes config c' := by
  have hlrp : c.Resumes config c.inLrpMode := (Resumes.refl c).inLrpMode
  have hprepared : c.Resumes config (c.prepared config) := (Resumes.refl c).prepared
  have hmirroring := hprepared.mirroring hdeployable
  have hlabelled : ∀ n, c.Resumes config (((c.prepared config).mirroring config).written
      .capabilityContainer 0 (provisionedContainerBytes.take n)) := by
    intro n
    have hlen : (provisionedContainerBytes.take n).length ≤ provisionedContainerBytes.length :=
      List.length_take_le' n _
    exact hmirroring.written (by decide) (hlen.trans (by decide)) (by rintro ⟨⟩) fun _ => hlen
  cases h with
  | untouched => exact .refl c
  | inLrpMode _ => exact hlrp
  | tagging _ => exact hlrp.tagged fun _ => rfl
  | prepared _ => exact hprepared
  | writing _ _ n =>
      have hlen : (config.ndefBytes.take n).length ≤ config.ndefBytes.length :=
        List.length_take_le' n _
      exact hprepared.written (by decide) (hlen.trans hdeployable.length_le) (fun _ => hlen)
        (by rintro ⟨⟩)
  | labelling _ _ n => exact hlabelled n
  | keying _ _ n =>
      have hfiled := hlabelled provisionedContainerBytes.length
      rw [List.take_length] at hfiled
      exact hfiled.keyed _ _ _

/-- The keys after some of them were replaced. -/
theorem keyed_keys (newKeys : KeyNumber → Key) (keyVersion : UInt8)
    {keys : List NonMasterKeyNumber} (hnodup : keys.Nodup) (k : KeyNumber) :
    (c.keyed newKeys keyVersion keys).keys k =
      if k ∈ keys.map NonMasterKeyNumber.toKeyNumber then newKeys k else c.keys k := by
  split
  · rename_i hmem
    obtain ⟨keyNo, hkeyNo, rfl⟩ := List.mem_map.mp hmem
    exact keyed_keys_of_mem newKeys keyVersion hnodup hkeyNo
  · rename_i hmem
    refine keyed_keys_of_notMem newKeys keyVersion ?_
    rintro keyNo hkeyNo rfl
    exact hmem (List.mem_map_of_mem hkeyNo)

/-- **The keys on the way**: all are those of delivery, or both files are as they are deployed and
the first of the others are new. -/
theorem Waypoint.keys_or (h : c.Waypoint verify config keys c') (hstart : c.Provisionable) :
    (∀ k, c'.keys k = factoryKey) ∨
      ∃ newKeys n, c.Approved verify keys newKeys ∧ c.Untampered config ∧
        c' = ((c.prepared config).filed config).keyed newKeys 0x01 (nonMasterKeys.take n) ∧
        ∀ k, c'.keys k = if k ∈ (nonMasterKeys.take n).map NonMasterKeyNumber.toKeyNumber then
          newKeys k else factoryKey := by
  cases h with
  | untouched => exact .inl hstart.keys
  | inLrpMode _ => exact .inl hstart.keys
  | tagging _ => exact .inl hstart.keys
  | prepared _ => exact .inl hstart.keys
  | writing _ _ n => exact .inl hstart.keys
  | labelling _ _ n => exact .inl hstart.keys
  | keying happroved hclosed n =>
      refine .inr ⟨_, n, happroved, hclosed, rfl, fun k => ?_⟩
      have hfactory : ((c.prepared config).filed config).keys k = factoryKey := hstart.keys k
      rw [keyed_keys _ _ ((List.take_sublist ..).nodup (by decide)), hfactory]

/-- The master key is replaced last. -/
theorem Waypoint.masterKey (h : c.Waypoint verify config keys c') (hstart : c.Provisionable) :
    c'.keys .key0 = factoryKey := by
  rcases h.keys_or hstart with hfactory | ⟨_, _, -, -, -, hkeys⟩
  · exact hfactory .key0
  · rw [hkeys, if_neg]
    intro hmem
    obtain ⟨keyNo, -, hzero⟩ := List.mem_map.mp hmem
    exact keyNo.toKeyNumber_ne_key0 hzero

/-- Replacing keys changes nothing else. -/
theorem keyed_eq (newKeys : KeyNumber → Key) (keyVersion : UInt8)
    (keys : List NonMasterKeyNumber) :
    ∃ keys' versions, c.keyed newKeys keyVersion keys =
      { c with keys := keys', keyVersions := versions } := by
  induction keys generalizing c with
  | nil => exact ⟨c.keys, c.keyVersions, rfl⟩
  | cons keyNo rest ih =>
      obtain ⟨keys', versions, heq⟩ := @ih (c.changedKey keyNo.toKeyNumber
        (newKeys keyNo.toKeyNumber) keyVersion)
      exact ⟨keys', versions, heq⟩

/-- To prepare and deploy a tag once more changes nothing. -/
theorem prepared_filed_idem (hdeployable : config.Deployable) (c : Profile) :
    (((c.prepared config).filed config).prepared config).filed config =
      (c.prepared config).filed config := by
  have hndef : ((c.written .ndef 0 config.ndefBytes).written .ndef 0 config.ndefBytes).contents =
      (c.written .ndef 0 config.ndefBytes).contents := by
    rw [written_zero_written_zero le_rfl hdeployable.length_le]
  have hcontainer : ((c.written .capabilityContainer 0 provisionedContainerBytes).written
      .capabilityContainer 0 provisionedContainerBytes).contents =
      (c.written .capabilityContainer 0 provisionedContainerBytes).contents := by
    rw [written_zero_written_zero le_rfl (by decide)]
  have hsettings : ((((c.prepared config).filed config).prepared config).filed config).settings =
      ((c.prepared config).filed config).settings := by
    funext file
    cases file <;> rfl
  have hcontents : ((((c.prepared config).filed config).prepared config).filed config).contents =
      ((c.prepared config).filed config).contents := by
    funext file
    cases file with
    | capabilityContainer => exact congrFun hcontainer .capabilityContainer
    | ndef => exact congrFun hndef .ndef
    | proprietary => rfl
  have haccess :
      ((((c.prepared config).filed config).prepared config).filed config).tamperAccess =
        ((c.prepared config).filed config).tamperAccess := by
    have hfirst : ((c.prepared config).filed config).tamperAccess =
        if c.enablesTamper config then some .free else c.tamperAccess := rfl
    have hsecond :
        ((((c.prepared config).filed config).prepared config).filed config).tamperAccess =
        if c.enablesTamper config then some .free
          else ((c.prepared config).filed config).tamperAccess := rfl
    rw [hsecond, hfirst]
    cases c.enablesTamper config <;> rfl
  exact Profile.ext rfl hsettings rfl rfl hcontents rfl rfl rfl rfl haccess rfl

/-- The same once some keys are replaced. -/
theorem prepared_filed_keyed (hdeployable : config.Deployable) (newKeys : KeyNumber → Key)
    (keyVersion : UInt8) (keys : List NonMasterKeyNumber) :
    (((((c.prepared config).filed config).keyed newKeys keyVersion keys).prepared config).filed
        config) = ((c.prepared config).filed config).keyed newKeys keyVersion keys := by
  obtain ⟨keys', versions, heq⟩ := ((c.prepared config).filed config).keyed_eq newKeys keyVersion
    keys
  rw [heq]
  have hidem := prepared_filed_idem hdeployable c
  have hsame : ({ (c.prepared config).filed config with
      keys := keys', keyVersions := versions }.prepared config).filed config =
      { (((c.prepared config).filed config).prepared config).filed config with
        keys := keys', keyVersions := versions } := rfl
  rw [hsame, hidem]

end Profile

/-! ### Runs -/

section Runs

variable {P : Primitives} {E A K : Type} {app : TagApp A} {view : PublicView A}
  {profile : A → Profile} {verify : Bytes signatureLen → Bytes 7 → Except OriginalityError Unit}
  {tag tag' : PoweredTag A} {c : Profile} {urlTemplate : String} {config : SdmUrlConfig}
  {verifier : Verifier} {keys : Bytes 7 → Except K (KeyNumber → Key)} {newKeys : KeyNumber → Key}
  {rnd : ℕ → Bytes 16} {n : ℕ}

namespace PoweredTag

/-- An interrupted run leaves a profile on the way. -/
theorem waypoint_of_interrupted (hP : P.Lawful) (happ : app.Documented profile)
    (hview : ∀ a, view.version a = (profile a).version) (hidle : tag.card.channel.isIdle = true)
    (hprofile : profile tag.card.app = c) (hstart : c.Provisionable)
    (hconfig : createSdmUrlConfig urlTemplate provisioningMode = .ok (config, verifier))
    (huid : config.mirrorsUid = true)
    (hstop : Prog.runUntil (transmit P app view (E := E)) n
      (provisionWithFn P verify urlTemplate keys rnd ()) tag = (none, tag')) :
    c.Waypoint verify config keys (profile tag'.card.app) := by
  have hway := Script.wp_runUntil (wp_provisionWithFn hP happ hview hidle hprofile hstart hconfig
    huid rnd) hstop
  exact hway

/-- **The keys of an interrupted tag.** The master key is that of delivery, and if other keys are
not, they are the first of the new ones, on a tag that is trusted and whose files are deployed. -/
theorem keys_of_interrupted (hP : P.Lawful) (happ : app.Documented profile)
    (hview : ∀ a, view.version a = (profile a).version) (hidle : tag.card.channel.isIdle = true)
    (hprofile : profile tag.card.app = c) (hstart : c.Provisionable)
    (hconfig : createSdmUrlConfig urlTemplate provisioningMode = .ok (config, verifier))
    (huid : config.mirrorsUid = true)
    (hstop : Prog.runUntil (transmit P app view (E := E)) n
      (provisionWithFn P verify urlTemplate keys rnd ()) tag = (none, tag')) :
    (profile tag'.card.app).keys .key0 = factoryKey ∧
      ((∀ k, (profile tag'.card.app).keys k = factoryKey) ∨
        ∃ newKeys m, c.Approved verify keys newKeys ∧ c.Untampered config ∧
          (profile tag'.card.app).settings = ((c.prepared config).filed config).settings ∧
          (profile tag'.card.app).contents = ((c.prepared config).filed config).contents ∧
          ∀ k, (profile tag'.card.app).keys k =
            if k ∈ (nonMasterKeys.take m).map NonMasterKeyNumber.toKeyNumber then newKeys k
            else factoryKey) := by
  have hway := waypoint_of_interrupted hP happ hview hidle hprofile hstart hconfig huid hstop
  refine ⟨hway.masterKey hstart, ?_⟩
  rcases hway.keys_or hstart with hfactory | ⟨newKeys, m, happroved, hclosed, hnew, hkeys⟩
  · exact .inl hfactory
  · obtain ⟨keys', versions, heq⟩ := ((c.prepared config).filed config).keyed_eq newKeys 0x01
      (nonMasterKeys.take m)
    refine .inr ⟨newKeys, m, happroved, hclosed, ?_, ?_, hkeys⟩
    · rw [hnew, heq]
    · rw [hnew, heq]

/-- **Running it again**, before a key was replaced, leads to the tag that the first run would have
led to. -/
theorem provision_again (hP : P.Lawful) (happ : app.Documented profile)
    (hview : ∀ a, view.version a = (profile a).version) (hidle : tag.card.channel.isIdle = true)
    (hprofile : profile tag.card.app = c) (hstart : c.Provisionable)
    (hconfig : createSdmUrlConfig urlTemplate provisioningMode = .ok (config, verifier))
    (huid : config.mirrorsUid = true) (happroved : c.Approved verify keys newKeys)
    (hclosed : c.Untampered config)
    (hstop : Prog.runUntil (transmit P app view (E := E)) n
      (provisionWithFn P verify urlTemplate keys rnd ()) tag = (none, tag'))
    (hkeys : ∀ k, (profile tag'.card.app).keys k = factoryKey) (rnd' : ℕ → Bytes 16) :
    ∃ tag'', Prog.run (transmit P app view (E := E))
        (provisionWithFn P verify urlTemplate keys rnd' ()) (PoweredTag.new tag'.card.app) =
        ((.ok ⟨urlTemplate, verifier, config.uriPrefix, provisioningSystemIdentifier, some c.uid,
          some c.signature⟩, ()), tag'') ∧
      profile tag''.card.app = c.provisioned config newKeys := by
  have hresumes := (waypoint_of_interrupted hP happ hview hidle hprofile hstart hconfig huid
    hstop).resumes (deployable_of_createSdmUrlConfig hconfig)
  have hagain : (profile tag'.card.app).Provisionable :=
    ⟨hresumes.filesWritable hstart.toFilesWritable, hkeys⟩
  obtain ⟨tag'', hrun, hend⟩ := exists_provisioned (E := E) (c := profile tag'.card.app) hP happ
    hview (isIdle_new tag'.card.app) rfl hagain hconfig huid (hresumes.kept.approved happroved)
    (hresumes.kept.untampered hclosed) rnd'
  rw [hresumes.kept.uid, hresumes.kept.signature] at hrun
  exact ⟨tag'', hrun, hend.trans (hresumes.provisioned_eq newKeys)⟩

/-- Keys one after the other. -/
theorem setKeys_append (keys : KeyNumber → Key) (first rest : List NonMasterKeyNumber)
    (session : EncryptedSession) :
    (setKeys P keys (first ++ rest) session : Task E EncryptedSession) =
      setKeys P keys first session >>= setKeys P keys rest := by
  induction first generalizing session with
  | nil => rfl
  | cons keyNo first ih =>
      simp only [List.cons_append, setKeys, Script.bind_assoc', ih]

/-- The keys can be interrupted after any number of them. -/
theorem stops_provisionKeys (hP : P.Lawful) (happ : app.Documented profile)
    {session : EncryptedSession} (h : InProfile P .key0 profile c session tag.card)
    (hfactory : ∀ k, c.keys k = factoryKey) (hmaster : newKeys .key0 ≠ factoryKey) (n : ℕ) :
    ∃ tag', Prog.Stops (transmit P app view (E := E)) (provisionKeys P session newKeys ()) tag
        tag' ∧
      profile tag'.card.app = c.keyed newKeys 0x01 (nonMasterKeys.take n) := by
  have hnodup : (nonMasterKeys.take n ++ nonMasterKeys.drop n).Nodup := by
    rw [List.take_append_drop]
    decide
  obtain ⟨hfirst, hrest, hdisjoint⟩ := List.nodup_append.mp hnodup
  have hcovers := covers_sessionApdu 0xC4
  obtain ⟨session₁, _, tag₁, hrun₁, h₁⟩ := exists_run_of_card view
    (asks_setKeys (E := E) P hcovers newKeys _ session) (wp_setKeys (J := fun _ => True) hP happ
      hfirst h (fun _ _ => hfactory _) fun _ => trivial)
  refine ⟨tag₁, ?_, h₁.profile_app⟩
  have hold : ∀ keyNo ∈ nonMasterKeys.drop n,
      (c.keyed newKeys 0x01 (nonMasterKeys.take n)).keys keyNo.toKeyNumber = factoryKey := by
    intro keyNo hkeyNo
    rw [Profile.keyed_keys_of_notMem, hfactory]
    intro other hother hsame
    exact hdisjoint other hother keyNo hkeyNo (NonMasterKeyNumber.toKeyNumber_injective hsame.symm)
  have hkeys : (profile tag₁.card.app).keys .key0 = factoryKey := by
    rw [h₁.profile_app, Profile.keyed_keys_of_notMem, hfactory]
    intro other _ hsame
    exact other.toKeyNumber_ne_key0 hsame.symm
  have hsplit : (setKeys P newKeys nonMasterKeys session : Task E EncryptedSession) =
      setKeys P newKeys (nonMasterKeys.take n) session >>=
        setKeys P newKeys (nonMasterKeys.drop n) := by
    rw [← setKeys_append, List.take_append_drop]
  rw [provisionKeys, hsplit, Script.bind_assoc']
  refine Script.stops_bind hrun₁ (Prog.stops_self ?_)
  -- what is left of the run replaces the master key
  have hleft : (setKeys P newKeys (nonMasterKeys.drop n) session₁ >>= fun session₂ => do
      let _ ← session₂.changeMasterKey P (newKeys .key0) 0x01
      return () : Task E Unit).wp (Prog.Answers (Card.transmit P app)) (fun _ => True)
      (fun _ _ w' => (profile w'.app).keys .key0 = newKeys .key0) (fun _ _ _ => False) ()
      tag₁.card := by
    refine Script.wp_bind_of (wp_setKeys (J := fun _ => True) hP happ hrest h₁ hold fun _ =>
      trivial) ?_ fun _ _ _ he => he
    intro session₂ _ w₂ h₂
    simp only [Script.wp_bind, Script.wp_pure]
    refine Script.wp_mono (h₂.wp_changeMasterKey (J := fun _ => True) hP happ _ _ trivial) ?_
      fun _ _ _ he => he
    intro _ _ w₃ hend
    rw [hend, Profile.changedKey_keys_self]
  have hasks := (asks_setKeys (E := E) P hcovers newKeys (nonMasterKeys.drop n) session₁).bind
    fun session₂ => (asks_changeMasterKey P hcovers session₂ (newKeys .key0) 0x01).bind fun _ =>
      Script.asks_pure ()
  obtain ⟨_, _, tag₂, hrun₂, hnew⟩ := exists_run_of_card view hasks hleft
  rw [hrun₂]
  rintro rfl
  exact hmaster (hnew.symm.trans hkeys)

/-- The sessions of a run can be interrupted after any number of keys. -/
theorem stops_provisionInSessions (hP : P.Lawful) (happ : app.Documented profile)
    (hprofile : profile tag.card.app = c) (hstart : c.Provisionable)
    (hdeployable : config.Deployable) (happroved : c.Approved verify keys newKeys)
    (hclosed : c.Untampered config) (hmaster : newKeys .key0 ≠ factoryKey)
    (rnd : ℕ → Bytes 16) (m : ℕ) :
    ∃ tag', Prog.Stops (transmit P app view (E := E))
        (provisionInSessions P verify config keys rnd c.version ()) tag tag' ∧
      profile tag'.card.app =
        ((c.prepared config).filed config).keyed newKeys 0x01 (nonMasterKeys.take m) := by
  have hrights : (c.prepared config).FilesWritable := hstart.toFilesWritable.prepared
  obtain ⟨session₁, _, tag₁, hrun₁, h₁⟩ := exists_run_of_card view
    (asks_authenticateUsingFactoryDefaults (E := E) P identifies_sessionApdu rnd)
    (wp_authenticateUsingFactoryDefaults (J := fun _ => True) hP happ hprofile
      (hstart.keys .key0) rnd trivial trivial)
  obtain ⟨⟨uid, session₂, signature⟩, _, tag₂, hrun₂, ⟨rfl, rfl, -⟩, h₂⟩ := exists_run_of_card view
    (asks_verifyOriginality (E := E) P identifies_sessionApdu verify session₁)
    (Script.wp_mono (wp_verifyOriginality (J := fun _ => True) hP happ h₁ trivial verify)
      (fun _ _ _ h => h) (by
        rintro _ _ _ ⟨e, hno, -⟩
        cases happroved.genuine.symm.trans hno))
  obtain ⟨session₃, _, tag₃, hrun₃, -, h₃⟩ := exists_run_of_card view
    (asks_configure (E := E) (K := K) P deploys_sessionApdu session₂ c.version
      config.sdmSettings.tamperStatus.isSome)
    (Script.wp_mono (wp_configure (J := fun _ => True) hP happ h₂ trivial trivial trivial)
      (fun _ _ _ h => h) (by
        rintro _ _ _ ⟨-, ⟨henabled, hopen⟩, -⟩
        have hshut := hclosed henabled
        cases hshut.symm.trans hopen))
  obtain ⟨session₄, _, tag₄, hrun₄, h₄⟩ := exists_run_of_card view
    (asks_configureNdef (E := E) P deploys_sessionApdu session₃ config)
    (wp_configureNdef (J := fun _ => True) hP happ h₃ hdeployable hrights.ndef_writable
      hrights.ndef_change hrights.container_writable hrights.container_plain (fun _ => trivial)
      fun _ => trivial)
  have hkeying : ∃ tag', Prog.Stops (transmit P app view (E := E))
      (provisionKeys P session₄ newKeys ()) tag₄ tag' ∧ profile tag'.card.app =
        ((c.prepared config).filed config).keyed newKeys 0x01 (nonMasterKeys.take m) :=
    stops_provisionKeys hP happ h₄ hstart.keys hmaster m
  obtain ⟨tag', hstops, hend⟩ := hkeying
  have hlast := Script.Stops.mapError hstops
    (ProvisioningFailure.sessionError : SessionError E → ProvisioningFailure E K)
  have hkeys : keys c.inLrpMode.uid = .ok newKeys := happroved.keys_eq
  refine ⟨tag', ?_, hend⟩
  rw [provisionInSessions]
  refine Script.stops_bind (Script.run_mapError hrun₁ _) ?_
  refine Script.stops_bind (Script.run_mapError hrun₂ _) ?_
  simp only [hkeys]
  refine Script.stops_bind hrun₃ ?_
  refine Script.stops_bind (Script.run_mapError hrun₄ _) ?_
  exact Script.Stops.first hlast _

/-- **A run can be interrupted** after any number of keys, if the new master key is not that of
delivery. -/
theorem exists_interrupted (hP : P.Lawful) (happ : app.Documented profile)
    (hview : ∀ a, view.version a = (profile a).version) (hidle : tag.card.channel.isIdle = true)
    (hprofile : profile tag.card.app = c) (hstart : c.Provisionable)
    (hconfig : createSdmUrlConfig urlTemplate provisioningMode = .ok (config, verifier))
    (huid : config.mirrorsUid = true) (happroved : c.Approved verify keys newKeys)
    (hclosed : c.Untampered config) (hmaster : newKeys .key0 ≠ factoryKey)
    (rnd : ℕ → Bytes 16) (m : ℕ) :
    ∃ n tag', Prog.runUntil (transmit P app view (E := E)) n
        (provisionWithFn P verify urlTemplate keys rnd ()) tag = (none, tag') ∧
      profile tag'.card.app =
        ((c.prepared config).filed config).keyed newKeys 0x01 (nonMasterKeys.take m) := by
  have hversion : view.version tag.card.app = c.version := by rw [hview, hprofile]
  obtain ⟨version, _, tag₁, hrun₁, rfl, -, hcard⟩ := Script.exists_run
    (Script.wp_mono (wp_checkVersion (P := P) (E := E) (K := K) (I := fun _ => True)
      (fun _ => trivial) hidle) (fun _ _ _ h => h) (by
        rintro _ _ _ ⟨-, hother, -⟩
        rw [hversion] at hother
        exact absurd happroved.hwType hother))
  rw [hversion] at hrun₁
  rw [← hcard] at hprofile
  have hsessions : ∃ tag', Prog.Stops (transmit P app view (E := E))
      (provisionInSessions P verify config keys rnd c.version ()) tag₁ tag' ∧
      profile tag'.card.app =
        ((c.prepared config).filed config).keyed newKeys 0x01 (nonMasterKeys.take m) :=
    stops_provisionInSessions hP happ hprofile hstart (deployable_of_createSdmUrlConfig hconfig)
      happroved hclosed hmaster rnd m
  obtain ⟨tag', hstops, hend⟩ := hsessions
  have hdeploying : Prog.Stops (transmit P app view (E := E))
      (provisionTag P verify config keys rnd ()) tag tag' := Script.stops_bind hrun₁ hstops
  have hrequire : Prog.run (transmit P app view (E := E))
      (Script.require (config.mirrorsUid = true)
        (.noUidMirroring : ProvisioningFailure E K) ()) tag = ((.ok (), ()), tag) := by
    rw [Script.require, if_pos huid]
    rfl
  have hstopped : Prog.Stops (transmit P app view (E := E))
      (provisionWithFn P verify urlTemplate keys rnd ()) tag tag' := by
    rw [provisionWithFn, hconfig]
    refine Script.stops_bind (Script.run_mapError rfl _) ?_
    exact Script.stops_bind hrequire (Script.Stops.first hdeploying _)
  obtain ⟨n, hstop⟩ := hstopped
  exact ⟨n, tag', hstop, hend⟩

/-- A run on a tag that refuses the first of the new keys. -/
theorem wp_provisionWithFn_refused (hP : P.Lawful) (happ : app.Documented profile)
    (hview : ∀ a, view.version a = (profile a).version) (hidle : tag.card.channel.isIdle = true)
    (hprofile : profile tag.card.app = c) (hmaster : c.keys .key0 = factoryKey)
    (hwritable : c.FilesWritable)
    (hconfig : createSdmUrlConfig urlTemplate provisioningMode = .ok (config, verifier))
    (huid : config.mirrorsUid = true) (happroved : c.Approved verify keys newKeys)
    (hclosed : c.Untampered config)
    (hcrc : crc32 (((newKeys .key1).xor factoryKey).xor (c.keys .key1)).toList ≠
      crc32 (newKeys .key1).toList) (rnd : ℕ → Bytes 16) :
    (provisionWithFn P verify urlTemplate keys rnd).wp (Prog.Answers (transmit P app view))
      (fun tag => c.Waypoint verify config keys (profile tag.card.app)) (fun _ _ _ => False)
      (fun f _ tag' => ∃ e, f = .error e ∧
        (∃ status, e = (.sessionError (.errorResponse status) : ProvisioningFailure E K)) ∧
        profile tag'.card.app = (c.prepared config).filed config) () tag := by
  refine Script.wp_mono (wp_provisionWithFn_of hview hidle hprofile hconfig huid rnd
    (Q := fun _ _ => False) (R := fun e w' =>
      (∃ status, e = (.sessionError (.errorResponse status) : ProvisioningFailure E K)) ∧
      profile w'.app = (c.prepared config).filed config) ?_ fun hversion =>
    wp_provisionInSessions_of hP happ hprofile hmaster hwritable
      (deployable_of_createSdmUrlConfig hconfig) hversion rnd ?_ ?_) ?_ fun _ _ _ he => he
  · intro e w' hno
    rw [Profile.provision_eq_ok happroved hclosed] at hno
    cases (Prod.mk.inj hno).1
  · intro e w' hno
    rw [Profile.provision_eq_ok happroved hclosed] at hno
    cases (Prod.mk.inj hno).1
  · intro newKeys' session w' happroved' huntampered h
    obtain rfl : newKeys = newKeys' :=
      Except.ok.inj (happroved.keys_eq.symm.trans happroved'.keys_eq)
    simp only [provisionKeys, nonMasterKeys, setKeys, Script.wp_bind]
    refine Script.wp_mono (h.wp_changeKey_refused hP happ .key1 _ 0x01 hcrc
      (.keying happroved huntampered 0)) (fun _ _ _ hno => hno.elim) ?_
    rintro _ _ w'' ⟨⟨status, rfl⟩, hend⟩
    exact ⟨_, rfl, ⟨status, rfl⟩, hend⟩
  · rintro _ _ _ ⟨_, hno, -⟩
    exact hno

/-- **Running it again**, once the first key was replaced, is refused, unless the checksums tell
no difference, and nothing changes any more. -/
theorem provision_again_refused (hP : P.Lawful) (happ : app.Documented profile)
    (hview : ∀ a, view.version a = (profile a).version) (hidle : tag.card.channel.isIdle = true)
    (hprofile : profile tag.card.app = c) (hstart : c.Provisionable)
    (hconfig : createSdmUrlConfig urlTemplate provisioningMode = .ok (config, verifier))
    (huid : config.mirrorsUid = true)
    (hstop : Prog.runUntil (transmit P app view (E := E)) n
      (provisionWithFn P verify urlTemplate keys rnd ()) tag = (none, tag'))
    (hcrc : crc32 factoryKey.toList ≠ crc32 ((profile tag'.card.app).keys .key1).toList)
    (rnd' : ℕ → Bytes 16) :
    ∃ status tag'', Prog.run (transmit P app view (E := E))
        (provisionWithFn P verify urlTemplate keys rnd' ()) (PoweredTag.new tag'.card.app) =
        ((.error (.error (.sessionError (.errorResponse status))), ()), tag'') ∧
      profile tag''.card.app = profile tag'.card.app := by
  have hdeployable := deployable_of_createSdmUrlConfig hconfig
  have hway := waypoint_of_interrupted hP happ hview hidle hprofile hstart hconfig huid hstop
  have hresumes := hway.resumes hdeployable
  rcases hway.keys_or hstart with hfactory | ⟨newKeys, m, happroved, hclosed, hnew, hkeys⟩
  · rw [hfactory] at hcrc
    exact absurd rfl hcrc
  have hfirst : (profile tag'.card.app).keys .key1 = newKeys .key1 := by
    rw [hkeys]
    split
    · rfl
    · rename_i hno
      rw [hkeys, if_neg hno] at hcrc
      exact absurd rfl hcrc
  have hrefused : crc32 (((newKeys .key1).xor factoryKey).xor
      ((profile tag'.card.app).keys .key1)).toList ≠ crc32 (newKeys .key1).toList := by
    rw [hfirst] at hcrc ⊢
    rwa [Bytes.xor_comm (newKeys .key1), Bytes.xor_xor_cancel]
  have hwp := wp_provisionWithFn_refused (E := E) (c := profile tag'.card.app) hP happ hview
    (isIdle_new tag'.card.app) rfl (hway.masterKey hstart)
    (hresumes.filesWritable hstart.toFilesWritable) hconfig huid
    (hresumes.kept.approved happroved) (hresumes.kept.untampered hclosed) hrefused rnd'
  have hsame := Profile.prepared_filed_keyed (c := c) hdeployable newKeys 0x01
    (nonMasterKeys.take m)
  rw [← hnew] at hsame
  rcases Script.run_cases hwp with ⟨_, _, _, -, hno⟩ |
    ⟨_, _, tag'', hrun, _, rfl, ⟨status, rfl⟩, hend⟩
  · exact hno.elim
  · exact ⟨status, tag'', hrun, hend.trans hsame⟩

/-! ### Interruptions of a tag at delivery -/

/-- The keys of the examples below. -/
def exampleKeys : KeyNumber → Key := fun _ => ⟨List.replicate 16 1, rfl⟩

theorem approved_exampleKeys : Profile.Approved verifyDelivered
    (fun _ => Except.ok (ε := Empty) exampleKeys) StoredProfile.delivered.profile exampleKeys :=
  Profile.approved_delivered rfl

/-- A run on a tag at delivery can be interrupted after any number of keys. -/
theorem exists_interrupted_delivered (m : ℕ) :
    ∃ config verifier n tag',
      createSdmUrlConfig exampleTemplate provisioningMode = .ok (config, verifier) ∧
      config.mirrorsUid = true ∧
      Prog.runUntil (transmit .standard TagApp.stored .stored (E := Empty)) n
        (provisionWithFn .standard verifyDelivered exampleTemplate
          (fun _ => Except.ok (ε := Empty) exampleKeys) (fun _ => Bytes.zeros 16) ())
        (PoweredTag.new .delivered) = (none, tag') ∧
      tag'.card.app.profile = ((StoredProfile.delivered.profile.prepared config).filed
        config).keyed exampleKeys 0x01 (nonMasterKeys.take m) := by
  obtain ⟨config, verifier, hconfig, huid⟩ := exampleTemplate_created
  have hmaster : exampleKeys .key0 ≠ factoryKey := by decide
  obtain ⟨n, tag', hstop, hend⟩ := exists_interrupted (E := Empty)
    (c := StoredProfile.delivered.profile) Primitives.standard_lawful TagApp.stored_documented
    PublicView.version_stored (isIdle_new StoredProfile.delivered) rfl
    StoredProfile.delivered_delivered.provisionable hconfig huid approved_exampleKeys
    (Profile.untampered_delivered config) hmaster (fun _ => Bytes.zeros 16) m
  exact ⟨config, verifier, n, tag', hconfig, huid, hstop, hend⟩

/-- The keys after an interruption, which are not those of delivery after the second key. -/
theorem keys_of_interrupted_delivered :
    ∃ n tag', Prog.runUntil (transmit .standard TagApp.stored .stored (E := Empty)) n
        (provisionWithFn .standard verifyDelivered exampleTemplate
          (fun _ => Except.ok (ε := Empty) exampleKeys) (fun _ => Bytes.zeros 16) ())
        (PoweredTag.new .delivered) = (none, tag') ∧
      tag'.card.app.profile.keys .key0 = factoryKey ∧
      tag'.card.app.profile.keys .key2 = exampleKeys .key2 := by
  obtain ⟨config, verifier, n, tag', hconfig, huid, hstop, hend⟩ := exists_interrupted_delivered 2
  obtain ⟨hmaster, -⟩ := keys_of_interrupted (c := StoredProfile.delivered.profile)
    Primitives.standard_lawful TagApp.stored_documented PublicView.version_stored
    (isIdle_new StoredProfile.delivered) rfl StoredProfile.delivered_delivered.provisionable
    hconfig huid hstop
  refine ⟨n, tag', hstop, hmaster, ?_⟩
  rw [hend]
  rfl

/-- A tag at delivery that was interrupted before its first key is provisioned by a second run. -/
theorem provision_again_delivered :
    ∃ config verifier n tag' tag'',
      createSdmUrlConfig exampleTemplate provisioningMode = .ok (config, verifier) ∧
      Prog.runUntil (transmit .standard TagApp.stored .stored (E := Empty)) n
        (provisionWithFn .standard verifyDelivered exampleTemplate
          (fun _ => Except.ok (ε := Empty) exampleKeys) (fun _ => Bytes.zeros 16) ())
        (PoweredTag.new .delivered) = (none, tag') ∧
      Prog.run (transmit .standard TagApp.stored .stored (E := Empty))
        (provisionWithFn .standard verifyDelivered exampleTemplate
          (fun _ => Except.ok (ε := Empty) exampleKeys) (fun _ => Bytes.zeros 16) ())
        (PoweredTag.new tag'.card.app) =
        ((.ok ⟨exampleTemplate, verifier, config.uriPrefix, provisioningSystemIdentifier,
          some deliveredUid, some deliveredSignature⟩, ()), tag'') := by
  obtain ⟨config, verifier, n, tag', hconfig, huid, hstop, hend⟩ := exists_interrupted_delivered 0
  have hkeys : ∀ k, tag'.card.app.profile.keys k = factoryKey := by
    rw [hend]
    exact fun _ => rfl
  obtain ⟨tag'', hrun, -⟩ := provision_again (c := StoredProfile.delivered.profile)
    Primitives.standard_lawful TagApp.stored_documented PublicView.version_stored
    (isIdle_new StoredProfile.delivered) rfl StoredProfile.delivered_delivered.provisionable
    hconfig huid approved_exampleKeys (Profile.untampered_delivered config) hstop hkeys
    fun _ => Bytes.zeros 16
  exact ⟨config, verifier, n, tag', tag'', hconfig, hstop, hrun⟩

/-- A tag at delivery that was interrupted after its first key refuses a second run. -/
theorem provision_again_refused_delivered :
    ∃ n tag' status tag'',
      Prog.runUntil (transmit .standard TagApp.stored .stored (E := Empty)) n
        (provisionWithFn .standard verifyDelivered exampleTemplate
          (fun _ => Except.ok (ε := Empty) exampleKeys) (fun _ => Bytes.zeros 16) ())
        (PoweredTag.new .delivered) = (none, tag') ∧
      Prog.run (transmit .standard TagApp.stored .stored (E := Empty))
        (provisionWithFn .standard verifyDelivered exampleTemplate
          (fun _ => Except.ok (ε := Empty) exampleKeys) (fun _ => Bytes.zeros 16) ())
        (PoweredTag.new tag'.card.app) =
        ((.error (.error (.sessionError (.errorResponse status))), ()), tag'') := by
  obtain ⟨config, verifier, n, tag', hconfig, huid, hstop, hend⟩ := exists_interrupted_delivered 1
  have hfirst : tag'.card.app.profile.keys .key1 = exampleKeys .key1 := by
    rw [hend]
    rfl
  have hcrc : crc32 factoryKey.toList ≠ crc32 (tag'.card.app.profile.keys .key1).toList := by
    rw [hfirst]
    decide +kernel
  obtain ⟨status, tag'', hrun, -⟩ := provision_again_refused
    (c := StoredProfile.delivered.profile) Primitives.standard_lawful TagApp.stored_documented
    PublicView.version_stored (isIdle_new StoredProfile.delivered) rfl
    StoredProfile.delivered_delivered.provisionable hconfig huid hstop hcrc fun _ => Bytes.zeros 16
  exact ⟨n, tag', status, tag'', hstop, hrun⟩

end PoweredTag

end Runs

end Ntag424
