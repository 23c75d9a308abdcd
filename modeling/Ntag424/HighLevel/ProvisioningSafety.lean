import Mathlib.Tactic.Common
import Ntag424.HighLevel.Instructions
import Ntag424.Session.Transcript

/-!
# Provisioning Trusts No Tag Before Its Signature

Whatever answers, an honest tag, a forged one or a transport that makes answers up, provisioning
only finds out about the tag until it has read a UID and a signature that belong together, and has
keys for that UID. Nothing is configured, written or keyed before.

## Main results

* `provisionTag_eq`: a run of provisioning is the identification of a tag and its deployment.
* `provisionWithFn_cautious`: the transcript of every run against every transport, stopped anywhere.
-/

namespace Ntag424

variable {E K : Type} (P : Primitives)
  (verify : Bytes signatureLen → Bytes 7 → Except OriginalityError Unit)

/-! ### The two parts of provisioning -/

/-- What provisioning finds out about a tag. -/
structure IdentifiedTag where
  version : Version
  uid : Bytes 7
  session : EncryptedSession
  signature : Bytes signatureLen

/-- The first part of `provision_with_fn`: whose tag it is. -/
def identify (rnd : ℕ → Bytes 16) : ProvisioningTask E K IdentifiedTag := do
  let version ← checkVersion
  let session ← (authenticateUsingFactoryDefaults P rnd).mapError .sessionError
  let (uid, session, signature) ← (verifyOriginality P verify session).mapError .sessionError
  return { version, uid, session, signature }

/-- The second part of `provision_with_fn`: the keys, the features and the files. -/
def deployIdentified (config : SdmUrl.SdmUrlConfig)
    (keys : Bytes 7 → Except K (KeyNumber → Key)) (tag : IdentifiedTag) :
    ProvisioningTask E K (Bytes 7 × Bytes signatureLen) :=
  match keys tag.uid with
  | .error e => Script.fail (.keyGenerationError e)
  | .ok newKeys => do
      let session ← configure P tag.session tag.version config.sdmSettings.tamperStatus.isSome
      let session ← (configureNdef P session config).mapError .sessionError
      (provisionKeys P session newKeys).mapError .sessionError
      return (tag.uid, tag.signature)

/-- **Provisioning** is the identification of a tag, and its deployment. -/
theorem provisionTag_eq (config : SdmUrl.SdmUrlConfig)
    (keys : Bytes 7 → Except K (KeyNumber → Key)) (rnd : ℕ → Bytes 16) :
    (provisionTag P verify config keys rnd : ProvisioningTask E K _) =
      identify P verify rnd >>= deployIdentified P config keys := by
  simp only [provisionTag, identify, provisionInSessions, Script.bind_assoc', Script.pure_bind']
  rfl

/-! ### What is sent in each part -/

/-- An APDU that finds out about a tag: its version, a first authentication, the UID and the
originality signature, and the option of LRP mode, which the authentication needs. -/
inductive Probing : List UInt8 → Prop
  | version : Probing [0x90, 0x60, 0x00, 0x00, 0x00]
  | continuation : Probing continuationApdu
  | select : Probing (isoSelectDfByNameApdu ndefApplicationDfName)
  | native {ins : UInt8} (hins : ins ∈ [0x71, 0xAF, 0x51, 0x3C]) (p1 p2 : UInt8)
      (body : List UInt8) : Probing (nativeApdu ins p1 p2 body)
  | lrp (body : List UInt8) : Probing (nativeApdu 0x5C 0x00 0x00 (0x05 :: body))

/-- An APDU that changes a tag, or reads the settings and the tamper status on the way. -/
inductive Deploying : List UInt8 → Prop
  | native {ins : UInt8} (hins : ins ∈ [0x5C, 0xF7, 0xF5, 0x8D, 0x5F, 0xC4]) (p1 p2 : UInt8)
      (body : List UInt8) : Deploying (nativeApdu ins p1 p2 body)

theorem covers_probing {ins : UInt8} (hins : ins ∈ [0x71, 0xAF, 0x51, 0x3C]) :
    Covers Probing ins := fun p1 p2 body _ => .native hins p1 p2 body

theorem covers_deploying {ins : UInt8} (hins : ins ∈ [0x5C, 0xF7, 0xF5, 0x8D, 0x5F, 0xC4]) :
    Covers Deploying ins := fun p1 p2 body _ => .native hins p1 p2 body

theorem identifies_probing : Identifies Probing where
  select := .select
  first := covers_probing (by simp)
  next := covers_probing (by simp)
  lrp := .lrp
  uid := covers_probing (by simp)
  signature := covers_probing (by simp)

theorem deploys_deploying : Deploys Deploying where
  set := covers_deploying (by simp)
  tamper := covers_deploying (by simp)
  settings := covers_deploying (by simp)
  write := covers_deploying (by simp)
  change := covers_deploying (by simp)
  key := covers_deploying (by simp)

/-- The first part only probes. -/
theorem asks_identify (rnd : ℕ → Bytes 16) :
    (identify P verify rnd : ProvisioningTask E K _).Asks Probing := by
  refine Script.Asks.bind ?_ fun version => ?_
  · refine Script.Asks.bind (Script.Asks.mapError ?_ _) fun _ => ?_
    · exact (asks_getVersionPlain .version .continuation).on _
    · exact (Script.asks_require _ _).bind fun _ => Script.asks_pure _
  · refine ((asks_authenticateUsingFactoryDefaults P identifies_probing rnd).mapError _).bind
      fun session => ?_
    exact ((asks_verifyOriginality P identifies_probing verify session).mapError _).bind
      fun _ => Script.asks_pure _

/-- The second part changes the tag. -/
theorem asks_deployIdentified (config : SdmUrl.SdmUrlConfig)
    (keys : Bytes 7 → Except K (KeyNumber → Key)) (tag : IdentifiedTag) :
    (deployIdentified (E := E) P config keys tag).Asks Deploying := by
  rw [deployIdentified]
  cases keys tag.uid with
  | error e => exact Script.asks_fail _
  | ok newKeys =>
      refine (asks_configure P deploys_deploying _ _ _).bind fun session => ?_
      refine ((asks_configureNdef P deploys_deploying session config).mapError _).bind
        fun session => ?_
      refine ((asks_provisionKeys P deploys_deploying.key session newKeys).mapError _).bind
        fun _ => ?_
      exact Script.asks_pure _

/-! ### Transcripts -/

/-- What a script that sends one kind of APDU adds to a transcript. -/
theorem wp_recorded_of_asks {σ ε β : Type} {p : List UInt8 → Prop}
    {m : Script (Transmit E) σ ε β} (h : m.Asks p) (t : σ) (w : Transcript E) :
    m.wp (Records anyAnswer) (fun w' => ∃ sent, w' = w ++ sent ∧ ∀ entry ∈ sent, p entry.1)
      (fun _ _ w' => ∃ sent, w' = w ++ sent ∧ ∀ entry ∈ sent, p entry.1)
      (fun _ _ w' => ∃ sent, w' = w ++ sent ∧ ∀ entry ∈ sent, p entry.1) t w := by
  refine h.wp_always ?_ ⟨[], (List.append_nil w).symm, by simp⟩
  rintro apdu _ answer _ happdu ⟨sent, rfl, hsent⟩ ⟨-, rfl⟩
  refine ⟨sent ++ [(apdu, answer)], List.append_assoc _ _ _, ?_⟩
  intro entry hentry
  rcases List.mem_append.mp hentry with hold | hnew
  · exact hsent entry hold
  · rw [List.mem_singleton.mp hnew]
    exact happdu

/-- **A cautious transcript**: it only probes, or it starts with a whole identification of a tag
whose signature belongs to its UID and for whose UID there are keys. -/
inductive Cautious (keys : Bytes 7 → Except K (KeyNumber → Key)) (rnd : ℕ → Bytes 16) :
    Transcript E → Prop
  | probing {probes} (hprobes : ∀ entry ∈ probes, Probing entry.1) : Cautious keys rnd probes
  | trusting {probes sent : Transcript E} {tag : IdentifiedTag} {newKeys : KeyNumber → Key}
      (hprobes : ∀ entry ∈ probes, Probing entry.1)
      (hidentified : Prog.Ends (Records anyAnswer)
        ((identify P verify rnd : ProvisioningTask E K _) ()) [] (.ok tag, ()) probes)
      (hgenuine : verify tag.signature tag.uid = .ok ()) (hkeys : keys tag.uid = .ok newKeys)
      (hsent : ∀ entry ∈ sent, Deploying entry.1) : Cautious keys rnd (probes ++ sent)

section Runs

variable {P verify} {keys : Bytes 7 → Except K (KeyNumber → Key)} {rnd : ℕ → Bytes 16}

/-- The signature that a session returns belongs to the UID. -/
theorem EncryptedSession.wp_verifyOriginality_genuine {W : Type}
    {env : (r : List UInt8) → W → Transmit E r → W → Prop} {w : W} {uid : Bytes 7}
    (session : EncryptedSession) :
    (session.verifyOriginality P verify uid).wp env (fun _ => True)
      (fun r _ _ => verify r.1 uid = .ok ()) (fun _ _ _ => True) () w := by
  have hsuite : ∀ (S : Type) [HandshakeSuite P S] (s : Session (Authenticated S)),
      (s.verifyOriginality P verify uid).wp env (fun _ => True)
        (fun r _ _ => verify r.2 uid = .ok ()) (fun _ _ _ => True) () w := by
    intro S _ s
    refine Script.wp_bind_of (Script.wp_any _) ?_ fun _ _ _ _ => trivial
    rintro ⟨signature, s'⟩ _ w' -
    dsimp only
    cases hverify : verify signature uid with
    | ok _ => exact Script.wp_pure.mpr hverify
    | error e => exact Script.wp_fail.mpr trivial
  cases session with
  | aes s =>
      simp only [EncryptedSession.verifyOriginality, EncryptedSession.dispatchValue, Script.wp_bind,
        Script.wp_pure]
      exact hsuite AesSuite s
  | lrp s =>
      simp only [EncryptedSession.verifyOriginality, EncryptedSession.dispatchValue, Script.wp_bind,
        Script.wp_pure]
      exact hsuite LrpSuite s

/-- The signature of an identified tag belongs to its UID. -/
theorem wp_identify_genuine {W : Type} {env : (r : List UInt8) → W → Transmit E r → W → Prop}
    {w : W} :
    (identify P verify rnd : ProvisioningTask E K _).wp env (fun _ => True)
      (fun tag _ _ => verify tag.signature tag.uid = .ok ()) (fun _ _ _ => True) () w := by
  refine Script.wp_bind_of (Script.wp_any checkVersion) ?_ fun _ _ _ _ => trivial
  intro version _ w₁ _
  refine Script.wp_bind_of (Script.wp_any _) ?_ fun _ _ _ _ => trivial
  intro session _ w₂ _
  simp only [verifyOriginality, Script.wp_bind, Script.wp_mapError, Script.wp_pure]
  refine Script.wp_mono (Script.wp_any _) ?_ ?_
  · rintro ⟨uid, session⟩ _ w₃ _
    refine Script.wp_mono session.wp_verifyOriginality_genuine (fun _ _ _ h => h) ?_
    rintro (e | _) _ _ _ <;> trivial
  · rintro (e | _) _ _ _ <;> trivial

/-- What the second part returns, and that it needs keys. -/
theorem wp_deployIdentified {W : Type} {env : (r : List UInt8) → W → Transmit E r → W → Prop}
    {w : W} (config : SdmUrl.SdmUrlConfig) (tag : IdentifiedTag) :
    (deployIdentified P config keys tag).wp env (fun _ => True)
      (fun r _ _ => r = (tag.uid, tag.signature)) (fun _ _ _ => True) () w := by
  rw [deployIdentified]
  cases keys tag.uid with
  | error e => exact Script.wp_fail.mpr trivial
  | ok newKeys =>
      refine Script.wp_bind_of (Script.wp_any _) (fun _ _ _ _ => ?_) fun _ _ _ _ => trivial
      refine Script.wp_bind_of (Script.wp_any _) (fun _ _ _ _ => ?_) fun _ _ _ _ => trivial
      refine Script.wp_bind_of (Script.wp_any _) (fun _ _ _ _ => ?_) fun _ _ _ _ => trivial
      exact Script.wp_pure.mpr rfl

/-- **A run of provisioning is cautious**, and what it returns is genuine. -/
theorem wp_provisionTag_cautious (config : SdmUrl.SdmUrlConfig) :
    (provisionTag P verify config keys rnd).wp (Records anyAnswer)
      (fun w => Cautious (E := E) P verify keys rnd w)
      (fun r _ w => Cautious P verify keys rnd w ∧ verify r.2 r.1 = .ok ())
      (fun _ _ w => Cautious P verify keys rnd w) () [] := by
  have hprobing : ∀ w : Transcript E,
      (∃ sent, w = [] ++ sent ∧ ∀ entry ∈ sent, Probing entry.1) →
        ∀ entry ∈ w, Probing entry.1 := by
    rintro w ⟨sent, rfl, hsent⟩
    exact hsent
  rw [provisionTag_eq]
  refine Script.wp_bind_of (Script.wp_weaken (Script.wp_both (Script.wp_with_ends
    (wp_recorded_of_asks (asks_identify P verify rnd) () [])) wp_identify_genuine)
    fun w h => .probing (hprobing w h.1)) ?_ fun _ _ w h => .probing (hprobing w h.1)
  rintro tag _ probes ⟨⟨hsent, hends⟩, hgenuine⟩
  have hprobes := hprobing probes hsent
  cases hkeys : keys tag.uid with
  | error e =>
      simp only [deployIdentified, hkeys]
      exact Script.wp_fail.mpr (.probing hprobes)
  | ok newKeys =>
      have htrusting : ∀ w, (∃ sent, w = probes ++ sent ∧ ∀ entry ∈ sent, Deploying entry.1) →
          Cautious P verify keys rnd w := by
        rintro _ ⟨sent, rfl, hsent⟩
        exact .trusting hprobes hends hgenuine hkeys hsent
      refine Script.wp_weaken (Script.wp_mono (Script.wp_both (wp_recorded_of_asks
        (asks_deployIdentified P config keys tag) () probes) (wp_deployIdentified config tag)) ?_
        fun _ _ w h => htrusting w h.1) fun w h => htrusting w h.1
      rintro r _ w ⟨hw, rfl⟩
      exact ⟨htrusting w hw, hgenuine⟩

/-- A run for any template. -/
theorem wp_provisionWithFn_cautious (urlTemplate : String) :
    (provisionWithFn P verify urlTemplate keys rnd).wp (Records anyAnswer)
      (fun w => Cautious (E := E) P verify keys rnd w)
      (fun app _ w => Cautious P verify keys rnd w ∧ ∃ uid signature, app.uid = some uid ∧
        app.originalitySignature = some signature ∧ verify signature uid = .ok ())
      (fun _ _ w => Cautious P verify keys rnd w) () [] := by
  have hsilent : Cautious (E := E) P verify keys rnd [] :=
    .probing fun _ hno => absurd hno List.not_mem_nil
  cases hconfig : createSdmUrlConfig urlTemplate provisioningMode with
  | error f =>
      simp only [provisionWithFn, hconfig, Script.wp_bind, Script.wp_mapError,
        Script.wp_lift_error]
      cases f <;> exact hsilent
  | ok r =>
      simp only [provisionWithFn, hconfig, Script.wp_bind, Script.wp_mapError, Script.wp_lift_ok,
        Script.wp_require, Script.wp_pure]
      refine ⟨fun _ => ?_, fun _ => hsilent⟩
      refine Script.wp_mono (wp_provisionTag_cautious r.1) ?_ fun _ _ _ h => h
      rintro ⟨uid, signature⟩ _ w ⟨hw, hgenuine⟩
      exact ⟨hw, uid, signature, rfl, rfl, hgenuine⟩

end Runs

/-- **Provisioning is cautious**, against every transport and wherever it is stopped: it changes
nothing before it has seen a signature that belongs to a UID for which there are keys. What it
returns carries such a signature. -/
theorem provisionWithFn_cautious {W : Type} (urlTemplate : String)
    (keys : Bytes 7 → Except K (KeyNumber → Key)) (rnd : ℕ → Bytes 16)
    (h : (apdu : List UInt8) → W → Transmit E apdu × W) (w : W) :
    (∀ n, Cautious P verify keys rnd (Prog.runUntil (traced h) n
      (provisionWithFn P verify urlTemplate keys rnd ()) (w, [])).2.2) ∧
    ∀ app s' v', Prog.run (traced h) (provisionWithFn P verify urlTemplate keys rnd ()) (w, []) =
        ((.ok app, s'), v') →
      ∃ uid signature, app.uid = some uid ∧ app.originalitySignature = some signature ∧
        verify signature uid = .ok () := by
  have hrecorded : (provisionWithFn P verify urlTemplate keys rnd).wp (Records anyAnswer)
      (fun w => Cautious P verify keys rnd w) _ _ () ([] : Transcript E) :=
    wp_provisionWithFn_cautious urlTemplate
  have hwp := Script.wp_comap (f := Prod.snd) (v := (w, []))
    (fun _ _ _ _ hanswer => records_of_traced (h := h) hanswer) hrecorded
  refine ⟨fun n => ?_, ?_⟩
  · exact Script.wp_runUntil_always n (Script.wp_mono hwp (fun _ _ _ h => h.1) fun _ _ _ h => h)
  · intro app s' v' hrun
    have hend := Prog.ends_run (traced h) (provisionWithFn P verify urlTemplate keys rnd ()) (w, [])
    rw [hrun] at hend
    exact (Script.wp_ends hwp hend).2

end Ntag424
