import Mathlib.Data.List.Basic
import Mathlib.Tactic.Common
import Ntag424.HighLevel.Reset
import Ntag424.Lockstep.Administered
import Ntag424.Session.Requests
import Ntag424.Standard

/-!
# Running an Interrupted Reset Again

A reset that is interrupted leaves the tag with some of its keys zero. Run again with the same
keys it sends for each of them the exclusive or with the old key, from which the tag now recovers
the old key itself: either its checksum is refused, or the old key is back.

## Modelling

* An interruption stops a run between two exchanges. A command that is lost on its way, or whose
  answer is, leaves the tag in such a state.

## Main results

* `wp_resetWithFn`: what a reset does to a tag that holds the master key, whatever its other keys,
  and what each of its exchanges finds.
* `setup_of_interrupted`: the setup in which a reset is left after some of its exchanges.
* `reset_completes_iff`: a reset completes if and only if the tag holds all keys.
* `reset_again_iff`: so a second run completes if and only if the keys that the first had asked to
  change were zero before.
-/

namespace Ntag424

variable {P : Primitives} {E K A : Type} {app : TagApp A} {setup : A → Setup}

/-! ### The setups of a reset -/

namespace Setup

/-- The settings of both files are those of delivery. -/
def filesRestored (c : Setup) : Setup := (c.restored .ndef).restored .capabilityContainer

/-- What a tag makes of the request to change a key from a current one to zero. -/
def keyZeroed (currentKeys : KeyNumber → Key) (c : Setup) (keyNo : NonMasterKeyNumber) : Setup :=
  c.withKey keyNo.toKeyNumber
    ((currentKeys keyNo.toKeyNumber).xor (c.keys keyNo.toKeyNumber))

/-- The same for several keys. -/
def keysZeroed (currentKeys : KeyNumber → Key) (c : Setup) (keys : List NonMasterKeyNumber) :
    Setup :=
  keys.foldl (keyZeroed currentKeys) c

variable {currentKeys : KeyNumber → Key} {c : Setup}

theorem settings_keysZeroed (keys : List NonMasterKeyNumber) :
    (c.keysZeroed currentKeys keys).settings = c.settings := by
  induction keys generalizing c with
  | nil => rfl
  | cons keyNo keys ih => exact ih

/-- The keys that are not asked to change. -/
theorem keys_keysZeroed_of_notMem {keys : List NonMasterKeyNumber} {k : KeyNumber}
    (h : ∀ keyNo ∈ keys, k ≠ keyNo.toKeyNumber) :
    (c.keysZeroed currentKeys keys).keys k = c.keys k := by
  induction keys generalizing c with
  | nil => rfl
  | cons keyNo keys ih =>
      obtain ⟨hne, hrest⟩ := List.forall_mem_cons.mp h
      rw [keysZeroed, List.foldl_cons, ← keysZeroed, ih hrest, keyZeroed, withKey_keys_of_ne hne]

/-- The keys that are. -/
theorem keys_keysZeroed_of_mem {keys : List NonMasterKeyNumber} (hnodup : keys.Nodup)
    {keyNo : NonMasterKeyNumber} (h : keyNo ∈ keys) :
    (c.keysZeroed currentKeys keys).keys keyNo.toKeyNumber =
      (currentKeys keyNo.toKeyNumber).xor (c.keys keyNo.toKeyNumber) := by
  induction keys generalizing c with
  | nil => exact absurd h List.not_mem_nil
  | cons first keys ih =>
      obtain ⟨hfirst, hnodup⟩ := List.nodup_cons.mp hnodup
      rw [keysZeroed, List.foldl_cons, ← keysZeroed]
      by_cases heq : keyNo = first
      · subst heq
        rw [keys_keysZeroed_of_notMem, keyZeroed, withKey_keys_self]
        intro other hother hsame
        exact hfirst (NonMasterKeyNumber.toKeyNumber_injective hsame ▸ hother)
      · have hmem : keyNo ∈ keys := (List.mem_cons.mp h).resolve_left heq
        rw [ih hnodup hmem, keyZeroed, withKey_keys_of_ne fun hsame =>
          heq (NonMasterKeyNumber.toKeyNumber_injective hsame)]

/-- A reset can be started: the tag holds the master key, and its sessions may change the settings
of both files. -/
structure Resettable (currentKeys : KeyNumber → Key) (c : Setup) : Prop where
  masterKey : c.keys .key0 = currentKeys .key0
  change : ∀ file, file ≠ .proprietary → (c.settings file).accessRights.change.Admits .key0

/-- A setup after a reset: all keys are zero, both files have their settings of delivery, and the
third file has those it had. -/
structure IsReset (c c' : Setup) : Prop where
  keys : ∀ k, c'.keys k = Bytes.zeros 16
  settings : ∀ file, file ≠ .proprietary → c'.settings file = .factory file
  proprietary : c'.settings .proprietary = c.settings .proprietary

/-- The setup after a whole reset. -/
def resetEnd (currentKeys : KeyNumber → Key) (c : Setup) : Setup :=
  (c.filesRestored.keysZeroed currentKeys nonMasterKeys).withKey .key0 (Bytes.zeros 16)

/-- The number of exchanges that open a session: in AES mode two fail before. -/
def opening (c : Setup) : ℕ := if c.lrpMode then 3 else 5

/-- The setup after some of the exchanges of a reset, before the master key changes. -/
def resetAfter (currentKeys : KeyNumber → Key) (c : Setup) (n : ℕ) : Setup :=
  if n ≤ c.opening then c
  else if n = c.opening + 1 then c.restored .ndef
  else c.filesRestored.keysZeroed currentKeys (nonMasterKeys.take (n - (c.opening + 5)))

theorem resetAfter_of_le {n : ℕ} (h : n ≤ c.opening) : c.resetAfter currentKeys n = c := if_pos h

theorem resetAfter_ndef : c.resetAfter currentKeys (c.opening + 1) = c.restored .ndef := by
  rw [resetAfter, if_neg (by omega), if_pos rfl]

theorem resetAfter_of_lt {n : ℕ} (h : c.opening + 1 < n) : c.resetAfter currentKeys n =
    c.filesRestored.keysZeroed currentKeys (nonMasterKeys.take (n - (c.opening + 5))) := by
  rw [resetAfter, if_neg (by omega), if_neg (by omega)]

/-- While the contents are written. -/
theorem resetAfter_filesRestored {n : ℕ} (h : c.opening + 1 < n) (h' : n ≤ c.opening + 5) :
    c.resetAfter currentKeys n = c.filesRestored := by
  rw [resetAfter_of_lt h, Nat.sub_eq_zero_of_le h', List.take_zero]
  rfl

end Setup

/-! ### The steps of a reset -/

section Steps

variable {J : Setup → Prop} {c : Setup} {currentKeys : KeyNumber → Key} {w : Card A}
  {session : EncryptedSession}

/-- `change_file_settings` in a session of either suite. -/
theorem MasterSession.wp_restore (hP : P.Lawful) (happ : app.Administered setup) (file : File)
    (h : MasterSession P setup c session w)
    (hchange : (c.settings file).accessRights.change.Admits .key0) (hJ : J c) :
    (session.changeFileSettings (E := E) P file (FileSettingsView.factory file).intoUpdate).wp
      (Prog.Answers (Card.transmit P app)) (fun w => J (setup w.app))
      (fun session _ => MasterSession P setup (c.restored file) session) (fun _ _ _ => False)
      () w := by
  refine MasterSession.wp_dispatch (fun S _ session h => ?_) h
  rw [Session.changeFileSettings, wp_consumeUnit]
  exact h.wp_restore hP happ file hchange hJ

/-- A plain write in a session of either suite. -/
theorem MasterSession.wp_writePlain (happ : app.Administered setup) (file : File)
    (data : List UInt8) (h : MasterSession P setup c session w)
    (hmode : (c.settings file).writeMode .key0 = .plain)
    (hwritable : (c.settings file).Writable .key0) (hne : data ≠ [])
    (hsize : data.length ≤ file.size) (hJ : J c) :
    (session.writeFileWithMode (E := E) P file 0 data .plain).wp
      (Prog.Answers (Card.transmit P app)) (fun w => J (setup w.app))
      (fun session _ => MasterSession P setup c session) (fun _ _ _ => False) () w := by
  refine MasterSession.wp_dispatch (fun S _ session h => ?_) h
  rw [Session.writeFileWithMode, wp_consumeUnit]
  exact h.wp_writePlain happ hmode hwritable hne hsize hJ

/-- `change_key` to zero in a session of either suite. -/
theorem MasterSession.wp_zeroKey (hP : P.Lawful) (happ : app.Administered setup)
    (currentKeys : KeyNumber → Key) (keyNo : NonMasterKeyNumber)
    (h : MasterSession P setup c session w) (hJ : J c) :
    (session.changeKey (E := E) P keyNo (Bytes.zeros 16) 0x00 (currentKeys keyNo.toKeyNumber)).wp
      (Prog.Answers (Card.transmit P app)) (fun w => J (setup w.app))
      (fun session _ => MasterSession P setup (c.keyZeroed currentKeys keyNo) session)
      (fun _ _ _ => c.keys keyNo.toKeyNumber ≠ currentKeys keyNo.toKeyNumber) () w := by
  refine MasterSession.wp_dispatch (fun S _ session h => ?_) h
  rw [Session.changeKey, wp_consumeUnit, Setup.keyZeroed,
    ← Bytes.zeros_xor (currentKeys keyNo.toKeyNumber)]
  have hkey := h.wp_changeKey (E := E) hP happ keyNo (Bytes.zeros 16) 0x00
    (currentKeys keyNo.toKeyNumber) hJ
  rw [Bytes.zeros_xor]
  rw [Bytes.zeros_xor] at hkey
  exact hkey

/-- `change_master_key` to zero in a session of either suite. -/
theorem MasterSession.wp_zeroMaster (hP : P.Lawful) (happ : app.Administered setup)
    (h : MasterSession P setup c session w) (hJ : J c) :
    (session.changeMasterKey (E := E) P (Bytes.zeros 16) 0x00).wp
      (Prog.Answers (Card.transmit P app)) (fun w => J (setup w.app))
      (fun _ _ w' => setup w'.app = c.withKey .key0 (Bytes.zeros 16))
      (fun _ _ _ => False) () w := by
  cases session with
  | aes session =>
      simp only [EncryptedSession.changeMasterKey, Session.changeMasterKey, Script.wp_bind,
        Script.wp_pure, wp_consumeUnit]
      exact AtSetup.wp_changeMasterKey hP happ _ _ h hJ
  | lrp session =>
      simp only [EncryptedSession.changeMasterKey, Session.changeMasterKey, Script.wp_bind,
        Script.wp_pure, wp_consumeUnit]
      exact AtSetup.wp_changeMasterKey hP happ _ _ h hJ

end Steps

/-! ### The exchanges of a reset -/

section Exchanges

variable {J : Setup → ℕ → Prop} {c : Setup} {currentKeys : KeyNumber → Key} {v : Card A × ℕ}
  {session : EncryptedSession}

/-- A step that leaves the setup alone until its last exchange. -/
theorem wp_step {β : Type} {m : ℕ} {act : Task E β} {Q : β → Unit → Card A → Prop}
    {R : Fault (SessionError E) → Unit → Card A → Prop} (hact : act.Takes m)
    (hwp : act.wp (Prog.Answers (Card.transmit P app)) (fun w => setup w.app = c) Q R () v.1)
    (hJ : ∀ k, v.2 ≤ k → k < v.2 + m → J c k) :
    act.wp (Prog.Answers (Prog.counted (Card.transmit P app))) (fun v => J (setup v.1.app) v.2)
      (fun b s v' => Q b s v'.1 ∧ v'.2 = v.2 + m) (fun e s v' => R e s v'.1) () v := by
  refine Script.wp_weaken (hact.wp_counted hwp) ?_
  rintro ⟨w, k⟩ ⟨rfl, hle, hlt⟩
  exact hJ k hle hlt

/-- Opening the session. -/
theorem wp_openMaster (hP : P.Lawful) (happ : app.Administered setup) {key : Key}
    (hsetup : setup v.1.app = c) (hkey : c.keys .key0 = key) (rnd : ℕ → Bytes 16)
    (hJ : ∀ k, v.2 ≤ k → k < v.2 + c.opening → J c k) :
    (openMaster (E := E) P key rnd).wp (Prog.Answers (Prog.counted (Card.transmit P app)))
      (fun v => J (setup v.1.app) v.2)
      (fun session _ v' => MasterSession P setup c session v'.1 ∧ v'.2 = v.2 + c.opening)
      (fun _ _ _ => False) () v := by
  subst hsetup hkey
  simp only [openMaster, Script.wp_bind, Script.wp_attempt]
  have hcount := wp_authenticateLrp_counts (E := E) (P := P) .key0 ((setup v.1.app).keys .key0)
    (rnd 0) v.2
  cases hmode : (setup v.1.app).lrpMode with
  | true =>
      have hopening : (setup v.1.app).opening = 3 := if_pos hmode
      have hauth := AtSetup.wp_authenticateLrp (E := E) (J := (· = setup v.1.app)) hP happ hmode
        (rnd 0) rfl
      refine Script.wp_mono (Script.wp_weaken (Script.wp_counted hauth hcount) ?_) ?_
        fun _ _ _ he => he.1.elim
      · rintro v' ⟨hsame, hle, hlt⟩
        rw [hsame]
        exact hJ _ hle (by omega)
      · rintro session _ v' ⟨hsession, hv'⟩
        rw [hopening]
        exact Script.wp_pure.mpr ⟨hsession, hv'⟩
  | false =>
      have hopening : (setup v.1.app).opening = 5 := if_neg (by rw [hmode]; decide)
      have hauth := AtSetup.wp_authenticateLrp_aesMode (E := E) (P := P)
        (J := (· = setup v.1.app)) happ hmode ((setup v.1.app).keys .key0) (rnd 0) rfl
      refine Script.wp_mono (Script.wp_weaken (Script.wp_counted hauth hcount) ?_)
        (fun _ _ _ hno => hno.1.elim) ?_
      · rintro v' ⟨hsame, hle, hlt⟩
        rw [hsame]
        exact hJ _ hle (by omega)
      · rintro _ _ v' ⟨⟨rfl, hsame⟩, hv'⟩
        have hv' := hv' rfl
        dsimp only
        rw [← hsame] at hmode hJ hopening ⊢
        have hauth := AtSetup.wp_authenticateAes (E := E) (J := (· = setup v'.1.app)) hP happ hmode
          (rnd 1) rfl
        refine Script.wp_mono (wp_step (takes_authenticateAes _ _ _) hauth ?_) ?_
          fun _ _ _ he => he
        · intro k hle hlt
          exact hJ k (by omega) (by omega)
        · rintro session _ v'' ⟨hsession, hv''⟩
          exact Script.wp_pure.mpr ⟨hsession, by omega⟩

/-- Settings and contents of both files. -/
theorem wp_restoreFiles (hP : P.Lawful) (happ : app.Administered setup)
    (h : MasterSession P setup c session v.1)
    (hchange : ∀ file, file ≠ .proprietary → (c.settings file).accessRights.change.Admits .key0)
    (hJ : J c v.2) (hndef : J (c.restored .ndef) (v.2 + 1))
    (hfiles : ∀ k, v.2 + 1 < k → k < v.2 + 5 → J c.filesRestored k) :
    (restoreFiles (E := E) P session).wp (Prog.Answers (Prog.counted (Card.transmit P app)))
      (fun v => J (setup v.1.app) v.2)
      (fun session _ v' => MasterSession P setup c.filesRestored session v'.1 ∧ v'.2 = v.2 + 5)
      (fun _ _ _ => False) () v := by
  have hcc : (c.restored .ndef).settings .capabilityContainer = c.settings .capabilityContainer :=
    Setup.restored_settings_of_ne (by decide)
  have hcc' : c.filesRestored.settings .capabilityContainer = .factory .capabilityContainer :=
    Setup.restored_settings_self _
  have hndef' : c.filesRestored.settings .ndef = .factory .ndef :=
    (Setup.restored_settings_of_ne (by decide)).trans (Setup.restored_settings_self _)
  have hccApdus :
      (CapabilityContainer.defaultBytes.length + plainWriteChunk - 1) / plainWriteChunk = 1 := by
    decide
  have hndefApdus : ((List.replicate 256 (0 : UInt8)).length + plainWriteChunk - 1) /
      plainWriteChunk = 2 := by
    rw [List.length_replicate]
    decide
  rw [restoreFiles]
  have hstep := h.wp_restore (E := E) (J := (· = c)) hP happ .ndef (hchange _ (by decide)) rfl
  refine Script.wp_bind_of (wp_step (session.takes_changeFileSettings _ _) hstep ?_) ?_
    fun _ _ _ he => he
  · intro k hle hlt
    rwa [show k = v.2 by omega]
  rintro session _ v₁ ⟨h, hv₁⟩
  have hstep := h.wp_restore (E := E) (J := (· = c.restored .ndef)) hP happ .capabilityContainer
    (by rw [hcc]; exact hchange _ (by decide)) rfl
  refine Script.wp_bind_of (wp_step (session.takes_changeFileSettings _ _) hstep ?_) ?_
    fun _ _ _ he => he
  · intro k hle hlt
    rwa [show k = v.2 + 1 by omega]
  rintro session _ v₂ ⟨h, hv₂⟩
  change MasterSession P setup c.filesRestored session v₂.1 at h
  rw [CapabilityContainer.toBytes_default]
  simp only [Script.wp_bind, Script.wp_lift_ok]
  have hstep := MasterSession.wp_writePlain (E := E) (J := (· = c.filesRestored)) happ
    .capabilityContainer CapabilityContainer.defaultBytes h (by rw [hcc']; rfl)
    (by rw [hcc']; decide) (by decide) (by decide) rfl
  refine Script.wp_mono (wp_step (session.takes_writePlain _ _ _) hstep ?_) ?_ fun _ _ _ he => he
  · intro k hle hlt
    exact hfiles k (by omega) (by rw [hccApdus] at hlt; omega)
  rintro session _ v₃ ⟨h, hv₃⟩
  have hstep := MasterSession.wp_writePlain (E := E) (J := (· = c.filesRestored)) happ .ndef
    (List.replicate 256 0) h (by rw [hndef']; rfl) (by rw [hndef']; decide)
    (by rw [ne_eq, List.replicate_eq_nil_iff]; decide) (by rw [List.length_replicate]; decide) rfl
  refine Script.wp_mono (wp_step (session.takes_writePlain _ _ _) hstep ?_) ?_ fun _ _ _ he => he
  · intro k hle hlt
    exact hfiles k (by omega) (by rw [hndefApdus] at hlt; omega)
  rintro session _ v₄ ⟨h, hv₄⟩
  exact ⟨h, by omega⟩

/-- The loop over the keys. -/
theorem wp_zeroKeys (hP : P.Lawful) (happ : app.Administered setup)
    (currentKeys : KeyNumber → Key) {keys : List NonMasterKeyNumber} (hnodup : keys.Nodup)
    (h : MasterSession P setup c session v.1)
    (hJ : ∀ i < keys.length, J (c.keysZeroed currentKeys (keys.take i)) (v.2 + i)) :
    (zeroKeys (E := E) P currentKeys keys session).wp
      (Prog.Answers (Prog.counted (Card.transmit P app))) (fun v => J (setup v.1.app) v.2)
      (fun session _ v' => MasterSession P setup (c.keysZeroed currentKeys keys) session v'.1 ∧
        v'.2 = v.2 + keys.length)
      (fun _ _ _ => ∃ keyNo ∈ keys, c.keys keyNo.toKeyNumber ≠ currentKeys keyNo.toKeyNumber)
      () v := by
  induction keys generalizing c session v with
  | nil => exact Script.wp_pure.mpr ⟨h, rfl⟩
  | cons keyNo keys ih =>
      obtain ⟨hfirst, hnodup⟩ := List.nodup_cons.mp hnodup
      have hlength : (keyNo :: keys).length = keys.length + 1 := List.length_cons
      have hstep := h.wp_zeroKey (E := E) (J := (· = c)) hP happ currentKeys keyNo rfl
      rw [zeroKeys]
      refine Script.wp_bind_of (wp_step (session.takes_changeKey _ _ _ _) hstep ?_) ?_
        fun _ _ _ hne => ⟨keyNo, List.mem_cons_self .., hne⟩
      · intro k hle hlt
        rw [show k = v.2 by omega]
        exact hJ 0 (by omega)
      rintro session _ v₁ ⟨h, hv₁⟩
      refine Script.wp_mono (ih hnodup h fun i hi => ?_) ?_ ?_
      · rw [hv₁, Nat.add_assoc, Nat.add_comm 1 i]
        exact hJ (i + 1) (by omega)
      · rintro session _ v₂ ⟨h, hv₂⟩
        exact ⟨h, by omega⟩
      · rintro _ _ _ ⟨other, hmem, hne⟩
        have hother : other.toKeyNumber ≠ keyNo.toKeyNumber := by
          intro hsame
          rw [NonMasterKeyNumber.toKeyNumber_injective hsame] at hmem
          exact hfirst hmem
        rw [Setup.keyZeroed, Setup.withKey_keys_of_ne hother] at hne
        exact ⟨other, List.mem_cons_of_mem _ hmem, hne⟩

end Exchanges

/-! ### A whole reset -/

section Reset

variable {currentKeys : KeyNumber → Key} {c : Setup} {v : Card A × ℕ} {w : Card A}

/-- **What a reset does** to a tag that holds the master key. It fails only when the tag does not
hold one of the other keys. -/
theorem wp_resetKeys (hP : P.Lawful) (happ : app.Administered setup) (hsetup : setup w.app = c)
    (hstart : c.Resettable currentKeys) (rnd : ℕ → Bytes 16) :
    (resetKeys (E := E) P currentKeys rnd).wp (Prog.Answers (Prog.counted (Card.transmit P app)))
      (fun v => setup v.1.app = c.resetAfter currentKeys v.2)
      (fun _ _ v => setup v.1.app = c.resetEnd currentKeys ∧ v.2 = c.opening + 10)
      (fun _ _ _ => ∃ keyNo : NonMasterKeyNumber,
        c.keys keyNo.toKeyNumber ≠ currentKeys keyNo.toKeyNumber) () (w, 0) := by
  rw [resetKeys]
  refine Script.wp_bind_of (wp_openMaster (J := fun c' k => c' = c.resetAfter currentKeys k) hP happ
    hsetup hstart.masterKey rnd ?_) ?_ fun _ _ _ he => he.elim
  · intro k _ hlt
    rw [Setup.resetAfter_of_le (by omega)]
  rintro session _ v₁ ⟨h, hv₁⟩
  refine Script.wp_bind_of (wp_restoreFiles (J := fun c' k => c' = c.resetAfter currentKeys k) hP
    happ h hstart.change ?_ ?_ ?_) ?_ fun _ _ _ he => he.elim
  · rw [Setup.resetAfter_of_le (by omega)]
  · rw [show v₁.2 + 1 = c.opening + 1 by omega, Setup.resetAfter_ndef]
  · intro k hlt hlt'
    rw [Setup.resetAfter_filesRestored (by omega) (by omega)]
  rintro session _ v₂ ⟨h, hv₂⟩
  refine Script.wp_bind_of (wp_zeroKeys (J := fun c' k => c' = c.resetAfter currentKeys k)
    hP happ currentKeys (by decide) h ?_) ?_ ?_
  · intro i _
    rw [Setup.resetAfter_of_lt (by omega), show v₂.2 + i - (c.opening + 5) = i by omega]
  · rintro session _ v₃ ⟨h, hv₃⟩
    have hlength : nonMasterKeys.length = 4 := rfl
    have hstep := h.wp_zeroMaster (E := E) hP happ
      (J := (· = c.filesRestored.keysZeroed currentKeys nonMasterKeys)) rfl
    refine Script.wp_bind_of (wp_step (J := fun c' k => c' = c.resetAfter currentKeys k)
      (session.takes_changeMasterKey _ _) hstep ?_) ?_ fun _ _ _ he => he.elim
    · intro k hle hlt
      rw [Setup.resetAfter_of_lt (by omega), List.take_of_length_le (by omega)]
    · rintro _ _ v₄ ⟨hend, hv₄⟩
      exact Script.wp_pure.mpr ⟨hend, by omega⟩
  · rintro _ _ _ ⟨keyNo, -, hne⟩
    exact ⟨keyNo, hne⟩

/-- The setup after a reset is one of a reset tag if and only if the tag held all keys. -/
theorem Setup.isReset_iff {c : Setup} (currentKeys : KeyNumber → Key) :
    c.IsReset (c.resetEnd currentKeys) ↔
      ∀ keyNo : NonMasterKeyNumber, c.keys keyNo.toKeyNumber = currentKeys keyNo.toKeyNumber := by
  have hkey : ∀ keyNo : NonMasterKeyNumber,
      (c.resetEnd currentKeys).keys keyNo.toKeyNumber =
        (currentKeys keyNo.toKeyNumber).xor (c.keys keyNo.toKeyNumber) := by
    intro keyNo
    rw [resetEnd, withKey_keys_of_ne keyNo.toKeyNumber_ne_key0,
      keys_keysZeroed_of_mem (by decide) (by cases keyNo <;> decide)]
    rfl
  constructor
  · intro h keyNo
    have hzero := h.keys keyNo.toKeyNumber
    rw [hkey, Bytes.xor_eq_zeros_iff] at hzero
    exact hzero.symm
  · intro h
    refine ⟨fun k => ?_, fun file hfile => ?_, ?_⟩
    · have hcases : k = .key0 ∨ ∃ keyNo : NonMasterKeyNumber, k = keyNo.toKeyNumber := by
        cases k with
        | key0 => exact .inl rfl
        | key1 => exact .inr ⟨.key1, rfl⟩
        | key2 => exact .inr ⟨.key2, rfl⟩
        | key3 => exact .inr ⟨.key3, rfl⟩
        | key4 => exact .inr ⟨.key4, rfl⟩
      rcases hcases with rfl | ⟨keyNo, rfl⟩
      · exact withKey_keys_self _ _
      · rw [hkey, Bytes.xor_eq_zeros_iff, h keyNo]
    · rw [resetEnd, withKey_settings, settings_keysZeroed]
      cases file with
      | capabilityContainer => rfl
      | ndef => rfl
      | proprietary => exact absurd rfl hfile
    · rw [resetEnd, withKey_settings, settings_keysZeroed]
      rfl

/-- A setup on the way can be reset as well. -/
theorem Setup.Resettable.resetAfter (hc : c.Resettable currentKeys) (n : ℕ) :
    (c.resetAfter currentKeys n).Resettable currentKeys := by
  rcases Nat.lt_trichotomy n (c.opening + 1) with hlt | rfl | hlt
  · rwa [resetAfter_of_le (by omega)]
  · rw [resetAfter_ndef]
    refine ⟨hc.masterKey, fun file hfile => ?_⟩
    by_cases hndef : file = .ndef
    · subst hndef
      rw [restored_settings_self]
      decide
    · rw [restored_settings_of_ne hndef]
      exact hc.change file hfile
  · rw [resetAfter_of_lt hlt]
    refine ⟨?_, fun file hfile => ?_⟩
    · rw [keys_keysZeroed_of_notMem fun keyNo _ hsame => keyNo.toKeyNumber_ne_key0 hsame.symm]
      exact hc.masterKey
    · rw [settings_keysZeroed]
      cases file with
      | capabilityContainer => exact .inr rfl
      | ndef => exact .inr rfl
      | proprietary => exact absurd rfl hfile

/-- To be reset means the same from every setup on the way. -/
theorem Setup.isReset_resetAfter_iff {n : ℕ} {c' : Setup} :
    (c.resetAfter currentKeys n).IsReset c' ↔ c.IsReset c' := by
  have hproprietary : (c.resetAfter currentKeys n).settings .proprietary =
      c.settings .proprietary := by
    rcases Nat.lt_trichotomy n (c.opening + 1) with hlt | rfl | hlt
    · rw [resetAfter_of_le (by omega)]
    · rw [resetAfter_ndef]
      rfl
    · rw [resetAfter_of_lt hlt, settings_keysZeroed]
      rfl
  constructor
  · rintro ⟨hkeys, hsettings, hthird⟩
    exact ⟨hkeys, hsettings, hthird.trans hproprietary⟩
  · rintro ⟨hkeys, hsettings, hthird⟩
    exact ⟨hkeys, hsettings, hthird.trans hproprietary.symm⟩

/-- **The keys on the way.** -/
theorem Setup.resetAfter_keys (n : ℕ) (keyNo : NonMasterKeyNumber) :
    (c.resetAfter currentKeys n).keys keyNo.toKeyNumber =
      if keyNo ∈ nonMasterKeys.take (n - (c.opening + 5)) then
        (currentKeys keyNo.toKeyNumber).xor (c.keys keyNo.toKeyNumber)
      else c.keys keyNo.toKeyNumber := by
  rcases Nat.lt_trichotomy n (c.opening + 1) with hlt | rfl | hlt
  · rw [resetAfter_of_le (by omega), Nat.sub_eq_zero_of_le (by omega), List.take_zero,
      if_neg List.not_mem_nil]
  · rw [resetAfter_ndef, Nat.sub_eq_zero_of_le (by omega), List.take_zero,
      if_neg List.not_mem_nil]
    rfl
  · rw [resetAfter_of_lt hlt]
    split
    · rename_i hmem
      rw [keys_keysZeroed_of_mem ((List.take_sublist ..).nodup (by decide)) hmem]
      rfl
    · rename_i hmem
      rw [keys_keysZeroed_of_notMem]
      · rfl
      · intro other hother hsame
        exact hmem (NonMasterKeyNumber.toKeyNumber_injective hsame ▸ hother)

variable {uid : Bytes 7} {keys : Bytes 7 → Except K (KeyNumber → Key)}

/-- The same of `reset_with_fn`. -/
theorem wp_resetWithFn (hP : P.Lawful) (happ : app.Administered setup)
    (hkeys : keys uid = .ok currentKeys) (hsetup : setup w.app = c)
    (hstart : c.Resettable currentKeys) (rnd : ℕ → Bytes 16) :
    (resetWithFn (E := E) P uid keys rnd).wp
      (Prog.Answers (Prog.counted (Card.transmit P app)))
      (fun v => setup v.1.app = c.resetAfter currentKeys v.2)
      (fun _ _ v => setup v.1.app = c.resetEnd currentKeys ∧ v.2 = c.opening + 10)
      (fun _ _ _ => ∃ keyNo : NonMasterKeyNumber,
        c.keys keyNo.toKeyNumber ≠ currentKeys keyNo.toKeyNumber) () (w, 0) := by
  simp only [resetWithFn, hkeys, Script.wp_mapError]
  refine Script.wp_mono (wp_resetKeys hP happ hsetup hstart rnd) (fun _ _ _ h => h) ?_
  intro f _ _ hne
  cases f with
  | error e => exact hne
  | panicked => exact hne

/-- **What an interrupted reset leaves.** -/
theorem setup_of_interrupted (hP : P.Lawful) (happ : app.Administered setup)
    (hkeys : keys uid = .ok currentKeys) (hstart : (setup w.app).Resettable currentKeys)
    {rnd : ℕ → Bytes 16} {n : ℕ} {w' : Card A}
    (hstop : Prog.runUntil (Card.transmit P app) n (resetWithFn (E := E) P uid keys rnd ()) w =
      (none, w')) : setup w'.app = (setup w.app).resetAfter currentKeys n := by
  have hleft := Script.wp_runUntil (wp_resetWithFn (E := E) hP happ hkeys rfl hstart rnd)
    (Prog.runUntil_counted hstop)
  rwa [Nat.zero_add] at hleft

/-- A reset of a tag that holds all keys can be interrupted after each of its exchanges. -/
theorem exists_interrupted (hP : P.Lawful) (happ : app.Administered setup)
    (hkeys : keys uid = .ok currentKeys) (hstart : (setup w.app).Resettable currentKeys)
    (hall : ∀ keyNo : NonMasterKeyNumber,
      (setup w.app).keys keyNo.toKeyNumber = currentKeys keyNo.toKeyNumber)
    (rnd : ℕ → Bytes 16) {n : ℕ} (hn : n < (setup w.app).opening + 10) :
    ∃ w', Prog.runUntil (Card.transmit P app) n (resetWithFn (E := E) P uid keys rnd ()) w =
      (none, w') := by
  have hcounted := wp_resetWithFn (E := E) hP happ hkeys rfl hstart rnd
  refine Script.exists_runUntil (m := (setup w.app).opening + 10) (Script.wp_mono hcounted ?_ ?_)
    (by rwa [Nat.zero_add])
  · rintro _ _ v ⟨-, hv⟩
    exact Nat.le_of_eq hv.symm
  · rintro _ _ _ ⟨keyNo, hne⟩
    exact hne (hall keyNo)

/-- **When a reset completes.** -/
theorem reset_completes_iff (hP : P.Lawful) (happ : app.Administered setup)
    (hkeys : keys uid = .ok currentKeys) (hstart : (setup w.app).Resettable currentKeys)
    (rnd : ℕ → Bytes 16) :
    (∃ w', Prog.run (Card.transmit P app) (resetWithFn (E := E) P uid keys rnd ()) w =
        ((.ok (), ()), w') ∧ (setup w.app).IsReset (setup w'.app)) ↔
      ∀ keyNo : NonMasterKeyNumber,
        (setup w.app).keys keyNo.toKeyNumber = currentKeys keyNo.toKeyNumber := by
  have hcounted := wp_resetWithFn (E := E) hP happ hkeys rfl hstart rnd
  have hwp : (resetWithFn (E := E) P uid keys rnd).wp (Prog.Answers (Card.transmit P app))
      (fun _ => True) (fun _ _ w' => setup w'.app = (setup w.app).resetEnd currentKeys)
      (fun _ _ _ => ∃ keyNo : NonMasterKeyNumber,
        (setup w.app).keys keyNo.toKeyNumber ≠ currentKeys keyNo.toKeyNumber) () w := by
    refine Script.wp_of_counted (c := 0) ?_
    exact Script.wp_mono (Script.wp_weaken hcounted fun _ _ => trivial) (fun _ _ _ h => h.1)
      fun _ _ _ h => h
  constructor
  · rintro ⟨w', hrun, hreset⟩
    have hend := Prog.ends_run (Card.transmit P app) (resetWithFn (E := E) P uid keys rnd ()) w
    rw [hrun] at hend
    rw [Script.wp_ends hwp hend] at hreset
    exact (Setup.isReset_iff currentKeys).mp hreset
  · intro hall
    have hok : (resetWithFn (E := E) P uid keys rnd).wp (Prog.Answers (Card.transmit P app)) _ _
        (fun _ _ _ => False) () w :=
      Script.wp_mono hwp (fun _ _ _ h => h) fun _ _ _ ⟨keyNo, hne⟩ => hne (hall keyNo)
    obtain ⟨_, _, w', hrun, hend⟩ := Script.exists_run hok
    refine ⟨w', hrun, ?_⟩
    rw [hend]
    exact (Setup.isReset_iff currentKeys).mpr hall

/-- When a reset completes on the way. -/
theorem reset_completes_on_way_iff (hP : P.Lawful) (happ : app.Administered setup)
    (hkeys : keys uid = .ok currentKeys) (hstart : c.Resettable currentKeys) {n : ℕ}
    (hleft : setup w.app = c.resetAfter currentKeys n) (rnd : ℕ → Bytes 16) :
    (∃ w', Prog.run (Card.transmit P app) (resetWithFn (E := E) P uid keys rnd ()) w =
        ((.ok (), ()), w') ∧ c.IsReset (setup w'.app)) ↔
      ∀ keyNo : NonMasterKeyNumber, c.keys keyNo.toKeyNumber =
        if keyNo ∈ nonMasterKeys.take (n - (c.opening + 5)) then Bytes.zeros 16
        else currentKeys keyNo.toKeyNumber := by
  have hagain : (setup w.app).Resettable currentKeys := by
    rw [hleft]
    exact hstart.resetAfter n
  have hcompletes := reset_completes_iff (E := E) hP happ hkeys hagain rnd
  simp only [hleft, Setup.isReset_resetAfter_iff] at hcompletes
  rw [hcompletes]
  refine forall_congr' fun keyNo => ?_
  rw [Setup.resetAfter_keys]
  split
  · -- the exclusive or gives the current key back if the key was zero
    exact Bytes.xor_eq_self_iff
  · exact Iff.rfl

/-- **When a reset that was interrupted completes the second time.** Every key that it had asked
to change must have been zero before, and every other key must be the current one. -/
theorem reset_again_iff (hP : P.Lawful) (happ : app.Administered setup)
    (hkeys : keys uid = .ok currentKeys) (hstart : (setup w.app).Resettable currentKeys)
    {rnd rnd' : ℕ → Bytes 16} {n : ℕ} {w' : Card A}
    (hstop : Prog.runUntil (Card.transmit P app) n (resetWithFn (E := E) P uid keys rnd ()) w =
      (none, w')) :
    (∃ w'', Prog.run (Card.transmit P app) (resetWithFn (E := E) P uid keys rnd' ()) w' =
        ((.ok (), ()), w'') ∧ (setup w.app).IsReset (setup w''.app)) ↔
      ∀ keyNo : NonMasterKeyNumber, (setup w.app).keys keyNo.toKeyNumber =
        if keyNo ∈ nonMasterKeys.take (n - ((setup w.app).opening + 5)) then Bytes.zeros 16
        else currentKeys keyNo.toKeyNumber :=
  reset_completes_on_way_iff hP happ hkeys hstart
    (setup_of_interrupted hP happ hkeys hstart hstop) rnd'

end Reset

/-! ### A tag in use -/

/-- Keys of which one is not zero. -/
def keysInUse : KeyNumber → Key
  | .key1 => Bytes.fill 16 [0x01]
  | _ => Bytes.zeros 16

/-- A tag in AES mode with these keys and the settings of delivery. -/
def tagInUse : Card Setup := ⟨.deselected, keysInUse, .factory, false⟩

theorem tagInUse_resettable : tagInUse.app.Resettable keysInUse := by
  refine ⟨rfl, fun file hfile => ?_⟩
  cases file with
  | capabilityContainer => exact .inr rfl
  | ndef => exact .inr rfl
  | proprietary => exact absurd rfl hfile

/-- Its reset can be interrupted after each of its exchanges. -/
theorem exists_interrupted_tagInUse {n : ℕ} (hn : n < 15) : ∃ w',
    Prog.runUntil (Card.transmit Primitives.standard TagApp.administered) n
      (resetWithKeys (E := Empty) Primitives.standard (Bytes.zeros 7) keysInUse
        (fun _ => Bytes.zeros 16) ()) tagInUse = (none, w') :=
  exists_interrupted Primitives.standard_lawful TagApp.administered_lawful rfl tagInUse_resettable
    (fun _ => rfl) _ hn

/-- Interrupted before the first key, its reset completes the second time. -/
theorem reset_again_tagInUse : ∃ w',
    Prog.runUntil (Card.transmit Primitives.standard TagApp.administered) 10
      (resetWithKeys (E := Empty) Primitives.standard (Bytes.zeros 7) keysInUse
        (fun _ => Bytes.zeros 16) ()) tagInUse = (none, w') ∧
    ∃ w'', Prog.run (Card.transmit Primitives.standard TagApp.administered)
      (resetWithKeys (E := Empty) Primitives.standard (Bytes.zeros 7) keysInUse
        (fun _ => Bytes.zeros 16) ()) w' = ((.ok (), ()), w'') ∧
      tagInUse.app.IsReset w''.app := by
  obtain ⟨w', hstop⟩ := exists_interrupted_tagInUse (n := 10) (by decide)
  refine ⟨w', hstop, ?_⟩
  exact (reset_again_iff Primitives.standard_lawful TagApp.administered_lawful rfl
    tagInUse_resettable hstop).mpr fun keyNo => (if_neg List.not_mem_nil).symm

/-- Interrupted after the first key, it does not. -/
theorem reset_again_refused : ∃ w',
    Prog.runUntil (Card.transmit Primitives.standard TagApp.administered) 11
      (resetWithKeys (E := Empty) Primitives.standard (Bytes.zeros 7) keysInUse
        (fun _ => Bytes.zeros 16) ()) tagInUse = (none, w') ∧
    ¬ ∃ w'', Prog.run (Card.transmit Primitives.standard TagApp.administered)
      (resetWithKeys (E := Empty) Primitives.standard (Bytes.zeros 7) keysInUse
        (fun _ => Bytes.zeros 16) ()) w' = ((.ok (), ()), w'') ∧
      tagInUse.app.IsReset w''.app := by
  obtain ⟨w', hstop⟩ := exists_interrupted_tagInUse (n := 11) (by decide)
  refine ⟨w', hstop, fun hagain => ?_⟩
  have hkey := (reset_completes_on_way_iff Primitives.standard_lawful TagApp.administered_lawful rfl
    tagInUse_resettable (setup_of_interrupted Primitives.standard_lawful
      TagApp.administered_lawful rfl tagInUse_resettable hstop) _).mp hagain .key1
  exact absurd hkey (by decide)

end Ntag424
