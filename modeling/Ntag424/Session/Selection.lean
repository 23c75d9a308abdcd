import Mathlib.Tactic.Common
import Ntag424.Session.FactoryState
import Ntag424.Standard

/-!
# The Tracked Selection

An unauthenticated session remembers whether the NDEF application is selected and which file
is, so as not to select them again. This is right as long as the tag agrees. The operations of
an unauthenticated session are one type here, and a run is any sequence of them, each ending
in any way the transport permits.

## The tag

Selecting the application clears the selected file, selecting a file sets it. An APDU that is
answered with success was carried out, one that is refused was not. When the answer is lost,
the APDU may have been carried out or not.

## Main results

* `selection_tracked`: in every run in which no operation disturbs the selection, the session
  and the tag agree, and every file command is addressed to the file it is meant for.
* `selection_lost`: the check of the factory state disturbs it. It selects the application
  again, in sessions of its own, and its own session still counts on the NDEF file.
-/

namespace Ntag424

open Numerals

variable {E σ β W : Type}

/-! ### The selection of a tag -/

/-- What is selected on a tag. -/
structure Selection where
  app : Bool
  ef : Option ℕ
deriving DecidableEq

namespace Selection

/-- The selection after an APDU was carried out. -/
def after (apdu : List UInt8) (s : Selection) : Selection :=
  if apdu = isoSelectDfByNameApdu ndefApplicationDfName then ⟨true, none⟩
  else if apdu.take 5 = [0x00, 0xA4, 0x00, 0x0C, 0x02] then
    { s with ef := some (ofBe (apdu.drop 5)) }
  else s

/-- The file an `ISOReadBinary` or `ISOUpdateBinary` is addressed to. -/
def addressed (apdu : List UInt8) (s : Selection) : List (Option ℕ) :=
  if apdu.take 2 = [0x00, 0xB0] ∨ apdu.take 2 = [0x00, 0xD6] then [s.ef] else []

/-- How an exchange moves the selection. -/
def Moves (apdu : List UInt8) (answer : Except E Response) (s s' : Selection) : Prop :=
  match answer with
  | .ok resp =>
      s' = if isoStatus resp.sw1 resp.sw2 = .normalProcessing then s.after apdu else s
  | .error _ => s' = s ∨ s' = s.after apdu

@[simp] theorem after_selectApplication (s : Selection) :
    s.after (isoSelectDfByNameApdu ndefApplicationDfName) = ⟨true, none⟩ := by
  simp [after]

@[simp] theorem after_selectEf (file : File) (s : Selection) :
    s.after (isoSelectEfApdu file.fileId) = { s with ef := some file.fileId } := by
  cases file <;> rfl

@[simp] theorem addressed_selectApplication (s : Selection) :
    s.addressed (isoSelectDfByNameApdu ndefApplicationDfName) = [] := rfl

@[simp] theorem addressed_selectEf (fileId : ℕ) (s : Selection) :
    s.addressed (isoSelectEfApdu fileId) = [] := rfl

/-- Only `ISOSelect` commands move the selection. -/
theorem after_of_take {apdu : List UInt8} (h : apdu.take 2 ≠ [0x00, 0xA4]) (s : Selection) :
    s.after apdu = s := by
  have happ : apdu ≠ isoSelectDfByNameApdu ndefApplicationDfName := by
    rintro rfl
    exact h rfl
  have hef : apdu.take 5 ≠ [0x00, 0xA4, 0x00, 0x0C, 0x02] := by
    intro htake
    refine h ?_
    rw [show apdu.take 2 = (apdu.take 5).take 2 by rw [List.take_take]; rfl, htake]
    rfl
  simp only [after, if_neg happ, if_neg hef]

/-- An APDU that is not an `ISOSelect` leaves the selection as it is, whatever is answered. -/
theorem Moves.eq_of_take {apdu : List UInt8} {answer : Except E Response} {s s' : Selection}
    (hmoves : Moves apdu answer s s') (h : apdu.take 2 ≠ [0x00, 0xA4]) : s' = s := by
  cases answer with
  | ok resp => simpa only [Moves, after_of_take h, ite_self] using hmoves
  | error e => simpa only [Moves, after_of_take h, or_self] using hmoves

end Selection

/-- A transport to a tag with a selection. The files that file commands were addressed to are
recorded. -/
structure SelectingTag (env : (r : List UInt8) → W → Transmit E r → W → Prop)
    (selection : W → Selection) (reached : W → List (Option ℕ)) : Prop where
  moves : ∀ {apdu w answer w'}, env apdu w answer w' →
    Selection.Moves apdu answer (selection w) (selection w')
  reaches : ∀ {apdu w answer w'}, env apdu w answer w' →
    reached w' = reached w ++ (selection w).addressed apdu

/-! ### Agreement -/

/-- The session and the tag agree. -/
structure Tracks (session : Session Unauthenticated) (s : Selection) : Prop where
  app : session.ndefSelected = true → s.app = true
  ef : ∀ fileId, session.efSelected = some fileId → s.ef = some fileId
  none_of_app : session.ndefSelected = false → session.efSelected = none

/-- The file commands since `r` were addressed to one of these files. -/
def Reaches (files : List File) (r r' : List (Option ℕ)) : Prop :=
  ∃ added, r' = r ++ added ∧ ∀ a ∈ added, ∃ file ∈ files, a = some file.fileId

/-- Sending nothing reaches the same files. -/
theorem Reaches.refl (files : List File) (r : List (Option ℕ)) : Reaches files r r :=
  ⟨[], by simp, by simp⟩

/-- The files that are reached add up. -/
theorem Reaches.trans {files : List File} {r r' r'' : List (Option ℕ)} (h : Reaches files r r')
    (h' : Reaches files r' r'') : Reaches files r r'' := by
  obtain ⟨added, rfl, hadded⟩ := h
  obtain ⟨added', rfl, hadded'⟩ := h'
  refine ⟨added ++ added', by rw [List.append_assoc], fun a ha => ?_⟩
  rcases List.mem_append.mp ha with ha | ha
  · exact hadded a ha
  · exact hadded' a ha

/-- A new session expects nothing of the tag. -/
theorem tracks_new (s : Selection) : Tracks .new s := ⟨nofun, nofun, fun _ => rfl⟩

/-! ### What an exchange keeps -/

section Tag

variable {env : (r : List UInt8) → W → Transmit E r → W → Prop} {selection : W → Selection}
  {reached : W → List (Option ℕ)} {files : List File} {r : List (Option ℕ)}
  {session : Session Unauthenticated} {w : W}

/-- The session and the tag agree, and only these files were addressed since `r`. -/
structure OnTrack (selection : W → Selection) (reached : W → List (Option ℕ)) (files : List File)
    (r : List (Option ℕ)) (session : Session Unauthenticated) (w : W) : Prop where
  tracks : Tracks session (selection w)
  reaches : Reaches files r (reached w)

/-- An exchange without an `ISOSelect` keeps the agreement. -/
theorem OnTrack.exchange (htag : SelectingTag env selection reached) {apdu : List UInt8}
    {answer : Except E Response} {w' : W} (h : OnTrack selection reached files r session w)
    (hanswer : env apdu w answer w') (hselect : apdu.take 2 ≠ [0x00, 0xA4])
    (haddressed : ∀ a ∈ (selection w).addressed apdu, ∃ file ∈ files, a = some file.fileId) :
    OnTrack selection reached files r session w' := by
  have hsame : selection w' = selection w := (htag.moves hanswer).eq_of_take hselect
  have hreached := htag.reaches hanswer
  exact ⟨hsame ▸ h.tracks, h.reaches.trans ⟨_, hreached, haddressed⟩⟩

/-- Native commands keep the agreement. -/
theorem OnTrack.native (htag : SelectingTag env selection reached) {ins : UInt8}
    {rest : List UInt8} {answer : Except E Response} {w' : W}
    (h : OnTrack selection reached files r session w)
    (hanswer : env (0x90 :: ins :: rest) w answer w') :
    OnTrack selection reached files r session w' := by
  refine h.exchange htag hanswer ?_ ?_
  · simp
  · simp [Selection.addressed]

/-- A native command selects nothing. -/
theorem keeps_native (htag : SelectingTag env selection reached) (status : ResponseStatus)
    (ins : UInt8) (rest : List UInt8) :
    Script.Keeps env (OnTrack selection reached files r)
      (transmitExpecting (E := E) status (0x90 :: ins :: rest)) :=
  keeps_transmitExpecting status fun _ _ _ _ h hanswer => h.native htag hanswer

/-- The plain `GetVersion` keeps the agreement. -/
theorem keeps_getVersionPlain (htag : SelectingTag env selection reached) :
    Script.Keeps env (OnTrack selection reached files r) (getVersionPlain (E := E)) := by
  have hpart : ∀ ins rest, Script.Keeps env (OnTrack selection reached files r)
      (requestIntermediatePart (E := E) (0x90 :: ins :: rest)) := fun ins rest =>
    (keeps_native htag _ ins rest).bind fun _ => keeps_expectBytes _ _
  have hchain : Script.Keeps env (OnTrack selection reached files r)
      (driveChain (E := E) [0x90, 0x60, 0x00, 0x00, 0x00]) := by
    refine (hpart _ _).bind fun part1 => (hpart _ _).bind fun part2 => ?_
    exact (keeps_native htag _ _ _).bind fun _ => Script.keeps_pure _
  refine hchain.bind fun parts => ?_
  refine ((Script.keeps_require _ _).bind fun _ => Script.keeps_pure _).bind fun _ => ?_
  exact Script.keeps_pure _

/-- The plain `GetFileSettings` keeps the agreement. -/
theorem keeps_getFileSettingsPlain (htag : SelectingTag env selection reached) (fileNo : UInt8) :
    Script.Keeps env (OnTrack selection reached files r)
      (getFileSettingsPlain (E := E) fileNo) := by
  refine (keeps_native htag _ _ _).bind fun resp => ?_
  cases FileSettingsView.decode resp.data with
  | ok view => exact Script.keeps_pure view
  | error e => exact Script.keeps_fail _

/-! ### Reading and writing the selected file -/

/-- A file is selected on the tag, and the session knows it. -/
structure Selected (selection : W → Selection) (reached : W → List (Option ℕ)) (file : File)
    (files : List File) (r : List (Option ℕ)) (session : Session Unauthenticated) (w : W) :
    Prop extends OnTrack selection reached files r session w where
  mem : file ∈ files
  selected : session.efSelected = some file.fileId

variable {file : File}

/-- A file command is addressed to the selected file. -/
theorem Selected.exchange (htag : SelectingTag env selection reached) {apdu : List UInt8}
    {answer : Except E Response} {w' : W} (h : Selected selection reached file files r session w)
    (hanswer : env apdu w answer w') (hselect : apdu.take 2 ≠ [0x00, 0xA4]) :
    Selected selection reached file files r session w' := by
  refine ⟨h.toOnTrack.exchange htag hanswer hselect fun a ha => ?_, h.mem, h.selected⟩
  have hef : (selection w).ef = some file.fileId := h.tracks.ef _ h.selected
  rw [Selection.addressed] at ha
  split at ha
  · rw [List.mem_singleton, hef] at ha
    exact ⟨file, h.mem, ha⟩
  · exact absurd ha List.not_mem_nil

/-- Encoding an address sends nothing. -/
theorem keeps_isoAddress {J : Session Unauthenticated → W → Prop} (offset : UInt16) :
    Script.Keeps env J (isoAddress (E := E) none offset) :=
  (Script.keeps_require _ _).bind fun _ => Script.keeps_pure _

/-- An ISO read goes to the selected file. -/
theorem keeps_isoReadBinary (htag : SelectingTag env selection reached) (offset : UInt16)
    (buf : List UInt8) :
    Script.Keeps env (Selected selection reached file files r)
      (isoReadBinary (E := E) none offset buf) := by
  refine (Script.keeps_require _ _).bind fun _ => (keeps_isoAddress offset).bind fun p => ?_
  refine Script.Keeps.bind ?_ fun resp => ?_
  · exact keeps_transmit fun _ _ _ _ h hanswer =>
      h.exchange htag hanswer (by simp [isoReadBinaryApdu])
  · exact (Script.keeps_require _ _).bind fun _ => (Script.keeps_require _ _).bind fun _ =>
      Script.keeps_pure _

/-- An ISO write goes to the selected file. -/
theorem keeps_isoUpdateBinary (htag : SelectingTag env selection reached) (offset : UInt16)
    (data : List UInt8) :
    Script.Keeps env (Selected selection reached file files r)
      (isoUpdateBinary (E := E) none offset data) := by
  refine (Script.keeps_require _ _).bind fun _ => (Script.keeps_require _ _).bind fun _ =>
    (keeps_isoAddress offset).bind fun p => ?_
  refine Script.Keeps.bind ?_ fun resp => Script.keeps_require _ _
  exact keeps_transmit fun _ _ _ _ h hanswer =>
    h.exchange htag hanswer (by simp [isoUpdateBinaryApdu])

/-! ### Selecting a file -/

/-- No answer to a selection of the file is lost when the session counts on another file. -/
def AnswersSelection (env : (r : List UInt8) → W → Transmit E r → W → Prop)
    (selection : W → Selection) (file : File) (session : Session Unauthenticated) (w : W) : Prop :=
  session.efSelected ≠ none → session.efSelected ≠ some file.fileId →
    ∀ e w', env (isoSelectEfApdu file.fileId) w (.error e) w' → selection w' = selection w

/-- Selecting the application, when it is not selected. -/
theorem wp_selectNdefApplication (htag : SelectingTag env selection reached)
    (h : OnTrack selection reached files r session w) :
    (Session.selectNdefApplication (E := E)).wp env (fun _ => True)
      (fun _ s' w' => OnTrack selection reached files r s' w' ∧ s'.ndefSelected = true ∧
        (session.ndefSelected = true → s' = session ∧ w' = w) ∧
        (session.ndefSelected = false → s'.efSelected = none))
      (fun _ => OnTrack selection reached files r) session w := by
  simp only [Session.selectNdefApplication, Script.wp_bind, Script.wp_get]
  split
  · rename_i hsel
    exact Script.wp_pure.mpr ⟨h, hsel, fun _ => ⟨rfl, rfl⟩,
      fun hnot => absurd hsel (by simp [hnot])⟩
  · rename_i hsel
    have hsel : session.ndefSelected = false := by simpa using hsel
    have hnone := h.tracks.none_of_app hsel
    -- nothing is claimed of the tag while the application is not known to be selected
    have hlost : ∀ s : Selection, Tracks session s := fun s =>
      ⟨fun happ => absurd happ (by simp [hsel]), fun f hf => absurd hf (by simp [hnone]),
        fun _ => hnone⟩
    simp only [isoSelectNdefApplication, Script.wp_bind, Script.wp_require, Script.wp_set]
    refine wp_transmit trivial (fun resp w' hanswer => ?_) fun e w' hanswer => ?_
    · have hmoves := htag.moves hanswer
      have hreached := htag.reaches hanswer
      simp only [Selection.addressed_selectApplication, List.append_nil] at hreached
      simp only [Selection.Moves, Selection.after_selectApplication] at hmoves
      refine ⟨fun hok => ?_, fun _ => ⟨hlost _, hreached ▸ h.reaches⟩⟩
      rw [if_pos hok] at hmoves
      refine ⟨⟨⟨fun _ => by rw [hmoves], nofun, nofun⟩, hreached ▸ h.reaches⟩, trivial, ?_,
        fun _ => trivial⟩
      exact fun happ => absurd happ (by simp [hsel])
    · have hreached := htag.reaches hanswer
      simp only [Selection.addressed_selectApplication, List.append_nil] at hreached
      exact ⟨hlost _, hreached ▸ h.reaches⟩

/-- **Selecting a file**: the file is selected, or the session still agrees with the tag. -/
theorem wp_selectFile (htag : SelectingTag env selection reached)
    (h : OnTrack selection reached files r session w) (hfile : file ∈ files)
    (hanswers : AnswersSelection env selection file session w) :
    (Session.selectFile (E := E) file).wp env (fun _ => True)
      (fun _ => Selected selection reached file files r)
      (fun _ => OnTrack selection reached files r) session w := by
  rw [Session.selectFile]
  refine Script.wp_bind_of (wp_selectNdefApplication htag h) ?_ fun _ _ _ h' => h'
  rintro - s w' ⟨h', happ, hsame, hcleared⟩
  have hanswers' : AnswersSelection env selection file s w' := by
    rcases happ : session.ndefSelected with _ | _
    · exact fun hne => absurd (hcleared happ) hne
    · obtain ⟨rfl, rfl⟩ := hsame happ
      exact hanswers
  simp only [Script.wp_bind, Script.wp_get]
  by_cases hselected : s.efSelected = some file.fileId
  · rw [if_pos hselected]
    exact Script.wp_pure.mpr ⟨h', hfile, hselected⟩
  · rw [if_neg hselected]
    simp only [isoSelectEfByFid, Script.wp_bind, Script.wp_require, Script.wp_set]
    refine wp_transmit trivial (fun resp w'' hanswer => ?_) fun e w'' hanswer => ?_
    · have hmoves := htag.moves hanswer
      have hreached := htag.reaches hanswer
      simp only [Selection.addressed_selectEf, List.append_nil] at hreached
      simp only [Selection.Moves, Selection.after_selectEf] at hmoves
      refine ⟨fun hok => ?_, fun hno => ?_⟩
      · rw [if_pos hok] at hmoves
        refine ⟨⟨⟨fun _ => ?_, fun f hf => ?_, ?_⟩, hreached ▸ h'.reaches⟩, hfile, rfl⟩
        · rw [hmoves]
          exact h'.tracks.app happ
        · rw [hmoves]
          exact hf
        · exact fun hnot => absurd happ (by simp [show s.ndefSelected = false from hnot])
      · rw [if_neg hno] at hmoves
        exact ⟨hmoves ▸ h'.tracks, hreached ▸ h'.reaches⟩
    · have hreached := htag.reaches hanswer
      simp only [Selection.addressed_selectEf, List.append_nil] at hreached
      refine ⟨?_, hreached ▸ h'.reaches⟩
      by_cases hnone : s.efSelected = none
      · -- the session counts on no file, so either outcome agrees with it
        refine ⟨fun _ => ?_, fun f hf => absurd hf (by simp [hnone]), fun _ => hnone⟩
        have hmoves := htag.moves hanswer
        simp only [Selection.Moves, Selection.after_selectEf] at hmoves
        rcases hmoves with hmoves | hmoves
        · rw [hmoves]
          exact h'.tracks.app happ
        · rw [hmoves]
          exact h'.tracks.app happ
      · rw [hanswers' hnone hselected e w'' hanswer]
        exact h'.tracks

/-! ### Reading and writing files -/

/-- **Reading a file** of a list reaches only files of the list, and leaves the file selected. -/
theorem wp_readFileUnauthenticated (htag : SelectingTag env selection reached)
    (h : OnTrack selection reached files r session w) (hfile : file ∈ files)
    (hanswers : AnswersSelection env selection file session w) (offset : UInt16)
    (buf : List UInt8) :
    (Session.readFileUnauthenticated (E := E) file offset buf).wp env (fun _ => True)
      (fun _ => Selected selection reached file files r)
      (fun _ => OnTrack selection reached files r) session w := by
  rw [Session.readFileUnauthenticated]
  refine Script.wp_bind_of (wp_selectFile htag h hfile hanswers) ?_ fun _ _ _ h' => h'
  intro _ s w' h'
  split
  · exact Script.wp_mono (keeps_isoReadBinary htag offset buf s w' h') (fun _ _ _ h => h)
      fun _ _ _ h => h.toOnTrack
  · refine wp_readUnauthenticatedLoop_of (fun offset buf t w h => ?_) (fun _ _ _ h => h.toOnTrack)
      offset 0 buf h'
    exact Script.wp_mono (keeps_isoReadBinary htag offset buf t w h) (fun _ _ _ h => h)
      fun _ _ _ h => h.toOnTrack

/-- **Writing a file** of a list reaches only files of the list, and leaves the file selected. -/
theorem wp_writeFileUnauthenticated (htag : SelectingTag env selection reached)
    (h : OnTrack selection reached files r session w) (hfile : file ∈ files)
    (hanswers : AnswersSelection env selection file session w) (offset : UInt16)
    (data : List UInt8) :
    (Session.writeFileUnauthenticated (E := E) file offset data).wp env (fun _ => True)
      (fun _ => Selected selection reached file files r)
      (fun _ => OnTrack selection reached files r) session w := by
  rw [Session.writeFileUnauthenticated]
  refine Script.wp_bind_of (wp_selectFile htag h hfile hanswers) ?_ fun _ _ _ h' => h'
  intro _ s w' h'
  split
  · exact Script.wp_mono (keeps_isoUpdateBinary htag offset data s w' h') (fun _ _ _ h => h)
      fun _ _ _ h => h.toOnTrack
  · refine wp_writeUnauthenticatedLoop_of (fun offset data t w h => ?_)
      (fun _ _ _ h => h.toOnTrack) offset data 0 h'
    exact Script.wp_mono (keeps_isoUpdateBinary htag offset data t w h) (fun _ _ _ h => h)
      fun _ _ _ h => h.toOnTrack

/-- Reading file settings reaches no file: the number of the file is in the command. -/
theorem wp_getFileSettingsUnauthenticated (htag : SelectingTag env selection reached)
    (h : OnTrack selection reached files r session w) (file : File) :
    (Session.getFileSettingsUnauthenticated (E := E) file).wp env (fun _ => True)
      (fun _ => OnTrack selection reached files r) (fun _ => OnTrack selection reached files r)
      session w := by
  rw [Session.getFileSettingsUnauthenticated]
  refine Script.wp_bind_of (wp_selectNdefApplication htag h) ?_ fun _ _ _ h' => h'
  exact fun _ s w' h' => keeps_getFileSettingsPlain htag _ s w' h'.1

/-! ### The check of the factory state -/

section Check

/-- Reading a whole file reaches what reading it does. -/
theorem wp_readInto (htag : SelectingTag env selection reached)
    (h : OnTrack selection reached files r session w) (hfile : file ∈ files)
    (hanswers : AnswersSelection env selection file session w) (buf : List UInt8) :
    (readInto (E := E) file buf).wp env (fun _ => True)
      (fun _ => Selected selection reached file files r)
      (fun _ => OnTrack selection reached files r) session w := by
  rw [readInto]
  exact Script.wp_bind_of (wp_readFileUnauthenticated htag h hfile hanswers _ _)
    (fun _ _ _ h' => Script.wp_pure.mpr h') fun _ _ _ h' => h'

/-- The check of the container keeps the agreement. -/
theorem wp_checkContainer (htag : SelectingTag env selection reached)
    (h : OnTrack selection reached files r session w) (hfile : .capabilityContainer ∈ files)
    (hanswers : AnswersSelection env selection .capabilityContainer session w) :
    (checkContainer (E := E)).wp env (fun _ => True)
      (fun _ => OnTrack selection reached files r) (fun _ => OnTrack selection reached files r)
      session w := by
  rw [checkContainer]
  refine Script.wp_bind_of (wp_orNotFactoryState (wp_readInto htag h hfile hanswers _)
    fun _ _ _ h' => h') ?_ fun _ _ _ h' => h'
  intro buf s w' h'
  refine (Script.keeps_require _ _).bind (fun _ => ?_) s w' h'.toOnTrack
  refine (keeps_getVersionPlain htag).bind fun version => ?_
  exact (Script.keeps_require _ _).bind fun _ => Script.keeps_pure _

/-- The check of the contents leaves the NDEF file selected. -/
theorem wp_checkContents (htag : SelectingTag env selection reached)
    (h : OnTrack selection reached files r session w) (hcc : .capabilityContainer ∈ files)
    (hndef : .ndef ∈ files)
    (hanswers : AnswersSelection env selection .capabilityContainer session w)
    (hanswers' : ∀ c s' w',
      Prog.Ends env (checkContainer (E := E) session) w (.ok c, s') w' →
      AnswersSelection env selection .ndef s' w') :
    (checkContents (E := E)).wp env (fun _ => True)
      (fun _ => Selected selection reached .ndef files r)
      (fun _ => OnTrack selection reached files r) session w := by
  rw [checkContents]
  refine Script.wp_bind_of (Script.wp_with_ends (wp_checkContainer htag h hcc hanswers)) ?_
    fun _ _ _ h' => h'
  rintro ⟨version, buf⟩ s w' ⟨h', hend⟩
  simp only [checkNdef]
  refine Script.wp_bind_of (Script.wp_bind_of (wp_orNotFactoryState
    (wp_readInto htag h' hndef (hanswers' _ s w' hend) buf) fun _ _ _ h' => h') ?_
    fun _ _ _ h' => h') (fun _ _ _ h' => Script.wp_pure.mpr h') fun _ _ _ h' => h'
  intro buf s w' h'
  simp only [requireFactoryState, Script.wp_bind, Script.wp_require, Script.wp_pure]
  exact ⟨fun _ => h', fun _ => h'.toOnTrack⟩

/-- The application cannot be selected, neither to authenticate with AES nor with LRP. -/
def Unselectable (env : (r : List UInt8) → W → Transmit E r → W → Prop)
    (selection : W → Selection) (w : W) : Prop :=
  ∀ answer w', env (isoSelectDfByNameApdu ndefApplicationDfName) w answer w' →
    selection w' = selection w ∧
    ∀ answer' w'', env (isoSelectDfByNameApdu ndefApplicationDfName) w' answer' w'' →
      selection w'' = selection w'

/-- A new session cannot begin when its selection of the application is not carried out. -/
theorem wp_selectNdefApplication_new (htag : SelectingTag env selection reached)
    (hef : (selection w).ef ≠ none)
    (hunmoved : ∀ answer w', env (isoSelectDfByNameApdu ndefApplicationDfName) w answer w' →
      selection w' = selection w) {R : Fault (SessionError E) → Unit → W → Prop}
    (hR : ∀ e answer w', env (isoSelectDfByNameApdu ndefApplicationDfName) w answer w' →
      reached w' = reached w → R e () w') {Q : Unit × Session Unauthenticated → Unit → W → Prop} :
    Script.wp env (fun _ => True) (Session.selectNdefApplication.on Session.new) Q R () w := by
  simp only [Script.wp_on, Session.selectNdefApplication, Script.wp_bind, Script.wp_get,
    Session.new, Bool.false_eq_true, if_false, isoSelectNdefApplication, Script.wp_require,
    Script.wp_set]
  have hreached : ∀ {answer w'}, env (isoSelectDfByNameApdu ndefApplicationDfName) w answer w' →
      reached w' = reached w := fun hanswer => by simpa using htag.reaches hanswer
  refine wp_transmit trivial (fun resp w' hanswer => ⟨fun hok => ?_, fun _ => ?_⟩)
    fun e w' hanswer => ?_
  · have hmoves := htag.moves hanswer
    simp only [Selection.Moves, Selection.after_selectApplication, if_pos hok] at hmoves
    rw [hunmoved _ _ hanswer] at hmoves
    exact absurd (congrArg Selection.ef hmoves) hef
  · exact hR _ _ _ hanswer (hreached hanswer)
  · exact hR _ _ _ hanswer (hreached hanswer)

/-- The second part of the check ends in an error when the application cannot be selected. -/
theorem wp_authenticateMaster (P : Primitives) (htag : SelectingTag env selection reached)
    (hef : (selection w).ef ≠ none) (hunselectable : Unselectable env selection w)
    (rnd : ℕ → Bytes 16) {Q : EncryptedSession × ℕ → Unit → W → Prop} :
    (authenticateMaster (E := E) P rnd).wp env (fun _ => True) Q
      (fun _ _ w' => selection w' = selection w ∧ reached w' = reached w) () w := by
  let Refused : Unit → W → Prop := fun _ w' =>
    (∃ answer, env (isoSelectDfByNameApdu ndefApplicationDfName) w answer w') ∧
      reached w' = reached w
  have haes : (Session.new.authenticateAes (E := E) P .key0 factoryKey (rnd 0)).attempt.wp env
      (fun _ => True) (fun o s w' => (∃ e, o = .error e) ∧ Refused s w')
      (fun _ => Refused) () w := by
    rw [Script.wp_attempt, Session.authenticateAes]
    refine Script.wp_bind_of (Q := fun _ _ _ => False) (R := fun _ => Refused)
      (wp_selectNdefApplication_new htag hef (fun answer w' h => (hunselectable answer w' h).1)
        fun e answer w' hanswer hreached => ⟨⟨answer, hanswer⟩, hreached⟩)
      (fun _ _ _ h => h.elim) fun e s' w' h => ?_
    cases e with
    | error e => exact ⟨⟨e, rfl⟩, h⟩
    | panicked => exact h
  rw [authenticateMaster]
  refine Script.wp_bind_of haes (fun o s' w' h => ?_) fun e s' w' h => ?_
  · cases o with
    | ok _ =>
        obtain ⟨⟨_, ⟨⟩⟩, -⟩ := h
    | error e =>
        obtain ⟨-, ⟨answer, hanswer⟩, hreached⟩ := h
        obtain ⟨hsel, hunmoved⟩ := hunselectable answer w' hanswer
        have hlrp : (Session.new.authenticateLrp (E := E) P .key0 factoryKey (rnd 1)).wp env
            (fun _ => True) (fun _ _ _ => False)
            (fun _ _ w'' => selection w'' = selection w ∧ reached w'' = reached w) () w' := by
          rw [Session.authenticateLrp]
          refine Script.wp_bind_of (Q := fun _ _ _ => False) (wp_selectNdefApplication_new htag
            (hsel ▸ hef) hunmoved fun e answer' w'' hanswer' hreached' => ?_)
            (fun _ _ _ h => h.elim) fun _ _ _ h => h
          exact ⟨(hunmoved answer' w'' hanswer').trans hsel, hreached'.trans hreached⟩
        refine Script.wp_bind_of (wp_orNotFactoryState hlrp fun _ _ _ h => h)
          (fun _ _ _ h => h.elim) fun _ _ _ h => h
  · obtain ⟨⟨answer, hanswer⟩, hreached⟩ := h
    exact ⟨(hunselectable answer w' hanswer).1, hreached⟩

/-- The check keeps the agreement, when it cannot select the application again. -/
theorem wp_checkFactoryState (P : Primitives) (htag : SelectingTag env selection reached)
    (verify : Bytes signatureLen → Bytes 7 → Except OriginalityError Unit) (rnd : ℕ → Bytes 16)
    (h : OnTrack selection reached files r session w) (hcc : .capabilityContainer ∈ files)
    (hndef : .ndef ∈ files)
    (hanswers : AnswersSelection env selection .capabilityContainer session w)
    (hanswers' : ∀ c s' w',
      Prog.Ends env (checkContainer (E := E) session) w (.ok c, s') w' →
      AnswersSelection env selection .ndef s' w')
    (hunselectable : ∀ c s' w',
      Prog.Ends env (checkContents (E := E) session) w (.ok c, s') w' →
      Unselectable env selection w') :
    (checkFactoryState (E := E) P verify rnd).wp env (fun _ => True)
      (fun _ => OnTrack selection reached files r) (fun _ => OnTrack selection reached files r)
      session w := by
  rw [checkFactoryState]
  refine Script.wp_bind_of (Script.wp_with_ends
    (wp_checkContents htag h hcc hndef hanswers hanswers')) ?_ fun _ _ _ h' => h'
  rintro ⟨version, buf⟩ s w' ⟨h', hend⟩
  have hef : (selection w').ef ≠ none := by
    rw [h'.tracks.ef _ h'.selected]
    exact nofun
  simp only [beside, Script.wp_bind, Script.wp_on, Script.wp_pure, checkAuthenticated]
  refine Script.wp_mono (wp_authenticateMaster P htag hef (hunselectable _ s w' hend) rnd
    (Q := fun _ _ _ => False)) (fun _ _ _ h => h.elim) fun _ _ w'' hsame => ?_
  exact ⟨hsame.1 ▸ h'.tracks, hsame.2 ▸ h'.reaches⟩

end Check

end Tag

/-! ### Runs -/

/-- An operation of an unauthenticated session, with its arguments. -/
inductive UnauthenticatedOp where
  | readFile (file : File) (offset : UInt16) (buf : List UInt8)
  | writeFile (file : File) (offset : UInt16) (data : List UInt8)
  | getFileSettings (file : File)
  | getVersion
  | checkFactoryState (rnd : ℕ → Bytes 16)

namespace UnauthenticatedOp

variable (P : Primitives) (verify : Bytes signatureLen → Bytes 7 → Except OriginalityError Unit)

/-- Perform an operation. What it returns is dropped. -/
def perform : UnauthenticatedOp → Cmd E (Session Unauthenticated) Unit
  | readFile file offset buf => do let _ ← Session.readFileUnauthenticated file offset buf
  | writeFile file offset data => Session.writeFileUnauthenticated file offset data
  | getFileSettings file => do let _ ← Session.getFileSettingsUnauthenticated file
  | getVersion => do let _ ← Session.getVersionUnauthenticated
  | checkFactoryState rnd => do let _ ← Ntag424.checkFactoryState P verify rnd

/-- The files an operation reads or writes. -/
def files : UnauthenticatedOp → List File
  | readFile file _ _ => [file]
  | writeFile file _ _ => [file]
  | getFileSettings _ => []
  | getVersion => []
  | checkFactoryState _ => [.capabilityContainer, .ndef]

/-- An operation that does not disturb the selection: no answer to a selection is lost that
the session would have had to notice, and a check of the factory state cannot select the
application after it read the contents. -/
def Undisturbing (env : (r : List UInt8) → W → Transmit E r → W → Prop)
    (selection : W → Selection) (session : Session Unauthenticated) (w : W) :
    UnauthenticatedOp → Prop
  | readFile file _ _ => AnswersSelection env selection file session w
  | writeFile file _ _ => AnswersSelection env selection file session w
  | getFileSettings _ => True
  | getVersion => True
  | checkFactoryState _ =>
      AnswersSelection env selection .capabilityContainer session w ∧
      (∀ c s' w', Prog.Ends env (checkContainer (E := E) session) w (.ok c, s') w' →
        AnswersSelection env selection .ndef s' w') ∧
      ∀ c s' w', Prog.Ends env (checkContents (E := E) session) w (.ok c, s') w' →
        Unselectable env selection w'

variable {env : (r : List UInt8) → W → Transmit E r → W → Prop} {selection : W → Selection}
  {reached : W → List (Option ℕ)} {session : Session Unauthenticated} {w : W}

/-- **One operation** keeps the agreement. -/
theorem wp_perform (htag : SelectingTag env selection reached) (op : UnauthenticatedOp)
    (h : Tracks session (selection w)) (hop : op.Undisturbing env selection session w) :
    (op.perform (E := E) P verify).wp env (fun _ => True)
      (fun _ => OnTrack selection reached op.files (reached w))
      (fun _ => OnTrack selection reached op.files (reached w)) session w := by
  have h : OnTrack selection reached op.files (reached w) session w := ⟨h, .refl _ _⟩
  cases op with
  | readFile file offset buf =>
      exact Script.wp_bind_of (wp_readFileUnauthenticated htag h (.head _) hop offset buf)
        (fun _ _ _ h' => Script.wp_pure.mpr h'.toOnTrack) fun _ _ _ h' => h'
  | writeFile file offset data =>
      exact Script.wp_mono (wp_writeFileUnauthenticated htag h (.head _) hop offset data)
        (fun _ _ _ h' => h'.toOnTrack) fun _ _ _ h' => h'
  | getFileSettings file =>
      exact Script.wp_bind_of (wp_getFileSettingsUnauthenticated htag h file)
        (fun _ _ _ h' => Script.wp_pure.mpr h') fun _ _ _ h' => h'
  | getVersion =>
      exact Script.wp_bind_of (keeps_getVersionPlain htag session w h)
        (fun _ _ _ h' => Script.wp_pure.mpr h') fun _ _ _ h' => h'
  | checkFactoryState rnd =>
      obtain ⟨hcc, hndef, hunselectable⟩ := hop
      exact Script.wp_bind_of (wp_checkFactoryState P htag verify rnd h (.head _)
        (.tail _ (.head _)) hcc hndef hunselectable)
        (fun _ _ _ h' => Script.wp_pure.mpr h') fun _ _ _ h' => h'

end UnauthenticatedOp

section Run

variable (P : Primitives) (verify : Bytes signatureLen → Bytes 7 → Except OriginalityError Unit)
  (env : (r : List UInt8) → W → Transmit E r → W → Prop) (reached : W → List (Option ℕ))
  (allowed : Session Unauthenticated → W → UnauthenticatedOp → Prop)

/-- A run of a new session: operations, one after the other, each ending in any way. What the
file commands of an operation were addressed to is logged with it. -/
inductive UnauthenticatedRun (w₀ : W) :
    List (UnauthenticatedOp × List (Option ℕ)) → Session Unauthenticated → W → Prop
  | nil : UnauthenticatedRun w₀ [] .new w₀
  | snoc {log : List (UnauthenticatedOp × List (Option ℕ))}
      {session session' : Session Unauthenticated} {w w' : W} {op : UnauthenticatedOp}
      {outcome : Outcome (SessionError E) Unit} {added : List (Option ℕ)} :
      UnauthenticatedRun w₀ log session w → allowed session w op →
      Prog.Ends env (op.perform P verify session) w (outcome, session') w' →
      reached w' = reached w ++ added →
      UnauthenticatedRun w₀ (log ++ [(op, added)]) session' w'

variable {P verify env reached} {selection : W → Selection}

/-- **The tracked selection is right** in every run without a disturbance, and every file
command is addressed to a file of its operation. -/
theorem selection_tracked (htag : SelectingTag env selection reached) {w₀ w : W}
    {log : List (UnauthenticatedOp × List (Option ℕ))} {session : Session Unauthenticated}
    (hrun : UnauthenticatedRun P verify env reached
      (fun session w op => op.Undisturbing env selection session w) w₀ log session w) :
    Tracks session (selection w) ∧
    ∀ entry ∈ log, ∀ a ∈ entry.2, ∃ file ∈ entry.1.files, a = some file.fileId := by
  induction hrun with
  | nil => exact ⟨tracks_new _, by simp⟩
  | @snoc log session session' w w' op outcome added _ hallowed hend hadded ih =>
      obtain ⟨htracks, hlog⟩ := ih
      have hstep : OnTrack selection reached op.files (reached w) session' w' :=
        Script.wp_ends_both (op.wp_perform P verify htag htracks hallowed) hend
      refine ⟨hstep.tracks, fun entry hentry => ?_⟩
      rcases List.mem_append.mp hentry with hentry | hentry
      · exact hlog entry hentry
      · obtain rfl := List.mem_singleton.mp hentry
        obtain ⟨added', hadded', hfiles⟩ := hstep.reaches
        rw [hadded, List.append_cancel_left_eq] at hadded'
        exact hadded' ▸ hfiles

end Run

/-! ### A sealed tag -/

/-- A tag whose public contents are those of delivery, and which refuses to authenticate for a
while. `frame` counts the frames of a version. -/
structure SealedTag where
  selection : Selection
  reached : List (Option ℕ)
  frame : ℕ

namespace SealedTag

/-- The tag when it is powered up. -/
def start : SealedTag := ⟨⟨false, none⟩, [], 0⟩

/-- The contents of the files. -/
def contents (fileId : ℕ) : List UInt8 :=
  if fileId = File.capabilityContainer.fileId then
    CapabilityContainer.defaultBytes ++ List.replicate 9 0
  else List.replicate 256 0

/-- The answer to `ISOReadBinary`. -/
def readBinary (tag : SealedTag) (p1 p2 le : ℕ) : Response :=
  match tag.selection.ef with
  | none => ⟨[], 0x69, 0x85⟩
  | some fileId =>
      ⟨slice (contents fileId) (256 * p1 + p2) (if le = 0 then 256 else le), 0x90, 0x00⟩

/-- The answer to an APDU. -/
def respond (apdu : List UInt8) (tag : SealedTag) : Response :=
  match apdu.map UInt8.toNat with
  | 0x00 :: 0xA4 :: _ => ⟨[], 0x90, 0x00⟩
  | [0x00, 0xB0, p1, p2, le] => tag.readBinary p1 p2 le
  | 0x90 :: 0x60 :: _ => ⟨[0x04, 0x04, 0x02, 0x30, 0x00, 0x11, 0x05], 0x91, 0xAF⟩
  | 0x90 :: 0xAF :: _ =>
      if tag.frame = 1 then ⟨[0x04, 0x04, 0x02, 0x01, 0x02, 0x11, 0x05], 0x91, 0xAF⟩
      else ⟨List.replicate 14 0, 0x91, 0x00⟩
  | _ => ⟨[], 0x91, 0xAD⟩

/-- The tag after an APDU. -/
def next (apdu : List UInt8) (tag : SealedTag) : SealedTag where
  selection :=
    if isoStatus (tag.respond apdu).sw1 (tag.respond apdu).sw2 = .normalProcessing then
      tag.selection.after apdu
    else tag.selection
  reached := tag.reached ++ tag.selection.addressed apdu
  frame :=
    match apdu.map UInt8.toNat with
    | 0x90 :: 0x60 :: _ => 1
    | 0x90 :: 0xAF :: _ => tag.frame + 1
    | _ => tag.frame

/-- A transport that delivers every APDU to the tag. -/
def transmit (apdu : List UInt8) (tag : SealedTag) : Transmit Empty apdu × SealedTag :=
  (.ok (tag.respond apdu), tag.next apdu)

/-- The tag selects what it is told to select. -/
theorem selecting : SelectingTag (Prog.Answers transmit) selection reached := by
  refine ⟨?_, ?_⟩
  · rintro apdu tag answer tag' hanswer
    obtain ⟨rfl, rfl⟩ := Prod.mk.inj hanswer
    rfl
  · rintro apdu tag answer tag' hanswer
    obtain ⟨rfl, rfl⟩ := Prod.mk.inj hanswer
    rfl

variable {σ : Type} {t : σ} {tag : SealedTag}
  {R : Fault (SessionError Empty) → σ → SealedTag → Prop}

/-- One exchange with the tag. -/
theorem wp_transmit {apdu : List UInt8} {Q : Response → σ → SealedTag → Prop} :
    (Ntag424.transmit apdu).wp (Prog.Answers transmit) (fun _ => True) Q R t tag ↔
      Q (tag.respond apdu) t (tag.next apdu) := by
  simp only [Ntag424.transmit, Script.wp_bind, Script.wp_request, Prog.Answers, transmit]
  constructor
  · rintro ⟨-, h⟩
    exact Script.wp_pure.mp (h _ _ rfl)
  · intro h
    refine ⟨trivial, ?_⟩
    rintro _ _ hanswer
    obtain ⟨rfl, rfl⟩ := Prod.mk.inj hanswer
    exact Script.wp_pure.mpr h

/-- One native command that the tag accepts. -/
theorem wp_transmitExpecting {status : ResponseStatus} {apdu : List UInt8} {resp : Response}
    {Q : Response → σ → SealedTag → Prop} (hresp : tag.respond apdu = resp)
    (hstatus : desfireStatus resp.sw1 resp.sw2 = status) (hQ : Q resp t (tag.next apdu)) :
    (transmitExpecting status apdu).wp (Prog.Answers transmit) (fun _ => True) Q R t tag := by
  simp only [transmitExpecting, Script.wp_bind, Script.wp_require, Script.wp_pure,
    wp_transmit, hresp]
  exact ⟨fun _ => hQ, fun hno => absurd hstatus hno⟩

/-- One frame of a version. -/
theorem wp_requestIntermediatePart {apdu data : List UInt8} {Q : Bytes 7 → σ → SealedTag → Prop}
    (hresp : tag.respond apdu = ⟨data, 0x91, 0xAF⟩) (hlen : data.length = 7)
    (hQ : Q (Bytes.fill 7 data) t (tag.next apdu)) :
    (requestIntermediatePart apdu).wp (Prog.Answers transmit) (fun _ => True) Q R t tag := by
  have hbytes : Bytes.ofList? 7 data = some (Bytes.fill 7 data) :=
    Bytes.ofList?_eq_some_iff.mpr (Bytes.toList_fill_of_length hlen).symm
  simp only [requestIntermediatePart, Script.wp_bind]
  refine wp_transmitExpecting hresp rfl ?_
  rw [expectBytes, hbytes]
  exact Script.wp_pure.mpr hQ

/-- A selected file is read from the tag. -/
theorem readsBinary (fileId frame : ℕ) :
    ReadsBinary (Prog.Answers transmit)
      (fun tag => tag.selection = ⟨true, some fileId⟩ ∧ tag.frame = frame)
      (slice (contents fileId)) := by
  refine ⟨fun offset want => List.length_take_le .., ?_⟩
  rintro offset want tag answer tag' ⟨hsel, hframe⟩ hoffset hpos hmax hanswer
  obtain ⟨rfl, rfl⟩ := Prod.mk.inj hanswer
  have hle : (if (if want = isoReadBinaryMax then (0x00 : UInt8) else UInt8.ofNat want).toNat = 0
      then 256 else (if want = isoReadBinaryMax then (0x00 : UInt8) else UInt8.ofNat want).toNat) =
      want := by
    by_cases hwant : want = isoReadBinaryMax
    · rw [if_pos hwant, hwant]
      rfl
    · have hlt : want < 256 := Nat.lt_of_le_of_ne hmax hwant
      rw [if_neg hwant, UInt8.toNat_ofNat', Nat.mod_eq_of_lt hlt, if_neg (by omega)]
  have haddress : 256 * (UInt8.ofNat (offset / 256)).toNat + (UInt8.ofNat offset).toNat =
      offset := by
    rw [UInt8.toNat_ofNat', UInt8.toNat_ofNat', Nat.mod_eq_of_lt (by omega)]
    omega
  have hresp :
      tag.respond (isoReadBinaryApdu (UInt8.ofNat (offset / 256)) (UInt8.ofNat offset) want) =
      ⟨slice (contents fileId) offset want, 0x90, 0x00⟩ := by
    rw [show tag.respond
        (isoReadBinaryApdu (UInt8.ofNat (offset / 256)) (UInt8.ofNat offset) want) =
      tag.readBinary (UInt8.ofNat (offset / 256)).toNat (UInt8.ofNat offset).toNat
        (if want = isoReadBinaryMax then (0x00 : UInt8) else UInt8.ofNat want).toNat from rfl]
    simp only [readBinary, hsel, hle, haddress]
  refine ⟨congrArg Except.ok hresp, ?_, hframe⟩
  rw [next, Selection.after_of_take (by simp [isoReadBinaryApdu]), ite_self]
  exact hsel

/-- The session and the tag have selected a file. -/
structure Opened (file : File) (frame : ℕ) (session : Session Unauthenticated) (tag : SealedTag) :
    Prop where
  session : session = ⟨{}, true, some file.fileId⟩
  selection : tag.selection = ⟨true, some file.fileId⟩
  frame : tag.frame = frame

variable {session : Session Unauthenticated} {file : File}
  {R : Fault (SessionError Empty) → Session Unauthenticated → SealedTag → Prop}

/-- Selecting a file that is not selected. -/
theorem wp_selectFile {Q : Unit → Session Unauthenticated → SealedTag → Prop}
    (happ : session.ndefSelected = true → tag.selection.app = true)
    (hef : session.efSelected ≠ some file.fileId)
    (hQ : ∀ s' tag', Opened file tag.frame s' tag' → Q () s' tag') :
    (Session.selectFile file).wp (Prog.Answers transmit) (fun _ => True) Q R session tag := by
  obtain ⟨_, ndefSelected, efSelected⟩ := session
  have hselect : ∀ (efSelected : Option ℕ) (tag' : SealedTag), efSelected ≠ some file.fileId →
      tag'.selection.app = true → tag'.frame = tag.frame →
      (isoSelectEfByFid file.fileId).wp (Prog.Answers transmit) (fun _ => True)
        (fun _ _ tag'' => Q () ⟨{}, true, some file.fileId⟩ tag'') R
        (⟨{}, true, efSelected⟩ : Session Unauthenticated) tag' := by
    intro efSelected tag' hne happ' hframe
    simp only [isoSelectEfByFid, Script.wp_bind, Script.wp_require, wp_transmit]
    have hresp : tag'.respond (isoSelectEfApdu file.fileId) = ⟨[], 0x90, 0x00⟩ := rfl
    refine ⟨fun hok => hQ _ _ ⟨rfl, ?_, hframe⟩, fun hno => absurd (by rw [hresp]; rfl) hno⟩
    simp only [next, if_pos hok, Selection.after_selectEf, happ']
  simp only [Session.selectFile, Session.selectNdefApplication, Script.wp_bind, Script.wp_get]
  cases ndefSelected with
  | true =>
      simp only [if_true, Script.wp_pure, if_neg hef, Script.wp_bind, Script.wp_set]
      exact hselect efSelected tag hef (happ rfl) rfl
  | false =>
      have hresp : tag.respond (isoSelectDfByNameApdu ndefApplicationDfName) = ⟨[], 0x90, 0x00⟩ :=
        rfl
      simp only [Bool.false_eq_true, if_false, isoSelectNdefApplication, Script.wp_bind,
        Script.wp_require, wp_transmit, Script.wp_set, reduceCtorEq]
      refine ⟨fun hok => hselect none _ (by rintro ⟨⟩) ?_ rfl, fun hno =>
        absurd (by rw [hresp]; rfl) hno⟩
      simp only [next, if_pos hok, Selection.after_selectApplication]

/-- Reading a file in full. -/
theorem wp_readInto {Q : List UInt8 → Session Unauthenticated → SealedTag → Prop}
    (happ : session.ndefSelected = true → tag.selection.app = true)
    (hef : session.efSelected ≠ some file.fileId)
    (hsize : (contents file.fileId).length = file.size) {buf : List UInt8}
    (hbuf : file.size ≤ buf.length) (hpos : 0 < file.size)
    (hQ : ∀ s' tag', Opened file tag.frame s' tag' →
      Q (contents file.fileId ++ buf.drop file.size) s' tag') :
    (readInto file buf).wp (Prog.Answers transmit) (fun _ => True) Q R session tag := by
  have hlen : (buf.take file.size).length = file.size := by
    rw [List.length_take]
    omega
  have hle : file.size ≤ 256 := by
    cases file <;> simp [File.size]
  simp only [readInto, Session.readFileUnauthenticated, Script.wp_bind, Script.wp_pure]
  refine wp_selectFile happ hef fun s' tag' hopened => ?_
  rw [if_neg (by intro hnil; rw [hnil] at hlen; simp at hlen; omega)]
  have hreceived : received isoReadBinaryChunk (slice (contents file.fileId)) 0 file.size =
      contents file.fileId := by
    rw [received_slice (by simp [isoReadBinaryChunk]) (by omega), ← hsize, slice_zero_length]
  refine wp_readUnauthenticatedLoop_received (readsBinary file.fileId tag.frame)
    (by rw [hlen]; simp; omega) ⟨hopened.selection, hopened.frame⟩ fun tag'' hread => ?_
  rw [hlen]
  rw [show (0 : UInt16).toNat = 0 from rfl, hreceived]
  have hcopy : overlay (buf.take file.size) 0 (contents file.fileId) = contents file.fileId := by
    rw [overlay, hsize, List.drop_eq_nil_of_le (by omega), List.append_nil]
    rfl
  rw [hcopy, overlay, hsize, Nat.zero_add]
  exact hQ s' tag'' ⟨hopened.session, hread.1, hread.2⟩

/-- What the check leaves behind: the session counts on the NDEF file, the tag does not. -/
def Lost (session : Session Unauthenticated) (tag : SealedTag) : Prop :=
  session = ⟨{}, true, some File.ndef.fileId⟩ ∧ tag.selection.ef = none

/-- The version of the tag. -/
def version : Version where
  part1 := Bytes.fill 7 [0x04, 0x04, 0x02, 0x30, 0x00, 0x11, 0x05]
  part2 := Bytes.fill 7 [0x04, 0x04, 0x02, 0x01, 0x02, 0x11, 0x05]
  part3 := Bytes.zeros 14

/-- A native command selects nothing. -/
theorem selection_native (rest : List UInt8) :
    (tag.next (0x90 :: rest)).selection = tag.selection := by
  rw [next]
  exact ite_self _

/-- The first part of the version. -/
theorem respond_getVersion (tag : SealedTag) (rest : List UInt8) :
    tag.respond (0x90 :: 0x60 :: rest) =
      ⟨[0x04, 0x04, 0x02, 0x30, 0x00, 0x11, 0x05], 0x91, 0xAF⟩ := rfl

/-- The second part of the version. -/
theorem respond_continuation (rest : List UInt8) (h : tag.frame = 1) :
    tag.respond (0x90 :: 0xAF :: rest) =
      ⟨[0x04, 0x04, 0x02, 0x01, 0x02, 0x11, 0x05], 0x91, 0xAF⟩ :=
  if_pos h

/-- The last part of the version. -/
theorem respond_last (rest : List UInt8) (h : tag.frame ≠ 1) :
    tag.respond (0x90 :: 0xAF :: rest) = ⟨List.replicate 14 0, 0x91, 0x00⟩ :=
  if_neg h

/-- The tag sends the three parts of its version. -/
theorem wp_getVersionPlain {Q : Version → Session Unauthenticated → SealedTag → Prop}
    (h : Opened file 0 session tag)
    (hQ : ∀ tag', Opened file 3 session tag' → Q version session tag') :
    getVersionPlain.wp (Prog.Answers transmit) (fun _ => True) Q R session tag := by
  obtain ⟨rfl, hsel, -⟩ := h
  simp only [getVersionPlain, driveChain, extractPart3, Script.wp_bind, Script.wp_require,
    Script.wp_pure]
  refine wp_requestIntermediatePart (respond_getVersion _ _) rfl ?_
  refine wp_requestIntermediatePart (respond_continuation _ rfl) rfl ?_
  have hlast : ((tag.next [0x90, 0x60, 0x00, 0x00, 0x00]).next continuationApdu).frame = 2 := rfl
  refine wp_transmitExpecting (respond_last _ (by rw [hlast]; decide)) rfl ?_
  refine ⟨fun _ => hQ _ ⟨rfl, ?_, rfl⟩, fun hno => absurd (le_refl _) hno⟩
  exact ((selection_native _).trans ((selection_native _).trans (selection_native _))).trans hsel

/-- The contents are those of delivery. -/
theorem wp_checkContents {Q : Version × List UInt8 → Session Unauthenticated → SealedTag → Prop}
    (hQ : ∀ c s' tag', Opened .ndef 3 s' tag' → Q c s' tag') :
    checkContents.wp (Prog.Answers transmit) (fun _ => True) Q R .new start := by
  have hcc : ∀ tail : List UInt8,
      ((contents File.capabilityContainer.fileId ++ tail).take File.capabilityContainer.size) =
        CapabilityContainer.defaultBytes ++ List.replicate 9 0 := fun tail => rfl
  simp only [checkContents, checkContainer, checkNdef, orNotFactoryState, requireFactoryState,
    Script.wp_bind, Script.wp_attempt, Script.wp_require, Script.wp_pure]
  refine wp_readInto (by simp [Session.new]) (by simp [Session.new]) rfl
    (by rw [List.length_replicate]; decide) (by decide) fun s₁ tag₁ h₁ => ?_
  rw [hcc, CapabilityContainer.fromBytes_default]
  refine ⟨fun _ => ?_, fun hno => absurd rfl hno⟩
  refine wp_getVersionPlain h₁ fun tag₂ h₂ => ⟨fun _ => ?_, fun hno => absurd (by decide) hno⟩
  have hndef : contents File.ndef.fileId = List.replicate 256 0 := rfl
  have hsize : (contents File.ndef.fileId).length = File.ndef.size := by
    rw [hndef, List.length_replicate]
    rfl
  rw [h₂.session] 
  refine wp_readInto (fun _ => by rw [h₂.selection]) (by decide) hsize ?_ (by decide)
    fun s₃ tag₃ h₃ => ?_
  · rw [List.length_append, List.length_drop, List.length_replicate]
    decide
  · refine ⟨fun _ => hQ _ s₃ tag₃ (h₂.frame ▸ h₃), fun hno => absurd (fun b hb => ?_) hno⟩
    rw [List.take_left' hsize, hndef] at hb
    exact List.eq_of_mem_replicate hb

/-- A new session selects the application and is refused. -/
theorem wp_refused {Q : Response → Unit → SealedTag → Prop}
    {R : Fault (SessionError Empty) → Unit → SealedTag → Prop} {rest : List UInt8} {tag : SealedTag}
    (hsel : tag.selection = ⟨true, none⟩)
    (hR : ∀ e tag', tag'.selection = ⟨true, none⟩ → R (.error e) () tag') :
    (transmitExpecting .additionalFrame (0x90 :: 0x71 :: rest)).wp (Prog.Answers transmit)
      (fun _ => True) Q R () tag := by
  simp only [transmitExpecting, Script.wp_bind, Script.wp_require, Script.wp_pure, wp_transmit]
  have hresp : tag.respond (0x90 :: 0x71 :: rest) = ⟨[], 0x91, 0xAD⟩ := rfl
  refine ⟨fun hno => ?_, fun _ => hR _ _ ?_⟩
  · rw [hresp] at hno
    cases hno
  rw [next, Selection.after_of_take (by simp), ite_self]
  exact hsel

/-- The tag selects its application. -/
theorem wp_selectNdefApplication {Q : Unit × Session Unauthenticated → Unit → SealedTag → Prop}
    {R : Fault (SessionError Empty) → Unit → SealedTag → Prop}
    (hQ : ∀ tag', tag'.selection = ⟨true, none⟩ → Q ((), ⟨{}, true, none⟩) () tag') :
    Script.wp (Prog.Answers transmit) (fun _ => True)
      (Session.selectNdefApplication.on Session.new) Q R () tag := by
  simp only [Script.wp_on, Session.selectNdefApplication, Script.wp_bind, Script.wp_get,
    Session.new, Bool.false_eq_true, if_false, isoSelectNdefApplication, Script.wp_require,
    Script.wp_set, wp_transmit]
  refine ⟨fun hok => hQ _ ?_, fun hno => absurd rfl hno⟩
  simp only [next, if_pos hok, Selection.after_selectApplication]

/-- The application is selected again, and the authentication refused, twice. -/
theorem wp_authenticateMaster (P : Primitives) (rnd : ℕ → Bytes 16)
    {Q : EncryptedSession × ℕ → Unit → SealedTag → Prop} :
    (authenticateMaster P rnd).wp (Prog.Answers transmit) (fun _ => True) Q
      (fun _ _ tag' => tag'.selection = ⟨true, none⟩) () tag := by
  simp only [authenticateMaster, orNotFactoryState, Session.authenticateAes,
    Session.authenticateLrp, AesSuite.authenticateEv2First, LrpSuite.authenticateEv2First,
    Script.wp_bind, Script.wp_attempt]
  refine wp_selectNdefApplication fun tag₁ h₁ => wp_refused h₁ fun e tag₂ h₂ => ?_
  refine wp_selectNdefApplication fun tag₃ h₃ => wp_refused h₃ fun e tag₄ h₄ => ?_
  exact Script.wp_fail.mpr h₄

/-- The check ends with the session counting on a file the tag has no longer selected. -/
theorem wp_checkFactoryState (P : Primitives)
    (verify : Bytes signatureLen → Bytes 7 → Except OriginalityError Unit) (rnd : ℕ → Bytes 16) :
    (checkFactoryState P verify rnd).wp (Prog.Answers transmit) (fun _ => True)
      (fun _ => Lost) (fun _ => Lost) .new start := by
  simp only [checkFactoryState, Script.wp_bind]
  refine wp_checkContents fun c s tag h => ?_
  simp only [beside, checkAuthenticated, Script.wp_bind, Script.wp_on, Script.wp_pure]
  refine Script.wp_mono (wp_authenticateMaster P rnd (Q := fun _ _ _ => False))
    (fun _ _ _ h => h.elim) fun _ _ tag' htag => ⟨h.session, by rw [htag]⟩

/-- Reading the file afterwards is addressed to no file. -/
theorem wp_readFile_lost (h : Lost session tag) (P : Primitives)
    (verify : Bytes signatureLen → Bytes 7 → Except OriginalityError Unit) :
    ((UnauthenticatedOp.readFile .ndef 0 [0]).perform P verify).wp (Prog.Answers transmit)
      (fun _ => True) (fun _ _ _ => False)
      (fun _ s' tag' => Lost s' tag' ∧ tag'.reached = tag.reached ++ [none]) session tag := by
  obtain ⟨rfl, hef⟩ := h
  simp only [UnauthenticatedOp.perform, Session.readFileUnauthenticated, Session.selectFile,
    Session.selectNdefApplication, Script.wp_bind, Script.wp_get, if_true, Script.wp_pure]
  rw [if_neg (by simp)]
  refine wp_readUnauthenticatedLoop (J := fun total buf s' tag' => total = 0 ∧ buf = [0] ∧
    s' = ⟨{}, true, some File.ndef.fileId⟩ ∧ tag' = tag) ?_ ?_ ?_ 0 [0] ⟨rfl, rfl, rfl, rfl⟩
  · rintro _ _ _ _ ⟨rfl, rfl, -⟩ hdone
    exact absurd hdone (by decide)
  · rintro _ _ _ _ ⟨rfl, -⟩ - hoffset
    exact absurd hoffset (by decide)
  · rintro _ _ _ tag' ⟨rfl, rfl, rfl, rfl⟩ - -
    simp only [isoReadBinary, isoAddress, Script.wp_bind, Script.wp_require, Script.wp_pure]
    refine ⟨fun _ => ⟨fun _ => wp_transmit.mpr ?_, fun hno => absurd (by decide) hno⟩,
      fun hno => absurd (by decide) hno⟩
    have hresp : ∀ p1 p2 want, tag'.respond (isoReadBinaryApdu p1 p2 want) = ⟨[], 0x69, 0x85⟩ := by
      intro p1 p2 want
      simp only [isoReadBinaryApdu]
      rw [show tag'.respond [0x00, 0xB0, p1, p2, _] = tag'.readBinary _ _ _ from rfl,
        readBinary, hef]
    rw [hresp]
    refine ⟨fun hok => absurd hok (by decide), fun _ => ⟨⟨rfl, ?_⟩, ?_⟩⟩
    · rw [next, Selection.after_of_take (by simp [isoReadBinaryApdu]), ite_self]
      exact hef
    · simp only [next, Selection.addressed, hef]
      rfl

/-- **The selection is lost** by a check of the factory state: the tag has no file selected, the
session counts on the NDEF file, and the next read of it is addressed to no file. -/
theorem selection_lost : SelectingTag (Prog.Answers transmit) selection reached ∧
    ∃ log session tag, UnauthenticatedRun Primitives.standard (fun _ _ => .ok ())
      (Prog.Answers transmit) reached (fun _ _ _ => True) start log session tag ∧
      ¬ Tracks session tag.selection ∧
      ∃ entry ∈ log, ∃ a ∈ entry.2, ∀ file ∈ entry.1.files, a ≠ some file.fileId := by
  refine ⟨selecting, ?_⟩
  have hcheck : ((UnauthenticatedOp.checkFactoryState fun _ => Bytes.zeros 16).perform
      Primitives.standard fun _ _ => .ok ()).wp (Prog.Answers transmit) (fun _ => True)
      (fun _ => Lost) (fun _ => Lost) .new start := by
    refine Script.wp_bind_of (wp_checkFactoryState _ _ _) (fun _ _ _ h => ?_) fun _ _ _ h => h
    exact Script.wp_pure.mpr h
  obtain ⟨_, session, tag, hend, hlost⟩ := Script.exists_ends_both hcheck
  obtain ⟨_, session', tag', hend', hlost', hreached⟩ := Script.exists_ends_both
    (Script.wp_mono (wp_readFile_lost hlost Primitives.standard fun _ _ => .ok ())
      (fun _ _ _ h => h.elim) fun _ _ _ h => h)
  refine ⟨_, session', tag', .snoc (.snoc .nil trivial hend rfl) trivial hend' hreached, ?_, ?_⟩
  · intro htracks
    have hef := htracks.ef File.ndef.fileId (by rw [hlost'.1])
    rw [hlost'.2] at hef
    cases hef
  · refine ⟨_, List.mem_append_right _ (List.mem_singleton_self _), none,
      List.mem_singleton_self _, fun _ _ => nofun⟩

end SealedTag

/-- The run of one read of a new session. -/
theorem selection_tracked_read : ∃ added session tag,
    UnauthenticatedRun Primitives.standard (fun _ _ => .ok ()) (Prog.Answers SealedTag.transmit)
      SealedTag.reached (fun session tag op =>
        op.Undisturbing (Prog.Answers SealedTag.transmit) SealedTag.selection session tag)
      SealedTag.start [(.readFile .ndef 0 [0], added)] session tag ∧
    Tracks session tag.selection ∧ ∀ a ∈ added, a = some File.ndef.fileId := by
  have hop : (UnauthenticatedOp.readFile .ndef 0 [0]).Undisturbing
      (Prog.Answers SealedTag.transmit) SealedTag.selection .new SealedTag.start :=
    fun hne => absurd rfl hne
  have hkeep := (UnauthenticatedOp.readFile .ndef 0 [0]).wp_perform Primitives.standard
    (fun _ _ => .ok ()) SealedTag.selecting (tracks_new _) hop
  obtain ⟨_, session, tag, hend, -, added, hadded, -⟩ := Script.exists_ends_both hkeep
  have hrun : UnauthenticatedRun Primitives.standard (fun _ _ => .ok ())
      (Prog.Answers SealedTag.transmit) SealedTag.reached (fun session tag op =>
        op.Undisturbing (Prog.Answers SealedTag.transmit) SealedTag.selection session tag)
      SealedTag.start [(.readFile .ndef 0 [0], added)] session tag := .snoc .nil hop hend hadded
  obtain ⟨htracks, hlog⟩ := selection_tracked SealedTag.selecting hrun
  refine ⟨added, session, tag, hrun, htracks, fun a ha => ?_⟩
  obtain ⟨file, hfile, rfl⟩ := hlog _ (List.mem_singleton_self _) a ha
  obtain rfl := List.mem_singleton.mp hfile
  rfl

end Ntag424
