import Mathlib.Tactic.Common
import Ntag424.SdmUrl.Compile

/-!
# The Template Compiler Never Panics

The compiler indexes the bytes of a template by widths it computes from lead bytes, subtracts
offsets of the encrypted range, and slices the template to report an invalid placeholder. On
text none of this panics: the scanner stops on character boundaries only.

## Main results

* `Reached.boundary`: every position of the scanner is a character boundary, and its variables
  keep their invariant.
* `faults_scanStep`: one iteration reads inside the template and reports invalid placeholders
  between character boundaries.
* `sdmUrlConfig_total`: the compiler returns a configuration or an error for every template.
-/

namespace Ntag424

namespace SdmUrl

open Outcome

variable {cap : ℕ} {mode : CryptoMode} {text : List Char}

/-- A fault that `map_runtime_error` can report: no panic, and an invalid placeholder lies
between character boundaries of the template. -/
def Reportable (text : List Char) (f : Fault TemplateCoreError) : Prop :=
  f ≠ .panicked ∧ ∀ start stop, f = .error (.invalidPlaceholder start stop) →
    ∃ before word after, text = before ++ word ++ after ∧
      start = (Utf8.encode before).length ∧ stop = (Utf8.encode (before ++ word)).length

/-- An error that names no placeholder can be reported. -/
theorem faults_other {α : Type} {e : TemplateCoreError}
    (h : ∀ start stop, e ≠ .invalidPlaceholder start stop) :
    Faults (Reportable text) (fail e : Outcome TemplateCoreError α) :=
  faults_fail ⟨by rintro ⟨⟩, fun start stop heq => absurd (Fault.error.inj heq) (h start stop)⟩

/-! ### Writing and recording -/

/-- Bytes that do not fit are reported. -/
theorem faults_pushAll (buf bytes : List UInt8) :
    Faults (Reportable text) (pushAll cap buf bytes) := by
  induction bytes generalizing buf with
  | nil => exact faults_ok _
  | cons b bytes ih =>
      refine faults_bind ?_ fun buf' _ => ih buf'
      rw [push]
      split
      · exact faults_other (by rintro _ _ ⟨⟩)
      · exact faults_ok _

/-- A copy inside the source that does not fit is reported. -/
theorem faults_extendBytes {buf src : List UInt8} {start count : ℕ}
    (h : start + count ≤ src.length) :
    Faults (Reportable text) (extendBytes cap buf src start count) := by
  rw [extendBytes_eq h]
  exact faults_pushAll _ _

/-- A second placeholder of a kind is reported. -/
theorem faults_setOnce {α : Type} (slot : Option α) (value : α) (name : String) :
    Faults (Reportable text) (setOnce slot value name) := by
  cases slot with
  | none => exact faults_ok _
  | some a => exact faults_other (by rintro _ _ ⟨⟩)

/-- Recording a placeholder reports duplicates and nothing else. -/
theorem ScanState.faults_record (st : ScanState) (offset : ℕ) (display : String)
    (p : Placeholder) : Faults (Reportable text) (st.record offset display p) := by
  cases p with
  | uid | ctr | picc | tt | mac =>
      exact faults_bind (faults_setOnce _ _ _) fun _ _ => faults_pure _

/-! ### One iteration -/

section Iteration

variable {before cs : List Char} {c : Char} {i : ℕ} {b : UInt8} {st : ScanState}

/-- An escape at the end of the template is reported. -/
theorem faults_escapedWidth (url : List UInt8) (i : ℕ) :
    Faults (Reportable text) (escapedWidth url i) := by
  rw [escapedWidth]
  split
  · exact faults_other (by rintro _ _ ⟨⟩)
  · rename_i hlen
    exact faults_bind (faults_index (Nat.lt_of_not_le hlen)) fun _ _ => faults_pure _

/-- The range of an invalid placeholder reaches from its opening to its closing brace. -/
theorem faults_parsePlaceholder (htext : text = before ++ '{' :: cs) :
    Faults (Reportable text)
      (parsePlaceholder (Utf8.encode text) (Utf8.encode before).length) := by
  have hrest : (Utf8.encode text).drop ((Utf8.encode before).length + 1) = Utf8.encode cs := by
    rw [htext, ← List.drop_drop, Utf8.drop_encode_append]
    rfl
  rw [parsePlaceholder, hrest]
  split
  · exact faults_other (by rintro _ _ ⟨⟩)
  · rename_i len hfind
    obtain ⟨ds, rest, hcs, -, hlen⟩ :=
      Utf8.exists_split_of_findIdx? (show (0x7D : UInt8).toNat = '}'.toNat from rfl) (by decide)
        hfind
    split
    · exact faults_ok _
    · refine faults_fail ⟨by rintro ⟨⟩, ?_⟩
      rintro _ _ ⟨⟩
      refine ⟨before, '{' :: (ds ++ ['}']), rest, by simp [htext, hcs], rfl, ?_⟩
      have hopen : (Utf8.encode ['{']).length = 1 := rfl
      have hclose : (Utf8.encode ['}']).length = 1 := rfl
      rw [← List.singleton_append]
      simp only [Utf8.encode_append, List.length_append, hopen, hclose, hlen]
      omega

/-- Inside the encrypted range. -/
theorem faults_scanInside (htext : text = before ++ c :: cs)
    (hat : AtChar (Utf8.encode text) (Utf8.encode before).length c cs b) :
    Faults (Reportable text)
      (scanInside cap mode (Utf8.encode text) (Utf8.encode before).length b st) := by
  have hbrace := firstByte_eq_iff (a := '{') (n := 0x7B) hat.first rfl rfl
  rw [scanInside]
  split
  · exact faults_ok _
  split
  · exact faults_other (by rintro _ _ ⟨⟩)
  split
  · exact faults_other (by rintro _ _ ⟨⟩)
  split
  · refine faults_bind (faults_escapedWidth _ _) fun width _ => ?_
    exact faults_bind (faults_pushAll _ _) fun _ _ => faults_pure _
  split
  · rename_i hph
    obtain rfl := hbrace.mp hph
    refine faults_bind (faults_parsePlaceholder htext) fun parsed _ => ?_
    obtain ⟨p, consumed, display⟩ := parsed
    cases p with
    | tt =>
        refine faults_bind (st.faults_record _ _ _) fun _ _ => ?_
        exact faults_bind (faults_pushAll _ _) fun _ _ => faults_pure _
    | uid | ctr | picc | mac => exact faults_other (by rintro _ _ ⟨⟩)
  · exact faults_bind (faults_pushAll _ _) fun _ _ => faults_pure _

/-- Outside the encrypted range, where characters are copied from the template. -/
theorem faults_scanOutside (htext : text = before ++ c :: cs)
    (hat : AtChar (Utf8.encode text) (Utf8.encode before).length c cs b) :
    Faults (Reportable text)
      (scanOutside cap mode (Utf8.encode text) (Utf8.encode before).length b st) := by
  have hslash := firstByte_eq_iff (a := '\\') (n := 0x5C) hat.first rfl rfl
  have hbrace := firstByte_eq_iff (a := '{') (n := 0x7B) hat.first rfl rfl
  rw [scanOutside]
  split
  · split
    · exact faults_other (by rintro _ _ ⟨⟩)
    · exact faults_ok _
  split
  · split
    · exact faults_other (by rintro _ _ ⟨⟩)
    · exact faults_ok _
  split
  · exact faults_other (by rintro _ _ ⟨⟩)
  split
  · -- the escaped character is copied as a whole
    rename_i hesc
    obtain rfl := hslash.mp hesc
    refine faults_bind (faults_escapedWidth _ _) fun width hwidth => ?_
    obtain ⟨d, rest, b', -, rfl, hat'⟩ := escapedWidth_sound hat hwidth
    exact faults_bind (faults_extendBytes hat'.inside) fun _ _ => faults_pure _
  split
  · rename_i hph
    obtain rfl := hbrace.mp hph
    refine faults_bind (faults_parsePlaceholder htext) fun parsed _ => ?_
    obtain ⟨p, consumed, display⟩ := parsed
    refine faults_bind (st.faults_record _ _ _) fun _ _ => ?_
    exact faults_bind (faults_pushAll _ _) fun _ _ => faults_pure _
  · rw [utf8CharWidth_of_firstByte hat.first]
    exact faults_bind (faults_extendBytes hat.inside) fun _ _ => faults_pure _

/-- **One iteration on a character boundary** reads inside the template, and what it reports lies
between character boundaries. -/
theorem faults_scanStep (hi : Utf8.Boundary text i) (hlt : i < (Utf8.encode text).length) :
    Faults (Reportable text) (scanStep cap mode (Utf8.encode text) i st) := by
  obtain ⟨before, after, htext, rfl⟩ := hi
  refine faults_bind (faults_index hlt) fun b hb => ?_
  cases after with
  | nil =>
      rw [htext, List.append_nil] at hlt
      exact absurd hlt (Nat.lt_irrefl _)
  | cons c cs =>
      have hrest : (Utf8.encode text).drop (Utf8.encode before).length = Utf8.encode (c :: cs) := by
        rw [htext, Utf8.drop_encode_append]
      obtain ⟨b', hat⟩ := exists_atChar hrest
      obtain rfl : b' = b := Option.some.inj (hat.index.symm.trans (index_eq_ok_iff.mp hb))
      split
      · exact faults_scanInside htext hat
      · exact faults_scanOutside htext hat

end Iteration

/-! ### The loop -/

/-- The positions and variables the scanner goes through from a start on. -/
inductive Reached (cap : ℕ) (mode : CryptoMode) (url : List UInt8) (start : ℕ) :
    ℕ → ScanState → Prop
  | start : Reached cap mode url start start .initial
  | step {i i' : ℕ} {st st' : ScanState} : Reached cap mode url start i st → i < url.length →
      scanStep cap mode url i st = .ok (i', st') → Reached cap mode url start i' st'

variable {start i : ℕ} {st : ScanState}

/-- **The scanner only stops on character boundaries.** -/
theorem Reached.boundary (hstart : Utf8.Boundary text start)
    (h : Reached cap mode (Utf8.encode text) start i st) :
    Utf8.Boundary text i ∧ st.Inv := by
  induction h with
  | start => exact ⟨hstart, inv_initial⟩
  | step _ hlt hstep ih =>
      obtain ⟨⟨before, after, rfl, rfl⟩, hinv⟩ := ih
      cases after with
      | nil =>
          rw [List.append_nil] at hlt
          exact absurd hlt (Nat.lt_irrefl _)
      | cons c cs =>
          obtain ⟨b, hat⟩ := exists_atChar (Utf8.drop_encode_append before (c :: cs))
          obtain ⟨cs', ms, ext, hc⟩ := scanStep_sound hat hinv hstep
          exact ⟨Utf8.boundary_of_drop (le_of_scanStep hat hstep) hc.rest, hc.inv⟩

/-- The loop ends before the fuel does. -/
theorem faults_scanLoop {fuel : ℕ} (hstart : Utf8.Boundary text start)
    (h : Reached cap mode (Utf8.encode text) start i st)
    (hfuel : (Utf8.encode text).length - i ≤ fuel) :
    Faults (Reportable text) (scanLoop cap mode (Utf8.encode text) fuel i st) := by
  induction fuel generalizing i st with
  | zero =>
      rw [scanLoop, if_neg (by omega)]
      exact faults_ok _
  | succ fuel ih =>
      rw [scanLoop]
      split
      · rename_i hlt
        refine faults_bind (faults_scanStep (h.boundary hstart).1 hlt) fun next hnext => ?_
        obtain ⟨i', st'⟩ := next
        have hadv := lt_of_scanStep hnext
        exact ih (.step h hlt hnext) (by omega)
      · exact faults_ok _

/-- An encrypted range that cannot be is reported. -/
theorem faults_checkedEncRange (st : ScanState) :
    Faults (Reportable text) (checkedEncRange st) := by
  rw [checkedEncRange]
  split
  · exact faults_ok _
  · exact faults_other (by rintro _ _ ⟨⟩)
  · exact faults_other (by rintro _ _ ⟨⟩)
  · dsimp only
    split_ifs
    · exact faults_other (by rintro _ _ ⟨⟩)
    · exact faults_other (by rintro _ _ ⟨⟩)
    · exact faults_ok _

/-- The checks after the loop report what they refuse. -/
theorem faults_finishTemplate (st : ScanState) :
    Faults (Reportable text) (finishTemplate st) := by
  rw [finishTemplate]
  split
  · exact faults_other (by rintro _ _ ⟨⟩)
  split
  · exact faults_other (by rintro _ _ ⟨⟩)
  split
  · exact faults_other (by rintro _ _ ⟨⟩)
  split
  · exact faults_other (by rintro _ _ ⟨⟩)
  · refine faults_bind (faults_checkedEncRange st) fun range _ => ?_
    simp only
    split
    · exact faults_other (by rintro _ _ ⟨⟩)
    · exact faults_pure _

/-- **Parsing a template** never panics. -/
theorem faults_parseTemplate (hstart : Utf8.Boundary text start) :
    Faults (Reportable text) (parseTemplate cap mode (Utf8.encode text) start) :=
  faults_bind (faults_scanLoop hstart .start (Nat.sub_le _ _)) fun st _ =>
    faults_finishTemplate st

/-- The scanner starts behind a prefix of the text. -/
theorem boundary_detectUriPrefix (text : List Char) :
    Utf8.Boundary text (detectUriPrefix (Utf8.encode text)).2 := by
  obtain ⟨pre, rest, -, hlen, htext, -⟩ := detectUriPrefix_spec (Prod.eta _).symm
  exact ⟨pre.toList, rest, htext, hlen⟩

/-! ### Assembling the plan -/

/-- A position above 24 bits is reported. -/
theorem faults_tryOffset (value : ℕ) (name : String) :
    Faults (Reportable text) (tryOffset value name) := by
  rw [tryOffset]
  split
  · exact faults_ok _
  · exact faults_other (by rintro _ _ ⟨⟩)

/-- The same for an optional position. -/
theorem faults_mapM_tryOffset (value : Option ℕ) (name : String) :
    Faults (Reportable text) (value.mapM (tryOffset · name)) := by
  cases value with
  | none => exact faults_ok _
  | some v => exact faults_bind (faults_tryOffset v name) fun _ _ => faults_pure _

/-- PICCData that cannot be configured are reported. -/
theorem faults_buildPiccData (opts : SdmUrlOptions) (parsed : ParsedTemplate) :
    Faults (Reportable text) (buildPiccData opts parsed) := by
  rw [buildPiccData]
  split
  · exact faults_bind (faults_tryOffset _ _) fun _ _ => faults_pure _
  · refine faults_bind (faults_mapM_tryOffset _ _) fun _ _ => ?_
    exact faults_bind (faults_mapM_tryOffset _ _) fun _ _ => faults_pure _

/-- The checks behind the loop, besides the slots. -/
theorem finishTemplate_checks {st : ScanState} {parsed : ParsedTemplate}
    (h : finishTemplate st = .ok parsed) :
    parsed.macInput ≤ parsed.macOffset ∧
      (∀ s e, parsed.encRange = some (s, e) → s < e ∧ (e - s) % 32 = 0) ∧
      (parsed.encRange.isSome → parsed.includesUid = true ∧ parsed.includesCtr = true) := by
  rw [finishTemplate] at h
  split at h
  · cases h
  split at h
  · cases h
  split at h
  · cases h
  split at h
  · cases h
  obtain ⟨range, hrange, h⟩ := Except.bind_eq_ok_iff.mp h
  dsimp only at h
  split at h
  · cases h
  rename_i hwindow
  cases Except.pure_eq_ok_iff.mp h
  refine ⟨Nat.le_of_not_lt hwindow, ?_⟩
  rw [checkedEncRange] at hrange
  split at hrange
  · cases hrange
    exact ⟨by rintro _ _ ⟨⟩, by rintro ⟨⟩⟩
  · cases hrange
  · cases hrange
  · dsimp only at hrange
    split_ifs at hrange with hlen hmirrors
    · cases hrange
    · cases hrange
    · cases hrange
      refine ⟨?_, fun _ => ?_⟩
      · rintro s e ⟨⟩
        omega
      · cases hpicc : st.picc with
        | none =>
            simpa [ParsedTemplate.includesUid, ParsedTemplate.includesCtr, hpicc,
              Option.isSome_iff_ne_none] using hmirrors
        | some p =>
            simpa [ParsedTemplate.includesUid, ParsedTemplate.includesCtr, hpicc,
              Option.isSome_iff_ne_none] using hmirrors

/-- The length of an encrypted range does not underflow. -/
theorem faults_buildFileRead (opts : SdmUrlOptions) {parsed : ParsedTemplate}
    (hrange : ∀ s e, parsed.encRange = some (s, e) → s < e) :
    Faults (Reportable text) (buildFileRead opts parsed) := by
  refine faults_bind (faults_tryOffset _ _) fun input _ => ?_
  refine faults_bind (faults_tryOffset _ _) fun mac _ => ?_
  split
  · rename_i s e henc
    refine faults_bind (faults_tryOffset _ _) fun start _ => ?_
    refine faults_bind (faults_checkedSub (hrange s e henc).le) fun len _ => ?_
    split
    · exact faults_pure _
    · exact faults_other (by rintro _ _ ⟨⟩)
  · exact faults_pure _

/-- **The core of the compiler** never panics. -/
theorem faults_buildSdmNdefPlanCore (opts : SdmUrlOptions) :
    Faults (Reportable text) (buildSdmNdefPlanCore cap (Utf8.encode text) mode opts) := by
  rw [buildSdmNdefPlanCore]
  refine faults_bind (faults_parseTemplate (boundary_detectUriPrefix text)) fun parsed hparsed => ?_
  obtain ⟨st, -, hfinish⟩ := Except.bind_eq_ok_iff.mp hparsed
  have hrange : ∀ s e, parsed.encRange = some (s, e) → s < e := fun s e henc =>
    ((finishTemplate_checks hfinish).2.1 s e henc).1
  dsimp only
  split
  · exact faults_other (by rintro _ _ ⟨⟩)
  split
  · exact faults_other (by rintro _ _ ⟨⟩)
  · refine faults_bind (faults_pushAll _ _) fun header _ => ?_
    refine faults_bind (faults_extendBytes (by omega)) fun bytes _ => ?_
    refine faults_bind (faults_buildPiccData opts parsed) fun piccData _ => ?_
    refine faults_bind (faults_buildFileRead opts hrange) fun fileRead _ => ?_
    refine faults_bind (faults_mapM_tryOffset _ _) fun tamperStatus _ => ?_
    split
    · exact faults_pure _
    · rename_i e _
      cases e <;> exact faults_other (by rintro _ _ ⟨⟩)

/-! ### Totality -/

/-- A reportable fault is reported. -/
theorem mapRuntimeError_ne_panicked {e : TemplateCoreError} (h : Reportable text (.error e)) :
    mapRuntimeError (Utf8.encode text) e ≠ .panicked := by
  cases e with
  | invalidPlaceholder start stop =>
      obtain ⟨before, word, after, rfl, rfl, rfl⟩ := h.2 start stop rfl
      have hslice : slice (Utf8.encode (before ++ word ++ after)) (Utf8.encode before).length
          ((Utf8.encode (before ++ word)).length - (Utf8.encode before).length) =
          Utf8.encode word := by
        rw [slice, List.append_assoc, Utf8.drop_encode_append, Utf8.encode_append,
          Utf8.encode_append, List.length_append, Nat.add_sub_cancel_left, List.take_left]
      rw [mapRuntimeError, hslice, Utf8.decode?_encode]
      rintro ⟨⟩
  | _ => rintro ⟨⟩

/-- **The template compiler is total on text.** For every template, mode and options it returns a
configuration or an error. Every position its scanner reaches, whatever the capacity of the
buffer, is a character boundary; as long as text is left, an iteration does not panic, advances
and stays inside the template, and an invalid placeholder it reports lies between character
boundaries. -/
theorem sdmUrlConfig_total (url : String) (mode : CryptoMode) (opts : SdmUrlOptions) :
    ((∃ c, sdmUrlConfig url mode opts = .ok c) ∨ ∃ e, sdmUrlConfig url mode opts = fail e) ∧
    ∀ cap i st, Reached cap mode (Utf8.encode url.toList)
        (detectUriPrefix (Utf8.encode url.toList)).2 i st →
      Utf8.Boundary url.toList i ∧
      (i < (Utf8.encode url.toList).length →
        scanStep cap mode (Utf8.encode url.toList) i st ≠ panicked ∧
        (∀ i' st', scanStep cap mode (Utf8.encode url.toList) i st = .ok (i', st') →
          i < i' ∧ i' ≤ (Utf8.encode url.toList).length) ∧
        ∀ start stop, scanStep cap mode (Utf8.encode url.toList) i st =
            fail (.invalidPlaceholder start stop) →
          start ≤ stop ∧ Utf8.Boundary url.toList start ∧ Utf8.Boundary url.toList stop) := by
  constructor
  · rw [sdmUrlConfig]
    split
    · exact .inl ⟨_, rfl⟩
    · rename_i e he
      have hreport := faults_buildSdmNdefPlanCore opts _ he
      rcases hmap : mapRuntimeError (Utf8.encode url.toList) e with e' | _
      · exact .inr ⟨e', rfl⟩
      · exact absurd hmap (mapRuntimeError_ne_panicked hreport)
    · rename_i hpanic
      exact absurd rfl (faults_buildSdmNdefPlanCore opts _ hpanic).1
  · intro cap i st hreached
    have hboundary := (hreached.boundary (boundary_detectUriPrefix url.toList)).1
    refine ⟨hboundary, fun hlt => ⟨fun hpanic => ?_, fun i' st' hstep => ?_,
      fun start stop hfail => ?_⟩⟩
    · exact (faults_scanStep hboundary hlt _ hpanic).1 rfl
    · have hnext := (hreached.step hlt hstep).boundary (boundary_detectUriPrefix url.toList)
      exact ⟨lt_of_scanStep hstep, hnext.1.le_length⟩
    · obtain ⟨before, word, after, htext, rfl, rfl⟩ :=
        (faults_scanStep hboundary hlt _ hfail).2 start stop rfl
      refine ⟨?_, ⟨before, word ++ after, by rw [htext, List.append_assoc], rfl⟩,
        ⟨before ++ word, after, htext, rfl⟩⟩
      rw [Utf8.encode_append, List.length_append]
      exact Nat.le_add_right _ _

end SdmUrl

end Ntag424
