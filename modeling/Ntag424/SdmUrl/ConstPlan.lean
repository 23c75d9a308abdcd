import Mathlib.Tactic.Common
import Ntag424.Lib.Within
import Ntag424.SdmUrl.Compile

/-!
# Templates That Are Compiled with the Program

`build_sdm_ndef_plan_const` (`sdm_url.rs`) compiles a template in a constant, into buffers of a
capacity that its caller chooses; a template that is refused stops the compilation. It is the same
core as that of `sdm_url_config`, whose buffers hold 256 bytes.

## Main results

* `within_buildSdmNdefPlanCore`: a smaller capacity refuses the files that do not fit, and changes
  nothing else.
* `buildSdmNdefPlanConst_spec`: the constant and the function agree on every file that fits both.
-/

namespace Ntag424

namespace SdmUrl

open Outcome

/-- The text with which `panic_on_const_error` stops the compilation. -/
def constErrorText : TemplateCoreError → String
  | .missingMac => "SDM URL template is missing \x7bmac\x7d"
  | .piccWithPlainMirrors =>
      "SDM URL template mixes \x7bpicc...\x7d with \x7buid\x7d/\x7bctr\x7d"
  | .noMirror => "SDM URL template has no dynamic mirrors"
  | .duplicatePlaceholder _ => "SDM URL template contains a duplicate placeholder"
  | .encFileDataRequiresUidAndCtr =>
      "SDM encrypted file data requires UID and SDMReadCtr mirroring"
  | .invalidEncRangeLength _ =>
      "SDM encrypted file data range must be a positive multiple of 32 bytes"
  | .invalidPlaceholder _ _ => "SDM URL template contains an invalid placeholder"
  | .unterminated _ => "SDM URL template contains an unterminated marker"
  | .unexpectedMarker _ => "SDM URL template contains an unexpected marker"
  | .duplicateRange _ => "SDM URL template contains a duplicate range marker"
  | .placeholderInEncRange _ =>
      "SDM URL template contains a forbidden placeholder inside [...]"
  | .nestedRange _ => "SDM URL template contains a nested range"
  | .macStartAfterMac => "SDM URL [[ marker must appear before \x7bmac\x7d"
  | .outputBufferTooSmall _ _ => "SDM const output buffer is too small"
  | .fileTooLong _ _ => "SDM URL template produces an NDEF file that is too long"
  | .fileSettings _ => "SDM URL template produced inconsistent SDM settings"

/-- `build_sdm_ndef_plan_const`: an error is the text that stops the compilation. -/
def buildSdmNdefPlanConst (cap : ℕ) (url : String) (mode : CryptoMode) (opts : SdmUrlOptions) :
    Outcome String ConstSdmNdefPlan :=
  (buildSdmNdefPlanCore cap (Utf8.encode url.toList) mode opts).mapError constErrorText

/-! ### Buffers -/

variable {cap cap' : ℕ} {mode : CryptoMode} {url buf : List UInt8} {st : ScanState}

/-- How a buffer of the capacity refuses a byte. -/
def bufferFull (cap : ℕ) : Fault TemplateCoreError := .error (.outputBufferTooSmall (cap + 1) cap)

theorem within_push (hcap : cap ≤ cap') (buf : List UInt8) (b : UInt8) :
    Within (bufferFull cap) cap List.length buf.length (push cap buf b) (push cap' buf b) := by
  have hlen : (buf ++ [b]).length = buf.length + 1 := List.length_append
  have hok : ∀ out, push cap' buf b = .ok out → out.length = buf.length + 1 := by
    intro out hout
    rw [push] at hout
    split at hout
    · cases hout
    · rw [← Except.ok.inj hout, hlen]
  refine ⟨fun out hout => (hok out hout).symm ▸ Nat.le_succ _, fun hle => ?_⟩
  by_cases hfull : buf.length = cap
  · refine .inr ⟨?_, fun out hout => ?_⟩
    · rw [push, if_pos hfull, hfull]
      rfl
    · rw [hok out hout, hfull]
      exact Nat.lt_succ_self cap
  · have hroom : buf.length ≠ cap' := by omega
    refine .inl ⟨?_, fun out hout => ?_⟩
    · rw [push, push, if_neg hfull, if_neg hroom]
    · rw [hok out hout]
      omega

theorem within_pushAll (hcap : cap ≤ cap') (buf bytes : List UInt8) :
    Within (bufferFull cap) cap List.length buf.length (pushAll cap buf bytes)
      (pushAll cap' buf bytes) :=
  within_foldlM (within_push hcap) bytes buf

theorem within_extendBytes (hcap : cap ≤ cap') (buf src : List UInt8) (start count : ℕ) :
    Within (bufferFull cap) cap List.length buf.length (extendBytes cap buf src start count)
      (extendBytes cap' buf src start count) :=
  within_foldlM (fun buf _ => within_bind_self fun b _ => within_push hcap buf b) _ buf

/-! ### The scanner -/

/-- The size of what the scanner has rendered. -/
def ScanState.rendered (st : ScanState) : ℕ := st.uriContent.length

/-- To record a placeholder renders nothing. -/
theorem rendered_of_record {st' : ScanState} {offset : ℕ} {display : String} {p : Placeholder}
    (h : st.record offset display p = .ok st') : st'.uriContent = st.uriContent := by
  cases p with
  | uid | ctr | picc | tt | mac =>
      obtain ⟨slot, -, heq⟩ := Except.bind_eq_ok_iff.mp h
      obtain rfl := Except.ok.inj heq
      rfl

/-- What is rendered is kept, at the next position. -/
theorem within_rendered {x y : Scan (List UInt8)} {lo i : ℕ}
    (h : Within (bufferFull cap) cap List.length lo x y) :
    Within (bufferFull cap) cap (ScanState.rendered ∘ Prod.snd) lo
      (x >>= fun uriContent => return (i, { st with uriContent }))
      (y >>= fun uriContent => return (i, { st with uriContent })) :=
  within_bind h fun _ _ => within_ok rfl

/-- One iteration inside the encrypted range. -/
theorem within_scanInside (hcap : cap ≤ cap') (i : ℕ) (b : UInt8) (st : ScanState) :
    Within (bufferFull cap) cap (ScanState.rendered ∘ Prod.snd) st.rendered
      (scanInside cap mode url i b st) (scanInside cap' mode url i b st) := by
  unfold scanInside
  split_ifs with hclose hstart hopen hescape hbrace
  · exact within_ok rfl
  · exact within_error _
  · exact within_error _
  · exact within_bind_self fun width _ => within_rendered (within_pushAll hcap _ _)
  · refine within_bind_self fun parsed _ => ?_
    obtain ⟨p, consumed, display⟩ := parsed
    cases p with
    | tt =>
        refine within_bind_self fun st' hrecord => ?_
        rw [ScanState.rendered, ← rendered_of_record hrecord]
        exact within_rendered (within_pushAll hcap _ _)
    | uid | ctr | picc | mac => exact within_error _
  · exact within_rendered (within_pushAll hcap _ _)

/-- One iteration outside the encrypted range. -/
theorem within_scanOutside (hcap : cap ≤ cap') (i : ℕ) (b : UInt8) (st : ScanState) :
    Within (bufferFull cap) cap (ScanState.rendered ∘ Prod.snd) st.rendered
      (scanOutside cap mode url i b st) (scanOutside cap' mode url i b st) := by
  unfold scanOutside
  split_ifs with hstart hagain hopen htwice hclose hescape hbrace
  · exact within_error _
  · exact within_ok rfl
  · exact within_error _
  · exact within_ok rfl
  · exact within_error _
  · exact within_bind_self fun width _ => within_rendered (within_extendBytes hcap _ _ _ _)
  · refine within_bind_self fun parsed _ => ?_
    obtain ⟨p, consumed, display⟩ := parsed
    refine within_bind_self fun st' hrecord => ?_
    rw [ScanState.rendered, ← rendered_of_record hrecord]
    exact within_rendered (within_pushAll hcap _ _)
  · exact within_rendered (within_extendBytes hcap _ _ _ _)

/-- One iteration. -/
theorem within_scanStep (hcap : cap ≤ cap') (i : ℕ) (st : ScanState) :
    Within (bufferFull cap) cap (ScanState.rendered ∘ Prod.snd) st.rendered
      (scanStep cap mode url i st) (scanStep cap' mode url i st) := by
  refine within_bind_self fun b _ => ?_
  split
  · exact within_scanInside hcap i b st
  · exact within_scanOutside hcap i b st

/-- The loop. -/
theorem within_scanLoop (hcap : cap ≤ cap') (fuel i : ℕ) (st : ScanState) :
    Within (bufferFull cap) cap ScanState.rendered st.rendered
      (scanLoop cap mode url fuel i st) (scanLoop cap' mode url fuel i st) := by
  induction fuel generalizing i st with
  | zero =>
      unfold scanLoop
      split
      · exact within_error _
      · exact within_ok rfl
  | succ fuel ih =>
      unfold scanLoop
      split
      · exact within_bind (within_scanStep hcap i st) fun next _ => ih next.1 next.2
      · exact within_ok rfl

/-- The checks after the loop keep what is rendered. -/
theorem uriContent_of_finishTemplate {parsed : ParsedTemplate}
    (h : finishTemplate st = .ok parsed) : parsed.uriContent = st.uriContent := by
  rw [finishTemplate] at h
  split at h
  · cases h
  split at h
  · cases h
  split at h
  · cases h
  split at h
  · cases h
  obtain ⟨range, -, h⟩ := Except.bind_eq_ok_iff.mp h
  simp only at h
  split at h
  · cases h
  · obtain rfl := Except.ok.inj h
    rfl

/-- **Parsing a template** with a smaller buffer. -/
theorem within_parseTemplate (hcap : cap ≤ cap') (start : ℕ) :
    Within (bufferFull cap) cap (fun parsed => parsed.uriContent.length) 0
      (parseTemplate cap mode url start) (parseTemplate cap' mode url start) := by
  have hloop : Within (bufferFull cap) cap ScanState.rendered 0
      (scanLoop cap mode url url.length start .initial)
      (scanLoop cap' mode url url.length start .initial) :=
    within_scanLoop hcap url.length start .initial
  refine within_bind hloop fun st _ => ?_
  cases hfinish : finishTemplate st with
  | error f => exact within_error f
  | ok parsed =>
      refine within_ok ?_
      rw [uriContent_of_finishTemplate hfinish]
      rfl

/-! ### The plan -/

/-- **The core** with a smaller capacity refuses the files that do not fit, and nothing else
changes. -/
theorem within_buildSdmNdefPlanCore (hcap : cap ≤ cap') (opts : SdmUrlOptions) :
    Within (bufferFull cap) cap (fun plan => plan.ndefBytes.length) 0
      (buildSdmNdefPlanCore cap url mode opts) (buildSdmNdefPlanCore cap' url mode opts) := by
  obtain ⟨code, start, hprefix⟩ : ∃ code start, detectUriPrefix url = (code, start) :=
    ⟨_, _, rfl⟩
  simp only [buildSdmNdefPlanCore, hprefix]
  refine within_bind (within_parseTemplate hcap _) fun parsed _ => ?_
  split_ifs with hpayload hfile
  · exact within_error _
  · exact within_error _
  · refine Within.larger ?_ (Nat.zero_le _) ?_
    · refine within_bind (within_pushAll hcap [] _) fun header _ => ?_
      refine within_bind (within_extendBytes hcap _ _ _ _) fun ndefBytes _ => ?_
      refine within_bind_self fun piccData _ => within_bind_self fun fileRead _ =>
        within_bind_self fun tamperStatus _ => ?_
      split
      · exact within_ok rfl
      · exact within_error _
    · intro plan hplan
      obtain ⟨header, -, hplan⟩ := Except.bind_eq_ok_iff.mp hplan
      obtain ⟨ndefBytes, hbytes, hplan⟩ := Except.bind_eq_ok_iff.mp hplan
      obtain ⟨piccData, -, hplan⟩ := Except.bind_eq_ok_iff.mp hplan
      obtain ⟨fileRead, -, hplan⟩ := Except.bind_eq_ok_iff.mp hplan
      obtain ⟨tamperStatus, -, hplan⟩ := Except.bind_eq_ok_iff.mp hplan
      rw [extendBytes_eq (Nat.zero_add _).le] at hbytes
      have hlen := congrArg List.length (eq_of_pushAll hbytes)
      rw [slice_zero_length, List.length_append] at hlen
      split at hplan
      · obtain rfl := Except.ok.inj hplan
        exact hlen ▸ Nat.le_add_left _ _
      · cases hplan

/-! ### The constant and the function -/

variable {opts : SdmUrlOptions}

/-- The configuration of a plan. -/
def ConstSdmNdefPlan.config (plan : ConstSdmNdefPlan) : SdmUrlConfig :=
  ⟨plan.ndefBytes, plan.sdmSettings, uriAt, plan.prefixLen, plan.prefixCode⟩

theorem config_injective {plan plan' : ConstSdmNdefPlan} (h : plan.config = plan'.config) :
    plan = plan' := by
  cases plan
  cases plan'
  cases h
  rfl

theorem sdmUrlConfig_eq_ok_iff {text : String} {config : SdmUrlConfig} :
    sdmUrlConfig text mode opts = .ok config ↔ ∃ plan,
      buildSdmNdefPlanCore defaultConstPlanCapacity (Utf8.encode text.toList) mode opts = .ok plan ∧
        config = plan.config := by
  rw [sdmUrlConfig]
  rcases hcore : buildSdmNdefPlanCore defaultConstPlanCapacity (Utf8.encode text.toList) mode
    opts with (e | _) | plan
  · exact iff_of_false (by rintro ⟨⟩) (by rintro ⟨_, hno, -⟩; cases hno)
  · exact iff_of_false (by rintro ⟨⟩) (by rintro ⟨_, hno, -⟩; cases hno)
  · refine ⟨fun h => ⟨plan, rfl, (Except.ok.inj h).symm⟩, ?_⟩
    rintro ⟨_, ⟨⟩, rfl⟩
    rfl

/-- **The constant and the function agree.** What the constant of any capacity holds is what the
function returns, if the file fits the buffers of both; a file that the function returns and that
does not fit the constant stops the compilation. -/
theorem buildSdmNdefPlanConst_spec (cap : ℕ) (text : String) (mode : CryptoMode)
    (opts : SdmUrlOptions) :
    (∀ plan, buildSdmNdefPlanConst cap text mode opts = .ok plan →
      plan.ndefBytes.length ≤ cap) ∧
    (∀ plan, buildSdmNdefPlanConst cap text mode opts = .ok plan ∧
        plan.ndefBytes.length ≤ defaultConstPlanCapacity ↔
      sdmUrlConfig text mode opts = .ok plan.config ∧ plan.ndefBytes.length ≤ cap) ∧
    ∀ config, sdmUrlConfig text mode opts = .ok config → cap < config.ndefBytes.length →
      buildSdmNdefPlanConst cap text mode opts = fail "SDM const output buffer is too small" := by
  have hfits : ∀ {cap : ℕ} {plan : ConstSdmNdefPlan},
      buildSdmNdefPlanCore cap (Utf8.encode text.toList) mode opts = .ok plan →
        plan.ndefBytes.length ≤ cap := fun h =>
    (((within_buildSdmNdefPlanCore le_rfl opts).eq_ok_iff (Nat.zero_le _)).mp h).2
  have hconfig : ∀ plan, sdmUrlConfig text mode opts = .ok plan.config ↔
      buildSdmNdefPlanCore defaultConstPlanCapacity (Utf8.encode text.toList) mode opts =
        .ok plan := by
    intro plan
    rw [sdmUrlConfig_eq_ok_iff]
    refine ⟨?_, fun h => ⟨plan, h, rfl⟩⟩
    rintro ⟨plan', hplan', hsame⟩
    rw [config_injective hsame, hplan']
  refine ⟨fun plan h => hfits (mapError_eq_ok_iff.mp h), fun plan => ?_, ?_⟩
  · rw [buildSdmNdefPlanConst, mapError_eq_ok_iff, hconfig]
    rcases Nat.le_total cap defaultConstPlanCapacity with hle | hle
    · rw [(within_buildSdmNdefPlanCore hle opts).eq_ok_iff (Nat.zero_le _)]
      exact ⟨fun h => h.1, fun h => ⟨h, h.2.trans hle⟩⟩
    · rw [(within_buildSdmNdefPlanCore hle opts).eq_ok_iff (Nat.zero_le _)]
      exact ⟨fun h => ⟨h, h.2.trans hle⟩, fun h => h.1⟩
  · intro config h hover
    obtain ⟨plan, hplan, rfl⟩ := sdmUrlConfig_eq_ok_iff.mp h
    have hle : cap ≤ defaultConstPlanCapacity := (Nat.le_of_lt hover).trans (hfits hplan)
    rw [buildSdmNdefPlanConst,
      (within_buildSdmNdefPlanCore hle opts).eq_full (Nat.zero_le _) hplan hover]
    rfl

end SdmUrl

end Ntag424
