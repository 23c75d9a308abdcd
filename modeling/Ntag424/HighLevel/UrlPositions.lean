import Mathlib.Tactic.Common
import Ntag424.HighLevel.EndToEnd

/-!
# Positions in the URL

The compiler places the SDM mirrors in the NDEF file; the verifier reads them in the URL, in
which the compressed prefix is spelled out. `with_offset` refuses positions from 256 on: the
bound is the size of the file, and the URL can be longer than the file.

## Main results

* `Verifier.mem_offsets_iff_placed`: the offsets of a verifier are the places of the marks.
* `SdmUrl.withOffset_compiled_iff`: the verifier of a compiled template can be moved to the URL
  exactly when every placeholder and marker starts in the first 256 bytes of the URL, and only
  then does `create_sdm_url_config` not report `Offset`.
-/

namespace Ntag424

open Outcome

section Placed

open SdmUrl

variable {s : Sdm} {mode : CryptoMode} {fr : FileRead}

/-- The offsets of the identity source are the places of the identity marks. -/
theorem Verifier.mem_piccSource_offsets_iff {o : ℕ} :
    o ∈ (piccSourceOf s.piccData).1.offsets ↔
      placed s (.fill .uid) = some o ∨ placed s (.fill .ctr) = some o ∨
        ∃ content, placed s (.fill (.picc content)) = some o := by
  obtain ⟨pd, fr, tt, hvalid⟩ := s
  cases pd with
  | none => simp [piccSourceOf, PiccSource.offsets, placed]
  | plain mirror => simp [piccSourceOf, PiccSource.offsets, placed]
  | encrypted key offset content => simp [piccSourceOf, PiccSource.offsets, placed, eq_comm]

/-- **The offsets of a verifier** are the places of the marks. -/
theorem Verifier.mem_offsets_iff_placed (hfr : s.fileRead = some fr) {o : ℕ} :
    o ∈ ((⟨s.piccData, s.fileRead, s.tamperStatus, mode⟩ : Layout).verifier fr).offsets ↔
      ∃ m, placed s m = some o := by
  have hinput : placed s .macStart = some fr.window.input.val := by
    rw [placed, hfr, Option.map_some]
  have hmac : placed s (.fill .mac) = some fr.window.mac.val := by
    rw [placed, hfr, Option.map_some]
  have hstart : placed s .encStart = fr.enc.map fun enc => enc.start.val := by
    rw [placed, hfr, Option.bind_some]
  have hend : placed s .encEnd = fr.enc.map fun enc => enc.start.val + enc.length.val := by
    rw [placed, hfr, Option.bind_some]
  simp only [mem_offsets, Layout.verifier, mem_piccSource_offsets_iff, Option.mem_def]
  constructor
  · rintro ((huid | hctr | ⟨content, hpicc⟩) | rfl | rfl | htt | ⟨range, hrange, hor⟩)
    · exact ⟨_, huid⟩
    · exact ⟨_, hctr⟩
    · exact ⟨_, hpicc⟩
    · exact ⟨_, hinput⟩
    · exact ⟨_, hmac⟩
    · exact ⟨.fill .tt, htt⟩
    · obtain ⟨enc, henc, rfl⟩ := Option.map_eq_some_iff.mp hrange
      rw [henc] at hstart hend
      rcases hor with rfl | rfl
      · exact ⟨_, hstart⟩
      · exact ⟨_, hend⟩
  · rintro ⟨m, hm⟩
    rcases m with (_ | _ | content | _ | _) | _ | _ | _
    · exact .inl (.inl hm)
    · exact .inl (.inr (.inl hm))
    · exact .inl (.inr (.inr ⟨content, hm⟩))
    · exact .inr (.inr (.inr (.inl hm)))
    · exact .inr (.inr (.inl (Option.some.inj (hm.symm.trans hmac))))
    · exact .inr (.inl (Option.some.inj (hm.symm.trans hinput)))
    · obtain ⟨enc, henc, rfl⟩ := Option.map_eq_some_iff.mp (hstart.symm.trans hm)
      exact .inr (.inr (.inr (.inr ⟨_, Option.map_eq_some_iff.mpr ⟨enc, henc, rfl⟩, .inl rfl⟩)))
    · obtain ⟨enc, henc, rfl⟩ := Option.map_eq_some_iff.mp (hend.symm.trans hm)
      exact .inr (.inr (.inr (.inr ⟨_, Option.map_eq_some_iff.mpr ⟨enc, henc, rfl⟩, .inr rfl⟩)))

end Placed

namespace SdmUrl

variable {mode : CryptoMode} {opts : SdmUrlOptions} {c : SdmUrlConfig}

/-- Every placeholder and marker of the template starts in the first 256 bytes of the URL it
renders to. -/
def WithinReach (mode : CryptoMode) (url : List Char) : Prop :=
  ∀ ms out, Renders mode false url 0 ms out → ∀ m ∈ ms, m.2 ≤ 255

/-- The offsets of compiled settings, seen from the URL: the places of the marks, and the start
of the body when no start of the MAC window is marked. -/
theorem Compiled.forall_placed_iff {s : Sdm} {len : ℕ} {ms : List (Mark × ℕ)}
    (h : Compiled s len ms) (hlen : len ≤ 255) :
    (∀ m o, SdmUrl.placed s m = some o → o + len ≤ 255 + uriAt) ↔ ∀ m ∈ ms, m.2 ≤ 255 := by
  constructor
  · rintro hplaced ⟨m, u⟩ hu
    by_cases hm : m = .macStart
    · subst hm
      obtain ⟨o, ho, hpos⟩ := h.macInput u hu
      have := hplaced _ o ho
      exact (by omega : u ≤ 255)
    · by_cases hlt : u + uriAt < len
      · exact (by omega : u ≤ 255)
      · have := hplaced m (u + uriAt - len) ((h.placed m hm _).mpr ⟨u, hu, by omega⟩)
        exact (by omega : u ≤ 255)
  · intro hms m o ho
    by_cases hm : m = .macStart
    · subst hm
      by_cases hmark : ∃ u, (Mark.macStart, u) ∈ ms
      · obtain ⟨u, hu⟩ := hmark
        obtain ⟨o', ho', hpos⟩ := h.macInput u hu
        obtain rfl : o = o' := Option.some.inj (ho.symm.trans ho')
        have := hms _ hu
        simp only at this
        omega
      · have := h.macInput_default fun u hu => hmark ⟨u, hu⟩
        obtain rfl : o = uriAt := Option.some.inj (ho.symm.trans this)
        omega
    · obtain ⟨u, hu, hpos⟩ := (h.placed m hm o).mp ho
      have := hms _ hu
      simp only at this
      omega

/-- The verifier of a compiled template can be moved when all marks are within reach. -/
theorem exists_withOffset_iff {url : String} (h : sdmUrlConfig url mode opts = .ok c)
    {v : Verifier} (hv : Verifier.tryNew c.sdmSettings mode = .ok v) :
    (∃ v', v.withOffset (c.prefixLen - c.offset) = some v') ↔ WithinReach mode url.toList := by
  obtain ⟨text, rest, ms, body, ha⟩ := sdmUrlConfig_assembled h
  obtain ⟨ms', hr, hcompiled⟩ := ha.compiled
  obtain ⟨fr, hfr, -⟩ := ha.fileRead
  obtain rfl : v = (c.layout mode).verifier fr :=
    Except.ok.inj (hv.symm.trans (Verifier.tryNew_eq_verifier hfr))
  have hlen := length_prefixText_le ha.prefixCode
  rw [← ha.prefixLen] at hlen
  have hreach : WithinReach mode url.toList ↔ ∀ m ∈ ms', m.2 ≤ 255 := by
    refine ⟨fun hall => hall _ _ hr, fun hms ms'' out'' hr'' => ?_⟩
    rw [(hr''.unique hr).1]
    exact hms
  have hplaced := ha.uriAt_le_offsets hfr
  rw [hreach, ← hcompiled.forall_placed_iff (by omega), ha.offset]
  simp only [Verifier.withOffset_eq_some_iff, exists_eq_right, Verifier.Movable]
  constructor
  · intro hmove m o ho
    have := hmove o ((Verifier.mem_offsets_iff_placed hfr).mpr ⟨m, ho⟩)
    omega
  · intro hall o ho
    obtain ⟨m, hm⟩ := (Verifier.mem_offsets_iff_placed hfr).mp ho
    have hlo := hplaced o ho
    have hhi := hall m o hm
    have huri : uriAt = 7 := rfl
    exact ⟨by omega, by omega, by omega⟩

/-- Where `create_sdm_url_config` reports `Offset`, the compiler has accepted the template. -/
theorem exists_sdmUrlConfig_of_offset {url : String}
    (h : createSdmUrlConfig url mode = fail .offset) :
    ∃ c, sdmUrlConfig url mode provisioningOptions = .ok c := by
  rw [createSdmUrlConfig] at h
  rcases hc : sdmUrlConfig url mode provisioningOptions with (e | _) | c
  · rw [hc] at h
    cases h
  · rw [hc] at h
    cases h
  · exact ⟨c, rfl⟩

/-- `create_sdm_url_config` reports `Offset` when the verifier cannot be moved. -/
theorem createSdmUrlConfig_eq_offset_iff {url : String} {v : Verifier}
    (h : sdmUrlConfig url mode provisioningOptions = .ok c)
    (hv : Verifier.tryNew c.sdmSettings mode = .ok v) :
    createSdmUrlConfig url mode = fail .offset ↔ v.withOffset (c.prefixLen - c.offset) = none := by
  have hconf : createSdmUrlConfig url mode =
      (v.withOffset (c.prefixLen - c.offset)).elim (fail .offset) fun verifier =>
        .ok (c, verifier) := by
    rw [createSdmUrlConfig, h]
    change (mapError ProvisioningError.sdmError (ofExcept (Verifier.tryNew c.sdmSettings mode)) >>=
      _) = _
    rw [hv]
    simp only [Outcome.ofExcept, mapError, Except.ok_bind']
    cases v.withOffset (c.prefixLen - c.offset) <;> rfl
  rw [hconf]
  cases v.withOffset (c.prefixLen - c.offset) with
  | none => exact iff_of_true rfl rfl
  | some v' => exact iff_of_false (by rintro ⟨⟩) (by rintro ⟨⟩)

/-- **Moving a compiled template to its URL.** The settings of every accepted template form a
verifier. It can be moved to the URL exactly when every placeholder and marker of the template
starts in the first 256 bytes of the URL; under the options of provisioning, these are the
templates for which `create_sdm_url_config` does not report `Offset`. -/
theorem withOffset_compiled_iff {url : String} (h : sdmUrlConfig url mode opts = .ok c) :
    (∃ v, Verifier.tryNew c.sdmSettings mode = .ok v ∧
      ((∃ v', v.withOffset (c.prefixLen - c.offset) = some v') ↔
        WithinReach mode url.toList)) ∧
    (opts = provisioningOptions →
      (createSdmUrlConfig url mode ≠ fail .offset ↔ WithinReach mode url.toList)) := by
  obtain ⟨_, _, _, _, ha⟩ := sdmUrlConfig_assembled h
  obtain ⟨fr, hfr, -⟩ := ha.fileRead
  have hv : Verifier.tryNew c.sdmSettings mode = .ok ((c.layout mode).verifier fr) :=
    Verifier.tryNew_eq_verifier hfr
  have hmove := exists_withOffset_iff h hv
  refine ⟨⟨_, hv, hmove⟩, ?_⟩
  rintro rfl
  rw [Ne, createSdmUrlConfig_eq_offset_iff h hv, ← Ne, Option.ne_none_iff_exists']
  exact hmove

/-- A file of 256 bytes with the tamper status at its end: in the URL it starts at byte 259. -/
def longTemplate : String :=
  "https://www.example.com/" ++ String.ofList (List.replicate 196 'a') ++ "?u={uid}&m={mac}&t={tt}"

/-- The compiler accepts a template whose verifier cannot be moved to the URL. -/
theorem withOffset_longTemplate :
    ∃ c v, sdmUrlConfig longTemplate .lrp provisioningOptions = .ok c ∧
      Verifier.tryNew c.sdmSettings .lrp = .ok v ∧
      v.withOffset (c.prefixLen - c.offset) = none ∧
      createSdmUrlConfig longTemplate .lrp = fail .offset := by
  have hfail : createSdmUrlConfig longTemplate .lrp = fail .offset := by
    decide +kernel
  obtain ⟨c, hc⟩ := exists_sdmUrlConfig_of_offset hfail
  obtain ⟨_, _, _, _, ha⟩ := sdmUrlConfig_assembled hc
  obtain ⟨fr, hfr, -⟩ := ha.fileRead
  have hv : Verifier.tryNew c.sdmSettings .lrp = .ok ((c.layout .lrp).verifier fr) :=
    Verifier.tryNew_eq_verifier hfr
  exact ⟨c, _, hc, hv, (createSdmUrlConfig_eq_offset_iff hc hv).mp hfail, hfail⟩

/-- A short template can be moved. -/
theorem withOffset_compiled_iff_short :
    ∃ c, sdmUrlConfig "https://www.example.com/?u={uid}&m={mac}" .lrp provisioningOptions = .ok c ∧
      (∃ v, Verifier.tryNew c.sdmSettings .lrp = .ok v ∧
        ((∃ v', v.withOffset (c.prefixLen - c.offset) = some v') ↔
          WithinReach .lrp "https://www.example.com/?u={uid}&m={mac}".toList)) ∧
      (provisioningOptions = provisioningOptions →
        (createSdmUrlConfig "https://www.example.com/?u={uid}&m={mac}" .lrp ≠ fail .offset ↔
          WithinReach .lrp "https://www.example.com/?u={uid}&m={mac}".toList)) := by
  have hok : (sdmUrlConfig "https://www.example.com/?u={uid}&m={mac}" .lrp
      provisioningOptions).isOk = true := by
    decide +kernel
  obtain ⟨c, hc⟩ := Except.isOk_iff.mp hok
  exact ⟨c, hc, withOffset_compiled_iff hc⟩

end SdmUrl

end Ntag424
