import Mathlib.Tactic.Common
import Ntag424.SdmUrl.CompilerTotality

/-!
# Rejected Layouts

`map_runtime_error` reports every layout that the settings constructors reject as
`MacInputAfterMac`, whatever their error was.

A template that parses and fits has offsets in range, a range of whole blocks and placeholders
that do not overlap, so only two things can still be wrong with its layout: the encrypted range
leaves the MAC window, or the tamper placeholder reaches into the ciphertext half of the range.
The parser knows that the window is not reversed, so the reported error is never the real one.

## Main results

* `Parses.tryNew_verdict`: `Sdm::try_new` accepts the layout of a parsed template exactly when
  its marks are well placed, and what it reports otherwise.
* `rejections_reported_iff`: rejections are reported with their cause exactly on the templates
  that have none.
-/

namespace Ntag424

namespace SdmUrl

open Outcome

variable {mode : CryptoMode} {opts : SdmUrlOptions} {parsed : ParsedTemplate}
  {rest body : List Char} {ms : List (Mark × ℕ)}

/-! ### What the parser guarantees -/

/-- What an accepted template is: a reading, its marks in the slots, a MAC window that is not
reversed, and a range of whole blocks that comes with both mirrors. -/
structure Parses (mode : CryptoMode) (parsed : ParsedTemplate) (rest : List Char)
    (ms : List (Mark × ℕ)) (body : List Char) : Prop where
  renders : Renders mode false rest uriAt ms body
  content : parsed.uriContent = Utf8.encode body
  slot : ∀ m ≠ .macStart, ∀ o, parsed.slot m = some o ↔ (m, o) ∈ ms
  macInput : ∀ o, (.macStart, o) ∈ ms → parsed.macInput = o
  macInput_default : (∀ o, (Mark.macStart, o) ∉ ms) → parsed.macInput = uriAt
  exclusive : parsed.picc.isSome → parsed.uidOffset = none ∧ parsed.ctrOffset = none
  window : parsed.macInput ≤ parsed.macOffset
  range : ∀ s e, parsed.encRange = some (s, e) → s < e ∧ (e - s) % 32 = 0
  mirrors : parsed.encRange.isSome → parsed.includesUid = true ∧ parsed.includesCtr = true

theorem parses_of_parseTemplate {cap start : ℕ} {url : List UInt8}
    (hrest : url.drop start = Utf8.encode rest)
    (h : parseTemplate cap mode url start = .ok parsed) :
    ∃ ms body, Parses mode parsed rest ms body := by
  obtain ⟨ms, body, hr, hcontent, hslot, hinput, hdefault, hexcl⟩ := parseTemplate_sound hrest h
  obtain ⟨st, -, hfinish⟩ := Except.bind_eq_ok_iff.mp h
  obtain ⟨hwindow, hrange, hmirrors⟩ := finishTemplate_checks hfinish
  exact ⟨ms, body, hr, hcontent, hslot, hinput, hdefault, hexcl, hwindow, hrange, hmirrors⟩

/-! ### Settings of a parsed template -/

/-- The file position of every range of settings is the position of a fill of these kinds. -/
def OfFills (mode : CryptoMode) (ms : List (Mark × ℕ)) (kind : Placeholder → Prop)
    (range : PlaceholderRange) : Prop :=
  ∀ r ∈ range, ∃ p, kind p ∧ (.fill p, r.1) ∈ ms ∧ r.2 = placeholderFillLen mode p

/-- Fills of different kinds do not overlap. -/
theorem checkOverlap_of_fills (hr : Renders mode false rest uriAt ms body)
    {a b : PlaceholderRange} {ka kb : Placeholder → Prop} (ha : OfFills mode ms ka a)
    (hb : OfFills mode ms kb b) (hkinds : ∀ p, ka p → ¬ kb p) (kind : OverlapKind) :
    checkOverlap a b kind = .ok () := by
  refine checkOverlap_eq_ok_iff.mpr fun r hra s hsb => ?_
  obtain ⟨p, hp, hmp, hwp⟩ := ha r hra
  obtain ⟨q, hq, hmq, hwq⟩ := hb s hsb
  rw [hwp, hwq]
  refine hr.apart_marks hmp hmq fun h => ?_
  obtain rfl : p = q := Mark.fill.inj (Prod.mk.inj h).1
  exact hkinds p hp hq

/-- The fills of one kind, as the range of a position. -/
theorem ofFills_some {kind : Placeholder → Prop} {p : Placeholder} {o len : ℕ} (hkind : kind p)
    (ho : (.fill p, o) ∈ ms) (hlen : len = placeholderFillLen mode p) :
    OfFills mode ms kind (some (o, len)) := by
  rintro _ ⟨⟩
  exact ⟨p, hkind, ho, hlen⟩

theorem ofFills_none {kind : Placeholder → Prop} : OfFills mode ms kind none := nofun

namespace Parses

/-- The position of a mark in the file of a short template is an offset. -/
theorem exists_offset (h : Parses mode parsed rest ms body)
    (hshort : parsed.uriContent.length ≤ 256) {m : Mark} (hm : m ≠ .macStart) {o : ℕ}
    (ho : parsed.slot m = some o) :
    ∃ offset : Offset, offset.val = o ∧ (m, offset.val) ∈ ms ∧
      ∀ name, tryOffset o name = .ok offset := by
  have hmem := (h.slot m hm o).mp ho
  have hle := (h.renders.marks_bounds hmem).2
  rw [← h.content] at hle
  have huri : uriAt = 7 := rfl
  exact ⟨⟨o, by omega⟩, rfl, hmem, fun name => tryOffset_eq_ok_iff.mpr rfl⟩

/-- The start of the MAC window is an offset as well, since it lies in front of the MAC. -/
theorem exists_slot (h : Parses mode parsed rest ms body)
    (hshort : parsed.uriContent.length ≤ 256) {m : Mark} {o : ℕ} (ho : parsed.slot m = some o) :
    ∃ offset : Offset, offset.val = o := by
  by_cases hm : m = .macStart
  · subst hm
    obtain rfl : parsed.macInput = o := Option.some.inj ho
    obtain ⟨mac, hmac, -, -⟩ := h.exists_offset hshort (show Mark.fill .mac ≠ .macStart by nofun)
      (show parsed.slot (.fill .mac) = some parsed.macOffset from rfl)
    have hle := mac.le_max
    have hwindow := h.window
    exact ⟨⟨parsed.macInput, by omega⟩, rfl⟩
  · obtain ⟨offset, hval, -, -⟩ := h.exists_offset hshort hm ho
    exact ⟨offset, hval⟩

theorem exists_optional (h : Parses mode parsed rest ms body)
    (hshort : parsed.uriContent.length ≤ 256) {m : Mark} (hm : m ≠ .macStart) :
    ∃ offset : Option Offset, offset.map Offset.val = parsed.slot m ∧
      (∀ o ∈ offset, (m, o.val) ∈ ms) ∧
      ∀ name, (parsed.slot m).mapM (tryOffset · name) = .ok offset := by
  cases hslot : parsed.slot m with
  | none => exact ⟨none, rfl, nofun, fun _ => rfl⟩
  | some o =>
      obtain ⟨offset, hval, hmem, htry⟩ := h.exists_offset hshort hm hslot
      refine ⟨some offset, by rw [Option.map_some, hval], ?_, fun name => ?_⟩
      · rintro _ ⟨⟩
        exact hmem
      · rw [Option.mapM_some, htry]
        rfl

/-- **The identity data** of a short template sits in its fills. -/
theorem exists_piccData (h : Parses mode parsed rest ms body)
    (hshort : parsed.uriContent.length ≤ 256) (opts : SdmUrlOptions) :
    ∃ piccData, buildPiccData opts parsed = .ok piccData ∧
      OfFills mode ms (· = .uid) (uidRange piccData) ∧
      OfFills mode ms (· = .ctr) (rctrRange piccData) ∧
      OfFills mode ms (fun p => ∃ content, p = .picc content) (piccRange mode piccData) ∧
      piccData.includesUid = parsed.includesUid ∧ piccData.includesRctr = parsed.includesCtr := by
  rw [buildPiccData]
  cases hpicc : parsed.picc with
  | some p =>
      obtain ⟨off, content⟩ := p
      have hslot : parsed.slot (.fill (.picc content)) = some off := by
        simp [ParsedTemplate.slot, hpicc]
      obtain ⟨offset, -, hmem, htry⟩ := h.exists_offset hshort (by rintro ⟨⟩) hslot
      simp only [htry, Except.ok_bind']
      refine ⟨_, rfl, ofFills_none, ofFills_none, ofFills_some ⟨content, rfl⟩ hmem rfl, ?_⟩
      rw [ParsedTemplate.includesUid, ParsedTemplate.includesCtr, hpicc]
      cases content <;> exact ⟨rfl, rfl⟩
  | none =>
      obtain ⟨uid, hu, huid, hutry⟩ := h.exists_optional hshort
        (show Mark.fill .uid ≠ .macStart by rintro ⟨⟩)
      obtain ⟨ctr, hc, hctr, hctry⟩ := h.exists_optional hshort
        (show Mark.fill .ctr ≠ .macStart by rintro ⟨⟩)
      simp only [ParsedTemplate.slot] at hu hc hutry hctry
      simp only [hutry, hctry, Except.ok_bind']
      refine ⟨_, rfl, ?_⟩
      rw [ParsedTemplate.includesUid, ParsedTemplate.includesCtr, hpicc, ← hu, ← hc]
      cases uid with
      | none =>
          cases ctr with
          | none => exact ⟨ofFills_none, ofFills_none, ofFills_none, rfl, rfl⟩
          | some ctr =>
              exact ⟨ofFills_none, ofFills_some rfl (hctr ctr rfl) rfl, ofFills_none, rfl, rfl⟩
      | some uid =>
          cases ctr with
          | none => exact ⟨ofFills_some rfl (huid uid rfl) rfl, ofFills_none,
              ofFills_none, rfl, rfl⟩
          | some ctr =>
              exact ⟨ofFills_some rfl (huid uid rfl) rfl, ofFills_some rfl (hctr ctr rfl) rfl,
                ofFills_none, rfl, rfl⟩

/-- The length of an encrypted range is a positive number of whole blocks, of 24 bits. -/
theorem exists_encLength (h : Parses mode parsed rest ms body)
    (hshort : parsed.uriContent.length ≤ 256) {s e : ℕ} (hrange : parsed.encRange = some (s, e)) :
    s < e ∧ ∃ length : EncLength, length.val = e - s := by
  obtain ⟨hlt, hblocks⟩ := h.range s e hrange
  have hslot : parsed.slot .encEnd = some e := by
    rw [ParsedTemplate.slot, hrange, Option.map_some]
  obtain ⟨stop, hstop, -, -⟩ := h.exists_offset hshort (by rintro ⟨⟩) hslot
  have hle := stop.le_max
  exact ⟨hlt, ⟨e - s, by omega, hblocks, by omega⟩, rfl⟩

/-- **The MAC window and the encrypted range** of a short template. -/
theorem exists_fileRead (h : Parses mode parsed rest ms body)
    (hshort : parsed.uriContent.length ≤ 256) (opts : SdmUrlOptions) :
    ∃ fr, buildFileRead opts parsed = .ok fr ∧ fr.window.input.val = parsed.macInput ∧
      fr.window.mac.val = parsed.macOffset ∧
      fr.enc.map (fun enc => (enc.start.val, enc.start.val + enc.length.val)) =
        parsed.encRange := by
  obtain ⟨mac, hmac, -, hmactry⟩ :=
    h.exists_offset hshort (show Mark.fill .mac ≠ .macStart by rintro ⟨⟩)
    (show parsed.slot (.fill .mac) = some parsed.macOffset from rfl)
  obtain ⟨input, hinput⟩ := h.exists_slot hshort
    (show parsed.slot .macStart = some parsed.macInput from rfl)
  rw [buildFileRead, tryOffset_eq_ok_iff.mpr hinput, Except.ok_bind', hmactry, Except.ok_bind']
  cases hrange : parsed.encRange with
  | none => exact ⟨_, rfl, hinput, hmac, rfl⟩
  | some range =>
      obtain ⟨s, e⟩ := range
      obtain ⟨hlt, length, hlength⟩ := h.exists_encLength hshort hrange
      have hslot : parsed.slot .encStart = some s := by
        rw [ParsedTemplate.slot, hrange, Option.map_some]
      obtain ⟨start, hstart, -, hstarttry⟩ := h.exists_offset hshort (by rintro ⟨⟩) hslot
      have hsub : (checkedSub e s : Scan ℕ) = .ok (e - s) :=
        checkedSub_eq_ok_iff.mpr ⟨hlt.le, rfl⟩
      simp only [hstarttry, hsub, EncLength.new_eq_ok_iff.mpr hlength, Except.ok_bind']
      refine ⟨_, rfl, hinput, hmac, ?_⟩
      simp only [FileRead.enc, Option.map_some, hstart, hlength, Option.some.injEq, Prod.mk.injEq,
        true_and]
      omega

end Parses

/-! ### Well-placed marks -/

/-- The encrypted range lies behind the start of the MAC window and in front of the MAC. -/
def InWindow (ms : List (Mark × ℕ)) : Prop :=
  (∀ s i, (.encStart, s) ∈ ms → (.macStart, i) ∈ ms → i ≤ s) ∧
    ∀ e m, (.encEnd, e) ∈ ms → (.fill .mac, m) ∈ ms → e ≤ m

/-- A tamper placeholder in the encrypted range ends in the first half of the range. -/
def TamperInPlainHalf (ms : List (Mark × ℕ)) : Prop :=
  ∀ s e t, (.encStart, s) ∈ ms → (.encEnd, e) ∈ ms → (.fill .tt, t) ∈ ms → s ≤ t → t < e →
    t + ttPlaceholderLen ≤ s + (e - s) / 2

/-- **Well-placed marks**: what the parser leaves to the settings constructors. -/
structure WellPlaced (ms : List (Mark × ℕ)) : Prop where
  window : InWindow ms
  tamper : TamperInPlainHalf ms

/-- Moving a reading keeps its marks well placed. -/
theorem wellPlaced_move_iff {pos pos' : ℕ} (hpos : ∀ m o, (m, o) ∈ ms → pos ≤ o) :
    WellPlaced (ms.map fun m => (m.1, m.2 - pos + pos')) ↔ WellPlaced ms := by
  have hmem : ∀ m u, (m, u) ∈ ms.map (fun m => (m.1, m.2 - pos + pos')) ↔
      ∃ o, (m, o) ∈ ms ∧ o + pos' = u + pos := fun m u => mem_move_iff (hpos m)
  have hback : ∀ m o, (m, o) ∈ ms →
      (m, o - pos + pos') ∈ ms.map fun m => (m.1, m.2 - pos + pos') := by
    intro m o ho
    have := hpos m o ho
    exact (hmem m _).mpr ⟨o, ho, by omega⟩
  constructor
  · rintro ⟨⟨hopens, hcloses⟩, htamper⟩
    refine ⟨⟨fun s i hs hi => ?_, fun e m he hm => ?_⟩, fun s e t hs he ht hst hte => ?_⟩
    · have := hopens _ _ (hback _ _ hs) (hback _ _ hi)
      have := hpos _ _ hs
      have := hpos _ _ hi
      omega
    · have := hcloses _ _ (hback _ _ he) (hback _ _ hm)
      have := hpos _ _ he
      have := hpos _ _ hm
      omega
    · have hs' := hpos _ _ hs
      have he' := hpos _ _ he
      have ht' := hpos _ _ ht
      have := htamper _ _ _ (hback _ _ hs) (hback _ _ he) (hback _ _ ht) (by omega) (by omega)
      omega
  · rintro ⟨⟨hopens, hcloses⟩, htamper⟩
    refine ⟨⟨fun s i hs hi => ?_, fun e m he hm => ?_⟩, fun s e t hs he ht hst hte => ?_⟩
    · obtain ⟨s', hs', _⟩ := (hmem _ _).mp hs
      obtain ⟨i', hi', _⟩ := (hmem _ _).mp hi
      have := hopens _ _ hs' hi'
      omega
    · obtain ⟨e', he', _⟩ := (hmem _ _).mp he
      obtain ⟨m', hm', _⟩ := (hmem _ _).mp hm
      have := hcloses _ _ he' hm'
      omega
    · obtain ⟨s', hs', _⟩ := (hmem _ _).mp hs
      obtain ⟨e', he', _⟩ := (hmem _ _).mp he
      obtain ⟨t', ht', _⟩ := (hmem _ _).mp ht
      have := htamper _ _ _ hs' he' ht' (by omega) (by omega)
      omega

namespace Parses

/-- The ends of the encrypted range are its marks. -/
theorem mem_encStart_iff (h : Parses mode parsed rest ms body) {s : ℕ} :
    (.encStart, s) ∈ ms ↔ ∃ e, parsed.encRange = some (s, e) := by
  rw [← h.slot .encStart nofun, ParsedTemplate.slot, Option.map_eq_some_iff]
  constructor
  · rintro ⟨⟨s, e⟩, hrange, rfl⟩
    exact ⟨e, hrange⟩
  · rintro ⟨e, hrange⟩
    exact ⟨_, hrange, rfl⟩

theorem mem_encEnd_iff (h : Parses mode parsed rest ms body) {e : ℕ} :
    (.encEnd, e) ∈ ms ↔ ∃ s, parsed.encRange = some (s, e) := by
  rw [← h.slot .encEnd nofun, ParsedTemplate.slot, Option.map_eq_some_iff]
  constructor
  · rintro ⟨⟨s, e⟩, hrange, rfl⟩
    exact ⟨s, hrange⟩
  · rintro ⟨s, hrange⟩
    exact ⟨_, hrange, rfl⟩

/-- Without a marked start the MAC window starts with the body, in front of everything. -/
theorem macInput_le_iff (h : Parses mode parsed rest ms body) {m : Mark} {o : ℕ}
    (ho : (m, o) ∈ ms) : parsed.macInput ≤ o ↔ ∀ i, (.macStart, i) ∈ ms → i ≤ o := by
  constructor
  · intro hle i hi
    rwa [← h.macInput i hi]
  · intro hall
    by_cases hmark : ∃ i, (Mark.macStart, i) ∈ ms
    · obtain ⟨i, hi⟩ := hmark
      rw [h.macInput i hi]
      exact hall i hi
    · rw [h.macInput_default fun i hi => hmark ⟨i, hi⟩]
      exact (h.renders.marks_bounds ho).1

theorem inWindow_iff (h : Parses mode parsed rest ms body) :
    InWindow ms ↔
      ∀ s e, parsed.encRange = some (s, e) → parsed.macInput ≤ s ∧ e ≤ parsed.macOffset := by
  have hmac : ∀ m, (.fill .mac, m) ∈ ms ↔ parsed.macOffset = m := by
    intro m
    rw [← h.slot (.fill .mac) nofun, ParsedTemplate.slot, Option.some.injEq]
  constructor
  · rintro ⟨hopens, hcloses⟩ s e hrange
    have hs := h.mem_encStart_iff.mpr ⟨e, hrange⟩
    have he := h.mem_encEnd_iff.mpr ⟨s, hrange⟩
    exact ⟨(h.macInput_le_iff hs).mpr fun i hi => hopens s i hs hi,
      hcloses e _ he ((hmac _).mpr rfl)⟩
  · intro hrange
    refine ⟨fun s i hs hi => ?_, fun e m he hm => ?_⟩
    · obtain ⟨e, he⟩ := h.mem_encStart_iff.mp hs
      exact (h.macInput_le_iff hs).mp (hrange s e he).1 i hi
    · obtain ⟨s, hs⟩ := h.mem_encEnd_iff.mp he
      rw [← (hmac m).mp hm]
      exact (hrange s e hs).2

theorem tamperInPlainHalf_iff (h : Parses mode parsed rest ms body) :
    TamperInPlainHalf ms ↔ ∀ s e t, parsed.encRange = some (s, e) → parsed.ttOffset = some t →
      s ≤ t → t < e → t + 2 ≤ s + (e - s) / 2 := by
  have htt : ∀ t, (.fill .tt, t) ∈ ms ↔ parsed.ttOffset = some t := by
    intro t
    rw [← h.slot (.fill .tt) nofun, ParsedTemplate.slot]
  constructor
  · intro htamper s e t hrange ht
    exact htamper s e t (h.mem_encStart_iff.mpr ⟨e, hrange⟩) (h.mem_encEnd_iff.mpr ⟨s, hrange⟩)
      ((htt t).mpr ht)
  · intro hall s e t hs he ht
    obtain ⟨e', hrange⟩ := h.mem_encStart_iff.mp hs
    obtain ⟨s', hrange'⟩ := h.mem_encEnd_iff.mp he
    obtain ⟨rfl, rfl⟩ := Prod.mk.inj (Option.some.inj (hrange.symm.trans hrange'))
    exact hall s _ t hrange ((htt t).mp ht)

end Parses

/-! ### The verdict of the settings constructors -/

/-- The settings built for a template, before they are checked as a whole. -/
structure Built (opts : SdmUrlOptions) (parsed : ParsedTemplate) (pd : PiccData) (fr : FileRead)
    (tt : Option Offset) : Prop where
  piccData : buildPiccData opts parsed = .ok pd
  fileRead : buildFileRead opts parsed = .ok fr
  tamperStatus : parsed.ttOffset.mapM (tryOffset · "tt_offset") = .ok tt

/-- The encrypted range of a file-read configuration, as it is compared. -/
theorem encRange_eq (fr : FileRead) :
    encRange (some fr) = fr.enc.map fun enc => (enc.start.val, enc.length.val) := by
  cases fr <;> rfl

namespace Parses

variable {pd : PiccData} {fr : FileRead} {tt : Option Offset}

/-- The range is compared with the MAC window first, and its mirrors are there. -/
theorem checkEncRange_verdict (h : Parses mode parsed rest ms body)
    (hinput : fr.window.input.val = parsed.macInput) (hmac : fr.window.mac.val = parsed.macOffset)
    (henc : fr.enc.map (fun enc => (enc.start.val, enc.start.val + enc.length.val)) =
      parsed.encRange)
    (huid : pd.includesUid = parsed.includesUid) (hctr : pd.includesRctr = parsed.includesCtr) :
    checkEncRange pd (some fr) = .ok () ∧ InWindow ms ∨
      checkEncRange pd (some fr) = .error .encOutsideMacWindow ∧ ¬ InWindow ms := by
  rw [h.inWindow_iff, ← henc, ← hinput, ← hmac]
  cases fr with
  | macOnly key window => exact .inl ⟨rfl, nofun⟩
  | macAndEnc key window enc =>
      obtain ⟨hu, hc⟩ := h.mirrors (by rw [← henc]; rfl)
      simp only [FileRead.enc, FileRead.window, Option.map_some, Option.some.injEq, Prod.mk.injEq,
        checkEncRange, huid, hctr, hu, hc]
      split
      · rename_i hout
        refine .inr ⟨rfl, fun hin => ?_⟩
        have := hin _ _ ⟨rfl, rfl⟩
        omega
      · rename_i hin
        refine .inl ⟨rfl, ?_⟩
        rintro _ _ ⟨rfl, rfl⟩
        omega

/-- A tamper placeholder is inside the range or apart from it. -/
theorem checkTamperHalf_verdict (h : Parses mode parsed rest ms body)
    (henc : fr.enc.map (fun enc => (enc.start.val, enc.start.val + enc.length.val)) =
      parsed.encRange)
    (htt : tt.map Offset.val = parsed.ttOffset) :
    checkTamperHalf (ttRange tt) (encRange (some fr)) = .ok () ∧ TamperInPlainHalf ms ∨
      checkTamperHalf (ttRange tt) (encRange (some fr)) =
          .error (.mirrorsOverlap .tamperInCiphertextHalf) ∧ ¬ TamperInPlainHalf ms := by
  rw [h.tamperInPlainHalf_iff, encRange_eq]
  cases tt with
  | none =>
      rw [← htt]
      exact .inl ⟨rfl, nofun⟩
  | some tt =>
      cases hfr : fr.enc with
      | none =>
          rw [← henc, hfr]
          exact .inl ⟨rfl, nofun⟩
      | some enc =>
          rw [hfr, Option.map_some] at henc
          have hmem : (.fill .tt, tt.val) ∈ ms := (h.slot (.fill .tt) nofun _).mp htt.symm
          have hs : (.encStart, enc.start.val) ∈ ms := h.mem_encStart_iff.mpr ⟨_, henc.symm⟩
          have he : (.encEnd, enc.start.val + enc.length.val) ∈ ms :=
            h.mem_encEnd_iff.mpr ⟨_, henc.symm⟩
          have hapart := h.renders.apart_marks hmem hs nofun
          have hapart' := h.renders.apart_marks hmem he nofun
          simp only [Mark.width, placeholderFillLen] at hapart hapart'
          simp only [← henc, ← htt, Option.map_some, Option.some.injEq, Prod.mk.injEq,
            checkTamperHalf, ttRange, ttPlaceholderLen]
          split
          · rename_i hoverlap
            have hinside : enc.start.val ≤ tt.val ∧ tt.val < enc.start.val + enc.length.val := by
              by_contra hno
              have := rangesOverlap_eq_false_iff.mpr
                (show tt.val + 2 ≤ enc.start.val ∨ enc.start.val + enc.length.val ≤ tt.val by omega)
              rw [hoverlap] at this
              cases this
            split
            · refine .inr ⟨rfl, fun hall => ?_⟩
              have := hall _ _ _ ⟨rfl, rfl⟩ rfl hinside.1 hinside.2
              omega
            · refine .inl ⟨rfl, ?_⟩
              rintro _ _ _ ⟨rfl, rfl⟩ rfl _ _
              omega
          · rename_i hoverlap
            refine .inl ⟨rfl, ?_⟩
            rintro _ _ _ ⟨rfl, rfl⟩ rfl hle hlt
            have := rangesOverlap_eq_false_iff.mp (Bool.eq_false_iff.mpr hoverlap)
            omega

/-- A fill other than the tamper placeholder is apart from the encrypted range. -/
theorem checkOverlap_enc (h : Parses mode parsed rest ms body)
    (henc : fr.enc.map (fun enc => (enc.start.val, enc.start.val + enc.length.val)) =
      parsed.encRange)
    {r : PlaceholderRange} {kind : Placeholder → Prop} (hr : OfFills mode ms kind r)
    (hkind : ∀ p, kind p → p ≠ .tt) (o : OverlapKind) :
    checkOverlap (encRange (some fr)) r o = .ok () ∧
      checkOverlap r (encRange (some fr)) o = .ok () := by
  have hapart : ∀ x ∈ encRange (some fr), ∀ y ∈ r, y.1 + y.2 ≤ x.1 ∨ x.1 + x.2 ≤ y.1 := by
    intro x hx y hy
    rw [encRange_eq] at hx
    obtain ⟨enc, hfr, rfl⟩ := Option.map_eq_some_iff.mp hx
    rw [hfr, Option.map_some] at henc
    obtain ⟨p, hp, hmem, hlen⟩ := hr y hy
    obtain ⟨e, he, -, hout⟩ := h.renders.fill_outside (h.mem_encStart_iff.mpr ⟨_, henc.symm⟩)
    obtain ⟨s, hs⟩ := h.mem_encEnd_iff.mp he
    obtain ⟨-, rfl⟩ := Prod.mk.inj (Option.some.inj (henc.trans hs))
    rw [hlen]
    exact hout p (hkind p hp) _ hmem
  refine ⟨checkOverlap_eq_ok_iff.mpr fun x hx y hy => (hapart x hx y hy).symm,
    checkOverlap_eq_ok_iff.mpr fun y hy x hx => hapart x hx y hy⟩

/-- **The verdict of `Sdm::try_new`** on the layout of a short template: it is accepted exactly
when the marks are well placed; otherwise the range leaves the MAC window, or the tamper
placeholder reaches into its ciphertext half. -/
theorem tryNew_verdict (h : Parses mode parsed rest ms body)
    (hshort : parsed.uriContent.length ≤ 256) (opts : SdmUrlOptions) :
    ∃ pd fr tt, Built opts parsed pd fr tt ∧
      ((∃ s, Sdm.tryNew pd (some fr) tt mode = .ok s) ∧ WellPlaced ms ∨
        ¬ WellPlaced ms ∧ ∃ e, Sdm.tryNew pd (some fr) tt mode = .error e ∧
          (e = .encOutsideMacWindow ∨ e = .mirrorsOverlap .tamperInCiphertextHalf)) := by
  obtain ⟨pd, hpd, huid, hctr, hpicc, hincUid, hincCtr⟩ := h.exists_piccData hshort opts
  obtain ⟨fr, hfr, hinput, hmac, henc⟩ := h.exists_fileRead hshort opts
  obtain ⟨tt, htt, httMem, httTry⟩ := h.exists_optional hshort
    (show Mark.fill .tt ≠ .macStart by nofun)
  have htamper : OfFills mode ms (· = .tt) (ttRange tt) := by
    cases tt with
    | none => exact ofFills_none
    | some tt => exact ofFills_some rfl (httMem tt rfl) rfl
  have hmacFill : OfFills mode ms (· = .mac) (macRange (some fr)) :=
    ofFills_some rfl ((h.slot (.fill .mac) nofun _).mp (by rw [hmac]; rfl)) rfl
  refine ⟨pd, fr, tt, ⟨hpd, hfr, httTry _⟩, ?_⟩
  have hr := h.renders
  have hwindow : checkMacWindow (some fr) = .ok () := by
    refine checkMacWindow_eq_ok_iff.mpr ?_
    rintro _ ⟨⟩
    rw [hinput, hmac]
    exact h.window
  have hinner : Sdm.checkInner pd (some fr) tt = (do
      checkEncRange pd (some fr)
      checkTamperHalf (ttRange tt) (encRange (some fr))) := by
    simp only [Sdm.checkInner, hwindow, Except.ok_bind',
      checkOverlap_of_fills hr huid hctr (by rintro _ rfl; nofun),
      checkOverlap_of_fills hr huid htamper (by rintro _ rfl; nofun),
      checkOverlap_of_fills hr hctr htamper (by rintro _ rfl; nofun),
      checkOverlap_of_fills hr huid hmacFill (by rintro _ rfl; nofun),
      checkOverlap_of_fills hr hctr hmacFill (by rintro _ rfl; nofun),
      checkOverlap_of_fills hr htamper hmacFill (by rintro _ rfl; nofun),
      (h.checkOverlap_enc henc huid (by rintro _ rfl; nofun) _).1,
      (h.checkOverlap_enc henc hctr (by rintro _ rfl; nofun) _).1]
  have hblob : Sdm.checkPicc pd (some fr) tt mode = .ok () := by
    simp only [Sdm.checkPicc, Except.ok_bind',
      checkOverlap_of_fills hr hpicc htamper (by rintro _ ⟨_, rfl⟩; nofun),
      checkOverlap_of_fills hr hpicc hmacFill (by rintro _ ⟨_, rfl⟩; nofun),
      (h.checkOverlap_enc henc hpicc (by rintro _ ⟨_, rfl⟩; nofun) _).2]
  simp only [Sdm.tryNew_eq_error_iff, hblob, hinner]
  rcases h.checkEncRange_verdict hinput hmac henc hincUid hincCtr with
    ⟨hrange, hin⟩ | ⟨hrange, hout⟩
  · rw [hrange, Except.ok_bind'] at hinner
    rw [hrange, Except.ok_bind']
    rcases h.checkTamperHalf_verdict henc htt with ⟨hhalf, hplain⟩ | ⟨hhalf, hcipher⟩
    · refine .inl ⟨?_, hin, hplain⟩
      exact ⟨⟨pd, some fr, tt, by rw [hinner, hhalf]⟩,
        Sdm.tryNew_eq_ok_iff.mpr ⟨⟨rfl, rfl, rfl⟩, hblob⟩⟩
    · exact .inr ⟨fun hw => hcipher hw.tamper, _, .inl hhalf, .inr rfl⟩
  · refine .inr ⟨fun hw => hout hw.window, _, .inl ?_, .inl rfl⟩
    rw [hrange]
    rfl

end Parses

/-! ### How a rejection is reported -/

/-- A template that `parse_template` accepts and whose file fits the buffer and the limit. -/
def Accepted (url : String) (mode : CryptoMode) (opts : SdmUrlOptions) (parsed : ParsedTemplate) :
    Prop :=
  parseTemplate defaultConstPlanCapacity mode (Utf8.encode url.toList)
      (detectUriPrefix (Utf8.encode url.toList)).2 = .ok parsed ∧
    7 + parsed.uriContent.length ≤ defaultConstPlanCapacity ∧
    7 + parsed.uriContent.length ≤ opts.maxFileSize

/-- The layout of an accepted template is rejected, by `Offset::new` at one of its positions, by
`EncLength::new` or by `Sdm::try_new`. -/
inductive Rejected (url : String) (mode : CryptoMode) (opts : SdmUrlOptions) :
    FileSettingsError → Prop
  | offset {parsed : ParsedTemplate} {m : Mark} {o : ℕ} {e : FileSettingsError} :
      Accepted url mode opts parsed → parsed.slot m = some o → Offset.new o = .error e →
      Rejected url mode opts e
  | encLength {parsed : ParsedTemplate} {start stop : ℕ} {e : FileSettingsError} :
      Accepted url mode opts parsed → parsed.encRange = some (start, stop) →
      EncLength.new (stop - start) = .error e → Rejected url mode opts e
  | settings {parsed : ParsedTemplate} {pd : PiccData} {fr : FileRead} {tt : Option Offset}
      {e : FileSettingsError} :
      Accepted url mode opts parsed → Built opts parsed pd fr tt →
      Sdm.tryNew pd (some fr) tt mode = .error e → Rejected url mode opts e

/-- The error that names the cause of a rejection. -/
def reportedAs : FileSettingsError → SdmUrlError
  | .encRequiresBothMirrors => .encFileDataRequiresUidAndCtr
  | e => .fileSettings e

theorem Accepted.short {url : String} (h : Accepted url mode opts parsed) :
    parsed.uriContent.length ≤ 256 := by
  have := h.2.1
  rw [defaultConstPlanCapacity] at this
  omega

/-- What an accepted template reads, in the file and in the URL. -/
theorem Accepted.exists_parses {url : String} (h : Accepted url mode opts parsed) :
    ∃ rest ms body ms' out, Parses mode parsed rest ms body ∧
      Renders mode false url.toList 0 ms' out ∧ (WellPlaced ms' ↔ WellPlaced ms) := by
  obtain ⟨text, rest, -, hlen, htext, hplain⟩ :=
    detectUriPrefix_spec (Prod.eta (detectUriPrefix (Utf8.encode url.toList))).symm
  have hdrop : (Utf8.encode url.toList).drop (detectUriPrefix (Utf8.encode url.toList)).2 =
      Utf8.encode rest := by
    rw [hlen, htext, Utf8.drop_encode_append]
  obtain ⟨ms, body, hp⟩ := parses_of_parseTemplate hdrop h.1
  have hr := hp.renders.move (Utf8.encode text.toList).length
  rw [← Nat.zero_add (Utf8.encode text.toList).length] at hr
  exact ⟨rest, ms, body, _, _, hp, htext ▸ hr.append_plain hplain,
    wellPlaced_move_iff fun m o hm => (hp.renders.marks_bounds hm).1⟩

/-- `sdm_url_config` on settings that `Sdm::try_new` rejects. -/
theorem sdmUrlConfig_of_rejected {url : String} (h : Accepted url mode opts parsed)
    {pd : PiccData} {fr : FileRead} {tt : Option Offset} (hb : Built opts parsed pd fr tt)
    {e : FileSettingsError} (he : Sdm.tryNew pd (some fr) tt mode = .error e) :
    sdmUrlConfig url mode opts =
      .error (mapRuntimeError (Utf8.encode url.toList) (settingsError e)) := by
  obtain ⟨hparse, hcap, hmax⟩ := h
  have hcore : buildSdmNdefPlanCore defaultConstPlanCapacity (Utf8.encode url.toList) mode opts =
      fail (settingsError e) := by
    rw [buildSdmNdefPlanCore]
    generalize detectUriPrefix (Utf8.encode url.toList) = detected at hparse ⊢
    obtain ⟨code, start⟩ := detected
    have hheader : pushAll defaultConstPlanCapacity []
        (ndefHeader (1 + parsed.uriContent.length) code) =
        .ok (ndefHeader (1 + parsed.uriContent.length) code) :=
      (pushAll_eq_ok_iff (Nat.zero_le _)).mpr ⟨by simp [ndefHeader, defaultConstPlanCapacity], rfl⟩
    have hbody : extendBytes defaultConstPlanCapacity
        (ndefHeader (1 + parsed.uriContent.length) code) parsed.uriContent 0
        parsed.uriContent.length =
        .ok (ndefHeader (1 + parsed.uriContent.length) code ++ parsed.uriContent) := by
      rw [extendBytes_eq (by omega), slice_zero_length]
      refine (pushAll_eq_ok_iff ?_).mpr ⟨?_, rfl⟩
      · simp [ndefHeader, defaultConstPlanCapacity]
      · simpa [ndefHeader] using hcap
    rw [defaultConstPlanCapacity] at hcap
    simp only at hparse
    simp only [hparse, Except.ok_bind']
    rw [if_neg (by omega), if_neg (by omega), hheader, Except.ok_bind', hbody, Except.ok_bind',
      hb.piccData, Except.ok_bind', hb.fileRead, Except.ok_bind', hb.tamperStatus, Except.ok_bind',
      he]
  rw [sdmUrlConfig, hcore]
  rfl

/-- **Rejections and their causes.** A rejected layout is reported with the error it was rejected
with exactly on the templates that are never rejected: those that the parser refuses, that are
too long, or whose marks are well placed. -/
theorem rejections_reported_iff (url : String) (mode : CryptoMode) (opts : SdmUrlOptions) :
    (∀ e, Rejected url mode opts e → sdmUrlConfig url mode opts = fail (reportedAs e)) ↔
      ((∃ parsed, Accepted url mode opts parsed) →
        ∀ ms out, Renders mode false url.toList 0 ms out → WellPlaced ms) := by
  constructor
  · rintro hreport ⟨parsed, hacc⟩ ms out hr
    obtain ⟨rest, ms', body, ms'', out', hp, hr', hiff⟩ := hacc.exists_parses
    rw [(hr.unique hr').1, hiff]
    obtain ⟨pd, fr, tt, hb, ⟨-, hw⟩ | ⟨-, e, he, hcause⟩⟩ := hp.tryNew_verdict hacc.short opts
    · exact hw
    · have hgot := sdmUrlConfig_of_rejected hacc hb he
      rw [hreport e (.settings hacc hb he)] at hgot
      rcases hcause with rfl | rfl <;> cases hgot
  · intro hplaced e hrej
    exfalso
    cases hrej with
    | offset hacc hslot he =>
        obtain ⟨_, _, _, _, _, hp, -, -⟩ := hacc.exists_parses
        obtain ⟨offset, hval⟩ := hp.exists_slot hacc.short hslot
        rw [Offset.new_eq_ok_iff.mpr hval] at he
        cases he
    | encLength hacc hrange he =>
        obtain ⟨_, _, _, _, _, hp, -, -⟩ := hacc.exists_parses
        obtain ⟨-, length, hlength⟩ := hp.exists_encLength hacc.short hrange
        rw [EncLength.new_eq_ok_iff.mpr hlength] at he
        cases he
    | settings hacc hb he =>
        obtain ⟨_, _, _, ms', out', hp, hr', hiff⟩ := hacc.exists_parses
        have hw := hiff.mp (hplaced ⟨_, hacc⟩ ms' out' hr')
        obtain ⟨pd, fr, tt, hb', ⟨⟨s, hs⟩, -⟩ | ⟨hno, -⟩⟩ := hp.tryNew_verdict hacc.short opts
        · obtain rfl := Except.ok.inj (hb.piccData.symm.trans hb'.piccData)
          obtain rfl := Except.ok.inj (hb.fileRead.symm.trans hb'.fileRead)
          obtain rfl := Except.ok.inj (hb.tamperStatus.symm.trans hb'.tamperStatus)
          cases he.symm.trans hs
        · exact hno hw

/-- A template with the encrypted range behind the MAC. -/
def rangeBehindMac : String :=
  "https://example.com/?u={uid}&c={ctr}&m={mac}&e=[" ++ String.ofList (List.replicate 32 'x') ++ "]"

/-- A range outside of the MAC window is reported as a reversed MAC window. -/
theorem rangeBehindMac_misreported :
    Rejected rangeBehindMac .aes {} .encOutsideMacWindow ∧
      sdmUrlConfig rangeBehindMac .aes {} = fail (.fileSettings .macInputAfterMac) ∧
      sdmUrlConfig rangeBehindMac .aes {} ≠ fail (reportedAs .encOutsideMacWindow) := by
  have hconfig : sdmUrlConfig rangeBehindMac .aes {} = fail (.fileSettings .macInputAfterMac) := by
    decide +kernel
  refine ⟨?_, hconfig, by rw [hconfig]; nofun⟩
  have hparse : parseTemplate defaultConstPlanCapacity .aes (Utf8.encode rangeBehindMac.toList)
      (detectUriPrefix (Utf8.encode rangeBehindMac.toList)).2 =
      .ok ⟨Utf8.encode ("example.com/?u=00000000000000&c=000000&m=0000000000000000&e=" ++
          String.ofList (List.replicate 32 '0')).toList,
        some 22, some 39, none, none, 48, 7, some (67, 99)⟩ := by
    decide +kernel
  refine .settings ⟨hparse, by decide +kernel, by decide +kernel⟩
    ⟨rfl, rfl, rfl⟩ (by decide +kernel)

end SdmUrl

end Ntag424
