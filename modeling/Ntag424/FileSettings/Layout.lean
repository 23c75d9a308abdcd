import Mathlib.Data.Set.BooleanAlgebra
import Mathlib.Order.CompletePartialOrder
import Mathlib.Order.Interval.Set.Disjoint
import Mathlib.Tactic.Common
import Ntag424.FileSettings.Sdm

/-!
# The Layout of SDM Placeholders

What a valid SDM layout is, in the words of the module documentation and independent of how
the code checks it: every placeholder owns a set of file positions, the sets are pairwise
disjoint, the encrypted range lies in the MAC window, and only the tamper placeholder may
share positions with the encrypted range, inside its plaintext half.

The validation of `Sdm::try_new` is then compared with this definition. It accepts exactly
the valid layouts, and in addition the layouts in which the tamper placeholder straddles the
start of the encrypted range: the code compares only the end of the placeholder with the end
of the plaintext half.

## Main results

* `Sdm.checks_eq_ok_iff`: the checks accept exactly the layouts that are valid apart from the
  pair tamper/encrypted range, where the one-sided comparison holds.
* `Sdm.tryNew_isOk_iff_valid_iff`: validation agrees with the definition of a valid layout
  exactly on the layouts without a straddling tamper placeholder.
-/

namespace Ntag424

/-! ### Placeholders as sets of positions -/

/-- The placeholders an SDM configuration can have in the file. -/
inductive Placeholder where
  | uid
  | readCtr
  | picc
  | tamper
  | mac
  | enc
deriving DecidableEq, Repr

/-- The file positions of a range. -/
def PlaceholderRange.positions : PlaceholderRange → Set ℕ
  | none => ∅
  | some (start, len) => Set.Ico start (start + len)

/-- The SDM parameters that determine a layout. -/
structure Layout where
  piccData : PiccData
  fileRead : Option FileRead
  tamperStatus : Option Offset
  mode : CryptoMode

namespace Layout

/-- The range of a placeholder, if the configuration has it. -/
def range (l : Layout) : Placeholder → PlaceholderRange
  | .uid => uidRange l.piccData
  | .readCtr => rctrRange l.piccData
  | .picc => piccRange l.mode l.piccData
  | .tamper => ttRange l.tamperStatus
  | .mac => macRange l.fileRead
  | .enc => encRange l.fileRead

/-- The file positions a placeholder owns. -/
def owned (l : Layout) (p : Placeholder) : Set ℕ := (l.range p).positions

/-- The positions of the plaintext half of the encrypted range. -/
def plainHalf (l : Layout) : Set ℕ :=
  match l.range .enc with
  | none => ∅
  | some (start, len) => Set.Ico start (start + len / 2)

/-- The MAC window and the encrypted range are consistent: the window is not reversed, the
encrypted range lies inside it, and file data is only encrypted when UID and counter are both
mirrored. -/
structure WindowValid (l : Layout) : Prop where
  input_le_mac : ∀ fr ∈ l.fileRead, fr.window.input.val ≤ fr.window.mac.val
  enc_subset : ∀ fr ∈ l.fileRead, fr.enc.isSome →
    l.owned .enc ⊆ Set.Ico fr.window.input.val fr.window.mac.val
  enc_mirrors : ∀ fr ∈ l.fileRead, fr.enc.isSome →
    l.piccData.includesUid = true ∧ l.piccData.includesRctr = true

/-- Every two placeholders are disjoint, leaving the pair tamper/encrypted range aside. -/
def DisjointOutsideEnc (l : Layout) : Prop :=
  ∀ p q, p ≠ q → ¬ (p = .tamper ∧ q = .enc) → ¬ (p = .enc ∧ q = .tamper) →
    Disjoint (l.owned p) (l.owned q)

/-- The tamper placeholder avoids the encrypted range or lies in its plaintext half. -/
def TamperValid (l : Layout) : Prop :=
  Disjoint (l.owned .tamper) (l.owned .enc) ∨ l.owned .tamper ⊆ l.plainHalf

/-- A **valid layout**, as the module documentation describes it. -/
structure Valid (l : Layout) : Prop where
  window : l.WindowValid
  disjoint : l.DisjointOutsideEnc
  tamper : l.TamperValid

/-- The tamper placeholder has its first character in front of the encrypted range and its
second one inside it. -/
def TamperStraddles (l : Layout) : Prop :=
  ∃ tt ∈ l.tamperStatus, ∃ fr ∈ l.fileRead, ∃ enc ∈ fr.enc, tt.val + 1 = enc.start.val

end Layout

/-! ### From comparisons to sets -/

/-- The source's comparison of two ranges is disjointness of their positions. -/
theorem disjoint_positions_iff {a b : PlaceholderRange} (ha : ∀ r ∈ a, 0 < r.2)
    (hb : ∀ r ∈ b, 0 < r.2) :
    Disjoint a.positions b.positions ↔
      ∀ r ∈ a, ∀ s ∈ b, r.1 + r.2 ≤ s.1 ∨ s.1 + s.2 ≤ r.1 := by
  rcases a with _ | ⟨a, aLen⟩
  · simp [PlaceholderRange.positions]
  · rcases b with _ | ⟨b, bLen⟩
    · simp [PlaceholderRange.positions]
    · have ha := ha (a, aLen) rfl
      have hb := hb (b, bLen) rfl
      simp only [PlaceholderRange.positions, Set.Ico_disjoint_Ico, Option.mem_def,
        Option.some.injEq, forall_eq']
      omega

namespace Layout

variable (l : Layout)

/-- Every placeholder that is present has at least one position. -/
theorem range_pos (p : Placeholder) : ∀ r ∈ l.range p, 0 < r.2 := by
  obtain ⟨picc, fr, tt, mode⟩ := l
  intro r hr
  cases p with
  | uid =>
      rcases picc with _ | (_ | _ | _) | _ <;> cases hr <;> exact Nat.zero_lt_succ _
  | readCtr =>
      rcases picc with _ | (_ | _ | _) | _ <;> cases hr <;> exact Nat.zero_lt_succ _
  | picc =>
      rcases picc with _ | _ | _ <;> cases hr
      cases mode <;> exact Nat.zero_lt_succ _
  | tamper =>
      cases tt <;> cases hr
      exact Nat.zero_lt_succ _
  | mac =>
      cases fr <;> cases hr
      exact Nat.zero_lt_succ _
  | enc =>
      rcases fr with _ | (_ | ⟨_, _, e⟩) <;> cases hr
      exact e.length.pos

/-- Two placeholders are disjoint exactly when `check!` accepts their ranges. -/
theorem disjoint_owned_iff_checkOverlap (p q : Placeholder) (kind : OverlapKind) :
    checkOverlap (l.range p) (l.range q) kind = .ok () ↔ Disjoint (l.owned p) (l.owned q) := by
  rw [checkOverlap_eq_ok_iff, owned, owned,
    disjoint_positions_iff (l.range_pos p) (l.range_pos q)]

/-- Plain and encrypted mirrors are mutually exclusive. -/
theorem disjoint_picc_uid : Disjoint (l.owned .picc) (l.owned .uid) := by
  obtain ⟨picc, fr, tt, mode⟩ := l
  rcases picc with _ | (_ | _ | _) | _ <;>
    simp [owned, range, piccRange, uidRange, PlaceholderRange.positions]

/-- Plain and encrypted mirrors are mutually exclusive. -/
theorem disjoint_picc_readCtr : Disjoint (l.owned .picc) (l.owned .readCtr) := by
  obtain ⟨picc, fr, tt, mode⟩ := l
  rcases picc with _ | (_ | _ | _) | _ <;>
    simp [owned, range, piccRange, rctrRange, PlaceholderRange.positions]

/-- The window checks of the source are the window conditions of a valid layout. -/
theorem windowValid_iff :
    l.WindowValid ↔
      checkMacWindow l.fileRead = .ok () ∧ checkEncRange l.piccData l.fileRead = .ok () := by
  obtain ⟨picc, fr, tt, mode⟩ := l
  rw [checkMacWindow_eq_ok_iff, checkEncRange_eq_ok_iff]
  rcases fr with _ | ⟨k, w⟩ | ⟨k, w, e⟩
  · simp only [Option.mem_def, reduceCtorEq, false_imp_iff, implies_true, and_self, iff_true]
    exact ⟨by rintro _ ⟨⟩, by rintro _ ⟨⟩, by rintro _ ⟨⟩⟩
  · simp only [Option.mem_def, Option.some.injEq, forall_eq', FileRead.enc, reduceCtorEq,
      false_imp_iff, implies_true, and_true]
    refine ⟨fun h => h.input_le_mac _ rfl, fun h => ⟨?_, ?_, ?_⟩⟩
    · rintro _ ⟨⟩
      exact h
    · rintro _ ⟨⟩ ⟨⟩
    · rintro _ ⟨⟩ ⟨⟩
  · have hlen := e.length.pos
    have hsub : Set.Ico e.start.val (e.start.val + e.length.val) ⊆
        Set.Ico w.input.val w.mac.val ↔
          w.input.val ≤ e.start.val ∧ e.start.val + e.length.val ≤ w.mac.val := by
      rw [Set.Ico_subset_Ico_iff (by omega)]
    simp only [Option.mem_def, Option.some.injEq, forall_eq', FileRead.enc, FileRead.window,
      ← hsub]
    refine ⟨fun h => ⟨h.input_le_mac _ rfl, h.enc_subset _ rfl rfl, h.enc_mirrors _ rfl rfl⟩, ?_⟩
    rintro ⟨h₁, h₂, h₃⟩
    refine ⟨?_, ?_, ?_⟩
    · rintro _ ⟨⟩
      exact h₁
    · rintro _ ⟨⟩ -
      exact h₂
    · rintro _ ⟨⟩ -
      exact h₃

/-- In a consistent window the encrypted range ends before the MAC placeholder. -/
theorem WindowValid.disjoint_enc_mac {l : Layout} (h : l.WindowValid) :
    Disjoint (l.owned .enc) (l.owned .mac) := by
  obtain ⟨picc, fr, tt, mode⟩ := l
  obtain ⟨-, henc⟩ := (windowValid_iff _).mp h
  rw [checkEncRange_eq_ok_iff] at henc
  rw [owned, owned, disjoint_positions_iff (range_pos _ _) (range_pos _ _)]
  rcases fr with _ | ⟨k, w⟩ | ⟨k, w, e⟩
  · rintro r ⟨⟩
  · rintro r ⟨⟩
  · rintro r ⟨⟩ s ⟨⟩
    exact .inl (henc _ rfl e rfl).1.2

end Layout

/-! ### Validation against the definition -/

namespace Sdm

variable (l : Layout)

/-- The source's checks, one conjunct for each line. -/
theorem checks_eq_ok_iff_conj :
    (checkInner l.piccData l.fileRead l.tamperStatus = .ok () ∧
        checkPicc l.piccData l.fileRead l.tamperStatus l.mode = .ok ()) ↔
      l.WindowValid ∧
      (Disjoint (l.owned .uid) (l.owned .readCtr) ∧
        Disjoint (l.owned .uid) (l.owned .tamper) ∧
        Disjoint (l.owned .readCtr) (l.owned .tamper) ∧
        Disjoint (l.owned .uid) (l.owned .mac) ∧
        Disjoint (l.owned .readCtr) (l.owned .mac) ∧
        Disjoint (l.owned .tamper) (l.owned .mac) ∧
        Disjoint (l.owned .enc) (l.owned .uid) ∧
        Disjoint (l.owned .enc) (l.owned .readCtr)) ∧
      checkTamperHalf (l.range .tamper) (l.range .enc) = .ok () ∧
      (Disjoint (l.owned .picc) (l.owned .tamper) ∧
        Disjoint (l.owned .picc) (l.owned .mac) ∧
        Disjoint (l.owned .picc) (l.owned .enc)) := by
  rw [l.windowValid_iff, ← l.disjoint_owned_iff_checkOverlap .uid .readCtr .uidAndRCtr,
    ← l.disjoint_owned_iff_checkOverlap .uid .tamper .uidAndTamper,
    ← l.disjoint_owned_iff_checkOverlap .readCtr .tamper .rCtrAndTamper,
    ← l.disjoint_owned_iff_checkOverlap .uid .mac .uidAndMac,
    ← l.disjoint_owned_iff_checkOverlap .readCtr .mac .rCtrAndMac,
    ← l.disjoint_owned_iff_checkOverlap .tamper .mac .tamperAndMac,
    ← l.disjoint_owned_iff_checkOverlap .enc .uid .encAndUid,
    ← l.disjoint_owned_iff_checkOverlap .enc .readCtr .encAndRCtr,
    ← l.disjoint_owned_iff_checkOverlap .picc .tamper .piccAndTamper,
    ← l.disjoint_owned_iff_checkOverlap .picc .mac .piccAndMac,
    ← l.disjoint_owned_iff_checkOverlap .picc .enc .piccAndEnc]
  simp only [checkInner, checkPicc, Except.andThen_eq_ok_iff, Layout.range]
  tauto

/-- The checks accept a layout exactly when it is valid outside the pair tamper/encrypted
range and passes the one-sided comparison there. -/
theorem checks_eq_ok_iff :
    (checkInner l.piccData l.fileRead l.tamperStatus = .ok () ∧
        checkPicc l.piccData l.fileRead l.tamperStatus l.mode = .ok ()) ↔
      l.WindowValid ∧ l.DisjointOutsideEnc ∧
        checkTamperHalf (l.range .tamper) (l.range .enc) = .ok () := by
  rw [checks_eq_ok_iff_conj]
  constructor
  · rintro ⟨hw, ⟨h₁, h₂, h₃, h₄, h₅, h₆, h₇, h₈⟩, ht, h₉, h₁₀, h₁₁⟩
    refine ⟨hw, ?_, ht⟩
    have h₁₂ := l.disjoint_picc_uid
    have h₁₃ := l.disjoint_picc_readCtr
    have h₁₄ := hw.disjoint_enc_mac
    intro p q hpq hte het
    cases p <;> cases q <;>
      first
      | exact absurd rfl hpq
      | exact absurd ⟨rfl, rfl⟩ hte
      | exact absurd ⟨rfl, rfl⟩ het
      | assumption
      | (apply Disjoint.symm; assumption)
  · rintro ⟨hw, hd, ht⟩
    have hdis (p q) (h : p ≠ q ∧ ¬ (p = .tamper ∧ q = .enc) ∧ ¬ (p = .enc ∧ q = .tamper)) :=
      hd p q h.1 h.2.1 h.2.2
    exact ⟨hw, ⟨hdis _ _ (by decide), hdis _ _ (by decide), hdis _ _ (by decide),
      hdis _ _ (by decide), hdis _ _ (by decide), hdis _ _ (by decide), hdis _ _ (by decide),
      hdis _ _ (by decide)⟩, ht, hdis _ _ (by decide), hdis _ _ (by decide),
      hdis _ _ (by decide)⟩

/-- The one-sided comparison accepts the valid tamper positions and the straddling one. -/
theorem checkTamperHalf_iff :
    checkTamperHalf (l.range .tamper) (l.range .enc) = .ok () ↔
      l.TamperValid ∨ l.TamperStraddles := by
  rw [checkTamperHalf_eq_ok_iff, Layout.TamperValid, Layout.owned, Layout.owned,
    disjoint_positions_iff (l.range_pos _) (l.range_pos _)]
  obtain ⟨picc, fr, tt, mode⟩ := l
  rcases tt with _ | tt
  · simp [Layout.range, ttRange]
  · rcases fr with _ | ⟨k, w⟩ | ⟨k, w, e⟩
    · simp [Layout.range, encRange]
    · simp [Layout.range, encRange]
    · have hlen := e.length.pos
      have hhalf := e.length.half_add_half
      have hsub : Set.Ico tt.val (tt.val + 2) ⊆
          Set.Ico e.start.val (e.start.val + e.length.val / 2) ↔
            e.start.val ≤ tt.val ∧ tt.val + 2 ≤ e.start.val + e.length.val / 2 := by
        rw [Set.Ico_subset_Ico_iff (by omega)]
      simp only [Layout.range, ttRange, ttPlaceholderLen, encRange, Layout.TamperStraddles,
        Layout.plainHalf, PlaceholderRange.positions, Option.map_some, Option.mem_def,
        Option.some.injEq, forall_eq', exists_eq_left', FileRead.enc, hsub]
      omega

end Sdm

/-- Accepted layouts without a straddling tamper placeholder are valid. -/
theorem Layout.valid_of_checks {l : Layout}
    (hi : Sdm.checkInner l.piccData l.fileRead l.tamperStatus = .ok ())
    (hp : Sdm.checkPicc l.piccData l.fileRead l.tamperStatus l.mode = .ok ())
    (hst : ¬ l.TamperStraddles) : l.Valid := by
  obtain ⟨hw, hd, ht⟩ := (Sdm.checks_eq_ok_iff l).mp ⟨hi, hp⟩
  exact ⟨hw, hd, ((Sdm.checkTamperHalf_iff l).mp ht).resolve_right hst⟩

/-- A straddling tamper placeholder is never valid. -/
theorem Layout.TamperStraddles.not_tamperValid {l : Layout} (h : l.TamperStraddles) :
    ¬ l.TamperValid := by
  obtain ⟨picc, fr, tt, mode⟩ := l
  obtain ⟨tt, ⟨⟩, fr, ⟨⟩, enc, henc, hst⟩ := h
  obtain ⟨k, w⟩ | ⟨k, w, e⟩ := fr
  · cases henc
  · obtain rfl : e = enc := Option.some.inj henc
    have hlen := e.length.pos
    rintro (hd | hs)
    · rw [owned, owned, disjoint_positions_iff (range_pos _ _) (range_pos _ _)] at hd
      have := hd (tt.val, ttPlaceholderLen) rfl (e.start.val, e.length.val) rfl
      simp only [ttPlaceholderLen] at this
      omega
    · have hmem : tt.val ∈ Set.Ico e.start.val (e.start.val + e.length.val / 2) :=
        hs (show tt.val ∈ Set.Ico tt.val (tt.val + 2) by simp)
      have := hmem.1
      omega

namespace Sdm

/-- **Validation is exact up to straddling tamper placeholders.** `Sdm::try_new` decides
validity of a layout, except for the layouts that are valid but for a tamper placeholder
starting one position in front of the encrypted range: those it accepts. -/
theorem tryNew_isOk_iff_valid_iff (l : Layout) :
    ((tryNew l.piccData l.fileRead l.tamperStatus l.mode).isOk = true ↔ l.Valid) ↔
      ¬ (l.TamperStraddles ∧ l.WindowValid ∧ l.DisjointOutsideEnc) := by
  rw [tryNew_isOk_iff, checks_eq_ok_iff, checkTamperHalf_iff]
  constructor
  · rintro h ⟨hst, hw, hd⟩
    exact hst.not_tamperValid (h.mp ⟨hw, hd, .inr hst⟩).tamper
  · intro hno
    constructor
    · rintro ⟨hw, hd, ht | hst⟩
      · exact ⟨hw, hd, ht⟩
      · exact absurd ⟨hst, hw, hd⟩ hno
    · rintro ⟨hw, hd, ht⟩
      exact ⟨hw, hd, .inl ht⟩

/-- An AES layout with both mirrors in the PICCData blob at the start of the file, 32
encrypted characters from position `0x40` on, and a tamper placeholder at `0x3F`. -/
def straddlingLayout : Layout where
  piccData := .encrypted .key2 ⟨0, Offset.zero_le_max⟩ (.both ⟨none, .noAccess⟩)
  fileRead := some (.macAndEnc .key1 ⟨⟨0, Offset.zero_le_max⟩, ⟨0x80, by decide⟩⟩
    ⟨⟨0x40, by decide⟩, ⟨32, EncLength.valid_shortest⟩⟩)
  tamperStatus := some ⟨0x3F, by decide⟩
  mode := .aes

/-- The straddling layout is accepted although it is not valid. -/
theorem straddlingLayout_accepted :
    ¬ ((tryNew straddlingLayout.piccData straddlingLayout.fileRead straddlingLayout.tamperStatus
        straddlingLayout.mode).isOk = true ↔ straddlingLayout.Valid) := by
  intro h
  have hst : straddlingLayout.TamperStraddles := ⟨_, rfl, _, rfl, _, rfl, rfl⟩
  exact hst.not_tamperValid (h.mp (by decide)).tamper

end Sdm

end Ntag424
