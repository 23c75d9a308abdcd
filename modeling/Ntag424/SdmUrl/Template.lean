import Mathlib.Data.List.Pairwise
import Mathlib.Tactic.Common
import Ntag424.SdmUrl.Scanner

/-!
# The Template Language

What a URL template means, independently of the scanner: `Renders mode inside text pos marks out`
says that the template text, read outside or inside an encrypted range, renders to the
characters `out`, of which the first one lands at byte `pos`, and lists the byte positions of
its fills and markers.

Outside a range, plain and escaped characters stand for themselves, placeholders are filled
with zeros of their width, `[[` marks the start of the MAC window and `[...]` an encrypted
range. Inside a range every character is replaced by one zero per byte, and only the tamper
placeholder is allowed.

## Main results

* `Renders.unique`: a template has one reading.
* `Renders.pairwise_marks`: fills and markers come in the order of their positions and do not
  overlap.
* `Renders.zero_of_fill`, `Renders.zero_of_encStart`: the space of a fill and of an encrypted
  range is filled with zeros.
* `Renders.fill_outside`: only the tamper placeholder can lie in an encrypted range.
* `Renders.move`, `Renders.append_plain`: moving a rendering, and reading a plain prefix.
-/

namespace Ntag424

namespace SdmUrl

/-- A fill or a marker of a template. -/
inductive Mark where
  | fill (p : Placeholder)
  | macStart
  | encStart
  | encEnd
deriving DecidableEq, Repr

/-- Number of characters a mark takes in the rendered text. -/
def Mark.width (mode : CryptoMode) : Mark → ℕ
  | .fill p => placeholderFillLen mode p
  | _ => 0

/-- A character without a meaning of its own in a template. -/
def Plain (c : Char) : Prop := c ≠ '[' ∧ c ≠ ']' ∧ c ≠ '\\' ∧ c ≠ '{'

instance instDecidablePlain (c : Char) : Decidable (Plain c) :=
  inferInstanceAs (Decidable (_ ∧ _ ∧ _ ∧ _))

/-- A string of zeros. -/
def zeroText (n : ℕ) : List Char := List.replicate n '0'

@[simp] theorem encode_zeroText (n : ℕ) : Utf8.encode (zeroText n) = List.replicate n 0x30 := by
  induction n with
  | zero => rfl
  | succ n ih => exact congrArg (0x30 :: ·) ih

theorem length_encode_zeroText (n : ℕ) : (Utf8.encode (zeroText n)).length = n := by
  rw [encode_zeroText, List.length_replicate]

/-- The reading of a template. -/
inductive Renders (mode : CryptoMode) :
    Bool → List Char → ℕ → List (Mark × ℕ) → List Char → Prop
  | done {pos : ℕ} : Renders mode false [] pos [] []
  | char {c : Char} {cs : List Char} {pos : ℕ} {ms : List (Mark × ℕ)} {out : List Char} :
      Plain c → Renders mode false cs (pos + c.utf8Size) ms out →
      Renders mode false (c :: cs) pos ms (c :: out)
  | escaped {c : Char} {cs : List Char} {pos : ℕ} {ms : List (Mark × ℕ)} {out : List Char} :
      Renders mode false cs (pos + c.utf8Size) ms out →
      Renders mode false ('\\' :: c :: cs) pos ms (c :: out)
  | placeholder {name display : String} {p : Placeholder} {cs rest : List Char} {pos : ℕ}
      {ms : List (Mark × ℕ)} {out : List Char} :
      (name, p, display) ∈ placeholderSpecs → cs = name.toList ++ '}' :: rest →
      Renders mode false rest (pos + placeholderFillLen mode p) ms out →
      Renders mode false ('{' :: cs) pos ((.fill p, pos) :: ms)
        (zeroText (placeholderFillLen mode p) ++ out)
  | macStart {cs : List Char} {pos : ℕ} {ms : List (Mark × ℕ)} {out : List Char} :
      Renders mode false cs pos ms out →
      Renders mode false ('[' :: '[' :: cs) pos ((.macStart, pos) :: ms) out
  | enter {cs : List Char} {pos : ℕ} {ms : List (Mark × ℕ)} {out : List Char} :
      cs.head? ≠ some '[' → Renders mode true cs pos ms out →
      Renders mode false ('[' :: cs) pos ((.encStart, pos) :: ms) out
  | zeroed {c : Char} {cs : List Char} {pos : ℕ} {ms : List (Mark × ℕ)} {out : List Char} :
      Plain c → Renders mode true cs (pos + c.utf8Size) ms out →
      Renders mode true (c :: cs) pos ms (zeroText c.utf8Size ++ out)
  | zeroedEscape {c : Char} {cs : List Char} {pos : ℕ} {ms : List (Mark × ℕ)} {out : List Char} :
      Renders mode true cs (pos + c.utf8Size) ms out →
      Renders mode true ('\\' :: c :: cs) pos ms (zeroText c.utf8Size ++ out)
  | tamper {cs : List Char} {pos : ℕ} {ms : List (Mark × ℕ)} {out : List Char} :
      Renders mode true cs (pos + 2) ms out →
      Renders mode true ('{' :: 't' :: 't' :: '}' :: cs) pos ((.fill .tt, pos) :: ms)
        (zeroText 2 ++ out)
  | leave {cs : List Char} {pos : ℕ} {ms : List (Mark × ℕ)} {out : List Char} :
      Renders mode false cs pos ms out →
      Renders mode true (']' :: cs) pos ((.encEnd, pos) :: ms) out

namespace Renders

variable {mode : CryptoMode} {inside : Bool} {cs : List Char} {pos : ℕ} {ms : List (Mark × ℕ)}
  {out : List Char}

/-- No placeholder text contains the closing brace. -/
theorem brace_notMem_spec : ∀ spec ∈ placeholderSpecs, '}' ∉ spec.1.toList := by decide

/-- A placeholder text names one placeholder. -/
theorem spec_unique : ∀ spec ∈ placeholderSpecs, ∀ spec' ∈ placeholderSpecs,
    spec.1 = spec'.1 → spec.2.1 = spec'.2.1 := by decide

/-- Two splits of a text at the first occurrence of a character are the same. -/
theorem append_cons_inj {c : Char} {a b a' b' : List Char} (ha : c ∉ a) (ha' : c ∉ a')
    (h : a ++ c :: b = a' ++ c :: b') : a = a' ∧ b = b' := by
  obtain ⟨t, rfl, ht⟩ | ⟨t, rfl, ht⟩ := List.append_eq_append_iff.mp h
  · obtain ⟨rfl, hb⟩ | ⟨t, rfl, -⟩ := List.cons_eq_append_iff.mp ht
    · exact ⟨(List.append_nil a).symm, (List.cons.inj hb).2.symm⟩
    · exact absurd (by simp) ha'
  · obtain ⟨rfl, hb⟩ | ⟨t, rfl, -⟩ := List.cons_eq_append_iff.mp ht
    · exact ⟨List.append_nil a', (List.cons.inj hb).2⟩
    · exact absurd (by simp) ha

/-- **A template has one reading.** -/
theorem unique {ms' : List (Mark × ℕ)} {out' : List Char} (h : Renders mode inside cs pos ms out)
    (h' : Renders mode inside cs pos ms' out') : ms = ms' ∧ out = out' := by
  induction h generalizing ms' out' with
  | done =>
      cases h'
      exact ⟨rfl, rfl⟩
  | char hc _ ih =>
      cases h' with
      | char _ h' =>
          obtain ⟨rfl, rfl⟩ := ih h'
          exact ⟨rfl, rfl⟩
      | escaped => exact absurd rfl hc.2.2.1
      | placeholder => exact absurd rfl hc.2.2.2
      | macStart | enter => exact absurd rfl hc.1
  | escaped _ ih =>
      cases h' with
      | char hc => exact absurd rfl hc.2.2.1
      | escaped h' =>
          obtain ⟨rfl, rfl⟩ := ih h'
          exact ⟨rfl, rfl⟩
  | placeholder hspec hcs _ ih =>
      cases h' with
      | char hc => exact absurd rfl hc.2.2.2
      | placeholder hspec' hcs' h' =>
          rw [hcs] at hcs'
          obtain ⟨hname, rfl⟩ := append_cons_inj (brace_notMem_spec _ hspec)
            (brace_notMem_spec _ hspec') hcs'
          obtain rfl := spec_unique _ hspec _ hspec' (String.toList_inj.mp hname)
          obtain ⟨rfl, rfl⟩ := ih h'
          exact ⟨rfl, rfl⟩
  | macStart _ ih =>
      cases h' with
      | char hc => exact absurd rfl hc.1
      | macStart h' =>
          obtain ⟨rfl, rfl⟩ := ih h'
          exact ⟨rfl, rfl⟩
      | enter hhead => exact absurd rfl hhead
  | enter hhead _ ih =>
      cases h' with
      | char hc => exact absurd rfl hc.1
      | macStart => exact absurd rfl hhead
      | enter _ h' =>
          obtain ⟨rfl, rfl⟩ := ih h'
          exact ⟨rfl, rfl⟩
  | zeroed hc _ ih =>
      cases h' with
      | zeroed _ h' =>
          obtain ⟨rfl, rfl⟩ := ih h'
          exact ⟨rfl, rfl⟩
      | zeroedEscape => exact absurd rfl hc.2.2.1
      | tamper => exact absurd rfl hc.2.2.2
      | leave => exact absurd rfl hc.2.1
  | zeroedEscape _ ih =>
      cases h' with
      | zeroed hc => exact absurd rfl hc.2.2.1
      | zeroedEscape h' =>
          obtain ⟨rfl, rfl⟩ := ih h'
          exact ⟨rfl, rfl⟩
  | tamper _ ih =>
      cases h' with
      | zeroed hc => exact absurd rfl hc.2.2.2
      | tamper h' =>
          obtain ⟨rfl, rfl⟩ := ih h'
          exact ⟨rfl, rfl⟩
  | leave _ ih =>
      cases h' with
      | zeroed hc => exact absurd rfl hc.2.1
      | leave h' =>
          obtain ⟨rfl, rfl⟩ := ih h'
          exact ⟨rfl, rfl⟩

/-! ### Positions -/

/-- **Every fill lies behind the start and inside the rendered text.** -/
theorem marks_bounds (h : Renders mode inside cs pos ms out) {m : Mark} {o : ℕ}
    (hm : (m, o) ∈ ms) :
    pos ≤ o ∧ o + m.width mode ≤ pos + (Utf8.encode out).length := by
  induction h with
  | done => cases hm
  | char _ _ ih | escaped _ ih | zeroed _ _ ih | zeroedEscape _ ih =>
      have := ih hm
      simp only [Utf8.encode_cons, Utf8.encode_append, List.length_append, length_encode_zeroText,
        String.length_utf8EncodeChar]
      omega
  | placeholder _ _ _ ih =>
      simp only [Utf8.encode_append, List.length_append, length_encode_zeroText]
      rcases List.mem_cons.mp hm with hm | hm
      · cases hm
        simp only [Mark.width]
        omega
      · have := ih hm
        omega
  | tamper _ ih =>
      simp only [Utf8.encode_append, List.length_append, length_encode_zeroText]
      rcases List.mem_cons.mp hm with hm | hm
      · cases hm
        simp only [Mark.width, placeholderFillLen]
        omega
      · have := ih hm
        omega
  | macStart _ ih | enter _ _ ih | leave _ ih =>
      rcases List.mem_cons.mp hm with hm | hm
      · cases hm
        simp only [Mark.width]
        omega
      · exact ih hm

/-- **Fills and markers do not overlap** and come in the order of their positions. -/
theorem pairwise_marks (h : Renders mode inside cs pos ms out) :
    ms.Pairwise fun a b => a.2 + a.1.width mode ≤ b.2 := by
  induction h with
  | done => exact .nil
  | char _ _ ih | escaped _ ih | zeroed _ _ ih | zeroedEscape _ ih => exact ih
  | placeholder _ _ h ih | tamper h ih | macStart h ih | enter _ h ih | leave h ih =>
      exact .cons (fun b hb => (h.marks_bounds (m := b.1) (o := b.2) hb).1) ih

/-- Two fills are apart. -/
theorem apart_marks (h : Renders mode inside cs pos ms out) {a b : Mark × ℕ} (ha : a ∈ ms)
    (hb : b ∈ ms) (hab : a ≠ b) :
    a.2 + a.1.width mode ≤ b.2 ∨ b.2 + b.1.width mode ≤ a.2 := by
  have : Std.Symm fun a b : Mark × ℕ =>
      a.2 + a.1.width mode ≤ b.2 ∨ b.2 + b.1.width mode ≤ a.2 := ⟨fun _ _ => Or.symm⟩
  have hpair : ms.Pairwise fun a b : Mark × ℕ =>
      a.2 + a.1.width mode ≤ b.2 ∨ b.2 + b.1.width mode ≤ a.2 := h.pairwise_marks.imp Or.inl
  exact hpair.forall ha hb hab

/-! ### Zeros -/

/-- Positions behind the text of a first part. -/
theorem getElem?_encode_append {as bs : List Char} {k i pos : ℕ} (hk : (Utf8.encode as).length = k)
    (hi : pos + k ≤ i) :
    (Utf8.encode (as ++ bs))[i - pos]? = (Utf8.encode bs)[i - (pos + k)]? := by
  rw [Utf8.encode_append, List.getElem?_append_right (by omega), hk, Nat.sub_sub]

theorem getElem?_encode_cons {c : Char} {bs : List Char} {i pos : ℕ} (hi : pos + c.utf8Size ≤ i) :
    (Utf8.encode (c :: bs))[i - pos]? = (Utf8.encode bs)[i - (pos + c.utf8Size)]? :=
  getElem?_encode_append (show (Utf8.encode [c]).length = c.utf8Size by simp) hi

theorem getElem?_zeroText_append {bs : List Char} {k i pos : ℕ} (hlo : pos ≤ i) (hi : i < pos + k) :
    (Utf8.encode (zeroText k ++ bs))[i - pos]? = some 0x30 := by
  rw [Utf8.encode_append, List.getElem?_append_left (by rw [length_encode_zeroText]; omega),
    encode_zeroText, List.getElem?_replicate, if_pos (by omega)]

/-- **A fill is made of zeros.** -/
theorem zero_of_fill (h : Renders mode inside cs pos ms out) {m : Mark} {o i : ℕ}
    (hm : (m, o) ∈ ms) (hlo : o ≤ i) (hhi : i < o + m.width mode) :
    (Utf8.encode out)[i - pos]? = some 0x30 := by
  induction h with
  | done => cases hm
  | char _ h ih | escaped h ih =>
      have := (h.marks_bounds hm).1
      rw [getElem?_encode_cons (by omega)]
      exact ih hm
  | zeroed _ h ih | zeroedEscape h ih =>
      have := (h.marks_bounds hm).1
      rw [getElem?_encode_append (length_encode_zeroText _) (by omega)]
      exact ih hm
  | placeholder _ _ h ih | tamper h ih =>
      rcases List.mem_cons.mp hm with hm | hm
      · cases hm
        exact getElem?_zeroText_append hlo hhi
      · have := (h.marks_bounds hm).1
        rw [getElem?_encode_append (length_encode_zeroText _) (by omega)]
        exact ih hm
  | macStart _ ih | enter _ _ ih | leave _ ih =>
      rcases List.mem_cons.mp hm with hm | hm
      · cases hm
        simp only [Mark.width] at hhi
        omega
      · exact ih hm

/-- Inside an encrypted range everything up to its end is made of zeros. -/
theorem zero_of_inside (h : Renders mode inside cs pos ms out) (hin : inside = true) :
    ∃ e, (.encEnd, e) ∈ ms ∧ pos ≤ e ∧
      ∀ i, pos ≤ i → i < e → (Utf8.encode out)[i - pos]? = some 0x30 := by
  -- text of `k` zeros in front of the rest of the range
  have step : ∀ {out : List Char} {pos k e : ℕ}, pos + k ≤ e →
      (∀ i, pos + k ≤ i → i < e → (Utf8.encode out)[i - (pos + k)]? = some 0x30) →
      ∀ i, pos ≤ i → i < e → (Utf8.encode (zeroText k ++ out))[i - pos]? = some 0x30 := by
    intro out pos k e _ hrest i hlo hhi
    by_cases hi : i < pos + k
    · exact getElem?_zeroText_append hlo hi
    · rw [getElem?_encode_append (length_encode_zeroText _) (by omega)]
      exact hrest i (by omega) hhi
  induction h with
  | done | char | escaped | placeholder | macStart | enter => cases hin
  | zeroed _ _ ih | zeroedEscape _ ih =>
      obtain ⟨e, he, hle, hz⟩ := ih rfl
      exact ⟨e, he, by omega, step hle hz⟩
  | tamper _ ih =>
      obtain ⟨e, he, hle, hz⟩ := ih rfl
      exact ⟨e, List.mem_cons_of_mem _ he, by omega, step hle hz⟩
  | leave =>
      exact ⟨_, List.mem_cons_self, le_rfl, fun i hlo hhi => absurd hhi (by omega)⟩

/-- **An encrypted range is made of zeros.** -/
theorem zero_of_encStart (h : Renders mode inside cs pos ms out) {s : ℕ}
    (hs : (.encStart, s) ∈ ms) :
    ∃ e, (.encEnd, e) ∈ ms ∧ s ≤ e ∧
      ∀ i, s ≤ i → i < e → (Utf8.encode out)[i - pos]? = some 0x30 := by
  induction h with
  | done => cases hs
  | char _ h ih | escaped h ih =>
      obtain ⟨e, he, hle, hz⟩ := ih hs
      have := (h.marks_bounds hs).1
      refine ⟨e, he, hle, fun i hlo hhi => ?_⟩
      rw [getElem?_encode_cons (by omega)]
      exact hz i hlo hhi
  | zeroed _ h ih | zeroedEscape h ih =>
      obtain ⟨e, he, hle, hz⟩ := ih hs
      have := (h.marks_bounds hs).1
      refine ⟨e, he, hle, fun i hlo hhi => ?_⟩
      rw [getElem?_encode_append (length_encode_zeroText _) (by omega)]
      exact hz i hlo hhi
  | placeholder _ _ h ih | tamper h ih =>
      rcases List.mem_cons.mp hs with hs | hs
      · cases hs
      · obtain ⟨e, he, hle, hz⟩ := ih hs
        have := (h.marks_bounds hs).1
        refine ⟨e, List.mem_cons_of_mem _ he, hle, fun i hlo hhi => ?_⟩
        rw [getElem?_encode_append (length_encode_zeroText _) (by omega)]
        exact hz i hlo hhi
  | macStart _ ih | leave _ ih =>
      rcases List.mem_cons.mp hs with hs | hs
      · cases hs
      · obtain ⟨e, he, hle, hz⟩ := ih hs
        exact ⟨e, List.mem_cons_of_mem _ he, hle, hz⟩
  | enter _ h ih =>
      rcases List.mem_cons.mp hs with hs | hs
      · cases hs
        obtain ⟨e, he, hle, hz⟩ := h.zero_of_inside rfl
        exact ⟨e, List.mem_cons_of_mem _ he, hle, hz⟩
      · obtain ⟨e, he, hle, hz⟩ := ih hs
        exact ⟨e, List.mem_cons_of_mem _ he, hle, hz⟩

/-! ### Fills and the encrypted range -/

/-- Inside an encrypted range the range comes to an end, and only the tamper placeholder lies in
front of it. -/
theorem fill_behind (h : Renders mode inside cs pos ms out) (hin : inside = true) :
    ∃ e, (.encEnd, e) ∈ ms ∧ pos ≤ e ∧ ∀ p ≠ .tt, ∀ o, (.fill p, o) ∈ ms → e ≤ o := by
  induction h with
  | done | char | escaped | placeholder | macStart | enter => cases hin
  | zeroed _ _ ih | zeroedEscape _ ih =>
      obtain ⟨e, he, hle, hfill⟩ := ih rfl
      exact ⟨e, he, by omega, hfill⟩
  | tamper _ ih =>
      obtain ⟨e, he, hle, hfill⟩ := ih rfl
      refine ⟨e, List.mem_cons_of_mem _ he, by omega, fun p hp o ho => ?_⟩
      rcases List.mem_cons.mp ho with ho | ho
      · cases ho
        exact absurd rfl hp
      · exact hfill p hp o ho
  | leave h =>
      refine ⟨_, List.mem_cons_self, le_rfl, fun p _ o ho => ?_⟩
      rcases List.mem_cons.mp ho with ho | ho
      · cases ho
      · exact (h.marks_bounds ho).1

/-- **Only the tamper placeholder can lie in an encrypted range.** -/
theorem fill_outside (h : Renders mode inside cs pos ms out) {s : ℕ}
    (hs : (.encStart, s) ∈ ms) :
    ∃ e, (.encEnd, e) ∈ ms ∧ s ≤ e ∧ ∀ p ≠ .tt, ∀ o, (.fill p, o) ∈ ms →
      o + placeholderFillLen mode p ≤ s ∨ e ≤ o := by
  induction h with
  | done => cases hs
  | char _ _ ih | escaped _ ih | zeroed _ _ ih | zeroedEscape _ ih => exact ih hs
  | placeholder _ _ h ih | tamper h ih =>
      rcases List.mem_cons.mp hs with hs | hs
      · cases hs
      · obtain ⟨e, he, hle, hfill⟩ := ih hs
        refine ⟨e, List.mem_cons_of_mem _ he, hle, fun p hp o ho => ?_⟩
        rcases List.mem_cons.mp ho with ho | ho
        · cases ho
          exact .inl (h.marks_bounds hs).1
        · exact hfill p hp o ho
  | macStart _ ih | leave _ ih =>
      rcases List.mem_cons.mp hs with hs | hs
      · cases hs
      · obtain ⟨e, he, hle, hfill⟩ := ih hs
        refine ⟨e, List.mem_cons_of_mem _ he, hle, fun p hp o ho => ?_⟩
        rcases List.mem_cons.mp ho with ho | ho
        · cases ho
        · exact hfill p hp o ho
  | enter _ h ih =>
      rcases List.mem_cons.mp hs with hs | hs
      · cases hs
        obtain ⟨e, he, hle, hfill⟩ := h.fill_behind rfl
        refine ⟨e, List.mem_cons_of_mem _ he, hle, fun p hp o ho => ?_⟩
        rcases List.mem_cons.mp ho with ho | ho
        · cases ho
        · exact .inr (hfill p hp o ho)
      · obtain ⟨e, he, hle, hfill⟩ := ih hs
        refine ⟨e, List.mem_cons_of_mem _ he, hle, fun p hp o ho => ?_⟩
        rcases List.mem_cons.mp ho with ho | ho
        · cases ho
        · exact hfill p hp o ho

/-! ### Moving -/

/-- **Moving a rendering** moves its marks. -/
theorem move (h : Renders mode inside cs pos ms out) (pos' : ℕ) :
    Renders mode inside cs pos' (ms.map fun m => (m.1, m.2 - pos + pos')) out := by
  -- the marks behind the first element move by the same distance as the position behind it
  have behind : ∀ {ms : List (Mark × ℕ)} {out : List Char} {inside : Bool} {cs : List Char}
      {pos : ℕ} (k pos' : ℕ), Renders mode inside cs (pos + k) ms out →
      (ms.map fun m => (m.1, m.2 - (pos + k) + (pos' + k))) =
        ms.map fun m => (m.1, m.2 - pos + pos') := by
    intro ms out inside cs pos k pos' hr
    refine List.map_congr_left fun m hm => ?_
    have := (hr.marks_bounds (m := m.1) (o := m.2) hm).1
    rw [show m.2 - (pos + k) + (pos' + k) = m.2 - pos + pos' by omega]
  induction h generalizing pos' with
  | done => exact .done
  | char hc hr ih => exact .char hc (behind _ pos' hr ▸ ih _)
  | escaped hr ih => exact .escaped (behind _ pos' hr ▸ ih _)
  | placeholder hspec hcs hr ih =>
      rw [List.map_cons, Nat.sub_self, Nat.zero_add]
      exact .placeholder hspec hcs (behind _ pos' hr ▸ ih _)
  | macStart _ ih =>
      rw [List.map_cons, Nat.sub_self, Nat.zero_add]
      exact .macStart (ih _)
  | enter hhead _ ih =>
      rw [List.map_cons, Nat.sub_self, Nat.zero_add]
      exact .enter hhead (ih _)
  | zeroed hc hr ih => exact .zeroed hc (behind _ pos' hr ▸ ih _)
  | zeroedEscape hr ih => exact .zeroedEscape (behind _ pos' hr ▸ ih _)
  | tamper hr ih =>
      rw [List.map_cons, Nat.sub_self, Nat.zero_add]
      exact .tamper (behind _ pos' hr ▸ ih _)
  | leave _ ih =>
      rw [List.map_cons, Nat.sub_self, Nat.zero_add]
      exact .leave (ih _)

/-- A plain text in front of a template stands for itself. -/
theorem append_plain {ds : List Char} (hds : ∀ c ∈ ds, Plain c)
    (h : Renders mode false cs (pos + (Utf8.encode ds).length) ms out) :
    Renders mode false (ds ++ cs) pos ms (ds ++ out) := by
  induction ds generalizing pos with
  | nil => exact h
  | cons d ds ih =>
      refine .char (hds d List.mem_cons_self) (ih (fun c hc => hds c (.tail d hc)) ?_)
      rwa [Utf8.encode_cons, List.length_append, String.length_utf8EncodeChar, ← Nat.add_assoc]
        at h

end Renders

end SdmUrl

end Ntag424
