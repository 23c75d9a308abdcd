import Mathlib.Tactic.Common
import Ntag424.SdmUrl.Template

/-!
# The Scanner Reads the Template Language

Whenever the scanner accepts a template it has read it as the template language says: its
output is the rendered text, and its slots hold the positions of the fills and markers.

## Main results

* `scanStep_sound`: one iteration consumes one element of the template.
* `scanLoop_sound`: the loop consumes the whole template.
* `lt_of_scanStep`, `scanLoop_of_le`: every iteration advances, so the fuel never runs out.
-/

namespace Ntag424

namespace SdmUrl

open Outcome

variable {cap : ℕ} {mode : CryptoMode} {url : List UInt8}

/-! ### The output buffer -/

/-- Pushing succeeds as long as the capacity suffices. -/
theorem pushAll_eq_ok_iff {buf bytes out : List UInt8} (hbuf : buf.length ≤ cap) :
    pushAll cap buf bytes = .ok out ↔ buf.length + bytes.length ≤ cap ∧ out = buf ++ bytes := by
  induction bytes generalizing buf with
  | nil => simp [pushAll, pure, Except.pure, hbuf, eq_comm]
  | cons b bytes ih =>
      rw [pushAll, List.foldlM_cons, Except.bind_eq_ok_iff]
      by_cases hfull : buf.length = cap
      · simp only [push, hfull, if_true, fail_ne_ok, false_and, exists_false, List.length_cons,
          false_iff]
        omega
      · have hpush : push cap buf b = .ok (buf ++ [b]) := if_neg hfull
        have hlt : (buf ++ [b]).length ≤ cap := by
          rw [List.length_append, List.length_singleton]
          omega
        have hrest := ih hlt
        rw [pushAll] at hrest
        simp only [hpush, Except.ok.injEq, exists_eq_left', hrest, List.length_append,
          List.length_cons, List.length_nil, List.append_assoc, List.cons_append, List.nil_append]
        exact and_congr_left' (by omega)

/-- What was pushed is appended, and nothing else happens. -/
theorem eq_of_pushAll {buf bytes out : List UInt8} (h : pushAll cap buf bytes = .ok out) :
    out = buf ++ bytes := by
  induction bytes generalizing buf with
  | nil =>
      cases h
      exact (List.append_nil _).symm
  | cons b bytes ih =>
      obtain ⟨buf', hpush, h⟩ := Except.bind_eq_ok_iff.mp h
      rw [push] at hpush
      split at hpush
      · cases hpush
      · cases hpush
        simpa using ih h

/-- Inside the source, `extend_bytes` pushes a window of it. -/
theorem extendBytes_eq {buf src : List UInt8} {start count : ℕ}
    (h : start + count ≤ src.length) :
    extendBytes cap buf src start count = pushAll cap buf (slice src start count) := by
  induction count with
  | zero => simp [extendBytes, pushAll, slice]
  | succ count ih =>
      have hlt : start + count < src.length := by omega
      have hindex : (index src (start + count) : Scan UInt8) = .ok src[start + count] :=
        index_eq_ok_iff.mpr (List.getElem?_eq_getElem hlt)
      have hslice : slice src start (count + 1) =
          slice src start count ++ [src[start + count]] := by
        rw [slice, List.take_add_one, List.getElem?_drop, List.getElem?_eq_getElem hlt]
        rfl
      have hprev := ih (by omega)
      rw [extendBytes] at hprev ⊢
      rw [List.range_succ, List.foldlM_append, hprev, hslice, pushAll, pushAll,
        List.foldlM_append]
      simp only [List.foldlM_cons, List.foldlM_nil, hindex, Except.ok_bind', bind_pure]

/-! ### Characters of the template -/

/-- The width announced by a first byte is the width of its character. -/
theorem utf8CharWidth_of_firstByte {c : Char} {b : UInt8} (h : Utf8.FirstByte c b) :
    utf8CharWidth b = c.utf8Size := by
  have table : ∀ n : Fin 256, utf8CharWidth (UInt8.ofNat n.val) =
      if n.val < 0x80 then 1 else if 0xC0 ≤ n.val ∧ n.val < 0xE0 then 2
        else if 0xE0 ≤ n.val ∧ n.val < 0xF0 then 3 else 4 := by
    decide +kernel
  have hb := table ⟨b.toNat, b.toNat_lt⟩
  rw [UInt8.ofNat_toNat] at hb
  rw [hb]
  cases h with
  | one hsize _ h => rw [hsize, if_pos h]
  | two hsize h => rw [hsize, if_neg (by simp only; omega), if_pos h]
  | three hsize h =>
      rw [hsize, if_neg (by simp only; omega), if_neg (by simp only; omega), if_pos h]
  | four hsize h =>
      rw [hsize, if_neg (by simp only; omega), if_neg (by simp only; omega),
        if_neg (by simp only; omega)]

/-- An ASCII byte starts only its own character. -/
theorem firstByte_eq_iff {c a : Char} {b n : UInt8} (h : Utf8.FirstByte c b)
    (ha : a.utf8Size = 1) (hn : n.toNat = a.toNat) : b = n ↔ c = a := by
  have hlt : a.toNat < 0x80 := by
    have := Char.utf8Size_eq_one_iff.mp ha
    exact Nat.lt_succ_of_le this
  constructor
  · rintro rfl
    cases h with
    | one _ hval => exact Char.toNat_inj.mp (by rw [← hval, hn])
    | two _ h | three _ h | four _ h => omega
  · rintro rfl
    cases h with
    | one _ hval => exact UInt8.toNat_inj.mp (by rw [hval, hn])
    | two hsize | three hsize | four hsize => omega

/-- What the scanner sees at the start of a character. -/
structure AtChar (url : List UInt8) (i : ℕ) (c : Char) (cs : List Char) (b : UInt8) : Prop where
  first : Utf8.FirstByte c b
  index : url[i]? = some b
  bytes : slice url i c.utf8Size = String.utf8EncodeChar c
  inside : i + c.utf8Size ≤ url.length
  rest : url.drop (i + c.utf8Size) = Utf8.encode cs

/-- A position with text left is at the start of a character. -/
theorem exists_atChar {i : ℕ} {c : Char} {cs : List Char}
    (h : url.drop i = Utf8.encode (c :: cs)) : ∃ b, AtChar url i c cs b := by
  obtain ⟨b, bs, henc, hlen, hfirst, -⟩ := Utf8.encodeChar_eq_cons c
  have hsize : (String.utf8EncodeChar c).length = c.utf8Size := String.length_utf8EncodeChar c
  rw [Utf8.encode_cons] at h
  refine ⟨b, hfirst, ?_, ?_, ?_, ?_⟩
  · have hget : (url.drop i)[0]? = some b := by rw [h, henc]; rfl
    simpa using hget
  · rw [slice, h, List.take_append_of_le_length hsize.ge, List.take_of_length_le hsize.le]
  · have hdrop := congrArg List.length h
    rw [List.length_drop, List.length_append, hsize] at hdrop
    have := c.utf8Size_pos
    omega
  · rw [← List.drop_drop, h, List.drop_append_of_le_length hsize.ge,
      List.drop_of_length_le hsize.le, List.nil_append]

/-! ### Slots -/

namespace ScanState

/-- The position recorded for a mark. -/
def slot (st : ScanState) : Mark → Option ℕ
  | .fill .uid => st.uidOffset
  | .fill .ctr => st.ctrOffset
  | .fill (.picc content) => (st.picc.filter (·.2 = content)).map Prod.fst
  | .fill .tt => st.ttOffset
  | .fill .mac => st.macOffset
  | .macStart => st.macStart
  | .encStart => st.encRangeStart
  | .encEnd => st.encRangeEnd

/-- The encrypted range is entered once, and its end is recorded when it is left. -/
structure Inv (st : ScanState) : Prop where
  leave : st.encRangeEnd.isSome → st.inEncRange = false ∧ st.encRangeStart.isSome
  enter : st.inEncRange = true → st.encRangeStart.isSome

/-- What lies between two states of the scanner: the rendered bytes and the recorded marks. -/
structure Adds (st : ScanState) (ms : List (Mark × ℕ)) (bytes : List UInt8) (st' : ScanState) :
    Prop where
  content : st'.uriContent = st.uriContent ++ bytes
  slot : ∀ m o, st'.slot m = some o ↔ st.slot m = some o ∨ (m, o) ∈ ms

theorem Adds.refl (st : ScanState) : Adds st [] [] st :=
  ⟨(List.append_nil _).symm, by simp⟩

theorem Adds.trans {st st' st'' : ScanState} {ms ms' : List (Mark × ℕ)} {bs bs' : List UInt8}
    (h : Adds st ms bs st') (h' : Adds st' ms' bs' st'') :
    Adds st (ms ++ ms') (bs ++ bs') st'' where
  content := by rw [h'.content, h.content, List.append_assoc]
  slot m o := by rw [h'.slot, h.slot, List.mem_append, or_assoc]

/-- Rendering bytes records nothing. -/
theorem adds_content (st : ScanState) (bytes : List UInt8) :
    Adds st [] bytes { st with uriContent := st.uriContent ++ bytes } :=
  ⟨rfl, fun m o => by
    rw [List.mem_nil_iff, or_false]
    rcases m with (_ | _ | _ | _ | _) | _ | _ | _ <;> rfl⟩

theorem fileOffset_of_adds {st st' : ScanState} {ms : List (Mark × ℕ)} {bytes : List UInt8}
    (h : Adds st ms bytes st') : st'.fileOffset = st.fileOffset + bytes.length := by
  rw [fileOffset, fileOffset, h.content, List.length_append, Nat.add_assoc]

theorem setOnce_eq_ok_iff {α : Type} {slot out : Option α} {value : α} {name : String} :
    setOnce slot value name = .ok out ↔ slot = none ∧ out = some value := by
  cases slot with
  | none => simp [setOnce, eq_comm]
  | some a => simp [setOnce]

/-- Filling one empty slot records its mark. -/
theorem adds_of_slot {st st' : ScanState} {m : Mark} {offset : ℕ}
    (hcontent : st'.uriContent = st.uriContent) (hnone : st.slot m = none)
    (hnew : st'.slot m = some offset) (hold : ∀ m' ≠ m, st'.slot m' = st.slot m') :
    Adds st [(m, offset)] [] st' where
  content := by rw [hcontent, List.append_nil]
  slot m' o := by
    rw [List.mem_singleton, Prod.mk.injEq]
    by_cases hm : m' = m
    · subst hm
      rw [hnew, hnone, Option.some.injEq]
      simp [eq_comm]
    · rw [hold m' hm]
      simp [hm]

/-- **Recording a placeholder** fills its slot, which was empty, and nothing else. -/
theorem record_sound {st st' : ScanState} {offset : ℕ} {display : String} {p : Placeholder}
    (h : st.record offset display p = .ok st') :
    Adds st [(.fill p, offset)] [] st' ∧ st'.inEncRange = st.inEncRange ∧
      st'.encRangeStart = st.encRangeStart ∧ st'.encRangeEnd = st.encRangeEnd := by
  cases p with
  | picc content =>
      simp only [record, Except.bind_eq_ok_iff, setOnce_eq_ok_iff, Except.pure_eq_ok_iff] at h
      obtain ⟨_, ⟨hnone, rfl⟩, rfl⟩ := h
      refine ⟨adds_of_slot rfl ?_ ?_ fun m hm => ?_, rfl, rfl, rfl⟩
      · simp only [slot, hnone, Option.filter_none, Option.map_none]
      · simp only [slot, Option.filter_some, decide_true, if_true, Option.map_some]
      · rcases m with (_ | _ | content' | _ | _) | _ | _ | _
        case fill.picc =>
          have hne : content ≠ content' := fun h => hm (by rw [h])
          simp [slot, hnone, hne]
        all_goals rfl
  | uid | ctr | tt | mac =>
      simp only [record, Except.bind_eq_ok_iff, setOnce_eq_ok_iff, Except.pure_eq_ok_iff] at h
      obtain ⟨_, ⟨hnone, rfl⟩, rfl⟩ := h
      refine ⟨adds_of_slot rfl hnone rfl fun m hm => ?_, rfl, rfl, rfl⟩
      rcases m with (_ | _ | _ | _ | _) | _ | _ | _ <;> first | rfl | exact absurd rfl hm

end ScanState

/-! ### One element of the template -/

open ScanState

/-- The placeholder at a brace: its text, its entry in the table, and the text behind it. -/
theorem parsePlaceholder_sound {i : ℕ} {cs : List Char} {b : UInt8} {p : Placeholder}
    {consumed : ℕ} {display : String} (hat : AtChar url i '{' cs b)
    (h : parsePlaceholder url i = .ok (p, consumed, display)) :
    ∃ name rest, (name, p, display) ∈ placeholderSpecs ∧ cs = name.toList ++ '}' :: rest ∧
      url.drop (i + consumed) = Utf8.encode rest := by
  have hrest : url.drop (i + 1) = Utf8.encode cs := hat.rest
  rw [parsePlaceholder, hrest] at h
  cases hfind : (Utf8.encode cs).findIdx? (· = 0x7D) with
  | none =>
      rw [hfind] at h
      cases h
  | some len =>
      obtain ⟨ds, rest, rfl, -, rfl⟩ :=
        Utf8.exists_split_of_findIdx? (show (0x7D : UInt8).toNat = '}'.toNat from rfl)
        (by decide) hfind
      rw [hfind] at h
      have hslice : slice url (i + 1) (Utf8.encode ds).length = Utf8.encode ds := by
        rw [slice, hrest, Utf8.encode_append, List.take_left]
      simp only [hslice] at h
      split at h
      · rename_i name p' display' hspec
        cases h
        have hname := List.find?_some hspec
        have hds := Utf8.encode_injective (of_decide_eq_true hname)
        refine ⟨name, rest, List.mem_of_find?_eq_some hspec, by rw [hds], ?_⟩
        rw [show i + ((Utf8.encode ds).length + 2) = i + 1 + ((Utf8.encode ds).length + 1) by omega,
          ← List.drop_drop, hrest, Utf8.encode_append, ← List.drop_drop, List.drop_left]
        rfl
      · cases h

/-- The character behind a backslash. -/
theorem escapedWidth_sound {i : ℕ} {cs : List Char} {b : UInt8} {width : ℕ}
    (hat : AtChar url i '\\' cs b) (h : escapedWidth url i = .ok width) :
    ∃ c rest d, cs = c :: rest ∧ width = c.utf8Size ∧ AtChar url (i + 1) c rest d := by
  have hrest : url.drop (i + 1) = Utf8.encode cs := hat.rest
  rw [escapedWidth] at h
  split at h
  · cases h
  · rename_i hlen
    obtain ⟨first, hfirst, hwidth⟩ := Except.bind_eq_ok_iff.mp h
    cases cs with
    | nil =>
        have hdrop := congrArg List.length hrest
        rw [List.length_drop, Utf8.encode_nil, List.length_nil] at hdrop
        omega
    | cons c rest =>
        obtain ⟨d, hat'⟩ := exists_atChar hrest
        rw [index_eq_ok_iff, hat'.index, Option.some.injEq] at hfirst
        subst hfirst
        refine ⟨c, rest, d, rfl, ?_, hat'⟩
        rw [← utf8CharWidth_of_firstByte hat'.first]
        exact (Except.pure_eq_ok_iff.mp hwidth).symm

/-- Copying a character of the template. -/
theorem extendBytes_sound {i : ℕ} {c : Char} {cs : List Char} {b : UInt8}
    {buf out : List UInt8} (hat : AtChar url i c cs b)
    (h : extendBytes cap buf url i c.utf8Size = .ok out) :
    out = buf ++ Utf8.encode [c] := by
  rw [extendBytes_eq hat.inside, hat.bytes] at h
  rw [eq_of_pushAll h, Utf8.encode_cons, Utf8.encode_nil, List.append_nil]

/-- Rendering zeros. -/
theorem pushZeroes_sound {buf out : List UInt8} {count : ℕ}
    (h : pushZeroes cap buf count = .ok out) : out = buf ++ Utf8.encode (zeroText count) := by
  rw [encode_zeroText]
  exact eq_of_pushAll h

/-- One element of the template: what is rendered and recorded, and how the reading of the rest
of the template extends to it. -/
structure Consumes (mode : CryptoMode) (url : List UInt8) (st : ScanState) (cs : List Char)
    (i' : ℕ) (st' : ScanState) (cs' : List Char) (ms : List (Mark × ℕ)) (ext : List Char) :
    Prop where
  rest : url.drop i' = Utf8.encode cs'
  inv : st'.Inv
  adds : st.Adds ms (Utf8.encode ext) st'
  extend : ∀ ms' out, Renders mode st'.inEncRange cs' st'.fileOffset ms' out →
    Renders mode st.inEncRange cs st.fileOffset (ms ++ ms') (ext ++ out)

variable {i i' : ℕ} {st st' : ScanState} {c : Char} {cs : List Char} {b : UInt8}

/-- What follows an opening bracket. -/
theorem next_eq_bracket_iff (hat : AtChar url i '[' cs b) :
    url[i + 1]? = some 0x5B ↔ cs.head? = some '[' := by
  have hrest : url.drop (i + 1) = Utf8.encode cs := hat.rest
  cases cs with
  | nil =>
      have hnone : url[i + 1]? = none := by
        rw [← Nat.add_zero (i + 1), ← List.getElem?_drop, hrest]
        rfl
      simp [hnone]
  | cons d rest =>
      obtain ⟨b', hat'⟩ := exists_atChar hrest
      rw [hat'.index, Option.some.injEq, List.head?_cons, Option.some.injEq]
      exact firstByte_eq_iff hat'.first rfl rfl

/-- Rendering a text consumes the element it stands for. -/
theorem consumes_text {rest : List Char} {text : List Char} {bytes : List UInt8}
    (hrest : url.drop i' = Utf8.encode rest) (hinv : st.Inv)
    (hbytes : bytes = st.uriContent ++ Utf8.encode text)
    (hread : ∀ ms' out, Renders mode st.inEncRange rest
      (st.fileOffset + (Utf8.encode text).length) ms' out →
      Renders mode st.inEncRange cs st.fileOffset ms' (text ++ out)) :
    Consumes mode url st cs i' { st with uriContent := bytes } rest [] text where
  rest := hrest
  inv := ⟨hinv.leave, hinv.enter⟩
  adds := by
    subst hbytes
    exact adds_content st (Utf8.encode text)
  extend ms' out h := hread ms' out (by
    subst hbytes
    rwa [fileOffset_of_adds (adds_content st (Utf8.encode text))] at h)

/-- Recording a placeholder and rendering its fill consumes the placeholder. -/
theorem consumes_placeholder {rest : List Char} {st₁ : ScanState} {p : Placeholder}
    {display : String} {bytes : List UInt8} (hrest : url.drop i' = Utf8.encode rest)
    (hinv : st.Inv) (hrec : st.record st.fileOffset display p = .ok st₁)
    (hbytes : bytes = st₁.uriContent ++ Utf8.encode (zeroText (placeholderFillLen mode p)))
    (hread : ∀ ms' out, Renders mode st.inEncRange rest
      (st.fileOffset + placeholderFillLen mode p) ms' out →
      Renders mode st.inEncRange cs st.fileOffset ((.fill p, st.fileOffset) :: ms')
        (zeroText (placeholderFillLen mode p) ++ out)) :
    Consumes mode url st cs i' { st₁ with uriContent := bytes } rest [(.fill p, st.fileOffset)]
      (zeroText (placeholderFillLen mode p)) := by
  obtain ⟨hadds, hin, hstart, hend⟩ := record_sound hrec
  have hall : st.Adds [(.fill p, st.fileOffset)]
      (Utf8.encode (zeroText (placeholderFillLen mode p))) { st₁ with uriContent := bytes } := by
    subst hbytes
    simpa using hadds.trans (adds_content st₁ _)
  refine ⟨hrest, ?_, hall, fun ms' out h => hread ms' out ?_⟩
  · refine ⟨fun hsome => ?_, fun hsome => ?_⟩
    · simp only [hin, hstart]
      exact hinv.leave (hend ▸ hsome)
    · simp only [hstart]
      exact hinv.enter (hin ▸ hsome)
  · rw [fileOffset_of_adds hall, length_encode_zeroText] at h
    rwa [← hin]

/-- **One iteration outside the encrypted range** consumes one element of the template. -/
theorem scanOutside_sound (hat : AtChar url i c cs b) (hin : st.inEncRange = false)
    (hinv : st.Inv) (h : scanOutside cap mode url i b st = .ok (i', st')) :
    ∃ cs' ms ext, Consumes mode url st (c :: cs) i' st' cs' ms ext := by
  have hopen := firstByte_eq_iff (a := '[') (n := 0x5B) hat.first rfl rfl
  have hclose := firstByte_eq_iff (a := ']') (n := 0x5D) hat.first rfl rfl
  have hslash := firstByte_eq_iff (a := '\\') (n := 0x5C) hat.first rfl rfl
  have hbrace := firstByte_eq_iff (a := '{') (n := 0x7B) hat.first rfl rfl
  rw [scanOutside, utf8CharWidth_of_firstByte hat.first] at h
  simp only [hopen, hclose, hslash, hbrace] at h
  split at h
  · -- the start of the MAC window
    rename_i hmac
    obtain ⟨rfl, hnext⟩ := hmac
    split at h
    · cases h
    · rename_i hnone
      cases h
      obtain ⟨rest, rfl⟩ : ∃ rest, cs = '[' :: rest := by
        have hhead := (next_eq_bracket_iff hat).mp hnext
        exact List.head?_eq_some_iff.mp hhead
      obtain ⟨b', hat'⟩ := exists_atChar hat.rest
      refine ⟨rest, [(.macStart, st.fileOffset)], [], hat'.rest, ⟨hinv.leave, hinv.enter⟩,
        adds_of_slot rfl (by simpa [slot] using hnone) rfl fun m hm => ?_, fun ms' out hr => ?_⟩
      · rcases m with (_ | _ | _ | _ | _) | _ | _ | _ <;> first | rfl | exact absurd rfl hm
      · rw [hin] at hr ⊢
        exact .macStart hr
  · rename_i hmac
    split at h
    · -- the start of the encrypted range
      rename_i hc
      subst hc
      split at h
      · cases h
      · rename_i hnone
        cases h
        have hstart : st.encRangeStart = none := by simpa using hnone
        have hend : st.encRangeEnd = none := by
          by_contra hsome
          have := (hinv.leave (Option.isSome_iff_ne_none.mpr hsome)).2
          rw [hstart] at this
          cases this
        have hhead : cs.head? ≠ some '[' := fun hh =>
          hmac ⟨rfl, (next_eq_bracket_iff hat).mpr hh⟩
        refine ⟨cs, [(.encStart, st.fileOffset)], [], hat.rest, ?_,
          adds_of_slot rfl hstart rfl fun m hm => ?_, fun ms' out hr => ?_⟩
        · refine ⟨fun hsome => ?_, fun _ => rfl⟩
          simp only [hend] at hsome
          cases hsome
        · rcases m with (_ | _ | _ | _ | _) | _ | _ | _ <;> first | rfl | exact absurd rfl hm
        · rw [hin]
          exact .enter hhead hr
    · rename_i hc
      split at h
      · cases h
      · rename_i hc'
        split at h
        · -- an escaped character
          rename_i hesc
          subst hesc
          obtain ⟨width, hwidth, h⟩ := Except.bind_eq_ok_iff.mp h
          obtain ⟨d, rest, b', rfl, rfl, hat'⟩ := escapedWidth_sound hat hwidth
          obtain ⟨bytes, hbytes, h⟩ := Except.bind_eq_ok_iff.mp h
          cases Except.pure_eq_ok_iff.mp h
          refine ⟨rest, [], [d], consumes_text hat'.rest hinv
            (extendBytes_sound hat' hbytes) fun ms' out hr => ?_⟩
          rw [hin] at hr ⊢
          refine .escaped ?_
          simpa using hr
        · rename_i hesc
          split at h
          · -- a placeholder
            rename_i hph
            subst hph
            obtain ⟨⟨p, consumed, display⟩, hp, h⟩ := Except.bind_eq_ok_iff.mp h
            obtain ⟨name, rest, hspec, rfl, hrest⟩ := parsePlaceholder_sound hat hp
            obtain ⟨st₁, hrec, h⟩ := Except.bind_eq_ok_iff.mp h
            obtain ⟨bytes, hbytes, h⟩ := Except.bind_eq_ok_iff.mp h
            cases Except.pure_eq_ok_iff.mp h
            refine ⟨rest, _, _, consumes_placeholder hrest hinv hrec
              (pushZeroes_sound hbytes) fun ms' out hr => ?_⟩
            rw [hin] at hr ⊢
            exact .placeholder hspec rfl hr
          · -- a plain character
            rename_i hph
            obtain ⟨bytes, hbytes, h⟩ := Except.bind_eq_ok_iff.mp h
            cases Except.pure_eq_ok_iff.mp h
            refine ⟨cs, [], [c], consumes_text hat.rest hinv
              (extendBytes_sound hat hbytes) fun ms' out hr => ?_⟩
            rw [hin] at hr ⊢
            refine .char ⟨hc, hc', hesc, hph⟩ ?_
            simpa using hr

/-- The tamper placeholder has one spelling. -/
theorem tt_of_mem_spec : ∀ spec ∈ placeholderSpecs, spec.2.1 = .tt → spec.1 = "tt" := by decide

/-- **One iteration inside the encrypted range** consumes one element of the template. -/
theorem scanInside_sound (hat : AtChar url i c cs b) (hin : st.inEncRange = true)
    (hinv : st.Inv) (h : scanInside cap mode url i b st = .ok (i', st')) :
    ∃ cs' ms ext, Consumes mode url st (c :: cs) i' st' cs' ms ext := by
  have hopen := firstByte_eq_iff (a := '[') (n := 0x5B) hat.first rfl rfl
  have hclose := firstByte_eq_iff (a := ']') (n := 0x5D) hat.first rfl rfl
  have hslash := firstByte_eq_iff (a := '\\') (n := 0x5C) hat.first rfl rfl
  have hbrace := firstByte_eq_iff (a := '{') (n := 0x7B) hat.first rfl rfl
  rw [scanInside, utf8CharWidth_of_firstByte hat.first] at h
  simp only [hopen, hclose, hslash, hbrace] at h
  split at h
  · -- the end of the encrypted range
    rename_i hc
    subst hc
    cases h
    have hend : st.encRangeEnd = none := by
      by_contra hsome
      have := (hinv.leave (Option.isSome_iff_ne_none.mpr hsome)).1
      rw [hin] at this
      cases this
    refine ⟨cs, [(.encEnd, st.fileOffset)], [], hat.rest, ⟨fun _ => ⟨rfl, hinv.enter hin⟩, nofun⟩,
      adds_of_slot rfl hend rfl fun m hm => ?_, fun ms' out hr => ?_⟩
    · rcases m with (_ | _ | _ | _ | _) | _ | _ | _ <;> first | rfl | exact absurd rfl hm
    · rw [hin]
      exact .leave hr
  · rename_i hc
    split at h
    · cases h
    · split at h
      · cases h
      · rename_i hc'
        split at h
        · -- an escaped character
          rename_i hesc
          subst hesc
          obtain ⟨width, hwidth, h⟩ := Except.bind_eq_ok_iff.mp h
          obtain ⟨d, rest, b', rfl, rfl, hat'⟩ := escapedWidth_sound hat hwidth
          obtain ⟨bytes, hbytes, h⟩ := Except.bind_eq_ok_iff.mp h
          cases Except.pure_eq_ok_iff.mp h
          refine ⟨rest, [], zeroText d.utf8Size, consumes_text hat'.rest hinv
            (pushZeroes_sound hbytes) fun ms' out hr => ?_⟩
          rw [hin] at hr ⊢
          rw [length_encode_zeroText] at hr
          exact .zeroedEscape hr
        · rename_i hesc
          split at h
          · -- the tamper placeholder
            rename_i hph
            subst hph
            obtain ⟨⟨p, consumed, display⟩, hp, h⟩ := Except.bind_eq_ok_iff.mp h
            obtain ⟨name, rest, hspec, rfl, hrest⟩ := parsePlaceholder_sound hat hp
            cases p with
            | tt =>
                obtain ⟨st₁, hrec, h⟩ := Except.bind_eq_ok_iff.mp h
                obtain ⟨bytes, hbytes, h⟩ := Except.bind_eq_ok_iff.mp h
                cases Except.pure_eq_ok_iff.mp h
                obtain rfl : name = "tt" := tt_of_mem_spec _ hspec rfl
                refine ⟨rest, _, _, consumes_placeholder hrest hinv hrec
                  (pushZeroes_sound hbytes) fun ms' out hr => ?_⟩
                rw [hin] at hr ⊢
                exact .tamper hr
            | uid | ctr | picc | mac => cases h
          · -- a plain character
            rename_i hph
            obtain ⟨bytes, hbytes, h⟩ := Except.bind_eq_ok_iff.mp h
            cases Except.pure_eq_ok_iff.mp h
            refine ⟨cs, [], zeroText c.utf8Size, consumes_text hat.rest hinv
              (pushZeroes_sound hbytes) fun ms' out hr => ?_⟩
            rw [hin] at hr ⊢
            rw [length_encode_zeroText] at hr
            exact .zeroed ⟨hc', hc, hesc, hph⟩ hr

/-- **One iteration** consumes one element of the template. -/
theorem scanStep_sound (hat : AtChar url i c cs b) (hinv : st.Inv)
    (h : scanStep cap mode url i st = .ok (i', st')) :
    ∃ cs' ms ext, Consumes mode url st (c :: cs) i' st' cs' ms ext := by
  obtain ⟨b', hb', h⟩ := Except.bind_eq_ok_iff.mp h
  obtain rfl : b = b' := Option.some.inj (hat.index.symm.trans (index_eq_ok_iff.mp hb'))
  cases hin : st.inEncRange with
  | true =>
      rw [hin, if_pos rfl] at h
      exact scanInside_sound hat hin hinv h
  | false =>
      rw [hin, if_neg Bool.false_ne_true] at h
      exact scanOutside_sound hat hin hinv h

/-- At the end of the template nothing is left to read. -/
theorem renders_end (hcs : url.drop i = Utf8.encode cs) (hlen : url.length ≤ i)
    (hend : st.inEncRange = false) :
    ∃ ms out, Renders mode st.inEncRange cs st.fileOffset ms out ∧
      st.Adds ms (Utf8.encode out) st := by
  obtain rfl : cs = [] := by
    refine Utf8.encode_injective ?_
    rw [← hcs, List.drop_of_length_le hlen, Utf8.encode_nil]
  rw [hend]
  exact ⟨[], [], .done, .refl st⟩

/-- **The scanner loop** reads the rest of the template. -/
theorem scanLoop_sound {fuel : ℕ} (hcs : url.drop i = Utf8.encode cs) (hinv : st.Inv)
    (h : scanLoop cap mode url fuel i st = .ok st') (hend : st'.inEncRange = false) :
    ∃ ms out, Renders mode st.inEncRange cs st.fileOffset ms out ∧
      st.Adds ms (Utf8.encode out) st' := by
  induction fuel generalizing i st cs with
  | zero =>
      rw [scanLoop] at h
      split at h
      · cases h
      · rename_i hlt
        cases h
        exact renders_end hcs (Nat.le_of_not_lt hlt) hend
  | succ fuel ih =>
      rw [scanLoop] at h
      split at h
      · obtain ⟨⟨i₁, st₁⟩, hstep, h⟩ := Except.bind_eq_ok_iff.mp h
        cases cs with
        | nil =>
            rename_i hlt
            have hlen := congrArg List.length hcs
            rw [List.length_drop, Utf8.encode_nil, List.length_nil] at hlen
            omega
        | cons c cs =>
            obtain ⟨b, hat⟩ := exists_atChar hcs
            obtain ⟨cs', ms, ext, hc⟩ := scanStep_sound hat hinv hstep
            obtain ⟨ms', out, hr, hadds⟩ := ih hc.rest hc.inv h
            refine ⟨ms ++ ms', ext ++ out, hc.extend ms' out hr, ?_⟩
            rw [Utf8.encode_append]
            exact hc.adds.trans hadds
      · rename_i hlt
        cases h
        exact renders_end hcs (Nat.le_of_not_lt hlt) hend

/-! ### The fuel -/

theorem utf8CharWidth_pos (b : UInt8) : 0 < utf8CharWidth b := by
  rw [utf8CharWidth]
  split
  · exact Nat.zero_lt_one
  · split
    · exact Nat.zero_lt_two
    · split <;> omega

/-- A placeholder takes at least its two braces, and ends inside the template. -/
theorem consumed_bounds {p : Placeholder} {consumed : ℕ} {display : String}
    (h : parsePlaceholder url i = .ok (p, consumed, display)) :
    0 < consumed ∧ i + consumed ≤ url.length := by
  rw [parsePlaceholder] at h
  split at h
  · cases h
  · rename_i len hfind
    have hlen := (List.findIdx?_eq_some_iff_getElem.mp hfind).1
    rw [List.length_drop] at hlen
    split at h
    · cases h
      exact ⟨Nat.succ_pos _, by omega⟩
    · cases h

/-- How far one iteration advances from the byte `b` at `i`. -/
inductive Advance (url : List UInt8) (i : ℕ) (b : UInt8) : ℕ → Prop
  | char : Advance url i b (utf8CharWidth b)
  | marker : Advance url i b 1
  | window : url[i + 1]? = some 0x5B → Advance url i b 2
  | escape {width : ℕ} : b = 0x5C → escapedWidth url i = .ok width → Advance url i b (1 + width)
  | placeholder {p : Placeholder} {consumed : ℕ} {display : String} :
      parsePlaceholder url i = .ok (p, consumed, display) → Advance url i b consumed

/-- One iteration advances by the element it reads. -/
theorem advance_of_scanStep (h : scanStep cap mode url i st = .ok (i', st')) :
    ∃ b w, url[i]? = some b ∧ Advance url i b w ∧ i' = i + w := by
  obtain ⟨b, hb, h⟩ := Except.bind_eq_ok_iff.mp h
  rw [index_eq_ok_iff] at hb
  have done : ∀ {w : ℕ} {s : ScanState}, (pure (i + w, s) : Scan (ℕ × ScanState)) = .ok (i', st') →
      Advance url i b w → ∃ b w, url[i]? = some b ∧ Advance url i b w ∧ i' = i + w := by
    rintro w s hw hadv
    cases Except.pure_eq_ok_iff.mp hw
    exact ⟨b, w, hb, hadv, rfl⟩
  split at h
  · rw [scanInside] at h
    split at h
    · exact done h .marker
    split at h
    · cases h
    split at h
    · cases h
    split at h
    · rename_i hesc
      obtain ⟨width, hwidth, h⟩ := Except.bind_eq_ok_iff.mp h
      obtain ⟨bytes, -, h⟩ := Except.bind_eq_ok_iff.mp h
      rw [Nat.add_assoc] at h
      exact done h (.escape hesc hwidth)
    split at h
    · obtain ⟨⟨p, consumed, display⟩, hp, h⟩ := Except.bind_eq_ok_iff.mp h
      cases p with
      | tt =>
          obtain ⟨st₁, -, h⟩ := Except.bind_eq_ok_iff.mp h
          obtain ⟨bytes, -, h⟩ := Except.bind_eq_ok_iff.mp h
          exact done h (.placeholder hp)
      | uid | ctr | picc | mac => cases h
    · obtain ⟨bytes, -, h⟩ := Except.bind_eq_ok_iff.mp h
      exact done h .char
  · rw [scanOutside] at h
    split at h
    · rename_i hmac
      split at h
      · cases h
      · exact done h (.window hmac.2)
    split at h
    · split at h
      · cases h
      · exact done h .marker
    split at h
    · cases h
    split at h
    · rename_i hesc
      obtain ⟨width, hwidth, h⟩ := Except.bind_eq_ok_iff.mp h
      obtain ⟨bytes, -, h⟩ := Except.bind_eq_ok_iff.mp h
      rw [Nat.add_assoc] at h
      exact done h (.escape hesc hwidth)
    split at h
    · obtain ⟨⟨p, consumed, display⟩, hp, h⟩ := Except.bind_eq_ok_iff.mp h
      obtain ⟨st₁, -, h⟩ := Except.bind_eq_ok_iff.mp h
      obtain ⟨bytes, -, h⟩ := Except.bind_eq_ok_iff.mp h
      exact done h (.placeholder hp)
    · obtain ⟨bytes, -, h⟩ := Except.bind_eq_ok_iff.mp h
      exact done h .char

/-- **Every iteration advances.** -/
theorem lt_of_scanStep (h : scanStep cap mode url i st = .ok (i', st')) : i < i' := by
  obtain ⟨b, w, -, hadv, rfl⟩ := advance_of_scanStep h
  cases hadv with
  | char => exact Nat.lt_add_of_pos_right (utf8CharWidth_pos b)
  | placeholder hp => exact Nat.lt_add_of_pos_right (consumed_bounds hp).1
  | marker | window | escape => omega

/-- **No iteration leaves the template** when it starts at a character. -/
theorem le_of_scanStep (hat : AtChar url i c cs b)
    (h : scanStep cap mode url i st = .ok (i', st')) : i' ≤ url.length := by
  obtain ⟨b', w, hb', hadv, rfl⟩ := advance_of_scanStep h
  obtain rfl : b = b' := Option.some.inj (hat.index.symm.trans hb')
  have hinside := hat.inside
  cases hadv with
  | char =>
      rw [utf8CharWidth_of_firstByte hat.first]
      exact hinside
  | marker =>
      have := c.utf8Size_pos
      omega
  | window hnext =>
      have := (List.getElem?_eq_some_iff.mp hnext).1
      omega
  | escape hesc hwidth =>
      obtain rfl : c = '\\' := (firstByte_eq_iff hat.first rfl rfl).mp hesc
      obtain ⟨d, rest, b', -, rfl, hat'⟩ := escapedWidth_sound hat hwidth
      have := hat'.inside
      omega
  | placeholder hp => exact (consumed_bounds hp).2

/-- **The fuel never runs out**: the result does not depend on it once it covers the rest of
the template. -/
theorem scanLoop_of_le {fuel fuel' : ℕ} (h : url.length - i ≤ fuel)
    (h' : url.length - i ≤ fuel') :
    scanLoop cap mode url fuel i st = scanLoop cap mode url fuel' i st := by
  induction fuel generalizing i st fuel' with
  | zero =>
      have hlen : ¬ i < url.length := by omega
      cases fuel' with
      | zero => rfl
      | succ fuel' => rw [scanLoop, scanLoop, if_neg hlen, if_neg hlen]
  | succ fuel ih =>
      by_cases hlt : i < url.length
      · obtain ⟨fuel', rfl⟩ : ∃ k, fuel' = k + 1 := ⟨fuel' - 1, by omega⟩
        rw [scanLoop, scanLoop, if_pos hlt, if_pos hlt]
        cases hstep : scanStep cap mode url i st with
        | error e => rfl
        | ok next =>
            have hadv := lt_of_scanStep hstep
            exact ih (by omega) (by omega)
      · cases fuel' with
        | zero => rw [scanLoop, scanLoop, if_neg hlt, if_neg hlt]
        | succ fuel' => rw [scanLoop, scanLoop, if_neg hlt, if_neg hlt]

end SdmUrl

end Ntag424
