import Mathlib.Data.List.Forall2
import Mathlib.Tactic.Common

/-!
# UTF-8 Byte Strings

The bytes of a text and back. Text is a list of characters; core's `String.utf8EncodeChar`
encodes one of them, and core's decoder is the reference for the way back.

The lemmas describe what a byte-level scanner sees: the first byte of a character tells its
width, and a byte below `0x80` is always a whole character.

## Main results

* `Utf8.decode?_encode`: decoding inverts encoding.
* `Utf8.encode_injective`: texts are told apart by their bytes.
* `Utf8.encodeChar_eq_cons`: shape of the encoding of one character.
* `Utf8.exists_encode_of_retouched`: replacing ASCII bytes by ASCII bytes leaves a text.
* `Utf8.exists_split_of_findIdx?`: the first occurrence of an ASCII byte is the first
  occurrence of its character.
* `Utf8.boundary_of_drop`: a position behind which the bytes are a text is a character boundary.
-/

namespace Utf8

/-- The bytes of a text. -/
def encode (cs : List Char) : List UInt8 := cs.flatMap String.utf8EncodeChar

/-- The text of a byte string, if it is one. -/
def decode? (bs : List UInt8) : Option String := String.fromUTF8? bs.toByteArray

@[simp] theorem encode_nil : encode [] = [] := rfl

@[simp] theorem encode_cons (c : Char) (cs : List Char) :
    encode (c :: cs) = String.utf8EncodeChar c ++ encode cs := List.flatMap_cons

@[simp] theorem encode_append (cs ds : List Char) : encode (cs ++ ds) = encode cs ++ encode ds :=
  List.flatMap_append

/-- **Decoding inverts encoding.** -/
@[simp] theorem decode?_encode (cs : List Char) :
    decode? (encode cs) = some (String.ofList cs) := by
  have hbytes : (encode cs).toByteArray = cs.utf8Encode := rfl
  have hvalid : (encode cs).toByteArray.IsValidUTF8 := ⟨cs, hbytes⟩
  rw [decode?, String.fromUTF8?, dif_pos hvalid]
  refine congrArg some (String.toByteArray_inj.mp ?_)
  rw [String.toByteArray_ofList]
  exact hbytes

/-- What was decoded encodes to the same bytes. -/
theorem encode_of_decode? {bs : List UInt8} {text : String} (h : decode? bs = some text) :
    encode text.toList = bs := by
  rw [decode?, String.fromUTF8?] at h
  split at h
  · rename_i hvalid
    cases h
    have hbytes : (encode (String.fromUTF8 bs.toByteArray hvalid).toList).toByteArray =
        bs.toByteArray := String.utf8Encode_toList
    simpa using congrArg (fun a => a.data.toList) hbytes
  · cases h

/-- Texts are told apart by their bytes. -/
theorem encode_injective : Function.Injective encode := by
  intro cs ds h
  have hdec := congrArg decode? h
  rw [decode?_encode, decode?_encode, Option.some.injEq, String.ofList_inj] at hdec
  exact hdec

/-! ### The encoding of one character -/

/-- The first byte of a character announces its width; the others are continuation bytes. -/
inductive FirstByte (c : Char) (b : UInt8) : Prop
  | one (hsize : c.utf8Size = 1) (hval : b.toNat = c.toNat) (h : b.toNat < 0x80)
  | two (hsize : c.utf8Size = 2) (h : 0xC0 ≤ b.toNat ∧ b.toNat < 0xE0)
  | three (hsize : c.utf8Size = 3) (h : 0xE0 ≤ b.toNat ∧ b.toNat < 0xF0)
  | four (hsize : c.utf8Size = 4) (h : 0xF0 ≤ b.toNat ∧ b.toNat < 0xF8)

/-- **Shape of the encoding of a character.** -/
theorem encodeChar_eq_cons (c : Char) :
    ∃ b bs, String.utf8EncodeChar c = b :: bs ∧ bs.length + 1 = c.utf8Size ∧ FirstByte c b ∧
      ∀ d ∈ bs, 0x80 ≤ d.toNat := by
  have hlen := String.length_utf8EncodeChar c
  have hchar : c.val.toNat < 0x110000 := by
    have := c.valid
    simp only [UInt32.isValidChar, Nat.isValidChar] at this
    omega
  have hbyte : ∀ n k : ℕ, n < 256 → k ≤ n → k ≤ (UInt8.ofNat n).toNat ∧
      (UInt8.ofNat n).toNat = n := by
    intro n k hn hk
    rw [UInt8.toNat_ofNat_of_lt' hn]
    exact ⟨hk, rfl⟩
  have hcont : ∀ n : ℕ, 0x80 ≤ (UInt8.ofNat (n % 64 + 0x80)).toNat := fun n =>
    (hbyte (n % 64 + 0x80) 0x80 (by omega) (by omega)).1
  simp only [String.utf8EncodeChar] at hlen ⊢
  by_cases h₁ : c.val.toNat ≤ 0x7f
  · rw [if_pos h₁] at hlen ⊢
    have hb := hbyte c.val.toNat 0 (by omega) (by omega)
    exact ⟨_, [], rfl, hlen, .one hlen.symm hb.2 (by rw [hb.2]; omega), nofun⟩
  rw [if_neg h₁] at hlen ⊢
  by_cases h₂ : c.val.toNat ≤ 0x7ff
  · rw [if_pos h₂] at hlen ⊢
    have hb := hbyte (c.val.toNat / 64 % 32 + 0xc0) 0xc0 (by omega) (by omega)
    refine ⟨_, _, rfl, hlen, .two hlen.symm ⟨hb.1, by rw [hb.2]; omega⟩, ?_⟩
    simpa using hcont _
  rw [if_neg h₂] at hlen ⊢
  by_cases h₃ : c.val.toNat ≤ 0xffff
  · rw [if_pos h₃] at hlen ⊢
    have hb := hbyte (c.val.toNat / 4096 % 16 + 0xe0) 0xe0 (by omega) (by omega)
    refine ⟨_, _, rfl, hlen, .three hlen.symm ⟨hb.1, by rw [hb.2]; omega⟩, ?_⟩
    simpa using ⟨hcont _, hcont _⟩
  · rw [if_neg h₃] at hlen ⊢
    have hb := hbyte (c.val.toNat / 262144 % 8 + 0xf0) 0xf0 (by omega) (by omega)
    refine ⟨_, _, rfl, hlen, .four hlen.symm ⟨hb.1, by rw [hb.2]; omega⟩, ?_⟩
    simpa using ⟨hcont _, hcont _, hcont _⟩

/-- The bytes of a character below `0x80` are the character itself. -/
theorem encodeChar_of_lt {c : Char} (h : c.toNat < 0x80) :
    String.utf8EncodeChar c = [UInt8.ofNat c.toNat] := by
  have h' : c.val.toNat ≤ 0x7f := Nat.lt_succ_iff.mp h
  simp only [String.utf8EncodeChar, if_pos h']
  rfl

/-- A byte below `0x80` in the encoding of a character is the whole character. -/
theorem eq_of_mem_encodeChar {c : Char} {b : UInt8} (hb : b ∈ String.utf8EncodeChar c)
    (h : b.toNat < 0x80) : c.toNat = b.toNat ∧ String.utf8EncodeChar c = [b] := by
  obtain ⟨b₀, bs, henc, hlen, hfirst, hrest⟩ := encodeChar_eq_cons c
  rw [henc] at hb ⊢
  have hb₀ : b = b₀ := by
    rcases List.mem_cons.mp hb with hb | hb
    · exact hb
    · exact absurd (hrest b hb) (Nat.not_le.mpr h)
  subst hb₀
  cases hfirst with
  | one hsize hval =>
      obtain rfl : bs = [] := List.eq_nil_of_length_eq_zero (by omega)
      exact ⟨hval.symm, rfl⟩
  | two _ h' | three _ h' | four _ h' => omega

/-- An ASCII text whose bytes start the bytes of another text starts that text. -/
theorem prefix_of_encode_prefix {as cs : List Char} (has : ∀ a ∈ as, a.toNat < 0x80)
    (h : encode as <+: encode cs) : as <+: cs := by
  induction as generalizing cs with
  | nil => exact List.nil_prefix
  | cons a as ih =>
      have ha := has a List.mem_cons_self
      rw [encode_cons, encodeChar_of_lt ha] at h
      cases cs with
      | nil => exact absurd h (by simp)
      | cons c cs =>
          obtain ⟨b, bs, henc, -⟩ := encodeChar_eq_cons c
          rw [encode_cons, henc, List.singleton_append, List.cons_append,
            List.cons_prefix_cons] at h
          obtain ⟨hb, h⟩ := h
          have hbnat : b.toNat = a.toNat := by
            rw [← hb, UInt8.toNat_ofNat_of_lt' (by rw [UInt8.size]; omega)]
          have hmem : b ∈ String.utf8EncodeChar c := by
            rw [henc]
            exact List.mem_cons_self
          obtain ⟨hc, hsingle⟩ := eq_of_mem_encodeChar hmem (by omega)
          obtain rfl : bs = [] := by
            rw [henc] at hsingle
            exact (List.cons.inj hsingle).2
          obtain rfl : a = c := Char.toNat_inj.mp (by rw [hc, hbnat])
          rw [List.cons_prefix_cons]
          exact ⟨rfl, ih (fun d hd => has d (List.mem_cons_of_mem _ hd)) h⟩

/-! ### Replacing ASCII characters -/

/-- Every byte is the old one, or both are ASCII. -/
def Retouched (bs' bs : List UInt8) : Prop :=
  List.Forall₂ (fun b' b => b' = b ∨ b'.toNat < 0x80 ∧ b.toNat < 0x80) bs' bs

/-- An ASCII byte is a character. -/
theorem exists_encodeChar_of_lt {b : UInt8} (h : b.toNat < 0x80) :
    ∃ c, String.utf8EncodeChar c = [b] := by
  have hvalid : b.toNat.isValidChar := .inl (by omega)
  have hc : (Char.ofNat b.toNat).toNat = b.toNat := by
    rw [Char.ofNat, dif_pos hvalid]
    rfl
  refine ⟨Char.ofNat b.toNat, ?_⟩
  rw [encodeChar_of_lt (by rw [hc]; exact h), hc, UInt8.ofNat_toNat]

/-- Bytes of a character that are not replaced by ASCII bytes stay as they are. -/
theorem Retouched.eq_of_forall_le {bs' bs : List UInt8} (h : Retouched bs' bs)
    (hbs : ∀ b ∈ bs, 0x80 ≤ b.toNat) : bs' = bs := by
  induction h with
  | nil => rfl
  | cons hb _ ih =>
      have hlarge := hbs _ List.mem_cons_self
      obtain rfl := hb.resolve_right fun hsmall => by omega
      rw [ih fun b hb => hbs b (List.mem_cons_of_mem _ hb)]

/-- **Replacing ASCII bytes by ASCII bytes leaves a text.** -/
theorem exists_encode_of_retouched {cs : List Char} {bs : List UInt8}
    (h : Retouched bs (encode cs)) : ∃ ds, bs = encode ds := by
  induction cs generalizing bs with
  | nil => exact ⟨[], List.forall₂_nil_right_iff.mp h⟩
  | cons c cs ih =>
      rw [encode_cons] at h
      have hhead := List.forall₂_take_append bs _ _ h
      obtain ⟨ds, hds⟩ := ih (List.forall₂_drop_append bs _ _ h)
      obtain ⟨d, hd⟩ : ∃ d, bs.take (String.utf8EncodeChar c).length = String.utf8EncodeChar d := by
        obtain ⟨b, rest, henc, hlen, hfirst, hrest⟩ := encodeChar_eq_cons c
        cases hfirst with
        | one hsize _ hb =>
            obtain rfl : rest = [] := List.eq_nil_of_length_eq_zero (by omega)
            rw [henc] at hhead ⊢
            obtain ⟨b', l, hb', hl, htake⟩ := List.forall₂_cons_right_iff.mp hhead
            obtain rfl := List.forall₂_nil_right_iff.mp hl
            have hsmall : b'.toNat < 0x80 := by
              rcases hb' with rfl | hb'
              · exact hb
              · exact hb'.1
            obtain ⟨d, hd⟩ := exists_encodeChar_of_lt hsmall
            exact ⟨d, htake.trans hd.symm⟩
        | two _ hb | three _ hb | four _ hb =>
            refine ⟨c, Retouched.eq_of_forall_le hhead fun x hx => ?_⟩
            rw [henc] at hx
            rcases List.mem_cons.mp hx with rfl | hx
            · omega
            · exact hrest x hx
      refine ⟨d :: ds, ?_⟩
      rw [encode_cons, ← hd, ← hds, List.take_append_drop]

/-! ### Finding an ASCII character -/

/-- The first occurrence of an ASCII byte is the first occurrence of its character. -/
theorem exists_split_of_findIdx? {c₀ : Char} {b₀ : UInt8} (hb₀ : b₀.toNat = c₀.toNat)
    (h₀ : b₀.toNat < 0x80) {cs : List Char} {k : ℕ}
    (h : (encode cs).findIdx? (· = b₀) = some k) :
    ∃ ds es, cs = ds ++ c₀ :: es ∧ c₀ ∉ ds ∧ k = (encode ds).length := by
  induction cs generalizing k with
  | nil => cases h
  | cons c cs ih =>
      by_cases hc : c = c₀
      · subst hc
        refine ⟨[], cs, rfl, List.not_mem_nil, ?_⟩
        rw [encode_cons, encodeChar_of_lt (by omega)] at h
        have hself : UInt8.ofNat c.toNat = b₀ := UInt8.toNat_inj.mp (by
          rw [UInt8.toNat_ofNat_of_lt' (by rw [UInt8.size]; omega), hb₀])
        simpa [List.findIdx?_cons, hself, eq_comm] using h
      · have hno : ∀ b ∈ String.utf8EncodeChar c, b ≠ b₀ := by
          rintro b hb rfl
          refine hc (Char.toNat_inj.mp ?_)
          rw [(eq_of_mem_encodeChar hb h₀).1, hb₀]
        have hnone : (String.utf8EncodeChar c).findIdx? (· = b₀) = none := by
          simpa [List.findIdx?_eq_none_iff] using hno
        rw [encode_cons, List.findIdx?_append, hnone] at h
        obtain ⟨k', hk', rfl⟩ := Option.map_eq_some_iff.mp (by simpa using h)
        obtain ⟨ds, es, rfl, hnot, rfl⟩ := ih hk'
        refine ⟨c :: ds, es, rfl, ?_, ?_⟩
        · rw [List.mem_cons]
          rintro (rfl | hmem)
          · exact hc rfl
          · exact hnot hmem
        · rw [encode_cons, List.length_append, String.length_utf8EncodeChar, Nat.add_comm]

/-! ### Character boundaries -/

/-- A byte position between two characters of a text. -/
def Boundary (cs : List Char) (i : ℕ) : Prop :=
  ∃ before after, cs = before ++ after ∧ i = (encode before).length

theorem Boundary.le_length {cs : List Char} {i : ℕ} (h : Boundary cs i) :
    i ≤ (encode cs).length := by
  obtain ⟨before, after, rfl, rfl⟩ := h
  rw [encode_append, List.length_append]
  exact Nat.le_add_right _ _

/-- Behind a boundary the bytes are those of the rest of the text. -/
theorem drop_encode_append (before after : List Char) :
    (encode (before ++ after)).drop (encode before).length = encode after := by
  rw [encode_append, List.drop_left]

/-- The bytes of a character behind its first one are continuation bytes. -/
theorem lt_of_encodeChar_eq_cons {c : Char} {b d : UInt8} {bs : List UInt8}
    (h : String.utf8EncodeChar c = b :: bs) (hd : d ∈ bs) : d.toNat < 0xC0 := by
  have hcont : ∀ n : ℕ, (UInt8.ofNat (n % 64 + 0x80)).toNat < 0xC0 := by
    intro n
    rw [UInt8.toNat_ofNat_of_lt' (by rw [UInt8.size]; omega)]
    omega
  simp only [String.utf8EncodeChar] at h
  split_ifs at h <;> obtain ⟨-, rfl⟩ := List.cons.inj h
  · cases hd
  all_goals
    simp only [List.mem_cons, List.not_mem_nil, or_false] at hd
    rcases hd with rfl | rfl | rfl <;> exact hcont _

/-- **A position behind which the bytes are a text is a character boundary.** -/
theorem boundary_of_drop {cs after : List Char} {i : ℕ} (hi : i ≤ (encode cs).length)
    (h : (encode cs).drop i = encode after) : Boundary cs i := by
  induction cs generalizing i with
  | nil => exact ⟨[], [], rfl, Nat.le_zero.mp hi⟩
  | cons c cs ih =>
      obtain ⟨b, bs, henc, hlen, -, hle⟩ := encodeChar_eq_cons c
      rcases Nat.eq_zero_or_pos i with rfl | hpos
      · exact ⟨[], c :: cs, rfl, rfl⟩
      by_cases hlt : i < (String.utf8EncodeChar c).length
      · -- inside a character the next byte is a continuation byte, which starts no text
        rw [encode_cons, List.drop_append_of_le_length (Nat.le_of_lt hlt), henc,
          show i = i - 1 + 1 by omega, List.drop_succ_cons] at h
        rw [henc, List.length_cons] at hlt
        have hd : bs[i - 1] ∈ bs := List.getElem_mem (by omega)
        rw [List.drop_eq_getElem_cons (by omega), List.cons_append] at h
        cases after with
        | nil => cases h
        | cons a after =>
            obtain ⟨b', bs', henc', -, hfirst, -⟩ := encodeChar_eq_cons a
            rw [encode_cons, henc', List.cons_append] at h
            have hb : bs[i - 1] = b' := (List.cons.inj h).1
            have hge := hle _ hd
            have hlt' := lt_of_encodeChar_eq_cons henc hd
            rw [hb] at hge hlt'
            cases hfirst with
            | one | two | three | four => omega
      · rw [encode_cons, List.drop_append, List.drop_of_length_le (by omega), List.nil_append] at h
        rw [encode_cons, List.length_append] at hi
        obtain ⟨before, rest, rfl, hbefore⟩ := ih (by omega) h
        refine ⟨c :: before, rest, rfl, ?_⟩
        rw [encode_cons, List.length_append, ← hbefore]
        omega

end Utf8
