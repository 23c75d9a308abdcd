import Mathlib.Tactic.Common
import Ntag424.Lib.FirstMatch
import Ntag424.SdmUrl.Config

/-!
# Longest-Match Prefix Compression

The prefix table of the URI record type is searched in the order of its codes. Two roots with
extensions come in the right order, `http://` and `ftp://`, but `urn:` stands before `urn:epc:`,
`urn:nfc:` and their like.

## Main results

* `detectUriPrefix_longest_iff`: the detected prefix is the longest of the table, exactly when
  the URL does not start with `urn:epc:` or `urn:nfc:`.
-/

namespace Ntag424

namespace SdmUrl

/-- The bytes of a table entry. -/
def prefixBytes (entry : UInt8 × String) : List UInt8 := Utf8.encode entry.2.toList

/-- The bytes of `urn:epc:`. -/
def urnEpc : List UInt8 := Utf8.encode "urn:epc:".toList

/-- The bytes of `urn:nfc:`. -/
def urnNfc : List UInt8 := Utf8.encode "urn:nfc:".toList

/-- The code and the length of the longest entry of the table that starts the URL; both are zero
when none does. -/
def IsLongestPrefix (url : List UInt8) (found : UInt8 × ℕ) : Prop :=
  (found = (0x00, 0) ∧ ∀ entry ∈ ndefUriPrefixes, ¬ prefixBytes entry <+: url) ∨
    ∃ entry ∈ ndefUriPrefixes, found = (entry.1, (prefixBytes entry).length) ∧
      prefixBytes entry <+: url ∧
      ∀ other ∈ ndefUriPrefixes, prefixBytes other <+: url →
        (prefixBytes other).length ≤ (prefixBytes entry).length

/-- An entry comes before one that extends it only when that is one of the `urn:` entries. -/
theorem extensions_first : ndefUriPrefixes.Pairwise fun a b =>
    prefixBytes a <+: prefixBytes b → (prefixBytes b).length ≤ (prefixBytes a).length ∨
      urnEpc <+: prefixBytes b ∨ urnNfc <+: prefixBytes b := by
  decide +kernel

/-- What the table holds up to `urn:`, and that nothing there extends `urn:epc:` or `urn:nfc:`. -/
theorem table_around_urn : ∃ before after, ndefUriPrefixes = before ++ (0x13, "urn:") :: after ∧
    ∀ entry ∈ before ++ [(0x13, "urn:")],
      ¬ urnEpc <+: prefixBytes entry ∧ ¬ urnNfc <+: prefixBytes entry :=
  ⟨ndefUriPrefixes.take 18, ndefUriPrefixes.drop 19, by decide +kernel, by decide +kernel⟩

/-- The detected prefix is that of the first match. -/
theorem detectUriPrefix_eq (url : List UInt8) :
    detectUriPrefix url = ((FirstMatch.find prefixBytes ndefUriPrefixes url).map
      fun entry => (entry.1, (prefixBytes entry).length)).getD (0x00, 0) := by
  rw [detectUriPrefix, FirstMatch.find]
  simp only [prefixBytes]
  cases ndefUriPrefixes.find? fun entry => (Utf8.encode entry.2.toList).isPrefixOf url with
  | none => rfl
  | some entry => rfl

/-- No code of the table is zero. -/
theorem code_ne_zero : ∀ entry ∈ ndefUriPrefixes, entry.1 ≠ 0x00 := by
  decide

/-- The codes name the entries. -/
theorem code_injective : ∀ a ∈ ndefUriPrefixes, ∀ b ∈ ndefUriPrefixes, a.1 = b.1 → a = b := by
  decide +kernel

/-- A URL that starts with one of the two extensions is cut after `urn:` at the latest. -/
theorem not_isLongestPrefix {url root : List UInt8}
    (hroot : root = urnEpc ∨ root = urnNfc) (hurl : root <+: url) :
    ¬ IsLongestPrefix url (detectUriPrefix url) := by
  have hmem : ∃ entry ∈ ndefUriPrefixes, prefixBytes entry = root := by
    rcases hroot with rfl | rfl
    · exact ⟨(0x22, "urn:epc:"), by decide, rfl⟩
    · exact ⟨(0x23, "urn:nfc:"), by decide, rfl⟩
  have hurn : prefixBytes (0x13, "urn:") <+: url := by
    refine List.IsPrefix.trans ?_ hurl
    rcases hroot with rfl | rfl <;> decide +kernel
  obtain ⟨before, after, htable, hnone⟩ := table_around_urn
  obtain ⟨root', hroot', rfl⟩ := hmem
  rintro (⟨-, hno⟩ | ⟨entry, hentry, hfound, hstarts, hlongest⟩)
  · exact hno _ hroot' hurl
  · have hext : prefixBytes root' <+: prefixBytes entry :=
      List.prefix_of_prefix_length_le hurl hstarts (hlongest _ hroot' hurl)
    rw [detectUriPrefix_eq] at hfound
    cases hfind : FirstMatch.find prefixBytes ndefUriPrefixes url with
    | none =>
        rw [hfind] at hfound
        exact code_ne_zero entry hentry (congrArg Prod.fst hfound).symm
    | some first =>
        rw [hfind, Option.map_some, Option.getD_some] at hfound
        obtain rfl := code_injective first (FirstMatch.starts_of_find hfind).1 entry hentry
          (Prod.mk.inj hfound).1
        rw [htable] at hfind
        have := hnone first (FirstMatch.mem_of_find hurn hfind)
        rcases hroot with h | h
        · exact this.1 (h ▸ hext)
        · exact this.2 (h ▸ hext)

/-- **Longest-match compression** of a URL, exactly when it does not start with `urn:epc:` or
`urn:nfc:`. -/
theorem detectUriPrefix_longest_iff (url : List UInt8) :
    IsLongestPrefix url (detectUriPrefix url) ↔ ¬ urnEpc <+: url ∧ ¬ urnNfc <+: url := by
  constructor
  · intro hlongest
    exact ⟨fun h => not_isLongestPrefix (.inl rfl) h hlongest,
      fun h => not_isLongestPrefix (.inr rfl) h hlongest⟩
  · rintro ⟨hepc, hnfc⟩
    rw [detectUriPrefix_eq]
    cases hfind : FirstMatch.find prefixBytes ndefUriPrefixes url with
    | none =>
        refine .inl ⟨rfl, fun entry hentry hstarts => ?_⟩
        have := List.find?_eq_none.mp hfind entry hentry
        exact this (List.isPrefixOf_iff_prefix.mpr hstarts)
    | some entry =>
        obtain ⟨hmem, hstarts⟩ := FirstMatch.starts_of_find hfind
        refine .inr ⟨entry, hmem, rfl, hstarts, ?_⟩
        refine FirstMatch.length_le_of_find (extensions_first.imp fun h hext hstarts => ?_) hfind
        rcases h hext with hle | hext | hext
        · exact hle
        · exact absurd (hext.trans hstarts) hepc
        · exact absurd (hext.trans hstarts) hnfc

/-- `urn:epc:id:` is compressed as `urn:`. -/
theorem urn_epc_id_not_longest :
    ¬ IsLongestPrefix (Utf8.encode "urn:epc:id:1".toList)
      (detectUriPrefix (Utf8.encode "urn:epc:id:1".toList)) :=
  not_isLongestPrefix (.inl rfl) (by decide +kernel)

end SdmUrl

end Ntag424
