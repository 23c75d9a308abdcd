import Mathlib.Tactic.Common
import Ntag424.Lib.Numerals
import Ntag424.SdmUrl.Config

/-!
# When Parsing an NDEF File Panics

`parse_ndef_uri` is built with a string that grows, or, without an allocator, with an array of
256 bytes, to which `push_str` panics when a text does not fit.

## Main results

* `parseNdefUriIn_alloc`: with a string that grows, it is `parseNdefUri`.
* `parseNdefUriIn_total_iff`: it returns a URL or an error exactly on the files `Parsable`. The
  others announce fewer than five bytes and have the header of a URI record, or their URL does
  not fit.
-/

namespace Ntag424

namespace SdmUrl

open Outcome

/-- `UriString`: a string that grows, or an array of 256 bytes. -/
inductive UriString where
  | alloc
  | array
deriving DecidableEq, Repr

namespace UriString

/-- `with_capacity`, or a new array. -/
def create (build : UriString) (prefixLen payloadLen : ℕ) : Outcome ParseError String :=
  match build with
  | alloc => do
      let _ ← checkedSub (prefixLen + payloadLen) 1
      return ""
  | array => return ""

/-- `push_str`: an array panics when the text does not fit. -/
def pushStr (build : UriString) (url text : String) : Outcome ParseError String :=
  if build = array ∧ 256 < (Utf8.encode (url ++ text).toList).length then panicked
  else .ok (url ++ text)

end UriString

/-- The part of `parse_ndef_uri` behind the header checks, on a file cut to its announced size. -/
def parseRecord (build : UriString) (file : List UInt8) : Outcome ParseError String := do
  let payloadLen ← index file 4
  let prefixCode ← index file 6
  match prefixText prefixCode with
  | none => fail (.unknownPrefixCode prefixCode)
  | some text =>
      if file.length ≠ 2 + 4 + payloadLen.toNat then
        fail (.payloadSizeMismatch (2 + 4 + payloadLen.toNat) file.length)
      else do
        let url ← build.create (Utf8.encode text.toList).length payloadLen.toNat
        let prefixStr ← fromUtf8 (Utf8.encode text.toList)
        let url ← build.pushStr url prefixStr
        let body ← sliceRange file 7 file.length
        let bodyStr ← fromUtf8 body
        build.pushStr url bodyStr

/-- `parse_ndef_uri` in either build. -/
def parseNdefUriIn (build : UriString) (ndefBytes : List UInt8) : Outcome ParseError String :=
  if ndefBytes.length < 7 ∨ ndefBytes[2]? ≠ some 0xD1 ∨ ndefBytes[3]? ≠ some 0x01 ∨
      ndefBytes[5]? ≠ some 0x55 then fail .invalidHeader
  else do
    let high ← index ndefBytes 0
    let low ← index ndefBytes 1
    let size := high.toNat * 2 ^ 8 + low.toNat
    if ndefBytes.length < size + 2 then fail (.sizeMismatch (size + 2) ndefBytes.length)
    else do
      let ndefBytes ← sliceRange ndefBytes 0 (size + 2)
      parseRecord build ndefBytes

/-- With a string that grows, nothing changes. -/
theorem parseNdefUriIn_alloc (ndefBytes : List UInt8) :
    parseNdefUriIn .alloc ndefBytes = parseNdefUri ndefBytes := by
  have hpush : ∀ url text : String, UriString.alloc.pushStr url text = .ok (url ++ text) :=
    fun url text => if_neg fun h => nomatch h.1
  simp only [parseNdefUriIn, parseRecord, parseNdefUri, UriString.create, hpush, bind_assoc,
    pure_bind,
    Except.ok_bind', String.empty_append]
  rfl

/-! ### The files it parses -/

/-- The header of a URI record. -/
def HasUriHeader (ndefBytes : List UInt8) : Prop :=
  7 ≤ ndefBytes.length ∧ ndefBytes[2]? = some 0xD1 ∧ ndefBytes[3]? = some 0x01 ∧
    ndefBytes[5]? = some 0x55

/-- The announced length `NLEN`. -/
def nlen (ndefBytes : List UInt8) : ℕ := Numerals.ofBe (ndefBytes.take 2)

/-- The URL fits its string, if the prefix is known and the record fills the announced length
with a text. -/
def UriString.Holds (build : UriString) (ndefBytes : List UInt8) : Prop :=
  build = array → ∀ payloadLen, ndefBytes[4]? = some payloadLen →
    ∀ code, ndefBytes[6]? = some code → ∀ text, prefixText code = some text →
    nlen ndefBytes = 4 + payloadLen.toNat →
    (Utf8.decode? (slice ndefBytes 7 (nlen ndefBytes - 5))).isSome →
    (Utf8.encode text.toList).length + (nlen ndefBytes - 5) ≤ 256

/-- A file with the header of a URI record that is not cut short announces a record in full,
and its URL fits. -/
def Parsable (build : UriString) (ndefBytes : List UInt8) : Prop :=
  HasUriHeader ndefBytes → nlen ndefBytes + 2 ≤ ndefBytes.length →
    5 ≤ nlen ndefBytes ∧ build.Holds ndefBytes

theorem nlen_cons (b₀ b₁ : UInt8) (rest : List UInt8) :
    nlen (b₀ :: b₁ :: rest) = b₀.toNat * 2 ^ 8 + b₁.toNat := by
  simp only [nlen, Numerals.ofBe, List.take_succ_cons, List.take_zero, List.reverse_cons,
    List.reverse_nil, List.nil_append, List.cons_append, Numerals.ofLe]
  omega

/-! ### The end of a parse -/

theorem fromUtf8_encode (text : String) : fromUtf8 (Utf8.encode text.toList) = .ok text := by
  rw [fromUtf8, Utf8.decode?_encode, String.ofList_toList]

/-- Appending a text panics when the array is too small. -/
theorem pushStr_eq_panicked_iff {build : UriString} {url text : String} :
    build.pushStr url text = panicked ↔ build = .array ∧
      256 < (Utf8.encode url.toList).length + (Utf8.encode text.toList).length := by
  rw [UriString.pushStr, String.toList_append, Utf8.encode_append, List.length_append]
  split
  · rename_i h
    exact ⟨fun _ => h, fun _ => rfl⟩
  · rename_i h
    exact ⟨nofun, fun h' => absurd h' h⟩

/-- The header checks pass on the files with the header of a URI record that are not cut short;
every other file is refused. -/
theorem parseNdefUriIn_eq (build : UriString) (ndefBytes : List UInt8) :
    (∃ e, parseNdefUriIn build ndefBytes = fail e ∧
      ¬ (HasUriHeader ndefBytes ∧ nlen ndefBytes + 2 ≤ ndefBytes.length)) ∨
    (parseNdefUriIn build ndefBytes = parseRecord build (ndefBytes.take (nlen ndefBytes + 2)) ∧
      HasUriHeader ndefBytes ∧ nlen ndefBytes + 2 ≤ ndefBytes.length) := by
  rw [parseNdefUriIn]
  split
  · rename_i hno
    refine .inl ⟨_, rfl, ?_⟩
    rintro ⟨⟨hlen, h2, h3, h5⟩, -⟩
    rcases hno with hno | hno | hno | hno
    · omega
    · exact hno h2
    · exact hno h3
    · exact hno h5
  · rename_i hheader
    simp only [not_or, not_lt, ne_eq, not_not] at hheader
    match ndefBytes, hheader with
    | b₀ :: b₁ :: rest, hheader =>
        rw [nlen_cons]
        simp only [index, List.getElem?_cons_zero, List.getElem?_cons_succ, Except.ok_bind']
        split
        · rename_i hshort
          refine .inl ⟨_, rfl, ?_⟩
          rintro ⟨-, hle⟩
          omega
        · rename_i hle
          refine .inr ⟨?_, hheader, by omega⟩
          rw [sliceRange, if_pos ⟨Nat.zero_le _, by omega⟩, Except.ok_bind']
          rfl

/-- Reading a record panics when it announces fewer than five bytes, or its URL does not fit. -/
theorem parseRecord_eq_panicked_iff {build : UriString} {ndefBytes : List UInt8}
    (hle : nlen ndefBytes + 2 ≤ ndefBytes.length) :
    parseRecord build (ndefBytes.take (nlen ndefBytes + 2)) = panicked ↔
      ¬ (5 ≤ nlen ndefBytes ∧ build.Holds ndefBytes) := by
  have hlen : (ndefBytes.take (nlen ndefBytes + 2)).length = nlen ndefBytes + 2 := by
    rw [List.length_take]
    omega
  have hindex : ∀ i, i < nlen ndefBytes + 2 →
      ∃ b, ndefBytes[i]? = some b ∧
        (index (ndefBytes.take (nlen ndefBytes + 2)) i : Outcome ParseError UInt8) = .ok b := by
    intro i hi
    obtain ⟨b, hb⟩ : ∃ b, ndefBytes[i]? = some b := ⟨_, List.getElem?_eq_getElem (by omega)⟩
    exact ⟨b, hb, index_eq_ok_iff.mpr (by rw [List.getElem?_take_of_lt hi, hb])⟩
  have hpanic : ∀ i, nlen ndefBytes + 2 ≤ i →
      (index (ndefBytes.take (nlen ndefBytes + 2)) i : Outcome ParseError UInt8) = panicked := by
    intro i hi
    rw [index, List.getElem?_eq_none (by omega)]
  rw [parseRecord]
  by_cases hshort : 5 ≤ nlen ndefBytes
  · obtain ⟨payloadLen, hpayload, hindex4⟩ := hindex 4 (by omega)
    obtain ⟨code, hcode, hindex6⟩ := hindex 6 (by omega)
    rw [hindex4, Except.ok_bind', hindex6, Except.ok_bind', hlen]
    have hholds : build.Holds ndefBytes ↔ (build = .array → ∀ text, prefixText code = some text →
        nlen ndefBytes = 4 + payloadLen.toNat →
        (Utf8.decode? (slice ndefBytes 7 (nlen ndefBytes - 5))).isSome →
        (Utf8.encode text.toList).length + (nlen ndefBytes - 5) ≤ 256) := by
      simp only [UriString.Holds, hpayload, hcode, Option.some.injEq, forall_eq']
    rw [hholds, not_and]
    simp only [hshort, forall_const]
    cases hprefix : prefixText code with
    | none => exact iff_of_false (by rintro ⟨⟩) fun h => h fun _ _ => by rintro ⟨⟩
    | some text =>
        have hshortPrefix := length_prefixText_le hprefix
        by_cases hfill : nlen ndefBytes = 4 + payloadLen.toNat
        · have hcreate : build.create (Utf8.encode text.toList).length payloadLen.toNat =
              .ok "" := by
            cases build with
            | alloc =>
                rw [UriString.create, checkedSub, if_pos (by omega)]
                rfl
            | array => rfl
          have hpush : build.pushStr "" text = .ok text := by
            rw [UriString.pushStr, String.empty_append, if_neg (by omega)]
          have hcut : (sliceRange (ndefBytes.take (nlen ndefBytes + 2)) 7 (nlen ndefBytes + 2) :
              Outcome ParseError _) = .ok (slice ndefBytes 7 (nlen ndefBytes - 5)) := by
            refine sliceRange_eq_ok_iff.mpr ⟨⟨by omega, by omega⟩, ?_⟩
            refine slice_congr fun i _ hi => List.getElem?_take_of_lt (by omega)
          simp only
          rw [if_neg (by omega), hcreate, Except.ok_bind', fromUtf8_encode, Except.ok_bind', hpush,
            Except.ok_bind', hcut, Except.ok_bind', fromUtf8]
          cases hbody : Utf8.decode? (slice ndefBytes 7 (nlen ndefBytes - 5)) with
          | none => exact iff_of_false (by rintro ⟨⟩) fun h => h fun _ _ _ _ => by rintro ⟨⟩
          | some body =>
              have hbytes : (Utf8.encode body.toList).length = nlen ndefBytes - 5 := by
                rw [Utf8.encode_of_decode? hbody, length_slice (by omega)]
              rw [Except.ok_bind', pushStr_eq_panicked_iff, hbytes]
              simp only [Option.some.injEq, forall_eq', hfill, Option.isSome_some, forall_const,
                Classical.not_imp, Nat.not_le]
        · simp only
          rw [if_pos (by omega)]
          exact iff_of_false (by rintro ⟨⟩) fun h => h fun _ _ _ hfill' => absurd hfill' hfill
  · refine iff_of_true ?_ fun h => hshort h.1
    by_cases hfour : nlen ndefBytes + 2 ≤ 4
    · rw [hpanic 4 hfour]
      rfl
    · obtain ⟨b, -, hb⟩ := hindex 4 (by omega)
      rw [hb, Except.ok_bind', hpanic 6 (by omega)]
      rfl

/-- **Parsing is total** on exactly these files: it returns a URL or an error. -/
theorem parseNdefUriIn_total_iff (build : UriString) (ndefBytes : List UInt8) :
    ((∃ url, parseNdefUriIn build ndefBytes = .ok url) ∨
      ∃ e, parseNdefUriIn build ndefBytes = fail e) ↔ Parsable build ndefBytes := by
  have htotal : ((∃ url, parseNdefUriIn build ndefBytes = .ok url) ∨
      ∃ e, parseNdefUriIn build ndefBytes = fail e) ↔
      parseNdefUriIn build ndefBytes ≠ panicked := by
    rcases parseNdefUriIn build ndefBytes with (e | _) | url
    · exact iff_of_true (.inr ⟨e, rfl⟩) nofun
    · exact iff_of_false (by rintro (⟨_, h⟩ | ⟨_, h⟩) <;> cases h) fun h => h rfl
    · exact iff_of_true (.inl ⟨url, rfl⟩) nofun
  rw [htotal, Parsable]
  rcases parseNdefUriIn_eq build ndefBytes with ⟨e, heq, hno⟩ | ⟨heq, hheader, hle⟩
  · rw [heq]
    exact iff_of_true nofun fun hheader hle => absurd ⟨hheader, hle⟩ hno
  · rw [heq, ne_eq, parseRecord_eq_panicked_iff hle, not_not]
    exact ⟨fun h _ _ => h, fun h => h hheader hle⟩

/-- A header of a URI record that announces no bytes makes both builds panic. -/
theorem parseNdefUriIn_panics_of_empty :
    parseNdefUriIn .alloc [0x00, 0x00, 0xD1, 0x01, 0x01, 0x55, 0x00] = panicked ∧
    parseNdefUriIn .array [0x00, 0x00, 0xD1, 0x01, 0x01, 0x55, 0x00] = panicked := by
  decide +kernel

end SdmUrl

end Ntag424
