import Mathlib.Tactic.Common
import Ntag424.Lib.Numerals
import Ntag424.SdmUrl.Config
import Ntag424.SdmUrl.ScannerSound

/-!
# Correctness of the Template Compiler

For every template that `sdm_url_config` accepts, the NDEF file holds the text the template
renders to, `parse_ndef_uri` reads it back, and the SDM settings carry the file positions of
exactly the fills and markers that occur.

## Main results

* `detectUriPrefix_spec`: the compressed prefix is a plain text in front of the template.
* `parseTemplate_sound`: a parsed template holds the positions of its marks.
* `parseNdefUri_header`: reading back a file with a text in its body.
* `sdmUrlConfig_assembled`: what the compiler assembles, in file positions.
* `sdmUrlConfig_correct`: the compiler as a whole.
-/

namespace Ntag424

namespace SdmUrl

open Outcome ScanState

variable {cap : ℕ} {mode : CryptoMode}

/-! ### Prefixes -/

/-- The prefix table holds plain ASCII texts, and its codes name them. -/
theorem prefix_table : ∀ entry ∈ ndefUriPrefixes, prefixText entry.1 = some entry.2 ∧
    ∀ c ∈ entry.2.toList, c.toNat < 0x80 ∧ Plain c := by
  have hall : ∀ entry ∈ ndefUriPrefixes, prefixText entry.1 = some entry.2 ∧
      (entry.2.toList.all fun c => decide (c.toNat < 0x80 ∧ Plain c)) = true := by
    decide +kernel
  intro entry hentry
  obtain ⟨hcode, hchars⟩ := hall entry hentry
  exact ⟨hcode, fun c hc => of_decide_eq_true (List.all_eq_true.mp hchars c hc)⟩

/-- **The compressed prefix** is a plain text in front of the template. -/
theorem detectUriPrefix_spec {url : List Char} {code : UInt8} {len : ℕ}
    (h : detectUriPrefix (Utf8.encode url) = (code, len)) :
    ∃ text body, prefixText code = some text ∧ len = (Utf8.encode text.toList).length ∧
      url = text.toList ++ body ∧ ∀ c ∈ text.toList, Plain c := by
  rw [detectUriPrefix] at h
  split at h
  · rename_i entry code' text hfind
    cases h
    have hmem := List.mem_of_find?_eq_some hfind
    obtain ⟨hcode, htext⟩ := prefix_table _ hmem
    have hprefix : Utf8.encode text.toList <+: Utf8.encode url := by
      simpa using List.find?_some hfind
    obtain ⟨body, hbody⟩ := Utf8.prefix_of_encode_prefix (fun c hc => (htext c hc).1) hprefix
    exact ⟨text, body, hcode, rfl, hbody.symm, fun c hc => (htext c hc).2⟩
  · cases h
    exact ⟨"", url, rfl, rfl, rfl, nofun⟩

/-! ### Parsed templates -/

/-- The position a parsed template holds for a mark; the MAC window always has a start. -/
def ParsedTemplate.slot (parsed : ParsedTemplate) : Mark → Option ℕ
  | .fill .uid => parsed.uidOffset
  | .fill .ctr => parsed.ctrOffset
  | .fill (.picc content) => (parsed.picc.filter (·.2 = content)).map Prod.fst
  | .fill .tt => parsed.ttOffset
  | .fill .mac => some parsed.macOffset
  | .macStart => some parsed.macInput
  | .encStart => parsed.encRange.map Prod.fst
  | .encEnd => parsed.encRange.map Prod.snd

/-- An encrypted range that passes the checks has the recorded ends. -/
theorem checkedEncRange_sound {st : ScanState} {range : Option (ℕ × ℕ)}
    (h : checkedEncRange st = .ok range) :
    range.map Prod.fst = st.encRangeStart ∧ range.map Prod.snd = st.encRangeEnd := by
  rw [checkedEncRange] at h
  split at h
  · rename_i hstart hend
    cases h
    exact ⟨hstart.symm, hend.symm⟩
  · cases h
  · cases h
  · rename_i start stop hstart hend
    simp only at h
    repeat' split at h
    all_goals first
      | exact absurd h fail_ne_ok
      | (cases h; exact ⟨hstart.symm, hend.symm⟩)

/-- **The checks behind the loop** keep the slots; a missing start of the MAC window is the
start of the body. -/
theorem finishTemplate_sound {st : ScanState} {parsed : ParsedTemplate}
    (h : finishTemplate st = .ok parsed) :
    st.inEncRange = false ∧ parsed.uriContent = st.uriContent ∧
      (∀ m ≠ .macStart, parsed.slot m = st.slot m) ∧ parsed.macInput = st.macStart.getD uriAt ∧
      (parsed.picc.isSome → parsed.uidOffset = none ∧ parsed.ctrOffset = none) := by
  rw [finishTemplate] at h
  split at h
  · cases h
  rename_i hin
  split at h
  · cases h
  rename_i macOffset hmac
  split at h
  · cases h
  rename_i hexcl
  split at h
  · cases h
  obtain ⟨encRange, henc, h⟩ := Except.bind_eq_ok_iff.mp h
  obtain ⟨hstart, hend⟩ := checkedEncRange_sound henc
  simp only at h
  split at h
  · cases h
  · cases Except.pure_eq_ok_iff.mp h
    refine ⟨by simpa using hin, rfl, fun m hm => ?_, rfl, fun hpicc => ?_⟩
    · rcases m with (_ | _ | _ | _ | _) | _ | _ | _
      case fill.mac => exact hmac.symm
      case macStart => exact absurd rfl hm
      case encStart => exact hstart
      case encEnd => exact hend
      all_goals rfl
    · simp only [hpicc, Bool.true_and, Bool.or_eq_true, not_or, Option.not_isSome_iff_eq_none]
        at hexcl
      exact hexcl

theorem inv_initial : ScanState.initial.Inv := ⟨(nomatch ·), (nomatch ·)⟩

/-- **A parsed template** holds the rendered text and the positions of its marks. -/
theorem parseTemplate_sound {url : List UInt8} {start : ℕ} {body : List Char}
    {parsed : ParsedTemplate} (hbody : url.drop start = Utf8.encode body)
    (h : parseTemplate cap mode url start = .ok parsed) :
    ∃ ms out, Renders mode false body uriAt ms out ∧ parsed.uriContent = Utf8.encode out ∧
      (∀ m ≠ .macStart, ∀ o, parsed.slot m = some o ↔ (m, o) ∈ ms) ∧
      (∀ o, (.macStart, o) ∈ ms → parsed.macInput = o) ∧
      ((∀ o, (Mark.macStart, o) ∉ ms) → parsed.macInput = uriAt) ∧
      (parsed.picc.isSome → parsed.uidOffset = none ∧ parsed.ctrOffset = none) := by
  obtain ⟨st, hloop, h⟩ := Except.bind_eq_ok_iff.mp h
  obtain ⟨hin, hcontent, hslots, hinput, hexcl⟩ := finishTemplate_sound h
  obtain ⟨ms, out, hr, hadds⟩ := scanLoop_sound hbody inv_initial hloop hin
  have hslot : ∀ m o, st.slot m = some o ↔ (m, o) ∈ ms := by
    intro m o
    rw [hadds.slot]
    rcases m with (_ | _ | _ | _ | _) | _ | _ | _ <;> simp [slot, ScanState.initial]
  refine ⟨ms, out, hr, by rw [hcontent, hadds.content]; rfl, fun m hm o => ?_, fun o ho => ?_,
    fun hno => ?_, hexcl⟩
  · rw [hslots m hm, hslot]
  · have : st.macStart = some o := (hslot .macStart o).mpr ho
    rw [hinput, this, Option.getD_some]
  · have : st.macStart = none := by
      cases hmac : st.macStart with
      | none => rfl
      | some o => exact absurd ((hslot .macStart o).mp hmac) (hno o)
    rw [hinput, this, Option.getD_none]

/-! ### Settings -/

/-- The content kind of an encrypted placeholder in the settings. -/
def contentKind : EncryptedContent → PiccContent
  | .uid => .uid
  | .rCtr _ => .ctr
  | .both _ => .both

/-- The file position the settings hold for a mark. -/
def placed (s : Sdm) : Mark → Option ℕ
  | .fill .uid => match s.piccData with
      | .plain mirror => mirror.uidOffset.map Offset.val
      | _ => none
  | .fill .ctr => match s.piccData with
      | .plain mirror => mirror.rctrOffset.map Offset.val
      | _ => none
  | .fill (.picc content) => match s.piccData with
      | .encrypted _ offset c => if contentKind c = content then some offset.val else none
      | _ => none
  | .fill .tt => s.tamperStatus.map Offset.val
  | .fill .mac => s.fileRead.map fun fr => fr.window.mac.val
  | .macStart => s.fileRead.map fun fr => fr.window.input.val
  | .encStart => s.fileRead.bind fun fr => fr.enc.map fun enc => enc.start.val
  | .encEnd => s.fileRead.bind fun fr => fr.enc.map fun enc => enc.start.val + enc.length.val

theorem tryOffset_eq_ok_iff {v : ℕ} {name : String} {o : Offset} :
    tryOffset v name = .ok o ↔ o.val = v := by
  rw [tryOffset]
  split
  · rename_i o' ho'
    rw [Offset.new_eq_ok_iff] at ho'
    simp only [Except.ok.injEq]
    constructor
    · rintro rfl
      exact ho'
    · intro h
      obtain ⟨_, _⟩ := o
      obtain ⟨_, _⟩ := o'
      simp only [Offset.mk.injEq] at h ho' ⊢
      rw [h, ho']
  · rename_i e he
    simp only [fail_ne_ok, false_iff]
    intro h
    rw [Offset.new_eq_ok_iff.mpr h] at he
    cases he

theorem mapM_tryOffset_eq_ok {v : Option ℕ} {name : String} {o : Option Offset}
    (h : v.mapM (tryOffset · name) = .ok o) : o.map Offset.val = v := by
  cases v with
  | none =>
      cases h
      rfl
  | some v =>
      obtain ⟨o', ho', h⟩ := Except.bind_eq_ok_iff.mp h
      cases h
      rw [Option.map_some, tryOffset_eq_ok_iff.mp ho']

/-- The identity data sits at the positions of its placeholders. -/
theorem buildPiccData_sound {opts : SdmUrlOptions} {parsed : ParsedTemplate} {pd : PiccData}
    (h : buildPiccData opts parsed = .ok pd)
    (hexcl : parsed.picc.isSome → parsed.uidOffset = none ∧ parsed.ctrOffset = none)
    {s : Sdm} (hs : s.piccData = pd) :
    placed s (.fill .uid) = parsed.uidOffset ∧ placed s (.fill .ctr) = parsed.ctrOffset ∧
      ∀ content, placed s (.fill (.picc content)) = parsed.slot (.fill (.picc content)) := by
  rw [buildPiccData] at h
  split at h
  · rename_i off content hpicc
    obtain ⟨offset, hoff, h⟩ := Except.bind_eq_ok_iff.mp h
    rw [tryOffset_eq_ok_iff] at hoff
    cases Except.pure_eq_ok_iff.mp h
    obtain ⟨huid, hctr⟩ := hexcl (by rw [hpicc]; rfl)
    refine ⟨by simp only [placed, hs, huid], by simp only [placed, hs, hctr], fun content' => ?_⟩
    simp only [placed, hs, ParsedTemplate.slot, hpicc, Option.filter_some]
    cases content <;> cases content' <;> simp [contentKind, hoff]
  · rename_i hpicc
    obtain ⟨uid, huid, h⟩ := Except.bind_eq_ok_iff.mp h
    obtain ⟨ctr, hctr, h⟩ := Except.bind_eq_ok_iff.mp h
    have huid := mapM_tryOffset_eq_ok huid
    have hctr := mapM_tryOffset_eq_ok hctr
    rw [← huid, ← hctr]
    cases Except.pure_eq_ok_iff.mp h
    cases uid <;> cases ctr <;>
      simp [placed, hs, PlainMirror.uidOffset, PlainMirror.rctrOffset, ParsedTemplate.slot, hpicc]

/-- The MAC window and the encrypted range sit at their positions. -/
theorem buildFileRead_sound {opts : SdmUrlOptions} {parsed : ParsedTemplate} {fr : FileRead}
    (h : buildFileRead opts parsed = .ok fr) {s : Sdm} (hs : s.fileRead = some fr) :
    placed s (.fill .mac) = some parsed.macOffset ∧ placed s .macStart = some parsed.macInput ∧
      placed s .encStart = parsed.slot .encStart ∧ placed s .encEnd = parsed.slot .encEnd := by
  obtain ⟨input, hinput, h⟩ := Except.bind_eq_ok_iff.mp h
  obtain ⟨mac, hmac, h⟩ := Except.bind_eq_ok_iff.mp h
  rw [tryOffset_eq_ok_iff] at hinput hmac
  split at h
  · rename_i start stop hrange
    obtain ⟨start', hstart, h⟩ := Except.bind_eq_ok_iff.mp h
    obtain ⟨len, hlen, h⟩ := Except.bind_eq_ok_iff.mp h
    rw [tryOffset_eq_ok_iff] at hstart
    obtain ⟨hle, rfl⟩ := checkedSub_eq_ok_iff.mp hlen
    split at h
    · rename_i length hlength
      rw [EncLength.new_eq_ok_iff] at hlength
      cases Except.pure_eq_ok_iff.mp h
      simp only [placed, hs, ParsedTemplate.slot, hrange, FileRead.window, FileRead.enc,
        Option.map_some, Option.bind_some, hinput, hmac, hstart, hlength, Option.some.injEq,
        true_and]
      omega
    · cases h
  · rename_i hrange
    cases Except.pure_eq_ok_iff.mp h
    simp [placed, hs, ParsedTemplate.slot, hrange, FileRead.window, FileRead.enc, hinput, hmac]

/-! ### NDEF files -/

/-- A well-formed NDEF file with one URI record: the length field counts everything behind
it, the payload length the prefix code and the body. -/
structure IsNdefFile (bytes : List UInt8) (prefixCode : UInt8) (body : List UInt8) : Prop where
  length : bytes.length = 7 + body.length
  nlen : Numerals.ofBe (bytes.take 2) = bytes.length - 2
  record : slice bytes 2 2 = [0xD1, 0x01]
  payload : bytes[4]?.map UInt8.toNat = some (body.length + 1)
  uri : slice bytes 5 2 = [0x55, prefixCode]
  body : bytes.drop 7 = body

/-- The two length bytes of a short file. -/
theorem nlen_bytes (payloadLen : ℕ) (h : payloadLen ≤ 255) :
    (UInt8.ofNat ((4 + payloadLen) % 2 ^ 16 / 2 ^ 8)).toNat * 2 ^ 8 +
      (UInt8.ofNat ((4 + payloadLen) % 2 ^ 16)).toNat = 4 + payloadLen := by
  rw [UInt8.toNat_ofNat', UInt8.toNat_ofNat']
  omega

/-- A header in front of a short body makes a well-formed NDEF file. -/
theorem isNdefFile_header {body : List UInt8} (h : body.length ≤ 254) (code : UInt8) :
    IsNdefFile (ndefHeader (1 + body.length) code ++ body) code body where
  length := by
    rw [List.length_append]
    rfl
  nlen := by
    have := nlen_bytes (1 + body.length) (by omega)
    simp only [ndefHeader, List.cons_append, List.take_succ_cons, List.take_zero, Numerals.ofBe,
      List.reverse_cons, List.reverse_nil, List.nil_append, Numerals.ofLe, List.length_cons]
    omega
  record := rfl
  payload := by
    simp only [ndefHeader, List.cons_append, List.getElem?_cons_succ, List.getElem?_cons_zero,
      Option.map_some, UInt8.toNat_ofNat', Option.some.injEq]
    omega
  uri := rfl
  body := rfl

/-- **Reading back** a file with a text in its body; bytes behind it do not matter. -/
theorem parseNdefUri_header {body : List Char} {code : UInt8} {text : String}
    (h : (Utf8.encode body).length ≤ 254) (hcode : prefixText code = some text)
    (tail : List UInt8) :
    parseNdefUri (ndefHeader (1 + (Utf8.encode body).length) code ++ Utf8.encode body ++ tail) =
      .ok (text ++ String.ofList body) := by
  obtain ⟨file, hfile⟩ : ∃ file,
      file = ndefHeader (1 + (Utf8.encode body).length) code ++ Utf8.encode body := ⟨_, rfl⟩
  rw [← hfile]
  have hlen : file.length = 7 + (Utf8.encode body).length :=
    hfile ▸ (isNdefFile_header h code).length
  have hsize := nlen_bytes (1 + (Utf8.encode body).length) (by omega)
  have hpayload : (UInt8.ofNat (1 + (Utf8.encode body).length)).toNat =
      1 + (Utf8.encode body).length := by
    rw [UInt8.toNat_ofNat']
    omega
  have hprefix : fromUtf8 (Utf8.encode text.toList) = .ok text := by
    rw [fromUtf8, Utf8.decode?_encode, String.ofList_toList]
  have hbody : fromUtf8 (Utf8.encode body) = .ok (String.ofList body) := by
    rw [fromUtf8, Utf8.decode?_encode]
  have hcut : (sliceRange (file ++ tail) 0 file.length : Outcome ParseError _) = .ok file := by
    refine sliceRange_eq_ok_iff.mpr ⟨⟨Nat.zero_le _, by rw [List.length_append]; omega⟩, ?_⟩
    rw [slice, List.drop_zero, Nat.sub_zero, List.take_left]
  have hrest : (sliceRange file 7 file.length : Outcome ParseError _) = .ok (Utf8.encode body) := by
    refine sliceRange_eq_ok_iff.mpr ⟨⟨by omega, le_rfl⟩, ?_⟩
    have hdrop : file.drop 7 = Utf8.encode body := hfile ▸ (isNdefFile_header h code).body
    rw [slice, hdrop, hlen, Nat.add_sub_cancel_left, List.take_length]
  have get : ∀ {i : ℕ} {b : UInt8} (tail : List UInt8),
      (ndefHeader (1 + (Utf8.encode body).length) code)[i]? = some b →
      (index (file ++ tail) i : Outcome ParseError UInt8) = .ok b := fun tail hi => by
    refine index_eq_ok_iff.mpr ?_
    rw [hfile, List.append_assoc,
      List.getElem?_append_left (List.getElem?_eq_some_iff.mp hi).1, hi]
  have get' : ∀ {i : ℕ} {b : UInt8},
      (ndefHeader (1 + (Utf8.encode body).length) code)[i]? = some b →
      (index file i : Outcome ParseError UInt8) = .ok b := fun hi => by
    have := get [] hi
    rwa [List.append_nil] at this
  have hcapacity : (checkedSub ((Utf8.encode text.toList).length +
      (1 + (Utf8.encode body).length)) 1 : Outcome ParseError ℕ) =
        .ok ((Utf8.encode text.toList).length + (1 + (Utf8.encode body).length) - 1) :=
    checkedSub_eq_ok_iff.mpr ⟨by omega, rfl⟩
  have hheader : ¬ ((file ++ tail).length < 7 ∨ (file ++ tail)[2]? ≠ some 0xD1 ∨
      (file ++ tail)[3]? ≠ some 0x01 ∨ (file ++ tail)[5]? ≠ some 0x55) := by
    rw [List.length_append, hlen, hfile]
    simp [ndefHeader]
    omega
  rw [parseNdefUri, if_neg hheader,
    get (i := 0) tail rfl, Except.ok_bind', get (i := 1) tail rfl, Except.ok_bind', hsize,
    if_neg (by rw [List.length_append]; omega),
    show 4 + (1 + (Utf8.encode body).length) + 2 = file.length by omega, hcut, Except.ok_bind',
    get' (i := 4) rfl, Except.ok_bind', get' (i := 6) rfl, Except.ok_bind', hcode]
  simp only
  rw [hpayload, if_neg (by omega), hcapacity, Except.ok_bind', hprefix, Except.ok_bind', hrest,
    Except.ok_bind', hbody, Except.ok_bind']
  rfl

/-! ### The compiler -/

/-- The positions of compiled settings: every fill and marker that occurs in the rendered URL
sits at its position in the file, and the MAC window starts with the body when no start is
marked. -/
structure Compiled (s : Sdm) (prefixLen : ℕ) (ms : List (Mark × ℕ)) : Prop where
  placed : ∀ m ≠ .macStart, ∀ o, placed s m = some o ↔ ∃ u, (m, u) ∈ ms ∧ o + prefixLen = u + uriAt
  macInput : ∀ u, (.macStart, u) ∈ ms → ∃ o, SdmUrl.placed s .macStart = some o ∧
    o + prefixLen = u + uriAt
  macInput_default : (∀ u, (Mark.macStart, u) ∉ ms) → SdmUrl.placed s .macStart = some uriAt

/-- Marks of a moved rendering, at their distance from the start. -/
theorem mem_move_iff {ms : List (Mark × ℕ)} {pos pos' : ℕ} {m : Mark} {u : ℕ}
    (hpos : ∀ o, (m, o) ∈ ms → pos ≤ o) :
    (m, u) ∈ ms.map (fun m => (m.1, m.2 - pos + pos')) ↔
      ∃ o, (m, o) ∈ ms ∧ o + pos' = u + pos := by
  rw [List.mem_map]
  constructor
  · rintro ⟨⟨m', o⟩, hm, h⟩
    obtain ⟨rfl, rfl⟩ := Prod.mk.inj h
    have := hpos o hm
    exact ⟨o, hm, by omega⟩
  · rintro ⟨o, hm, h⟩
    have := hpos o hm
    exact ⟨(m, o), hm, Prod.ext rfl (by simp only; omega)⟩

/-- Settings that place marks in the file are compiled from the marks in the URL. -/
theorem compiled_of_placed {s : Sdm} {ms : List (Mark × ℕ)} {len : ℕ}
    (hpos : ∀ m o, (m, o) ∈ ms → uriAt ≤ o)
    (hplaced : ∀ m ≠ .macStart, ∀ o, placed s m = some o ↔ (m, o) ∈ ms)
    (hinput : ∀ o, (.macStart, o) ∈ ms → placed s .macStart = some o)
    (hdefault : (∀ o, (Mark.macStart, o) ∉ ms) → placed s .macStart = some uriAt) :
    Compiled s len (ms.map fun m => (m.1, m.2 - uriAt + len)) where
  placed m hm o := by
    rw [hplaced m hm]
    constructor
    · intro ho
      have := hpos m o ho
      exact ⟨o + len - uriAt, (mem_move_iff (hpos m)).mpr ⟨o, ho, by omega⟩, by omega⟩
    · rintro ⟨u, hu, h⟩
      obtain ⟨o', ho', h'⟩ := (mem_move_iff (hpos m)).mp hu
      obtain rfl : o = o' := by omega
      exact ho'
  macInput u hu := by
    obtain ⟨o, ho, h⟩ := (mem_move_iff (hpos .macStart)).mp hu
    exact ⟨o, hinput o ho, h⟩
  macInput_default hno := by
    refine hdefault fun o ho => ?_
    have := hpos .macStart o ho
    exact hno (o + len - uriAt) ((mem_move_iff (hpos .macStart)).mpr ⟨o, ho, by omega⟩)

/-- What the compiler has assembled, in file positions: the template is a plain prefix and a
rest that renders to `body`; the file is the header and this body; the settings place exactly
the marks of the rendering, under the keys of the options. -/
structure Assembled (mode : CryptoMode) (opts : SdmUrlOptions) (url : List Char)
    (c : SdmUrlConfig) (text : String) (rest : List Char) (ms : List (Mark × ℕ))
    (body : List Char) : Prop where
  url_eq : url = text.toList ++ rest
  plain : ∀ ch ∈ text.toList, Plain ch
  prefixCode : prefixText c.prefixCode = some text
  prefixLen : c.prefixLen = (Utf8.encode text.toList).length
  offset : c.offset = uriAt
  renders : Renders mode false rest uriAt ms body
  short : (Utf8.encode body).length ≤ 254
  fits : 7 + (Utf8.encode body).length ≤ opts.maxFileSize
  ndefBytes : c.ndefBytes =
    ndefHeader (1 + (Utf8.encode body).length) c.prefixCode ++ Utf8.encode body
  placed : ∀ m ≠ .macStart, ∀ o, placed c.sdmSettings m = some o ↔ (m, o) ∈ ms
  macInput : ∀ o, (.macStart, o) ∈ ms → SdmUrl.placed c.sdmSettings .macStart = some o
  macInput_default : (∀ o, (Mark.macStart, o) ∉ ms) →
    SdmUrl.placed c.sdmSettings .macStart = some uriAt
  checks : Sdm.checkPicc c.sdmSettings.piccData c.sdmSettings.fileRead c.sdmSettings.tamperStatus
    mode = .ok ()
  piccKey : ∀ k o content, c.sdmSettings.piccData = .encrypted k o content → k = opts.piccKey
  fileRead : ∃ fr, c.sdmSettings.fileRead = some fr ∧ fr.key = opts.macKey

theorem buildPiccData_key {opts : SdmUrlOptions} {parsed : ParsedTemplate} {pd : PiccData}
    (h : buildPiccData opts parsed = .ok pd) {k : KeyNumber} {o : Offset}
    {content : EncryptedContent} (hpd : pd = .encrypted k o content) : k = opts.piccKey := by
  rw [buildPiccData] at h
  split at h
  · obtain ⟨offset, -, h⟩ := Except.bind_eq_ok_iff.mp h
    cases (Except.pure_eq_ok_iff.mp h).trans hpd
    rfl
  · obtain ⟨uid, -, h⟩ := Except.bind_eq_ok_iff.mp h
    obtain ⟨ctr, -, h⟩ := Except.bind_eq_ok_iff.mp h
    have h := (Except.pure_eq_ok_iff.mp h).trans hpd
    cases uid <;> cases ctr <;> cases h

theorem buildFileRead_key {opts : SdmUrlOptions} {parsed : ParsedTemplate} {fr : FileRead}
    (h : buildFileRead opts parsed = .ok fr) : fr.key = opts.macKey := by
  obtain ⟨input, -, h⟩ := Except.bind_eq_ok_iff.mp h
  obtain ⟨mac, -, h⟩ := Except.bind_eq_ok_iff.mp h
  split at h
  · obtain ⟨start, -, h⟩ := Except.bind_eq_ok_iff.mp h
    obtain ⟨len, -, h⟩ := Except.bind_eq_ok_iff.mp h
    split at h
    · cases Except.pure_eq_ok_iff.mp h
      rfl
    · cases h
  · cases Except.pure_eq_ok_iff.mp h
    rfl

/-- **The core of the compiler.** -/
theorem buildSdmNdefPlanCore_sound {url : List Char} {opts : SdmUrlOptions}
    {plan : ConstSdmNdefPlan}
    (h : buildSdmNdefPlanCore cap (Utf8.encode url) mode opts = .ok plan) :
    ∃ text rest ms body, Assembled mode opts url
      ⟨plan.ndefBytes, plan.sdmSettings, uriAt, plan.prefixLen, plan.prefixCode⟩ text rest ms
      body := by
  rw [buildSdmNdefPlanCore] at h
  generalize hdetect : detectUriPrefix (Utf8.encode url) = detected at h
  obtain ⟨code, len⟩ := detected
  obtain ⟨text, rest, hcode, rfl, rfl, hplain⟩ := detectUriPrefix_spec hdetect
  obtain ⟨parsed, hparsed, h⟩ := Except.bind_eq_ok_iff.mp h
  have hdrop : (Utf8.encode (text.toList ++ rest)).drop (Utf8.encode text.toList).length =
      Utf8.encode rest := by
    rw [Utf8.encode_append, List.drop_left]
  obtain ⟨ms, body, hr, hcontent, hslots, hinput, hdefault, hexcl⟩ :=
    parseTemplate_sound hdrop hparsed
  simp only at h
  split at h
  · cases h
  rename_i hpayload
  split at h
  · cases h
  rename_i hmax
  obtain ⟨header, hheader, h⟩ := Except.bind_eq_ok_iff.mp h
  obtain ⟨bytes, hbytes, h⟩ := Except.bind_eq_ok_iff.mp h
  obtain ⟨pd, hpd, h⟩ := Except.bind_eq_ok_iff.mp h
  obtain ⟨fr, hfr, h⟩ := Except.bind_eq_ok_iff.mp h
  obtain ⟨tt, htt, h⟩ := Except.bind_eq_ok_iff.mp h
  split at h
  · rename_i s hs
    cases Except.pure_eq_ok_iff.mp h
    obtain ⟨⟨hspd, hsfr, hstt⟩, hchecks⟩ := Sdm.tryNew_eq_ok_iff.mp hs
    rw [extendBytes_eq (by omega), slice_zero_length] at hbytes
    have hfile : bytes = ndefHeader (1 + (Utf8.encode body).length) code ++ Utf8.encode body := by
      rw [eq_of_pushAll hbytes, eq_of_pushAll hheader, hcontent, List.nil_append]
    rw [hcontent] at hpayload hmax
    obtain ⟨huid, hctr, hpicc⟩ := buildPiccData_sound hpd hexcl hspd
    obtain ⟨hmac, hstart, hencStart, hencEnd⟩ := buildFileRead_sound hfr hsfr
    have hplaced : ∀ m, placed s m = parsed.slot m := by
      intro m
      rcases m with (_ | _ | content | _ | _) | _ | _ | _
      case fill.tt => rw [placed, hstt, mapM_tryOffset_eq_ok htt, ParsedTemplate.slot]
      case fill.picc => exact hpicc content
      all_goals assumption
    exact ⟨text, rest, ms, body,
      { url_eq := rfl
        plain := hplain
        prefixCode := hcode
        prefixLen := rfl
        offset := rfl
        renders := hr
        short := by omega
        fits := by omega
        ndefBytes := hfile
        placed := fun m hm o => by rw [hplaced m, hslots m hm o]
        macInput := fun o ho => by rw [hplaced, ParsedTemplate.slot, hinput o ho]
        macInput_default := fun hno => by rw [hplaced, ParsedTemplate.slot, hdefault hno]
        checks := by
          rw [hspd, hsfr, hstt]
          exact hchecks
        piccKey := fun k o content hpc => buildPiccData_key hpd (hspd ▸ hpc)
        fileRead := ⟨fr, hsfr, buildFileRead_key hfr⟩ }⟩
  · cases h

theorem sdmUrlConfig_assembled {url : String} {opts : SdmUrlOptions} {c : SdmUrlConfig}
    (h : sdmUrlConfig url mode opts = .ok c) :
    ∃ text rest ms body, Assembled mode opts url.toList c text rest ms body := by
  rw [sdmUrlConfig] at h
  split at h
  · rename_i plan hplan
    cases h
    exact buildSdmNdefPlanCore_sound hplan
  · cases h
  · cases h

/-- In URL positions, the assembled settings are compiled from the marks of the template. -/
theorem Assembled.compiled {opts : SdmUrlOptions} {url : List Char} {c : SdmUrlConfig}
    {text : String} {rest : List Char} {ms : List (Mark × ℕ)} {body : List Char}
    (h : Assembled mode opts url c text rest ms body) :
    ∃ ms', Renders mode false url 0 ms' (text.toList ++ body) ∧
      Compiled c.sdmSettings c.prefixLen ms' := by
  have hr := h.renders.move (Utf8.encode text.toList).length
  rw [← Nat.zero_add (Utf8.encode text.toList).length] at hr
  refine ⟨_, h.url_eq ▸ hr.append_plain h.plain, ?_⟩
  rw [Nat.zero_add, ← h.prefixLen]
  exact compiled_of_placed (fun m o hm => (h.renders.marks_bounds hm).1) h.placed h.macInput
    h.macInput_default

/-- **Correctness of the template compiler.** For every template that `sdm_url_config` accepts,
the template renders to a text `out`; the NDEF file is well formed, fits the limit and holds
that text behind the compressed prefix; `parse_ndef_uri` reads the text back; and the settings
place exactly the fills and markers that occur, at their positions in the file. -/
theorem sdmUrlConfig_correct {url : String} {opts : SdmUrlOptions} {c : SdmUrlConfig}
    (h : sdmUrlConfig url mode opts = .ok c) :
    ∃ ms out, Renders mode false url.toList 0 ms out ∧
      IsNdefFile c.ndefBytes c.prefixCode ((Utf8.encode out).drop c.prefixLen) ∧
      c.ndefBytes.length ≤ opts.maxFileSize ∧
      parseNdefUri c.ndefBytes = .ok (String.ofList out) ∧
      Compiled c.sdmSettings c.prefixLen ms := by
  obtain ⟨text, rest, ms, body, ha⟩ := sdmUrlConfig_assembled h
  obtain ⟨ms', hr, hcompiled⟩ := ha.compiled
  refine ⟨ms', _, hr, ?_, ?_, ?_, hcompiled⟩
  · rw [ha.ndefBytes, ha.prefixLen, Utf8.encode_append, List.drop_left]
    exact isNdefFile_header ha.short _
  · rw [ha.ndefBytes, (isNdefFile_header ha.short _).length]
    exact ha.fits
  · rw [ha.ndefBytes, ← List.append_nil (_ ++ _), parseNdefUri_header ha.short ha.prefixCode,
      String.ofList_append, String.ofList_toList]

/-- The template of the documentation compiles. -/
theorem sdmUrlConfig_correct_example :
    ∃ c, sdmUrlConfig "https://example.com/?p={picc}&m={mac}" .lrp {} = .ok c ∧
      ∃ ms out, Renders .lrp false "https://example.com/?p={picc}&m={mac}".toList 0 ms out ∧
        IsNdefFile c.ndefBytes c.prefixCode ((Utf8.encode out).drop c.prefixLen) ∧
        c.ndefBytes.length ≤ 256 ∧ parseNdefUri c.ndefBytes = .ok (String.ofList out) ∧
        Compiled c.sdmSettings c.prefixLen ms := by
  have hok : (sdmUrlConfig "https://example.com/?p={picc}&m={mac}" .lrp {}).isOk = true := by
    decide +kernel
  obtain ⟨c, hc⟩ := Except.isOk_iff.mp hok
  exact ⟨c, hc, sdmUrlConfig_correct hc⟩

end SdmUrl

end Ntag424
