import Mathlib.Tactic.Common
import Ntag424.HighLevel.Provision
import Ntag424.SdmVerify.ReadoutText

/-!
# Provisioned Tags Verify

A tag that holds the keys, the NDEF file and the SDM settings of a template is read by a phone;
the phone rebuilds the URL, and the verifier made from the same template accepts it.

The file positions of the compiler, the URL positions of the verifier and the two derivations of
the keys meet here.

## Main results

* `SdmUrl.Assembled.range_spec`: every placeholder of compiled settings lies in the body of the
  file, on zeros.
* `DeployedTag.genuine`: what a provisioned tag returns is a genuine readout.
* `DeployedTag.exists_readout_eq`: it is the header of the file and a text.
* `DeployedTag.verify_read`: the verifier accepts the URL and stores the counter.
-/

namespace Ntag424

open Outcome

/-! ### Placeholders of compiled settings -/

namespace SdmUrl

variable {mode : CryptoMode} {opts : SdmUrlOptions} {url : List Char} {c : SdmUrlConfig}
  {text : String} {rest body : List Char} {ms : List (Mark × ℕ)}

/-- The layout of a configuration. -/
def SdmUrlConfig.layout (c : SdmUrlConfig) (mode : CryptoMode) : Layout :=
  ⟨c.sdmSettings.piccData, c.sdmSettings.fileRead, c.sdmSettings.tamperStatus, mode⟩

/-- Every placeholder but the encrypted range is a fill of the template. -/
theorem Assembled.exists_mark (h : Assembled mode opts url c text rest ms body)
    {p : Ntag424.Placeholder} (hp : p ≠ .enc) {r : ℕ × ℕ} (hr : r ∈ (c.layout mode).range p) :
    ∃ m, (m, r.1) ∈ ms ∧ m.width mode = r.2 := by
  obtain ⟨bytes, ⟨pd, fr, tt, hvalid⟩, at₀, len, code⟩ := c
  have hplaced := h.placed
  cases p with
  | uid =>
      refine ⟨.fill .uid, (hplaced _ (by simp) _).mp ?_, ?_⟩ <;>
        rcases pd with _ | (_ | _ | _) | _ <;> cases hr <;> rfl
  | readCtr =>
      refine ⟨.fill .ctr, (hplaced _ (by simp) _).mp ?_, ?_⟩ <;>
        rcases pd with _ | (_ | _ | _) | _ <;> cases hr <;> rfl
  | picc =>
      rcases pd with _ | _ | ⟨k, o, content⟩ <;> cases hr
      refine ⟨.fill (.picc (contentKind content)), (hplaced _ (by simp) _).mp ?_, rfl⟩
      simp [SdmUrl.placed]
  | tamper =>
      cases tt <;> cases hr
      exact ⟨.fill .tt, (hplaced _ (by simp) _).mp rfl, rfl⟩
  | mac =>
      cases fr <;> cases hr
      exact ⟨.fill .mac, (hplaced _ (by simp) _).mp rfl, rfl⟩
  | enc => exact absurd rfl hp

/-- The ends of the encrypted range are marks of the template. -/
theorem Assembled.enc_marks (h : Assembled mode opts url c text rest ms body) {r : ℕ × ℕ}
    (hr : r ∈ (c.layout mode).range .enc) :
    (.encStart, r.1) ∈ ms ∧ ∀ e, (.encEnd, e) ∈ ms ↔ r.1 + r.2 = e := by
  obtain ⟨fr, hfr, enc, henc, rfl⟩ := Layout.mem_range_enc.mp hr
  have hfr : c.sdmSettings.fileRead = some fr := hfr
  have henc : fr.enc = some enc := henc
  constructor
  · refine (h.placed _ (by simp) _).mp ?_
    simp [SdmUrl.placed, hfr, henc]
  · intro e
    rw [← h.placed _ (by simp)]
    simp [SdmUrl.placed, hfr, henc]

/-- The bytes of the body. -/
theorem Assembled.getElem?_ndefBytes (h : Assembled mode opts url c text rest ms body) {i : ℕ}
    (hi : uriAt ≤ i) : c.ndefBytes[i]? = (Utf8.encode body)[i - uriAt]? := by
  rw [h.ndefBytes, List.getElem?_append_right (by exact hi)]
  rfl

theorem Assembled.length_ndefBytes (h : Assembled mode opts url c text rest ms body) :
    c.ndefBytes.length = uriAt + (Utf8.encode body).length := by
  rw [h.ndefBytes, (isNdefFile_header h.short _).length, uriAt]

/-- **Every placeholder lies in the body of the file, on zeros.** -/
theorem Assembled.range_spec (h : Assembled mode opts url c text rest ms body)
    {p : Ntag424.Placeholder} {r : ℕ × ℕ} (hr : r ∈ (c.layout mode).range p) :
    uriAt ≤ r.1 ∧ r.1 + r.2 ≤ c.ndefBytes.length ∧
      ∀ i, r.1 ≤ i → i < r.1 + r.2 → c.ndefBytes[i]? = some 0x30 := by
  rw [h.length_ndefBytes]
  by_cases hp : p = .enc
  · subst hp
    obtain ⟨hstart, hend⟩ := h.enc_marks hr
    obtain ⟨e, he, -, hz⟩ := h.renders.zero_of_encStart hstart
    obtain rfl := (hend e).mp he
    have hlo := (h.renders.marks_bounds hstart).1
    have hhi := (h.renders.marks_bounds he).2
    simp only [Mark.width, Nat.add_zero] at hhi
    refine ⟨hlo, hhi, fun i hi hi' => ?_⟩
    rw [h.getElem?_ndefBytes (by omega)]
    exact hz i hi hi'
  · obtain ⟨m, hm, hw⟩ := h.exists_mark hp hr
    obtain ⟨hlo, hhi⟩ := h.renders.marks_bounds hm
    rw [hw] at hhi
    refine ⟨hlo, hhi, fun i hi hi' => ?_⟩
    rw [h.getElem?_ndefBytes (by omega)]
    exact h.renders.zero_of_fill hm hi (by omega)

/-- The MAC window starts in the body. -/
theorem Assembled.uriAt_le_macInput (h : Assembled mode opts url c text rest ms body)
    {fr : FileRead} (hfr : c.sdmSettings.fileRead = some fr) : uriAt ≤ fr.window.input.val := by
  have hplaced : SdmUrl.placed c.sdmSettings .macStart = some fr.window.input.val := by
    rw [SdmUrl.placed, hfr, Option.map_some]
  by_cases hmark : ∃ o, (Mark.macStart, o) ∈ ms
  · obtain ⟨o, ho⟩ := hmark
    obtain rfl := Option.some.inj ((h.macInput o ho).symm.trans hplaced)
    exact (h.renders.marks_bounds ho).1
  · have := (h.macInput_default fun o ho => hmark ⟨o, ho⟩).symm.trans hplaced
    exact (Option.some.inj this).le

/-- Compiled settings form a valid layout: a tamper placeholder of a template cannot straddle
the start of the encrypted range, because the bracket stands in front of it or behind it. -/
theorem Assembled.valid (h : Assembled mode opts url c text rest ms body) :
    (c.layout mode).Valid := by
  refine Layout.valid_of_checks c.sdmSettings.valid h.checks ?_
  rintro ⟨tt, htt, fr, hfr, enc, henc, hst⟩
  have hmark : (Mark.fill .tt, tt.val) ∈ ms := by
    refine (h.placed _ (by simp) _).mp ?_
    rw [SdmUrl.placed, show c.sdmSettings.tamperStatus = some tt from htt, Option.map_some]
  obtain ⟨hstart, -⟩ := h.enc_marks (Layout.mem_range_enc.mpr ⟨fr, hfr, enc, henc, rfl⟩)
  have := h.renders.apart_marks hmark hstart (by simp)
  simp only [Mark.width, placeholderFillLen] at this
  omega

/-- Every offset of the verifier of compiled settings points into the body. -/
theorem Assembled.uriAt_le_offsets (h : Assembled mode opts url c text rest ms body)
    {fr : FileRead} (hfr : c.sdmSettings.fileRead = some fr) :
    ∀ o ∈ ((c.layout mode).verifier fr).offsets, uriAt ≤ o := by
  have hrange : ∀ p, ∀ r ∈ (c.layout mode).range p, uriAt ≤ r.1 := fun p r hr =>
    (h.range_spec hr).1
  intro o ho
  rcases Verifier.mem_offsets.mp ho with ho | rfl | rfl | ho | ⟨range, hrange', ho⟩
  · cases hpd : c.sdmSettings.piccData with
    | none => simp [Layout.verifier, SdmUrlConfig.layout, hpd, Verifier.piccSourceOf,
        PiccSource.offsets] at ho
    | encrypted k off content =>
        obtain rfl : o = off.val := by
          simpa [Layout.verifier, SdmUrlConfig.layout, hpd, Verifier.piccSourceOf,
            PiccSource.offsets] using ho
        exact hrange .picc (off.val, mode.piccBlobAsciiLen) (by
          simp [SdmUrlConfig.layout, Layout.range, hpd, piccRange])
    | plain mirror =>
        have huid : ∀ u ∈ mirror.uidOffset, uriAt ≤ u.val := fun u hu =>
          hrange .uid (u.val, uidPlaceholderLen) (by
            cases mirror <;> cases hu <;> simp [SdmUrlConfig.layout, Layout.range, hpd, uidRange])
        have hctr : ∀ u ∈ mirror.rctrOffset, uriAt ≤ u.val := fun u hu =>
          hrange .readCtr (u.val, rctrPlaceholderLen) (by
            cases mirror <;> cases hu <;> simp [SdmUrlConfig.layout, Layout.range, hpd, rctrRange])
        simp only [Layout.verifier, SdmUrlConfig.layout, hpd, Verifier.piccSourceOf,
          PiccSource.offsets, List.mem_append, Option.mem_toList, Option.map_eq_some_iff] at ho
        rcases ho with ⟨u, hu, rfl⟩ | ⟨u, hu, rfl⟩
        · exact huid u hu
        · exact hctr u hu
  · exact h.uriAt_le_macInput hfr
  · exact hrange .mac (fr.window.mac.val, macPlaceholderLen) (by
      simp [SdmUrlConfig.layout, Layout.range, hfr, macRange])
  · obtain ⟨tt, htt, rfl⟩ := Option.map_eq_some_iff.mp ho
    have htt : c.sdmSettings.tamperStatus = some tt := htt
    exact hrange .tamper (tt.val, ttPlaceholderLen) (by
      simp [SdmUrlConfig.layout, Layout.range, htt, ttRange])
  · obtain ⟨enc, henc, rfl⟩ := Option.map_eq_some_iff.mp hrange'
    have := hrange .enc _ (Layout.mem_range_enc.mpr ⟨fr, hfr, enc, henc, rfl⟩)
    rcases ho with rfl | rfl <;> omega

end SdmUrl

/-! ### A tag in the field -/

/-- A tag in the field: its keys, its SDM settings, its crypto mode and its NDEF file. -/
structure DeployedTag where
  keys : KeyNumber → Key
  settings : Sdm
  mode : CryptoMode
  file : List UInt8

/-- What varies from one read to the next: the mirrored values, the block inside the encrypted
PICCData blob, and its random part. -/
structure TagRead where
  values : TagValues
  piccBlock : Block
  piccRand : Bytes 8

namespace DeployedTag

/-- The key of the encrypted PICCData blob; plain mirrors need none. -/
def metaKey (tag : DeployedTag) : Key :=
  match tag.settings.piccData with
  | .encrypted key _ _ => tag.keys key
  | _ => Bytes.zeros 16

/-- The parameters of a read. -/
def params (tag : DeployedTag) (fr : FileRead) (rd : TagRead) : ReadoutParams where
  layout := ⟨tag.settings.piccData, tag.settings.fileRead, tag.settings.tamperStatus, tag.mode⟩
  metaKey := tag.metaKey
  fileKey := tag.keys fr.key
  values := rd.values
  piccBlock := rd.piccBlock
  piccRand := rd.piccRand

/-- The bytes a phone reads: the file with its placeholders filled. A tag without an SDM
file-read configuration returns the file. -/
def read (P : Primitives) (tag : DeployedTag) (rd : TagRead) : List UInt8 :=
  match tag.settings.fileRead with
  | some fr => (tag.params fr rd).readout P tag.file fr.window
  | none => tag.file

/-- The read is made as documented: the PICCData block has the configured content, and the
tamper status consists of two ASCII characters. -/
structure Documented (tag : DeployedTag) (rd : TagRead) : Prop where
  block : ∀ k o content, tag.settings.piccData = .encrypted k o content →
    IsPiccBlock content rd.values rd.piccBlock
  tamper : ReadoutParams.IsAscii rd.values.ttPerm ∧ ReadoutParams.IsAscii rd.values.ttCurr

end DeployedTag

section Provisioned

open SdmUrl

variable {P : Primitives} {url : List Char} {c : SdmUrlConfig} {text : String}
  {rest body : List Char} {ms : List (Mark × ℕ)}

/-- The tag that `provision` leaves behind: the configuration of a template and some keys. -/
def SdmUrl.SdmUrlConfig.deploy (c : SdmUrlConfig) (keys : KeyNumber → Key) (tail : List UInt8) :
    DeployedTag :=
  ⟨keys, c.sdmSettings, provisioningMode, c.ndefBytes ++ tail⟩

variable {keys : KeyNumber → Key} {tail : List UInt8} {fr : FileRead} {rd : TagRead}

/-- **What a provisioned tag returns is a genuine readout.** -/
theorem DeployedTag.genuine
    (h : Assembled provisioningMode provisioningOptions url c text rest ms body)
    (hfr : c.sdmSettings.fileRead = some fr) (hrd : (c.deploy keys tail).Documented rd) :
    ((c.deploy keys tail).params fr rd).Genuine c.ndefBytes fr where
  valid := h.valid
  fits _ _ hr := (h.range_spec hr).2.1
  length_le := by
    rw [h.length_ndefBytes]
    exact h.fits
  fileRead_eq := hfr
  block := hrd.block

/-- Bytes behind the record are read as they are. -/
theorem DeployedTag.read_eq (hP : P.Lawful)
    (h : Assembled provisioningMode provisioningOptions url c text rest ms body)
    (hfr : c.sdmSettings.fileRead = some fr) (hrd : (c.deploy keys tail).Documented rd) :
    (c.deploy keys tail).read P rd =
      ((c.deploy keys tail).params fr rd).readout P c.ndefBytes fr.window ++ tail := by
  rw [← ReadoutParams.readout_append hP (DeployedTag.genuine h hfr hrd)]
  simp only [DeployedTag.read, SdmUrlConfig.deploy, hfr]

/-- **The filled file** is the header of the file and a text. -/
theorem DeployedTag.exists_readout_eq (hP : P.Lawful)
    (h : Assembled provisioningMode provisioningOptions url c text rest ms body)
    (hfr : c.sdmSettings.fileRead = some fr) (hrd : (c.deploy keys tail).Documented rd) :
    ∃ out, ((c.deploy keys tail).params fr rd).readout P c.ndefBytes fr.window =
      ndefHeader (1 + (Utf8.encode out).length) c.prefixCode ++ Utf8.encode out ∧
      (Utf8.encode out).length ≤ 254 := by
  have hgen := DeployedTag.genuine h hfr hrd
  have htouch := ReadoutParams.touched_readout hP hgen hrd.tamper
  generalize ((c.deploy keys tail).params fr rd).readout P c.ndefBytes fr.window = out at *
  obtain ⟨hlen, hpos⟩ := htouch
  rw [h.length_ndefBytes] at hlen
  have hhead : out.take uriAt = ndefHeader (1 + (Utf8.encode body).length) c.prefixCode := by
    refine List.ext_getElem? fun i => ?_
    by_cases hi : i < uriAt
    · rw [List.getElem?_take_of_lt hi]
      rcases hpos i with heq | ⟨⟨p, r, hr, hlo, -⟩, -⟩
      · rw [heq, h.ndefBytes, List.getElem?_append_left (by exact hi)]
      · have := (h.range_spec hr).1
        omega
    · rw [List.getElem?_eq_none (by rw [List.length_take]; omega),
        List.getElem?_eq_none (by exact Nat.not_lt.mp hi)]
  have hbody : Utf8.Retouched (out.drop uriAt) (Utf8.encode body) := by
    refine List.forall₂_iff_get.mpr ⟨by rw [List.length_drop]; omega, fun i hi hi' => ?_⟩
    have hout : out[uriAt + i]? = some ((out.drop uriAt).get ⟨i, hi⟩) := by
      rw [← List.getElem?_drop, List.getElem?_eq_getElem hi]
      rfl
    have hold : c.ndefBytes[uriAt + i]? = some ((Utf8.encode body).get ⟨i, hi'⟩) := by
      rw [h.getElem?_ndefBytes (by omega), Nat.add_sub_cancel_left, List.getElem?_eq_getElem hi']
      rfl
    rcases hpos (uriAt + i) with heq | ⟨⟨p, r, hr, hlo, hhi⟩, b, hb, hascii⟩
    · exact .inl (Option.some.inj (hout.symm.trans (heq.trans hold)))
    · have hzero := (h.range_spec hr).2.2 _ hlo hhi
      rw [Option.some.inj (hout.symm.trans hb), Option.some.inj (hold.symm.trans hzero)]
      exact .inr ⟨hascii, by decide⟩
  obtain ⟨ds, hds⟩ := Utf8.exists_encode_of_retouched hbody
  have hlends : (Utf8.encode ds).length = (Utf8.encode body).length := by
    rw [← hds, List.length_drop]
    omega
  refine ⟨ds, ?_, hlends ▸ h.short⟩
  rw [hlends, ← hhead, ← hds, List.take_append_drop]

/-- Without an encrypted PICCData blob the meta-read key plays no role; with one it is Key1. -/
theorem DeployedTag.verifyInner_metaKey
    (h : Assembled provisioningMode provisioningOptions url c text rest ms body) (d : List UInt8)
    (fk : Key) :
    ((c.layout provisioningMode).verifier fr).verifyInner P d fk (c.deploy keys tail).metaKey =
      ((c.layout provisioningMode).verifier fr).verifyInner P d fk (keys .key1) := by
  cases hpd : c.sdmSettings.piccData with
  | encrypted k o content =>
      obtain rfl := h.piccKey k o content hpd
      simp only [metaKey, SdmUrlConfig.deploy, hpd, provisioningOptions]
  | plain | none =>
      refine Verifier.verifyInner_congr_metaKey fun off => ?_
      simp [Layout.verifier, SdmUrlConfig.layout, hpd, Verifier.piccSourceOf]

/-- The values a provisioned tag reports. -/
def DeployedTag.reported (P : Primitives) (tag : DeployedTag) (fr : FileRead) (rd : TagRead)
    (file : List UInt8) : SdmVerification :=
  (tag.params fr rd).reported P file

/-- **The server recovers the identity of a provisioned tag** from the URL of a read. -/
theorem DeployedTag.recover_read (hP : P.Lawful) {urlTemplate : String}
    {app : ApplicationVerifier} (happ : createAppVerifier urlTemplate = .ok app)
    (hc : sdmUrlConfig urlTemplate provisioningMode provisioningOptions = .ok c)
    (huid : c.mirrorsUid = true) {masterKey : Key}
    (hkeys : keys = keysForUid P masterKey rd.values.uid)
    (hrd : (c.deploy keys tail).Documented rd) {E : Type} :
    ∃ fr out, c.sdmSettings.fileRead = some fr ∧
      parseNdefUri ((c.deploy keys tail).read P rd) = .ok out ∧
      (app.recover P masterKey (Utf8.encode out.toList) :
        Outcome (VerificationError E) _) = .ok (rd.values.uid,
          (c.deploy keys tail).reported P fr rd c.ndefBytes) := by
  obtain ⟨c', v', hconf, rfl⟩ := createAppVerifier_eq_ok_iff.mp happ
  obtain ⟨hc', v, hv, hmove⟩ := createSdmUrlConfig_eq_ok_iff.mp hconf
  obtain rfl : c' = c := Except.ok.inj (hc'.symm.trans hc)
  obtain ⟨text, rest, ms, body, h⟩ := sdmUrlConfig_assembled hc
  obtain ⟨fr, hfr, hkey⟩ := h.fileRead
  obtain rfl : v = (c'.layout provisioningMode).verifier fr :=
    Except.ok.inj (hv.symm.trans (Verifier.tryNew_eq_verifier hfr))
  obtain ⟨out, hout, hshort⟩ := DeployedTag.exists_readout_eq hP h hfr hrd
  have hoffsets := h.uriAt_le_offsets hfr
  rw [h.prefixLen, h.offset] at hmove
  -- the readout verifies where the tag wrote it, hence behind the spelled-out prefix
  have hverify : v'.verifyInner P (Utf8.encode text.toList ++ Utf8.encode out) (keys fr.key)
      (keys .key1) = .ok ((c'.deploy keys tail).reported P fr rd c'.ndefBytes) := by
    refine (Verifier.verifyInner_withOffset (p := ndefHeader (1 + (Utf8.encode out).length)
      c'.prefixCode) hmove hoffsets).mpr ?_
    rw [← hout]
    exact (DeployedTag.verifyInner_metaKey h _ _).symm.trans
      (Verifier.verifyInner_readout hP (DeployedTag.genuine h hfr hrd))
  have hmirrored : rd.values.mirroredUid c'.sdmSettings.piccData = some rd.values.uid := if_pos huid
  have hurl : Utf8.encode (text ++ String.ofList out).toList =
      Utf8.encode text.toList ++ Utf8.encode out := by
    rw [String.toList_append, String.toList_ofList, Utf8.encode_append]
  have hfileKey : v'.fileReadKey = fr.key := by
    rw [(Verifier.withOffset_eq_some_iff.mp hmove).2]
    rfl
  refine ⟨fr, text ++ String.ofList out, hfr, ?_, ?_⟩
  · rw [DeployedTag.read_eq hP h hfr hrd, hout]
    exact parseNdefUri_header hshort h.prefixCode tail
  · rw [hurl]
    refine ApplicationVerifier.recover_eq_ok_iff.mpr ⟨fun p hp => ?_,
      Verifier.validate_withOffset ((Verifier.validate_tryNew_iff hv).mpr h.checks) hmove,
      (rd.values.mirroredCtr c'.sdmSettings.piccData).map ctrValue, keys fr.key, ?_, ?_, ?_⟩
    · rw [SdmUrlConfig.uriPrefix, h.prefixCode, Option.map_some] at hp
      obtain rfl := Option.some.inj hp
      exact List.prefix_append _ _
    · have hpicc := Verifier.decryptPiccData_of_verifyInner hverify
      rw [hkeys] at hpicc
      rw [← hmirrored]
      exact hpicc
    · rw [hfileKey, hkeys]
      exact getKey_eq_keysForUid P masterKey rd.values.uid fr.key
    · rw [hkeys] at hverify ⊢
      exact hverify

end Provisioned

/-! ### The store -/

/-- A store that carries out every operation. -/
def StoreOp.answer {E : Type} : (op : StoreOp) → CounterStore → op.Answer E × CounterStore
  | .get uid, s => (.ok (s uid), s)
  | .set uid ctr, s => (.ok (), Function.update s uid ctr)

/-- A call with a fresh counter stores it and returns the readout. -/
theorem ApplicationVerifier.run_verify {P : Primitives} {E : Type} {v : ApplicationVerifier}
    {masterKey : Key} {input : List UInt8} {uid : Bytes 7} {verification : SdmVerification}
    {store : CounterStore}
    (hrec : (v.recover P masterKey input : Outcome (VerificationError E) _) =
      .ok (uid, verification))
    (hfresh : ∀ ctr ∈ verification.readCtr, store uid < ctr) :
    (v.verify P masterKey input).run (StoreOp.answer (E := E)) store =
      (.ok (readout uid verification),
        (verification.readCtr.map (Function.update store uid)).getD store) := by
  cases hctr : verification.readCtr with
  | none =>
      rw [verify_of_recover_none hrec hctr]
      rfl
  | some ctr =>
      have hget : Prog.run (StoreOp.answer (E := E))
          (.call (.get uid) (checkCounter uid verification ctr)) store =
            Prog.run (StoreOp.answer (E := E))
              (checkCounter uid verification ctr (.ok (store uid))) store := rfl
      rw [verify_of_recover hrec hctr, hget, checkCounter_of_lt (hfresh ctr hctr)]
      rfl

/-! ### End to end -/

section Provisioned

open SdmUrl

variable {P : Primitives} {c : SdmUrlConfig}

/-- **Provisioning and verification agree.** For every template that yields a verifier and
mirrors the UID, a tag with the keys of its UID, the NDEF file and the settings of the template
is accepted: the URL rebuilt from what it returns verifies, with its UID, its counter and its
tamper status where they are mirrored, and the counter is stored. -/
theorem DeployedTag.verify_read (hP : P.Lawful) {urlTemplate : String}
    {app : ApplicationVerifier} (happ : createAppVerifier urlTemplate = .ok app)
    (hc : sdmUrlConfig urlTemplate provisioningMode provisioningOptions = .ok c)
    (huid : c.mirrorsUid = true) {masterKey : Key} {rd : TagRead} {keys : KeyNumber → Key}
    (hkeys : deriveKeysForUid (ε := ProvisioningError) P masterKey rd.values.uid = .ok keys)
    {tail : List UInt8} (hrd : (c.deploy keys tail).Documented rd) {E : Type}
    {store : CounterStore}
    (hfresh : c.sdmSettings.piccData.includesRctr = true →
      store rd.values.uid < ctrValue rd.values.readCtr) :
    ∃ out, parseNdefUri ((c.deploy keys tail).read P rd) = .ok out ∧
      (app.verify P masterKey (Utf8.encode out.toList)).run (StoreOp.answer (E := E)) store =
        (.ok ⟨rd.values.uid, (rd.values.mirroredCtr c.sdmSettings.piccData).map ctrValue,
            c.sdmSettings.tamperStatus.map fun _ => .new rd.values.ttPerm rd.values.ttCurr⟩,
          if c.sdmSettings.piccData.includesRctr then
            Function.update store rd.values.uid (ctrValue rd.values.readCtr)
          else store) := by
  rw [deriveKeysForUid_eq, Except.ok.injEq] at hkeys
  obtain ⟨fr, out, hfr, hparse, hrec⟩ :=
    DeployedTag.recover_read (E := E) hP happ hc huid hkeys.symm hrd
  have hctr : ((c.deploy keys tail).reported P fr rd c.ndefBytes).readCtr =
      if c.sdmSettings.piccData.includesRctr then some (ctrValue rd.values.readCtr) else none :=
    (apply_ite (Option.map ctrValue) _ _ _).trans rfl
  refine ⟨out, hparse, ?_⟩
  rw [ApplicationVerifier.run_verify hrec fun ctr hmem => ?_]
  · refine Prod.ext rfl ?_
    rw [hctr]
    cases c.sdmSettings.piccData.includesRctr <;> rfl
  · rw [hctr] at hmem
    cases hincl : c.sdmSettings.piccData.includesRctr with
    | false =>
        rw [hincl] at hmem
        cases hmem
    | true =>
        rw [hincl] at hmem
        cases hmem
        exact hfresh hincl

/-- A template with every identity mirror, the tamper status and the MAC. -/
def exampleTemplate : String := "https://example.com/?p={picc}{tt}&m={mac}"

/-- A read of a tag: UID `04 .. 80`, counter 5, closed tamper loop. -/
def exampleRead : TagRead where
  values := Verifier.exampleParams.values
  piccBlock := Verifier.exampleParams.piccBlock
  piccRand := Verifier.exampleParams.piccRand

/-- A store without any counters. -/
def emptyStore : CounterStore := fun _ => 0

/-- The example template yields a configuration with both mirrors and the tamper status. -/
theorem exampleTemplate_config :
    (createAppVerifier exampleTemplate).isOk = true ∧
      (sdmUrlConfig exampleTemplate provisioningMode provisioningOptions).toOption.map
        (fun c => (c.sdmSettings.piccData, c.sdmSettings.tamperStatus)) =
      some (.encrypted .key1 ⟨22, by decide⟩ (.both ⟨none, .noAccess⟩), some ⟨70, by decide⟩) := by
  decide +kernel

/-- A tag of the example template under the all-zero master key. -/
theorem DeployedTag.verify_read_example :
    ∃ app c out, createAppVerifier exampleTemplate = .ok app ∧
      sdmUrlConfig exampleTemplate provisioningMode provisioningOptions = .ok c ∧
      parseNdefUri ((c.deploy (keysForUid .standard (Bytes.zeros 16) exampleRead.values.uid)
        []).read .standard exampleRead) = .ok out ∧
      (app.verify .standard (Bytes.zeros 16) (Utf8.encode out.toList)).run
          (StoreOp.answer (E := Empty)) emptyStore =
        (.ok ⟨exampleRead.values.uid, some 5, some (.new 0x43 0x43)⟩,
          Function.update emptyStore exampleRead.values.uid 5) := by
  obtain ⟨happ, hconf⟩ := exampleTemplate_config
  obtain ⟨app, happ⟩ := Except.isOk_iff.mp happ
  obtain ⟨c, hc, hfields⟩ := Option.map_eq_some_iff.mp hconf
  have hc : sdmUrlConfig exampleTemplate provisioningMode provisioningOptions = .ok c := by
    cases hres : sdmUrlConfig exampleTemplate provisioningMode provisioningOptions with
    | error e =>
        rw [hres] at hc
        cases hc
    | ok c' =>
        rw [hres] at hc
        cases hc
        rfl
  obtain ⟨hpd, htt⟩ := Prod.mk.inj hfields
  have huid : c.mirrorsUid = true := by
    rw [SdmUrlConfig.mirrorsUid, hpd]
    rfl
  have hrd : (c.deploy (keysForUid .standard (Bytes.zeros 16) exampleRead.values.uid)
      []).Documented exampleRead := by
    refine ⟨fun k o content h => ?_, by decide⟩
    cases hpd.symm.trans h
    exact isPiccBlock_piccDataBlock _ _
  have hfresh : c.sdmSettings.piccData.includesRctr = true →
      emptyStore exampleRead.values.uid < ctrValue exampleRead.values.readCtr :=
    fun _ => by decide
  obtain ⟨out, hparse, hrun⟩ := DeployedTag.verify_read (E := Empty) Primitives.standard_lawful
    happ hc huid (deriveKeysForUid_eq .standard (Bytes.zeros 16) exampleRead.values.uid) hrd hfresh
  refine ⟨app, c, out, happ, hc, hparse, hrun.trans ?_⟩
  rw [hpd, htt]
  rfl

end Provisioned

end Ntag424
