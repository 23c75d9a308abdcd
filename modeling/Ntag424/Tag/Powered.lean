import Mathlib.Tactic.Common
import Ntag424.Session.FileReads
import Ntag424.Session.Unauthenticated
import Ntag424.Tag.Card

/-!
# A Tag in the Field

A conforming tag together with the plain commands that it answers outside a session: `GetVersion`,
the selection of a file and `ISOReadBinary`. Everything else reaches its card.

## Modelling

* What a reader sees of a file without authentication is a parameter, because a tag mirrors data
  into a file that it shows.
* The frames of a version are numbered; a tag owes a frame until another command comes.

## Main results

* `PoweredTag.wp_of_card`: a program of a session behaves as on the card alone.
* `PoweredTag.wp_getVersionUnauthenticated`: the version, in three frames.
* `PoweredTag.servesFile`: the files as a reader sees them.
-/

namespace Ntag424

variable {A E σ β : Type}

/-- What a tag shows without authentication: its version, and its files as a reader sees them. -/
structure PublicView (A : Type) where
  version : A → Version
  binary : A → File → List UInt8

/-- A tag with the frame of a version that it owes and the file that is selected. -/
structure PoweredTag (A : Type) where
  frame : ℕ
  selected : Option File
  card : Card A

/-- Outside a session, and outside an authentication that has begun. -/
def Channel.isIdle : Channel → Bool
  | .deselected | .selected => true
  | .challenged .. | .aes _ | .lrp _ => false

/-- The application is selected, and there is no session. -/
def Channel.isSelected : Channel → Bool
  | .selected => true
  | .deselected | .challenged .. | .aes _ | .lrp _ => false

/-- The file of an identifier. -/
def File.ofFileId? (n : ℕ) : Option File :=
  [capabilityContainer, ndef, proprietary].find? fun file => file.fileId == n

theorem File.ofFileId?_fileId (file : File) : ofFileId? file.fileId = some file := by
  cases file <;> rfl

namespace PoweredTag

/-- A frame of the version. -/
def versionFrame (v : Version) : ℕ → Option Response
  | 0 => some ⟨v.part1.toList, 0x91, 0xAF⟩
  | 1 => some ⟨v.part2.toList, 0x91, 0xAF⟩
  | 2 => some ⟨v.part3.toList, 0x91, 0x00⟩
  | _ => none

/-- The reaction to the plain commands. -/
def plain (view : PublicView A) (apdu : List UInt8) (tag : PoweredTag A) :
    Option (Response × PoweredTag A) :=
  match apdu.map UInt8.toNat with
  | [0x90, 0x60, 0x00, 0x00, 0x00] =>
      if tag.card.channel.isIdle then
        (versionFrame (view.version tag.card.app) 0).map fun r => (r, { tag with frame := 1 })
      else none
  | [0x90, 0xAF, 0x00, 0x00, 0x00] =>
      if tag.card.channel.isIdle ∧ tag.frame ≠ 0 then
        (versionFrame (view.version tag.card.app) tag.frame).map fun r =>
          (r, { tag with frame := tag.frame + 1 })
      else none
  | [0x00, 0xA4, 0x00, 0x0C, 0x02, hi, lo] =>
      if tag.card.channel.isSelected then
        (File.ofFileId? (256 * hi + lo)).map fun file =>
          (⟨[], 0x90, 0x00⟩, { tag with frame := 0, selected := some file })
      else none
  | [0x00, 0xB0, p1, p2, le] =>
      if tag.card.channel.isSelected then
        tag.selected.map fun file =>
          (⟨slice (view.binary tag.card.app file) (256 * p1 + p2) (if le = 0 then 256 else le),
            0x90, 0x00⟩, { tag with frame := 0 })
      else none
  | _ => none

/-- The reaction to an APDU. -/
def handle (P : Primitives) (app : TagApp A) (view : PublicView A) (apdu : List UInt8)
    (tag : PoweredTag A) : Response × PoweredTag A :=
  match tag.plain view apdu with
  | some reaction => reaction
  | none =>
      let (r, card) := tag.card.handle P app apdu
      let selected :=
        if apdu = isoSelectDfByNameApdu ndefApplicationDfName then none else tag.selected
      (r, ⟨0, selected, card⟩)

/-- A transport that delivers every APDU to the tag. -/
def transmit (P : Primitives) (app : TagApp A) (view : PublicView A) {E : Type}
    (apdu : List UInt8) (tag : PoweredTag A) : Transmit E apdu × PoweredTag A :=
  (.ok (tag.handle P app view apdu).1, (tag.handle P app view apdu).2)

variable {P : Primitives} {app : TagApp A} {view : PublicView A}

/-! ### Sessions -/

/-- The APDUs of a session are no plain commands. -/
theorem plain_of_sessionApdu {apdu : List UInt8} (h : SessionApdu apdu) (tag : PoweredTag A) :
    tag.plain view apdu = none := by
  rcases h with ⟨ins, p1, p2, body, hbody, rfl⟩ | rfl
  · have hpos := List.length_pos_iff.mpr hbody
    have hmap : (nativeApdu ins p1 p2 body).map UInt8.toNat =
        0x90 :: ins.toNat :: p1.toNat :: p2.toNat :: (UInt8.ofNat body.length).toNat ::
          (body ++ [0x00]).map UInt8.toNat := by
      cases body with
      | nil => exact absurd rfl hbody
      | cons b body => rfl
    rw [plain, hmap]
    split
    · rename_i heq
      have hlen := congrArg List.length heq
      simp at hlen
    · rename_i heq
      have hlen := congrArg List.length heq
      simp at hlen
    · rename_i heq
      cases List.head_eq_of_cons_eq heq
    · rename_i heq
      cases List.head_eq_of_cons_eq heq
    · rfl
  · rfl

/-- The APDUs of a session reach the card. -/
theorem answers_card {apdu : List UInt8} {tag tag' : PoweredTag A} {answer : Transmit E apdu}
    (hapdu : SessionApdu apdu) (h : Prog.Answers (transmit P app view) apdu tag answer tag') :
    Prog.Answers (Card.transmit P app) apdu tag.card answer tag'.card := by
  obtain ⟨rfl, rfl⟩ := Prod.mk.inj h
  rw [handle, plain_of_sessionApdu hapdu]
  rfl

/-- **A program of a session** behaves as on the card alone. -/
theorem wp_of_card {ε : Type} {m : Script (Transmit E) σ ε β} {I : Card A → Prop}
    {Q : β → σ → Card A → Prop} {R : Fault ε → σ → Card A → Prop} {s : σ} {tag : PoweredTag A}
    (hm : m.Asks SessionApdu) (h : m.wp (Prog.Answers (Card.transmit P app)) I Q R s tag.card) :
    m.wp (Prog.Answers (transmit P app view)) (fun tag => I tag.card)
      (fun b s' tag' => Q b s' tag'.card) (fun e s' tag' => R e s' tag'.card) s tag :=
  hm.wp_comap (f := card) (fun _ _ _ _ hapdu hanswer => answers_card hapdu hanswer) h

/-- A program of a session that is never refused on the card runs to its end. -/
theorem exists_run_of_card {ε : Type} {m : Script (Transmit E) σ ε β} {I : Card A → Prop}
    {Q : β → σ → Card A → Prop} {s : σ} {tag : PoweredTag A} (view : PublicView A)
    (hm : m.Asks SessionApdu)
    (h : m.wp (Prog.Answers (Card.transmit P app)) I Q (fun _ _ _ => False) s tag.card) :
    ∃ b s' tag', Prog.run (transmit P app view) (m s) tag = ((.ok b, s'), tag') ∧
      Q b s' tag'.card :=
  Script.exists_run (wp_of_card hm h)

/-! ### The version -/

section Exchanges

variable {I : PoweredTag A → Prop} {R : Fault (SessionError E) → σ → PoweredTag A → Prop} {t : σ}
  {tag tag' : PoweredTag A} {apdu : List UInt8} {resp : Response}

/-- One plain command that the tag answers. -/
theorem wp_transmitExpecting_plain {status : ResponseStatus}
    {Q : Response → σ → PoweredTag A → Prop} (hI : I tag)
    (hplain : tag.plain view apdu = some (resp, tag'))
    (hstatus : desfireStatus resp.sw1 resp.sw2 = status) (hQ : Q resp t tag') :
    (transmitExpecting status apdu).wp (Prog.Answers (transmit P app view)) I Q R t tag := by
  simp only [transmitExpecting, Script.wp_bind, Script.wp_require, Script.wp_pure]
  refine wp_transmit hI ?_ ?_
  · rintro r tag'' hanswer
    obtain ⟨hr, rfl⟩ := Prod.mk.inj hanswer
    rw [handle, hplain] at hr ⊢
    obtain rfl := Except.ok.inj hr
    exact ⟨fun _ => hQ, fun hno => absurd hstatus hno⟩
  · rintro e tag'' hanswer
    cases (Prod.mk.inj hanswer).1

/-- One of the first two frames of the version. -/
theorem wp_requestIntermediatePart_plain {part : Bytes 7} {Q : Bytes 7 → σ → PoweredTag A → Prop}
    (hI : I tag) (hplain : tag.plain view apdu = some (⟨part.toList, 0x91, 0xAF⟩, tag'))
    (hQ : Q part t tag') :
    (requestIntermediatePart apdu).wp (Prog.Answers (transmit P app view)) I Q R t tag := by
  simp only [requestIntermediatePart, Script.wp_bind]
  refine wp_transmitExpecting_plain hI hplain rfl ?_
  rw [expectBytes, Bytes.ofList?_eq_some_iff.mpr rfl]
  exact Script.wp_pure.mpr hQ

/-- **The version of an idle tag**, in three frames. -/
theorem wp_getVersionUnauthenticated {session : Session Unauthenticated}
    {R : Fault (SessionError E) → Session Unauthenticated → PoweredTag A → Prop}
    (hI : ∀ frame, I ⟨frame, tag.selected, tag.card⟩) (hidle : tag.card.channel.isIdle = true) :
    Session.getVersionUnauthenticated.wp (Prog.Answers (transmit P app view)) I
      (fun v session' tag' => v = view.version tag.card.app ∧ session' = session ∧
        tag' = ⟨3, tag.selected, tag.card⟩) R session tag := by
  obtain ⟨frame, selected, card⟩ := tag
  have hfirst : plain view [0x90, 0x60, 0x00, 0x00, 0x00] ⟨frame, selected, card⟩ =
      some (⟨(view.version card.app).part1.toList, 0x91, 0xAF⟩, ⟨1, selected, card⟩) :=
    if_pos hidle
  have hsecond : plain view continuationApdu ⟨1, selected, card⟩ =
      some (⟨(view.version card.app).part2.toList, 0x91, 0xAF⟩, ⟨2, selected, card⟩) :=
    if_pos ⟨hidle, Nat.one_ne_zero⟩
  have hthird : plain view continuationApdu ⟨2, selected, card⟩ =
      some (⟨(view.version card.app).part3.toList, 0x91, 0x00⟩, ⟨3, selected, card⟩) :=
    if_pos ⟨hidle, Nat.succ_ne_zero 1⟩
  simp only [Session.getVersionUnauthenticated, getVersionPlain, driveChain, Script.wp_bind,
    Script.wp_pure]
  refine wp_requestIntermediatePart_plain (hI frame) hfirst ?_
  refine wp_requestIntermediatePart_plain (hI 1) hsecond ?_
  refine wp_transmitExpecting_plain (hI 2) hthird rfl ?_
  have hlen : (view.version card.app).part3.toList.length = 14 := Bytes.length_toList _
  simp only [extractPart3, Script.wp_bind, Script.wp_require, Script.wp_pure]
  refine ⟨fun _ => ⟨?_, trivial, trivial⟩, fun hno => absurd hlen.ge hno⟩
  rw [List.take_of_length_le hlen.le, Bytes.fill_toList]

end Exchanges

/-! ### Files -/

/-- What an unauthenticated session takes to be selected is. -/
structure Agrees (a : A) (session : Session Unauthenticated) (tag : PoweredTag A) : Prop where
  app_eq : tag.card.app = a
  idle : tag.card.channel.isIdle = true
  selected : session.ndefSelected = true → tag.card.channel.isSelected = true
  file : ∀ file : File, session.efSelected = some file.fileId → tag.selected = some file

theorem agrees_new {tag : PoweredTag A} (h : tag.card.channel.isIdle = true) :
    Agrees tag.card.app Session.new tag :=
  ⟨rfl, h, by rintro ⟨⟩, by rintro _ ⟨⟩⟩

/-- The address and the length of an `ISOReadBinary`, as the tag reads them. -/
theorem plain_readBinary (view : PublicView A) {offset want : ℕ} (hoffset : offset ≤ 0x7FFF)
    (hpos : 0 < want) (hmax : want ≤ isoReadBinaryMax) {file : File} {tag : PoweredTag A}
    (hselected : tag.card.channel.isSelected = true) (hfile : tag.selected = some file) :
    tag.plain view (isoReadBinaryApdu (UInt8.ofNat (offset / 256)) (UInt8.ofNat offset) want) =
      some (⟨slice (view.binary tag.card.app file) offset want, 0x90, 0x00⟩,
        { tag with frame := 0 }) := by
  have hle : (if (if want = isoReadBinaryMax then (0x00 : UInt8) else UInt8.ofNat want).toNat = 0
      then 256 else (if want = isoReadBinaryMax then (0x00 : UInt8) else UInt8.ofNat want).toNat) =
      want := by
    by_cases hwant : want = isoReadBinaryMax
    · rw [if_pos hwant, hwant]
      rfl
    · have hlt : want < 256 := Nat.lt_of_le_of_ne hmax hwant
      rw [if_neg hwant, UInt8.toNat_ofNat', Nat.mod_eq_of_lt hlt, if_neg (by omega)]
  have haddress : 256 * (UInt8.ofNat (offset / 256)).toNat + (UInt8.ofNat offset).toNat =
      offset := by
    rw [UInt8.toNat_ofNat', UInt8.toNat_ofNat', Nat.mod_eq_of_lt (by omega)]
    omega
  have hplain : tag.plain view
      (isoReadBinaryApdu (UInt8.ofNat (offset / 256)) (UInt8.ofNat offset) want) =
      if tag.card.channel.isSelected then
        tag.selected.map fun file =>
          (⟨slice (view.binary tag.card.app file)
            (256 * (UInt8.ofNat (offset / 256)).toNat + (UInt8.ofNat offset).toNat)
            (if (if want = isoReadBinaryMax then (0x00 : UInt8) else UInt8.ofNat want).toNat = 0
              then 256
              else (if want = isoReadBinaryMax then (0x00 : UInt8) else UInt8.ofNat want).toNat),
            0x90, 0x00⟩, { tag with frame := 0 })
      else none := rfl
  rw [hplain, if_pos hselected, hfile, hle, haddress]
  rfl

/-- **The files as a reader sees them**, outside a session. -/
theorem servesFile (a : A) (file : File) :
    ServesFile (E := E) (Prog.Answers (transmit P app view)) (Agrees a) file
      (slice (view.binary a file)) := by
  refine ⟨?_, ?_, ?_⟩
  · rintro session tag answer tag' h hanswer
    have hplain : tag.plain view (isoSelectDfByNameApdu ndefApplicationDfName) = none :=
      plain_of_sessionApdu (.inr rfl) tag
    obtain ⟨rfl, rfl⟩ := Prod.mk.inj hanswer
    rw [handle, hplain]
    exact ⟨⟨_, rfl⟩, h.app_eq, rfl, fun _ => rfl, by rintro _ ⟨⟩⟩
  · rintro session tag answer tag' happ h hanswer
    have hplain : tag.plain view (isoSelectEfApdu file.fileId) =
        some (⟨[], 0x90, 0x00⟩, { tag with frame := 0, selected := some file }) := by
      have hselected := h.selected happ
      cases file <;> exact if_pos hselected
    obtain ⟨rfl, rfl⟩ := Prod.mk.inj hanswer
    rw [handle, hplain]
    refine ⟨⟨_, rfl⟩, h.app_eq, h.idle, h.selected, ?_⟩
    rintro other hother
    have hid : File.ofFileId? file.fileId = some other := by
      rw [Option.some.inj hother]
      exact other.ofFileId?_fileId
    rw [file.ofFileId?_fileId] at hid
    exact hid
  · rintro session happ hef
    refine ⟨fun _ _ => List.length_take_le .., ?_⟩
    rintro offset want tag answer tag' h hoffset hpos hmax hanswer
    have hplain := plain_readBinary view hoffset hpos hmax (h.selected happ) (h.file file hef)
    obtain ⟨rfl, rfl⟩ := Prod.mk.inj hanswer
    rw [handle, hplain]
    refine ⟨?_, h.app_eq, h.idle, h.selected, h.file⟩
    rw [h.app_eq]

end PoweredTag

end Ntag424
