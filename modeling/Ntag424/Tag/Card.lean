import Mathlib.Tactic.Common
import Ntag424.Tag.Session

/-!
# A Conforming Tag

The whole tag: the selection of its application, the first authentication of either mode, and
the session that follows.

## Modelling

* Outside a session the tag knows `ISOSelectFile` of its application and
  `AuthenticateEV2First`; every other command is refused.
* A tag in AES mode ignores the capabilities of the reader. A tag in LRP mode asks for them.
-/

namespace Ntag424

open Numerals

/-- The state of the link to the tag. -/
inductive Channel where
  | deselected
  | selected
  /-- A first authentication waits for the proof of the reader. -/
  | challenged (lrp : Bool) (keyNo : KeyNumber) (key : Key) (rndB : Bytes 16) (pcdCap2 : Bytes 6)
  | aes (session : TagSession AesSuite)
  | lrp (session : TagSession LrpKeys)

/-- A tag with an application in a state of type `A`. -/
structure Card (A : Type) where
  channel : Channel
  app : A

/-- The instruction code and the body of a short native APDU. -/
def parseNative : List UInt8 → Option (UInt8 × List UInt8)
  | [0x90, ins, _, _, _] => some (ins, [])
  | 0x90 :: ins :: _ :: _ :: lc :: rest =>
      if rest.length = lc.toNat + 1 then some (ins, rest.take lc.toNat) else none
  | _ => none

/-- What the tag reads from an APDU of the host. -/
theorem parseNative_nativeApdu {ins p1 p2 : UInt8} {body : List UInt8} (h : body.length < 256) :
    parseNative (nativeApdu ins p1 p2 body) = some (ins, body) := by
  have hlc : (UInt8.ofNat body.length).toNat = body.length := by
    rw [UInt8.toNat_ofNat', Nat.mod_eq_of_lt h]
  cases body with
  | nil => rfl
  | cons b body =>
      simp only [nativeApdu, List.cons_append, parseNative]
      rw [hlc, if_pos (by simp), ← List.cons_append, List.take_left' rfl]

/-- The status of an APDU that is not native. -/
def classNotSupportedResponse : Response := ⟨[], 0x6E, 0x00⟩

namespace Card

variable (P : Primitives) {A : Type} (app : TagApp A)

/-- Refuse a command outside a session. -/
def refuse (e : TagError) (a : A) : Response × Card A := (e.response, ⟨.selected, a⟩)

/-- The start of a first authentication: `KeyNo || LenCap || PCDcap2`. -/
def firstPart1 (body : List UInt8) (a : A) : Response × Card A :=
  match body with
  | k :: lenCap :: caps =>
      if caps.length ≠ lenCap.toNat then refuse .lengthError a
      else
        match KeyNumber.ofNibble? k with
        | none => refuse .noSuchKey a
        | some keyNo =>
            let key := app.key a keyNo
            let (rndB, a') := app.rndB a
            let waiting := Channel.challenged (app.lrpMode a) keyNo key rndB (Bytes.fill 6 caps)
            if app.lrpMode a then
              if caps.headD 0 &&& 0x02 = 0 then refuse .permissionDenied a
              else (⟨TagSuite.challenge P LrpSuite key rndB, 0x91, 0xAF⟩, ⟨waiting, a'⟩)
            else (⟨TagSuite.challenge P AesSuite key rndB, 0x91, 0xAF⟩, ⟨waiting, a'⟩)
  | _ => refuse .lengthError a

/-- The end of a first authentication in AES mode: `E(Kx, TI || RndA' || PDcap2 || PCDcap2)`. -/
def firstAes (keyNo : KeyNumber) (key : Key) (rndB : Bytes 16) (pcdCap2 : Bytes 6)
    (body : List UInt8) (a : A) : Response × Card A :=
  match AesSuite.checkProof P key rndB body with
  | none => refuse .authenticationError a
  | some rndA =>
      let (ti, a') := app.newTi a
      let plain := ((ti.append (rotateLeft rndA)).append (app.pdCap2 a)).append pcdCap2
      (⟨(aesCbcEncryptN P key zeroIv plain).toList, 0x91, 0x00⟩,
        ⟨.aes ⟨keyNo, AesSuite.tagKeys P key rndA rndB, ti, 0, 0, .none⟩, a'⟩)

/-- The end of a first authentication in LRP mode: `PICCData || MAC(RndB || RndA || PICCData)`
with the encrypted `PICCData` of `TI || PDcap2 || PCDcap2`. -/
def firstLrp (keyNo : KeyNumber) (key : Key) (rndB : Bytes 16) (pcdCap2 : Bytes 6)
    (body : List UInt8) (a : A) : Response × Card A :=
  match LrpSuite.checkProof P key rndB body with
  | none => refuse .authenticationError a
  | some rndA =>
      let (ti, a') := app.newTi a
      let keys := LrpSuite.tagKeys P key rndA rndB
      let plain := (ti.append (app.pdCap2 a)).append pcdCap2
      let suite : LrpSuite := ⟨keys, 0⟩
      let piccData := (SessionSuite.encrypt P suite .response ti 0 plain.toList).elim [] Prod.fst
      let proof := cmacLrp P keys.macKey (rndB.toList ++ rndA.toList ++ piccData)
      (⟨piccData ++ proof.toList, 0x91, 0x00⟩,
        ⟨.lrp ⟨keyNo, keys, ti, 0, 1, .none⟩, a'⟩)

/-- The proof of the reader in a first authentication. -/
def firstPart2 (lrp : Bool) (keyNo : KeyNumber) (key : Key) (rndB : Bytes 16)
    (pcdCap2 : Bytes 6) (ins : UInt8) (body : List UInt8) (a : A) : Response × Card A :=
  if ins ≠ 0xAF then refuse .commandAborted a
  else if lrp then firstLrp P app keyNo key rndB pcdCap2 body a
  else firstAes P app keyNo key rndB pcdCap2 body a

/-- The card after an APDU in a session. -/
def ofReply {K : Type} (channel : TagSession K → Channel) (r : TagSession.Reply K A) :
    Response × Card A := (r.1, ⟨r.2.1.elim .selected channel, r.2.2⟩)

/-- The reaction to a native APDU. -/
def native (ins : UInt8) (body : List UInt8) (card : Card A) : Response × Card A :=
  if ins = 0x71 then
    match card.channel with
    | .deselected => (TagError.response .illegalCommandCode, card)
    | _ => firstPart1 P app body card.app
  else
    match card.channel with
    | .deselected | .selected => (TagError.response .illegalCommandCode, card)
    | .challenged lrp keyNo key rndB pcdCap2 =>
        firstPart2 P app lrp keyNo key rndB pcdCap2 ins body card.app
    | .aes ts => ofReply .aes (ts.handle P (S := AesSuite) app ins body card.app)
    | .lrp ts => ofReply .lrp (ts.handle P (S := LrpSuite) app ins body card.app)

/-- The reaction to an APDU. -/
def handle (apdu : List UInt8) (card : Card A) : Response × Card A :=
  if apdu = isoSelectDfByNameApdu ndefApplicationDfName then
    (⟨[], 0x90, 0x00⟩, ⟨.selected, card.app⟩)
  else
    match parseNative apdu with
    | none => (classNotSupportedResponse, card)
    | some (ins, body) => card.native P app ins body

/-- A transport that delivers every APDU to the card. -/
def transmit {E : Type} (apdu : List UInt8) (card : Card A) : Transmit E apdu × Card A :=
  (.ok (card.handle P app apdu).1, (card.handle P app apdu).2)

/-- A native APDU of the host reaches the card as instruction code and body. -/
theorem handle_nativeApdu {ins p1 p2 : UInt8} {body : List UInt8} (h : body.length < 256)
    (card : Card A) :
    card.handle P app (nativeApdu ins p1 p2 body) = card.native P app ins body := by
  have hne : nativeApdu ins p1 p2 body ≠ isoSelectDfByNameApdu ndefApplicationDfName := by
    intro heq
    cases List.head_eq_of_cons_eq heq
  rw [handle, if_neg hne, parseNative_nativeApdu h]

end Card

/-- A suite whose sessions are a state of the link to the card. -/
class LinkedSuite (P : Primitives) (S : Type) extends TagSuite P S where
  channel : TagSession Keys → Channel
  native_channel : ∀ {A : Type} (app : TagApp A) {ins : UInt8} (body : List UInt8)
    (ts : TagSession Keys) (a : A), ins ≠ 0x71 →
    Card.native P app ins body ⟨channel ts, a⟩ =
      Card.ofReply channel (TagSession.handle P (S := S) app ins body ts a)

instance (P : Primitives) : LinkedSuite P AesSuite where
  channel := .aes
  native_channel _ _ _ _ _ hins := by rw [Card.native, if_neg hins]

instance (P : Primitives) : LinkedSuite P LrpSuite where
  channel := .lrp
  native_channel _ _ _ _ _ hins := by rw [Card.native, if_neg hins]

end Ntag424
