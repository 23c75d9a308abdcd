import Mathlib.Tactic.Common
import Ntag424.Tag.App

/-!
# The Tag's Side of a Session

The tag removes secure messaging from a command, lets the application react, counts the
command when it is accepted, and applies secure messaging to the answer. Its counters are
natural numbers: `cmdCtr` counts accepted commands, with the frames of `GetVersion` as one
command, and `encCtr` counts encrypted blocks.

## Modelling

* A refused command changes the session only by the blocks that were decrypted on the way.
* Changing the key of the session ends it, and the answer carries no MAC.
* MACs, proofs and session keys are written from their documented layouts, not with the host's
  functions. That both sides compute the same bytes is proved with their lockstep
  (`TagSession.mac_eq`, `AesSuite.tagKeys_eq`, `LrpSuite.tagKeys_eq`).
-/

namespace Ntag424

open Numerals

/-- A frame the tag expects or owes next. -/
inductive Pending where
  | none
  /-- Part 2 of the version. -/
  | versionPart2 (version : List UInt8)
  /-- Part 3 of the version. -/
  | versionPart3 (version : List UInt8)
  /-- The proof of a re-authentication with a key. -/
  | proof (keyNo : KeyNumber) (key : Key) (rndB : Bytes 16)

/-- The tag's side of a session with keys `K`. -/
structure TagSession (K : Type) where
  keyNo : KeyNumber
  keys : K
  ti : Bytes 4
  cmdCtr : ℕ
  encCtr : ℕ
  pending : Pending

/-- The tag's side of a handshake: the challenge that hides `RndB`, the check of the host's
proof, which yields `RndA` and the tag's own proof, and the session keys. -/
class TagSuite (P : Primitives) (S : Type) extends HandshakeSuite P S where
  challenge : Key → Bytes 16 → List UInt8
  respond : Key → Bytes 16 → List UInt8 → Option (Bytes 16 × List UInt8)
  sessionKeys : Key → Bytes 16 → Bytes 16 → Keys

/-! ### Session keys on the tag -/

/-- `Rnd[i..j]`: the bytes of a random are numbered from the last one. -/
def octets (rnd : Bytes 16) (i j : ℕ) : List UInt8 := slice rnd.toList (15 - i) (i + 1 - j)

/-- `RndA[15..14] || (RndA[13..8] xor RndB[15..10]) || RndB[9..0] || RndA[7..0]`. -/
def tagContext (rndA rndB : Bytes 16) : List UInt8 :=
  octets rndA 15 14 ++ List.zipWith (· ^^^ ·) (octets rndA 13 8) (octets rndB 15 10) ++
    octets rndB 9 0 ++ octets rndA 7 0

/-- The keys of an AES session: `SV1` is `A55A || 0001 || 0080` and the context, `SV2` starts
with `5AA5` instead. -/
def AesSuite.tagKeys (P : Primitives) (key : Key) (rndA rndB : Bytes 16) : AesSuite where
  encKey := cmacAes P key ([0xA5, 0x5A, 0x00, 0x01, 0x00, 0x80] ++ tagContext rndA rndB)
  macKey := cmacAes P key ([0x5A, 0xA5, 0x00, 0x01, 0x00, 0x80] ++ tagContext rndA rndB)

/-- The keys of an LRP session: the first two updated keys of the session master key, which is
the MAC of `0001 || 0080`, the context and `9669`. -/
def LrpSuite.tagKeys (P : Primitives) (key : Key) (rndA rndB : Bytes 16) : LrpKeys :=
  let master := cmacLrp P (Lrp.fromBaseKey P key)
    ([0x00, 0x01, 0x00, 0x80] ++ tagContext rndA rndB ++ [0x96, 0x69])
  { macKey := Lrp.fromParts (generatePlaintexts P master) (generateUpdatedKeys P master 0)
    encKey := Lrp.fromParts (generatePlaintexts P master) (generateUpdatedKeys P master 1) }

/-! ### Handshakes on the tag -/

/-- The host's proof in an AES handshake: `RndA`, if `RndB'` is right. -/
def AesSuite.checkProof (P : Primitives) (key : Key) (rndB : Bytes 16) (body : List UInt8) :
    Option (Bytes 16) :=
  match Bytes.ofList? 32 body with
  | none => none
  | some enc =>
      let plain := (aesCbcDecryptN P key zeroIv enc).toList
      if plain.drop 16 = (rotateLeft rndB).toList then some (Bytes.fill 16 (plain.take 16))
      else none

instance (P : Primitives) : TagSuite P AesSuite where
  challenge key rndB := (aesCbcEncryptN P key zeroIv rndB).toList
  respond key rndB body := (AesSuite.checkProof P key rndB body).map fun rndA =>
    (rndA, (aesCbcEncryptN P key zeroIv (rotateLeft rndA)).toList)
  sessionKeys := AesSuite.tagKeys P

/-- The host's proof in an LRP handshake: `RndA || MAC(RndA || RndB)`. It yields `RndA`, if the
MAC is right. -/
def LrpSuite.checkProof (P : Primitives) (key : Key) (rndB : Bytes 16) (body : List UInt8) :
    Option (Bytes 16) :=
  let rndA := Bytes.fill 16 (body.take 16)
  let proof := cmacLrp P (tagKeys P key rndA rndB).macKey (rndA.toList ++ rndB.toList)
  if body = rndA.toList ++ proof.toList then some rndA else none

instance (P : Primitives) : TagSuite P LrpSuite where
  challenge _ rndB := 0x01 :: rndB.toList
  respond key rndB body := (LrpSuite.checkProof P key rndB body).map fun rndA =>
    (rndA, (cmacLrp P (LrpSuite.tagKeys P key rndA rndB).macKey
      (rndB.toList ++ rndA.toList)).toList)
  sessionKeys := LrpSuite.tagKeys P

namespace TagSession

variable {K : Type}

/-- Expect a frame, or owe one. -/
def awaiting (ts : TagSession K) (pending : Pending) : TagSession K := { ts with pending }

/-- A session that waits for a command. -/
def idle (ts : TagSession K) : TagSession K := ts.awaiting .none

/-- Count encrypted blocks. -/
def counted (ts : TagSession K) (blocks : ℕ) : TagSession K :=
  { ts with encCtr := ts.encCtr + blocks }

/-- Count an accepted command. -/
def accept (ts : TagSession K) : TagSession K := { ts.idle with cmdCtr := ts.cmdCtr + 1 }

end TagSession

/-! ### Secure messaging on the tag -/

/-- How an answer is protected. -/
inductive Framing where
  | plain
  | mac
  | full
  /-- Nothing but the status. -/
  | silent
deriving DecidableEq, Repr

namespace TagSession

section Suite

variable (P : Primitives) {S : Type} [KeyedSuite P S]

/-- The suite of a session. -/
def suite (ts : TagSession (KeyedSuite.Keys P S)) : S :=
  KeyedSuite.ofKeys (P := P) ts.keys ts.encCtr

/-- The MAC of a message under a value of the command counter: of the command code or the status,
the counter with its low byte first, `TI` and the data. -/
def mac (ts : TagSession (KeyedSuite.Keys P S)) (pre : UInt8) (ctr : ℕ) (data : List UInt8) :
    Bytes 8 :=
  SessionSuite.mac P (ts.suite P : S)
    ([pre, UInt8.ofNat ctr, UInt8.ofNat (ctr / 256)] ++ ts.ti.toList ++ data)

/-- Check and remove the MAC of a command. -/
def verify (ts : TagSession (KeyedSuite.Keys P S)) (ins : UInt8) (body : List UInt8) :
    Except TagError (List UInt8) :=
  let message := body.take (body.length - macLen)
  if body.drop (body.length - macLen) = (ts.mac P (S := S) ins ts.cmdCtr message).toList then
    .ok message
  else .error .integrityError

/-- Decrypt the data of a command and strip its padding. -/
def decrypt (ts : TagSession (KeyedSuite.Keys P S)) (ct : List UInt8) :
    Except TagError (List UInt8) × TagSession (KeyedSuite.Keys P S) :=
  match SessionSuite.decrypt P (ts.suite P : S) .command ts.ti (UInt16.ofNat ts.cmdCtr) ct with
  | none => (.error .lengthError, ts)
  | some (pt, _) =>
      let ts := ts.counted (ct.length / 16)
      match stripM2Padding pt with
      | none => (.error .integrityError, ts)
      | some n => (.ok (pt.take n), ts)

/-- Remove secure messaging from the body of a command: its header and its data. -/
def receive (ts : TagSession (KeyedSuite.Keys P S)) (ins : UInt8) (headerLen : ℕ)
    (mode : CommMode) (body : List UInt8) :
    Except TagError (List UInt8 × List UInt8) × TagSession (KeyedSuite.Keys P S) :=
  match mode with
  | .plain => (.ok (body.take headerLen, body.drop headerLen), ts)
  | .mac =>
      ((ts.verify P (S := S) ins body).map fun m => (m.take headerLen, m.drop headerLen), ts)
  | .full =>
      match ts.verify P (S := S) ins body with
      | .error e => (.error e, ts)
      | .ok m =>
          let r := ts.decrypt P (S := S) (m.drop headerLen)
          (r.1.map fun data => (m.take headerLen, data), r.2)

/-- Append the response MAC of an accepted command. -/
def protect (ts : TagSession (KeyedSuite.Keys P S)) (rc : UInt8) (data : List UInt8) : Response :=
  ⟨data ++ (ts.mac P (S := S) rc ts.cmdCtr data).toList, 0x91, rc⟩

/-- Answer an accepted command. -/
def answer (ts : TagSession (KeyedSuite.Keys P S)) (framing : Framing) (rc : UInt8)
    (data : List UInt8) : Response × TagSession (KeyedSuite.Keys P S) :=
  let ts := ts.accept
  match framing with
  | .plain => (⟨data, 0x91, rc⟩, ts)
  | .silent => (⟨[], 0x91, rc⟩, ts)
  | .mac => (ts.protect P (S := S) rc data, ts)
  | .full =>
      let ct := (SessionSuite.encrypt P (ts.suite P : S) .response ts.ti
        (UInt16.ofNat ts.cmdCtr) (m2Pad data)).elim [] Prod.fst
      (ts.protect P (S := S) rc ct, ts.counted (ct.length / 16))

end Suite

end TagSession

namespace TagApp

variable {A : Type} (app : TagApp A)

/-- The communication mode of a command. -/
def commandMode (a : A) (keyNo : KeyNumber) (ins : UInt8) (body : List UInt8) : CommMode :=
  match ins.toNat with
  | 0xC4 | 0x5C | 0x5F => .full
  | 0xAD => if app.fileMode a keyNo (body.headD 0) .read = .plain then .plain else .mac
  | 0x8D => app.fileMode a keyNo (body.headD 0) .write
  | _ => .mac

/-- How the answer to a command is protected. -/
def framing (a : A) (keyNo : KeyNumber) : AppCommand → Framing
  | .getCardUid | .getTtStatus | .readSig => .full
  | .getFileCounters fileNo => if app.countersEncrypted a fileNo then .full else .mac
  | .changeKey k _ => if k = keyNo.asByte then .silent else .mac
  | .setConfiguration option _ => if app.configurationSilent a option then .silent else .mac
  | .readData fileNo _ _ =>
      match app.fileMode a keyNo fileNo .read with
      | .plain => .plain
      | .mac => .mac
      | .full => .full
  | .writeData fileNo _ _ _ =>
      if app.fileMode a keyNo fileNo .write = .plain then .plain else .mac
  | .getVersion | .getKeyVersion _ | .getFileSettings _ | .changeFileSettings .. => .mac

/-- The second status byte of an accepted command. -/
def successCode (a : A) : AppCommand → UInt8
  | .readSig => if app.signatureStatus a then 0x90 else 0x00
  | _ => 0x00

end TagApp

/-- A command that changes the key of its session, which ends the session. -/
def AppCommand.EndsSession (keyNo : KeyNumber) : AppCommand → Prop
  | .changeKey k _ => k = keyNo.asByte
  | _ => False

instance (keyNo : KeyNumber) : DecidablePred (AppCommand.EndsSession keyNo) := fun c => by
  cases c <;> unfold AppCommand.EndsSession <;> infer_instance

/-! ### One APDU in a session -/

namespace TagSession

variable (P : Primitives) {S A : Type} [TagSuite P S] (app : TagApp A)

/-- What one APDU leads to: the response, the session unless it ended, and the application. -/
abbrev Reply (K A : Type) := Response × Option (TagSession K) × A

/-- Refuse a command. -/
def refuse {K : Type} (e : TagError) (ts : TagSession K) (a : A) : Reply K A :=
  (e.response, some ts.idle, a)

/-- Let the application react to a command. -/
def react (c : AppCommand) (ts : TagSession (KeyedSuite.Keys P S)) (a : A) :
    Reply (KeyedSuite.Keys P S) A :=
  match app.exec ts.keyNo c a with
  | (.error e, a') => refuse e ts a'
  | (.ok data, a') =>
      if c = .getVersion then
        (⟨data.take 7, 0x91, 0xAF⟩, some (ts.awaiting (.versionPart2 data)), a')
      else
        let r := ts.answer P (S := S) (app.framing a ts.keyNo c) (app.successCode a c) data
        (r.1, if c.EndsSession ts.keyNo then none else some r.2, a')

/-- A command of the session. -/
def command (ins : UInt8) (body : List UInt8) (ts : TagSession (KeyedSuite.Keys P S)) (a : A) :
    Reply (KeyedSuite.Keys P S) A :=
  match AppCommand.headerLength ins with
  | none => refuse .illegalCommandCode ts a
  | some headerLen =>
      match ts.receive P (S := S) ins headerLen (app.commandMode a ts.keyNo ins body) body with
      | (.error e, ts) => refuse e ts a
      | (.ok (header, data), ts) =>
          match AppCommand.parse ins header data with
          | none => refuse .lengthError ts a
          | some c => react P (S := S) app c ts a

/-- The start of a re-authentication. -/
def reauthenticate (body : List UInt8) (ts : TagSession (KeyedSuite.Keys P S)) (a : A) :
    Reply (KeyedSuite.Keys P S) A :=
  match body with
  | [k] =>
      match KeyNumber.ofNibble? k with
      | none => refuse .noSuchKey ts a
      | some keyNo =>
          let (rndB, a') := app.rndB a
          (⟨TagSuite.challenge P S (app.key a keyNo) rndB, 0x91, 0xAF⟩,
            some (ts.awaiting (.proof keyNo (app.key a keyNo) rndB)), a')
  | _ => refuse .lengthError ts a

/-- The next frame of a chain. -/
def continuation (body : List UInt8) (ts : TagSession (KeyedSuite.Keys P S)) (a : A) :
    Reply (KeyedSuite.Keys P S) A :=
  match ts.pending with
  | .none => refuse .commandAborted ts a
  | .versionPart2 version =>
      (⟨slice version 7 7, 0x91, 0xAF⟩, some (ts.awaiting (.versionPart3 version)), a)
  | .versionPart3 version =>
      let r := ts.answer P (S := S) .mac 0x00 version
      ({ r.1 with data := r.1.data.drop 14 }, some r.2, a)
  | .proof keyNo key rndB =>
      match TagSuite.respond P S key rndB body with
      | none => refuse .authenticationError ts a
      | some (rndA, proof) =>
          (⟨proof, 0x91, 0x00⟩,
            some {
              keyNo, ti := ts.ti, cmdCtr := ts.cmdCtr, encCtr := 0, pending := .none
              keys := TagSuite.sessionKeys (P := P) (S := S) key rndA rndB },
            a)

/-- The reaction of a session to a native APDU. -/
def handle (ins : UInt8) (body : List UInt8) (ts : TagSession (KeyedSuite.Keys P S)) (a : A) :
    Reply (KeyedSuite.Keys P S) A :=
  if ins = 0x77 then reauthenticate P (S := S) app body ts a
  else if ins = 0xAF then continuation P (S := S) body ts a
  else command P (S := S) app ins body ts.idle a

variable {P} {app}

/-- A session reacts to the code of a command as to a command. -/
theorem handle_of_headerLength {ins : UInt8} {n : ℕ} (hhl : AppCommand.headerLength ins = some n)
    (body : List UInt8) (ts : TagSession (KeyedSuite.Keys P S)) (a : A) :
    handle P (S := S) app ins body ts a = command P (S := S) app ins body ts.idle a := by
  rw [handle, if_neg (AppCommand.ne_of_headerLength hhl rfl),
    if_neg (AppCommand.ne_of_headerLength hhl rfl)]

end TagSession

end Ntag424
