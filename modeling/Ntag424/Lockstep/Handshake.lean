import Mathlib.Tactic.Common
import Ntag424.Lockstep.Channel

/-!
# Handshakes With an Honest Tag

When both sides hold the same key, every handshake succeeds and leaves both sides with the
session keys of their two randoms.

## Main results

* `AesSuite.tagKeys_eq`, `LrpSuite.tagKeys_eq`: both sides derive the same session keys.
* `AesSuite.checkProof_part2Body`, `LrpSuite.checkProof_part2Body`: the tag accepts the proof
  of the host.
* `AesSuite.wp_authenticateEv2First`, `LrpSuite.wp_authenticateEv2First`: the first
  authentication.
* `Session.wp_authenticateAes`, `Session.wp_authenticateLrp`: opening a session.
* `Session.wp_authenticate`, from `HonestSuite.wp_nonFirst` of both suites: the
  re-authentication.
-/

namespace Ntag424

open Numerals

variable {P : Primitives} {E σ A : Type}

/-! ### Session keys -/

/-- The host puts the bytes of the randoms where the tag does. -/
theorem tagContext_eq (rndA rndB : Bytes 16) : tagContext rndA rndB = sessionContext rndA rndB :=
  rfl

/-- Both sides derive the same AES session keys. -/
theorem AesSuite.tagKeys_eq (key : Key) (rndA rndB : Bytes 16) :
    AesSuite.tagKeys P key rndA rndB = AesSuite.derive P key rndA rndB := by
  simp only [tagKeys, derive, sessionVectorAes, tagContext_eq, List.cons_append, List.nil_append]

/-- Both sides derive the same LRP session keys. -/
theorem LrpSuite.tagKeys_eq (key : Key) (rndA rndB : Bytes 16) :
    LrpSuite.tagKeys P key rndA rndB = LrpSuite.deriveKeys P key rndA rndB := by
  simp only [tagKeys, deriveKeys, sessionVectorLrp, tagContext_eq]

/-! ### The tag accepts the host -/

/-- The tag accepts the proof of an AES host. -/
theorem AesSuite.checkProof_part2Body (hP : P.Lawful) (key : Key) (rndA rndB : Bytes 16) :
    AesSuite.checkProof P key rndB (AesSuite.part2Body P key rndA rndB).toList = some rndA := by
  have hdrop : (rndA.append (rotateLeft rndB)).toList.drop 16 = (rotateLeft rndB).toList := by
    rw [Bytes.toList_append, List.drop_left' rndA.length_toList]
  have htake : (rndA.append (rotateLeft rndB)).toList.take 16 = rndA.toList := by
    rw [Bytes.toList_append, List.take_left' rndA.length_toList]
  have hdec := aesCbcDecryptN_aesCbcEncryptN hP key zeroIv
    (show Bytes 32 from rndA.append (rotateLeft rndB)) (by decide) (by decide)
  simp only [checkProof, Bytes.ofList?_toList, part2Body, hdec, hdrop, htake, if_true,
    Bytes.fill_toList]

/-- The tag accepts the proof of an LRP host. -/
theorem LrpSuite.checkProof_part2Body (key : Key) (rndA rndB : Bytes 16) :
    LrpSuite.checkProof P key rndB ((derive P key rndA rndB).part2Body P rndA rndB) =
      some rndA := by
  have htake : ((derive P key rndA rndB).part2Body P rndA rndB).take 16 = rndA.toList :=
    List.take_left' rndA.length_toList
  simp only [checkProof, htake, Bytes.fill_toList, tagKeys_eq]
  exact if_pos rfl

/-! ### The first authentication -/

section First

variable {app : TagApp A} {card : Card A} {I : Card A → Prop} {t : σ}

/-- A first authentication starts on a card whose application is selected. -/
theorem Card.handle_first {body : List UInt8} (hsel : card.channel ≠ .deselected)
    (hbody : body.length < 256) :
    card.handle P app (nativeApdu 0x71 0x00 0x00 body) = Card.firstPart1 P app body card.app := by
  rw [Card.handle_nativeApdu P app hbody, Card.native, if_pos rfl]
  split
  · rename_i h
    exact absurd h hsel
  · rfl

/-- The first authentication goes on with the proof of the host. -/
theorem Card.handle_proof {lrp : Bool} {keyNo : KeyNumber} {key : Key} {rndB : Bytes 16}
    {pcdCap2 : Bytes 6} {body : List UInt8} {a : A} (hbody : body.length < 256) :
    (⟨.challenged lrp keyNo key rndB pcdCap2, a⟩ : Card A).handle P app
        (nativeApdu 0xAF 0x00 0x00 body) =
      if lrp then Card.firstLrp P app keyNo key rndB pcdCap2 body a
      else Card.firstAes P app keyNo key rndB pcdCap2 body a := by
  rw [Card.handle_nativeApdu P app hbody, Card.native, if_neg (by decide)]
  simp only [Card.firstPart2, ne_eq, not_true_eq_false, if_false]

/-- **AES first authentication**: both sides hold the same session keys and transaction
identifier, and start to count at zero. -/
theorem AesSuite.wp_authenticateEv2First (hP : P.Lawful) (hsel : card.channel ≠ .deselected)
    (hmode : app.lrpMode card.app = false) (keyNo : KeyNumber) (rndA : Bytes 16) (hI : I card)
    (hI' : ∀ ch, I ⟨ch, (app.rndB card.app).2⟩) :
    (AesSuite.authenticateEv2First P keyNo (app.key card.app keyNo) rndA :
        Cmd E σ (AuthResult AesSuite)).wp (Prog.Answers (Card.transmit P app)) I
      (fun r t' w' => t' = t ∧ ∃ keys ti a',
        keys = AesSuite.derive P (app.key card.app keyNo) rndA (app.rndB card.app).1 ∧
        app.newTi (app.rndB card.app).2 = (ti, a') ∧
        r = ⟨keys, ti, app.pdCap2 (app.rndB card.app).2, Bytes.zeros 6⟩ ∧
        w' = ⟨.aes ⟨keyNo, keys, ti, 0, 0, .none⟩, a'⟩)
      (fun _ _ _ => False) t card := by
  rcases hrnd : app.rndB card.app with ⟨rndB, a₁⟩
  rcases hti : app.newTi a₁ with ⟨ti, a₂⟩
  rw [hrnd] at hI'
  generalize hkey : app.key card.app keyNo = key
  have hpart1 : card.handle P app
      (nativeApdu 0x71 0x00 0x00 [keyNo.asByte, 0x03, 0x00, 0x00, 0x00]) =
      (⟨(aesCbcEncryptN P key zeroIv rndB).toList, 0x91, 0xAF⟩,
        ⟨.challenged false keyNo key rndB (Bytes.zeros 6), a₁⟩) := by
    have hcaps : Bytes.fill 6 [0x00, 0x00, 0x00] = Bytes.zeros 6 := rfl
    rw [Card.handle_first hsel (by simp)]
    simp only [Card.firstPart1, KeyNumber.ofNibble?_asByte, hrnd, hmode, hcaps, hkey]
    rfl
  let plain : Bytes 32 :=
    ((ti.append (rotateLeft rndA)).append (app.pdCap2 a₁)).append (Bytes.zeros 6)
  have hpart2 : (⟨.challenged false keyNo key rndB (Bytes.zeros 6), a₁⟩ : Card A).handle P app
      (nativeApdu 0xAF 0x00 0x00 (AesSuite.part2Body P key rndA rndB).toList) =
      (⟨(aesCbcEncryptN P key zeroIv plain).toList, 0x91, 0x00⟩,
        ⟨.aes ⟨keyNo, AesSuite.derive P key rndA rndB, ti, 0, 0, .none⟩, a₂⟩) := by
    rw [Card.handle_proof (by rw [Bytes.length_toList]; decide), Card.firstAes,
      AesSuite.checkProof_part2Body hP]
    simp only [hti, AesSuite.tagKeys_eq]
    rfl
  have hplain : plain.toList = ti.toList ++ ((rotateLeft rndA).toList ++
      ((app.pdCap2 a₁).toList ++ (Bytes.zeros 6).toList)) := by
    simp only [plain, Bytes.toList_append, List.append_assoc]
  clear_value plain
  have hdec₁ : aesCbcDecryptN P key zeroIv (aesCbcEncryptN P key zeroIv rndB) = rndB :=
    aesCbcDecryptN_aesCbcEncryptN hP key zeroIv rndB (by decide) (by decide)
  have hdec₂ : aesCbcDecryptN P key zeroIv (aesCbcEncryptN P key zeroIv plain) = plain :=
    aesCbcDecryptN_aesCbcEncryptN hP key zeroIv plain (by decide) (by decide)
  simp only [AesSuite.authenticateEv2First, Script.wp_bind]
  refine wp_transmitExpecting_card hI hpart1 (fun _ => ?_) fun hno => absurd rfl hno
  refine wp_expectBytes (Bytes.length_toList _) ?_
  rw [Bytes.fill_toList, hdec₁]
  refine wp_transmitExpecting_card (hI' _) hpart2 (fun _ => ?_) fun hno => absurd rfl hno
  refine wp_expectBytes (Bytes.length_toList _) ?_
  simp only [Bytes.fill_toList, AesSuite.finishAuth, hdec₂, Script.wp_bind,
    Script.wp_require, Script.wp_pure]
  have hti₄ : Bytes.fill 4 (slice plain.toList 0 4) = ti :=
    Bytes.fill_slice (hplain.trans (List.nil_append _).symm) rfl
  have hrot : Bytes.fill 16 (slice plain.toList 4 16) = rotateLeft rndA :=
    Bytes.fill_slice hplain ti.length_toList
  have hpd : Bytes.fill 6 (slice plain.toList 20 6) = app.pdCap2 a₁ :=
    Bytes.fill_slice (hplain.trans (List.append_assoc ..).symm) (by simp)
  have hpcd : Bytes.fill 6 (slice plain.toList 26 6) = Bytes.zeros 6 := by
    have htail : plain.toList = (ti.toList ++ (rotateLeft rndA).toList ++ (app.pdCap2 a₁).toList) ++
        ((Bytes.zeros 6).toList ++ []) := by
      rw [hplain, List.append_nil, List.append_assoc, List.append_assoc]
    exact Bytes.fill_slice htail (by simp)
  rw [hti₄, hrot, hpd, hpcd, rotateRight_rotateLeft]
  exact ⟨fun _ => ⟨trivial, _, ti, a₂, rfl, rfl, rfl, rfl⟩, fun hno => absurd rfl hno⟩

/-- The random of the tag in its answer to part 1. -/
theorem LrpSuite.wp_expectRndB {W : Type} {env : (r : List UInt8) → W → Transmit E r → W → Prop}
    {I : W → Prop} {Q : Bytes 16 → σ → W → Prop} {R : Fault (SessionError E) → σ → W → Prop} {w : W}
    {rndB : Bytes 16} (hQ : Q rndB t w) :
    (LrpSuite.expectRndB (LrpSuite.authModeLrp :: rndB.toList)).wp env I Q R t w := by
  have hlen : (LrpSuite.authModeLrp :: rndB.toList).length = 17 := by
    rw [List.length_cons, rndB.length_toList]
  have hrnd : Bytes.fill 16 ((LrpSuite.authModeLrp :: rndB.toList).drop 1) = rndB :=
    Bytes.fill_toList rndB
  simp only [LrpSuite.expectRndB, Script.wp_bind, Script.wp_require, Script.wp_pure]
  refine ⟨fun _ => ⟨fun _ => ?_, fun hno => absurd rfl hno⟩, fun hno => absurd hlen hno⟩
  rw [hrnd]
  exact hQ

/-- **LRP first authentication**: both sides hold the same session keys and transaction
identifier, start to count commands at zero, and have counted one block. -/
theorem LrpSuite.wp_authenticateEv2First (hP : P.Lawful) (hsel : card.channel ≠ .deselected)
    (hmode : app.lrpMode card.app = true) (keyNo : KeyNumber) (rndA : Bytes 16) (hI : I card)
    (hI' : ∀ ch, I ⟨ch, (app.rndB card.app).2⟩) :
    (LrpSuite.authenticateEv2First P keyNo (app.key card.app keyNo) rndA :
        Cmd E σ (AuthResult LrpSuite)).wp (Prog.Answers (Card.transmit P app)) I
      (fun r t' w' => t' = t ∧ ∃ keys ti a',
        keys = LrpSuite.deriveKeys P (app.key card.app keyNo) rndA (app.rndB card.app).1 ∧
        app.newTi (app.rndB card.app).2 = (ti, a') ∧
        r = ⟨⟨keys, 1⟩, ti, app.pdCap2 (app.rndB card.app).2, Bytes.fill 6 LrpSuite.pcdCap2⟩ ∧
        w' = ⟨.lrp ⟨keyNo, keys, ti, 0, 1, .none⟩, a'⟩)
      (fun _ _ _ => False) t card := by
  rcases hrnd : app.rndB card.app with ⟨rndB, a₁⟩
  rcases hti : app.newTi a₁ with ⟨ti, a₂⟩
  rw [hrnd] at hI'
  generalize hkey : app.key card.app keyNo = key
  have hpart1 : card.handle P app
      (nativeApdu 0x71 0x00 0x00 (keyNo.asByte :: 0x06 :: LrpSuite.pcdCap2)) =
      (⟨LrpSuite.authModeLrp :: rndB.toList, 0x91, 0xAF⟩,
        ⟨.challenged true keyNo key rndB (Bytes.fill 6 LrpSuite.pcdCap2), a₁⟩) := by
    rw [Card.handle_first hsel (by simp [LrpSuite.pcdCap2])]
    simp only [Card.firstPart1, KeyNumber.ofNibble?_asByte, hrnd, hmode, hkey]
    rfl
  let plain : Bytes 16 := (ti.append (app.pdCap2 a₁)).append (Bytes.fill 6 LrpSuite.pcdCap2)
  have hplain : plain.toList = ti.toList ++ ((app.pdCap2 a₁).toList ++ LrpSuite.pcdCap2) := by
    simp only [plain, Bytes.toList_append, List.append_assoc]
    rfl
  obtain ⟨ct, henc, hct, hdec⟩ := KeyedSuite.decrypt_encrypt (S := LrpSuite) hP
    (LrpSuite.deriveKeys P key rndA rndB) 0 .response (Bytes.zeros 4) 0 plain.toList
    (Bytes.toList_ne_nil plain) (by rw [plain.length_toList])
  have hpart2 : (⟨.challenged true keyNo key rndB (Bytes.fill 6 LrpSuite.pcdCap2), a₁⟩ :
        Card A).handle P app
      (nativeApdu 0xAF 0x00 0x00 ((LrpSuite.derive P key rndA rndB).part2Body P rndA rndB)) =
      (⟨ct ++ ((LrpSuite.derive P key rndA rndB).macFull P
          (rndB.toList ++ rndA.toList ++ ct)).toList, 0x91, 0x00⟩,
        ⟨.lrp ⟨keyNo, LrpSuite.deriveKeys P key rndA rndB, ti, 0, 1, .none⟩, a₂⟩) := by
    rw [Card.handle_proof (by simp [LrpSuite.part2Body]), if_pos rfl, Card.firstLrp,
      LrpSuite.checkProof_part2Body]
    have henc' : SessionSuite.encrypt P
        (⟨LrpSuite.deriveKeys P key rndA rndB, 0⟩ : LrpSuite) .response ti 0
        ((ti.append (app.pdCap2 a₁)).append (Bytes.fill 6 LrpSuite.pcdCap2)).toList = _ := henc
    simp only [hti, LrpSuite.tagKeys_eq, henc', Option.elim_some]
    rfl
  have hlen : ct.length = 16 := by rw [hct, plain.length_toList]
  generalize hmac : (LrpSuite.derive P key rndA rndB).macFull P (rndB.toList ++ rndA.toList ++ ct) =
    mac at hpart2
  have hdata : (Bytes.fill 32 (ct ++ mac.toList)).toList = ct ++ mac.toList :=
    Bytes.toList_fill_of_length (by rw [List.length_append, hlen, mac.length_toList])
  have hpicc : (Bytes.fill 16 ((ct ++ mac.toList).take 16)).toList = ct := by
    rw [List.take_left' hlen, Bytes.toList_fill_of_length hlen]
  have hproof : Bytes.fill 16 ((ct ++ mac.toList).drop 16) = mac := by
    rw [List.drop_left' hlen, Bytes.fill_toList]
  simp only [LrpSuite.authenticateEv2First, Script.wp_bind]
  refine wp_transmitExpecting_card hI hpart1 (fun _ => ?_) fun hno => absurd rfl hno
  refine LrpSuite.wp_expectRndB ?_
  refine wp_transmitExpecting_card (hI' _) hpart2 (fun _ => ?_) fun hno => absurd rfl hno
  refine wp_expectBytes (by rw [List.length_append, hlen, mac.length_toList]) ?_
  have hdec' : SessionSuite.decrypt P (LrpSuite.derive P key rndA rndB) .response (Bytes.zeros 4) 0
      ct = some (plain.toList, ⟨LrpSuite.deriveKeys P key rndA rndB, 1⟩) := by
    rw [plain.length_toList] at hdec
    exact hdec
  simp only [LrpSuite.verifyAndExtractAuthResult, hdata, hpicc, hproof, hmac, hdec',
    Option.getD_some, Script.wp_bind, Script.wp_require, Script.wp_pure]
  have hti₄ : Bytes.fill 4 (slice plain.toList 0 4) = ti :=
    Bytes.fill_slice (hplain.trans (List.nil_append _).symm) rfl
  have hpd : Bytes.fill 6 (slice plain.toList 4 6) = app.pdCap2 a₁ :=
    Bytes.fill_slice hplain ti.length_toList
  have hpcd : slice plain.toList 10 6 = LrpSuite.pcdCap2 := by
    rw [hplain, ← List.append_assoc, slice, List.drop_left' (by simp)]
    rfl
  rw [hti₄, hpd, hpcd]
  exact ⟨fun _ => ⟨fun _ => ⟨trivial, _, ti, a₂, rfl, rfl, rfl, rfl⟩, fun hno => absurd rfl hno⟩,
    fun hno => absurd trivial hno⟩

/-- A tag in AES mode answers the request for an LRP authentication like any other. The host
gives up: the challenge is one byte shorter than that of LRP mode. -/
theorem LrpSuite.wp_authenticateEv2First_aesMode (hsel : card.channel ≠ .deselected)
    (hmode : app.lrpMode card.app = false) (keyNo : KeyNumber) (key : Key) (rndA : Bytes 16)
    (hI : I card) :
    (LrpSuite.authenticateEv2First P keyNo key rndA : Cmd E σ (AuthResult LrpSuite)).wp
      (Prog.Answers (Card.transmit P app)) I (fun _ _ _ => False)
      (fun f _ w' => f = .error (.unexpectedLength 16 17) ∧ w'.app = (app.rndB card.app).2)
      t card := by
  rcases hrnd : app.rndB card.app with ⟨rndB, a₁⟩
  generalize hchallenge : (aesCbcEncryptN P (app.key card.app keyNo) zeroIv rndB).toList = challenge
  have hlen : challenge.length = 16 := by
    rw [← hchallenge, Bytes.length_toList]
  have hpart1 : card.handle P app
      (nativeApdu 0x71 0x00 0x00 (keyNo.asByte :: 0x06 :: LrpSuite.pcdCap2)) =
      (⟨challenge, 0x91, 0xAF⟩, ⟨.challenged false keyNo (app.key card.app keyNo) rndB
        (Bytes.fill 6 LrpSuite.pcdCap2), a₁⟩) := by
    rw [Card.handle_first hsel (by simp [LrpSuite.pcdCap2]), ← hchallenge]
    simp only [Card.firstPart1, KeyNumber.ofNibble?_asByte, hrnd, hmode]
    rfl
  simp only [LrpSuite.authenticateEv2First, LrpSuite.expectRndB, Script.wp_bind, Script.wp_require]
  refine wp_transmitExpecting_card hI hpart1 (fun _ => ?_) fun hno => absurd rfl hno
  rw [hlen]
  exact ⟨fun hlong => absurd hlong (by decide), fun _ => ⟨rfl, rfl⟩⟩

/-! ### Opening a session -/

/-- Selecting the application, unless it is selected. -/
theorem Session.wp_selectNdefApplication {session : Session Unauthenticated}
    {Q : Unit → Session Unauthenticated → Card A → Prop}
    {R : Fault (SessionError E) → Session Unauthenticated → Card A → Prop} (hI : I card)
    (hsel : session.ndefSelected = true → card.channel ≠ .deselected)
    (hQ : ∀ session' card', card'.channel ≠ .deselected → card'.app = card.app →
      Q () session' card') :
    Session.selectNdefApplication.wp (Prog.Answers (Card.transmit P app)) I Q R session card := by
  have hcard : card.handle P app (isoSelectDfByNameApdu ndefApplicationDfName) =
      (⟨[], 0x90, 0x00⟩, ⟨.selected, card.app⟩) := if_pos rfl
  simp only [Session.selectNdefApplication, isoSelectNdefApplication, Script.wp_bind,
    Script.wp_get]
  split
  · rename_i hndef
    exact Script.wp_pure.mpr (hQ _ _ (hsel hndef) rfl)
  · simp only [Script.wp_bind, Script.wp_require, Script.wp_set]
    refine wp_transmit_card hI hcard ⟨fun _ => ?_, fun hno => absurd rfl hno⟩
    exact hQ _ _ (by rintro ⟨⟩) rfl

/-- **Opening an AES session** with the key of a tag in AES mode. -/
theorem Session.wp_authenticateAes (hP : P.Lawful) {session : Session Unauthenticated}
    (hsel : session.ndefSelected = true → card.channel ≠ .deselected)
    (hmode : app.lrpMode card.app = false) (keyNo : KeyNumber) (rndA : Bytes 16)
    (hI : ∀ ch, I ⟨ch, card.app⟩) (hI' : ∀ ch, I ⟨ch, (app.rndB card.app).2⟩) :
    (session.authenticateAes P keyNo (app.key card.app keyNo) rndA).wp
      (Prog.Answers (Card.transmit P app)) I
      (fun session' _ w' => ∃ keys ti a',
        keys = AesSuite.derive P (app.key card.app keyNo) rndA (app.rndB card.app).1 ∧
        app.newTi (app.rndB card.app).2 = (ti, a') ∧
        session'.state = .withAuthResult ⟨keys, ti, app.pdCap2 (app.rndB card.app).2, Bytes.zeros 6⟩
          keyNo ∧
        w' = ⟨.aes ⟨keyNo, keys, ti, 0, 0, .none⟩, a'⟩)
      (fun (_ : Fault (SessionError E)) _ _ => False) () card := by
  simp only [Session.authenticateAes, Script.wp_bind, Script.wp_on, Script.wp_pure]
  refine Session.wp_selectNdefApplication (hI card.channel) hsel fun session' card' hsel' happ => ?_
  obtain ⟨ch, a⟩ := card'
  subst happ
  refine Script.wp_mono (AesSuite.wp_authenticateEv2First hP hsel' hmode keyNo rndA (hI ch) hI') ?_
    fun _ _ _ he => he
  rintro r _ w' ⟨-, keys, ti, a', hkeys, hti, rfl, hw⟩
  exact ⟨keys, ti, a', hkeys, hti, rfl, hw⟩

/-- **Opening an LRP session** with the key of a tag in LRP mode. -/
theorem Session.wp_authenticateLrp (hP : P.Lawful) {session : Session Unauthenticated}
    (hsel : session.ndefSelected = true → card.channel ≠ .deselected)
    (hmode : app.lrpMode card.app = true) (keyNo : KeyNumber) (rndA : Bytes 16)
    (hI : ∀ ch, I ⟨ch, card.app⟩) (hI' : ∀ ch, I ⟨ch, (app.rndB card.app).2⟩) :
    (session.authenticateLrp P keyNo (app.key card.app keyNo) rndA).wp
      (Prog.Answers (Card.transmit P app)) I
      (fun session' _ w' => ∃ keys ti a',
        keys = LrpSuite.deriveKeys P (app.key card.app keyNo) rndA (app.rndB card.app).1 ∧
        app.newTi (app.rndB card.app).2 = (ti, a') ∧
        session'.state = .withAuthResult ⟨⟨keys, 1⟩, ti, app.pdCap2 (app.rndB card.app).2,
          Bytes.fill 6 LrpSuite.pcdCap2⟩ keyNo ∧
        w' = ⟨.lrp ⟨keyNo, keys, ti, 0, 1, .none⟩, a'⟩)
      (fun (_ : Fault (SessionError E)) _ _ => False) () card := by
  simp only [Session.authenticateLrp, Script.wp_bind, Script.wp_on, Script.wp_pure]
  refine Session.wp_selectNdefApplication (hI card.channel) hsel fun session' card' hsel' happ => ?_
  obtain ⟨ch, a⟩ := card'
  subst happ
  refine Script.wp_mono (LrpSuite.wp_authenticateEv2First hP hsel' hmode keyNo rndA (hI ch) hI') ?_
    fun _ _ _ he => he
  rintro r _ w' ⟨-, keys, ti, a', hkeys, hti, rfl, hw⟩
  exact ⟨keys, ti, a', hkeys, hti, rfl, hw⟩

/-- **Opening an LRP session** with a tag in AES mode fails, whatever the key. -/
theorem Session.wp_authenticateLrp_aesMode {session : Session Unauthenticated}
    (hsel : session.ndefSelected = true → card.channel ≠ .deselected)
    (hmode : app.lrpMode card.app = false) (keyNo : KeyNumber) (key : Key) (rndA : Bytes 16)
    (hI : ∀ ch, I ⟨ch, card.app⟩) :
    (session.authenticateLrp P keyNo key rndA).wp (Prog.Answers (Card.transmit P app)) I
      (fun _ _ _ => False)
      (fun (f : Fault (SessionError E)) _ w' =>
        f = .error (.unexpectedLength 16 17) ∧ w'.app = (app.rndB card.app).2) () card := by
  simp only [Session.authenticateLrp, Script.wp_bind, Script.wp_on, Script.wp_pure]
  refine Session.wp_selectNdefApplication (hI card.channel) hsel fun session' card' hsel' happ => ?_
  obtain ⟨ch, a⟩ := card'
  subst happ
  exact Script.wp_mono (LrpSuite.wp_authenticateEv2First_aesMode hsel' hmode keyNo key rndA (hI ch))
    (fun _ _ _ hno => hno.elim) fun _ _ _ he => he

end First

/-! ### The re-authentication -/

/-- A suite whose re-authentication succeeds with an honest tag: on the challenge of a random
the host makes a proof the tag accepts, and it accepts the proof of the tag. -/
class HonestSuite (P : Primitives) (S : Type) extends LinkedSuite P S where
  wp_nonFirst : ∀ {E σ A : Type} (app : TagApp A) {I : Card A → Prop} {t : σ} (keyNo : KeyNumber)
    (key : Key) (rndA rndB : Bytes 16) {card card₁ card₂ : Card A}, P.Lawful → I card → I card₁ →
    card.handle P app (nativeApdu 0x77 0x00 0x00 [keyNo.asByte]) =
      (⟨challenge key rndB, 0x91, 0xAF⟩, card₁) →
    (∀ body proof, body.length < 256 → respond key rndB body = some (rndA, proof) →
      card₁.handle P app (nativeApdu 0xAF 0x00 0x00 body) = (⟨proof, 0x91, 0x00⟩, card₂)) →
    (authenticateEv2NonFirst keyNo key rndA : Cmd E σ S).wp (Prog.Answers (Card.transmit P app)) I
      (fun suite t' w' => suite = ofKeys (deriveKeys key rndA rndB) 0 ∧ t' = t ∧ w' = card₂)
      (fun _ _ _ => False) t card
  /-- Both sides derive the same session keys. -/
  sessionKeys_eq : ∀ key rndA rndB, sessionKeys key rndA rndB = deriveKeys key rndA rndB

instance (P : Primitives) : HonestSuite P AesSuite where
  sessionKeys_eq := AesSuite.tagKeys_eq
  wp_nonFirst app I t keyNo key rndA rndB card card₁ card₂ hP hI hI₁ hpart1 hpart2 := by
    have hdec₁ : aesCbcDecryptN P key zeroIv (aesCbcEncryptN P key zeroIv rndB) = rndB :=
      aesCbcDecryptN_aesCbcEncryptN hP key zeroIv rndB (by decide) (by decide)
    have hdec₂ : aesCbcDecryptN P key zeroIv (aesCbcEncryptN P key zeroIv (rotateLeft rndA)) =
        rotateLeft rndA := aesCbcDecryptN_aesCbcEncryptN hP key zeroIv _ (by decide) (by decide)
    have hpart2 := hpart2 (AesSuite.part2Body P key rndA rndB).toList
      (aesCbcEncryptN P key zeroIv (rotateLeft rndA)).toList
      (by rw [Bytes.length_toList]; decide)
      (by simp only [TagSuite.respond, AesSuite.checkProof_part2Body hP, Option.map_some])
    simp only [HandshakeSuite.authenticateEv2NonFirst, AesSuite.authenticateEv2NonFirst,
      Script.wp_bind]
    refine wp_transmitExpecting_card hI hpart1 (fun _ => ?_) fun hno => absurd rfl hno
    refine wp_expectBytes (Bytes.length_toList _) ?_
    simp only [TagSuite.challenge, Bytes.fill_toList, hdec₁]
    refine wp_transmitExpecting_card hI₁ hpart2 (fun _ => ?_) fun hno => absurd rfl hno
    refine wp_expectBytes (Bytes.length_toList _) ?_
    simp only [Bytes.fill_toList, AesSuite.finishAuthNonFirst, hdec₂, rotateRight_rotateLeft,
      Script.wp_bind, Script.wp_require, Script.wp_pure]
    exact ⟨fun _ => ⟨rfl, trivial, trivial⟩, fun hno => absurd trivial hno⟩

instance (P : Primitives) : HonestSuite P LrpSuite where
  sessionKeys_eq := LrpSuite.tagKeys_eq
  wp_nonFirst app I t keyNo key rndA rndB card card₁ card₂ hP hI hI₁ hpart1 hpart2 := by
    have hpart2 := hpart2 ((LrpSuite.derive P key rndA rndB).part2Body P rndA rndB)
      ((LrpSuite.derive P key rndA rndB).macFull P (rndB.toList ++ rndA.toList)).toList
      (by simp [LrpSuite.part2Body])
      (by
        simp only [TagSuite.respond, LrpSuite.checkProof_part2Body, Option.map_some,
          LrpSuite.tagKeys_eq]
        rfl)
    simp only [HandshakeSuite.authenticateEv2NonFirst, LrpSuite.authenticateEv2NonFirst,
      Script.wp_bind]
    refine wp_transmitExpecting_card hI hpart1 (fun _ => ?_) fun hno => absurd rfl hno
    refine LrpSuite.wp_expectRndB ?_
    refine wp_transmitExpecting_card hI₁ hpart2 (fun _ => ?_) fun hno => absurd rfl hno
    refine wp_expectBytes (Bytes.length_toList _) ?_
    simp only [Bytes.fill_toList, Script.wp_require, Script.wp_pure]
    exact ⟨fun _ => ⟨rfl, trivial, trivial⟩, fun hno => absurd trivial hno⟩

/-- **Re-authenticating** with a key of the tag: both sides hold the session keys of the new
randoms and keep the transaction identifier and the command counter. -/
theorem Session.wp_authenticate {S : Type} [HonestSuite P S] (app : TagApp A) (hP : P.Lawful)
    (session : Session (Authenticated S)) (ts : TagSession (KeyedSuite.Keys P S)) (a : A)
    (keyNo : KeyNumber) (rndA : Bytes 16) :
    (session.authenticate P keyNo (app.key a keyNo) rndA).wp
      (Prog.Answers (Card.transmit P app)) (fun _ => True)
      (fun session' _ w' =>
        session' = { session with
          state := .nonFirstWithAuthResult
            { session.state.authResult with
              suite := KeyedSuite.ofKeys (P := P)
                (KeyedSuite.deriveKeys (S := S) (app.key a keyNo) rndA (app.rndB a).1) 0 }
            session.state.cmdCounter keyNo } ∧
        w' = Card.inSession P (S := S)
          ⟨keyNo, KeyedSuite.deriveKeys (P := P) (S := S) (app.key a keyNo) rndA (app.rndB a).1,
            ts.ti, ts.cmdCtr, 0, .none⟩ (app.rndB a).2)
      (fun (_ : Fault (SessionError E)) _ _ => False) () (Card.inSession P (S := S) ts a) := by
  rcases hrnd : app.rndB a with ⟨rndB, a'⟩
  generalize hkey : app.key a keyNo = key
  have hpart1 : (Card.inSession P (S := S) ts a).handle P app
      (nativeApdu 0x77 0x00 0x00 [keyNo.asByte]) =
      (⟨TagSuite.challenge P S key rndB, 0x91, 0xAF⟩,
        Card.inSession P (S := S) (ts.awaiting (.proof keyNo key rndB)) a') := by
    rw [Card.handle_inSession (by decide) (by simp [maxApduBody])]
    simp only [TagSession.handle, if_true, TagSession.reauthenticate, KeyNumber.ofNibble?_asByte,
      hrnd, hkey]
    rfl
  have hpart2 : ∀ body proof, body.length < 256 →
      TagSuite.respond P S key rndB body = some (rndA, proof) →
      (Card.inSession P (S := S) (ts.awaiting (.proof keyNo key rndB)) a').handle P app
        (nativeApdu 0xAF 0x00 0x00 body) = (⟨proof, 0x91, 0x00⟩, Card.inSession P (S := S)
          ⟨keyNo, KeyedSuite.deriveKeys (P := P) (S := S) key rndA rndB, ts.ti, ts.cmdCtr, 0, .none⟩
          a') := by
    intro body proof hbody hrespond
    rw [Card.handle_inSession (by decide) (by rw [maxApduBody]; omega)]
    have hhandle : (ts.awaiting (.proof keyNo key rndB)).handle P (S := S) app 0xAF body a' =
        (⟨proof, 0x91, 0x00⟩, some
          ⟨keyNo, KeyedSuite.deriveKeys (P := P) (S := S) key rndA rndB,
            ts.ti, ts.cmdCtr, 0, .none⟩,
          a') := by
      have hcont : (ts.awaiting (.proof keyNo key rndB)).handle P (S := S) app 0xAF body a' =
          TagSession.continuation P (S := S) body (ts.awaiting (.proof keyNo key rndB)) a' := rfl
      rw [hcont]
      simp only [TagSession.continuation, TagSession.awaiting, hrespond,
        HonestSuite.sessionKeys_eq]
    rw [hhandle]
    rfl
  simp only [Session.authenticate, Script.wp_bind, Script.wp_pure]
  refine Script.wp_mono (HonestSuite.wp_nonFirst app keyNo key rndA rndB hP trivial trivial hpart1
    hpart2) ?_ fun _ _ _ he => he
  rintro suite _ w' ⟨rfl, -, rfl⟩
  exact ⟨rfl, rfl⟩

end Ntag424
