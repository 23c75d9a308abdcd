import Mathlib.Tactic.Common
import Ntag424.Lockstep.Handshake
import Ntag424.Session.Transcript
import Ntag424.Standard

/-!
# Mutual Authentication

Both directions of the handshakes. With a tag that holds the same key every handshake ends with
a session on both sides, with the same session keys and the same transaction identifier.
Whatever a tag answers, a host that accepts has received the proof over its own random.

## Main results

* `Session.run_authenticateAes`, `Session.run_authenticateLrp`, `Session.run_authenticate`: the
  handshakes with an honest tag.
* `AesSuite.wp_first_proved`, `LrpSuite.wp_first_proved`, `AesSuite.wp_nonFirst_proved`,
  `LrpSuite.wp_nonFirst_proved`: the proof in the last answer.
* `mutual_authentication`: all of them.
-/

namespace Ntag424

open Numerals

variable {P : Primitives} {E A S : Type}

/-! ### Handshakes with an honest tag -/

/-- Both sides hold a session with the keys of two randoms, the same transaction identifier and
the same counters. -/
def Established (P : Primitives) [LinkedSuite P S] (keyNo : KeyNumber) (key : Key)
    (rndA rndB : Bytes 16) (ti : Bytes 4) (cmdCtr encCtr : ℕ) (session : Session (Authenticated S))
    (card : Card A) : Prop :=
  session.state.suite = KeyedSuite.ofKeys (P := P) (KeyedSuite.deriveKeys key rndA rndB) encCtr ∧
    session.state.ti = ti ∧ session.state.cmdCounter = UInt16.ofNat cmdCtr ∧
    session.state.keyNumber = keyNo ∧
    ∃ a, card = Card.inSession P (S := S)
      ⟨keyNo, KeyedSuite.deriveKeys key rndA rndB, ti, cmdCtr, encCtr, .none⟩ a

section Honest

variable {app : TagApp A} {card : Card A} {session : Session Unauthenticated}

/-- **AES first authentication** with an honest tag in AES mode. -/
theorem Session.run_authenticateAes (hP : P.Lawful)
    (hsel : session.ndefSelected = true → card.channel ≠ .deselected)
    (hmode : app.lrpMode card.app = false) (keyNo : KeyNumber) (rndA : Bytes 16) :
    ∃ session' card', Prog.run (Card.transmit P app)
        (session.authenticateAes (E := E) P keyNo (app.key card.app keyNo) rndA ()) card =
        ((.ok session', ()), card') ∧
      Established P keyNo (app.key card.app keyNo) rndA (app.rndB card.app).1
        (app.newTi (app.rndB card.app).2).1 0 0 session' card' := by
  obtain ⟨session', _, card', hrun, keys, ti, a', rfl, hti, hstate, rfl⟩ := Script.exists_run
    (Session.wp_authenticateAes (E := E) (I := fun _ => True) hP hsel hmode keyNo rndA
      (fun _ => trivial) fun _ => trivial)
  refine ⟨session', _, hrun, ?_⟩
  rw [Established, hstate, hti]
  exact ⟨rfl, rfl, rfl, rfl, a', rfl⟩

/-- **LRP first authentication** with an honest tag in LRP mode: both sides have counted the
block of the answer. -/
theorem Session.run_authenticateLrp (hP : P.Lawful)
    (hsel : session.ndefSelected = true → card.channel ≠ .deselected)
    (hmode : app.lrpMode card.app = true) (keyNo : KeyNumber) (rndA : Bytes 16) :
    ∃ session' card', Prog.run (Card.transmit P app)
        (session.authenticateLrp (E := E) P keyNo (app.key card.app keyNo) rndA ()) card =
        ((.ok session', ()), card') ∧
      Established P keyNo (app.key card.app keyNo) rndA (app.rndB card.app).1
        (app.newTi (app.rndB card.app).2).1 0 1 session' card' := by
  obtain ⟨session', _, card', hrun, keys, ti, a', rfl, hti, hstate, rfl⟩ := Script.exists_run
    (Session.wp_authenticateLrp (E := E) (I := fun _ => True) hP hsel hmode keyNo rndA
      (fun _ => trivial) fun _ => trivial)
  refine ⟨session', _, hrun, ?_⟩
  rw [Established, hstate, hti]
  exact ⟨rfl, rfl, rfl, rfl, a', rfl⟩

/-- **Re-authentication** with an honest tag: the transaction identifier and the command
counter are those of the session before. -/
theorem Session.run_authenticate [HonestSuite P S] (hP : P.Lawful)
    {session : Session (Authenticated S)} {ts : TagSession (KeyedSuite.Keys P S)} {a : A}
    (hs : Agrees P session.state ts) (keyNo : KeyNumber) (rndA : Bytes 16) :
    ∃ session' card', Prog.run (Card.transmit P app)
        (session.authenticate (E := E) P keyNo (app.key a keyNo) rndA ())
        (Card.inSession P (S := S) ts a) = ((.ok session', ()), card') ∧
      session'.state.ti = session.state.ti ∧
      session'.state.cmdCounter = session.state.cmdCounter ∧
      Established P keyNo (app.key a keyNo) rndA (app.rndB a).1 ts.ti ts.cmdCtr 0
        session' card' := by
  obtain ⟨session', _, card', hrun, rfl, rfl⟩ := Script.exists_run
    (Session.wp_authenticate (E := E) app hP session ts a keyNo rndA)
  exact ⟨_, _, hrun, rfl, rfl, rfl, hs.ti, hs.cmdCounter, rfl, _, rfl⟩

end Honest

/-! ### The proof in the last answer -/

/-- The transcript ends with two exchanges that were answered so. -/
def EndsWith (w : Transcript E) (r₁ r₂ : Response) : Prop :=
  ∃ earlier apdu₁ apdu₂, w = earlier ++ [(apdu₁, .ok r₁), (apdu₂, .ok r₂)]

/-- The answer `E(Kx, TI || RndA' || PDcap2 || PCDcap2)` with the rotated random of the host. -/
def AesSuite.ProvesFirst (P : Primitives) (key : Key) (rndA : Bytes 16) (_ r₂ : Response) : Prop :=
  ∃ enc : Bytes 32, r₂.data = enc.toList ∧
    slice (aesCbcDecryptN P key zeroIv enc).toList 4 16 = (rotateLeft rndA).toList

/-- The answer `E(Kx, RndA')` with the rotated random of the host. -/
def AesSuite.ProvesNonFirst (P : Primitives) (key : Key) (rndA : Bytes 16) (_ r₂ : Response) :
    Prop :=
  ∃ enc : Bytes 16, r₂.data = enc.toList ∧ aesCbcDecryptN P key zeroIv enc = rotateLeft rndA

/-- The answer `PICCData || MAC(RndB || RndA || PICCData)`, with the capabilities of the host
in the encrypted `PICCData`. -/
def LrpSuite.ProvesFirst (P : Primitives) (key : Key) (rndA : Bytes 16) (r₁ r₂ : Response) : Prop :=
  ∃ (rndB piccData : Bytes 16) (plain : List UInt8) (suite : LrpSuite),
    r₁.data = authModeLrp :: rndB.toList ∧
    r₂.data = piccData.toList ++ ((derive P key rndA rndB).macFull P
      (rndB.toList ++ rndA.toList ++ piccData.toList)).toList ∧
    SessionSuite.decrypt P (derive P key rndA rndB) .response (Bytes.zeros 4) 0 piccData.toList =
      some (plain, suite) ∧
    slice plain 10 6 = pcdCap2

/-- The answer `MAC(RndB || RndA)`. -/
def LrpSuite.ProvesNonFirst (P : Primitives) (key : Key) (rndA : Bytes 16) (r₁ r₂ : Response) :
    Prop :=
  ∃ rndB : Bytes 16, r₁.data = authModeLrp :: rndB.toList ∧
    r₂.data = ((derive P key rndA rndB).macFull P (rndB.toList ++ rndA.toList)).toList

/-- The rotation of the host undoes that of the tag, and no other. -/
theorem rotateRight_eq_iff {a b : Bytes 16} : rotateRight b = a ↔ b = rotateLeft a := by
  constructor
  · rintro rfl
    apply Bytes.ext
    have hlen := b.length_toList
    have hlast : (b.toList.drop 15 ++ b.toList.take 15).drop 1 = b.toList.take 15 :=
      List.drop_left' (by rw [List.length_drop, hlen])
    have hinit : (b.toList.drop 15 ++ b.toList.take 15).take 1 = b.toList.drop 15 :=
      List.take_left' (by rw [List.length_drop, hlen])
    simp only [rotateRight, rotateLeft, hlast, hinit, List.take_append_drop]
  · rintro rfl
    exact rotateRight_rotateLeft a

section Proofs

variable {σ : Type} {t : σ} {w : Transcript E} {keyNo : KeyNumber} {key : Key} {rndA : Bytes 16}

/-- The random of the tag in its answer to part 1, whatever it is. -/
theorem LrpSuite.wp_expectRndB_recorded {env : (r : List UInt8) → Transcript E → Transmit E r →
      Transcript E → Prop} {I : Transcript E → Prop} {Q : Bytes 16 → σ → Transcript E → Prop}
    {data : List UInt8}
    (hQ : ∀ rndB : Bytes 16, data = authModeLrp :: rndB.toList → Q rndB t w) :
    (expectRndB data).wp env I Q (fun _ _ _ => True) t w := by
  simp only [expectRndB, Script.wp_bind, Script.wp_require, Script.wp_pure]
  refine ⟨fun hlen => ⟨fun hhead => ?_, fun _ => trivial⟩, fun _ => trivial⟩
  cases data with
  | nil => cases hhead
  | cons b tail =>
      obtain rfl : b = authModeLrp := Option.some.inj hhead
      have htail : tail.length = 16 := Nat.succ.inj hlen
      exact hQ _ (by rw [List.drop_one, List.tail_cons, Bytes.toList_fill_of_length htail])

/-- **The proof in an AES first authentication.** -/
theorem AesSuite.wp_first_proved :
    (authenticateEv2First P keyNo key rndA : Cmd E σ (AuthResult AesSuite)).wp (Records anyAnswer)
      (fun _ => True) (fun _ _ w' => ∃ r₁ r₂, EndsWith w' r₁ r₂ ∧ ProvesFirst P key rndA r₁ r₂)
      (fun _ _ _ => True) t w := by
  simp only [authenticateEv2First, finishAuth, Script.wp_bind]
  refine wp_transmitExpecting_recorded trivial (fun r₁ _ _ => ?_) fun _ _ _ => trivial
  refine wp_expectBytes_recorded (fun rndBEnc _ => ?_) trivial
  refine wp_transmitExpecting_recorded trivial (fun r₂ _ _ => ?_) fun _ _ _ => trivial
  refine wp_expectBytes_recorded (fun enc henc => ?_) trivial
  simp only [Script.wp_require, Script.wp_pure]
  refine ⟨fun hproof => ⟨r₁, r₂, ⟨w, _, _, List.append_assoc ..⟩, enc, henc, ?_⟩, fun _ => trivial⟩
  rw [← rotateRight_eq_iff.mp hproof]
  exact (Bytes.toList_fill_of_length (by simp [slice])).symm

/-- **The proof in an AES re-authentication.** -/
theorem AesSuite.wp_nonFirst_proved :
    (authenticateEv2NonFirst P keyNo key rndA : Cmd E σ AesSuite).wp (Records anyAnswer)
      (fun _ => True) (fun _ _ w' => ∃ r₁ r₂, EndsWith w' r₁ r₂ ∧ ProvesNonFirst P key rndA r₁ r₂)
      (fun _ _ _ => True) t w := by
  simp only [authenticateEv2NonFirst, finishAuthNonFirst, Script.wp_bind]
  refine wp_transmitExpecting_recorded trivial (fun r₁ _ _ => ?_) fun _ _ _ => trivial
  refine wp_expectBytes_recorded (fun rndBEnc _ => ?_) trivial
  refine wp_transmitExpecting_recorded trivial (fun r₂ _ _ => ?_) fun _ _ _ => trivial
  refine wp_expectBytes_recorded (fun enc henc => ?_) trivial
  simp only [Script.wp_require, Script.wp_pure]
  exact ⟨fun hproof => ⟨r₁, r₂, ⟨w, _, _, List.append_assoc ..⟩, enc, henc,
    rotateRight_eq_iff.mp hproof⟩, fun _ => trivial⟩

/-- One block is always decrypted. -/
theorem LrpSuite.exists_decrypt (s : LrpSuite) (dir : Direction) (ti : Bytes 4) (ctr : UInt16)
    (block : Bytes 16) :
    ∃ plain suite, SessionSuite.decrypt P s dir ti ctr block.toList = some (plain, suite) := by
  have hctr : beBytes 4 s.encCtr.toNat ≠ [] := by
    intro h
    have hlen := congrArg List.length h
    rw [length_beBytes] at hlen
    cases hlen
  have hdec : s.encKey.lricbDecryptInPlace P (beBytes 4 s.encCtr.toNat) block.toList = _ :=
    Lrp.lricb_of_valid block.toList_ne_nil (by rw [block.length_toList]) hctr
      (by rw [length_beBytes]; decide)
  exact ⟨_, _, congrArg (Option.map _) hdec⟩

/-- **The proof in an LRP first authentication.** -/
theorem LrpSuite.wp_first_proved :
    (authenticateEv2First P keyNo key rndA : Cmd E σ (AuthResult LrpSuite)).wp (Records anyAnswer)
      (fun _ => True) (fun _ _ w' => ∃ r₁ r₂, EndsWith w' r₁ r₂ ∧ ProvesFirst P key rndA r₁ r₂)
      (fun _ _ _ => True) t w := by
  simp only [authenticateEv2First, verifyAndExtractAuthResult, Script.wp_bind]
  refine wp_transmitExpecting_recorded trivial (fun r₁ _ _ => ?_) fun _ _ _ => trivial
  refine LrpSuite.wp_expectRndB_recorded fun rndB hrndB => ?_
  refine wp_transmitExpecting_recorded trivial (fun r₂ _ _ => ?_) fun _ _ _ => trivial
  refine wp_expectBytes_recorded (fun data hdata => ?_) trivial
  have hpicc : (Bytes.fill 16 (data.toList.take 16)).toList = data.toList.take 16 :=
    Bytes.toList_fill_of_length (by simp)
  have hproofLen : (Bytes.fill 16 (data.toList.drop 16)).toList = data.toList.drop 16 :=
    Bytes.toList_fill_of_length (by simp)
  generalize Bytes.fill 16 (data.toList.take 16) = piccData at hpicc ⊢
  generalize Bytes.fill 16 (data.toList.drop 16) = piccResponse at hproofLen ⊢
  obtain ⟨plain, suite, hdec⟩ := LrpSuite.exists_decrypt (P := P) (derive P key rndA rndB)
    .response (Bytes.zeros 4) 0 piccData
  simp only [hdec, Option.getD_some, Script.wp_require, Script.wp_pure]
  refine ⟨fun hmac => ⟨fun hcaps => ⟨r₁, r₂, ⟨w, _, _, List.append_assoc ..⟩, rndB, piccData, plain,
    suite, hrndB, ?_, hdec, hcaps⟩, fun _ => trivial⟩, fun _ => trivial⟩
  rw [hmac, hdata, hpicc, hproofLen, List.take_append_drop]

/-- **The proof in an LRP re-authentication.** -/
theorem LrpSuite.wp_nonFirst_proved :
    (authenticateEv2NonFirst P keyNo key rndA : Cmd E σ LrpSuite).wp (Records anyAnswer)
      (fun _ => True) (fun _ _ w' => ∃ r₁ r₂, EndsWith w' r₁ r₂ ∧ ProvesNonFirst P key rndA r₁ r₂)
      (fun _ _ _ => True) t w := by
  simp only [authenticateEv2NonFirst, Script.wp_bind]
  refine wp_transmitExpecting_recorded trivial (fun r₁ _ _ => ?_) fun _ _ _ => trivial
  refine LrpSuite.wp_expectRndB_recorded fun rndB hrndB => ?_
  refine wp_transmitExpecting_recorded trivial (fun r₂ _ _ => ?_) fun _ _ _ => trivial
  refine wp_expectBytes_recorded (fun piccResponse hdata => ?_) trivial
  simp only [Script.wp_require, Script.wp_pure]
  refine ⟨fun hmac => ⟨r₁, r₂, ⟨w, _, _, List.append_assoc ..⟩, rndB, hrndB, ?_⟩, fun _ => trivial⟩
  rw [hmac, hdata]

end Proofs

/-- Whatever its transport answers, a task that succeeds has received a proof in the last two
answers. -/
def Demands {β : Type} (task : Task E β) (proof : Response → Response → Prop) : Prop :=
  ∀ w b w', Prog.Ends (Records anyAnswer) (task ()) w (.ok b, ()) w' →
    ∃ r₁ r₂, EndsWith w' r₁ r₂ ∧ proof r₁ r₂

/-- Selecting the application comes before the handshake. -/
theorem Session.demands_authenticateAes (session : Session Unauthenticated) (keyNo : KeyNumber)
    (key : Key) (rndA : Bytes 16) :
    Demands (session.authenticateAes (E := E) P keyNo key rndA)
      (AesSuite.ProvesFirst P key rndA) := by
  intro w b w' hend
  have hwp : (session.authenticateAes (E := E) P keyNo key rndA).wp (Records anyAnswer)
      (fun _ => True)
      (fun _ _ w' => ∃ r₁ r₂, EndsWith w' r₁ r₂ ∧ AesSuite.ProvesFirst P key rndA r₁ r₂)
      (fun _ _ _ => True) () w := by
    simp only [Session.authenticateAes, Script.wp_bind, Script.wp_on, Script.wp_pure]
    exact Script.wp_mono (Script.wp_any _) (fun _ _ _ _ => AesSuite.wp_first_proved)
      fun _ _ _ _ => trivial
  have hpost := Script.wp_ends hwp hend
  exact hpost

theorem Session.demands_authenticateLrp (session : Session Unauthenticated) (keyNo : KeyNumber)
    (key : Key) (rndA : Bytes 16) :
    Demands (session.authenticateLrp (E := E) P keyNo key rndA)
      (LrpSuite.ProvesFirst P key rndA) := by
  intro w b w' hend
  have hwp : (session.authenticateLrp (E := E) P keyNo key rndA).wp (Records anyAnswer)
      (fun _ => True)
      (fun _ _ w' => ∃ r₁ r₂, EndsWith w' r₁ r₂ ∧ LrpSuite.ProvesFirst P key rndA r₁ r₂)
      (fun _ _ _ => True) () w := by
    simp only [Session.authenticateLrp, Script.wp_bind, Script.wp_on, Script.wp_pure]
    exact Script.wp_mono (Script.wp_any _) (fun _ _ _ _ => LrpSuite.wp_first_proved)
      fun _ _ _ _ => trivial
  have hpost := Script.wp_ends hwp hend
  exact hpost

/-- A re-authentication demands what its handshake demands. -/
theorem Session.demands_authenticate [HandshakeSuite P S] {session : Session (Authenticated S)}
    {keyNo : KeyNumber} {key : Key} {rndA : Bytes 16} {proof : Response → Response → Prop}
    (h : ∀ w, (HandshakeSuite.authenticateEv2NonFirst P keyNo key rndA : Cmd E Unit S).wp
      (Records anyAnswer) (fun _ => True) (fun _ _ w' => ∃ r₁ r₂, EndsWith w' r₁ r₂ ∧ proof r₁ r₂)
      (fun _ _ _ => True) () w) :
      Demands (session.authenticate (E := E) P keyNo key rndA) proof := by
  intro w b w' hend
  have hwp : (session.authenticate (E := E) P keyNo key rndA).wp (Records anyAnswer)
      (fun _ => True) (fun _ _ w' => ∃ r₁ r₂, EndsWith w' r₁ r₂ ∧ proof r₁ r₂)
      (fun _ _ _ => True) () w := by
    simp only [Session.authenticate, Script.wp_bind, Script.wp_pure]
    exact h w
  have hpost := Script.wp_ends hwp hend
  exact hpost

/-! ### Both directions -/

/-- Re-authenticating with a key of the tag succeeds, and keeps the transaction identifier and
the command counter on both sides. -/
def Reauthenticates (P : Primitives) (S E : Type) [HonestSuite P S] : Prop :=
  ∀ {A : Type} (app : TagApp A) (session : Session (Authenticated S))
    (ts : TagSession (KeyedSuite.Keys P S)) (a : A) (keyNo : KeyNumber) (rndA : Bytes 16),
    Agrees P session.state ts →
    ∃ session' card', Prog.run (Card.transmit P app)
        (session.authenticate (E := E) P keyNo (app.key a keyNo) rndA ())
        (Card.inSession P (S := S) ts a) = ((.ok session', ()), card') ∧
      session'.state.ti = session.state.ti ∧
      session'.state.cmdCounter = session.state.cmdCounter ∧
      Established P keyNo (app.key a keyNo) rndA (app.rndB a).1 ts.ti ts.cmdCtr 0 session' card'

/-- What the four handshakes achieve. -/
structure MutualAuthentication (P : Primitives) (E : Type) : Prop where
  aesFirst : ∀ {A : Type} (app : TagApp A) (card : Card A) (session : Session Unauthenticated)
    (keyNo : KeyNumber) (rndA : Bytes 16),
    (session.ndefSelected = true → card.channel ≠ .deselected) → app.lrpMode card.app = false →
    ∃ session' card', Prog.run (Card.transmit P app)
        (session.authenticateAes (E := E) P keyNo (app.key card.app keyNo) rndA ()) card =
        ((.ok session', ()), card') ∧
      Established P keyNo (app.key card.app keyNo) rndA (app.rndB card.app).1
        (app.newTi (app.rndB card.app).2).1 0 0 session' card'
  lrpFirst : ∀ {A : Type} (app : TagApp A) (card : Card A) (session : Session Unauthenticated)
    (keyNo : KeyNumber) (rndA : Bytes 16),
    (session.ndefSelected = true → card.channel ≠ .deselected) → app.lrpMode card.app = true →
    ∃ session' card', Prog.run (Card.transmit P app)
        (session.authenticateLrp (E := E) P keyNo (app.key card.app keyNo) rndA ()) card =
        ((.ok session', ()), card') ∧
      Established P keyNo (app.key card.app keyNo) rndA (app.rndB card.app).1
        (app.newTi (app.rndB card.app).2).1 0 1 session' card'
  aesNonFirst : Reauthenticates P AesSuite E
  lrpNonFirst : Reauthenticates P LrpSuite E
  aesFirstProof : ∀ (session : Session Unauthenticated) keyNo key rndA,
    Demands (session.authenticateAes (E := E) P keyNo key rndA) (AesSuite.ProvesFirst P key rndA)
  lrpFirstProof : ∀ (session : Session Unauthenticated) keyNo key rndA,
    Demands (session.authenticateLrp (E := E) P keyNo key rndA) (LrpSuite.ProvesFirst P key rndA)
  aesNonFirstProof : ∀ (session : Session (Authenticated AesSuite)) keyNo key rndA,
    Demands (session.authenticate (E := E) P keyNo key rndA) (AesSuite.ProvesNonFirst P key rndA)
  lrpNonFirstProof : ∀ (session : Session (Authenticated LrpSuite)) keyNo key rndA,
    Demands (session.authenticate (E := E) P keyNo key rndA) (LrpSuite.ProvesNonFirst P key rndA)

/-- **Mutual authentication.** With a tag that holds the same key every handshake succeeds and
both sides hold the same session, and a host that accepts has received the proof over its
random, whatever the tag answers. -/
theorem mutual_authentication (hP : P.Lawful) : MutualAuthentication P E where
  aesFirst _ _ _ keyNo rndA hsel hmode := Session.run_authenticateAes hP hsel hmode keyNo rndA
  lrpFirst _ _ _ keyNo rndA hsel hmode := Session.run_authenticateLrp hP hsel hmode keyNo rndA
  aesNonFirst _ _ _ _ keyNo rndA hs := Session.run_authenticate hP hs keyNo rndA
  lrpNonFirst _ _ _ _ keyNo rndA hs := Session.run_authenticate hP hs keyNo rndA
  aesFirstProof := Session.demands_authenticateAes
  lrpFirstProof := Session.demands_authenticateLrp
  aesNonFirstProof _ _ _ _ := Session.demands_authenticate fun _ => AesSuite.wp_nonFirst_proved
  lrpNonFirstProof _ _ _ _ := Session.demands_authenticate fun _ => LrpSuite.wp_nonFirst_proved

/-- Opening a session with a blank tag. -/
theorem mutual_authentication_blank :
    ∃ session card, Prog.run (Card.transmit .standard TagApp.blank)
        (Session.new.authenticateAes (E := Empty) .standard .key0 (TagApp.blank.key () .key0)
          (Bytes.zeros 16) ()) ⟨.deselected, ()⟩ = ((.ok session, ()), card) ∧
      Established .standard .key0 (TagApp.blank.key () .key0) (Bytes.zeros 16)
        (TagApp.blank.rndB ()).1 (TagApp.blank.newTi ()).1 0 0 session card :=
  (mutual_authentication Primitives.standard_lawful).aesFirst TagApp.blank ⟨.deselected, ()⟩ .new
    .key0 (Bytes.zeros 16) nofun rfl

end Ntag424
