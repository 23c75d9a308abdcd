import Mathlib.Tactic.Common
import Ntag424.Lockstep.Reads
import Ntag424.Lockstep.Run
import Ntag424.Tag.Delivered

/-!
# The Check of the Factory State on a Tag at Delivery

The second part of `check_factory_state` succeeds on a tag at delivery, with any lawful cipher.

## Main results

* `wp_checkAuthenticated_delivered`: the sessions of the check, on the tag's card.
* `DeliveredTag.exists_run`: the whole check, once its first part has succeeded.
-/

namespace Ntag424

variable {P : Primitives} {E S β : Type}

/-! ### Commands in lockstep -/

section Commands

variable [HonestSuite P S] {session : Session (Authenticated S)} {w : Card Unit}

/-- A command that the application accepts in every state. -/
theorem wp_consume_delivered {cmd : Cmd E (Authenticated S) β} {c : AppCommand} {f : List UInt8 → β}
    {d : List UInt8} (hexec : ∀ k a, delivered.exec k c a = (.ok d, ()))
    (hcmd : cmd.wp (Prog.Answers (Card.transmit P delivered)) (fun _ => True)
      (Executed P delivered session.state.keyNumber c w.app f)
      (Refused (E := E) delivered session.state.keyNumber c w.app) session.state w) :
    (session.consume cmd).wp (Prog.Answers (Card.transmit P delivered)) (fun _ => True)
      (fun r _ w' => r.1 = f d ∧ Lockstep P r.2.state w') (fun _ _ _ => False) () w := by
  rw [wp_consume]
  refine Script.wp_mono hcmd ?_ ?_
  · rintro _ s' w' ⟨d', a', hexec', rfl, hlock⟩
    rw [hexec] at hexec'
    obtain rfl := Except.ok.inj (Prod.mk.inj hexec').1
    exact ⟨rfl, hlock.lockstep⟩
  · rintro e s' w' ⟨e', a', hexec', -⟩
    rw [hexec] at hexec'
    cases (Prod.mk.inj hexec').1

/-- The settings of a file. -/
theorem wp_getFileSettings_delivered (file : File) (h : Lockstep P session.state w) :
    (session.getFileSettings (E := E) P file).wp (Prog.Answers (Card.transmit P delivered))
      (fun _ => True) (fun r _ w' => r.1 = .factory file ∧ Lockstep P r.2.state w')
      (fun _ _ _ => False) () w := by
  have hexec : ∀ {d a' k}, delivered.exec k (.getFileSettings file.fileNo) w.app = (.ok d, a') →
      d = file.factorySettings := by
    intro d a' k hexec
    simp only [delivered, File.ofFileNo?_fileNo] at hexec
    exact (Except.ok.inj (Prod.mk.inj hexec).1).symm
  rw [Session.getFileSettings, wp_consume, getFileSettingsMac]
  simp only [Script.wp_bind]
  refine wp_sendMac h.locked trivial (by simp [macLen, maxApduBody]) rfl (fun _ => rfl) rfl
    (by rintro ⟨⟩) rfl
    rfl id ?_ ?_ ?_
  · intro d a' s' w' hd hlock
    obtain rfl := hexec hd
    rw [File.decode_factorySettings]
    exact Script.wp_pure.mpr ⟨rfl, hlock.lockstep⟩
  · rintro e s' w' ⟨e', a', hd, -⟩
    simp only [delivered, File.ofFileNo?_fileNo] at hd
    cases (Prod.mk.inj hd).1
  · intro d a' e s' w' hd hlong _
    obtain rfl := hexec hd
    exact absurd hlong (by cases file <;> decide)

/-- The whole proprietary file, in a session of key 2. -/
theorem wp_readProprietary_delivered (hP : P.Lawful) {buf : List UInt8} (hbuf : buf.length = 128)
    (h : Lockstep P session.state w) (hkey : session.state.keyNumber = .key2) :
    (session.readFileWithMode (E := E) P .proprietary 0 128 .full buf).wp
      (Prog.Answers (Card.transmit P delivered)) (fun _ => True)
      (fun r _ w' => r.1.2 = factoryProp ∧ Lockstep P r.2.state w') (fun _ _ _ => False) () w := by
  have hlock : LockedIn P delivered .key2 (delivered.fileMode w.app .key2) session.state w := by
    rw [← hkey]
    exact h.lockedIn
  have hserves : delivered.Serves .key2 File.proprietary.fileNo (slice factoryProp) :=
    ⟨fun o n => List.length_take_le _ _, fun o n a => ⟨(), rfl⟩⟩
  have hlength : factoryProp.length = 128 := by
    rw [factoryProp, List.length_cons, List.length_cons, List.length_replicate]
  have hfull : ∀ o n, o + n ≤ (0 : UInt32).toNat + (128 : UInt32).toNat →
      (slice factoryProp o n).length = n := by
    intro o n hle
    have hle' : o + n ≤ 128 := hle
    exact length_slice (by omega)
  have hread : (readDataFull (E := E) P File.proprietary.fileNo 0 128 buf).wp
      (Prog.Answers (Card.transmit P delivered)) (fun _ => True) _ _ session.state w :=
    wp_readDataFull_served hserves (by decide) (by decide) (by rw [hbuf]; decide) (by decide) hlock
      hP rfl hfull
  have hkeep : (Session.readCommand (E := E) P .proprietary 0 128 .full buf).wp
      (Prog.Answers (Card.transmit P delivered)) (fun _ => True)
      (fun _ => LockedIn P delivered .key2 (delivered.fileMode w.app .key2)) NoMismatch
      session.state w := wp_readCommand hP .proprietary 0 128 buf rfl hlock
  have hreceived : received fullReadChunk (slice factoryProp) (0 : UInt32).toNat
      (128 : UInt32).toNat = factoryProp := by
    rw [received_slice (by decide) (by rw [hlength]; decide), slice]
    exact List.take_of_length_le hlength.le
  rw [Session.readFileWithMode, wp_consume]
  refine Script.wp_mono (Script.wp_and hread hkeep) ?_ fun _ _ _ he => he.1
  rintro r s' w' ⟨hr, hlock'⟩
  rw [hreceived] at hr
  refine ⟨?_, hlock'.lockstep⟩
  rw [hr]
  simp only [overlay, List.take_zero, List.nil_append, Nat.zero_add, hlength]
  rw [List.drop_eq_nil_of_le hbuf.le, List.append_nil]

/-- A re-authentication with a default key. -/
theorem wp_authenticate_delivered (hP : P.Lawful) (keyNo : KeyNumber) (rndA : Bytes 16)
    (h : Lockstep P session.state w) :
    (session.authenticate (E := E) P keyNo factoryKey rndA).wp
      (Prog.Answers (Card.transmit P delivered)) (fun _ => True)
      (fun session _ w' => session.state.keyNumber = keyNo ∧ Lockstep P session.state w')
      (fun _ _ _ => False) () w := by
  obtain ⟨ts, hw, hs⟩ := h
  obtain ⟨channel, a⟩ := w
  obtain rfl : channel = LinkedSuite.channel (P := P) (S := S) ts := hw
  have hauth := Session.wp_authenticate (E := E) delivered hP session ts a keyNo rndA
  refine Script.wp_mono hauth ?_ fun _ _ _ he => he
  rintro _ _ _ ⟨rfl, rfl⟩
  exact ⟨rfl, _, rfl, rfl, hs.ti, hs.cmdCounter, rfl⟩

end Commands

/-! ### The sessions of the check -/

section Check

variable {W σ : Type} {env : (r : List UInt8) → W → Transmit E r → W → Prop}

/-- What cannot fail is not turned into another error. -/
theorem wp_orNotFactoryState_ok {what : String} {m : Cmd E σ β} {Q : β → σ → W → Prop} {t : σ}
    {w : W} (h : m.wp env (fun _ => True) Q (fun _ _ _ => False) t w) :
    (orNotFactoryState what m).wp env (fun _ => True) Q (fun _ _ _ => False) t w :=
  wp_orNotFactoryState (J := fun _ _ => False) h fun _ _ _ hno => hno

variable {session : Session (Authenticated AesSuite)} {w : Card Unit}

/-- The sessions of the check are AES sessions in lockstep with the card. -/
def InStepAes (P : Primitives) (session : EncryptedSession) (w : Card Unit) : Prop :=
  ∃ s, session = .aes s ∧ Lockstep P s.state w

/-- The master session. -/
theorem wp_authenticateMaster_delivered (hP : P.Lawful) (rnd : ℕ → Bytes 16) {w : Card Unit} :
    (authenticateMaster (E := E) P rnd).wp (Prog.Answers (Card.transmit P delivered))
      (fun _ => True) (fun r _ w' => InStepAes P r.1 w') (fun _ _ _ => False) () w := by
  have haes : (Session.new.authenticateAes (E := E) P .key0 factoryKey (rnd 0)).wp
      (Prog.Answers (Card.transmit P delivered)) (fun _ => True)
      (fun s _ w' => Lockstep P s.state w') (fun _ _ _ => False) () w := by
    have hsession : (Session.new.authenticateAes (E := E) P .key0 (delivered.key w.app .key0)
        (rnd 0)).wp (Prog.Answers (Card.transmit P delivered)) (fun _ => True) _ _ () w :=
      Session.wp_authenticateAes hP (by nofun) rfl .key0 (rnd 0) (fun _ => trivial)
        fun _ => trivial
    refine Script.wp_mono hsession ?_ fun _ _ _ he => he
    rintro s _ w' ⟨keys, ti, a', rfl, hti, hstate, rfl⟩
    rw [hstate]
    exact ⟨_, rfl, rfl, rfl, rfl, rfl⟩
  simp only [authenticateMaster, Script.wp_bind, Script.wp_attempt]
  refine Script.wp_mono haes (fun s _ w' hs => ?_) fun _ _ _ he => he.elim
  exact Script.wp_pure.mpr ⟨s, rfl, hs⟩

/-- The settings of the files. -/
theorem wp_checkSettings_delivered (files : List File) {session : EncryptedSession}
    (h : InStepAes P session w) :
    (checkSettings (E := E) P files session).wp (Prog.Answers (Card.transmit P delivered))
      (fun _ => True) (fun session _ w' => InStepAes P session w') (fun _ _ _ => False) () w := by
  induction files generalizing session w with
  | nil => exact Script.wp_pure.mpr h
  | cons file files ih =>
      obtain ⟨s, rfl, hs⟩ := h
      simp only [checkSettings, EncryptedSession.getFileSettings, EncryptedSession.dispatchValue,
        requireFactoryState, Script.wp_bind, Script.wp_require]
      refine wp_orNotFactoryState_ok ?_
      simp only [Script.wp_bind, Script.wp_pure]
      refine Script.wp_mono (wp_getFileSettings_delivered file hs) ?_ fun _ _ _ he => he
      rintro r _ w' ⟨hview, hs'⟩
      exact ⟨fun _ => ih ⟨_, rfl, hs'⟩, fun hno => absurd hview hno⟩

/-- The default keys. -/
theorem wp_checkKeys_delivered (hP : P.Lawful) (rnd : ℕ → Bytes 16) (keys : List KeyNumber) (n : ℕ)
    {session : EncryptedSession} (h : InStepAes P session w) :
    (checkKeys (E := E) P rnd keys n session).wp (Prog.Answers (Card.transmit P delivered))
      (fun _ => True) (fun _ _ _ => True) (fun _ _ _ => False) () w := by
  induction keys generalizing n session w with
  | nil => exact Script.wp_pure.mpr trivial
  | cons keyNo keys ih =>
      obtain ⟨s, rfl, hs⟩ := h
      simp only [checkKeys, EncryptedSession.authenticate, EncryptedSession.dispatch,
        Script.wp_bind]
      refine wp_orNotFactoryState_ok ?_
      simp only [Script.wp_bind, Script.wp_pure]
      refine Script.wp_mono (wp_authenticate_delivered hP keyNo (rnd n) hs) ?_ fun _ _ _ he => he
      rintro s' _ w' ⟨-, hs'⟩
      exact ih (n + 1) ⟨s', rfl, hs'⟩

/-- **The second part of the check** succeeds on a tag at delivery without tag-tamper support. -/
theorem wp_checkAuthenticated_delivered (hP : P.Lawful) (rnd : ℕ → Bytes 16) {version : Version}
    (hversion : version.hasTagTamperSupport = false) {buf : List UInt8} (hbuf : buf.length = 256)
    (w : Card Unit) :
    (checkAuthenticated (E := E) P verifyDelivered rnd version buf).wp
      (Prog.Answers (Card.transmit P delivered)) (fun _ => True) (fun _ _ _ => True)
      (fun _ _ _ => False) () w := by
  have hprop : (buf.take File.proprietary.size).length = 128 := by
    rw [List.length_take, hbuf]
    rfl
  rw [checkAuthenticated]
  refine Script.wp_bind_of (wp_authenticateMaster_delivered hP rnd) ?_ fun _ _ _ he => he
  rintro ⟨master, n⟩ _ w hmaster
  refine Script.wp_bind_of (wp_checkSettings_delivered _ hmaster) ?_ fun _ _ _ he => he
  rintro _ _ w ⟨s, rfl, hs⟩
  simp only [readTagTamper, hversion, Bool.false_eq_true, if_false, Script.wp_bind, Script.wp_pure]
  -- the UID
  refine wp_orNotFactoryState_ok ?_
  simp only [EncryptedSession.getUid, EncryptedSession.dispatchValue, Session.getUid,
    Script.wp_bind,
    Script.wp_pure]
  refine Script.wp_mono (wp_consume_delivered (d := deliveredUid.toList) (fun _ _ => rfl)
    (wp_getCardUid hP hs.locked trivial)) ?_ fun _ _ _ he => he
  rintro ⟨uid, s⟩ _ w ⟨huid, hs⟩
  obtain rfl : uid = deliveredUid := huid.trans (Bytes.fill_toList deliveredUid)
  -- the originality signature
  refine wp_orNotFactoryState_ok ?_
  simp only [EncryptedSession.verifyOriginality, EncryptedSession.dispatchValue,
    Session.verifyOriginality, Script.wp_bind, Script.wp_pure]
  refine Script.wp_mono (wp_consume_delivered (d := deliveredSignature.toList) (fun _ _ => rfl)
    (wp_readSigMac hP hs.locked trivial)) ?_ fun _ _ _ he => he
  rintro ⟨signature, s⟩ _ w ⟨hsignature, hs⟩
  obtain rfl : signature = deliveredSignature :=
    hsignature.trans (Bytes.fill_toList deliveredSignature)
  have hverify : verifyDelivered deliveredSignature deliveredUid = .ok () := if_pos ⟨rfl, rfl⟩
  simp only [hverify, Script.wp_pure]
  -- the session of key 2
  refine wp_orNotFactoryState_ok ?_
  simp only [EncryptedSession.authenticate, EncryptedSession.dispatch, Script.wp_bind,
    Script.wp_pure]
  refine Script.wp_mono (wp_authenticate_delivered hP .key2 (rnd n) hs) ?_ fun _ _ _ he => he
  rintro s _ w ⟨hkey, hs⟩
  refine wp_orNotFactoryState_ok ?_
  simp only [EncryptedSession.readFileWithMode, EncryptedSession.dispatchValue, Script.wp_bind,
    Script.wp_pure]
  refine Script.wp_mono (wp_readProprietary_delivered hP hprop hs hkey) ?_ fun _ _ _ he => he
  rintro ⟨⟨len, prop⟩, s⟩ _ w ⟨hfactory, hs⟩
  simp only [requireFactoryState, Script.wp_require]
  refine ⟨fun _ => ?_, fun hno => absurd hfactory hno⟩
  exact wp_checkKeys_delivered hP rnd _ (n + 1) ⟨s, rfl, hs⟩

end Check

/-! ### The whole check -/

namespace DeliveredTag

variable {ndef : List UInt8}

/-- The APDUs of a session reach the card. -/
theorem answers_card {apdu : List UInt8} {tag tag' : DeliveredTag} {answer : Transmit Empty apdu}
    (hapdu : SessionApdu apdu) (h : Prog.Answers (transmit P ndef) apdu tag answer tag') :
    Prog.Answers (Card.transmit P delivered) apdu tag.card answer tag'.card := by
  have hhandle : tag.handle P ndef apdu =
      ((tag.card.handle P delivered apdu).1,
        { tag with card := (tag.card.handle P delivered apdu).2 }) := by
    have hread := hapdu.noFileRead.ne_readApdu
    rw [handle, if_neg (hread _), if_neg (hread _)]
    rcases hapdu with ⟨ins, p1, p2, body, hbody, rfl⟩ | rfl
    · have hlen : ∀ short : List UInt8, short.length = 5 → nativeApdu ins p1 p2 body ≠ short := by
        rintro short hshort rfl
        have := List.length_pos_iff.mpr hbody
        simp only [nativeApdu, List.length_append, List.length_cons] at hshort
        omega
      rw [if_neg (fun heq => by cases List.head_eq_of_cons_eq heq), if_neg (hlen _ rfl),
        if_neg (hlen _ rfl)]
    · rfl
  obtain ⟨rfl, rfl⟩ := Prod.mk.inj h
  rw [hhandle]
  rfl

/-- What the first part of the check leaves when it succeeds on a new session: a version without
tag-tamper support, the whole buffer, and one answer to the read of the NDEF file. -/
def contentsPass (P : Primitives) (ndef : List UInt8) : Bool :=
  match Prog.run (traced (transmit P ndef)) (checkContents Session.new) (start, []) with
  | ((.ok (version, buf), _), (_, w)) =>
      decide (version.hasTagTamperSupport = false ∧ buf.length = 256 ∧
        answersTo (readApdu .ndef) w = [.ok ⟨ndef, 0x90, 0x00⟩])
  | _ => false

/-- **The whole check** succeeds when its first part does. -/
theorem exists_run (hP : P.Lawful) (h : contentsPass P ndef = true) (rnd : ℕ → Bytes 16) :
    ∃ result session w, Prog.Ends (Records anyAnswer)
      (checkFactoryState (E := Empty) P verifyDelivered rnd .new) [] (.ok result, session) w ∧
      answersTo (readApdu .ndef) w = [.ok ⟨ndef, 0x90, 0x00⟩] := by
  have hcontents : (checkContents (E := Empty)).wp (Prog.Answers (traced (transmit P ndef)))
      (fun _ => True) (fun r _ v => r.1.hasTagTamperSupport = false ∧ r.2.length = 256 ∧
        answersTo (readApdu .ndef) v.2 = [.ok ⟨ndef, 0x90, 0x00⟩]) (fun _ _ _ => False) .new
      (start, []) := by
    unfold contentsPass at h
    split at h
    · rename_i version buf s tag w hrun
      exact Script.wp_of_run hrun (decide_eq_true_iff.mp h)
    · cases h
  have hauthenticated :
      ∀ (version : Version) (buf : List UInt8) (v : DeliveredTag × Transcript Empty),
      version.hasTagTamperSupport = false → buf.length = 256 →
      (checkAuthenticated (E := Empty) P verifyDelivered rnd version buf).wp
        (Prog.Answers (traced (transmit P ndef))) (fun _ => True)
        (fun _ _ v' => SameReads v.2 v'.2) (fun _ _ _ => False) () v := by
    intro version buf v hversion hbuf
    have hasks := asks_checkAuthenticated (E := Empty) P verifyDelivered rnd version buf
    have henv : ∀ (apdu : List UInt8) (v : DeliveredTag × Transcript Empty)
        (answer : Transmit Empty apdu) (v' : DeliveredTag × Transcript Empty), SessionApdu apdu →
        Prog.Answers (traced (transmit P ndef)) apdu v answer v' →
        Prog.Answers (Card.transmit P delivered) apdu v.1.card answer v'.1.card :=
      fun apdu v answer v' hapdu hanswer => answers_card hapdu (answers_of_traced hanswer)
    have hcard := hasks.wp_comap (f := fun v : DeliveredTag × Transcript Empty => v.1.card) henv
      (wp_checkAuthenticated_delivered hP rnd hversion hbuf v.1.card)
    have hreads := wp_traced_recorded (h := transmit P ndef) (v := v) (t := ())
      (wp_sameReads_of_asks (hasks.mono fun _ => SessionApdu.noFileRead))
    exact Script.wp_mono (Script.wp_and hcard hreads) (fun _ _ _ hpost => hpost.2)
      fun _ _ _ he => he.1
  have hall : (checkFactoryState (E := Empty) P verifyDelivered rnd).wp
      (Prog.Answers (traced (transmit P ndef))) (fun _ => True)
      (fun _ _ v => answersTo (readApdu .ndef) v.2 = [.ok ⟨ndef, 0x90, 0x00⟩])
      (fun _ _ _ => False) .new (start, []) := by
    rw [checkFactoryState]
    refine Script.wp_bind_of hcontents ?_ fun _ _ _ he => he
    rintro ⟨version, buf⟩ s v ⟨hversion, hbuf, hread⟩
    simp only [beside, Script.wp_bind, Script.wp_on, Script.wp_pure]
    refine Script.wp_mono (hauthenticated version buf v hversion hbuf) (fun _ _ v' hsame => ?_)
      fun _ _ _ he => he
    exact (hsame .ndef).trans hread
  obtain ⟨result, session, v, hend, hread⟩ := Script.exists_ends hall
  exact ⟨result, session, v.2, hend.comap (f := Prod.snd)
    (fun _ _ _ _ hanswer => records_of_traced hanswer), hread⟩

end DeliveredTag

end Ntag424
