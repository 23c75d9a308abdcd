import Mathlib.Tactic.Common
import Ntag424.Lockstep.Channel

/-!
# Commands Keep Host and Tag in Lockstep

`Locked k a s w` says that the card `w` is in a session with key number `k`, that its
application is in the state `a`, and that the host's state `s` agrees with its side of the
session. Every command that succeeds leads from a locked state to a locked state, and what it
returned is what the application answered.

## Main results

* `wp_getVersionMac`, `wp_readFullFixed`, `wp_getKeyVersion`, `wp_changeKey` and the others:
  each command succeeds if and only if the application accepts it, and keeps the lock.
* `NoMismatch`: the faults that are not a wrong response MAC.
-/

namespace Ntag424

open Numerals SecureChannel

variable {P : Primitives} {E S A β : Type} [LinkedSuite P S]

/-- The card is in a session that agrees with the host. -/
def Locked (P : Primitives) {S A : Type} [LinkedSuite P S] (k : KeyNumber) (a : A)
    (s : Authenticated S) (w : Card A) : Prop :=
  ∃ ts, w = Card.inSession P (S := S) ts a ∧ Agrees P s ts ∧ ts.keyNo = k

theorem Locked.app_eq {k : KeyNumber} {a : A} {s : Authenticated S} {w : Card A}
    (h : Locked P k a s w) : w.app = a := by
  obtain ⟨ts, rfl, -⟩ := h
  rfl

/-- The application accepted the command, and the host returned what it made of the answer. -/
def Executed (P : Primitives) {S A β : Type} [LinkedSuite P S] (app : TagApp A) (k : KeyNumber)
    (c : AppCommand) (a : A) (f : List UInt8 → β) (b : β) (s : Authenticated S) (w : Card A) :
    Prop :=
  ∃ d a', app.exec k c a = (.ok d, a') ∧ b = f d ∧ Locked P k a' s w

/-- The application refused the command, and the host reports its status. -/
def Refused {σ A : Type} (app : TagApp A) (k : KeyNumber) (c : AppCommand) (a : A)
    (e : Fault (SessionError E)) (_ : σ) (w : Card A) : Prop :=
  ∃ e' a', app.exec k c a = (.error e', a') ∧ e = .error (.errorResponse e'.status) ∧ w.app = a'

/-- Any fault but a wrong response MAC. -/
def NoMismatch {σ W : Type} (e : Fault (SessionError E)) (_ : σ) (_ : W) : Prop :=
  e ≠ .error .responseMacMismatch

theorem Refused.noMismatch {σ : Type} {app : TagApp A} {k : KeyNumber} {c : AppCommand} {a : A}
    {e : Fault (SessionError E)} {t : σ} {w : Card A} (h : Refused app k c a e t w) :
    NoMismatch e t w := by
  obtain ⟨e', a', -, rfl, -⟩ := h
  exact nofun

variable {app : TagApp A} {k : KeyNumber} {a : A} {s : Authenticated S} {w : Card A}
  {I : Card A → Prop} {Q : β → Authenticated S → Card A → Prop}
  {R : Fault (SessionError E) → Authenticated S → Card A → Prop}

/-! ### Protected commands -/

/-- A command with a MAC whose answer has a MAC. -/
theorem wp_sendMac {Q : List UInt8 → Authenticated S → Card A → Prop} {ins : UInt8}
    {header data : List UInt8} {c : AppCommand} (hlock : Locked P k a s w) (hI : I w)
    (hlen : header.length + data.length + macLen ≤ maxApduBody)
    (hhl : AppCommand.headerLength ins = some header.length)
    (hmode : ∀ rest, app.commandMode a k ins (header ++ rest) = .mac)
    (hparse : AppCommand.parse ins header data = some c) (hc : c ≠ .getVersion)
    (hcode : app.successCode a c = 0x00) (hframing : app.framing a k c = .mac)
    (hends : ¬ c.EndsSession k)
    (hok : ∀ d a' s' w', app.exec k c a = (.ok d, a') → Locked P k a' s' w' → Q d s' w')
    (herr : ∀ e s' w', Refused app k c a e s' w' → R e s' w')
    (hbig : ∀ d a' e s' w', app.exec k c a = (.ok d, a') → maxResponseData < d.length →
      NoMismatch e s' w' → R e s' w') :
    (sendMac P ins 0x00 0x00 header data).wp (Prog.Answers (Card.transmit P app)) I Q R s w := by
  obtain ⟨ts, rfl, hs, rfl⟩ := hlock
  simp only [sendMac, Script.wp_bind, Script.wp_require, Script.wp_pure]
  refine ⟨fun _ => ?_, fun hno => absurd hlen hno⟩
  refine wp_transmitMac (n := 0) hs.idle hI hlen hhl hmode (.mac data) hparse hc hcode
    (fun d a' s₁ hexec h₁ => ?_) fun e a' s₁ hexec _ => herr _ _ _ ⟨e, a', hexec, rfl, rfl⟩
  rw [hframing, Card.accepted, if_neg hends]
  refine wp_verifyResponse h₁ (fun hpanic => ?_) fun s₂ h₂ => ⟨fun _ => ?_, fun hlong => ?_⟩
  · exact hbig d a' _ _ _ hexec (by rw [maxResponseData]; omega) nofun
  · exact hok d a' _ _ hexec ⟨_, rfl, h₂, rfl⟩
  · exact hbig d a' _ _ _ hexec (by omega) nofun

/-- A command with a MAC whose answer is encrypted and of fixed length. -/
theorem wp_readFullFixed (hP : P.Lawful) {ins : UInt8} {p : ℕ} {c : AppCommand}
    (hlock : Locked P k a s w) (hI : I w) (hp : p < 240)
    (hhl : AppCommand.headerLength ins = some 0)
    (hmode : ∀ rest, app.commandMode a k ins rest = .mac)
    (hparse : AppCommand.parse ins [] [] = some c) (hc : c ≠ .getVersion)
    (hcode : app.successCode a c = 0x00) (hframing : app.framing a k c = .full)
    (hends : ¬ c.EndsSession k) (hlength : ∀ n, c.AnswerLength n → n = p) :
    (readFullFixed P ins [] (16 * (p / 16 + 1)) p).wp (Prog.Answers (Card.transmit P app)) I
      (Executed P app k c a (Bytes.fill p)) (Refused (E := E) app k c a) s w := by
  obtain ⟨ts, rfl, hs, rfl⟩ := hlock
  simp only [readFullFixed, Script.wp_bind]
  refine wp_transmitMac (n := 0) hs.idle hI (by decide) hhl hmode (.mac []) hparse hc hcode
    (fun d a' s₁ hexec h₁ => ?_) fun e a' s₁ hexec _ => ⟨e, a', hexec, rfl, rfl⟩
  rw [hframing, Card.accepted, if_neg hends]
  exact wp_decryptFullFixed hP h₁ (hlength _ (app.length_exec hexec)) hp fun s₂ h₂ =>
    ⟨d, a', hexec, rfl, _, rfl, h₂, rfl⟩

/-- A command with encrypted data, up to its answer. -/
theorem wp_transmitFull (hP : P.Lawful) {Q : Response → Authenticated S → Card A → Prop}
    {ins : UInt8} {header data : List UInt8} {c : AppCommand} (hlock : Locked P k a s w) (hI : I w)
    (hlen : header.length + (m2Pad data).length + macLen ≤ maxApduBody)
    (hhl : AppCommand.headerLength ins = some header.length)
    (hmode : ∀ rest, app.commandMode a k ins (header ++ rest) = .full)
    (hparse : AppCommand.parse ins header data = some c) (hc : c ≠ .getVersion)
    (hcode : app.successCode a c = 0x00)
    (hok : ∀ d a' (ts : TagSession (KeyedSuite.Keys P S)) s', app.exec k c a = (.ok d, a') →
      Agrees P s' ts → ts.keyNo = k →
      Q (ts.answer P (S := S) (app.framing a k c) 0x00 d).1 s'
        (Card.accepted P (S := S) k c (ts.answer P (S := S) (app.framing a k c) 0x00 d).2 a'))
    (herr : ∀ e s' w', Refused app k c a e s' w' → R e s' w') :
    (transmitFull P ins header data).wp (Prog.Answers (Card.transmit P app)) I Q R s w := by
  obtain ⟨ts, rfl, hs, rfl⟩ := hlock
  simp only [transmitFull, Script.wp_bind]
  refine wp_encryptCommand hP hs.idle fun ct s₁ hct hdec h₁ => ?_
  exact wp_transmitMac h₁ hI (by rw [hct]; exact hlen) hhl hmode (.full hdec) hparse hc hcode
    (fun d a' s₂ hexec h₂ => hok d a' _ s₂ hexec h₂ rfl)
    fun e a' s₂ hexec _ => herr _ _ _ ⟨e, a', hexec, rfl, rfl⟩

/-! ### Commands without data -/

/-- `get_card_uid`. -/
theorem wp_getCardUid (hP : P.Lawful) (hlock : Locked P k a s w) (hI : I w) :
    (getCardUid P).wp (Prog.Answers (Card.transmit P app)) I
      (Executed P app k .getCardUid a (Bytes.fill 7)) (Refused (E := E) app k .getCardUid a) s w :=
  wp_readFullFixed hP hlock hI (by decide) rfl (fun _ => rfl) rfl nofun rfl rfl id fun _ h => h

/-- `get_tt_status`. -/
theorem wp_getTtStatus (hP : P.Lawful) (hlock : Locked P k a s w) (hI : I w) :
    (getTtStatus P).wp (Prog.Answers (Card.transmit P app)) I
      (Executed P app k .getTtStatus a fun d =>
        .new ((Bytes.fill 2 d).byte 0) ((Bytes.fill 2 d).byte 1))
      (Refused (E := E) app k .getTtStatus a) s w := by
  simp only [getTtStatus, Script.wp_bind, Script.wp_pure]
  refine Script.wp_mono (wp_readFullFixed hP hlock hI (by decide) rfl (fun _ => rfl) rfl
    (by rintro ⟨⟩) rfl
    rfl id fun _ h => h) ?_ fun _ _ _ h => h
  rintro _ s' w' ⟨d, a', hexec, rfl, hlock'⟩
  exact ⟨d, a', hexec, rfl, hlock'⟩

/-- `get_key_version`. -/
theorem wp_getKeyVersion (keyNo : KeyNumber) (hlock : Locked P k a s w) (hI : I w) :
    (getKeyVersion P keyNo).wp (Prog.Answers (Card.transmit P app)) I
      (Executed P app k (.getKeyVersion keyNo.asByte) a fun d => d.headD 0)
      (Refused (E := E) app k (.getKeyVersion keyNo.asByte) a) s w := by
  have hone : ∀ {d a'}, app.exec k (.getKeyVersion keyNo.asByte) a = (.ok d, a') → d.length = 1 :=
    fun hexec => app.length_exec hexec
  simp only [getKeyVersion, Script.wp_bind]
  refine wp_sendMac hlock hI (by simp [macLen, maxApduBody]) rfl (fun _ => rfl) rfl (by rintro ⟨⟩)
    rfl rfl id
    ?_ (fun _ _ _ h => h) ?_
  · intro d a' s' w' hexec hlock'
    obtain ⟨v, rfl⟩ := List.length_eq_one_iff.mp (hone hexec)
    exact Script.wp_pure.mpr ⟨[v], a', hexec, rfl, hlock'⟩
  · intro d a' e s' w' hexec hbig
    rw [hone hexec] at hbig
    exact absurd hbig (by decide)

/-- `get_file_settings_mac`: it returns the settings the tag reports. -/
theorem wp_getFileSettingsMac (fileNo : UInt8) (hlock : Locked P k a s w) (hI : I w) :
    (getFileSettingsMac P fileNo).wp (Prog.Answers (Card.transmit P app)) I
      (fun v s' w' => ∃ d a', app.exec k (.getFileSettings fileNo) a = (.ok d, a') ∧
        FileSettingsView.decode d = .ok v ∧ Locked P k a' s' w')
      (NoMismatch (E := E)) s w := by
  simp only [getFileSettingsMac, Script.wp_bind]
  refine wp_sendMac hlock hI (by simp [macLen, maxApduBody]) rfl (fun _ => rfl) rfl (by rintro ⟨⟩)
    rfl rfl id
    ?_ (fun _ _ _ h => h.noMismatch) fun _ _ _ _ _ _ _ h => h
  intro d a' s' w' hexec hlock'
  cases hv : FileSettingsView.decode d with
  | ok v => exact Script.wp_pure.mpr ⟨d, a', hexec, hv, hlock'⟩
  | error e => exact Script.wp_fail.mpr (by rintro ⟨⟩)

/-- A command with a MAC whose answer is encrypted, before it is decrypted. -/
theorem wp_sendMac_full (hP : P.Lawful) {Q : List UInt8 → Authenticated S → Card A → Prop}
    {ins : UInt8} {header : List UInt8} {c : AppCommand} (hlock : Locked P k a s w) (hI : I w)
    (hlen : header.length + macLen ≤ maxApduBody)
    (hhl : AppCommand.headerLength ins = some header.length)
    (hmode : ∀ rest, app.commandMode a k ins (header ++ rest) = .mac)
    (hparse : AppCommand.parse ins header [] = some c) (hc : c ≠ .getVersion)
    (hcode : app.successCode a c = 0x00) (hframing : app.framing a k c = .full)
    (hends : ¬ c.EndsSession k)
    (hok : ∀ d a' ct (ts : TagSession (KeyedSuite.Keys P S)) s', app.exec k c a = (.ok d, a') →
      ct.length = (m2Pad d).length →
      SessionSuite.decrypt P (ts.accept.suite P : S) .response ts.accept.ti
          (UInt16.ofNat ts.accept.cmdCtr) ct =
        some (m2Pad d, (ts.accept.counted (d.length / 16 + 1)).suite P) →
      Agrees P s' ts.accept → ts.keyNo = k →
      Q ct s' (Card.inSession P (S := S) (ts.accept.counted (d.length / 16 + 1)) a'))
    (herr : ∀ e s' w', NoMismatch e s' w' → R e s' w') :
    (sendMac P ins 0x00 0x00 header []).wp (Prog.Answers (Card.transmit P app)) I Q R s w := by
  obtain ⟨ts, rfl, hs, rfl⟩ := hlock
  simp only [sendMac, Script.wp_bind, Script.wp_require, Script.wp_pure]
  refine ⟨fun _ => ?_, fun hno => absurd hlen hno⟩
  refine wp_transmitMac (n := 0) hs.idle hI hlen hhl hmode (.mac []) hparse hc hcode
    (fun d a' s₁ hexec h₁ => ?_) fun e a' s₁ hexec _ => herr _ _ _ (by rintro ⟨⟩)
  obtain ⟨ct, hct, hanswer, hdec⟩ := TagSession.answer_full hP (ts.idle.counted 0) 0x00 d
  rw [hframing, Card.accepted, if_neg hends, hanswer]
  refine wp_verifyResponse h₁ (fun _ => herr _ _ _ (by rintro ⟨⟩)) fun s₂ h₂ =>
    ⟨fun _ => ?_, fun _ => herr _ _ _ (by rintro ⟨⟩)⟩
  exact hok d a' ct _ s₂ hexec hct hdec h₂ rfl

/-- `get_file_counters`: the answer is plain or encrypted. -/
theorem wp_getFileCounters (hP : P.Lawful) (fileNo : UInt8) (hlock : Locked P k a s w)
    (hI : I w) :
    (getFileCounters P fileNo).wp (Prog.Answers (Card.transmit P app)) I
      (Executed P app k (.getFileCounters fileNo) a fun d => ofLe (d.take 3))
      (NoMismatch (E := E)) s w := by
  have hfive : ∀ {d a'}, app.exec k (.getFileCounters fileNo) a = (.ok d, a') →
      d.length = fileCountersLen := fun hexec => app.length_exec hexec
  simp only [getFileCounters, Script.wp_bind]
  by_cases henc : app.countersEncrypted a fileNo = true
  · refine wp_sendMac_full hP hlock hI (by simp [macLen, maxApduBody]) rfl (fun _ => rfl) rfl
      (by rintro ⟨⟩) rfl
      (by rw [TagApp.framing, if_pos henc]) id ?_ fun _ _ _ h => h
    intro d a' ct ts s₁ hexec hct hdec h₁ hk
    have hsixteen : ct.length = 16 := by rw [hct, length_m2Pad, hfive hexec, fileCountersLen]
    rw [if_neg (by rw [hsixteen]; decide), if_pos hsixteen]
    simp only [Script.wp_bind, Script.wp_require, Script.wp_pure]
    refine wp_decryptResponse h₁ hdec fun s₂ h₂ => ⟨fun _ => ?_, fun _ => by rintro ⟨⟩⟩
    refine ⟨d, a', hexec, ?_, _, rfl, h₂, hk⟩
    have htake : (m2Pad d).take 3 = d.take 3 := by
      rw [m2Pad, List.take_append_of_le_length (by rw [hfive hexec]; decide)]
    rw [htake]
  · refine wp_sendMac hlock hI (by simp [macLen, maxApduBody]) rfl (fun _ => rfl) rfl
      (by rintro ⟨⟩) rfl
      (by rw [TagApp.framing, if_neg henc]) id ?_ (fun _ _ _ h => h.noMismatch)
      fun _ _ _ _ _ _ _ h => h
    intro d a' s' w' hexec hlock'
    rw [if_pos (hfive hexec), Script.wp_pure]
    exact ⟨d, a', hexec, rfl, hlock'⟩

/-- `read_sig_mac`. -/
theorem wp_readSigMac (hP : P.Lawful) (hlock : Locked P k a s w) (hI : I w) :
    (readSigMac P).wp (Prog.Answers (Card.transmit P app)) I
      (Executed P app k .readSig a (Bytes.fill signatureLen)) (Refused (E := E) app k .readSig a)
      s w := by
  obtain ⟨ts, rfl, hs, rfl⟩ := hlock
  simp only [readSigMac, Script.wp_bind, Script.wp_require]
  refine wp_computeCmdMac hs (by decide) fun s₁ h₁ => ?_
  have hcard : (Card.inSession P (S := S) ts a).handle P app (nativeApdu 0x3C 0x00 0x00
      ([0x00] ++ [] ++ (ts.mac P (S := S) 0x3C ts.cmdCtr ([0x00] ++ [])).toList)) = _ :=
    Card.handle_command (by decide) rfl (fun _ => rfl) (.mac [])
      (show AppCommand.parse 0x3C [0x00] [] = some .readSig from rfl)
  rcases hexec : app.exec (ts.idle.counted 0).keyNo .readSig a with ⟨e | d, a'⟩
  · rw [TagSession.react_error hexec] at hcard
    refine wp_transmit_card hI hcard ⟨fun hok => ?_, fun _ => ⟨e, a', hexec, rfl, rfl⟩⟩
    rcases hok with hok | hok
    · exact absurd hok e.status_ne.1
    · exact absurd hok e.status_ne.2.2
  · rw [TagSession.react_ok hexec nofun] at hcard
    refine wp_transmit_card hI hcard ⟨fun _ => ?_, fun hno => absurd ?_ hno⟩
    · refine wp_decryptFullFixed hP h₁.idle (app.length_exec hexec) (by decide) fun s₂ h₂ => ?_
      exact ⟨d, a', hexec, rfl, _, rfl, h₂, rfl⟩
    · have hsw := (ts.idle.counted 0).answer_status (P := P) (S := S) .full
        (app.successCode a .readSig) d
      simp only [TagApp.framing, hsw]
      by_cases hsig : app.signatureStatus a = true
      · exact .inr (by rw [TagApp.successCode, if_pos hsig]; rfl)
      · exact .inl (by rw [TagApp.successCode, if_neg hsig]; rfl)

/-! ### GetVersion -/

/-- `get_version_mac`: the three frames are one command. -/
theorem wp_getVersionMac (hlock : Locked P k a s w)
    (hI : ∀ a' ts, I (Card.inSession P (S := S) ts a')) :
    (getVersionMac P).wp (Prog.Answers (Card.transmit P app)) I
      (Executed P app k .getVersion a fun d =>
        ⟨Bytes.fill 7 (d.take 7), Bytes.fill 7 (slice d 7 7), Bytes.fill 14 (d.drop 14)⟩)
      (Refused (E := E) app k .getVersion a) s w := by
  obtain ⟨ts, rfl, hs, rfl⟩ := hlock
  simp only [getVersionMac, driveChain, requestIntermediatePart, Script.wp_bind,
    Script.wp_require, Script.wp_pure]
  refine wp_computeCmdMac hs (by decide) fun s₁ h₁ => ?_
  have hcard : (Card.inSession P (S := S) ts a).handle P app (nativeApdu 0x60 0x00 0x00
      ([] ++ [] ++ (ts.mac P (S := S) 0x60 ts.cmdCtr ([] ++ [])).toList)) = _ :=
    Card.handle_command (by decide) rfl (fun _ => rfl) (.mac [])
      (show AppCommand.parse 0x60 [] [] = some .getVersion from rfl)
  rcases hexec : app.exec (ts.idle.counted 0).keyNo .getVersion a with ⟨e | d, a'⟩
  · rw [TagSession.react_error hexec] at hcard
    exact wp_transmitExpecting_card (hI _ _) hcard (fun hok => absurd hok e.status_ne.2.1)
      fun _ => ⟨e, a', hexec, rfl, rfl⟩
  · have hlen : d.length = 28 := app.length_exec hexec
    rw [TagSession.react_version hexec] at hcard
    refine wp_transmitExpecting_card (hI _ _) hcard (fun _ => ?_) fun hno => absurd rfl hno
    refine wp_expectBytes (by rw [List.length_take, hlen]; rfl) ?_
    refine wp_transmitExpecting_card (hI _ _) Card.handle_continuation (fun _ => ?_) fun hno =>
      absurd rfl hno
    have hpart2 : (slice d 7 7).length = 7 := length_slice (by rw [hlen]; decide)
    refine wp_expectBytes hpart2 ?_
    refine wp_transmitExpecting_card (hI _ _) Card.handle_continuation (fun _ => ?_) fun hno =>
      absurd rfl hno
    have hpart1 : (d.take 7).length = 7 := by rw [List.length_take, hlen]; rfl
    let mac :=
      ((ts.idle.counted 0).accept.mac P (S := S) 0x00 (ts.idle.counted 0).accept.cmdCtr d).toList
    have hlast : ((d ++ mac).drop 14).length = 22 := by
      simp only [mac, List.length_drop, List.length_append, Bytes.length_toList, hlen]
    have hwhole : (Bytes.fill 7 (d.take 7)).toList ++ (Bytes.fill 7 (slice d 7 7)).toList ++
        (d ++ mac).drop 14 = d ++ mac := by
      rw [Bytes.toList_fill_of_length hpart1, Bytes.toList_fill_of_length hpart2, slice,
        ← List.take_add, List.drop_append_of_le_length (by rw [hlen]; decide), ← List.append_assoc,
        List.take_append_drop]
    refine ⟨fun _ => ?_, fun hno => absurd hlast hno⟩
    have hagree : Agrees P s₁ (ts.idle.counted 0) := h₁.idle
    have hverify : (verifyResponseMacAndAdvance P 0x00 (d ++ mac)).wp
        (Prog.Answers (Card.transmit P app)) I
        (fun verified s' w' => Executed P app ts.keyNo .getVersion a
          (fun d => (⟨Bytes.fill 7 (d.take 7), Bytes.fill 7 (slice d 7 7),
            Bytes.fill 14 (d.drop 14)⟩ : Version))
          ⟨Bytes.fill 7 (d.take 7), Bytes.fill 7 (slice d 7 7), Bytes.fill 14 (verified.drop 14)⟩
          s' w')
        (Refused (E := E) app ts.keyNo .getVersion a) s₁
        (Card.inSession P (S := S) (ts.idle.counted 0).accept a') :=
      wp_verifyResponse hagree (fun hbig => absurd hbig (by rw [hlen]; decide)) fun s₂ h₂ =>
        ⟨d, a', hexec, rfl, _, rfl, h₂, rfl⟩
    rw [← hwhole] at hverify
    exact hverify

/-! ### Commands with encrypted data -/

/-- `set_configuration` of one option: the answer has a MAC or is empty. -/
theorem wp_setConfigurationOne (hP : P.Lawful) (optionId : UInt8) {data : List UInt8}
    (hdata : data.length ≤ 200) (hlock : Locked P k a s w) (hI : I w) :
    (setConfigurationOne P optionId data).wp (Prog.Answers (Card.transmit P app)) I
      (Executed P app k (.setConfiguration optionId data) a fun _ => ())
      (Refused (E := E) app k (.setConfiguration optionId data) a) s w := by
  have hlen : [optionId].length + (m2Pad data).length + macLen ≤ maxApduBody := by
    rw [length_m2Pad, List.length_singleton, macLen, maxApduBody]
    omega
  simp only [setConfigurationOne, Script.wp_bind]
  refine wp_transmitFull hP hlock hI hlen rfl (fun _ => rfl) rfl (by rintro ⟨⟩) rfl ?_
    fun _ _ _ h => h
  intro d a' ts s₁ hexec h₁ hk
  obtain rfl : d = [] := List.length_eq_zero_iff.mp (app.length_exec hexec)
  have hends : ¬ AppCommand.EndsSession k (.setConfiguration optionId data) := id
  by_cases hsilent : app.configurationSilent a optionId = true
  · rw [TagApp.framing, if_pos hsilent, Card.accepted, if_neg hends,
      if_pos (show (ts.answer P (S := S) .silent 0x00 []).1.data = [] from rfl)]
    exact wp_advance ⟨[], a', hexec, rfl, _, rfl, (h₁.note _).accept, hk⟩
  · rw [TagApp.framing, if_neg hsilent, Card.accepted, if_neg hends, if_neg]
    · simp only [Script.wp_bind, Script.wp_pure]
      exact wp_verifyResponse h₁ (fun hbig => absurd hbig (by decide)) fun s₂ h₂ =>
        ⟨[], a', hexec, rfl, _, rfl, h₂, hk⟩
    · exact Bytes.toList_ne_nil _

/-- `set_configuration`: one command for each option. -/
theorem wp_setOptions (hP : P.Lawful) {options : List (UInt8 × List UInt8)}
    (hdata : ∀ o ∈ options, o.2.length ≤ 200) (hlock : Locked P k a s w) :
    (setOptions P options).wp (Prog.Answers (Card.transmit P app)) (fun _ => True)
      (fun _ s' w' => ∃ a', Locked P k a' s' w') (NoMismatch (E := E)) s w := by
  induction options generalizing a s w with
  | nil => exact Script.wp_pure.mpr ⟨a, hlock⟩
  | cons o options ih =>
      obtain ⟨optionId, data⟩ := o
      obtain ⟨hd, hrest⟩ := List.forall_mem_cons.mp hdata
      simp only [setOptions, Script.wp_bind]
      refine Script.wp_mono (wp_setConfigurationOne hP optionId hd hlock trivial) ?_
        fun _ _ _ h => h.noMismatch
      rintro _ s' w' ⟨_, a', -, -, hlock'⟩
      exact ih hrest hlock'

/-- `change_file_settings`. -/
theorem wp_changeFileSettings (hP : P.Lawful) (fileNo : UInt8) {settings : FileSettingsUpdate}
    {raw : List UInt8} (hraw : settings.encode maxChangeFileSettingsLen = .ok raw)
    (hlock : Locked P k a s w) (hI : I w) :
    (changeFileSettings P fileNo settings).wp (Prog.Answers (Card.transmit P app)) I
      (Executed P app k (.changeFileSettings fileNo raw) a fun _ => ())
      (Refused (E := E) app k (.changeFileSettings fileNo raw) a) s w := by
  have hcap : raw.length ≤ maxChangeFileSettingsLen := FileSettingsUpdate.length_encode_le hraw
  have hlen : [fileNo].length + (m2Pad raw).length + macLen ≤ maxApduBody := by
    rw [length_m2Pad, List.length_singleton, macLen, maxApduBody]
    rw [maxChangeFileSettingsLen] at hcap
    omega
  simp only [changeFileSettings, hraw, liftSettings, Script.wp_bind, Script.wp_pure]
  refine wp_transmitFull hP hlock hI hlen rfl (fun _ => rfl) rfl (by rintro ⟨⟩) rfl ?_
    fun _ _ _ h => h
  intro d a' ts s₁ hexec h₁ hk
  obtain rfl : d = [] := List.length_eq_zero_iff.mp (app.length_exec hexec)
  have hends : ¬ AppCommand.EndsSession k (.changeFileSettings fileNo raw) := id
  rw [TagApp.framing, Card.accepted, if_neg hends]
  exact wp_verifyResponse h₁ (fun hbig => absurd hbig (by decide)) fun s₂ h₂ =>
    ⟨[], a', hexec, rfl, _, rfl, h₂, hk⟩

/-- What the tag recovers from `change_key`. -/
def changeKeyField (newKey : Key) (newKeyVersion : UInt8) (oldKey : Key) : List UInt8 :=
  (newKey.xor oldKey).toList ++ [newKeyVersion] ++ crc32 newKey.toList

theorem changeKeyPlaintext_eq (newKey : Key) (newKeyVersion : UInt8) (oldKey : Key) :
    changeKeyPlaintext newKey newKeyVersion oldKey =
      m2Pad (changeKeyField newKey newKeyVersion oldKey) := by
  simp [changeKeyPlaintext, m2Pad, changeKeyField, crc32]

@[simp] theorem length_changeKeyField (newKey : Key) (newKeyVersion : UInt8) (oldKey : Key) :
    (changeKeyField newKey newKeyVersion oldKey).length = 21 := by
  simp [changeKeyField, crc32]

/-- `ChangeKey` is a command with encrypted data. -/
theorem wp_transmitKey_iff {env : (r : List UInt8) → Card A → Transmit E r → Card A → Prop}
    {Q : Unit → Authenticated S → Card A → Prop} {keyNo : KeyNumber} {field : List UInt8}
    {mact : Bool} :
    (transmitKey P keyNo (m2Pad field) mact).wp env I Q R s w ↔
      (transmitFull P 0xC4 [keyNo.asByte] field).wp env I (fun resp s' w' =>
        (if mact then do
            let _ ← verifyResponseMacAndAdvance P resp.sw2 resp.data
          else do
            Script.require (resp.data = []) (.unexpectedLength resp.data.length 0)
            advanceCounter : Cmd E (Authenticated S) Unit).wp env I Q R s' w') R s w := by
  simp only [transmitKey, transmitFull, Script.wp_bind]

/-- The bound on the field of `ChangeKey`. -/
theorem length_changeKey_body {keyNo : UInt8} {field : List UInt8} (h : field.length ≤ 200) :
    [keyNo].length + (m2Pad field).length + macLen ≤ maxApduBody := by
  rw [length_m2Pad, List.length_singleton, macLen, maxApduBody]
  omega

/-- `change_key` of a key the session does not use. -/
theorem wp_changeKey (hP : P.Lawful) {keyNo : NonMasterKeyNumber} (newKey : Key)
    (newKeyVersion : UInt8) (oldKey : Key) (hother : keyNo.toKeyNumber ≠ k)
    (hlock : Locked P k a s w) (hI : I w) :
    (changeKey P keyNo newKey newKeyVersion oldKey).wp (Prog.Answers (Card.transmit P app)) I
      (Executed P app k
        (.changeKey keyNo.toKeyNumber.asByte (changeKeyField newKey newKeyVersion oldKey)) a
        fun _ => ())
      (Refused (E := E) app k
        (.changeKey keyNo.toKeyNumber.asByte (changeKeyField newKey newKeyVersion oldKey)) a)
      s w := by
  have hne : keyNo.toKeyNumber.asByte ≠ k.asByte := fun h =>
    hother (KeyNumber.asByte_injective h)
  have hends : ¬ AppCommand.EndsSession k
    (.changeKey keyNo.toKeyNumber.asByte (changeKeyField newKey newKeyVersion oldKey)) := hne
  rw [changeKey, changeKeyPlaintext_eq, wp_transmitKey_iff]
  refine wp_transmitFull hP hlock hI (length_changeKey_body (by simp)) rfl (fun _ => rfl) rfl
    nofun rfl ?_ fun _ _ _ h => h
  intro d a' ts s₁ hexec h₁ hk
  obtain rfl : d = [] := List.length_eq_zero_iff.mp (app.length_exec hexec)
  rw [TagApp.framing, if_neg hne, Card.accepted, if_neg hends]
  simp only [if_true, Script.wp_bind, Script.wp_pure]
  exact wp_verifyResponse h₁ (fun hbig => absurd hbig (by decide)) fun s₂ h₂ =>
    ⟨[], a', hexec, rfl, _, rfl, h₂, hk⟩

/-- `change_key` of the key of the session: the tag ends the session and sends no MAC, which
the host does not accept. -/
theorem wp_changeKey_own (hP : P.Lawful) {keyNo : NonMasterKeyNumber} (newKey : Key)
    (newKeyVersion : UInt8) (oldKey : Key) (hown : keyNo.toKeyNumber = k)
    (hlock : Locked P k a s w) (hI : I w) :
    (changeKey P keyNo newKey newKeyVersion oldKey).wp (Prog.Answers (Card.transmit P app)) I
      (fun _ _ _ => False) (NoMismatch (E := E)) s w := by
  have heq : keyNo.toKeyNumber.asByte = k.asByte := by rw [hown]
  rw [changeKey, changeKeyPlaintext_eq, wp_transmitKey_iff]
  refine wp_transmitFull hP hlock hI (length_changeKey_body (by simp)) rfl (fun _ => rfl) rfl
    (by rintro ⟨⟩) rfl ?_ fun _ _ _ h => h.noMismatch
  intro d a' ts s₁ hexec h₁ hk
  rw [TagApp.framing, if_pos heq]
  simp only [if_true, verifyResponseMacAndAdvance, Script.wp_bind, Script.wp_require]
  refine ⟨fun hlong => absurd hlong ?_, fun _ => by rintro ⟨⟩⟩
  exact (by decide : ¬ macLen ≤ 0)

/-- What the tag recovers from `change_master_key`. -/
def changeMasterKeyField (newKey : Key) (newKeyVersion : UInt8) : List UInt8 :=
  newKey.toList ++ [newKeyVersion]

theorem changeMasterKeyPlaintext_eq (newKey : Key) (newKeyVersion : UInt8) :
    changeMasterKeyPlaintext newKey newKeyVersion =
      m2Pad (changeMasterKeyField newKey newKeyVersion) := by
  simp [changeMasterKeyPlaintext, m2Pad, changeMasterKeyField]

/-- `change_master_key` in a session with the master key, which it ends. -/
theorem wp_changeMasterKey (hP : P.Lawful) (newKey : Key) (newKeyVersion : UInt8)
    (hlock : Locked P .key0 a s w) (hI : I w) :
    (changeMasterKey P newKey newKeyVersion).wp (Prog.Answers (Card.transmit P app)) I
      (fun _ _ w' => ∃ d a', app.exec .key0
        (.changeKey KeyNumber.key0.asByte (changeMasterKeyField newKey newKeyVersion)) a =
          (.ok d, a') ∧ w' = ⟨.selected, a'⟩)
      (Refused (E := E) app .key0
        (.changeKey KeyNumber.key0.asByte (changeMasterKeyField newKey newKeyVersion)) a) s w := by
  have hends : AppCommand.EndsSession .key0
    (.changeKey KeyNumber.key0.asByte (changeMasterKeyField newKey newKeyVersion)) := rfl
  rw [changeMasterKey, changeMasterKeyPlaintext_eq, wp_transmitKey_iff]
  refine wp_transmitFull hP hlock hI (length_changeKey_body (by simp [changeMasterKeyField])) rfl
    (fun _ => rfl) rfl nofun rfl ?_ fun _ _ _ h => h
  intro d a' ts s₁ hexec h₁ hk
  rw [TagApp.framing, if_pos rfl, Card.accepted, if_pos hends, if_neg (by decide)]
  simp only [Script.wp_bind, Script.wp_require]
  exact ⟨fun _ => wp_advance ⟨d, a', hexec, rfl⟩, fun hno => absurd rfl hno⟩

end Ntag424
