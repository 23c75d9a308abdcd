import Mathlib.Tactic.Common
import Ntag424.Tag.Card

/-!
# Host and Tag Through the Secure Channel

When the state of the host agrees with the tag's side of the session, what the host protects
is what the tag accepts, and the other way round. The rules below give the weakest
preconditions of the secure-channel primitives, and of one exchange with the card, in terms of
that agreement.

## Main results

* `wp_computeCmdMac`, `wp_encryptCommand`, `wp_verifyResponse`, `wp_decryptResponse`: the
  primitives keep the agreement and never see a wrong MAC.
* `wp_transmitMac`: a protected command reaches the application.
* `wp_decryptFullFixed`: the host accepts an encrypted answer of the tag.
-/

namespace Ntag424

open Numerals SecureChannel

variable {P : Primitives} {E S A W : Type}

/-! ### Agreement -/

/-- The host's state agrees with the tag's side of a session: the same key, the same
transaction identifier, the same command counter modulo `2^16`, the same suite. -/
structure Agrees (P : Primitives) [KeyedSuite P S] (s : Authenticated S)
    (ts : TagSession (KeyedSuite.Keys P S)) : Prop where
  keyNumber : s.keyNumber = ts.keyNo
  ti : s.ti = ts.ti
  cmdCounter : s.cmdCounter = UInt16.ofNat ts.cmdCtr
  suite : s.suite = ts.suite P

section Keyed

variable [KeyedSuite P S] {s : Authenticated S} {ts : TagSession (KeyedSuite.Keys P S)}

/-- The agreement does not depend on the frame the tag expects. -/
theorem Agrees.awaiting (h : Agrees P s ts) (p : Pending) : Agrees P s (ts.awaiting p) :=
  ⟨h.keyNumber, h.ti, h.cmdCounter, h.suite⟩

theorem Agrees.idle (h : Agrees P s ts) : Agrees P s ts.idle := h.awaiting .none

/-- Recording a use of the counter keeps the agreement. -/
theorem Agrees.note (h : Agrees P s ts) (u : CounterUse) : Agrees P (s.note u) ts :=
  ⟨h.keyNumber, h.ti, h.cmdCounter, h.suite⟩

/-- Both sides count an accepted command. -/
theorem Agrees.accept (h : Agrees P s ts) : Agrees P s.advanceCounter ts.accept := by
  refine ⟨h.keyNumber, h.ti, ?_, h.suite⟩
  simp only [Authenticated.advanceCounter, h.cmdCounter, TagSession.accept]
  exact (UInt16.ofNat_add _ _).symm

/-- Both sides count encrypted blocks. -/
theorem Agrees.counted (h : Agrees P s ts) (n : ℕ) :
    Agrees P (s.withSuite (KeyedSuite.ofKeys (P := P) ts.keys (ts.encCtr + n))) (ts.counted n) :=
  ⟨h.keyNumber, h.ti, h.cmdCounter, rfl⟩

namespace TagSession

/-- The MAC of a session does not depend on its block count. -/
@[simp] theorem mac_counted (ts : TagSession (KeyedSuite.Keys P S)) (n : ℕ) (pre : UInt8)
    (ctr : ℕ) (data : List UInt8) :
    (ts.counted n).mac P (S := S) pre ctr data = ts.mac P (S := S) pre ctr data := by
  simp only [mac, suite, counted]
  rw [KeyedSuite.mac_ofKeys ts.keys (ts.encCtr + n), KeyedSuite.mac_ofKeys ts.keys ts.encCtr]

@[simp] theorem mac_idle (ts : TagSession (KeyedSuite.Keys P S)) (pre : UInt8) (ctr : ℕ)
    (data : List UInt8) :
    ts.idle.mac P (S := S) pre ctr data = ts.mac P (S := S) pre ctr data := rfl

/-- **The host computes its MACs over the bytes the tag does**: the counter of the tag is written
as the 16-bit counter of the host. -/
theorem mac_eq (ts : TagSession (KeyedSuite.Keys P S)) (pre : UInt8) (ctr : ℕ)
    (data : List UInt8) : ts.mac P (S := S) pre ctr data =
      SessionSuite.mac P (ts.suite P : S) (macInput pre (UInt16.ofNat ctr) ts.ti data []) := by
  have hctr : leBytes 2 (UInt16.ofNat ctr).toNat = leBytes 2 ctr := by
    rw [leBytes_eq_iff, UInt16.toNat_ofNat']
    omega
  rw [mac, macInput, hctr, List.append_nil]
  rfl

/-- The tag accepts its own MAC. -/
theorem verify_mac (ts : TagSession (KeyedSuite.Keys P S)) (ins : UInt8) (m : List UInt8) :
    ts.verify P (S := S) ins (m ++ (ts.mac P (S := S) ins ts.cmdCtr m).toList) = .ok m := by
  have hlen : (m ++ (ts.mac P (S := S) ins ts.cmdCtr m).toList).length - macLen = m.length := by
    rw [List.length_append, Bytes.length_toList, macLen]
    omega
  simp only [verify, hlen, List.take_left', List.drop_left', if_true]

end TagSession

/-! ### The primitives of the host -/

variable {env : (r : List UInt8) → W → Transmit E r → W → Prop} {I : W → Prop} {w : W}
  {R : Fault (SessionError E) → Authenticated S → W → Prop}

/-- A body of the expected length. -/
theorem wp_expectBytes {σ : Type} {n : ℕ} {Q : Bytes n → σ → W → Prop}
    {R : Fault (SessionError E) → σ → W → Prop} {t : σ} {data : List UInt8}
    (h : data.length = n) (hQ : Q (Bytes.fill n data) t w) :
    (expectBytes n data).wp env I Q R t w := by
  have hbytes : Bytes.ofList? n data = some (Bytes.fill n data) :=
    Bytes.ofList?_eq_some_iff.mpr (Bytes.toList_fill_of_length h).symm
  simp only [expectBytes, hbytes, Script.wp_pure]
  exact hQ

/-- An exchange is counted without a response MAC. -/
theorem wp_advance {Q : Unit → Authenticated S → W → Prop}
    (hQ : Q () (s.note .unprotected).advanceCounter w) : advanceCounter.wp env I Q R s w := by
  simp only [advanceCounter, advance, SecureChannel.note, SecureChannel.state, Script.wp_bind,
    Script.wp_get, Script.wp_set]
  exact hQ

/-- The host computes the MAC the tag expects. -/
theorem wp_computeCmdMac {Q : Bytes 8 → Authenticated S → W → Prop} {ins : UInt8}
    {header data : List UInt8} (h : Agrees P s ts)
    (hlen : header.length + data.length ≤ maxApduBody)
    (hQ : ∀ s', Agrees P s' ts → Q (ts.mac P (S := S) ins ts.cmdCtr (header ++ data)) s' w) :
    (computeCmdMac P ins header data).wp env I Q R s w := by
  have hinput : macInput ins s.cmdCounter s.ti header data =
      macInput ins (UInt16.ofNat ts.cmdCtr) ts.ti (header ++ data) [] := by
    simp only [macInput, h.cmdCounter, h.ti, List.append_nil, List.append_assoc,
      List.cons_append]
  have hmac : SessionSuite.mac P s.suite (macInput ins s.cmdCounter s.ti header data) =
      ts.mac P (S := S) ins ts.cmdCtr (header ++ data) := by
    rw [TagSession.mac_eq, hinput, h.suite]
  have hcap : (macInput ins s.cmdCounter s.ti header data).length ≤ macInputCap := by
    simp only [macInput, List.cons_append, List.length_cons, List.length_append, length_leBytes,
      Bytes.length_toList, macInputCap]
    omega
  simp only [computeCmdMac, SecureChannel.state, SecureChannel.note, Script.wp_bind,
    Script.wp_get, Script.wp_assert, Script.wp_set, Script.wp_pure]
  refine ⟨fun _ => ?_, fun hno => absurd hcap hno⟩
  rw [hmac]
  exact hQ _ (h.note _)

/-- The host encrypts what the tag decrypts. -/
theorem wp_encryptCommand (hP : P.Lawful) {Q : List UInt8 → Authenticated S → W → Prop}
    {data : List UInt8} (h : Agrees P s ts)
    (hQ : ∀ ct s', ct.length = (m2Pad data).length →
      ts.decrypt P (S := S) ct = (.ok data, ts.counted (data.length / 16 + 1)) →
      Agrees P s' (ts.counted (data.length / 16 + 1)) → Q ct s' w) :
    (encryptCommand P (m2Pad data)).wp env I Q R s w := by
  have hblocks : (m2Pad data).length / 16 = data.length / 16 + 1 := by
    rw [length_m2Pad, Nat.mul_div_cancel_left _ (by omega)]
  obtain ⟨ct, henc, hlen, hdec⟩ := KeyedSuite.decrypt_encrypt (S := S) hP ts.keys ts.encCtr
    .command ts.ti (UInt16.ofNat ts.cmdCtr) (m2Pad data) (m2Pad_ne_nil data)
    (length_m2Pad_mod data)
  have htag : ts.decrypt P (S := S) ct = (.ok data, ts.counted (data.length / 16 + 1)) := by
    simp only [TagSession.decrypt, TagSession.suite, hdec, hlen, hblocks, stripM2Padding_m2Pad,
      take_m2Pad]
  simp only [encryptCommand, SecureChannel.state, SecureChannel.note, Script.wp_bind,
    Script.wp_get]
  rw [h.suite, h.ti, h.cmdCounter, TagSession.suite, henc, hblocks]
  simp only [Script.wp_bind, Script.wp_get, Script.wp_set, Script.wp_pure]
  exact hQ ct _ hlen htag ((h.counted _).note _)

/-- The host accepts an answer with the MAC of the tag. Only a body that no response can hold
makes it panic. -/
theorem wp_verifyResponse {Q : List UInt8 → Authenticated S → W → Prop} {rc : UInt8}
    {data : List UInt8} (h : Agrees P s ts)
    (hpanic : maxApduBody < data.length → R .panicked s w)
    (hQ : ∀ s', Agrees P s' ts.accept → Q data s' w) :
    (verifyResponseMacAndAdvance P rc (ts.accept.protect P (S := S) rc data).data).wp
      env I Q R s w := by
  have hctr : s.cmdCounter + 1 = UInt16.ofNat ts.accept.cmdCtr := by
    rw [h.cmdCounter]
    exact (UInt16.ofNat_add _ _).symm
  have hmac : SessionSuite.mac P s.suite (macInput rc (s.cmdCounter + 1) s.ti data []) =
      ts.accept.mac P (S := S) rc ts.accept.cmdCtr data := by
    rw [TagSession.mac_eq, h.suite, hctr, h.ti]
    rfl
  have hlen : (ts.accept.protect P (S := S) rc data).data.length - macLen = data.length := by
    simp only [TagSession.protect, List.length_append, Bytes.length_toList, macLen]
    omega
  have htake : (ts.accept.protect P (S := S) rc data).data.take data.length = data :=
    List.take_left' rfl
  have hdrop : (ts.accept.protect P (S := S) rc data).data.drop data.length =
      (ts.accept.mac P (S := S) rc ts.accept.cmdCtr data).toList := List.drop_left' rfl
  simp only [verifyResponseMacAndAdvance, SecureChannel.state, SecureChannel.note, advance,
    Script.wp_bind, Script.wp_get, Script.wp_assert, Script.wp_set, Script.wp_pure,
    Script.wp_require, hlen, htake, hdrop, hmac]
  refine ⟨fun _ => ⟨fun _ => ⟨fun _ => ?_, fun hne => absurd trivial hne⟩, fun hbig => hpanic ?_⟩,
    fun hshort => absurd ?_ hshort⟩
  · exact hQ _ (h.note _).accept
  · simp only [macInput, List.cons_append, List.length_cons, List.length_append, length_leBytes,
      Bytes.length_toList, macInputCap, List.length_nil] at hbig
    omega
  · simp only [TagSession.protect, List.length_append, Bytes.length_toList, macLen]
    omega

/-- A response that the tag encrypts. -/
theorem TagSession.answer_full (hP : P.Lawful) (ts : TagSession (KeyedSuite.Keys P S))
    (rc : UInt8) (data : List UInt8) : ∃ ct, ct.length = (m2Pad data).length ∧
      ts.answer P (S := S) .full rc data =
        (ts.accept.protect P (S := S) rc ct, ts.accept.counted (data.length / 16 + 1)) ∧
      SessionSuite.decrypt P (ts.accept.suite P : S) .response ts.ti
          (UInt16.ofNat ts.accept.cmdCtr) ct =
        some (m2Pad data, (ts.accept.counted (data.length / 16 + 1)).suite P) := by
  have hblocks : (m2Pad data).length / 16 = data.length / 16 + 1 := by
    rw [length_m2Pad, Nat.mul_div_cancel_left _ (by omega)]
  obtain ⟨ct, henc, hlen, hdec⟩ := KeyedSuite.decrypt_encrypt (S := S) hP ts.keys ts.encCtr
    .response ts.ti (UInt16.ofNat ts.accept.cmdCtr) (m2Pad data) (m2Pad_ne_nil data)
    (length_m2Pad_mod data)
  rw [hblocks] at henc hdec
  refine ⟨ct, hlen, ?_, hdec⟩
  have henc' : SessionSuite.encrypt P (ts.accept.suite P : S) .response ts.accept.ti
      (UInt16.ofNat ts.accept.cmdCtr) (m2Pad data) =
        some (ct, KeyedSuite.ofKeys (P := P) ts.keys (ts.encCtr + (data.length / 16 + 1))) := henc
  simp only [TagSession.answer, henc', Option.elim_some, hlen, hblocks]

/-- The host decrypts what the tag encrypted. -/
theorem wp_decryptResponse {Q : List UInt8 → Authenticated S → W → Prop} {ct buf : List UInt8}
    {n : ℕ} (h : Agrees P s ts)
    (hdec : SessionSuite.decrypt P (ts.suite P : S) .response ts.ti (UInt16.ofNat ts.cmdCtr) ct =
      some (buf, (ts.counted n).suite P))
    (hQ : ∀ s', Agrees P s' (ts.counted n) → Q buf s' w) :
    (decryptResponse P ct).wp env I Q R s w := by
  simp only [decryptResponse, SecureChannel.state, SecureChannel.note, Script.wp_bind,
    Script.wp_get]
  rw [h.suite, h.ti, h.cmdCounter, hdec]
  simp only [Script.wp_bind, Script.wp_get, Script.wp_set, Script.wp_pure]
  exact hQ _ ((h.counted n).note _)

/-! ### What the tag receives -/

/-- How the data of a command reaches the application: as it is, or decrypted, at the cost of
a number of blocks. -/
inductive Delivers (P : Primitives) {S : Type} [KeyedSuite P S]
    (ts : TagSession (KeyedSuite.Keys P S)) :
    CommMode → List UInt8 → List UInt8 → ℕ → Prop where
  | mac (data : List UInt8) : Delivers P ts .mac data data 0
  | full {ct data : List UInt8} {n : ℕ} :
      ts.decrypt P (S := S) ct = (.ok data, ts.counted n) → Delivers P ts .full ct data n

/-- A protected command arrives at the tag. -/
theorem TagSession.receive_mac {mode : CommMode} (ins : UInt8) (header : List UInt8)
    {data plain : List UInt8} {n : ℕ} (hd : Delivers P (S := S) ts mode data plain n) :
    ts.receive P (S := S) ins header.length mode
        (header ++ data ++ (ts.mac P (S := S) ins ts.cmdCtr (header ++ data)).toList) =
      (.ok (header, plain), ts.counted n) := by
  cases hd with
  | mac => simp only [receive, verify_mac, Except.map, List.take_left', List.drop_left',
      counted, Nat.add_zero]
  | full hdec => simp only [receive, verify_mac, List.take_left', List.drop_left', hdec, Except.map]

end Keyed

/-! ### One exchange with the card -/

section Linked

variable [LinkedSuite P S] {s : Authenticated S} {ts : TagSession (KeyedSuite.Keys P S)}
  {app : TagApp A} {a : A} {I : Card A → Prop}
  {R : Fault (SessionError E) → Authenticated S → Card A → Prop}

/-- A card in a session. -/
def Card.inSession (P : Primitives) {S A : Type} [LinkedSuite P S]
    (ts : TagSession (KeyedSuite.Keys P S)) (a : A) : Card A :=
  ⟨LinkedSuite.channel (P := P) (S := S) ts, a⟩

/-- The card after the reply of a session. -/
def Card.after (P : Primitives) {S A : Type} [LinkedSuite P S]
    (r : TagSession.Reply (KeyedSuite.Keys P S) A) : Card A :=
  ⟨r.2.1.elim .selected (LinkedSuite.channel (P := P) (S := S)), r.2.2⟩

/-- An APDU to the card. -/
theorem wp_transmit_card {σ : Type} {Q : Response → σ → Card A → Prop}
    {R : Fault (SessionError E) → σ → Card A → Prop} {t : σ} {apdu : List UInt8}
    {card card' : Card A} {resp : Response} (hI : I card)
    (hcard : card.handle P app apdu = (resp, card')) (hQ : Q resp t card') :
    (transmit apdu).wp (Prog.Answers (Card.transmit P app)) I Q R t card := by
  simp only [Ntag424.transmit, Script.wp_bind, Script.wp_request, Prog.Answers, Card.transmit,
    hcard]
  refine ⟨hI, ?_⟩
  rintro _ _ ⟨⟩
  exact Script.wp_pure.mpr hQ

/-- An APDU to the card, with a required status. -/
theorem wp_transmitExpecting_card {σ : Type} {Q : Response → σ → Card A → Prop}
    {R : Fault (SessionError E) → σ → Card A → Prop} {t : σ} {status : ResponseStatus}
    {apdu : List UInt8} {card card' : Card A} {resp : Response} (hI : I card)
    (hcard : card.handle P app apdu = (resp, card'))
    (hok : desfireStatus resp.sw1 resp.sw2 = status → Q resp t card')
    (herr : desfireStatus resp.sw1 resp.sw2 ≠ status →
      R (.error (.errorResponse (desfireStatus resp.sw1 resp.sw2))) t card') :
    (transmitExpecting status apdu).wp (Prog.Answers (Card.transmit P app)) I Q R t card := by
  simp only [transmitExpecting, Script.wp_bind, Script.wp_require, Script.wp_pure]
  exact wp_transmit_card hI hcard ⟨hok, herr⟩

/-- A native APDU reaches the session of the card. -/
theorem Card.handle_inSession {ins : UInt8} {body : List UInt8} (hins : ins ≠ 0x71)
    (hbody : body.length ≤ maxApduBody) :
    (Card.inSession P (S := S) ts a).handle P app (nativeApdu ins 0x00 0x00 body) =
      ((ts.handle P (S := S) app ins body a).1,
        Card.after P (S := S) (ts.handle P (S := S) app ins body a)) := by
  rw [Card.handle_nativeApdu P app (by rw [maxApduBody] at hbody; omega), Card.inSession,
    LinkedSuite.native_channel app body ts a hins]
  rfl

/-- A protected command reaches the application. -/
theorem TagSession.handle_command {mode : CommMode} {ins : UInt8}
    {header data plain : List UInt8} {n : ℕ} {c : AppCommand}
    (hhl : AppCommand.headerLength ins = some header.length)
    (hmode : app.commandMode a ts.keyNo ins
      (header ++ data ++ (ts.mac P (S := S) ins ts.cmdCtr (header ++ data)).toList) = mode)
    (hd : Delivers P (S := S) ts.idle mode data plain n)
    (hparse : AppCommand.parse ins header plain = some c) :
    ts.handle P (S := S) app ins
        (header ++ data ++ (ts.mac P (S := S) ins ts.cmdCtr (header ++ data)).toList) a =
      react P (S := S) app c (ts.idle.counted n) a := by
  have hrec := TagSession.receive_mac ins header hd
  rw [mac_idle, show ts.idle.cmdCtr = ts.cmdCtr from rfl] at hrec
  rw [handle_of_headerLength hhl]
  simp only [command, hhl, show ts.idle.keyNo = ts.keyNo from rfl, hmode, hrec, hparse]

/-- The next frame of a chain reaches the session of the card. -/
theorem Card.handle_continuation :
    (Card.inSession P (S := S) ts a).handle P app continuationApdu =
      ((ts.continuation P (S := S) [] a).1,
        Card.after P (S := S) (ts.continuation P (S := S) [] a)) := by
  have hhandle : (Card.inSession P (S := S) ts a).handle P app continuationApdu =
      (Card.inSession P (S := S) ts a).native P app 0xAF [] := rfl
  rw [hhandle, Card.inSession, LinkedSuite.native_channel app [] ts a (by decide)]
  rfl

/-- The reaction of a card in a session to a protected command. -/
theorem Card.handle_command {mode : CommMode} {ins : UInt8} {header data plain : List UInt8}
    {n : ℕ} {c : AppCommand} (hlen : header.length + data.length + macLen ≤ maxApduBody)
    (hhl : AppCommand.headerLength ins = some header.length)
    (hmode : ∀ rest, app.commandMode a ts.keyNo ins (header ++ rest) = mode)
    (hd : Delivers P (S := S) ts.idle mode data plain n)
    (hparse : AppCommand.parse ins header plain = some c) :
    (Card.inSession P (S := S) ts a).handle P app (nativeApdu ins 0x00 0x00
        (header ++ data ++ (ts.mac P (S := S) ins ts.cmdCtr (header ++ data)).toList)) =
      ((TagSession.react P (S := S) app c (ts.idle.counted n) a).1,
        Card.after P (S := S) (TagSession.react P (S := S) app c (ts.idle.counted n) a)) := by
  have h71 : ins ≠ 0x71 := AppCommand.ne_of_headerLength hhl rfl
  rw [Card.handle_inSession h71, TagSession.handle_command hhl _ hd hparse]
  · rw [List.append_assoc, hmode]
  · simp only [List.length_append, Bytes.length_toList]
    exact hlen

/-- An answer carries the status of the command. -/
theorem TagSession.answer_status (ts : TagSession (KeyedSuite.Keys P S)) (framing : Framing)
    (rc : UInt8) (d : List UInt8) : (ts.answer P (S := S) framing rc d).1.sw1 = 0x91 ∧
      (ts.answer P (S := S) framing rc d).1.sw2 = rc := by
  cases framing <;> exact ⟨rfl, rfl⟩

theorem TagSession.react_error {c : AppCommand} {e : TagError} {a' : A}
    (h : app.exec ts.keyNo c a = (.error e, a')) :
    react P (S := S) app c ts a = (e.response, some ts.idle, a') := by
  simp only [react, h, refuse]

theorem TagSession.react_version {d : List UInt8} {a' : A}
    (h : app.exec ts.keyNo .getVersion a = (.ok d, a')) :
    react P (S := S) app .getVersion ts a =
      (⟨d.take 7, 0x91, 0xAF⟩, some (ts.awaiting (.versionPart2 d)), a') := by
  simp only [react, h, if_true]

theorem TagSession.react_ok {c : AppCommand} {d : List UInt8} {a' : A}
    (h : app.exec ts.keyNo c a = (.ok d, a')) (hc : c ≠ .getVersion) :
    react P (S := S) app c ts a =
      ((ts.answer P (S := S) (app.framing a ts.keyNo c) (app.successCode a c) d).1,
        if c.EndsSession ts.keyNo then none
        else some (ts.answer P (S := S) (app.framing a ts.keyNo c) (app.successCode a c) d).2,
        a') := by
  simp only [react, h, if_neg hc]

/-- The card after a command that was accepted. -/
def Card.accepted (P : Primitives) {S A : Type} [LinkedSuite P S] (k : KeyNumber)
    (c : AppCommand) (ts : TagSession (KeyedSuite.Keys P S)) (a : A) : Card A :=
  if c.EndsSession k then ⟨.selected, a⟩ else Card.inSession P (S := S) ts a

theorem Card.after_accepted {k : KeyNumber} {c : AppCommand} {resp : Response} :
    Card.after P (S := S) (resp, if c.EndsSession k then none else some ts, a) =
      Card.accepted P (S := S) k c ts a := by
  by_cases hends : c.EndsSession k
  · simp only [accepted, after, if_pos hends, Option.elim_none]
  · simp only [accepted, after, if_neg hends, Option.elim_some, inSession]

/-- A protected command other than `GetVersion` is transmitted and answered. -/
theorem wp_transmitMac {Q : Response → Authenticated S → Card A → Prop} {mode : CommMode}
    {ins : UInt8} {header data plain : List UInt8} {n : ℕ} {c : AppCommand}
    (h : Agrees P s (ts.idle.counted n)) (hI : I (Card.inSession P (S := S) ts a))
    (hlen : header.length + data.length + macLen ≤ maxApduBody)
    (hhl : AppCommand.headerLength ins = some header.length)
    (hmode : ∀ rest, app.commandMode a ts.keyNo ins (header ++ rest) = mode)
    (hd : Delivers P (S := S) ts.idle mode data plain n)
    (hparse : AppCommand.parse ins header plain = some c) (hc : c ≠ .getVersion)
    (hcode : app.successCode a c = 0x00)
    (hok : ∀ d a' s', app.exec ts.keyNo c a = (.ok d, a') → Agrees P s' (ts.idle.counted n) →
      Q ((ts.idle.counted n).answer P (S := S) (app.framing a ts.keyNo c) 0x00 d).1 s'
        (Card.accepted P (S := S) ts.keyNo c
          ((ts.idle.counted n).answer P (S := S) (app.framing a ts.keyNo c) 0x00 d).2 a'))
    (herr : ∀ e a' s', app.exec ts.keyNo c a = (.error e, a') →
      Agrees P s' (ts.idle.counted n) →
      R (.error (.errorResponse e.status)) s'
        (Card.inSession P (S := S) (ts.idle.counted n).idle a')) :
    (transmitMac P ins 0x00 0x00 header data).wp (Prog.Answers (Card.transmit P app)) I Q R s
      (Card.inSession P (S := S) ts a) := by
  have hk : (ts.idle.counted n).keyNo = ts.keyNo := rfl
  have hcard := Card.handle_command hlen hhl hmode hd hparse
  rw [transmitMac, Script.wp_bind]
  refine wp_computeCmdMac h (by rw [macLen] at hlen; omega) fun s' hs' => ?_
  rw [TagSession.mac_counted, TagSession.mac_idle]
  rcases hexec : app.exec ts.keyNo c a with ⟨e | d, a'⟩
  · rw [TagSession.react_error (hk ▸ hexec)] at hcard
    exact wp_transmitExpecting_card hI hcard (fun hok => absurd hok e.status_ne.1)
      fun _ => herr e a' s' hexec hs'
  · rw [TagSession.react_ok (hk ▸ hexec) hc, hk, hcode, Card.after_accepted] at hcard
    have hsw := (ts.idle.counted n).answer_status (P := P) (S := S)
      (app.framing a ts.keyNo c) 0x00 d
    refine wp_transmitExpecting_card hI hcard (fun _ => hok d a' s' hexec hs') fun hno =>
      absurd ?_ hno
    simp only [hsw]
    rfl

/-- The host reads an encrypted answer of fixed length. -/
theorem wp_decryptFullFixed (hP : P.Lawful) {p : ℕ} {Q : Bytes p → Authenticated S → Card A → Prop}
    {env : (r : List UInt8) → Card A → Transmit E r → Card A → Prop} {w : Card A} {rc : UInt8}
    {d : List UInt8} (h : Agrees P s ts) (hd : d.length = p) (hp : p < 240)
    (hQ : ∀ s', Agrees P s' (ts.answer P (S := S) .full rc d).2 → Q (Bytes.fill p d) s' w) :
    (decryptFullFixed P (16 * (p / 16 + 1)) p rc (ts.answer P (S := S) .full rc d).1.data).wp
      env I Q R s w := by
  obtain ⟨ct, hlen, hanswer, hdec⟩ := TagSession.answer_full hP ts rc d
  rw [length_m2Pad, hd] at hlen
  rw [hanswer] at hQ ⊢
  simp only [decryptFullFixed, Script.wp_bind, Script.wp_require, Script.wp_pure]
  refine wp_verifyResponse h (fun hbig => ?_) fun s₁ h₁ => ⟨fun _ => ?_, fun hno => absurd hlen hno⟩
  · rw [hlen, maxApduBody] at hbig
    omega
  refine wp_decryptResponse h₁ hdec fun s₂ h₂ => ⟨fun _ => ?_, fun hno => absurd ?_ hno⟩
  · have hfill : Bytes.fill p (m2Pad d) = Bytes.fill p d := by
      rw [← Bytes.fill_take (m2Pad d), ← hd, take_m2Pad]
    rw [hfill]
    exact hQ s₂ h₂
  · rw [stripM2Padding_m2Pad, hd]

end Linked

end Ntag424
