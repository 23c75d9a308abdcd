import Mathlib.Tactic.Common
import Ntag424.Session.Headers
import Ntag424.Standard

/-!
# Where the Command Counter Advances

The counter of a session after a secure-messaging command, read off the transcript of the
command: it has advanced by one for each accepted exchange, whatever the transport answered and
however the command ended.

An exchange is accepted when its status is the one of success and its response MAC is verified
and right; the commands that are also answered without a MAC accept an empty body. The frames of
a chain form one exchange.

## Main results

* `wp_verifyResponse_tallied`: what the verification of a response does to the tally.
* `SecureCommand.wp_perform_tallied`: every command keeps the tally.
* `SecureCommand.cmdCounter_eq_add_accepted`: the counter after a command.
-/

namespace Ntag424

open SecureChannel

/-! ### Commands -/

/-- The secure-messaging commands of the command layer. -/
inductive SecureCommand where
  | getVersion
  | changeKey (keyNo : NonMasterKeyNumber) (newKey : Key) (newKeyVersion : UInt8) (oldKey : Key)
  | changeMasterKey (newKey : Key) (newKeyVersion : UInt8)
  | getCardUid
  | getTtStatus
  | readSig
  | getKeyVersion (keyNo : KeyNumber)
  | getFileSettings (fileNo : UInt8)
  | getFileCounters (fileNo : UInt8)
  | setConfiguration (configuration : Configuration)
  | changeFileSettings (fileNo : UInt8) (settings : FileSettingsUpdate)
  | readDataMac (fileNo : UInt8) (offset length : UInt32) (buf : List UInt8)
  | readDataFull (fileNo : UInt8) (offset length : UInt32) (buf : List UInt8)
  | writeDataMac (fileNo : UInt8) (offset : UInt32) (data : List UInt8)
  | writeDataFull (fileNo : UInt8) (offset : UInt32) (data : List UInt8)

namespace SecureCommand

variable {E S : Type} (P : Primitives) [SessionSuite P S]

/-- Run the command; its value is dropped. -/
def perform : SecureCommand → Cmd E (Authenticated S) Unit
  | getVersion => do let _ ← getVersionMac P
  | changeKey keyNo newKey newKeyVersion oldKey =>
      Ntag424.changeKey P keyNo newKey newKeyVersion oldKey
  | changeMasterKey newKey newKeyVersion => Ntag424.changeMasterKey P newKey newKeyVersion
  | getCardUid => do let _ ← Ntag424.getCardUid P
  | getTtStatus => do let _ ← Ntag424.getTtStatus P
  | readSig => do let _ ← readSigMac P
  | getKeyVersion keyNo => do let _ ← Ntag424.getKeyVersion P keyNo
  | getFileSettings fileNo => do let _ ← getFileSettingsMac P fileNo
  | getFileCounters fileNo => do let _ ← Ntag424.getFileCounters P fileNo
  | setConfiguration configuration => Ntag424.setConfiguration P configuration
  | changeFileSettings fileNo settings => Ntag424.changeFileSettings P fileNo settings
  | readDataMac fileNo offset length buf => do
      let _ ← Ntag424.readDataMac P fileNo offset length buf
  | readDataFull fileNo offset length buf => do
      let _ ← Ntag424.readDataFull P fileNo offset length buf
  | writeDataMac fileNo offset data => Ntag424.writeDataMac P fileNo offset data
  | writeDataFull fileNo offset data => Ntag424.writeDataFull P fileNo offset data

/-- The status of success: `91 00`, and for the originality signature also `91 90`. -/
def succeeds (status : ResponseStatus) : SecureCommand → Bool
  | readSig => decide (status = .operationOk ∨ status = .unknown 0x9190)
  | _ => decide (status = .operationOk)

/-- The command verifies the response MAC of an exchange: `GetVersion` only when the answer is
complete, and the master-key change never, because it ends the session. -/
def checksMac (frames : List UInt8) (resp : Response) : SecureCommand → Bool
  | getVersion => decide (frames.length = 14 ∧ resp.data.length = 22)
  | changeMasterKey _ _ => false
  | _ => true

/-- The command accepts an answer without a MAC. -/
def allowsEmpty : SecureCommand → Bool
  | setConfiguration _ | changeMasterKey _ _ => true
  | _ => false

theorem succeeds_of_ok (cmd : SecureCommand) : cmd.succeeds .operationOk = true := by
  cases cmd <;> rfl

/-- For every other command, success is `91 00`. -/
theorem eq_ok_of_succeeds {cmd : SecureCommand} (hcmd : cmd ≠ .readSig) {status : ResponseStatus}
    (h : cmd.succeeds status = true) : status = .operationOk := by
  cases cmd with
  | readSig => exact absurd rfl hcmd
  | _ => exact decide_eq_true_iff.mp h

end SecureCommand

/-! ### Tallies -/

section Tally

variable {E S : Type} (P : Primitives) [SessionSuite P S] (cmd : SecureCommand)
  (s : Authenticated S)

/-- The body ends in the response MAC of the exchange that began at the counter `ctr`. -/
def MacVerifies (ctr : UInt16) (rc : UInt8) (body : List UInt8) : Prop :=
  macLen ≤ body.length ∧
    (SessionSuite.mac P s.suite
      (macInput rc (ctr + 1) s.ti (body.take (body.length - macLen)) [])).toList =
        body.drop (body.length - macLen)

instance (ctr : UInt16) (rc : UInt8) (body : List UInt8) :
    Decidable (MacVerifies P s ctr rc body) :=
  inferInstanceAs (Decidable (_ ∧ _))

/-- The number of accepted exchanges, and the data of the frames of the exchange in progress. -/
structure Tally where
  accepted : ℕ
  frames : List UInt8

/-- The command, begun in the session `s`, accepts a response: its status is the one of success,
and its MAC is verified and right, or the body is empty where no MAC is needed. -/
def Accepts (t : Tally) (resp : Response) : Prop :=
  cmd.succeeds (desfireStatus resp.sw1 resp.sw2) = true ∧
    (cmd.checksMac t.frames resp = true ∧
        MacVerifies P s (s.cmdCounter + UInt16.ofNat t.accepted) resp.sw2 (t.frames ++ resp.data) ∨
      cmd.allowsEmpty = true ∧ resp.data = [])

instance (t : Tally) (resp : Response) : Decidable (Accepts P cmd s t resp) :=
  inferInstanceAs (Decidable (_ ∧ (_ ∨ _)))

/-- One more answer: a frame with the status `91 AF` continues the exchange. -/
def Tally.step (t : Tally) (entry : List UInt8 × Except E Response) : Tally :=
  match entry.2 with
  | .error _ => { t with frames := [] }
  | .ok resp =>
      if desfireStatus resp.sw1 resp.sw2 = .additionalFrame then
        { t with frames := t.frames ++ resp.data }
      else if Accepts P cmd s t resp then ⟨t.accepted + 1, []⟩
      else { t with frames := [] }

/-- The tally of a transcript of the command, begun in the session `s`. -/
def tally (w : Transcript E) : Tally := w.foldl (Tally.step P cmd s) ⟨0, []⟩

theorem tally_concat (w : Transcript E) (entry : List UInt8 × Except E Response) :
    tally P cmd s (w ++ [entry]) = (tally P cmd s w).step P cmd s entry := by
  rw [tally, List.foldl_append]
  rfl

/-- Only an accepted exchange counts. -/
theorem accepted_step_of_not {t : Tally} {entry : List UInt8 × Except E Response}
    (h : ∀ resp, entry.2 = .ok resp → ¬ Accepts P cmd s t resp) :
    (t.step P cmd s entry).accepted = t.accepted := by
  rw [Tally.step]
  split
  · rfl
  · rename_i resp hresp
    rw [if_neg (h resp hresp)]
    split <;> rfl

end Tally

/-! ### The keys of a session -/

/-- Messages do not change the key of the MACs. -/
class StableMac (P : Primitives) (S : Type) [SessionSuite P S] : Prop where
  mac_encrypt {s s' : S} {dir : Direction} {ti : Bytes 4} {ctr : UInt16} {buf out : List UInt8} :
    SessionSuite.encrypt P s dir ti ctr buf = some (out, s') →
      ∀ data, SessionSuite.mac P s' data = SessionSuite.mac P s data
  mac_decrypt {s s' : S} {dir : Direction} {ti : Bytes 4} {ctr : UInt16} {buf out : List UInt8} :
    SessionSuite.decrypt P s dir ti ctr buf = some (out, s') →
      ∀ data, SessionSuite.mac P s' data = SessionSuite.mac P s data

instance (P : Primitives) : StableMac P AesSuite where
  mac_encrypt h _ := by
    obtain ⟨_, -, hout⟩ := Option.map_eq_some_iff.mp h
    cases hout
    rfl
  mac_decrypt h _ := by
    obtain ⟨_, -, hout⟩ := Option.map_eq_some_iff.mp h
    cases hout
    rfl

instance (P : Primitives) : StableMac P LrpSuite where
  mac_encrypt h _ := by
    obtain ⟨_, -, hout⟩ := Option.map_eq_some_iff.mp h
    cases hout
    rfl
  mac_decrypt h _ := by
    obtain ⟨_, -, hout⟩ := Option.map_eq_some_iff.mp h
    cases hout
    rfl

section Keys

variable {S : Type} (P : Primitives) [SessionSuite P S] {s₀ s : Authenticated S}

/-- The session still has the transaction identifier and the MAC key of `s₀`. -/
def SameKeys (s₀ s : Authenticated S) : Prop :=
  s.ti = s₀.ti ∧ ∀ data, SessionSuite.mac P s.suite data = SessionSuite.mac P s₀.suite data

theorem SameKeys.macVerifies_iff (h : SameKeys P s₀ s) {ctr : UInt16} {rc : UInt8}
    {body : List UInt8} : MacVerifies P s ctr rc body ↔ MacVerifies P s₀ ctr rc body := by
  rw [MacVerifies, MacVerifies, h.1, h.2]

end Keys

/-! ### Sessions with a tally -/

section Invariant

variable {E S : Type} (P : Primitives) [SessionSuite P S] (cmd : SecureCommand)
  (s₀ : Authenticated S)

/-- Between two exchanges of the command begun in `s₀`: the counter has advanced by the number
of accepted exchanges, and the frames so far hold `frames`. -/
structure Tallied (frames : List UInt8) (s : Authenticated S) (w : Transcript E) : Prop where
  keys : SameKeys P s₀ s
  counter : s.cmdCounter = s₀.cmdCounter + UInt16.ofNat (tally P cmd s₀ w).accepted
  frames : (tally P cmd s₀ w).frames = frames

/-- A response has arrived that ends an exchange and is not yet accepted. -/
structure Answered (frames : List UInt8) (resp : Response) (s : Authenticated S)
    (w : Transcript E) : Prop where
  keys : SameKeys P s₀ s
  status : cmd.succeeds (desfireStatus resp.sw1 resp.sw2) = true
  tally : ∃ t : Tally, t.frames = frames ∧
    s.cmdCounter = s₀.cmdCounter + UInt16.ofNat t.accepted ∧
    Ntag424.tally P cmd s₀ w = if Accepts P cmd s₀ t resp then ⟨t.accepted + 1, []⟩
      else { t with frames := [] }

/-- The counter has advanced by the number of accepted exchanges. A panic leaves no session. -/
def FaultTallied (f : Fault (SessionError E)) (s : Authenticated S) (w : Transcript E) : Prop :=
  f ≠ .panicked → s.cmdCounter = s₀.cmdCounter + UInt16.ofNat (tally P cmd s₀ w).accepted

end Invariant

section Rules

variable {E S : Type} {P : Primitives} [SessionSuite P S] {cmd : SecureCommand}
  {s₀ s : Authenticated S} {w : Transcript E} {frames : List UInt8} {resp : Response}

theorem Tallied.start : Tallied (E := E) P cmd s [] s [] :=
  ⟨⟨rfl, fun _ => rfl⟩, (UInt16.add_zero _).symm, rfl⟩

theorem faultTallied_panicked : FaultTallied (E := E) P cmd s₀ .panicked s w :=
  fun hno => absurd rfl hno

theorem Tallied.fault (h : Tallied P cmd s₀ frames s w) (f : Fault (SessionError E)) :
    FaultTallied P cmd s₀ f s w := fun _ => h.counter

/-- Noting a use of the counter. -/
theorem Tallied.note (h : Tallied P cmd s₀ frames s w) (u : CounterUse) :
    Tallied P cmd s₀ frames (s.note u) w := ⟨h.keys, h.counter, h.frames⟩

/-- A suite that has encrypted or decrypted a message. -/
theorem Tallied.withSuite (h : Tallied P cmd s₀ frames s w) {suite : S}
    (hmac : ∀ data, SessionSuite.mac P suite data = SessionSuite.mac P s.suite data) :
    Tallied P cmd s₀ frames (s.withSuite suite) w :=
  ⟨⟨h.keys.1, fun data => (hmac data).trans (h.keys.2 data)⟩, h.counter, h.frames⟩

/-- A transport error leaves the counter where it was. -/
theorem Tallied.lost (h : Tallied P cmd s₀ frames s w) {apdu : List UInt8} {e : E}
    (f : Fault (SessionError E)) : FaultTallied P cmd s₀ f s (w ++ [(apdu, .error e)]) := by
  intro _
  rw [tally_concat, accepted_step_of_not]
  · exact h.counter
  · rintro resp ⟨⟩

/-- A response that is not accepted leaves the counter where it was: its status is not the one of
success, or it comes before the end of the chain. -/
theorem Tallied.refused (h : Tallied P cmd s₀ frames s w) {apdu : List UInt8}
    (hno : cmd.succeeds (desfireStatus resp.sw1 resp.sw2) = true →
      cmd.checksMac frames resp = false ∧ cmd.allowsEmpty = false)
    (f : Fault (SessionError E)) : FaultTallied P cmd s₀ f s (w ++ [(apdu, .ok resp)]) := by
  intro _
  rw [tally_concat, accepted_step_of_not]
  · exact h.counter
  · rintro _ ⟨⟩ ⟨hsucceeds, haccepts⟩
    obtain ⟨hcheck, hempty⟩ := hno hsucceeds
    rw [h.frames, hcheck, hempty] at haccepts
    rcases haccepts with ⟨hmac, -⟩ | ⟨hallow, -⟩
    · cases hmac
    · cases hallow

/-- A frame that continues the exchange. -/
theorem Tallied.frame (h : Tallied P cmd s₀ frames s w) {apdu : List UInt8}
    (hstatus : desfireStatus resp.sw1 resp.sw2 = .additionalFrame) :
    Tallied P cmd s₀ (frames ++ resp.data) s (w ++ [(apdu, .ok resp)]) := by
  have hstep : tally P cmd s₀ (w ++ [(apdu, .ok resp)]) =
      { tally P cmd s₀ w with frames := (tally P cmd s₀ w).frames ++ resp.data } := by
    rw [tally_concat, Tally.step]
    exact if_pos hstatus
  refine ⟨h.keys, ?_, ?_⟩
  · rw [hstep]
    exact h.counter
  · rw [hstep, h.frames]

/-- A response that ends the exchange. -/
theorem Tallied.answered (h : Tallied P cmd s₀ frames s w) {apdu : List UInt8}
    (hstatus : cmd.succeeds (desfireStatus resp.sw1 resp.sw2) = true) :
    Answered P cmd s₀ frames resp s (w ++ [(apdu, .ok resp)]) := by
  have hlast : desfireStatus resp.sw1 resp.sw2 ≠ .additionalFrame := by
    intro haf
    rw [haf] at hstatus
    cases cmd <;> cases hstatus
  refine ⟨h.keys, hstatus, tally P cmd s₀ w, h.frames, h.counter, ?_⟩
  rw [tally_concat, Tally.step]
  exact if_neg hlast

/-- An exchange that is not accepted. -/
theorem Answered.refused (h : Answered P cmd s₀ frames resp s w)
    (hmac : cmd.checksMac frames resp = true →
      ¬ MacVerifies P s s.cmdCounter resp.sw2 (frames ++ resp.data))
    (hempty : cmd.allowsEmpty = true → resp.data ≠ []) (f : Fault (SessionError E)) :
    FaultTallied P cmd s₀ f s w := by
  obtain ⟨hkeys, -, t, rfl, hctr, htally⟩ := h
  intro _
  rw [htally, if_neg]
  · exact hctr
  · rintro ⟨-, ⟨hcheck, hverifies⟩ | ⟨hallow, hnil⟩⟩
    · rw [← hctr, ← hkeys.macVerifies_iff] at hverifies
      exact hmac hcheck hverifies
    · exact hempty hallow hnil

/-- An accepted exchange: the counter advances. -/
theorem Answered.accepted (h : Answered P cmd s₀ frames resp s w)
    (haccepts : cmd.checksMac frames resp = true ∧
        MacVerifies P s s.cmdCounter resp.sw2 (frames ++ resp.data) ∨
      cmd.allowsEmpty = true ∧ resp.data = []) (u : CounterUse) :
    Tallied P cmd s₀ [] (s.note u).advanceCounter w := by
  obtain ⟨hkeys, hstatus, t, rfl, hctr, htally⟩ := h
  have hyes : Accepts P cmd s₀ t resp := by
    refine ⟨hstatus, haccepts.imp_left fun hmac => ⟨hmac.1, ?_⟩⟩
    rw [← hctr, ← hkeys.macVerifies_iff]
    exact hmac.2
  rw [if_pos hyes] at htally
  refine ⟨hkeys, ?_, by rw [htally]⟩
  rw [htally, UInt16.ofNat_add, ← UInt16.add_assoc, ← hctr]
  rfl

/-! ### Messages -/

variable {env : (r : List UInt8) → Transcript E → Transmit E r → Transcript E → Prop}

/-- The command MAC leaves the tally alone. -/
theorem wp_computeCmdMac_tallied {Q : Bytes 8 → Authenticated S → Transcript E → Prop} {ins : UInt8}
    {header data : List UInt8} (h : Tallied P cmd s₀ frames s w)
    (hQ : ∀ mac s', Tallied P cmd s₀ frames s' w → Q mac s' w) :
    (computeCmdMac P ins header data).wp env (fun _ => True) Q (FaultTallied P cmd s₀) s w := by
  simp only [computeCmdMac, state, SecureChannel.note, Script.wp_bind, Script.wp_get,
    Script.wp_assert, Script.wp_set, Script.wp_pure]
  exact ⟨fun _ => hQ _ _ (h.note _), fun _ => faultTallied_panicked⟩

/-- Encrypting a command leaves the tally alone. -/
theorem wp_encryptCommand_tallied [StableMac P S] {buf : List UInt8}
    {Q : List UInt8 → Authenticated S → Transcript E → Prop} (h : Tallied P cmd s₀ frames s w)
    (hQ : ∀ ct s', Tallied P cmd s₀ frames s' w → Q ct s' w) :
    (encryptCommand P buf).wp env (fun _ => True) Q (FaultTallied P cmd s₀) s w := by
  simp only [encryptCommand, state, SecureChannel.note, Script.wp_bind, Script.wp_get]
  cases henc : SessionSuite.encrypt P s.suite .command s.ti s.cmdCounter buf with
  | none => exact Script.wp_fail.mpr (h.fault _)
  | some r =>
      simp only [Script.wp_bind, Script.wp_get, Script.wp_set, Script.wp_pure]
      exact hQ _ _ ((h.withSuite (StableMac.mac_encrypt henc)).note _)

/-- Decrypting a response leaves the tally alone. -/
theorem wp_decryptResponse_tallied [StableMac P S] {buf : List UInt8}
    {Q : List UInt8 → Authenticated S → Transcript E → Prop} (h : Tallied P cmd s₀ frames s w)
    (hQ : ∀ pt s', Tallied P cmd s₀ frames s' w → Q pt s' w) :
    (decryptResponse P buf).wp env (fun _ => True) Q (FaultTallied P cmd s₀) s w := by
  simp only [decryptResponse, state, SecureChannel.note, Script.wp_bind, Script.wp_get]
  cases hdec : SessionSuite.decrypt P s.suite .response s.ti s.cmdCounter buf with
  | none => exact Script.wp_fail.mpr (h.fault _)
  | some r =>
      simp only [Script.wp_bind, Script.wp_get, Script.wp_set, Script.wp_pure]
      exact hQ _ _ ((h.withSuite (StableMac.mac_decrypt hdec)).note _)

/-- An answer with the status of success ends the exchange. -/
theorem wp_transmitExpecting_answered {Q : Response → Authenticated S → Transcript E → Prop}
    {apdu : List UInt8} (h : Tallied P cmd s₀ frames s w) (hplain : cmd ≠ .readSig)
    (hQ : ∀ resp w', Answered P cmd s₀ frames resp s w' →
      desfireStatus resp.sw1 resp.sw2 = .operationOk → Q resp s w') :
    (transmitExpecting .operationOk apdu).wp (Records anyAnswer) (fun _ => True) Q
      (FaultTallied P cmd s₀) s w := by
  simp only [transmitExpecting, Script.wp_bind, Script.wp_require, Script.wp_pure]
  refine wp_transmit_recorded trivial (fun resp _ => ⟨fun hok => ?_, fun hno => ?_⟩) fun e _ => ?_
  · exact hQ resp _ (h.answered (by rw [hok]; exact cmd.succeeds_of_ok)) hok
  · exact h.refused (fun hok => absurd (SecureCommand.eq_ok_of_succeeds hplain hok) hno) _
  · exact h.lost _

/-- A command with a MAC. -/
theorem wp_transmitMac_answered {Q : Response → Authenticated S → Transcript E → Prop}
    {ins p1 p2 : UInt8} {header data : List UInt8} (h : Tallied P cmd s₀ frames s w)
    (hplain : cmd ≠ .readSig)
    (hQ : ∀ resp s' w', Answered P cmd s₀ frames resp s' w' → Q resp s' w') :
    (transmitMac P ins p1 p2 header data).wp (Records anyAnswer) (fun _ => True) Q
      (FaultTallied P cmd s₀) s w := by
  simp only [transmitMac, Script.wp_bind]
  exact wp_computeCmdMac_tallied h fun _ s' h' =>
    wp_transmitExpecting_answered h' hplain fun resp w' hans _ => hQ resp s' w' hans

/-- A command with a MAC and encrypted data. -/
theorem wp_transmitFull_answered [StableMac P S]
    {Q : Response → Authenticated S → Transcript E → Prop} {ins : UInt8} {header data : List UInt8}
    (h : Tallied P cmd s₀ frames s w) (hplain : cmd ≠ .readSig)
    (hQ : ∀ resp s' w', Answered P cmd s₀ frames resp s' w' → Q resp s' w') :
    (transmitFull P ins header data).wp (Records anyAnswer) (fun _ => True) Q
      (FaultTallied P cmd s₀) s w := by
  simp only [transmitFull, Script.wp_bind]
  exact wp_encryptCommand_tallied h fun ct s₁ h₁ => wp_transmitMac_answered h₁ hplain hQ

/-- **The verification of a response** counts the exchange when the MAC is right, and leaves the
counter where it was when the body is too short or the MAC is wrong. -/
theorem wp_verifyResponse_tallied {Q : List UInt8 → Authenticated S → Transcript E → Prop}
    {rc : UInt8} {body : List UInt8} (h : Answered P cmd s₀ frames resp s w)
    (hrc : rc = resp.sw2) (hbody : body = frames ++ resp.data)
    (hcheck : cmd.checksMac frames resp = true) (hempty : cmd.allowsEmpty = true → resp.data ≠ [])
    (hQ : ∀ data s', Tallied P cmd s₀ [] s' w → Q data s' w) :
    (verifyResponseMacAndAdvance P rc body).wp env (fun _ => True) Q (FaultTallied P cmd s₀) s
      w := by
  subst hrc hbody
  simp only [verifyResponseMacAndAdvance, state, SecureChannel.note, advance, Script.wp_bind,
    Script.wp_get, Script.wp_assert, Script.wp_set, Script.wp_pure, Script.wp_require]
  refine ⟨fun hlen => ⟨fun _ => ⟨fun hmac => hQ _ _ ?_, fun hmac => ?_⟩,
    fun _ => faultTallied_panicked⟩, fun hlen => ?_⟩
  · exact h.accepted (.inl ⟨hcheck, hlen, hmac⟩) _
  · exact h.refused (fun _ hverifies => hmac hverifies.2) hempty _
  · exact h.refused (fun _ hverifies => hlen hverifies.1) hempty _

/-- An accepted answer without a MAC. -/
theorem wp_advance_tallied {Q : Unit → Authenticated S → Transcript E → Prop}
    {R : Fault (SessionError E) → Authenticated S → Transcript E → Prop}
    (h : Answered P cmd s₀ frames resp s w) (hallow : cmd.allowsEmpty = true)
    (hnil : resp.data = []) (hQ : ∀ s', Tallied P cmd s₀ [] s' w → Q () s' w) :
    advanceCounter.wp env (fun _ => True) Q R s w := by
  simp only [advanceCounter, advance, SecureChannel.note, state, Script.wp_bind, Script.wp_get,
    Script.wp_set]
  exact hQ _ (h.accepted (.inr ⟨hallow, hnil⟩) _)

end Rules

/-! ### Commands -/

section Commands

variable {E S β : Type} {P : Primitives} [SessionSuite P S] {cmd : SecureCommand}
  {s₀ s : Authenticated S} {w : Transcript E} {frames : List UInt8} {resp : Response}

/-- A command whose answers succeed with `91 00` and always carry a MAC. -/
def SecureCommand.AlwaysMac : SecureCommand → Prop
  | getVersion | changeMasterKey _ _ | readSig | setConfiguration _ => False
  | _ => True

theorem SecureCommand.AlwaysMac.ne_readSig (h : cmd.AlwaysMac) : cmd ≠ .readSig := by
  rintro rfl
  exact h

theorem SecureCommand.AlwaysMac.checksMac (h : cmd.AlwaysMac) (frames : List UInt8)
    (resp : Response) : cmd.checksMac frames resp = true := by
  cases cmd <;> first | rfl | exact h.elim

theorem SecureCommand.AlwaysMac.not_allowsEmpty (h : cmd.AlwaysMac) : cmd.allowsEmpty = false := by
  cases cmd <;> first | rfl | exact h.elim

variable (P cmd s₀) in
/-- Keep the tally of the command. -/
def KeepsTally (c : Cmd E (Authenticated S) β) : Prop :=
  ∀ s w, Tallied P cmd s₀ [] s w → c.wp (Records anyAnswer) (fun _ => True)
    (fun _ s' w' => Tallied P cmd s₀ [] s' w') (FaultTallied P cmd s₀) s w

/-- Dropping the value. -/
theorem KeepsTally.dropValue {c : Cmd E (Authenticated S) β} (h : KeepsTally P cmd s₀ c) :
    KeepsTally P cmd s₀ (do let _ ← c) := by
  intro s w hs
  exact Script.wp_bind_of (h s w hs) (fun _ _ _ h' => Script.wp_pure.mpr h') fun _ _ _ he => he

/-- The verification of a single frame. -/
theorem wp_verifyFrame_tallied {Q : List UInt8 → Authenticated S → Transcript E → Prop}
    (hcmd : cmd.AlwaysMac) (h : Answered P cmd s₀ [] resp s w)
    (hQ : ∀ data s', Tallied P cmd s₀ [] s' w → Q data s' w) :
    (verifyResponseMacAndAdvance P resp.sw2 resp.data).wp (Records anyAnswer) (fun _ => True) Q
      (FaultTallied P cmd s₀) s w := by
  refine wp_verifyResponse_tallied h rfl rfl (hcmd.checksMac _ _) (fun hallow => ?_) hQ
  rw [hcmd.not_allowsEmpty] at hallow
  cases hallow

/-- `send_mac`. -/
theorem wp_sendMac_tallied {Q : List UInt8 → Authenticated S → Transcript E → Prop}
    {ins p1 p2 : UInt8} {header data : List UInt8} (hcmd : cmd.AlwaysMac)
    (h : Tallied P cmd s₀ [] s w)
    (hQ : ∀ plain s' w', Tallied P cmd s₀ [] s' w' → Q plain s' w') :
    (sendMac P ins p1 p2 header data).wp (Records anyAnswer) (fun _ => True) Q
      (FaultTallied P cmd s₀) s w := by
  simp only [sendMac, Script.wp_bind, Script.wp_require, Script.wp_pure]
  refine ⟨fun _ => wp_transmitMac_answered h hcmd.ne_readSig fun resp s₁ w₁ h₁ => ?_,
    fun _ => h.fault _⟩
  exact wp_verifyFrame_tallied hcmd h₁ fun plain s₂ h₂ =>
    ⟨fun _ => hQ _ _ _ h₂, fun _ => h₂.fault _⟩

/-- Accept and decrypt a single frame. -/
theorem wp_decryptFullFixed_tallied [StableMac P S] {p ct : ℕ}
    (hcheck : cmd.checksMac [] resp = true) (hempty : cmd.allowsEmpty = false)
    (h : Answered P cmd s₀ [] resp s w) :
    (decryptFullFixed P ct p resp.sw2 resp.data).wp (Records anyAnswer) (fun _ => True)
      (fun _ s' w' => Tallied P cmd s₀ [] s' w') (FaultTallied P cmd s₀) s w := by
  simp only [decryptFullFixed, Script.wp_bind, Script.wp_require, Script.wp_pure]
  refine wp_verifyResponse_tallied h rfl rfl hcheck (fun hallow => ?_)
    fun data s₁ h₁ => ⟨fun _ => ?_, fun _ => h₁.fault _⟩
  · rw [hempty] at hallow
    cases hallow
  · exact wp_decryptResponse_tallied h₁ fun _ _ h₂ => ⟨fun _ => h₂, fun _ => h₂.fault _⟩

/-- Commands with an encrypted answer of fixed length. -/
theorem keepsTally_readFullFixed [StableMac P S] (hcmd : cmd.AlwaysMac) (ins : UInt8)
    (header : List UInt8) (ct p : ℕ) :
    KeepsTally P cmd s₀ (readFullFixed P ins header ct p : Cmd E (Authenticated S) _) := by
  intro s w h
  simp only [readFullFixed, Script.wp_bind]
  exact wp_transmitMac_answered h hcmd.ne_readSig fun resp s₁ w₁ h₁ =>
    wp_decryptFullFixed_tallied (hcmd.checksMac _ _) hcmd.not_allowsEmpty h₁

/-- An intermediate frame of `GetVersion`. -/
theorem wp_requestIntermediatePart_tallied
    {Q : Bytes 7 → Authenticated S → Transcript E → Prop} {apdu : List UInt8}
    (h : Tallied P .getVersion s₀ frames s w) (hframes : frames.length ≠ 14)
    (hQ : ∀ part w', Tallied P .getVersion s₀ (frames ++ part.toList) s w' → Q part s w') :
    (requestIntermediatePart apdu).wp (Records anyAnswer) (fun _ => True) Q
      (FaultTallied P .getVersion s₀) s w := by
  simp only [requestIntermediatePart, transmitExpecting, Script.wp_bind, Script.wp_require,
    Script.wp_pure]
  refine wp_transmit_recorded trivial (fun resp _ => ⟨fun haf => ?_, fun hno => ?_⟩) fun e _ => ?_
  · have hframe : Tallied P .getVersion s₀ (frames ++ resp.data) s (w ++ [(apdu, .ok resp)]) :=
      h.frame haf
    refine wp_expectBytes_recorded (fun part hpart => ?_) (hframe.fault _)
    rw [hpart] at hframe
    exact hQ part _ hframe
  · refine h.refused (fun _ => ⟨?_, rfl⟩) _
    exact decide_eq_false fun hfull => hframes hfull.1
  · exact h.lost _

/-- `get_version_mac`. -/
theorem keepsTally_getVersionMac :
    KeepsTally P .getVersion s₀ (getVersionMac P : Cmd E (Authenticated S) _) := by
  intro s w h
  simp only [getVersionMac, driveChain, Script.wp_bind, Script.wp_require, Script.wp_pure]
  refine wp_computeCmdMac_tallied h fun _ s₁ h₁ => ?_
  refine wp_requestIntermediatePart_tallied h₁ (by decide) fun part1 w₁ h₂ => ?_
  refine wp_requestIntermediatePart_tallied h₂ (by simp) fun part2 w₂ h₃ => ?_
  refine wp_transmitExpecting_answered h₃ (by rintro ⟨⟩) fun resp w₃ hans hok => ?_
  obtain ⟨-, hsw2⟩ := desfireStatus_eq_ok_iff.mp hok
  refine ⟨fun hlen => ?_, fun hlen => ?_⟩
  · refine wp_verifyResponse_tallied hans hsw2.symm rfl ?_ (by rintro ⟨⟩) fun _ _ h' => h'
    exact decide_eq_true ⟨by simp, hlen⟩
  · refine hans.refused (fun hcheck => ?_) (by rintro ⟨⟩) _
    exact absurd (decide_eq_true_iff.mp hcheck).2 hlen

/-- `read_sig_mac`. -/
theorem keepsTally_readSigMac [StableMac P S] :
    KeepsTally P .readSig s₀ (readSigMac P : Cmd E (Authenticated S) _) := by
  intro s w h
  simp only [readSigMac, Script.wp_bind, Script.wp_require]
  refine wp_computeCmdMac_tallied h fun _ s₁ h₁ => ?_
  refine wp_transmit_recorded trivial (fun resp _ => ⟨fun hok => ?_, fun hno => ?_⟩) fun e _ => ?_
  · exact wp_decryptFullFixed_tallied rfl rfl (h₁.answered (decide_eq_true hok))
  · exact h₁.refused (fun hok => absurd (decide_eq_true_iff.mp hok) hno) _
  · exact h₁.lost _

/-- `get_key_version`. -/
theorem keepsTally_getKeyVersion (hcmd : cmd.AlwaysMac) (keyNo : KeyNumber) :
    KeepsTally P cmd s₀ (getKeyVersion P keyNo : Cmd E (Authenticated S) _) := by
  intro s w h
  simp only [getKeyVersion, Script.wp_bind]
  refine wp_sendMac_tallied hcmd h fun plain s' w' h' => ?_
  split
  · exact Script.wp_pure.mpr h'
  · exact Script.wp_fail.mpr (h'.fault _)

/-- Decoding an answer leaves the tally alone. -/
theorem keepsTally_liftSettings {α : Type} (r : Except FileSettingsError α) :
    KeepsTally P cmd s₀ (liftSettings r : Cmd E (Authenticated S) α) := by
  intro s w h
  cases r with
  | ok a => exact Script.wp_pure.mpr h
  | error e => exact Script.wp_fail.mpr (h.fault _)

/-- `get_file_settings_mac`. -/
theorem keepsTally_getFileSettingsMac (hcmd : cmd.AlwaysMac) (fileNo : UInt8) :
    KeepsTally P cmd s₀ (getFileSettingsMac P fileNo : Cmd E (Authenticated S) _) := by
  intro s w h
  simp only [getFileSettingsMac, Script.wp_bind]
  exact wp_sendMac_tallied hcmd h fun plain s' w' h' => keepsTally_liftSettings _ s' w' h'

/-- `get_file_counters`. -/
theorem keepsTally_getFileCounters [StableMac P S] (hcmd : cmd.AlwaysMac) (fileNo : UInt8) :
    KeepsTally P cmd s₀ (getFileCounters P fileNo : Cmd E (Authenticated S) _) := by
  intro s w h
  simp only [getFileCounters, Script.wp_bind]
  refine wp_sendMac_tallied hcmd h fun plain s' w' h' => ?_
  split
  · exact Script.wp_pure.mpr h'
  split
  · simp only [Script.wp_bind, Script.wp_require, Script.wp_pure]
    exact wp_decryptResponse_tallied h' fun _ _ h'' => ⟨fun _ => h'', fun _ => h''.fault _⟩
  · exact Script.wp_fail.mpr (h'.fault _)

/-- `change_key`. -/
theorem keepsTally_changeKey [StableMac P S] (hcmd : cmd.AlwaysMac) (keyNo : NonMasterKeyNumber)
    (newKey : Key) (newKeyVersion : UInt8) (oldKey : Key) :
    KeepsTally P cmd s₀
      (changeKey P keyNo newKey newKeyVersion oldKey : Cmd E (Authenticated S) _) := by
  intro s w h
  simp only [changeKey, transmitKey, Script.wp_bind, Script.wp_pure, if_true]
  refine wp_encryptCommand_tallied h fun _ s₁ h₁ => ?_
  refine wp_transmitMac_answered h₁ hcmd.ne_readSig fun resp s₂ w₂ h₂ => ?_
  exact wp_verifyFrame_tallied hcmd h₂ fun _ _ h' => h'

/-- `change_master_key`: only an empty answer is accepted. -/
theorem keepsTally_changeMasterKey [StableMac P S] (newKey : Key) (newKeyVersion : UInt8) :
    KeepsTally P (.changeMasterKey newKey newKeyVersion) s₀
      (changeMasterKey P newKey newKeyVersion : Cmd E (Authenticated S) _) := by
  intro s w h
  simp only [changeMasterKey, transmitKey, Script.wp_bind, Script.wp_require, Bool.false_eq_true,
    if_false]
  refine wp_encryptCommand_tallied h fun _ s₁ h₁ => ?_
  refine wp_transmitMac_answered h₁ nofun fun resp s₂ w₂ h₂ => ⟨fun hnil => ?_, fun hne => ?_⟩
  · exact wp_advance_tallied h₂ rfl hnil fun _ h' => h'
  · exact h₂.refused nofun (fun _ => hne) _

/-- `set_configuration`: each option is an exchange. -/
theorem keepsTally_setOptions [StableMac P S] {configuration : Configuration}
    (options : List (UInt8 × List UInt8)) :
    KeepsTally P (.setConfiguration configuration) s₀
      (setOptions P options : Cmd E (Authenticated S) _) := by
  induction options with
  | nil => exact fun s w h => Script.wp_pure.mpr h
  | cons option rest ih =>
      intro s w h
      simp only [setOptions, setConfigurationOne, Script.wp_bind]
      refine wp_transmitFull_answered h (by rintro ⟨⟩) fun resp s₁ w₁ h₁ => ?_
      split
      · rename_i hnil
        exact wp_advance_tallied h₁ rfl hnil fun s' h' => ih s' _ h'
      · rename_i hne
        simp only [Script.wp_bind, Script.wp_pure]
        exact wp_verifyResponse_tallied h₁ rfl rfl rfl (fun _ => hne) fun _ s' h' => ih s' _ h'

/-- `change_file_settings`. -/
theorem keepsTally_changeFileSettings [StableMac P S] (hcmd : cmd.AlwaysMac) (fileNo : UInt8)
    (settings : FileSettingsUpdate) :
    KeepsTally P cmd s₀ (changeFileSettings P fileNo settings : Cmd E (Authenticated S) _) := by
  intro s w h
  rw [changeFileSettings]
  refine Script.wp_bind_of (keepsTally_liftSettings _ s w h) (fun raw s₁ w₁ h₁ => ?_)
    fun _ _ _ he => he
  simp only [Script.wp_bind, Script.wp_pure]
  refine wp_transmitFull_answered h₁ hcmd.ne_readSig fun resp s₂ w₂ h₂ => ?_
  exact wp_verifyFrame_tallied hcmd h₂ fun _ _ h' => h'

/-! ### File data -/

/-- The checks of a request leave the tally alone. -/
theorem keepsTally_validateTarget (fileNo : UInt8) (offset : UInt32) :
    KeepsTally P cmd s₀ (validateTarget fileNo offset : Cmd E (Authenticated S) _) := by
  intro s w h
  simp only [validateTarget, Script.wp_bind, Script.wp_require]
  exact ⟨fun _ => ⟨fun _ => h, fun _ => h.fault _⟩, fun _ => h.fault _⟩

/-- `read_data_mac`. -/
theorem keepsTally_readDataMac (hcmd : cmd.AlwaysMac) (fileNo : UInt8) (offset length : UInt32)
    (buf : List UInt8) :
    KeepsTally P cmd s₀ (readDataMac P fileNo offset length buf : Cmd E (Authenticated S) _) := by
  intro s w h
  simp only [readDataMac, validateRequest, Script.wp_bind, Script.wp_require]
  refine Script.wp_mono (keepsTally_validateTarget fileNo offset s w h) (fun _ s₁ w₁ h₁ => ?_)
    fun _ _ _ he => he
  refine ⟨fun _ => ⟨fun _ => ⟨fun _ => ?_, fun _ => h₁.fault _⟩, fun _ => h₁.fault _⟩,
    fun _ => h₁.fault _⟩
  refine wp_readDataMacLoop_of P (J := Tallied P cmd s₀ []) (fun offset length buf s w h => ?_)
    (fun _ _ _ => faultTallied_panicked) _ _ _ h₁
  simp only [readDataMacOneApdu, wp_buildReadHeader, Script.wp_bind, Script.wp_require,
    Script.wp_assert, Script.wp_pure]
  refine ⟨fun _ => ?_, fun _ => faultTallied_panicked⟩
  refine wp_transmitMac_answered h hcmd.ne_readSig fun resp s₂ w₂ h₂ => ?_
  exact wp_verifyFrame_tallied hcmd h₂ fun _ _ h' =>
    ⟨fun _ => ⟨fun _ => h', fun _ => faultTallied_panicked⟩, fun _ => h'.fault _⟩

/-- `read_data_full`. -/
theorem keepsTally_readDataFull [StableMac P S] (hcmd : cmd.AlwaysMac) (fileNo : UInt8)
    (offset length : UInt32) (buf : List UInt8) :
    KeepsTally P cmd s₀ (readDataFull P fileNo offset length buf : Cmd E (Authenticated S) _) := by
  intro s w h
  simp only [readDataFull, validateRequest, Script.wp_bind, Script.wp_require]
  refine Script.wp_mono (keepsTally_validateTarget fileNo offset s w h) (fun _ s₁ w₁ h₁ => ?_)
    fun _ _ _ he => he
  refine ⟨fun _ => ⟨fun _ => ⟨fun _ => ?_, fun _ => h₁.fault _⟩, fun _ => h₁.fault _⟩,
    fun _ => h₁.fault _⟩
  refine wp_readDataFullLoop_of P (J := Tallied P cmd s₀ []) (fun offset length buf s w h => ?_)
    (fun _ _ _ => faultTallied_panicked) _ _ _ h₁
  simp only [readDataFullOneApdu, wp_buildReadHeader, Script.wp_bind, Script.wp_require,
    Script.wp_assert]
  refine ⟨fun _ => ?_, fun _ => faultTallied_panicked⟩
  refine wp_transmitMac_answered h hcmd.ne_readSig fun resp s₂ w₂ h₂ => ?_
  refine wp_verifyFrame_tallied hcmd h₂ fun _ s₃ h₃ =>
    ⟨fun _ => ⟨fun _ => ?_, fun _ => faultTallied_panicked⟩, fun _ => h₃.fault _⟩
  refine wp_decryptResponse_tallied h₃ fun _ s₄ h₄ => ?_
  split
  · exact Script.wp_fail.mpr (h₄.fault _)
  · simp only [Script.wp_bind, Script.wp_require, Script.wp_pure]
    exact ⟨fun _ => ⟨fun _ => h₄, fun _ => h₄.fault _⟩, fun _ => h₄.fault _⟩

/-- `validate_header`. -/
theorem keepsTally_validateHeader (fileNo : UInt8) (offset : UInt32) (length : ℕ) :
    KeepsTally P cmd s₀ (validateHeader fileNo offset length : Cmd E (Authenticated S) _) := by
  intro s w h
  simp only [validateHeader, Script.wp_bind, Script.wp_require]
  refine Script.wp_mono (keepsTally_validateTarget fileNo offset s w h) (fun _ s₁ w₁ h₁ => ?_)
    fun _ _ _ he => he
  exact ⟨fun _ => ⟨fun _ => h₁, fun _ => h₁.fault _⟩, fun _ => h₁.fault _⟩

/-- `write_data_mac`. -/
theorem keepsTally_writeDataMac (hcmd : cmd.AlwaysMac) (fileNo : UInt8) (offset : UInt32)
    (data : List UInt8) :
    KeepsTally P cmd s₀ (writeDataMac P fileNo offset data : Cmd E (Authenticated S) _) := by
  intro s w h
  simp only [writeDataMac, Script.wp_bind]
  refine Script.wp_mono (keepsTally_validateHeader fileNo offset _ s w h) (fun _ s₁ w₁ h₁ => ?_)
    fun _ _ _ he => he
  refine wp_writeLoop_of (J := Tallied P cmd s₀ []) (fun offset part s w _ _ h => ?_) _ h₁
  simp only [writeDataMacOneApdu, wp_buildWriteHeader, Script.wp_bind, Script.wp_require]
  refine ⟨fun _ => ?_, fun _ => faultTallied_panicked⟩
  exact wp_sendMac_tallied hcmd h fun _ _ _ h' => ⟨fun _ => h', fun _ => h'.fault _⟩

/-- `write_data_full`. -/
theorem keepsTally_writeDataFull [StableMac P S] (hcmd : cmd.AlwaysMac) (fileNo : UInt8)
    (offset : UInt32) (data : List UInt8) :
    KeepsTally P cmd s₀ (writeDataFull P fileNo offset data : Cmd E (Authenticated S) _) := by
  intro s w h
  simp only [writeDataFull, Script.wp_bind]
  refine Script.wp_mono (keepsTally_validateHeader fileNo offset _ s w h) (fun _ s₁ w₁ h₁ => ?_)
    fun _ _ _ he => he
  refine wp_writeLoop_of (J := Tallied P cmd s₀ []) (fun offset part s w _ _ h => ?_) _ h₁
  simp only [writeDataFullOneApdu, wp_buildWriteHeader, validateBodyLen, Script.wp_bind,
    Script.wp_require, Script.wp_pure]
  refine ⟨fun _ => ⟨fun _ => ?_, fun _ => h.fault _⟩, fun _ => faultTallied_panicked⟩
  refine wp_transmitFull_answered h hcmd.ne_readSig fun resp s₂ w₂ h₂ => ?_
  exact wp_verifyFrame_tallied hcmd h₂ fun _ _ h' => h'

/-! ### The counter after a command -/

/-- **Every command keeps its tally**, against any transport. -/
theorem SecureCommand.wp_perform_tallied [StableMac P S] (cmd : SecureCommand) :
    KeepsTally P cmd s₀ (cmd.perform P : Cmd E (Authenticated S) Unit) := by
  cases cmd with
  | getVersion => exact keepsTally_getVersionMac.dropValue
  | changeKey keyNo newKey newKeyVersion oldKey =>
      exact keepsTally_changeKey (by trivial) keyNo newKey newKeyVersion oldKey
  | changeMasterKey newKey newKeyVersion => exact keepsTally_changeMasterKey newKey newKeyVersion
  | getCardUid =>
      exact (keepsTally_readFullFixed (by trivial) 0x51 [] 16 7).dropValue
  | getTtStatus =>
      refine KeepsTally.dropValue fun s w h => ?_
      refine Script.wp_bind_of (keepsTally_readFullFixed (by trivial) 0xF7 [] 16 2
        s w h) (fun _ _ _ h' => Script.wp_pure.mpr h') fun _ _ _ he => he
  | readSig => exact keepsTally_readSigMac.dropValue
  | getKeyVersion keyNo =>
      exact (keepsTally_getKeyVersion (by trivial) keyNo).dropValue
  | getFileSettings fileNo =>
      exact (keepsTally_getFileSettingsMac (by trivial) fileNo).dropValue
  | getFileCounters fileNo =>
      exact (keepsTally_getFileCounters (by trivial) fileNo).dropValue
  | setConfiguration configuration => exact keepsTally_setOptions configuration.build
  | changeFileSettings fileNo settings =>
      exact keepsTally_changeFileSettings (by trivial) fileNo settings
  | readDataMac fileNo offset length buf =>
      exact (keepsTally_readDataMac (by trivial) fileNo offset length buf).dropValue
  | readDataFull fileNo offset length buf =>
      exact (keepsTally_readDataFull (by trivial) fileNo offset length buf).dropValue
  | writeDataMac fileNo offset data =>
      exact keepsTally_writeDataMac (by trivial) fileNo offset data
  | writeDataFull fileNo offset data =>
      exact keepsTally_writeDataFull (by trivial) fileNo offset data

/-- **The counter advances on accepted exchanges only.** After any run of a secure-messaging
command that returns, with a value or an error, the counter has advanced by the number of
exchanges of the transcript that were accepted. -/
theorem SecureCommand.cmdCounter_eq_add_accepted [StableMac P S] (cmd : SecureCommand)
    (s : Authenticated S) {r : Outcome (SessionError E) Unit} {s' : Authenticated S}
    {w : Transcript E}
    (hend : Prog.Ends (Records anyAnswer) (cmd.perform P s) [] (r, s') w)
    (hreturns : r ≠ .error .panicked) :
    s'.cmdCounter = s.cmdCounter + UInt16.ofNat (tally P cmd s w).accepted := by
  have hwp := SecureCommand.wp_perform_tallied (E := E) cmd s [] (Tallied.start (P := P) (s := s))
  rcases r with f | u
  · exact Script.wp_ends_fault hwp hend fun hf => hreturns (congrArg Except.error hf)
  · exact (Script.wp_ends hwp hend).counter

/-- The version of a key, answered with a body of one byte and the right MAC. -/
theorem exists_getKeyVersion_ends (s : Authenticated S) :
    ∃ s' apdu, Prog.Ends (Records (E := Empty) anyAnswer)
      ((SecureCommand.getKeyVersion .key0).perform P s) [] (.ok (), s')
      [(apdu, .ok (rightAnswer P s [0x05]))] := by
  have hmay : ((SecureCommand.getKeyVersion .key0).perform P).may (Records shortAnswer)
      (fun _ _ w' => ∃ apdu, w' = [(apdu, Except.ok (ε := Empty) (rightAnswer P s [0x05]))])
      (fun _ _ _ => False) s [] := by
    simp only [SecureCommand.perform, getKeyVersion, sendMac, Script.may_bind, Script.may_require,
      Script.may_pure]
    refine ⟨fun _ => ?_, fun hno => absurd (by decide) hno⟩
    exact may_exchange [0x05] (by decide) (by decide) fun s' apdu _ =>
      ⟨fun _ => Script.may_pure.mpr ⟨apdu, rfl⟩, fun hno => absurd (by decide) hno⟩
  rcases Script.exists_ends_of_may hmay with ⟨_, s', w, hend, apdu, rfl⟩ | ⟨_, _, _, -, hno⟩
  · refine ⟨s', apdu, hend.mono ?_⟩
    rintro _ _ _ _ ⟨-, hw⟩
    exact ⟨trivial, hw⟩
  · exact hno.elim

/-- The right answer is accepted by a command that verifies MACs. -/
theorem accepts_rightAnswer {cmd : SecureCommand} {s : Authenticated S} {body : List UInt8}
    (hchecks : cmd.checksMac [] (rightAnswer P s body) = true) :
    Accepts P cmd s ⟨0, []⟩ (rightAnswer P s body) := by
  have hlen : (rightAnswer P s body).data.length = body.length + macLen := by
    rw [rightAnswer, List.length_append, Bytes.length_toList, macLen]
  refine ⟨cmd.succeeds_of_ok, .inl ⟨hchecks, ?_, ?_⟩⟩
  · rw [List.nil_append, hlen]
    exact Nat.le_add_left ..
  · rw [List.nil_append, hlen, Nat.add_sub_cancel, rightAnswer, List.take_left' rfl,
      List.drop_left' rfl, show s.cmdCounter + UInt16.ofNat 0 = s.cmdCounter from UInt16.add_zero _]

/-- It is one exchange. -/
theorem tally_rightAnswer {cmd : SecureCommand} {s : Authenticated S} {apdu body : List UInt8}
    (hchecks : cmd.checksMac [] (rightAnswer P s body) = true) :
    (tally P cmd s [(apdu, Except.ok (ε := E) (rightAnswer P s body))]).accepted = 1 := by
  have hstatus : desfireStatus (rightAnswer P s body).sw1 (rightAnswer P s body).sw2 ≠
      .additionalFrame := by
    rintro ⟨⟩
  have haccepts : Accepts P cmd s ⟨0, []⟩ (rightAnswer P s body) := accepts_rightAnswer hchecks
  simp only [tally, List.foldl_cons, List.foldl_nil, Tally.step, if_neg hstatus, if_pos haccepts]

/-- The version of a key, answered with a right MAC: one exchange is accepted. -/
theorem cmdCounter_after_getKeyVersion :
    let s : Authenticated AesSuite := .withAuthResult
      ⟨⟨Bytes.zeros 16, Bytes.zeros 16⟩, Bytes.zeros 4, Bytes.zeros 6, Bytes.zeros 6⟩ .key0
    ∃ s' w, Prog.Ends (Records (E := Empty) anyAnswer)
      ((SecureCommand.getKeyVersion .key0).perform .standard s) [] (.ok (), s') w ∧
      w.length = 1 ∧ s'.cmdCounter = s.cmdCounter + 1 := by
  intro s
  obtain ⟨s', apdu, hend⟩ := exists_getKeyVersion_ends (P := .standard) s
  have hcounter := SecureCommand.cmdCounter_eq_add_accepted _ s hend (by rintro ⟨⟩)
  rw [tally_rightAnswer rfl] at hcounter
  exact ⟨s', _, hend, rfl, hcounter⟩

end Commands

end Ntag424
