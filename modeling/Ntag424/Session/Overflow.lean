import Mathlib.Tactic.Common
import Ntag424.Session.CounterAdvance

/-!
# Answers That Are Too Long

A command returns, with a value or an error, whatever its transport answers, except that a
successful answer of more than 263 bytes does not fit the buffer in which the input of the
response MAC is put together, and the command panics before it has looked at the length. In a
build with debug assertions a transfer panics as well at a header that does not hold its offset.

## Main results

* `wp_verifyResponse_fitted`: the verification panics on long bodies only.
* `SecureCommand.wp_perform_fitted`: every command panics on long answers and on headers that do
  not fit, and on nothing else.
* `SecureCommand.returns_iff`: when every run of a command returns.
-/

namespace Ntag424

open BlockMode SecureChannel

/-! ### Long answers -/

namespace SecureCommand

/-- The body of an answer is put into the MAC input as it comes: `GetVersion` checks its length
first, and the master-key change expects no body. -/
def copiesBody : SecureCommand → Bool
  | getVersion | changeMasterKey _ _ => false
  | _ => true

/-- The largest body that fits the buffer of the MAC input: 255 bytes and the MAC. -/
def maxBody : ℕ := maxApduBody + macLen

variable {E : Type}

/-- The answer does not fit the buffer of the MAC input. -/
def Overflows (cmd : SecureCommand) (answer : Except E Response) : Prop :=
  cmd.copiesBody = true ∧ ∃ resp, answer = .ok resp ∧
    cmd.succeeds (desfireStatus resp.sw1 resp.sw2) = true ∧ maxBody < resp.data.length

/-- Every answer of the transcript fits. -/
def Fits (cmd : SecureCommand) (w : Transcript E) : Prop :=
  ∀ entry ∈ w, ¬ cmd.Overflows entry.2

/-- The headers of a transfer hold its offsets. -/
def HeadersFit (P : Primitives) : SecureCommand → Prop
  | readDataMac fileNo offset length buf =>
      ReadHeadersFit P macReadChunk fileNo offset length buf.length
  | readDataFull fileNo offset length buf =>
      ReadHeadersFit P fullReadChunk fileNo offset length buf.length
  | writeDataMac fileNo offset data => WriteHeadersFit P macWriteChunk fileNo offset data.length
  | writeDataFull fileNo offset data => WriteHeadersFit P fullWriteChunk fileNo offset data.length
  | _ => True

/-- A panic if an answer did not fit, and only then or at a header. -/
structure FaultFits (P : Primitives) (cmd : SecureCommand) (f : Fault (SessionError E))
    (w : Transcript E) : Prop where
  panics : ¬ cmd.Fits w → f = .panicked
  header : f = .panicked → cmd.Fits w → ¬ cmd.HeadersFit P

variable {cmd : SecureCommand} {w : Transcript E}

theorem AlwaysMac.copiesBody (h : cmd.AlwaysMac) : cmd.copiesBody = true := by
  cases cmd <;> first | rfl | exact h.elim

theorem fits_nil : cmd.Fits ([] : Transcript E) := fun _ h => nomatch h

theorem fits_concat_iff {apdu : List UInt8} {answer : Except E Response} :
    cmd.Fits (w ++ [(apdu, answer)]) ↔ cmd.Fits w ∧ ¬ cmd.Overflows answer := by
  simp only [Fits, List.forall_mem_append, List.forall_mem_singleton]

/-- An error, while everything fits. -/
theorem Fits.fault {P : Primitives} (h : cmd.Fits w) (e : SessionError E) :
    cmd.FaultFits P (.error e) w :=
  ⟨fun hno => absurd h hno, by rintro ⟨⟩⟩

/-- A panic behind an answer that did not fit. -/
theorem faultFits_of_not_fits {P : Primitives} (h : ¬ cmd.Fits w) : cmd.FaultFits P .panicked w :=
  ⟨fun _ => rfl, fun _ hfits => absurd hfits h⟩

theorem Fits.of_not_copiesBody (h : cmd.copiesBody = false) (w : Transcript E) : cmd.Fits w := by
  rintro entry - ⟨hcopies, -⟩
  exact nomatch h.symm.trans hcopies

end SecureCommand

/-- Encryption in place keeps the length of the buffer. -/
class KeepsLength (P : Primitives) (S : Type) [SessionSuite P S] : Prop where
  length_encrypt {s s' : S} {dir : Direction} {ti : Bytes 4} {ctr : UInt16} {buf out : List UInt8} :
    SessionSuite.encrypt P s dir ti ctr buf = some (out, s') → out.length = buf.length

instance (P : Primitives) : KeepsLength P AesSuite where
  length_encrypt h := by
    obtain ⟨_, hct, hout⟩ := Option.map_eq_some_iff.mp h
    cases hout
    exact length_aesCbcEncrypt hct

/-- LRICB keeps the length of a buffer. -/
theorem Lrp.length_lricb {f : List Nibble → Block → Block} {counter buf ctr out : List UInt8}
    (h : Lrp.lricb f counter buf = some (ctr, out)) : out.length = buf.length := by
  rw [Lrp.lricb] at h
  split at h
  · cases h
  · rename_i hbuf
    split at h
    · cases h
    · obtain ⟨-, rfl⟩ := Prod.mk.inj (Option.some.inj h)
      rw [length_ofBlocks, BlockMode.length_ctrMap, length_toBlocks]
      omega

instance (P : Primitives) : KeepsLength P LrpSuite where
  length_encrypt h := by
    obtain ⟨⟨_, _⟩, hct, hout⟩ := Option.map_eq_some_iff.mp h
    cases hout
    exact Lrp.length_lricb hct

/-! ### Exchanges -/

section Rules

variable {E S : Type} {P : Primitives} [SessionSuite P S] {cmd : SecureCommand}
  {s : Authenticated S} {w : Transcript E} {resp : Response}

/-- A successful response has arrived behind answers that fit. -/
def Received (cmd : SecureCommand) (resp : Response) (w : Transcript E) : Prop :=
  cmd.Fits w ↔ ¬ (cmd.copiesBody = true ∧ SecureCommand.maxBody < resp.data.length)

/-- A body that fits. -/
theorem Received.fits (h : Received cmd resp w) (hlen : resp.data.length ≤ SecureCommand.maxBody) :
    cmd.Fits w := h.mpr fun hlong => absurd hlen (Nat.not_le.mpr hlong.2)

theorem Received.not_fits (h : Received cmd resp w) (hcopies : cmd.copiesBody = true)
    (hlong : SecureCommand.maxBody < resp.data.length) : ¬ cmd.Fits w :=
  fun hfits => h.mp hfits ⟨hcopies, hlong⟩

/-- An answer arrives. -/
theorem SecureCommand.Fits.received (h : cmd.Fits w) {apdu : List UInt8}
    (hstatus : cmd.succeeds (desfireStatus resp.sw1 resp.sw2) = true) :
    Received cmd resp (w ++ [(apdu, .ok resp)]) := by
  rw [Received, SecureCommand.fits_concat_iff, and_iff_right h, not_iff_not]
  constructor
  · rintro ⟨hcopies, _, ⟨⟩, -, hlong⟩
    exact ⟨hcopies, hlong⟩
  · rintro ⟨hcopies, hlong⟩
    exact ⟨hcopies, resp, rfl, hstatus, hlong⟩

/-- An answer without success fits. -/
theorem SecureCommand.Fits.concat (h : cmd.Fits w) {apdu : List UInt8} {answer : Except E Response}
    (hstatus : ∀ resp, answer = .ok resp →
      cmd.succeeds (desfireStatus resp.sw1 resp.sw2) = true → False) :
    cmd.Fits (w ++ [(apdu, answer)]) := by
  refine SecureCommand.fits_concat_iff.mpr ⟨h, ?_⟩
  rintro ⟨-, resp, hanswer, hsucceeds, -⟩
  exact hstatus resp hanswer hsucceeds

/-- An answer with the status of success. -/
theorem wp_transmitExpecting_fitted {σ : Type} {t : σ} {Q : Response → σ → Transcript E → Prop}
    {apdu : List UInt8} (h : cmd.Fits w) (hplain : cmd ≠ .readSig)
    (hQ : ∀ resp w', Received cmd resp w' → desfireStatus resp.sw1 resp.sw2 = .operationOk →
      Q resp t w') :
    (transmitExpecting .operationOk apdu).wp (Records anyAnswer) (fun _ => True) Q
      (fun f _ => cmd.FaultFits P f) t w := by
  simp only [transmitExpecting, Script.wp_bind, Script.wp_require, Script.wp_pure]
  refine wp_transmit_recorded trivial (fun resp _ => ⟨fun hok => ?_, fun hno => ?_⟩) fun e _ => ?_
  · exact hQ resp _ (h.received (by rw [hok]; exact cmd.succeeds_of_ok)) hok
  · refine (h.concat ?_).fault _
    rintro _ ⟨⟩ hok
    exact hno (SecureCommand.eq_ok_of_succeeds hplain hok)
  · refine (h.concat ?_).fault _
    rintro _ ⟨⟩

/-- The MAC of a command of at most 255 bytes. -/
theorem wp_computeCmdMac_fitted {Q : Bytes 8 → Authenticated S → Transcript E → Prop}
    {ins : UInt8} {header data : List UInt8} (hlen : header.length + data.length ≤ maxApduBody)
    (hQ : ∀ mac s', Q mac s' w) :
    (computeCmdMac P ins header data).wp (Records anyAnswer) (fun _ => True) Q
      (fun f _ => cmd.FaultFits P f) s w := by
  have hcap : (macInput ins s.cmdCounter s.ti header data).length ≤ macInputCap := by
    simp only [macInput, macInputCap, List.length_cons, List.length_append, Numerals.length_leBytes,
      Bytes.length_toList]
    omega
  simp only [computeCmdMac, SecureChannel.state, SecureChannel.note, Script.wp_bind,
    Script.wp_get, Script.wp_assert, Script.wp_set, Script.wp_pure]
  exact ⟨fun _ => hQ _ _, fun hno => absurd hcap hno⟩

/-- A command with a MAC. -/
theorem wp_transmitMac_fitted {Q : Response → Authenticated S → Transcript E → Prop}
    {ins p1 p2 : UInt8} {header data : List UInt8}
    (hlen : header.length + data.length ≤ maxApduBody) (h : cmd.Fits w) (hplain : cmd ≠ .readSig)
    (hQ : ∀ resp s' w', Received cmd resp w' → Q resp s' w') :
    (transmitMac P ins p1 p2 header data).wp (Records anyAnswer) (fun _ => True) Q
      (fun f _ => cmd.FaultFits P f) s w := by
  simp only [transmitMac, Script.wp_bind]
  exact wp_computeCmdMac_fitted hlen fun _ s' =>
    wp_transmitExpecting_fitted h hplain fun resp w' hresp _ => hQ resp s' w' hresp

/-- A command with a MAC and encrypted data. -/
theorem wp_transmitFull_fitted [KeepsLength P S]
    {Q : Response → Authenticated S → Transcript E → Prop} {ins : UInt8} {header data : List UInt8}
    (hlen : header.length + (m2Pad data).length ≤ maxApduBody) (h : cmd.Fits w)
    (hplain : cmd ≠ .readSig) (hQ : ∀ resp s' w', Received cmd resp w' → Q resp s' w') :
    (transmitFull P ins header data).wp (Records anyAnswer) (fun _ => True) Q
      (fun f _ => cmd.FaultFits P f) s w := by
  simp only [transmitFull, encryptCommand, SecureChannel.state, SecureChannel.note, Script.wp_bind,
    Script.wp_get]
  cases henc : SessionSuite.encrypt P s.suite .command s.ti s.cmdCounter (m2Pad data) with
  | none => exact Script.wp_fail.mpr (h.fault _)
  | some r =>
      simp only [Script.wp_bind, Script.wp_get, Script.wp_set, Script.wp_pure]
      have hct : r.1.length = (m2Pad data).length := KeepsLength.length_encrypt henc
      exact wp_transmitMac_fitted (by omega) h hplain hQ

/-- **The verification of a response** panics on long bodies, and only on them. -/
theorem wp_verifyResponse_fitted {Q : List UInt8 → Authenticated S → Transcript E → Prop}
    {rc : UInt8} (hcopies : cmd.copiesBody = true) (h : Received cmd resp w)
    (hQ : ∀ data s', cmd.Fits w → data.length ≤ maxApduBody → Q data s' w) :
    (verifyResponseMacAndAdvance P rc resp.data).wp (Records anyAnswer) (fun _ => True) Q
      (fun f _ => cmd.FaultFits P f) s w := by
  have hdata : (resp.data.take (resp.data.length - macLen)).length = resp.data.length - macLen := by
    rw [List.length_take]
    omega
  have hcap : (macInput rc (s.cmdCounter + 1) s.ti
      (resp.data.take (resp.data.length - macLen)) []).length =
      7 + (resp.data.length - macLen) := by
    simp only [macInput, List.length_cons, List.length_append, Numerals.length_leBytes,
      Bytes.length_toList, List.length_nil, hdata]
    omega
  simp only [verifyResponseMacAndAdvance, SecureChannel.state, SecureChannel.note, advance,
    Script.wp_bind, Script.wp_get, Script.wp_assert, Script.wp_set, Script.wp_pure,
    Script.wp_require]
  refine ⟨fun hle => ⟨fun hfits => ?_, fun hlong => ?_⟩, fun hshort => ?_⟩
  · rw [hcap, macInputCap] at hfits
    have hall : cmd.Fits w := h.fits (by rw [SecureCommand.maxBody]; omega)
    exact ⟨fun _ => hQ _ _ hall (by rw [hdata]; omega), fun _ => hall.fault _⟩
  · rw [hcap, macInputCap] at hlong
    exact SecureCommand.faultFits_of_not_fits
      (h.not_fits hcopies (by rw [SecureCommand.maxBody]; omega))
  · exact (h.fits (by rw [SecureCommand.maxBody]; omega)).fault _

end Rules

/-! ### Commands -/

section Commands

variable {E S β : Type} {P : Primitives} [SessionSuite P S] {cmd : SecureCommand}
  {s : Authenticated S} {w : Transcript E} {resp : Response}

/-- Panic on long answers and on headers that do not fit, and on nothing else. -/
def PanicsOnOverflow (P : Primitives) (cmd : SecureCommand) (c : Cmd E (Authenticated S) β) :
    Prop :=
  ∀ s w, cmd.Fits w → c.wp (Records anyAnswer) (fun _ => True) (fun _ _ w' => cmd.Fits w')
    (fun f _ w' => cmd.FaultFits P f w') s w

omit [SessionSuite P S] in
/-- Dropping the value. -/
theorem PanicsOnOverflow.dropValue {c : Cmd E (Authenticated S) β} (h : PanicsOnOverflow P cmd c) :
    PanicsOnOverflow P cmd (do let _ ← c) := by
  intro s w hs
  exact Script.wp_bind_of (h s w hs) (fun _ _ _ h' => Script.wp_pure.mpr h') fun _ _ _ he => he

/-- `send_mac`. -/
theorem wp_sendMac_fitted {Q : List UInt8 → Authenticated S → Transcript E → Prop}
    {ins p1 p2 : UInt8} {header data : List UInt8} (hcmd : cmd.AlwaysMac) (h : cmd.Fits w)
    (hQ : ∀ plain s' w', cmd.Fits w' → Q plain s' w') :
    (sendMac P ins p1 p2 header data).wp (Records anyAnswer) (fun _ => True) Q
      (fun f _ => cmd.FaultFits P f) s w := by
  simp only [sendMac, Script.wp_bind, Script.wp_require, Script.wp_pure]
  refine ⟨fun hbody => ?_, fun _ => h.fault _⟩
  refine wp_transmitMac_fitted (by omega) h hcmd.ne_readSig fun resp s₁ w₁ h₁ => ?_
  exact wp_verifyResponse_fitted hcmd.copiesBody h₁ fun plain s₂ h₂ _ =>
    ⟨fun _ => hQ _ _ _ h₂, fun _ => h₂.fault _⟩

/-- Decrypting a response never panics. -/
theorem wp_decryptResponse_fitted {Q : List UInt8 → Authenticated S → Transcript E → Prop}
    {buf : List UInt8} (h : cmd.Fits w) (hQ : ∀ pt s', Q pt s' w) :
    (decryptResponse P buf).wp (Records anyAnswer) (fun _ => True) Q
      (fun f _ => cmd.FaultFits P f) s w := by
  simp only [decryptResponse, SecureChannel.state, SecureChannel.note, Script.wp_bind,
    Script.wp_get]
  cases SessionSuite.decrypt P s.suite .response s.ti s.cmdCounter buf with
  | none => exact Script.wp_fail.mpr (h.fault _)
  | some r =>
      simp only [Script.wp_bind, Script.wp_get, Script.wp_set, Script.wp_pure]
      exact hQ _ _

/-- Accept and decrypt an answer of fixed length. -/
theorem wp_decryptFullFixed_fitted {p ct : ℕ} (hcopies : cmd.copiesBody = true)
    (h : Received cmd resp w) :
    (decryptFullFixed P ct p resp.sw2 resp.data).wp (Records anyAnswer) (fun _ => True)
      (fun _ _ w' => cmd.Fits w') (fun f _ => cmd.FaultFits P f) s w := by
  simp only [decryptFullFixed, Script.wp_bind, Script.wp_require, Script.wp_pure]
  refine wp_verifyResponse_fitted hcopies h fun _ s₁ h₁ _ => ⟨fun _ => ?_, fun _ => h₁.fault _⟩
  exact wp_decryptResponse_fitted h₁ fun _ _ => ⟨fun _ => h₁, fun _ => h₁.fault _⟩

/-- Commands with an encrypted answer of fixed length. -/
theorem panicsOnOverflow_readFullFixed (hcmd : cmd.AlwaysMac)
    (ins : UInt8) (ct p : ℕ) :
    PanicsOnOverflow P cmd (readFullFixed P ins [] ct p : Cmd E (Authenticated S) _) := by
  intro s w h
  simp only [readFullFixed, Script.wp_bind]
  exact wp_transmitMac_fitted (by decide) h hcmd.ne_readSig fun resp s₁ w₁ h₁ =>
    wp_decryptFullFixed_fitted hcmd.copiesBody h₁

/-- `read_sig_mac`. -/
theorem panicsOnOverflow_readSigMac :
    PanicsOnOverflow P .readSig (readSigMac P : Cmd E (Authenticated S) _) := by
  intro s w h
  simp only [readSigMac, Script.wp_bind, Script.wp_require]
  refine wp_computeCmdMac_fitted (by decide) fun _ s₁ => ?_
  refine wp_transmit_recorded trivial (fun resp _ => ⟨fun hok => ?_, fun hno => ?_⟩) fun e _ => ?_
  · exact wp_decryptFullFixed_fitted rfl (h.received (decide_eq_true hok))
  · refine (h.concat ?_).fault _
    rintro _ ⟨⟩ hok
    exact hno (decide_eq_true_iff.mp hok)
  · refine (h.concat ?_).fault _
    rintro _ ⟨⟩

/-- `get_version_mac`: a chain of the right lengths has a body of 36 bytes. -/
theorem panicsOnOverflow_getVersionMac :
    PanicsOnOverflow P .getVersion (getVersionMac P : Cmd E (Authenticated S) _) := by
  intro s w h
  have hfits : ∀ w' : Transcript E, SecureCommand.getVersion.Fits w' :=
    SecureCommand.Fits.of_not_copiesBody rfl
  have hpart : ∀ {apdu : List UInt8} {t : Authenticated S} {w' : Transcript E}
      {Q : Bytes 7 → Authenticated S → Transcript E → Prop}, (∀ part w'', Q part t w'') →
      (requestIntermediatePart apdu).wp (Records anyAnswer) (fun _ => True) Q
        (fun f _ => SecureCommand.getVersion.FaultFits P f) t w' := by
    intro apdu t w' Q hQ
    simp only [requestIntermediatePart, Script.wp_bind]
    refine wp_transmitExpecting_recorded trivial (fun resp _ _ => ?_) fun _ _ _ => (hfits _).fault _
    exact wp_expectBytes_recorded (fun part _ => hQ part _) ((hfits _).fault _)
  simp only [getVersionMac, driveChain, Script.wp_bind, Script.wp_require, Script.wp_pure]
  refine wp_computeCmdMac_fitted (by decide) fun _ s₁ => hpart fun part1 w₁ =>
    hpart fun part2 w₂ => ?_
  refine wp_transmitExpecting_recorded trivial (fun resp _ _ => ?_) fun _ _ _ => (hfits _).fault _
  refine ⟨fun hlen => ?_, fun _ => (hfits _).fault _⟩
  simp only [verifyResponseMacAndAdvance, SecureChannel.state, SecureChannel.note, advance,
    Script.wp_bind, Script.wp_get, Script.wp_assert, Script.wp_set, Script.wp_pure,
    Script.wp_require]
  refine ⟨fun _ => ⟨fun _ => ⟨fun _ => hfits _, fun _ => (hfits _).fault _⟩, fun hno => ?_⟩,
    fun _ => (hfits _).fault _⟩
  refine absurd ?_ hno
  simp [macInput, macInputCap, maxApduBody, macLen, hlen]

/-- `get_key_version`. -/
theorem panicsOnOverflow_getKeyVersion (hcmd : cmd.AlwaysMac)
    (keyNo : KeyNumber) :
    PanicsOnOverflow P cmd (getKeyVersion P keyNo : Cmd E (Authenticated S) _) := by
  intro s w h
  simp only [getKeyVersion, Script.wp_bind]
  refine wp_sendMac_fitted hcmd h fun plain s' w' h' => ?_
  split
  · exact Script.wp_pure.mpr h'
  · exact Script.wp_fail.mpr (h'.fault _)

omit [SessionSuite P S] in
/-- Decoding an answer never panics. -/
theorem panicsOnOverflow_liftSettings {α : Type} (r : Except FileSettingsError α) :
    PanicsOnOverflow P cmd (liftSettings r : Cmd E (Authenticated S) α) := by
  intro s w h
  cases r with
  | ok a => exact Script.wp_pure.mpr h
  | error e => exact Script.wp_fail.mpr (h.fault _)

/-- `get_file_settings_mac`. -/
theorem panicsOnOverflow_getFileSettingsMac (hcmd : cmd.AlwaysMac) (fileNo : UInt8) :
    PanicsOnOverflow P cmd (getFileSettingsMac P fileNo : Cmd E (Authenticated S) _) := by
  intro s w h
  simp only [getFileSettingsMac, Script.wp_bind]
  exact wp_sendMac_fitted hcmd h fun plain s' w' h' => panicsOnOverflow_liftSettings _ s' w' h'

/-- `get_file_counters`. -/
theorem panicsOnOverflow_getFileCounters (hcmd : cmd.AlwaysMac)
    (fileNo : UInt8) :
    PanicsOnOverflow P cmd (getFileCounters P fileNo : Cmd E (Authenticated S) _) := by
  intro s w h
  simp only [getFileCounters, Script.wp_bind]
  refine wp_sendMac_fitted hcmd h fun plain s' w' h' => ?_
  split
  · exact Script.wp_pure.mpr h'
  split
  · simp only [Script.wp_bind, Script.wp_require, Script.wp_pure]
    exact wp_decryptResponse_fitted h' fun _ _ => ⟨fun _ => h', fun _ => h'.fault _⟩
  · exact Script.wp_fail.mpr (h'.fault _)

/-- `transmit` of `ChangeKey`: with a MAC, or with an empty answer. -/
theorem panicsOnOverflow_transmitKey [KeepsLength P S] (hplain : cmd ≠ .readSig) (keyNo : KeyNumber)
    {plaintext : List UInt8} (hlen : plaintext.length = 32) :
    PanicsOnOverflow P cmd
      (transmitKey P keyNo plaintext cmd.copiesBody : Cmd E (Authenticated S) Unit) := by
  intro s w h
  simp only [transmitKey, encryptCommand, SecureChannel.state, SecureChannel.note, Script.wp_bind,
    Script.wp_get]
  cases henc : SessionSuite.encrypt P s.suite .command s.ti s.cmdCounter plaintext with
  | none => exact Script.wp_fail.mpr (h.fault _)
  | some r =>
      simp only [Script.wp_bind, Script.wp_get, Script.wp_set, Script.wp_pure]
      have hct : r.1.length = plaintext.length := KeepsLength.length_encrypt henc
      have hfit : [keyNo.asByte].length + r.1.length ≤ maxApduBody := by
        rw [hct, hlen, List.length_singleton, maxApduBody]
        omega
      refine wp_transmitMac_fitted hfit h hplain fun resp s₁ w₁ h₁ => ?_
      cases hcopies : cmd.copiesBody with
      | true =>
          simp only [if_true, Script.wp_bind, Script.wp_pure]
          exact wp_verifyResponse_fitted hcopies h₁ fun _ _ h' _ => h'
      | false =>
          have hfits : cmd.Fits w₁ := .of_not_copiesBody hcopies _
          simp only [Bool.false_eq_true, if_false, advanceCounter, SecureChannel.note, advance,
            SecureChannel.state, Script.wp_bind, Script.wp_require, Script.wp_get, Script.wp_set]
          exact ⟨fun _ => hfits, fun _ => hfits.fault _⟩

/-- `set_configuration`. -/
theorem panicsOnOverflow_setOptions [KeepsLength P S] (hcopies : cmd.copiesBody = true)
    (hplain : cmd ≠ .readSig) {options : List (UInt8 × List UInt8)}
    (hdata : ∀ o ∈ options, o.2.length ≤ 10) :
    PanicsOnOverflow P cmd (setOptions P options : Cmd E (Authenticated S) _) := by
  induction options with
  | nil => exact fun s w h => Script.wp_pure.mpr h
  | cons option rest ih =>
      intro s w h
      obtain ⟨hoption, hrest⟩ := List.forall_mem_cons.mp hdata
      have hlen : [option.1].length + (m2Pad option.2).length ≤ maxApduBody := by
        rw [length_m2Pad, List.length_singleton, maxApduBody]
        omega
      simp only [setOptions, setConfigurationOne, Script.wp_bind]
      refine wp_transmitFull_fitted hlen h hplain fun resp s₁ w₁ h₁ => ?_
      split
      · rename_i hnil
        have hfits : cmd.Fits w₁ := h₁.fits (by rw [hnil]; exact Nat.zero_le _)
        simp only [advanceCounter, SecureChannel.note, advance, SecureChannel.state, Script.wp_bind,
          Script.wp_get, Script.wp_set]
        exact ih hrest _ _ hfits
      · simp only [Script.wp_bind, Script.wp_pure]
        exact wp_verifyResponse_fitted hcopies h₁ fun _ s₂ h₂ _ => ih hrest s₂ _ h₂

/-- `change_file_settings`. -/
theorem panicsOnOverflow_changeFileSettings [KeepsLength P S] (hcmd : cmd.AlwaysMac)
    (fileNo : UInt8) (settings : FileSettingsUpdate) :
    PanicsOnOverflow P cmd (changeFileSettings P fileNo settings : Cmd E (Authenticated S) _) := by
  intro s w h
  simp only [changeFileSettings, Script.wp_bind]
  cases hraw : settings.encode maxChangeFileSettingsLen with
  | error e => exact Script.wp_fail.mpr (h.fault _)
  | ok raw =>
      have hcap : raw.length ≤ maxChangeFileSettingsLen := FileSettingsUpdate.length_encode_le hraw
      have hlen : [fileNo].length + (m2Pad raw).length ≤ maxApduBody := by
        rw [length_m2Pad, List.length_singleton, maxApduBody]
        rw [maxChangeFileSettingsLen] at hcap
        omega
      simp only [liftSettings, Script.wp_pure]
      refine wp_transmitFull_fitted hlen h hcmd.ne_readSig fun resp s₁ w₁ h₁ => ?_
      exact wp_verifyResponse_fitted hcmd.copiesBody h₁ fun _ _ h' _ => h'

/-! ### File data -/

omit [SessionSuite P S] in
/-- A header of a read that fits if those of the command do. -/
theorem wp_buildReadHeader_fitted {Q : List UInt8 → Authenticated S → Transcript E → Prop}
    {fileNo : UInt8} {offset length : UInt32}
    (hfits : cmd.HeadersFit P → P.debugAssertions = true → HeaderFits fileNo offset length)
    (hQ : Q (headerBytes fileNo offset length) s w) :
    (buildReadHeader P fileNo offset length).wp (Records anyAnswer) (fun _ => True) Q
      (fun f _ => cmd.FaultFits P f) s w := by
  refine (wp_buildReadHeader P).mpr ⟨fun _ => hQ, fun hno => ⟨fun _ => rfl, fun _ _ hall => ?_⟩⟩
  exact hno (hfits hall)

omit [SessionSuite P S] in
/-- A header of a write that fits if those of the command do. -/
theorem wp_buildWriteHeader_fitted {Q : List UInt8 → Authenticated S → Transcript E → Prop}
    {fileNo : UInt8} {offset length : UInt32} (hne : length ≠ 0)
    (hfits : cmd.HeadersFit P → P.debugAssertions = true → HeaderFits fileNo offset length)
    (hQ : Q (headerBytes fileNo offset length) s w) :
    (buildWriteHeader P fileNo offset length).wp (Records anyAnswer) (fun _ => True) Q
      (fun f _ => cmd.FaultFits P f) s w := by
  refine (wp_buildWriteHeader P).mpr ⟨fun _ => hQ, fun hno => ⟨fun _ => rfl, fun _ _ hall => ?_⟩⟩
  exact hno fun hdebug => ⟨hfits hall hdebug, hne⟩

/-- A request fits its APDU. -/
theorem length_headerBytes_le (fileNo : UInt8) (offset length : UInt32) :
    (headerBytes fileNo offset length).length + ([] : List UInt8).length ≤ maxApduBody := by
  simp [maxApduBody]

/-- `read_data_mac`. -/
theorem panicsOnOverflow_readDataMac (hcmd : cmd.AlwaysMac) {fileNo : UInt8}
    {offset length : UInt32} {buf : List UInt8}
    (hheaders : cmd.HeadersFit P →
      ReadHeadersFit P macReadChunk fileNo offset length buf.length) :
    PanicsOnOverflow P cmd
      (readDataMac P fileNo offset length buf : Cmd E (Authenticated S) _) := by
  intro s w h
  simp only [readDataMac, Script.wp_bind]
  refine wp_validateRequest_readable (fun hread => ?_) fun _ _ _ _ => h.fault _
  obtain ⟨-, htarget⟩ := hread.target
  refine wp_readDataMacLoop P
    (J := InBuffer macReadChunk buf.length (readTarget length buf.length) fun _ w' => cmd.Fits w')
    (fun _ _ _ _ h' => htarget.trans_eq h'.1.symm) (fun _ _ _ h' => h'.2.2)
    (fun total buf' s₁ w₁ h₁ hlt => ?_) ⟨rfl, .zero _ _, h⟩
  have hmax : min (readTarget length buf.length - total) macReadChunk ≤ 256 :=
    (Nat.min_le_right ..).trans (by simp [macReadChunk])
  have hslice := h₁.length_part htarget hlt
  simp only [readDataMacOneApdu, Script.wp_bind, Script.wp_require, Script.wp_assert,
    Script.wp_pure, hslice, wantPlainBytes_chunk hmax]
  refine wp_buildReadHeader_fitted
    (fun hall => (hheaders hall hread).headerFits hread.1 h₁.2.1 hlt hmax) ?_
  refine wp_transmitMac_fitted (length_headerBytes_le _ _ _) h₁.2.2 hcmd.ne_readSig
    fun resp s₂ w₂ h₂ => ?_
  refine wp_verifyResponse_fitted hcmd.copiesBody h₂ fun data s₃ h₃ _ => ⟨fun hle => ⟨fun _ => ?_,
    fun hno => absurd hle hno⟩, fun _ => h₃.fault _⟩
  exact h₁.chunkRead htarget hlt hle ((length_overlay (by omega)).trans hslice) h₃

/-- `read_data_full`: decrypted data has the length that was asked for. -/
theorem panicsOnOverflow_readDataFull (hcmd : cmd.AlwaysMac) {fileNo : UInt8}
    {offset length : UInt32} {buf : List UInt8}
    (hheaders : cmd.HeadersFit P →
      ReadHeadersFit P fullReadChunk fileNo offset length buf.length) :
    PanicsOnOverflow P cmd
      (readDataFull P fileNo offset length buf : Cmd E (Authenticated S) _) := by
  intro s w h
  simp only [readDataFull, Script.wp_bind]
  refine wp_validateRequest_readable (fun hread => ?_) fun _ _ _ _ => h.fault _
  obtain ⟨-, htarget⟩ := hread.target
  refine wp_readDataFullLoop P
    (J := InBuffer fullReadChunk buf.length (readTarget length buf.length) fun _ w' => cmd.Fits w')
    (fun _ _ _ _ h' => htarget.trans_eq h'.1.symm) (fun _ _ _ h' => h'.2.2)
    (fun total buf' s₁ w₁ h₁ hlt => ?_) ⟨rfl, .zero _ _, h⟩
  have hmax : min (readTarget length buf.length - total) fullReadChunk ≤ 256 :=
    (Nat.min_le_right ..).trans (by simp [fullReadChunk])
  have hpos : 0 < min (readTarget length buf.length - total) fullReadChunk := by
    rw [fullReadChunk]
    omega
  have hslice := h₁.length_part htarget hlt
  have hlen := toNat_ofNat_chunk hmax
  have hne := ofNat_chunk_ne_zero hpos hmax
  simp only [readDataFullOneApdu, Script.wp_bind, Script.wp_require, Script.wp_assert]
  refine wp_buildReadHeader_fitted
    (fun hall => (hheaders hall hread).headerFits hread.1 h₁.2.1 hlt hmax) ?_
  refine wp_transmitMac_fitted (length_headerBytes_le _ _ _) h₁.2.2 hcmd.ne_readSig
    fun resp s₂ w₂ h₂ => ?_
  refine wp_verifyResponse_fitted hcmd.copiesBody h₂ fun ct s₃ h₃ hct => ⟨fun _ => ⟨fun _ => ?_,
    fun hno => absurd ?_ hno⟩, fun _ => h₃.fault _⟩
  · refine wp_decryptResponse_fitted h₃ fun pt s₄ => ?_
    split
    · exact Script.wp_fail.mpr (h₃.fault _)
    · rename_i padStart _
      simp only [Script.wp_bind, Script.wp_require, Script.wp_pure]
      refine ⟨fun hpinned => ⟨fun hle => ?_, fun _ => h₃.fault _⟩, fun _ => h₃.fault _⟩
      refine ⟨(hpinned.resolve_left hne).trans hlen, h₁.next htarget hlt ?_ h₃⟩
      rw [length_overlay (by rw [List.length_take]; omega), hslice]
  · exact hct.trans (by simp [maxApduBody, readDataRespCap])

omit [SessionSuite P S] in
/-- A write, chunk by chunk: those before the last one that fits have headers that fit. -/
theorem wp_writeLoop_fitted {chunk : ℕ} {one : UInt32 → List UInt8 → Cmd E (Authenticated S) Unit}
    {fileNo : UInt8} {offset : UInt32} {data : List UInt8} (hpos : 0 < chunk) (hchunk : chunk ≤ 256)
    (hfile : fileNo ≤ 0x1F)
    (hheaders : cmd.HeadersFit P → LastHeaderFits P chunk offset data.length)
    (hone : ∀ {offset part s w}, cmd.Fits w → UInt32.ofNat part.length ≠ 0 →
      (cmd.HeadersFit P → P.debugAssertions = true →
        HeaderFits fileNo offset (UInt32.ofNat part.length)) →
      (one offset part).wp (Records anyAnswer) (fun _ => True) (fun _ _ w' => cmd.Fits w')
        (fun f _ => cmd.FaultFits P f) s w) (h : cmd.Fits w) :
    (writeLoop chunk one offset data).wp (Records anyAnswer) (fun _ => True)
      (fun _ _ w' => cmd.Fits w') (fun f _ => cmd.FaultFits P f) s w := by
  refine wp_writeLoop (J := fun written _ w' => AtChunk chunk data.length written ∧ cmd.Fits w')
    hpos (fun _ _ h' => h'.2) (fun written s₁ w₁ h₁ hlt => ?_) ⟨.zero _ _, h⟩
  have hlen : (slice data written chunk).length = min (data.length - written) chunk := by
    rw [slice, List.length_take, List.length_drop, Nat.min_comm]
  have hne := ofNat_chunk_ne_zero (n := (slice data written chunk).length) (by omega) (by omega)
  refine Script.wp_mono (hone h₁.2 hne fun hall => ?_) (fun _ _ _ h' => ⟨?_, h'⟩)
    fun _ _ _ he => he
  · exact (hheaders hall).headerFits hfile h₁.1 hlt (by omega)
  · rw [hlen]
    exact h₁.1.next hlt

/-- `write_data_mac`. -/
theorem panicsOnOverflow_writeDataMac (hcmd : cmd.AlwaysMac) {fileNo : UInt8} {offset : UInt32}
    {data : List UInt8}
    (hheaders : cmd.HeadersFit P → WriteHeadersFit P macWriteChunk fileNo offset data.length) :
    PanicsOnOverflow P cmd (writeDataMac P fileNo offset data : Cmd E (Authenticated S) _) := by
  intro s w h
  simp only [writeDataMac, Script.wp_bind]
  refine wp_validateHeader_writable (fun hwrite => ?_) fun _ _ _ _ => h.fault _
  refine wp_writeLoop_fitted (by simp [macWriteChunk]) (by simp [macWriteChunk]) hwrite.1
    (fun hall => hheaders hall hwrite) (fun h₁ hne hfits => ?_) h
  simp only [writeDataMacOneApdu, Script.wp_bind, Script.wp_require]
  refine wp_buildWriteHeader_fitted hne hfits ?_
  exact wp_sendMac_fitted hcmd h₁ fun _ _ _ h₂ => ⟨fun _ => h₂, fun _ => h₂.fault _⟩

/-- `write_data_full`. -/
theorem panicsOnOverflow_writeDataFull [KeepsLength P S] (hcmd : cmd.AlwaysMac) {fileNo : UInt8}
    {offset : UInt32} {data : List UInt8}
    (hheaders : cmd.HeadersFit P → WriteHeadersFit P fullWriteChunk fileNo offset data.length) :
    PanicsOnOverflow P cmd (writeDataFull P fileNo offset data : Cmd E (Authenticated S) _) := by
  intro s w h
  simp only [writeDataFull, Script.wp_bind]
  refine wp_validateHeader_writable (fun hwrite => ?_) fun _ _ _ _ => h.fault _
  refine wp_writeLoop_fitted (by simp [fullWriteChunk]) (by simp [fullWriteChunk]) hwrite.1
    (fun hall => hheaders hall hwrite) (fun h₁ hne hfits => ?_) h
  simp only [writeDataFullOneApdu, validateBodyLen, Script.wp_bind, Script.wp_require,
    Script.wp_pure]
  refine wp_buildWriteHeader_fitted hne hfits ?_
  refine ⟨fun hbody => ?_, fun _ => h₁.fault _⟩
  refine wp_transmitFull_fitted (by rw [length_headerBytes]; omega) h₁ hcmd.ne_readSig
    fun resp s₂ w₂ h₂ => ?_
  exact wp_verifyResponse_fitted hcmd.copiesBody h₂ fun _ _ h' _ => h'

/-! ### When a command returns -/

/-- **Every command panics on long answers and on headers that do not fit**, and on nothing else,
against any transport. -/
theorem SecureCommand.wp_perform_fitted [KeepsLength P S] (cmd : SecureCommand) :
    PanicsOnOverflow P cmd (cmd.perform P : Cmd E (Authenticated S) Unit) := by
  cases cmd with
  | getVersion => exact panicsOnOverflow_getVersionMac.dropValue
  | changeKey keyNo newKey newKeyVersion oldKey =>
      exact panicsOnOverflow_transmitKey (by nofun) keyNo.toKeyNumber
        (by simp [changeKeyPlaintext, crc32])
  | changeMasterKey newKey newKeyVersion =>
      exact panicsOnOverflow_transmitKey (by nofun) .key0 (by simp [changeMasterKeyPlaintext])
  | getCardUid => exact (panicsOnOverflow_readFullFixed (by trivial) 0x51 16 7).dropValue
  | getTtStatus =>
      refine PanicsOnOverflow.dropValue fun s w h => ?_
      exact Script.wp_bind_of (panicsOnOverflow_readFullFixed (by trivial) 0xF7 16 2 s w h)
        (fun _ _ _ h' => Script.wp_pure.mpr h') fun _ _ _ he => he
  | readSig => exact panicsOnOverflow_readSigMac.dropValue
  | getKeyVersion keyNo => exact (panicsOnOverflow_getKeyVersion (by trivial) keyNo).dropValue
  | getFileSettings fileNo =>
      exact (panicsOnOverflow_getFileSettingsMac (by trivial) fileNo).dropValue
  | getFileCounters fileNo => exact (panicsOnOverflow_getFileCounters (by trivial) fileNo).dropValue
  | setConfiguration configuration =>
      exact panicsOnOverflow_setOptions rfl (by nofun) fun _ ho => Configuration.length_le ho
  | changeFileSettings fileNo settings =>
      exact panicsOnOverflow_changeFileSettings (by trivial) fileNo settings
  | readDataMac fileNo offset length buf =>
      exact (panicsOnOverflow_readDataMac (by trivial) id).dropValue
  | readDataFull fileNo offset length buf =>
      exact (panicsOnOverflow_readDataFull (by trivial) id).dropValue
  | writeDataMac fileNo offset data =>
      exact panicsOnOverflow_writeDataMac (by trivial) id
  | writeDataFull fileNo offset data =>
      exact panicsOnOverflow_writeDataFull (by trivial) id

/-- Some tag with answers that fit makes a transfer panic whose headers do not fit. -/
theorem SecureCommand.mayPanic_of_not_headersFit [InvertibleSuite P S] (hP : P.Lawful)
    {cmd : SecureCommand} (h : ¬ cmd.HeadersFit P) :
    MayPanic (E := E) (cmd.perform P : Cmd E (Authenticated S) Unit) s w := by
  have hdrop : ∀ {c : Cmd E (Authenticated S) (ℕ × List UInt8)}, MayPanic c s w →
      MayPanic (do let _ ← c) s w := by
    intro c hc
    rw [MayPanic] at hc ⊢
    exact Script.may_bind.mpr (Script.may_mono hc (fun _ _ _ hno => hno.elim) fun _ _ _ hf => hf)
  cases cmd with
  | readDataMac fileNo offset length buf => exact hdrop (readDataMac_mayPanic h)
  | readDataFull fileNo offset length buf => exact hdrop (readDataFull_mayPanic hP h)
  | writeDataMac fileNo offset data => exact writeDataMac_mayPanic h
  | writeDataFull fileNo offset data => exact writeDataFull_mayPanic hP h
  | _ => exact absurd trivial h

/-- Answers of at most 256 bytes fit. -/
theorem SecureCommand.fits_of_short {cmd : SecureCommand} {r : Outcome (SessionError E) β}
    {c : Cmd E (Authenticated S) β} {s' : Authenticated S} {w : Transcript E}
    (hend : Prog.Ends (Records shortAnswer) (c s) [] (r, s') w) : cmd.Fits w := by
  have hkeeps : Prog.wp (Records shortAnswer) (fun _ => True) (c s)
      (fun _ (w' : Transcript E) => cmd.Fits w') [] := by
    refine Prog.wp_keeps (J := fun w' : Transcript E => cmd.Fits w') ?_ (c s) fits_nil
    rintro apdu w₁ answer _ hfits ⟨hshort, rfl⟩
    refine fits_concat_iff.mpr ⟨hfits, ?_⟩
    rintro ⟨-, resp, hanswer, -, hlong⟩
    have hle := hshort resp hanswer
    rw [maxBody, maxApduBody, macLen] at hlong
    omega
  have hfits := Prog.wp_ends hkeeps hend
  exact hfits

/-- **When a command returns.** A run of a secure-messaging command that returns a value or an
error has received, in every successful answer whose body goes into the MAC input, at most 263
bytes. All runs with such answers return, whatever else the transport does, exactly when the
command is no transfer that builds, with debug assertions, a header that does not hold its
offset. -/
theorem SecureCommand.returns_iff [KeepsLength P S] [InvertibleSuite P S] (hP : P.Lawful)
    (cmd : SecureCommand) (s : Authenticated S) :
    (∀ r s' w, Prog.Ends (Records (E := E) anyAnswer) (cmd.perform P s) [] (r, s') w →
      r ≠ .error .panicked → cmd.Fits w) ∧
    ((∀ r s' w, Prog.Ends (Records (E := E) anyAnswer) (cmd.perform P s) [] (r, s') w →
      cmd.Fits w → r ≠ .error .panicked) ↔ cmd.HeadersFit P) := by
  have hwp := SecureCommand.wp_perform_fitted (P := P) (E := E) cmd s [] fits_nil
  refine ⟨fun r s' w hend hreturns => ?_, fun hreturns => ?_, fun hheaders r s' w hend hfits => ?_⟩
  · rcases r with f | u
    · by_contra hlong
      exact hreturns (congrArg _ ((Script.wp_ends_fault hwp hend).panics hlong))
    · exact Script.wp_ends hwp hend
  · by_contra hheaders
    obtain ⟨s', w, hend⟩ := (mayPanic_of_not_headersFit (s := s) (E := E) hP hheaders).exists_ends
    refine hreturns _ s' w (hend.mono ?_) (fits_of_short hend) rfl
    rintro _ _ _ _ ⟨-, hw⟩
    exact ⟨trivial, hw⟩
  · rintro rfl
    exact (Script.wp_ends_fault hwp hend).header rfl hfits hheaders

/-- A transport that answers every APDU with success and 264 bytes. -/
def longAnswers (_ : List UInt8) (w : Transcript Empty) :
    Except Empty Response × Transcript Empty :=
  (.ok ⟨List.replicate 264 0, 0x91, 0x00⟩, w)

/-- `GetKeyVersion` does not return when it is answered with 264 bytes. -/
theorem getKeyVersion_longAnswers :
    (Prog.run longAnswers (SecureCommand.perform .standard (.getKeyVersion .key0)
      (.withAuthResult ⟨(⟨Bytes.zeros 16, Bytes.zeros 16⟩ : AesSuite), Bytes.zeros 4, Bytes.zeros 6,
        Bytes.zeros 6⟩ .key0 : Authenticated AesSuite)) []).1.1 = .error .panicked := by
  decide +kernel

/-- A version that was answered with a right MAC fits, and in a build with debug assertions a
write of 241 bytes to the last offset panics though its answers fit. -/
theorem getKeyVersion_returns :
    let s : Authenticated AesSuite := .withAuthResult
      ⟨⟨Bytes.zeros 16, Bytes.zeros 16⟩, Bytes.zeros 4, Bytes.zeros 6, Bytes.zeros 6⟩ .key0
    let write : SecureCommand := .writeDataMac 0x02 0xFFFFFF (List.replicate 241 0x00)
    (∃ s' w, Prog.Ends (Records (E := Empty) anyAnswer)
      ((SecureCommand.getKeyVersion .key0).perform .standard s) [] (.ok (), s') w ∧ w ≠ [] ∧
        (SecureCommand.getKeyVersion .key0).Fits w) ∧
      ¬ ∀ r s' w, Prog.Ends (Records (E := Empty) anyAnswer) (write.perform .debug s) [] (r, s') w →
        write.Fits w → r ≠ .error .panicked := by
  intro s write
  constructor
  · obtain ⟨s', apdu, hend⟩ := exists_getKeyVersion_ends (P := .standard) s
    have hfits := (SecureCommand.returns_iff (E := Empty) Primitives.standard_lawful
      (.getKeyVersion .key0) s).1 _ s' _ hend (by rintro ⟨⟩)
    exact ⟨s', _, hend, List.cons_ne_nil _ _, hfits⟩
  · intro hall
    have hheaders := (SecureCommand.returns_iff Primitives.debug_lawful write s).2.mp hall
    have hwritable : Writable 0x02 0xFFFFFF (List.replicate 241 (0x00 : UInt8)).length := by
      rw [List.length_replicate]
      exact ⟨by decide, by decide, by decide, by decide⟩
    have hfits := hheaders hwritable rfl
    rw [List.length_replicate] at hfits
    exact absurd hfits (by decide)

end Commands

end Ntag424
