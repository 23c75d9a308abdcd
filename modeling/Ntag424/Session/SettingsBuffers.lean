import Mathlib.Tactic.Common
import Ntag424.FileSettings.RoundTrip
import Ntag424.Session.Overflow
import Ntag424.Session.Padding

/-!
# The Buffers of ChangeFileSettings

`change_file_settings` works in three arrays whose sizes were computed by hand: one for the
encoded settings, one for their padding and one for the APDU. The settings have at most eight
numbers, so the encoder never runs out of room, and what it writes fits the other two.

## Modelling

* `changeFileSettingsBuffers` is the command over these arrays: each copy panics outside its
  array, and so does the assertion on the length of the APDU.

## Main results

* `FileSettingsUpdate.encode_eq_error_iff`: the encoder refuses exactly a counter limit above 24
  bits.
* `padSettings_eq`, `settingsApdu_eq`: the padding and the APDU are assembled without a panic.
* `changeFileSettings_fits`: the command over the arrays is the command over lists.
-/

namespace Ntag424

open Numerals Outcome SecureChannel

/-! ### The encoder -/

namespace WCursor

theorem array_of_room (src : List UInt8) {w : WCursor}
    (h : w.out.length + src.length ≤ w.cap) :
    ∃ w', w.array src = .ok w' ∧ w'.cap = w.cap ∧ w'.out = w.out ++ src := by
  refine ⟨⟨w.cap, w.out ++ src, by rwa [List.length_append]⟩, ?_, rfl, rfl⟩
  exact array_eq_ok_iff.mpr ⟨rfl, rfl⟩

/-- Where there is room for them all, writing numbers fails at the first one above 24 bits. -/
theorem foldlM_u24Le_eq_error_iff {vs : List ℕ} {w : WCursor} {e : FileSettingsError}
    (hroom : w.out.length + 3 * vs.length ≤ w.cap) :
    vs.foldlM (fun w v => w.u24Le v) w = .error e ↔
      ∃ v, vs.find? (fun v => 0xFFFFFF < v) = some v ∧ e = .offsetOutOfRange v := by
  induction vs generalizing w with
  | nil => simp [pure, Except.pure]
  | cons v vs ih =>
      rw [List.foldlM_cons, u24Le]
      by_cases hv : v > 0xFFFFFF
      · rw [if_pos hv, List.find?_cons_of_pos (by simpa using hv)]
        simp [eq_comm]
      · have hlen : (leBytes 3 v).length = 3 := length_leBytes 3 v
        rw [List.length_cons] at hroom
        obtain ⟨w', hw', hcap, hout⟩ := array_of_room (leBytes 3 v) (w := w) (by omega)
        rw [if_neg hv, List.find?_cons_of_neg (by simpa using hv), hw', Except.ok_bind']
        refine ih ?_
        rw [hcap, hout, List.length_append, hlen]
        omega

end WCursor

namespace Sdm

/-- Two identity mirrors, the tamper status, four numbers of a file read and the limit. -/
theorem length_wireNumbers_le (s : Sdm) : s.wireNumbers.length ≤ 8 := by
  have hpicc : s.piccOffsets.length ≤ 2 := by
    rw [piccOffsets]
    rcases s.piccData with _ | (uid | m | ⟨uid, m⟩) | ⟨key, offset, content⟩ <;> simp
  have hread : s.fileReadOffsets.length ≤ 4 := by
    rw [fileReadOffsets]
    rcases s.fileRead with _ | ⟨key, window⟩ | ⟨key, window, enc⟩ <;> simp [FileRead.enc]
  have hoption (o : Option ℕ) : o.toList.length ≤ 1 := by
    cases o <;> simp
  have htamper := hoption (s.tamperStatus.map Offset.val)
  have hlimit := hoption s.piccData.readCtrLimit
  simp only [wireNumbers, List.length_append]
  omega

/-- The first number above 24 bits can only be the limit. -/
theorem find?_wireNumbers_iff {s : Sdm} {v : ℕ} :
    s.wireNumbers.find? (fun v => 0xFFFFFF < v) = some v ↔
      s.piccData.readCtrLimit = some v ∧ 0xFFFFFF < v := by
  constructor
  · intro h
    have hlt : 0xFFFFFF < v := by simpa using List.find?_some h
    rcases le_max_or_limit_of_mem (List.mem_of_find?_eq_some h) with hle | hlimit
    · omega
    · exact ⟨hlimit, hlt⟩
  · rintro ⟨hlimit, hlt⟩
    have hsome : (s.wireNumbers.find? (fun v => 0xFFFFFF < v)).isSome := by
      rw [List.find?_isSome]
      exact ⟨v, limit_mem_wireNumbers hlimit, by simpa using hlt⟩
    obtain ⟨v', hv'⟩ := Option.isSome_iff_exists.mp hsome
    have hlt' : 0xFFFFFF < v' := by simpa using List.find?_some hv'
    rcases le_max_or_limit_of_mem (List.mem_of_find?_eq_some hv') with hle | hlimit'
    · omega
    · rw [hv', ← hlimit', hlimit]

/-- Where there is room for a whole SDM block, only the limit is refused. -/
theorem encode_eq_error_iff {s : Sdm} {w : WCursor} {e : FileSettingsError}
    (hroom : w.out.length + 27 ≤ w.cap) :
    s.encode w = .error e ↔ ∃ limit, s.piccData.readCtrLimit = some limit ∧ 0xFFFFFF < limit ∧
      e = .offsetOutOfRange limit := by
  have hnumbers := s.length_wireNumbers_le
  have hrights : s.accessBytes.length = 2 := rfl
  obtain ⟨w₁, h₁, hcap₁, hout₁⟩ := WCursor.array_of_room [s.optionsByte] (w := w)
    (by rw [List.length_singleton]; omega)
  have hlen₁ := congrArg List.length hout₁
  rw [List.length_append, List.length_singleton] at hlen₁
  obtain ⟨w₂, h₂, hcap₂, hout₂⟩ := WCursor.array_of_room s.accessBytes (w := w₁)
    (by omega)
  have hlen₂ := congrArg List.length hout₂
  rw [List.length_append] at hlen₂
  rw [encode, WCursor.u8, h₁, Except.ok_bind', h₂, Except.ok_bind',
    WCursor.foldlM_u24Le_eq_error_iff (by omega)]
  simp only [find?_wireNumbers_iff, and_assoc]

end Sdm

/-- **The only error of the encoder** in its buffer is the one for a counter limit above 24
bits. -/
theorem FileSettingsUpdate.encode_eq_error_iff {u : FileSettingsUpdate} {e : FileSettingsError} :
    u.encode maxChangeFileSettingsLen = .error e ↔
      ∃ s limit, u.sdm = some s ∧ s.piccData.readCtrLimit = some limit ∧ 0xFFFFFF < limit ∧
        e = .offsetOutOfRange limit := by
  have hrights : u.accessRights.toLeBytes.length = 2 := rfl
  obtain ⟨w₁, h₁, hcap₁, hout₁⟩ := WCursor.array_of_room [u.fileOption]
    (w := WCursor.new maxChangeFileSettingsLen) (by simp [WCursor.new, maxChangeFileSettingsLen])
  have hlen₁ := congrArg List.length hout₁
  rw [List.length_append, List.length_singleton] at hlen₁
  have hnew : (WCursor.new maxChangeFileSettingsLen).out.length = 0 := rfl
  have hmax : (WCursor.new maxChangeFileSettingsLen).cap = 33 := rfl
  obtain ⟨w₂, h₂, hcap₂, hout₂⟩ := WCursor.array_of_room u.accessRights.toLeBytes
    (w := w₁) (by omega)
  have hlen₂ := congrArg List.length hout₂
  rw [List.length_append] at hlen₂
  rw [encode, WCursor.u8, h₁, Except.ok_bind', h₂, Except.ok_bind']
  cases hsdm : u.sdm with
  | none => simp [Sdm.encodeOption, pure, Except.pure]
  | some s =>
      rw [Sdm.encodeOption, Except.bind_eq_error_iff, Sdm.encode_eq_error_iff (by omega)]
      simp [pure, Except.pure]

/-! ### The buffers -/

/-- The padding of `change_file_settings`: the settings and the marker are copied into a buffer
of zeros, and the whole blocks that hold them are handed to the cipher. -/
def padSettings {ε : Type} (raw : List UInt8) : Outcome ε (List UInt8) := do
  let paddedLen := (raw.length + 1 + 15) / 16 * 16
  let padded ← copyInto (List.replicate (maxChangeFileSettingsLen + 16) 0) 0 raw
  let padded ← copyInto padded raw.length [0x80]
  sliceRange padded 0 paddedLen

/-- The APDU of `change_file_settings`, assembled in its buffer. -/
def settingsApdu {ε : Type} (fileNo : UInt8) (ct mac : List UInt8) : Outcome ε (List UInt8) := do
  let lc := 1 + ct.length + macLen
  let apduLen := 5 + lc + 1
  let apdu := List.replicate (5 + 1 + maxChangeFileSettingsLen + 16 + macLen + 1) 0
  let apdu ← copyInto apdu 0 [0x90, 0x5F, 0x00, 0x00, UInt8.ofNat lc]
  let apdu ← copyInto apdu 5 [fileNo]
  let pos := 6
  let apdu ← copyInto apdu pos ct
  let pos := pos + ct.length
  let apdu ← copyInto apdu pos mac
  let pos := pos + macLen
  let apdu ← copyInto apdu pos [0x00]
  -- debug_assert_eq!
  if pos + 1 = apduLen then sliceRange apdu 0 apduLen else panicked

/-- **The padding fits**: the cipher gets the settings and their padding. -/
theorem padSettings_eq {ε : Type} {raw : List UInt8} (h : raw.length ≤ maxChangeFileSettingsLen) :
    (padSettings raw : Outcome ε (List UInt8)) = .ok (m2Pad raw) := by
  have hmarked : (raw ++ [0x80]).length = raw.length + 1 := List.length_append
  rw [padSettings, copyInto_zero_replicate (by omega), Except.ok_bind',
    copyInto_replicate rfl (by rw [List.length_singleton]; omega), Except.ok_bind',
    sliceRange_replicate (by omega) (by rw [List.length_singleton]; omega), m2Pad, hmarked,
    List.append_assoc, List.singleton_append]
  congr 4
  omega

/-- **The APDU fits**, and its length byte is the number of body bytes. -/
theorem settingsApdu_eq {ε : Type} {fileNo : UInt8} {ct mac : List UInt8}
    (hct : ct.length ≤ maxChangeFileSettingsLen + 16) (hmac : mac.length = macLen) :
    (settingsApdu fileNo ct mac : Outcome ε (List UInt8)) =
      .ok (nativeApdu 0x5F 0x00 0x00 ([fileNo] ++ ct ++ mac)) := by
  have hbody : ([fileNo] ++ ct ++ mac).length = 1 + ct.length + macLen := by
    simp only [List.length_append, List.length_singleton, hmac]
  have hmax : maxChangeFileSettingsLen = 33 := rfl
  have hmacLen : macLen = 8 := rfl
  simp only [settingsApdu]
  rw [copyInto_zero_replicate, Except.ok_bind', copyInto_replicate, Except.ok_bind',
    copyInto_replicate, Except.ok_bind', copyInto_replicate, Except.ok_bind',
    copyInto_replicate, Except.ok_bind', if_pos, sliceRange_replicate, nativeApdu, hbody]
  all_goals simp only [List.length_append, List.length_cons, List.length_nil, hmac, hmax, hmacLen]
  · rw [show 5 + (1 + ct.length + 8) + 1 -
      (0 + 1 + 1 + 1 + 1 + 1 + (0 + 1) + ct.length + 8 + (0 + 1)) = 0 by omega]
    simp only [List.replicate_zero, List.append_nil, List.append_assoc, List.cons_append]
    rfl
  all_goals omega

/-- Padding adds at most a block. -/
theorem length_m2Pad_le {raw : List UInt8} {n : ℕ} (h : raw.length ≤ n) :
    (m2Pad raw).length ≤ n + 16 := by
  rw [length_m2Pad]
  omega

/-! ### The command -/

section Command

variable {E S : Type} (P : Primitives) [SessionSuite P S]

/-- `change_file_settings` over its buffers. -/
def changeFileSettingsBuffers (fileNo : UInt8) (settings : FileSettingsUpdate) :
    Cmd E (Authenticated S) Unit := do
  let raw ← liftSettings (settings.encode maxChangeFileSettingsLen)
  let padded ← Script.lift (padSettings raw)
  let ct ← encryptCommand P padded
  let mac ← computeCmdMac P 0x5F [fileNo] ct
  let apdu ← Script.lift (settingsApdu fileNo ct mac.toList)
  let resp ← transmitExpecting .operationOk apdu
  let _ ← verifyResponseMacAndAdvance P resp.sw2 resp.data

/-- Encryption hands back a buffer of the same length. -/
theorem wp_encryptCommand_length [KeepsLength P S] {W : Type} {w : W} {s : Authenticated S}
    {env : (r : List UInt8) → W → Transmit E r → W → Prop} {I : W → Prop} {buf : List UInt8}
    {Q : List UInt8 → Authenticated S → W → Prop}
    {R : Fault (SessionError E) → Authenticated S → W → Prop}
    (hQ : ∀ ct s', ct.length = buf.length → Q ct s' w)
    (hR : ∀ n s', R (.error (.notBlockAligned n)) s' w) :
    (encryptCommand P buf).wp env I Q R s w := by
  simp only [encryptCommand, SecureChannel.state, SecureChannel.note, Script.wp_bind,
    Script.wp_get]
  cases henc : SessionSuite.encrypt P s.suite .command s.ti s.cmdCounter buf with
  | none => exact Script.wp_fail.mpr (hR _ _)
  | some r =>
      simp only [Script.wp_bind, Script.wp_get, Script.wp_set, Script.wp_pure]
      exact hQ _ _ (KeepsLength.length_encrypt henc)

/-- Over its buffers the command does what it does over lists. -/
theorem changeFileSettingsBuffers_eq [KeepsLength P S] (fileNo : UInt8)
    (settings : FileSettingsUpdate) :
    (changeFileSettingsBuffers P fileNo settings : Cmd E (Authenticated S) Unit) =
      changeFileSettings P fileNo settings := by
  rw [changeFileSettingsBuffers, changeFileSettings]
  cases hencode : settings.encode maxChangeFileSettingsLen with
  | error e => rfl
  | ok raw =>
      have hraw := FileSettingsUpdate.length_encode_le hencode
      have hpad := length_m2Pad_le hraw
      simp only [liftSettings, padSettings_eq hraw, Script.pure_bind', Script.lift_ok_bind,
        transmitFull, transmitMac, Script.bind_assoc']
      refine Script.bind_congr_of_wp fun s => wp_encryptCommand_length P (fun ct s' hlen => ?_)
        fun _ _ => trivial
      refine congrFun (congrArg _ (funext fun mac => ?_)) s'
      rw [settingsApdu_eq (by omega) mac.length_toList, Script.lift_ok_bind]

/-- **ChangeFileSettings always fits its buffers.** The encoder refuses nothing but a counter
limit above 24 bits. What it writes is handed to the cipher with its padding and nothing else,
and any ciphertext of that length is assembled to an APDU whose length byte is the number of its
body bytes. So the command over the buffers is, for both suites, the one over lists. -/
theorem changeFileSettings_fits :
    (∀ (settings : FileSettingsUpdate) (e : FileSettingsError),
      settings.encode maxChangeFileSettingsLen = .error e ↔
        ∃ s limit, settings.sdm = some s ∧ s.piccData.readCtrLimit = some limit ∧
          0xFFFFFF < limit ∧ e = .offsetOutOfRange limit) ∧
    (∀ (settings : FileSettingsUpdate) (raw : List UInt8),
      settings.encode maxChangeFileSettingsLen = .ok raw →
        raw.length ≤ maxChangeFileSettingsLen ∧
        (padSettings raw : Outcome (SessionError E) (List UInt8)) = .ok (m2Pad raw) ∧
        ∀ (fileNo : UInt8) (ct : List UInt8) (mac : Bytes 8), ct.length = (m2Pad raw).length →
          ∃ (lc : UInt8) (body : List UInt8),
            (settingsApdu fileNo ct mac.toList : Outcome (SessionError E) (List UInt8)) =
              .ok (0x90 :: 0x5F :: 0x00 :: 0x00 :: lc :: body ++ [0x00]) ∧
            body = [fileNo] ++ ct ++ mac.toList ∧ lc.toNat = body.length) ∧
    (∀ (fileNo : UInt8) (settings : FileSettingsUpdate),
      (changeFileSettingsBuffers P fileNo settings : Cmd E (Authenticated AesSuite) Unit) =
        changeFileSettings P fileNo settings) ∧
    ∀ (fileNo : UInt8) (settings : FileSettingsUpdate),
      (changeFileSettingsBuffers P fileNo settings : Cmd E (Authenticated LrpSuite) Unit) =
        changeFileSettings P fileNo settings := by
  refine ⟨fun settings e => FileSettingsUpdate.encode_eq_error_iff, fun settings raw hencode => ?_,
    changeFileSettingsBuffers_eq P, changeFileSettingsBuffers_eq P⟩
  have hraw := FileSettingsUpdate.length_encode_le hencode
  refine ⟨hraw, padSettings_eq hraw, fun fileNo ct mac hct => ?_⟩
  have hmac : mac.toList.length = macLen := mac.length_toList
  have hpad := length_m2Pad_le hraw
  refine ⟨_, _, settingsApdu_eq (by omega) hmac, rfl, ?_⟩
  -- at most 1 + 49 + 8 bytes
  have hmacLen : macLen = 8 := rfl
  have hmax : maxChangeFileSettingsLen = 33 := rfl
  have hbody : ([fileNo] ++ ct ++ mac.toList).length < 256 := by
    simp only [List.length_append, List.length_singleton, hmac]
    omega
  exact Nat.mod_eq_of_lt hbody

end Command

end Ntag424
