import Mathlib.Data.List.Induction
import Mathlib.Tactic.Common
import Ntag424.Session.Commands

/-!
# Building a Configuration

The builder of `SetConfiguration` (`types/configuration.rs`), and what any sequence of its calls
puts on the wire.

## Modelling

* `ConfigurationCall` is one call of a builder method. `with_lrp_enabled` is among them, although
  only the crate itself may call it.

## Main results

* `Configuration.build_ofCalls`: every option that was called for is emitted once, in the order of
  the options, whatever the order of the calls, and the calls for one option do not matter to
  another.
-/

namespace Ntag424

open Numerals

namespace Configuration

/-! ### The builder -/

/-- Replace a byte of an option. -/
def setByte {n : ℕ} (bytes : Bytes n) (i : ℕ) (v : UInt8) : Bytes n :=
  Bytes.fill n (bytes.toList.set i v)

/-- `with_random_uid_enabled`: bit 1 of `PICCConfig`. -/
def withRandomUidEnabled (c : Configuration) : Configuration :=
  let bytes := c.picc.getD (Bytes.zeros 1)
  { c with picc := some (setByte bytes 0 (bytes.byte 0 ||| 0x02)) }

/-- `with_chained_writing_disabled`: bit 2 of `SMConfig`. -/
def withChainedWritingDisabled (c : Configuration) : Configuration :=
  let bytes := c.secureMessaging.getD (Bytes.zeros 2)
  { c with secureMessaging := some (setByte bytes 0 (bytes.byte 0 ||| 0x04)) }

/-- `with_pdcap2_5`. -/
def withPdcap2_5 (c : Configuration) (byte : UInt8) : Configuration :=
  { c with capability := some (setByte (c.capability.getD (Bytes.zeros 10)) 8 byte) }

/-- `with_pdcap2_6`. -/
def withPdcap2_6 (c : Configuration) (byte : UInt8) : Configuration :=
  { c with capability := some (setByte (c.capability.getD (Bytes.zeros 10)) 9 byte) }

/-- The byte of `with_tag_tamper_enabled` that says who may ask for the status. -/
def statusAccessByte : Access → UInt8
  | .key key => key.asByte
  | .free => 0x0E
  | .noAccess => 0x0F

/-- `with_tag_tamper_enabled`. -/
def withTagTamperEnabled (c : Configuration) (statusAccess : Access) : Configuration :=
  { c with tagTamper := some ⟨[0x01, statusAccessByte statusAccess], rfl⟩ }

/-- The five bytes of `with_failed_auth_counter_enabled`. -/
def failedAuthCounterBytes (limit decrement : UInt16) : Bytes 5 :=
  Bytes.fill 5 (0x01 :: leBytes 2 limit.toNat ++ leBytes 2 decrement.toNat)

/-- `with_failed_auth_counter_enabled`. -/
def withFailedAuthCounterEnabled (c : Configuration) (limit decrement : UInt16) : Configuration :=
  { c with failedAuthCounter := some (failedAuthCounterBytes limit decrement) }

/-- `with_failed_auth_counter_disabled`. -/
def withFailedAuthCounterDisabled (c : Configuration) : Configuration :=
  { c with failedAuthCounter := some (Bytes.zeros 5) }

/-- `with_strong_back_modulation`. -/
def withStrongBackModulation (c : Configuration) (strong : Bool) : Configuration :=
  { c with hw := some ⟨[if strong then 1 else 0], rfl⟩ }

end Configuration

/-! ### Sequences of calls -/

/-- A call of a builder method. -/
inductive ConfigurationCall where
  | randomUidEnabled
  | chainedWritingDisabled
  | lrpEnabled
  | pdcap2_5 (byte : UInt8)
  | pdcap2_6 (byte : UInt8)
  | tagTamperEnabled (statusAccess : Access)
  | failedAuthCounterEnabled (limit decrement : UInt16)
  | failedAuthCounterDisabled
  | strongBackModulation (strong : Bool)
deriving DecidableEq

namespace ConfigurationCall

/-- What a call does. -/
def apply (c : Configuration) : ConfigurationCall → Configuration
  | randomUidEnabled => c.withRandomUidEnabled
  | chainedWritingDisabled => c.withChainedWritingDisabled
  | lrpEnabled => c.withLrpEnabled
  | pdcap2_5 byte => c.withPdcap2_5 byte
  | pdcap2_6 byte => c.withPdcap2_6 byte
  | tagTamperEnabled statusAccess => c.withTagTamperEnabled statusAccess
  | failedAuthCounterEnabled limit decrement => c.withFailedAuthCounterEnabled limit decrement
  | failedAuthCounterDisabled => c.withFailedAuthCounterDisabled
  | strongBackModulation strong => c.withStrongBackModulation strong

/-- The option a call is about. -/
def option : ConfigurationCall → UInt8
  | randomUidEnabled => 0x00
  | chainedWritingDisabled => 0x04
  | lrpEnabled | pdcap2_5 _ | pdcap2_6 _ => 0x05
  | tagTamperEnabled _ => 0x07
  | failedAuthCounterEnabled .. | failedAuthCounterDisabled => 0x0A
  | strongBackModulation _ => 0x0B

/-- A call that enables LRP mode. -/
def isLrpEnabled : ConfigurationCall → Bool
  | lrpEnabled => true
  | _ => false

/-- The byte `PDCap2.5` that a call sets. -/
def pdcap2_5? : ConfigurationCall → Option UInt8
  | pdcap2_5 byte => some byte
  | _ => none

/-- The byte `PDCap2.6` that a call sets. -/
def pdcap2_6? : ConfigurationCall → Option UInt8
  | pdcap2_6 byte => some byte
  | _ => none

/-- The two bytes of the tag-tamper option that a call sets. -/
def tagTamper? : ConfigurationCall → Option (Bytes 2)
  | tagTamperEnabled statusAccess =>
      some ⟨[0x01, Configuration.statusAccessByte statusAccess], rfl⟩
  | _ => none

/-- The five bytes of the counter of failed authentications that a call sets. -/
def failedAuthCounter? : ConfigurationCall → Option (Bytes 5)
  | failedAuthCounterEnabled limit decrement =>
      some (Configuration.failedAuthCounterBytes limit decrement)
  | failedAuthCounterDisabled => some (Bytes.zeros 5)
  | _ => none

/-- The byte of the hardware option that a call sets. -/
def hw? : ConfigurationCall → Option (Bytes 1)
  | strongBackModulation strong => some ⟨[if strong then 1 else 0], rfl⟩
  | _ => none

end ConfigurationCall

namespace Configuration

/-- The configuration that a sequence of calls builds. -/
def ofCalls (calls : List ConfigurationCall) : Configuration :=
  calls.foldl ConfigurationCall.apply .new

/-- The last value that the calls set. -/
def lastSet {α : Type} (value? : ConfigurationCall → Option α) (calls : List ConfigurationCall) :
    Option α :=
  (calls.filterMap value?).getLast?

/-- Some call is about the option. -/
def Calls (calls : List ConfigurationCall) (option : UInt8) : Prop :=
  ∃ call ∈ calls, call.option = option

instance (calls : List ConfigurationCall) (option : UInt8) : Decidable (Calls calls option) :=
  inferInstanceAs (Decidable (∃ call ∈ calls, call.option = option))

/-- The ten bytes of the capability option: LRP mode, `PDCap2.5` and `PDCap2.6`. -/
def capabilityBytes (lrp : Bool) (pdcap2_5 pdcap2_6 : UInt8) : Bytes 10 :=
  ⟨[0, 0, 0, 0, if lrp then 0x02 else 0, 0, 0, 0, pdcap2_5, pdcap2_6], rfl⟩

/-- What the calls for an option put into it. -/
def payload (calls : List ConfigurationCall) (option : UInt8) : List UInt8 :=
  match option.toNat with
  | 0x00 => [0x02]
  | 0x04 => [0x04, 0x00]
  | 0x05 => (capabilityBytes (calls.any ConfigurationCall.isLrpEnabled)
      ((lastSet ConfigurationCall.pdcap2_5? calls).getD 0)
      ((lastSet ConfigurationCall.pdcap2_6? calls).getD 0)).toList
  | 0x07 => ((lastSet ConfigurationCall.tagTamper? calls).getD (Bytes.zeros 2)).toList
  | 0x0A => ((lastSet ConfigurationCall.failedAuthCounter? calls).getD (Bytes.zeros 5)).toList
  | _ => ((lastSet ConfigurationCall.hw? calls).getD (Bytes.zeros 1)).toList

variable {calls : List ConfigurationCall} {call : ConfigurationCall}

theorem ofCalls_append : ofCalls (calls ++ [call]) = call.apply (ofCalls calls) := by
  rw [ofCalls, List.foldl_append]
  rfl

theorem calls_append {option : UInt8} :
    Calls (calls ++ [call]) option ↔ Calls calls option ∨ call.option = option := by
  simp only [Calls, List.mem_append, List.mem_singleton, or_and_right, exists_or, exists_eq_left]

theorem lastSet_append {α : Type} (value? : ConfigurationCall → Option α) :
    lastSet value? (calls ++ [call]) = (value? call).or (lastSet value? calls) := by
  rw [lastSet, List.filterMap_append, List.getLast?_append]
  cases hvalue : value? call with
  | none => simp [hvalue, lastSet]
  | some v => simp [hvalue]

/-- An option that some call was about. -/
def whenCalled {α : Type} (calls : List ConfigurationCall) (option : UInt8) (value : α) :
    Option α :=
  if Calls calls option then some value else none

/-- The configuration, field by field. -/
structure Built (calls : List ConfigurationCall) (c : Configuration) : Prop where
  picc : c.picc = whenCalled calls 0x00 ⟨[0x02], rfl⟩
  secureMessaging : c.secureMessaging = whenCalled calls 0x04 ⟨[0x04, 0x00], rfl⟩
  capability : c.capability = whenCalled calls 0x05
    (capabilityBytes (calls.any ConfigurationCall.isLrpEnabled)
      ((lastSet ConfigurationCall.pdcap2_5? calls).getD 0)
      ((lastSet ConfigurationCall.pdcap2_6? calls).getD 0))
  tagTamper : c.tagTamper = lastSet ConfigurationCall.tagTamper? calls
  failedAuthCounter : c.failedAuthCounter = lastSet ConfigurationCall.failedAuthCounter? calls
  hw : c.hw = lastSet ConfigurationCall.hw? calls

theorem built_nil : Built [] .new := ⟨rfl, rfl, rfl, rfl, rfl, rfl⟩

/-- Nothing was set by calls for other options. -/
theorem lastSet_eq_none {α : Type} {value? : ConfigurationCall → Option α} {option : UInt8}
    (hvalue : ∀ call, (value? call).isSome → call.option = option) (h : ¬ Calls calls option) :
    lastSet value? calls = none := by
  rw [lastSet, List.getLast?_eq_none_iff, List.filterMap_eq_nil_iff]
  intro call hcall
  cases hsome : value? call with
  | none => rfl
  | some v => exact absurd ⟨call, hcall, hvalue call (by rw [hsome]; rfl)⟩ h

/-- What every call for an option sets is set once there is one. -/
theorem lastSet_eq_whenCalled {α : Type} {value? : ConfigurationCall → Option α} {option : UInt8}
    (hvalue : ∀ call, (value? call).isSome ↔ call.option = option) (default : α) :
    lastSet value? calls = whenCalled calls option ((lastSet value? calls).getD default) := by
  rw [whenCalled]
  split
  · rename_i hcalls
    obtain ⟨call, hcall, hoption⟩ := hcalls
    obtain ⟨v, hv⟩ := Option.isSome_iff_exists.mp ((hvalue call).mpr hoption)
    cases hlast : lastSet value? calls with
    | none =>
        rw [lastSet, List.getLast?_eq_none_iff, List.filterMap_eq_nil_iff] at hlast
        rw [hlast call hcall] at hv
        cases hv
    | some v => rfl
  · rename_i hno
    exact lastSet_eq_none (fun call h => (hvalue call).mp h) hno

/-- The bytes of the capability option, set or not. -/
theorem Built.capability_getD {c : Configuration} (h : Built calls c) :
    c.capability.getD (Bytes.zeros 10) =
      capabilityBytes (calls.any ConfigurationCall.isLrpEnabled)
        ((lastSet ConfigurationCall.pdcap2_5? calls).getD 0)
        ((lastSet ConfigurationCall.pdcap2_6? calls).getD 0) := by
  rw [h.capability, whenCalled]
  split
  · rfl
  · rename_i hno
    have hlrp : calls.any ConfigurationCall.isLrpEnabled = false := by
      rw [List.any_eq_false]
      intro call hcall hlrp
      cases call with
      | lrpEnabled => exact hno ⟨_, hcall, rfl⟩
      | _ => cases hlrp
    have h5 : lastSet ConfigurationCall.pdcap2_5? calls = none := lastSet_eq_none ?_ hno
    have h6 : lastSet ConfigurationCall.pdcap2_6? calls = none := lastSet_eq_none ?_ hno
    · rw [hlrp, h5, h6]
      rfl
    · rintro (_ | _ | _ | _ | _ | _ | _ | _ | _) hsome <;> first | rfl | cases hsome
    · rintro (_ | _ | _ | _ | _ | _ | _ | _ | _) hsome <;> first | rfl | cases hsome

theorem whenCalled_append {α : Type} {option : UInt8} (value : α) :
    whenCalled (calls ++ [call]) option value =
      if call.option = option then some value else whenCalled calls option value := by
  simp only [whenCalled, calls_append]
  by_cases hcall : call.option = option
  · simp [hcall]
  · simp [hcall]

/-- A flag is set by every call for its option. -/
theorem Built.picc_append {c : Configuration} (h : Built calls c) :
    (call.apply c).picc = whenCalled (calls ++ [call]) 0x00 ⟨[0x02], rfl⟩ := by
  have hstep : (call.apply c).picc = if call.option = 0x00 then
      some (setByte (c.picc.getD (Bytes.zeros 1)) 0 ((c.picc.getD (Bytes.zeros 1)).byte 0 ||| 0x02))
      else c.picc := by
    cases call <;> rfl
  rw [whenCalled_append, hstep, h.picc, whenCalled]
  split
  · split <;> rfl
  · rfl

theorem Built.secureMessaging_append {c : Configuration} (h : Built calls c) :
    (call.apply c).secureMessaging = whenCalled (calls ++ [call]) 0x04 ⟨[0x04, 0x00], rfl⟩ := by
  have hstep : (call.apply c).secureMessaging = if call.option = 0x04 then
      some (setByte (c.secureMessaging.getD (Bytes.zeros 2)) 0
        ((c.secureMessaging.getD (Bytes.zeros 2)).byte 0 ||| 0x04))
      else c.secureMessaging := by
    cases call <;> rfl
  rw [whenCalled_append, hstep, h.secureMessaging, whenCalled]
  split
  · split <;> rfl
  · rfl

/-- The bit of LRP mode, set in any capability option. -/
theorem setByte_lrp (lrp : Bool) (pdcap2_5 pdcap2_6 : UInt8) :
    setByte (capabilityBytes lrp pdcap2_5 pdcap2_6) 4
        ((capabilityBytes lrp pdcap2_5 pdcap2_6).byte 4 ||| 0x02) =
      capabilityBytes true pdcap2_5 pdcap2_6 := by
  have hbit : (if lrp then (0x02 : UInt8) else 0) ||| 0x02 = 0x02 := by
    cases lrp <;> decide
  have hbyte : (capabilityBytes lrp pdcap2_5 pdcap2_6).byte 4 = if lrp then 0x02 else 0 := rfl
  rw [hbyte, hbit]
  rfl

/-- The capability option is shared by three calls: one sets a bit, the others a byte each. -/
theorem Built.capability_append {c : Configuration} (h : Built calls c) :
    (call.apply c).capability = whenCalled (calls ++ [call]) 0x05
      (capabilityBytes ((calls ++ [call]).any ConfigurationCall.isLrpEnabled)
        ((lastSet ConfigurationCall.pdcap2_5? (calls ++ [call])).getD 0)
        ((lastSet ConfigurationCall.pdcap2_6? (calls ++ [call])).getD 0)) := by
  have hcap := h.capability_getD
  rw [whenCalled_append, List.any_append, Bool.or_comm, lastSet_append, lastSet_append]
  cases call with
  | lrpEnabled =>
      refine Eq.trans ?_ (if_pos rfl).symm
      simp only [ConfigurationCall.apply, withLrpEnabled, hcap]
      exact congrArg some (setByte_lrp _ _ _)
  | pdcap2_5 byte =>
      refine Eq.trans ?_ (if_pos rfl).symm
      simp only [ConfigurationCall.apply, withPdcap2_5, hcap]
      rfl
  | pdcap2_6 byte =>
      refine Eq.trans ?_ (if_pos rfl).symm
      simp only [ConfigurationCall.apply, withPdcap2_6, hcap]
      rfl
  | randomUidEnabled | chainedWritingDisabled | tagTamperEnabled | failedAuthCounterEnabled
  | failedAuthCounterDisabled | strongBackModulation => exact h.capability

/-- **One more call** changes its own option only. -/
theorem Built.append {c : Configuration} (h : Built calls c) :
    Built (calls ++ [call]) (call.apply c) where
  picc := h.picc_append
  secureMessaging := h.secureMessaging_append
  capability := h.capability_append
  tagTamper := by
    rw [lastSet_append, ← h.tagTamper]
    cases call <;> rfl
  failedAuthCounter := by
    rw [lastSet_append, ← h.failedAuthCounter]
    cases call <;> rfl
  hw := by
    rw [lastSet_append, ← h.hw]
    cases call <;> rfl

/-- What a sequence of calls builds. -/
theorem built_ofCalls (calls : List ConfigurationCall) : Built calls (ofCalls calls) := by
  induction calls using List.reverseRecOn with
  | nil => exact built_nil
  | append_singleton calls call ih =>
      rw [ofCalls_append]
      exact ih.append

/-! ### On the wire -/

/-- The options, in wire order. -/
def wireOrder : List UInt8 := [0x00, 0x04, 0x05, 0x07, 0x0A, 0x0B]

/-- The options that were called for, with their payloads. -/
def emitted (calls : List ConfigurationCall) (options : List UInt8) :
    List (UInt8 × List UInt8) :=
  (options.filter fun option => Calls calls option).map fun option => (option, payload calls option)

/-- One option, emitted when it was called for. -/
theorem emitted_cons {n : ℕ} {option : UInt8} {value : Bytes n} {options : List UInt8}
    {rest : List (UInt8 × Option (List UInt8))} (hvalue : value.toList = payload calls option)
    (hrest : rest.filterMap (fun p => p.2.map fun d => (p.1, d)) = emitted calls options) :
    ((option, (whenCalled calls option value).map Bytes.toList) :: rest).filterMap
        (fun p => p.2.map fun d => (p.1, d)) = emitted calls (option :: options) := by
  rw [List.filterMap_cons, emitted, List.filter_cons, whenCalled]
  by_cases hcalls : Calls calls option
  · simp [hcalls, hvalue, hrest, emitted]
  · simp [hcalls, hrest, emitted]

theorem tagTamper?_isSome (call : ConfigurationCall) :
    call.tagTamper?.isSome ↔ call.option = 0x07 := by
  cases call with
  | tagTamperEnabled statusAccess => exact ⟨fun _ => rfl, fun _ => rfl⟩
  | _ =>
      refine ⟨by rintro ⟨⟩, fun h => ?_⟩
      simp only [ConfigurationCall.option] at h
      exact absurd h (by decide)

theorem failedAuthCounter?_isSome (call : ConfigurationCall) :
    call.failedAuthCounter?.isSome ↔ call.option = 0x0A := by
  cases call with
  | failedAuthCounterEnabled limit decrement => exact ⟨fun _ => rfl, fun _ => rfl⟩
  | failedAuthCounterDisabled => exact ⟨fun _ => rfl, fun _ => rfl⟩
  | _ =>
      refine ⟨by rintro ⟨⟩, fun h => ?_⟩
      simp only [ConfigurationCall.option] at h
      exact absurd h (by decide)

theorem hw?_isSome (call : ConfigurationCall) : call.hw?.isSome ↔ call.option = 0x0B := by
  cases call with
  | strongBackModulation strong => exact ⟨fun _ => rfl, fun _ => rfl⟩
  | _ =>
      refine ⟨by rintro ⟨⟩, fun h => ?_⟩
      simp only [ConfigurationCall.option] at h
      exact absurd h (by decide)

/-- **What is emitted**: the options that were called for, each once, in wire order, with the
flags that were set and the last of the other values. -/
theorem build_ofCalls (calls : List ConfigurationCall) :
    (ofCalls calls).build =
      (wireOrder.filter fun option => Calls calls option).map fun option =>
        (option, payload calls option) := by
  have h := built_ofCalls calls
  have htagTamper := h.tagTamper.trans
    (lastSet_eq_whenCalled tagTamper?_isSome (Bytes.zeros 2))
  have hfailed := h.failedAuthCounter.trans
    (lastSet_eq_whenCalled failedAuthCounter?_isSome (Bytes.zeros 5))
  have hhw := h.hw.trans (lastSet_eq_whenCalled hw?_isSome (Bytes.zeros 1))
  rw [build, h.picc, h.secureMessaging, h.capability, htagTamper, hfailed, hhw]
  exact emitted_cons rfl <| emitted_cons rfl <| emitted_cons rfl <| emitted_cons rfl <|
    emitted_cons rfl <| emitted_cons rfl rfl

end Configuration

end Ntag424
