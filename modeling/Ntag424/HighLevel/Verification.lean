import Mathlib.Data.List.Basic
import Mathlib.Tactic.Common
import Ntag424.KeyDiversification
import Ntag424.Lib.Prog
import Ntag424.SdmVerify.Validate

/-!
# Application-Level Verification

`ApplicationVerifier::verify` (`high_level/verification.rs`): recover the identity of a tag
readout, verify it under the keys derived from the master key, and compare its read counter
with the stored one. The counter store is behind a trait with two asynchronous operations, so
a call is a program over store requests, and several calls on handles to one store interleave
between any two of them.

The store answers `get` with the stored counter or an error. A `set` that answers an error may
or may not have been carried out.

## Main results

* `ApplicationVerifier.verify_cases`: a call either ends without touching the store, or reads
  the counter of its UID once and writes it back at most once.
* `ApplicationVerifier.recover_eq_ok_iff`: what a call has established before the replay check.
-/

namespace Ntag424

open Outcome

/-- Error of the application-level verification; `E` is the error of the store. -/
inductive VerificationError (E : Type) where
  | tagValidationFailed (e : FileSettingsError)
  | sdmError (e : SdmError)
  | storeError (e : E)
  | readCounterTooLow (stored actual : ℕ)
  | noUid
  | prefixMismatch
deriving DecidableEq, Repr

/-- Everything needed to verify future readouts of a tag. -/
structure ApplicationVerifier where
  urlTemplate : String
  verifier : Verifier
  urlPrefix : Option (List UInt8)
  systemIdentifier : List UInt8
  uid : Option (Bytes 7)
  originalitySignature : Option (Bytes 56)
deriving DecidableEq

/-- The data of a verified readout. -/
structure VerifiedTagReadout where
  uid : Bytes 7
  readCtr : Option ℕ
  tamperStatus : Option TagTamperStatusReadout
deriving DecidableEq, Repr

/-! ### The counter store -/

/-- The operations of `ReadCounterStorage`. -/
inductive StoreOp where
  | get (uid : Bytes 7)
  | set (uid : Bytes 7) (readCounter : ℕ)
deriving DecidableEq, Repr

/-- What the store answers. -/
def StoreOp.Answer (E : Type) : StoreOp → Type
  | get _ => Except E ℕ
  | set _ _ => Except E Unit

/-- The stored counter of every UID. -/
abbrev CounterStore := Bytes 7 → ℕ

/-- One atomic step of the store. -/
inductive StoreStep {E : Type} :
    (op : StoreOp) → CounterStore → op.Answer E → CounterStore → Prop
  | get {s : CounterStore} (uid : Bytes 7) : StoreStep (.get uid) s (.ok (s uid)) s
  | getFailed {s : CounterStore} (uid : Bytes 7) (e : E) : StoreStep (.get uid) s (.error e) s
  | set {s : CounterStore} (uid : Bytes 7) (ctr : ℕ) :
      StoreStep (.set uid ctr) s (.ok ()) (Function.update s uid ctr)
  | setFailed {s : CounterStore} (uid : Bytes 7) (ctr : ℕ) (e : E) :
      StoreStep (.set uid ctr) s (.error e) s
  | setUnanswered {s : CounterStore} (uid : Bytes 7) (ctr : ℕ) (e : E) :
      StoreStep (.set uid ctr) s (.error e) (Function.update s uid ctr)

namespace ApplicationVerifier

variable (P : Primitives) {E : Type}

/-- `get_key`: the cohort key for Key1, the per-tag key for every other slot. -/
def getKey {ε : Type} (masterKey : Key) (keyNumber : KeyNumber) (uid : Bytes 7)
    (systemIdentifier : List UInt8) : Outcome ε Key :=
  match keyNumber with
  | .key1 => piccKey P masterKey
  | k => diversifyNtag424 P masterKey uid k systemIdentifier

/-- The part of `verify` before the replay check: the prefix check, the consistency check of
the verifier, the recovery of the UID and the verification under the derived keys. -/
def recover (v : ApplicationVerifier) (masterKey : Key) (input : List UInt8) :
    Outcome (VerificationError E) (Bytes 7 × SdmVerification) :=
  if v.urlPrefix.any (fun p => !p.isPrefixOf input) then fail .prefixMismatch
  else do
    mapError .tagValidationFailed (ofExcept v.verifier.validate)
    let piccMetaKey ← piccKey P masterKey
    let (uid, _) ← mapError .sdmError (v.verifier.decryptPiccData P piccMetaKey input)
    match uid with
    | none => fail .noUid
    | some uid => do
        let fileReadKey ← getKey P masterKey v.verifier.fileReadKey uid v.systemIdentifier
        let verification ← mapError .sdmError
          (v.verifier.verifyWithMetaKey P input fileReadKey piccMetaKey)
        return (uid, verification)

/-- The data returned for a verified readout. -/
def readout (uid : Bytes 7) (verification : SdmVerification) : VerifiedTagReadout :=
  ⟨uid, verification.readCtr, verification.tamperStatus⟩

/-- What a call returns after its `set`. -/
def finish (uid : Bytes 7) (verification : SdmVerification) :
    Except E Unit → Outcome (VerificationError E) VerifiedTagReadout
  | .ok () => .ok (readout uid verification)
  | .error e => fail (.storeError e)

/-- The replay check: the counter must be greater than the stored one, and is written back. -/
def checkCounter (uid : Bytes 7) (verification : SdmVerification) (counter : ℕ) :
    Except E ℕ → Prog (StoreOp.Answer E) (Outcome (VerificationError E) VerifiedTagReadout)
  | .error e => .ret (fail (.storeError e))
  | .ok stored =>
      if counter ≤ stored then .ret (fail (.readCounterTooLow stored counter))
      else .call (.set uid counter) fun answer => .ret (finish uid verification answer)

/-- `ApplicationVerifier::verify`. -/
def verify (v : ApplicationVerifier) (masterKey : Key) (input : List UInt8) :
    Prog (StoreOp.Answer E) (Outcome (VerificationError E) VerifiedTagReadout) :=
  match v.recover P masterKey input with
  | .error fault => .ret (.error fault)
  | .ok (uid, verification) =>
      match verification.readCtr with
      | none => .ret (.ok (readout uid verification))
      | some counter => .call (.get uid) (checkCounter uid verification counter)

end ApplicationVerifier

/-! ### What a call does -/

namespace ApplicationVerifier

variable {P : Primitives} {E : Type} {v : ApplicationVerifier} {masterKey : Key}
  {input : List UInt8}

/-- The prefix check passes when the configured prefix, if any, starts the input. -/
theorem prefixMismatch_eq_false_iff {urlPrefix : Option (List UInt8)} :
    urlPrefix.any (fun p => !p.isPrefixOf input) = false ↔ ∀ p ∈ urlPrefix, p <+: input := by
  cases urlPrefix with
  | none => simp
  | some p => simp [List.isPrefixOf_iff_prefix]

/-- **What is known before the replay check**: the prefix matched, the verifier is consistent,
and the readout verified under the keys derived for the recovered UID. -/
theorem recover_eq_ok_iff {uid : Bytes 7} {verification : SdmVerification} :
    (v.recover P masterKey input :
        Outcome (VerificationError E) (Bytes 7 × SdmVerification)) = .ok (uid, verification) ↔
      (∀ p ∈ v.urlPrefix, p <+: input) ∧ v.verifier.validate = .ok () ∧
      ∃ ctr fileReadKey,
        v.verifier.decryptPiccData P (diversified P masterKey piccInput) input =
          .ok (some uid, ctr) ∧
        getKey (ε := VerificationError E) P masterKey v.verifier.fileReadKey uid
          v.systemIdentifier = .ok fileReadKey ∧
        v.verifier.verifyWithMetaKey P input fileReadKey (diversified P masterKey piccInput) =
          .ok verification := by
  rw [← prefixMismatch_eq_false_iff, recover]
  cases v.urlPrefix.any (fun p => !p.isPrefixOf input) with
  | true => simp
  | false =>
      simp only [Bool.false_eq_true, if_false, true_and, piccKey_eq, Except.ok_bind',
        Except.andThen_eq_ok_iff, Except.bind_eq_ok_iff (α := Option (Bytes 7) × Option ℕ),
        mapError_eq_ok_iff, ofExcept_eq_ok_iff]
      refine and_congr_right fun _ => ⟨?_, ?_⟩
      · rintro ⟨⟨uid?, ctr⟩, hpicc, h⟩
        cases uid? with
        | none => cases h
        | some u =>
            simp only [Except.bind_eq_ok_iff, mapError_eq_ok_iff, Except.pure_eq_ok_iff,
              Prod.mk.injEq] at h
            obtain ⟨fk, hfk, ver, hver, rfl, rfl⟩ := h
            exact ⟨ctr, fk, hpicc, hfk, hver⟩
      · rintro ⟨ctr, fk, hpicc, hfk, hver⟩
        refine ⟨_, hpicc, ?_⟩
        simp only [Except.bind_eq_ok_iff, mapError_eq_ok_iff, Except.pure_eq_ok_iff]
        exact ⟨fk, hfk, verification, hver, rfl⟩

/-- A call whose readout carries a counter asks for the stored counter of its UID. -/
theorem verify_of_recover {uid : Bytes 7} {verification : SdmVerification} {counter : ℕ}
    (hrec : (v.recover P masterKey input : Outcome (VerificationError E) _) =
      .ok (uid, verification)) (hctr : verification.readCtr = some counter) :
    v.verify P masterKey input =
      Prog.call (α := StoreOp.Answer E) (.get uid) (checkCounter uid verification counter) := by
  rw [verify, hrec]
  simp only [hctr]

/-- A call whose readout carries no counter ends without touching the store. -/
theorem verify_of_recover_none {uid : Bytes 7} {verification : SdmVerification}
    (hrec : (v.recover P masterKey input : Outcome (VerificationError E) _) =
      .ok (uid, verification)) (hctr : verification.readCtr = none) :
    (v.verify P masterKey input : Prog (StoreOp.Answer E) _) =
      .ret (.ok (readout uid verification)) := by
  rw [verify, hrec]
  simp only [hctr]

/-- A counter above the stored one is written back. -/
theorem checkCounter_of_lt {uid : Bytes 7} {verification : SdmVerification}
    {counter stored : ℕ} (h : stored < counter) :
    (checkCounter uid verification counter (.ok stored) : Prog (StoreOp.Answer E) _) =
      .call (.set uid counter) fun answer => .ret (finish uid verification answer) := by
  rw [checkCounter, if_neg (Nat.not_le.mpr h)]

/-- **What a call does**: it ends at once, without a counter in its result, or it asks for the
stored counter of the UID it recovered and runs the replay check on the answer. -/
theorem verify_cases (v : ApplicationVerifier) (masterKey : Key) (input : List UInt8) :
    (∃ res : Outcome (VerificationError E) VerifiedTagReadout,
      v.verify P masterKey input = .ret res ∧ ∀ r, res = .ok r → r.readCtr = none) ∨
    ∃ uid verification counter,
      (v.recover P masterKey input : Outcome (VerificationError E) _) = .ok (uid, verification) ∧
      verification.readCtr = some counter ∧
      v.verify P masterKey input =
        Prog.call (α := StoreOp.Answer E) (.get uid) (checkCounter uid verification counter) := by
  cases hrec : (v.recover P masterKey input : Outcome (VerificationError E) _) with
  | error fault => exact .inl ⟨.error fault, by rw [verify, hrec], nofun⟩
  | ok recovered =>
      obtain ⟨uid, verification⟩ := recovered
      cases hctr : verification.readCtr with
      | none =>
          refine .inl ⟨_, verify_of_recover_none hrec hctr, fun r hr => ?_⟩
          cases hr
          exact hctr
      | some counter =>
          exact .inr ⟨uid, verification, counter, rfl, hctr, verify_of_recover hrec hctr⟩

end ApplicationVerifier

end Ntag424
