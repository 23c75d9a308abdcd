import Mathlib.Data.List.Pairwise
import Mathlib.Tactic.Common
import Ntag424.HighLevel.Replay
import Ntag424.Lib.Script

/-!
# Verification Calls in Turn

Verification calls on one counter store, one after the other: each call runs to its end before
the next one starts. The calls have any verifiers, master keys and inputs, and the store may
fail at every operation; a `set` that fails may or may not have been carried out.

## Main results

* `VerifyCall.rejected_of_mac_ne`: an input with another MAC than the expected one is rejected.
* `VerifyCall.effect_of_ends`: what one call does to the store, and what it returns.
* `Sequence.accepted_increasing`: the counters accepted for a UID increase strictly, above the
  counter stored at first.
* `Sequence.replay_protected`: with what changes the store, for every call of a sequence.
-/

namespace Ntag424

open Outcome

variable {P : Primitives} {E : Type}

/-! ### One call -/

/-- The MAC of the input is that of the bytes between the two offsets of the verifier, under the
session keys derived for the UID and the counter that the identity data of this same input
carries. -/
def VerifyCall.MacVerified (P : Primitives) (E : Type) (call : VerifyCall) (uid : Bytes 7)
    (counter : ℕ) : Prop :=
  ∃ picc fileReadKey mac,
    call.verifier.verifier.extractPiccData P call.input (diversified P call.masterKey piccInput) =
      .ok picc ∧
    picc.uid = some uid ∧ picc.readCtr.map ctrValue = some counter ∧
    (ApplicationVerifier.getKey P call.masterKey call.verifier.verifier.fileReadKey uid
      call.verifier.systemIdentifier : Outcome (VerificationError E) Key) = .ok fileReadKey ∧
    decodeHexArray 8 call.input call.verifier.verifier.macOffset = .ok mac ∧
    (deriveSdmKeys P call.verifier.verifier.mode fileReadKey (some uid) picc.readCtr).computeMac P
      (slice call.input call.verifier.verifier.macInputOffset
        (call.verifier.verifier.macOffset - call.verifier.verifier.macInputOffset)) = mac

/-- What the part before the replay check has established of the input. The UID for which the key
is derived is the UID read again inside the verification. -/
theorem VerifyCall.of_recover {call : VerifyCall} {uid : Bytes 7} {verification : SdmVerification}
    (h : (call.verifier.recover P call.masterKey call.input : Outcome (VerificationError E) _) =
      .ok (uid, verification)) :
    ∃ picc fileReadKey mac,
      call.verifier.verifier.extractPiccData P call.input
        (diversified P call.masterKey piccInput) = .ok picc ∧
      picc.uid = some uid ∧ picc.readCtr.map ctrValue = verification.readCtr ∧
      (ApplicationVerifier.getKey P call.masterKey call.verifier.verifier.fileReadKey uid
        call.verifier.systemIdentifier : Outcome (VerificationError E) Key) = .ok fileReadKey ∧
      decodeHexArray 8 call.input call.verifier.verifier.macOffset = .ok mac ∧
      (deriveSdmKeys P call.verifier.verifier.mode fileReadKey (some uid)
        picc.readCtr).computeMac P (slice call.input call.verifier.verifier.macInputOffset
          (call.verifier.verifier.macOffset - call.verifier.verifier.macInputOffset)) = mac := by
  obtain ⟨-, -, ctr, fileReadKey, hdecrypt, hkey, hverify⟩ :=
    ApplicationVerifier.recover_eq_ok_iff.mp h
  have hsame := Verifier.decryptPiccData_of_verifyInner hverify
  rw [hdecrypt] at hsame
  obtain ⟨huid, -⟩ := Prod.mk.inj (Except.ok.inj hsame)
  obtain ⟨picc, mac, enc, tamper, hpicc, -, hmac, hmacOk, -, -, rfl⟩ :=
    Verifier.verifyInner_eq_ok_iff.mp hverify
  have huid' : picc.uid = some uid := huid.symm
  rw [SdmKeys.verifyMac, decide_eq_true_eq, huid'] at hmacOk
  exact ⟨picc, fileReadKey, mac, hpicc, huid', rfl, hkey, hmac, hmacOk⟩

/-- It has verified the MAC, next to the counter. -/
theorem VerifyCall.macVerified_of_recover {call : VerifyCall} {uid : Bytes 7}
    {verification : SdmVerification} {counter : ℕ}
    (h : (call.verifier.recover P call.masterKey call.input : Outcome (VerificationError E) _) =
      .ok (uid, verification)) (hctr : verification.readCtr = some counter) :
    call.MacVerified P E uid counter := by
  obtain ⟨picc, fileReadKey, mac, hpicc, huid, hread, hkey, hmac, hmacOk⟩ := VerifyCall.of_recover h
  exact ⟨picc, fileReadKey, mac, hpicc, huid, hread.trans hctr, hkey, hmac, hmacOk⟩

/-- **An input with another MAC is rejected**, and the store is left as it was. -/
theorem VerifyCall.rejected_of_mac_ne {call : VerifyCall} {s s' : CounterStore}
    {res : VerifyResult E} (h : Prog.Ends StoreStep (call.prog P E) s res s')
    {picc : ParsedPiccData} {uid : Bytes 7} {fileReadKey : Key} {mac : Bytes 8}
    (hpicc : call.verifier.verifier.extractPiccData P call.input
      (diversified P call.masterKey piccInput) = .ok picc)
    (huid : picc.uid = some uid)
    (hkey : (ApplicationVerifier.getKey P call.masterKey call.verifier.verifier.fileReadKey uid
      call.verifier.systemIdentifier : Outcome (VerificationError E) Key) = .ok fileReadKey)
    (hmac : decodeHexArray 8 call.input call.verifier.verifier.macOffset = .ok mac)
    (hne : (deriveSdmKeys P call.verifier.verifier.mode fileReadKey (some uid)
      picc.readCtr).computeMac P (slice call.input call.verifier.verifier.macInputOffset
        (call.verifier.verifier.macOffset - call.verifier.verifier.macInputOffset)) ≠ mac) :
    (∃ fault, res = .error fault) ∧ s' = s := by
  cases hrec : (call.verifier.recover P call.masterKey call.input :
      Outcome (VerificationError E) _) with
  | error fault =>
      rw [VerifyCall.prog, ApplicationVerifier.verify, hrec] at h
      cases h
      exact ⟨⟨fault, rfl⟩, rfl⟩
  | ok recovered =>
      obtain ⟨uid', verification⟩ := recovered
      obtain ⟨picc', fileReadKey', mac', hpicc', huid', -, hkey', hmac', hmacOk⟩ :=
        VerifyCall.of_recover hrec
      obtain rfl := Except.ok.inj (hpicc.symm.trans hpicc')
      obtain rfl := Option.some.inj (huid.symm.trans huid')
      obtain rfl := Except.ok.inj (hkey.symm.trans hkey')
      obtain rfl := Except.ok.inj (hmac.symm.trans hmac')
      exact absurd hmacOk hne

/-- What a call does to the store, and what it returns. -/
inductive VerifyCall.Effect (P : Primitives) (call : VerifyCall) (s : CounterStore) :
    VerifyResult E → CounterStore → Prop
  /-- It fails, or accepts a readout without a counter. -/
  | untouched {res : VerifyResult E} :
      (∀ r, res = .ok r → r.readCtr = none) → Effect P call s res s
  /-- It accepts a counter above the stored one, and stores it. -/
  | accepted {r : VerifiedTagReadout} {counter : ℕ} :
      call.MacVerified P E r.uid counter → r.readCtr = some counter → s r.uid < counter →
      Effect P call s (.ok r) (Function.update s r.uid counter)
  /-- It fails to store a counter above the stored one. -/
  | setFailed {uid : Bytes 7} {counter : ℕ} {e : E} {s' : CounterStore} :
      call.MacVerified P E uid counter → s uid < counter →
      StoreStep (.set uid counter) s (.error e) s' → Effect P call s (fail (.storeError e)) s'

/-- **What one call does.** -/
theorem VerifyCall.effect_of_ends {call : VerifyCall} {s s' : CounterStore} {res : VerifyResult E}
    (h : Prog.Ends StoreStep (call.prog P E) s res s') : call.Effect P s res s' := by
  obtain ⟨res', hret, hnone⟩ | ⟨uid, verification, counter, hrec, hctr, hcall⟩ :=
    ApplicationVerifier.verify_cases (P := P) (E := E) call.verifier call.masterKey call.input
  · rw [VerifyCall.prog, hret] at h
    cases h
    exact .untouched hnone
  · have hmac := VerifyCall.macVerified_of_recover hrec hctr
    rw [VerifyCall.prog, hcall] at h
    cases h with
    | @call _ _ _ s₁ _ answer _ hget hcheck =>
        obtain ⟨rfl, hstored⟩ := Interleaving.storeStep_get hget
        cases answer with
        | error e =>
            cases hcheck
            exact .untouched (by rintro _ ⟨⟩)
        | ok stored =>
            obtain rfl := hstored stored rfl
            rw [ApplicationVerifier.checkCounter] at hcheck
            split at hcheck
            · cases hcheck
              exact .untouched (by rintro _ ⟨⟩)
            · rename_i hlt
              have habove : s₁ uid < counter := Nat.lt_of_not_le hlt
              cases hcheck with
              | @call _ _ _ s₂ _ answer _ hset hfinish =>
                  cases hfinish
                  cases answer with
                  | error e => exact .setFailed hmac habove hset
                  | ok u =>
                      obtain rfl | ⟨-, hno⟩ := Interleaving.storeStep_set hset
                      · exact .accepted (r := ApplicationVerifier.readout uid verification) hmac
                          hctr habove
                      · exact absurd rfl (hno u)

/-- No call lowers a stored counter. -/
theorem VerifyCall.Effect.le {call : VerifyCall} {s s' : CounterStore} {res : VerifyResult E}
    (h : call.Effect P s res s') (uid : Bytes 7) : s uid ≤ s' uid := by
  have hupdate : ∀ {u : Bytes 7} {counter : ℕ}, s u < counter →
      s uid ≤ Function.update s u counter uid := by
    intro u counter hlt
    by_cases hu : uid = u
    · subst hu
      rw [Function.update_self]
      exact hlt.le
    · rw [Function.update_of_ne hu]
  cases h with
  | untouched => exact le_rfl
  | accepted _ _ hlt => exact hupdate hlt
  | setFailed _ hlt hset =>
      obtain rfl | ⟨rfl, -⟩ := Interleaving.storeStep_set hset
      · exact hupdate hlt
      · exact le_rfl

/-! ### Sequences of calls -/

/-- A call that has ended. -/
structure EndedCall (E : Type) where
  call : VerifyCall
  before : CounterStore
  result : VerifyResult E
  after : CounterStore

/-- Calls that ended one after the other, from the first store to the last. -/
inductive Sequence (P : Primitives) : CounterStore → List (EndedCall E) → CounterStore → Prop
  | nil {s : CounterStore} : Sequence P s [] s
  | cons {call : VerifyCall} {s s' s'' : CounterStore} {res : VerifyResult E}
      {log : List (EndedCall E)} :
      Prog.Ends StoreStep (call.prog P E) s res s' → Sequence P s' log s'' →
      Sequence P s (⟨call, s, res, s'⟩ :: log) s''

/-- The counter that a call accepted for a UID. -/
def EndedCall.acceptedCtr? (uid : Bytes 7) (c : EndedCall E) : Option ℕ :=
  match c.result with
  | .ok r => if r.uid = uid then r.readCtr else none
  | .error _ => none

/-- The counters accepted for a UID, in the order of the calls. -/
def acceptedCtrs (uid : Bytes 7) (log : List (EndedCall E)) : List ℕ :=
  log.filterMap (EndedCall.acceptedCtr? uid)

/-- A counter that a call accepts for a UID is above the one stored before, and is stored. -/
theorem EndedCall.lt_of_accepted {c : EndedCall E} {uid : Bytes 7} {counter : ℕ}
    (h : c.call.Effect P c.before c.result c.after) (hacc : c.acceptedCtr? uid = some counter) :
    c.before uid < counter ∧ c.after uid = counter := by
  obtain ⟨call, s, res, s'⟩ := c
  simp only at h
  cases h with
  | untouched hnone =>
      rw [acceptedCtr?] at hacc
      split at hacc
      · rename_i r hr
        split at hacc
        · rw [hnone r hr] at hacc
          cases hacc
        · cases hacc
      · cases hacc
  | @accepted r counter' hmac hctr hlt =>
      by_cases huid : r.uid = uid
      · subst huid
        simp only [acceptedCtr?, if_true, hctr, Option.some.injEq] at hacc
        subst hacc
        exact ⟨hlt, Function.update_self ..⟩
      · simp only [acceptedCtr?, if_neg huid] at hacc
        cases hacc
  | setFailed => cases hacc

/-- What changed the store was a verified readout, and an error after which it is changed is
that of a failing `set`. -/
structure EndedCall.Atomic (P : Primitives) (c : EndedCall E) : Prop where
  changed : c.after ≠ c.before → ∃ uid counter, c.call.MacVerified P E uid counter ∧
    c.after = Function.update c.before uid counter ∧
    ∀ r, c.result = .ok r → r.uid = uid ∧ r.readCtr = some counter
  failed : ∀ fault, c.result = .error fault → c.after = c.before ∨
    ∃ uid counter e, fault = .error (.storeError e) ∧
      StoreStep (.set uid counter) c.before (.error e) c.after

theorem EndedCall.atomic {c : EndedCall E} (h : c.call.Effect P c.before c.result c.after) :
    c.Atomic P := by
  obtain ⟨call, s, res, s'⟩ := c
  simp only at h
  cases h with
  | untouched => exact ⟨fun hne => absurd rfl hne, fun _ _ => .inl rfl⟩
  | @accepted r counter hmac hctr hlt =>
      refine ⟨fun _ => ⟨r.uid, counter, hmac, rfl, ?_⟩, nofun⟩
      rintro r' ⟨⟩
      exact ⟨rfl, hctr⟩
  | @setFailed uid counter e s' hmac hlt hset =>
      refine ⟨fun hne => ?_, ?_⟩
      · obtain rfl | ⟨rfl, -⟩ := Interleaving.storeStep_set hset
        · exact ⟨uid, counter, hmac, rfl, nofun⟩
        · exact absurd rfl hne
      · rintro fault ⟨⟩
        exact .inr ⟨uid, counter, e, rfl, hset⟩

namespace Sequence

variable {s s' : CounterStore} {log : List (EndedCall E)}

/-- Every call of a sequence has its effect. -/
theorem effect (h : Sequence P s log s') :
    ∀ c ∈ log, c.call.Effect P c.before c.result c.after := by
  induction h with
  | nil =>
      intro c hc
      exact absurd hc List.not_mem_nil
  | cons hend _ ih =>
      have heffect := VerifyCall.effect_of_ends hend
      intro c hc
      rcases List.mem_cons.mp hc with hhead | hc
      · rw [hhead]
        exact heffect
      · exact ih c hc

/-- **The counters accepted for a UID increase strictly**, above the counter stored at
first. -/
theorem accepted_increasing (h : Sequence P s log s') (uid : Bytes 7) :
    (s uid :: acceptedCtrs uid log).Pairwise (· < ·) := by
  induction h with
  | nil => exact List.pairwise_singleton _ _
  | @cons call s₀ s₁ s₂ res log hend hrest ih =>
      have heffect := VerifyCall.effect_of_ends hend
      obtain ⟨habove, hrestIncreasing⟩ := List.pairwise_cons.mp ih
      cases hacc : EndedCall.acceptedCtr? uid ⟨call, s₀, res, s₁⟩ with
      | none =>
          -- the store may have been raised all the same, never lowered
          rw [acceptedCtrs, List.filterMap_cons_none hacc]
          refine List.pairwise_cons.mpr ⟨fun ctr hctr => ?_, hrestIncreasing⟩
          exact (heffect.le uid).trans_lt (habove ctr hctr)
      | some counter =>
          obtain ⟨hlt, hstored⟩ := EndedCall.lt_of_accepted heffect hacc
          simp only at hlt hstored
          rw [acceptedCtrs, List.filterMap_cons_some hacc]
          rw [hstored] at ih habove
          refine List.pairwise_cons.mpr ⟨fun ctr hctr => ?_, ih⟩
          rcases List.mem_cons.mp hctr with rfl | hctr
          · exact hlt
          · exact hlt.trans (habove ctr hctr)

/-- **Sequential replay protection.** In every sequence of calls the counters accepted for a
UID increase strictly above the counter stored at first, only a verified readout changes the
store, only at its UID and to its counter, and no error but that of a failing `set` leaves the
store changed. -/
theorem replay_protected (h : Sequence P s log s') :
    (∀ uid, (s uid :: acceptedCtrs uid log).Pairwise (· < ·)) ∧ ∀ c ∈ log, c.Atomic P :=
  ⟨h.accepted_increasing, fun c hc => EndedCall.atomic (h.effect c hc)⟩

end Sequence

/-! ### An example -/

namespace VerifyCall

variable {call : VerifyCall} {uid : Bytes 7} {verification : SdmVerification} {counter : ℕ}
  {s : CounterStore}

/-- A counter above the stored one is accepted. -/
theorem ends_accepted
    (hrec : (call.verifier.recover P call.masterKey call.input : Outcome (VerificationError E) _) =
      .ok (uid, verification)) (hctr : verification.readCtr = some counter)
    (hlt : s uid < counter) :
    Prog.Ends StoreStep (call.prog P E) s (.ok (ApplicationVerifier.readout uid verification))
      (Function.update s uid counter) := by
  rw [prog, ApplicationVerifier.verify_of_recover hrec hctr]
  refine .call (.get uid) ?_
  rw [ApplicationVerifier.checkCounter_of_lt hlt]
  exact .call (.set uid counter) .ret

/-- Any other counter is refused. -/
theorem ends_refused
    (hrec : (call.verifier.recover P call.masterKey call.input : Outcome (VerificationError E) _) =
      .ok (uid, verification)) (hctr : verification.readCtr = some counter)
    (hle : counter ≤ s uid) :
    Prog.Ends StoreStep (call.prog P E) s (fail (.readCounterTooLow (s uid) counter)) s := by
  rw [prog, ApplicationVerifier.verify_of_recover hrec hctr]
  refine .call (.get uid) ?_
  rw [ApplicationVerifier.checkCounter, if_pos hle]
  exact .ret

end VerifyCall

/-- The example readout twice: it is accepted once. -/
theorem Sequence.replay_protected_taps :
    ∃ log : List (EndedCall Empty), log.map EndedCall.result =
        [.ok (ApplicationVerifier.readout Interleaving.tapUid Interleaving.tapData),
          fail (.readCounterTooLow 1 1)] ∧
      (∀ uid, (0 :: acceptedCtrs uid log).Pairwise (· < ·)) ∧
      ∀ c ∈ log, c.Atomic .standard := by
  have hfirst := VerifyCall.ends_accepted (s := fun _ => 0) Interleaving.recover_tap rfl
    Nat.zero_lt_one
  have hstored : Function.update (fun _ => 0) Interleaving.tapUid 1 Interleaving.tapUid = 1 :=
    Function.update_self ..
  have hsecond := VerifyCall.ends_refused Interleaving.recover_tap rfl (Nat.le_of_eq hstored.symm)
  rw [hstored] at hsecond
  exact ⟨_, rfl, Sequence.replay_protected (.cons hfirst (.cons hsecond .nil))⟩

end Ntag424
