import Mathlib.Data.List.Pairwise
import Mathlib.Tactic.Common
import Ntag424.HighLevel.Verification
import Ntag424.Standard

/-!
# Replay Protection Under Interleaving

Any number of verification calls on handles to one counter store, in every interleaving of
their store operations. The trait offers no compare-and-set, so two calls can both read the
stored counter before either writes it back. What the code does guarantee is stated for the
interleavings that are serialised per UID: no other call sets a UID between a call's `get` and
its `set` of that UID.

## Main results

* `Interleaving.Inv.step`: the invariant of serialised interleavings is kept by every step.
* `Interleaving.state_le_of_serialised`, `Interleaving.Inv.readCtr_ne`: in a serialised
  interleaving stored counters never decrease, and no counter of a UID is accepted twice.
-/

namespace Ntag424

open Outcome

/-- One call of `verify`. -/
structure VerifyCall where
  verifier : ApplicationVerifier
  masterKey : Key
  input : List UInt8

/-- What a call returns, for a store with errors `E`. -/
abbrev VerifyResult (E : Type) := Outcome (VerificationError E) VerifiedTagReadout

/-- The program of a call. -/
def VerifyCall.prog (P : Primitives) (E : Type) (call : VerifyCall) :
    Prog (StoreOp.Answer E) (VerifyResult E) :=
  call.verifier.verify P call.masterKey call.input

namespace Interleaving

variable {P : Primitives} {E ι : Type}

/-- A store operation of one of the calls, with its answer. -/
abbrev StoreEvent (ι E : Type) := Prog.Event ι (StoreOp.Answer E)

/-- The calls in flight and their store. -/
abbrev Calls (ι E : Type) := Prog.Config CounterStore ι (StoreOp.Answer E) (VerifyResult E)

/-- All calls before their first step. -/
def Calls.start (P : Primitives) (E : Type) (calls : ι → VerifyCall) (s : CounterStore) :
    Calls ι E :=
  ⟨s, fun i => (calls i).prog P E⟩

/-- An event that asks to set the counter of a UID. -/
def Sets (e : StoreEvent ι E) (uid : Bytes 7) : Prop := ∃ ctr, e.request = .set uid ctr

/-- An event that set the counter of a UID and was answered so. -/
inductive Wrote : StoreEvent ι E → Bytes 7 → ℕ → Prop
  | mk (i : ι) (uid : Bytes 7) (ctr : ℕ) : Wrote ⟨i, .set uid ctr, .ok ()⟩ uid ctr

/-- **Serialised interleavings**: between a call's `get` of a UID and its `set` of that UID no
other call sets the UID. -/
def Serialised (es : List (StoreEvent ι E)) : Prop :=
  ∀ pre mid post (g s : StoreEvent ι E) (uid : Bytes 7), es = pre ++ g :: mid ++ s :: post →
    g.request = .get uid → Sets s uid → g.caller = s.caller →
      ∀ e ∈ mid, Sets e uid → e.caller = g.caller

theorem Serialised.of_append {es es' : List (StoreEvent ι E)} (h : Serialised (es ++ es')) :
    Serialised es := by
  intro pre mid post g s uid hes
  exact h pre mid (post ++ es') g s uid (by simp [hes])

/-- An interleaving in which only one call sets counters is serialised. -/
theorem Serialised.of_forall {es : List (StoreEvent ι E)} (i : ι)
    (h : ∀ e ∈ es, ∀ uid, Sets e uid → e.caller = i) : Serialised es := by
  rintro pre mid post g s uid rfl - hs hg e he hsets
  rw [hg, h s (by simp) uid hs]
  exact h e (by simp [he]) uid hsets

/-! ### Phases of a call -/

/-- Where a call stands, given the events so far and the store. -/
inductive Phase (P : Primitives) (call : VerifyCall) (i : ι) (es : List (StoreEvent ι E))
    (s : CounterStore) : Prog (StoreOp.Answer E) (VerifyResult E) → Prop
  /-- Before its first store operation. -/
  | started : Phase P call i es s (call.prog P E)
  /-- After its `get`: its counter is greater than the stored one, and the store still holds
  what the call read unless another call wrote the UID since. -/
  | checked {pre mid : List (StoreEvent ι E)} {g : StoreEvent ι E} {uid : Bytes 7}
      {verification : SdmVerification} {counter stored : ℕ} :
      verification.readCtr = some counter → stored < counter →
      es = pre ++ g :: mid → g.caller = i → g.request = .get uid →
      (∀ e ∈ mid, Sets e uid → e.caller ≠ i) → ((∀ e ∈ mid, ¬ Sets e uid) → s uid = stored) →
      Phase P call i es s (.call (.set uid counter) fun answer =>
        .ret (ApplicationVerifier.finish uid verification answer))
  /-- After its end: an accepted counter was written. -/
  | done {res : VerifyResult E} :
      (∀ r, res = .ok r → ∀ counter, r.readCtr = some counter →
        ∃ e ∈ es, e.caller = i ∧ Wrote e r.uid counter) →
      Phase P call i es s (.ret res)

/-- The invariant of serialised interleavings: every call is in one of its phases, the store
holds at least what was written, and what was written to a UID increases. -/
structure Inv (P : Primitives) (calls : ι → VerifyCall) (es : List (StoreEvent ι E))
    (c : Calls ι E) : Prop where
  phase : ∀ i, Phase P (calls i) i es c.state (c.progs i)
  written : ∀ e ∈ es, ∀ uid ctr, Wrote e uid ctr → ctr ≤ c.state uid
  increasing : es.Pairwise fun e e' => ∀ uid ctr ctr', Wrote e uid ctr → Wrote e' uid ctr' →
    ctr < ctr'

theorem Inv.start (calls : ι → VerifyCall) (s : CounterStore) :
    Inv P calls [] (Calls.start P E calls s) where
  phase _ := .started
  written := nofun
  increasing := .nil

/-! ### One step -/

/-- A step of the store changes no counter but the one it sets. -/
theorem state_eq_of_not_sets {s s' : CounterStore} {e : StoreEvent ι E}
    (h : StoreStep e.request s e.answer s') {uid : Bytes 7} (hno : ¬ Sets e uid) :
    s' uid = s uid := by
  obtain ⟨i, r, a⟩ := e
  have hne : ∀ {u c}, r = .set u c → uid ≠ u := by
    rintro u c rfl rfl
    exact hno ⟨c, rfl⟩
  cases h with
  | get | getFailed | setFailed => rfl
  | set | setUnanswered => exact Function.update_of_ne (hne rfl) _ _

/-- A call that takes no step stays in its phase. -/
theorem Phase.append {call : VerifyCall} {j : ι} {es : List (StoreEvent ι E)}
    {s s' : CounterStore} {p : Prog (StoreOp.Answer E) (VerifyResult E)}
    (h : Phase P call j es s p) {e : StoreEvent ι E} (hcaller : e.caller ≠ j)
    (hs : ∀ uid, ¬ Sets e uid → s' uid = s uid) : Phase P call j (es ++ [e]) s' p := by
  cases h with
  | started => exact .started
  | @checked pre mid g uid verification counter stored hctr hlt hes hg hreq hown hstored =>
      have hes' : es ++ [e] = pre ++ g :: (mid ++ [e]) := by simp [hes]
      refine .checked hctr hlt hes' hg hreq ?_ ?_
      · intro d hd
        rcases List.mem_append.mp hd with hd | hd
        · exact hown d hd
        · rw [List.mem_singleton.mp hd]
          exact fun _ => hcaller
      · intro hno
        rw [hs uid (hno e (by simp))]
        exact hstored fun d hd => hno d (List.mem_append_left _ hd)
  | done hres =>
      refine .done fun r hr counter hctr => ?_
      obtain ⟨d, hd, hw⟩ := hres r hr counter hctr
      exact ⟨d, List.mem_append_left _ hd, hw⟩

/-- What the store answers to a `get`, and that it keeps its counters. -/
theorem storeStep_get {s s' : CounterStore} {uid : Bytes 7} {a : Except E ℕ}
    (h : StoreStep (.get uid) s a s') : s' = s ∧ ∀ stored, a = .ok stored → stored = s uid := by
  cases h with
  | get => exact ⟨rfl, fun _ h => (Except.ok.inj h).symm⟩
  | getFailed => exact ⟨rfl, nofun⟩

/-- A `set` that is answered was carried out; another one may have been. -/
theorem storeStep_set {s s' : CounterStore} {uid : Bytes 7} {ctr : ℕ} {a : Except E Unit}
    (h : StoreStep (.set uid ctr) s a s') :
    s' = Function.update s uid ctr ∨ s' = s ∧ ∀ u, a ≠ .ok u := by
  cases h with
  | set | setUnanswered => exact .inl rfl
  | setFailed => exact .inr ⟨rfl, nofun⟩

/-- After its `get` a call has ended, or is ready to write a counter above the stored one. -/
theorem Phase.afterGet {call : VerifyCall} {i : ι} {es : List (StoreEvent ι E)}
    {s : CounterStore} {uid : Bytes 7} {verification : SdmVerification} {counter : ℕ}
    (hctr : verification.readCtr = some counter) {a : Except E ℕ}
    (ha : ∀ stored, a = .ok stored → stored = s uid) :
    Phase P call i (es ++ [⟨i, .get uid, a⟩]) s
      (ApplicationVerifier.checkCounter uid verification counter a) := by
  cases a with
  | error e => exact .done (by rintro _ ⟨⟩)
  | ok stored =>
      obtain rfl := ha stored rfl
      rw [ApplicationVerifier.checkCounter]
      split
      · exact .done (by rintro _ ⟨⟩)
      · rename_i hlt
        have hes : es ++ [⟨i, .get uid, .ok (s uid)⟩] =
            es ++ (⟨i, .get uid, .ok (s uid)⟩ : StoreEvent ι E) :: [] := rfl
        exact .checked hctr (Nat.lt_of_not_le hlt) hes rfl rfl (by rintro _ ⟨⟩) fun _ => rfl

/-- After its `set` a call has ended; when it was accepted, its counter was written. -/
theorem Phase.afterSet {call : VerifyCall} {i : ι} {es : List (StoreEvent ι E)}
    {s : CounterStore} {uid : Bytes 7} {verification : SdmVerification} {counter : ℕ}
    (hctr : verification.readCtr = some counter) (a : Except E Unit) :
    Phase P call i (es ++ [⟨i, .set uid counter, a⟩]) s
      (.ret (ApplicationVerifier.finish uid verification a)) := by
  refine .done fun r hr counter' hctr' => ?_
  cases a with
  | error e => cases hr
  | ok u =>
      cases hr
      obtain rfl := Option.some.inj (hctr.symm.trans hctr')
      exact ⟨_, List.mem_append_right _ (List.mem_singleton.mpr rfl), rfl, .mk i uid counter⟩

section Step

variable [DecidableEq ι] {calls : ι → VerifyCall} {es : List (StoreEvent ι E)} {c c' : Calls ι E}

/-- The invariant after a step, from the phase the stepping call reaches and from what the
step writes. -/
theorem Inv.extend (h : Inv P calls es c) {i : ι} {r : StoreOp} {a : r.Answer E}
    {s' : CounterStore} {p : Prog (StoreOp.Answer E) (VerifyResult E)}
    (henv : StoreStep r c.state a s') (hi : Phase P (calls i) i (es ++ [⟨i, r, a⟩]) s' p)
    (hle : ∀ uid, c.state uid ≤ s' uid)
    (hnew : ∀ uid ctr, Wrote (⟨i, r, a⟩ : StoreEvent ι E) uid ctr →
      c.state uid < ctr ∧ ctr ≤ s' uid) :
    Inv P calls (es ++ [⟨i, r, a⟩]) ⟨s', Function.update c.progs i p⟩ where
  phase j := by
    by_cases hj : j = i
    · subst hj
      simpa only [Function.update_self] using hi
    · simp only [Function.update_of_ne hj]
      exact (h.phase j).append (Ne.symm hj) fun _ => state_eq_of_not_sets henv
  written d hd uid ctr hw := by
    rcases List.mem_append.mp hd with hd | hd
    · exact (h.written d hd uid ctr hw).trans (hle uid)
    · rw [List.mem_singleton.mp hd] at hw
      exact (hnew uid ctr hw).2
  increasing := by
    refine List.pairwise_append.mpr ⟨h.increasing, List.pairwise_singleton _ _, ?_⟩
    intro d hd e he uid ctr ctr' hw hw'
    rw [List.mem_singleton.mp he] at hw'
    exact lt_of_le_of_lt (h.written d hd uid ctr hw) (hnew uid ctr' hw').1

/-- **The step lemma**: a step of a serialised interleaving keeps the invariant, and no stored
counter decreases in it. -/
theorem Inv.step {e : StoreEvent ι E} (h : Inv P calls es c) (hser : Serialised (es ++ [e]))
    (hstep : Prog.Step StoreStep c e c') :
    Inv P calls (es ++ [e]) c' ∧ ∀ uid, c.state uid ≤ c'.state uid := by
  cases hstep with
  | @mk i r k a s' hprog henv =>
      generalize hp : c.progs i = p at hprog
      have hphase := h.phase i
      rw [hp] at hphase
      cases hphase with
      | started =>
          obtain ⟨res, hret, -⟩ | ⟨uid, verification, counter, -, hctr, hcall⟩ :=
            ApplicationVerifier.verify_cases (P := P) (E := E) (calls i).verifier
              (calls i).masterKey (calls i).input
          · cases hret.symm.trans hprog
          · cases hcall.symm.trans hprog
            obtain ⟨rfl, ha⟩ := storeStep_get henv
            exact ⟨h.extend henv (.afterGet hctr ha) (fun _ => le_rfl) nofun, fun _ => le_rfl⟩
      | @checked pre mid g uid verification counter stored hctr hlt hes hg hreq hown hstored =>
          cases hprog
          -- nobody else wrote the UID since the call read it
          have hcurrent : c.state uid = stored := by
            refine hstored fun d hd hsets => hown d hd hsets (Eq.trans ?_ hg)
            exact hser pre mid [] g ⟨i, .set uid counter, a⟩ uid (by simp [hes]) hreq
              ⟨counter, rfl⟩ hg d hd hsets
          have hle : ∀ u, c.state u ≤ s' u := by
            intro u
            obtain rfl | ⟨rfl, -⟩ := storeStep_set henv
            · by_cases hu : u = uid
              · subst hu
                rw [Function.update_self, hcurrent]
                exact hlt.le
              · rw [Function.update_of_ne hu]
            · exact le_rfl
          refine ⟨h.extend henv (.afterSet hctr a) hle ?_, hle⟩
          rintro u ctr ⟨⟩
          obtain rfl | ⟨-, hno⟩ := storeStep_set henv
          · rw [Function.update_self, hcurrent]
            exact ⟨hlt, le_rfl⟩
          · exact absurd rfl (hno ())
      | done => cases hprog

/-! ### Whole interleavings -/

/-- **The run lemma**: after a serialised interleaving the invariant holds. -/
theorem Inv.run {s₀ : CounterStore}
    (hrun : Prog.Runs StoreStep (Calls.start P E calls s₀) es c) (hser : Serialised es) :
    Inv P calls es c := by
  revert hser
  refine hrun.invariant (I := fun es c => Serialised es → Inv P calls es c)
    (fun _ => Inv.start calls s₀) fun es d e d' ih hstep hser => ?_
  exact ((ih hser.of_append).step hser hstep).1

/-- In a serialised interleaving stored counters never decrease. -/
theorem state_le_of_serialised {s₀ : CounterStore} {es' : List (StoreEvent ι E)}
    (hrun : Prog.Runs StoreStep (Calls.start P E calls s₀) es c)
    (hrest : Prog.Runs StoreStep c es' c') (hser : Serialised (es ++ es')) (uid : Bytes 7) :
    c.state uid ≤ c'.state uid := by
  have hinv := Inv.run hrun hser.of_append
  have hall := hrest.invariant
    (I := fun es' d => Serialised (es ++ es') → Inv P calls (es ++ es') d ∧
      c.state uid ≤ d.state uid)
    (fun _ => ⟨by simpa using hinv, le_rfl⟩) fun es' d e d' ih hstep hser => by
      rw [← List.append_assoc] at hser ⊢
      obtain ⟨hd, hle⟩ := ih hser.of_append
      obtain ⟨hd', hstepLe⟩ := hd.step hser hstep
      exact ⟨hd', hle.trans (hstepLe uid)⟩
  exact (hall hser).2

omit [DecidableEq ι] in
/-- Two different calls do not both end with the same UID and the same counter. -/
theorem Inv.readCtr_ne (h : Inv P calls es c) {i j : ι} (hij : i ≠ j)
    {r r' : VerifiedTagReadout} (hr : c.progs i = .ret (.ok r)) (hr' : c.progs j = .ret (.ok r'))
    (huid : r.uid = r'.uid) {ctr : ℕ} (hctr : r.readCtr = some ctr) :
    r'.readCtr ≠ some ctr := by
  intro hctr'
  -- an accepted counter was written by its call
  have wrote : ∀ {k : ι} {q : VerifiedTagReadout}, c.progs k = .ret (.ok q) →
      q.readCtr = some ctr → ∃ e ∈ es, e.caller = k ∧ Wrote e q.uid ctr := by
    intro k q hq hqctr
    have hphase := h.phase k
    generalize hp : c.progs k = p at hphase
    rw [hq] at hp
    cases hphase with
    | started =>
        obtain ⟨res, hret, hnone⟩ | ⟨_, _, _, -, -, hcall⟩ :=
          ApplicationVerifier.verify_cases (P := P) (E := E) (calls k).verifier
            (calls k).masterKey (calls k).input
        · cases hret.symm.trans hp.symm
          cases (hnone q rfl).symm.trans hqctr
        · cases hcall.symm.trans hp.symm
    | checked => cases hp
    | done hres =>
        cases hp
        exact hres q rfl ctr hqctr
  obtain ⟨e, he, hei, hw⟩ := wrote hr hctr
  obtain ⟨e', he', hej, hw'⟩ := wrote hr' hctr'
  rw [← huid] at hw'
  have hne : e ≠ e' := fun h => hij (hei.symm.trans ((congrArg Prog.Event.caller h).trans hej))
  obtain ⟨m, hm, rfl⟩ := List.mem_iff_getElem.mp he
  obtain ⟨n, hn, rfl⟩ := List.mem_iff_getElem.mp he'
  have hpairs := List.pairwise_iff_getElem.mp h.increasing
  rcases Nat.lt_trichotomy m n with hlt | heq | hlt
  · exact lt_irrefl _ (hpairs m n hm hn hlt r.uid ctr ctr hw hw')
  · subst heq
    exact hne rfl
  · exact lt_irrefl _ (hpairs n m hn hm hlt r.uid ctr ctr hw' hw)

/-- **Replay protection of serialised interleavings.** For any number of calls on one store and
every interleaving in which no other call sets a UID between a call's `get` and its `set` of
it, stored counters never decrease and no two calls accept the same counter of a UID. -/
theorem replay_protected_of_serialised {s₀ : CounterStore} {es' : List (StoreEvent ι E)}
    (hrun : Prog.Runs StoreStep (Calls.start P E calls s₀) es c)
    (hrest : Prog.Runs StoreStep c es' c') (hser : Serialised (es ++ es')) :
    (∀ uid, c.state uid ≤ c'.state uid) ∧
      ∀ i j r r' ctr, i ≠ j → c.progs i = .ret (.ok r) → c.progs j = .ret (.ok r') →
        r.uid = r'.uid → r.readCtr = some ctr → r'.readCtr ≠ some ctr :=
  ⟨state_le_of_serialised hrun hrest hser,
    fun _ _ _ _ _ hij hr hr' huid hctr =>
      (Inv.run hrun hser.of_append).readCtr_ne hij hr hr' huid hctr⟩

end Step

/-! ### A replay that both calls accept -/

/-- **Every readout that one call accepts can be accepted by two**: both read the stored
counter before either writes it back. -/
theorem exists_runs_both_accepted {call : VerifyCall} {uid : Bytes 7}
    {verification : SdmVerification} {counter : ℕ} {s : CounterStore}
    (hrec : (call.verifier.recover P call.masterKey call.input :
      Outcome (VerificationError E) _) = .ok (uid, verification))
    (hctr : verification.readCtr = some counter) (hlt : s uid < counter) :
    ∃ es c, Prog.Runs StoreStep (Calls.start P E (fun _ : Bool => call) s) es c ∧
      ∀ i, c.progs i = .ret (.ok (ApplicationVerifier.readout uid verification)) := by
  have hstart : ∀ i : Bool, (Calls.start P E (fun _ : Bool => call) s).progs i = _ :=
    fun _ => ApplicationVerifier.verify_of_recover hrec hctr
  have hset : (ApplicationVerifier.checkCounter uid verification counter (.ok (s uid)) :
      Prog (StoreOp.Answer E) _) = _ := ApplicationVerifier.checkCounter_of_lt hlt
  refine ⟨_, _, .snoc (.snoc (.snoc (.snoc .nil (.mk (i := false) (hstart false) (.get uid)))
    (.mk (i := true) (hstart true) (.get uid))) (.mk (i := false) hset (.set uid counter)))
    (.mk (i := true) hset (.set uid counter)), fun i => ?_⟩
  cases i with
  | false => rfl
  | true => rfl

/-- One call after the other is serialised: the first one accepts the readout. -/
theorem exists_runs_in_turn {call : VerifyCall} {uid : Bytes 7}
    {verification : SdmVerification} {counter : ℕ} {s : CounterStore}
    (hrec : (call.verifier.recover P call.masterKey call.input :
      Outcome (VerificationError E) _) = .ok (uid, verification))
    (hctr : verification.readCtr = some counter) (hlt : s uid < counter) :
    ∃ es c, Prog.Runs StoreStep (Calls.start P E (fun _ : Bool => call) s) es c ∧
      Serialised es ∧ c.progs false = .ret (.ok (ApplicationVerifier.readout uid verification)) ∧
      c.progs true = ApplicationVerifier.checkCounter uid verification counter (.ok counter) := by
  have hstart : ∀ i : Bool, (Calls.start P E (fun _ : Bool => call) s).progs i = _ :=
    fun _ => ApplicationVerifier.verify_of_recover hrec hctr
  have hset : (ApplicationVerifier.checkCounter uid verification counter (.ok (s uid)) :
      Prog (StoreOp.Answer E) _) = _ := ApplicationVerifier.checkCounter_of_lt hlt
  refine ⟨_, _, .snoc (.snoc (.snoc .nil (.mk (i := false) (hstart false) (.get uid)))
    (.mk (i := false) hset (.set uid counter))) (.mk (i := true) (hstart true) (.get uid)),
    .of_forall false fun e he u hsets => ?_, rfl, ?_⟩
  · simp only [List.nil_append, List.cons_append, List.mem_cons, List.not_mem_nil, or_false] at he
    obtain rfl | rfl | rfl := he
    · rfl
    · rfl
    · obtain ⟨ctr, hset⟩ := hsets
      cases hset
  · simp [Function.update_self]

/-- A verifier for a plain UID and counter at the start of the input, followed by the MAC. -/
def plainVerifier : ApplicationVerifier where
  urlTemplate := "{uid}{ctr}{mac}"
  verifier :=
    { mode := .aes, piccSource := .plain (some 0) (some 14), metaReadKey := none,
      fileReadKey := .key2, macInputOffset := 0, macOffset := 20, tamperStatusOffset := none,
      encData := none }
  urlPrefix := none
  systemIdentifier := [0x4E, 0x54, 0x41, 0x47, 0x34, 0x32, 0x34, 0x44, 0x4E, 0x41]
  uid := none
  originalitySignature := none

/-- The UID of the example tag. -/
def tapUid : Bytes 7 := ⟨[0x04, 0xAA, 0xBB, 0xCC, 0xDD, 0xEE, 0x80], rfl⟩

/-- The readout `04AABBCCDDEE80 000001 7DED0ADC7B19FA89` under the all-zero master key. -/
def tap : VerifyCall where
  verifier := plainVerifier
  masterKey := Bytes.zeros 16
  input := Hex.encode (tapUid.toList ++ [0x00, 0x00, 0x01] ++
    [0x7D, 0xED, 0x0A, 0xDC, 0x7B, 0x19, 0xFA, 0x89])

/-- What the example readout verifies to. -/
def tapData : SdmVerification := ⟨some tapUid, some 1, none, none⟩

theorem recover_tap :
    (tap.verifier.recover .standard tap.masterKey tap.input :
      Outcome (VerificationError Empty) _) = .ok (tapUid, tapData) := by
  decide +kernel

/-- Two calls with the example readout, one after the other: the second one does not accept
its counter again. -/
theorem replay_protected_of_serialised_tap :
    ∃ (es : List (StoreEvent Bool Empty)) (c : Calls Bool Empty),
      Prog.Runs StoreStep (Calls.start .standard Empty (fun _ => tap) fun _ => 0) es c ∧
      c.progs false = .ret (.ok (ApplicationVerifier.readout tapUid tapData)) ∧
      ∀ r', c.progs true = .ret (.ok r') → tapUid = r'.uid → r'.readCtr ≠ some 1 := by
  obtain ⟨es, c, hrun, hser, hfirst, -⟩ := exists_runs_in_turn (P := .standard)
    (s := fun _ => 0) recover_tap rfl Nat.zero_lt_one
  refine ⟨es, c, hrun, hfirst, fun r' hr' huid => ?_⟩
  exact (replay_protected_of_serialised hrun .nil (by simpa using hser)).2 false true _ r' 1
    (by decide) hfirst hr' huid rfl

/-- **A replay that both handlers accept**: without serialisation the same counter of a UID is
accepted twice. -/
theorem twoTaps_both_accepted :
    ¬ ∀ (calls : Bool → VerifyCall) (s₀ : CounterStore) (es : List (StoreEvent Bool Empty))
        (c : Calls Bool Empty), Prog.Runs StoreStep (Calls.start .standard Empty calls s₀) es c →
      (∀ uid, s₀ uid ≤ c.state uid) ∧
        ∀ i j r r' ctr, i ≠ j → c.progs i = .ret (.ok r) → c.progs j = .ret (.ok r') →
          r.uid = r'.uid → r.readCtr = some ctr → r'.readCtr ≠ some ctr := by
  intro h
  obtain ⟨es, c, hrun, hres⟩ := exists_runs_both_accepted (P := .standard) (s := fun _ => 0)
    recover_tap rfl Nat.zero_lt_one
  exact (h _ _ es c hrun).2 false true _ _ 1 (by decide) (hres false) (hres true) rfl rfl rfl

end Interleaving

end Ntag424
