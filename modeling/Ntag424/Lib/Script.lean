import Mathlib.Tactic.Common
import Ntag424.Lib.Outcome
import Ntag424.Lib.Prog

/-!
# Fallible Stateful Programs and Their Weakest Preconditions

A `Script` works on a local state, asks its environment, and returns a value, returns an
error or panics; the local state survives all three. A script whose state is consumed
(`Script.on`) hands the state back only with a value.

An environment is a relation: the request `r`, made in the world `w`, may be answered by `a`
and leave the world `w'`. A deterministic environment (`Prog.Answers`) is the graph of a
handler, the environment that may answer anything is the full relation. Weakest preconditions
carry an invariant `I` of the worlds in which requests are made: it is what holds of the world
when the program is stopped between two requests.

## Main results

* `Prog.wp_bind`, `Script.wp_bind`: the sequencing rules.
* `Prog.wp_mono`, `Script.wp_mono`: the consequence rules.
* `Prog.wp_and`, `Script.wp_and`: the conjunction rules.
* `Prog.wp_comap`, `Script.wp_comap`: what holds in a part of the world holds in the world.
* `Prog.wp_run`, `Prog.wp_runUntil`: what a weakest precondition says about a run to the end
  and about a run that is stopped.
* `Script.wp_on`: consuming the state loses it with every error.
* `Script.Keeps`: what is true before a script and after each of its ends.
-/

namespace Prog

variable {ρ : Type} {α : ρ → Type} {β γ σ : Type}

/-- The environment given by a handler. -/
def Answers (h : (r : ρ) → σ → α r × σ) (r : ρ) (s : σ) (a : α r) (s' : σ) : Prop :=
  h r s = (a, s')

/-- Every run of the program from the given world makes its requests in worlds that satisfy
`I` and ends in a result and a world that satisfy `Q`. -/
def wp (env : (r : ρ) → σ → α r → σ → Prop) (I : σ → Prop) :
    Prog α β → (β → σ → Prop) → σ → Prop
  | ret b, Q, s => Q b s
  | call r k, Q, s => I s ∧ ∀ a s', env r s a s' → wp env I (k a) Q s'

variable {env : (r : ρ) → σ → α r → σ → Prop} {I : σ → Prop}

@[simp] theorem wp_ret {b : β} {Q : β → σ → Prop} {s : σ} :
    wp env I (ret b : Prog α β) Q s ↔ Q b s := Iff.rfl

@[simp] theorem wp_pure {b : β} {Q : β → σ → Prop} {s : σ} :
    wp env I (pure b : Prog α β) Q s ↔ Q b s := Iff.rfl

@[simp] theorem wp_call {r : ρ} {k : α r → Prog α β} {Q : β → σ → Prop} {s : σ} :
    wp env I (call r k) Q s ↔ I s ∧ ∀ a s', env r s a s' → wp env I (k a) Q s' := Iff.rfl

/-- **Consequence.** -/
theorem wp_mono {p : Prog α β} {Q Q' : β → σ → Prop} {s : σ} (h : wp env I p Q s)
    (hQ : ∀ b s', Q b s' → Q' b s') : wp env I p Q' s := by
  induction p generalizing s with
  | ret b => exact hQ b s h
  | call r k ih => exact ⟨h.1, fun a s' ha => ih a (h.2 a s' ha)⟩

/-- Equivalent postconditions. -/
theorem wp_congr {p : Prog α β} {Q Q' : β → σ → Prop} {s : σ} (h : ∀ b s', Q b s' ↔ Q' b s') :
    wp env I p Q s ↔ wp env I p Q' s :=
  ⟨fun hQ => wp_mono hQ fun b s' => (h b s').mp, fun hQ => wp_mono hQ fun b s' => (h b s').mpr⟩

/-- **Conjunction**, of the invariants as well. -/
theorem wp_both {I' : σ → Prop} {p : Prog α β} {Q Q' : β → σ → Prop} {s : σ}
    (h : wp env I p Q s) (h' : wp env I' p Q' s) :
    wp env (fun s => I s ∧ I' s) p (fun b s' => Q b s' ∧ Q' b s') s := by
  induction p generalizing s with
  | ret b => exact ⟨h, h'⟩
  | call r k ih => exact ⟨⟨h.1, h'.1⟩, fun a s' ha => ih a (h.2 a s' ha) (h'.2 a s' ha)⟩

/-- A weaker invariant. -/
theorem wp_weaken {I' : σ → Prop} {p : Prog α β} {Q : β → σ → Prop} {s : σ} (h : wp env I p Q s)
    (hI : ∀ s, I s → I' s) : wp env I' p Q s := by
  induction p generalizing s with
  | ret b => exact h
  | call r k ih => exact ⟨hI s h.1, fun a s' ha => ih a (h.2 a s' ha)⟩

/-- **Conjunction.** -/
theorem wp_and {p : Prog α β} {Q Q' : β → σ → Prop} {s : σ} (h : wp env I p Q s)
    (h' : wp env I p Q' s) : wp env I p (fun b s' => Q b s' ∧ Q' b s') s :=
  wp_weaken (wp_both h h') fun _ hI => hI.1

/-- **Sequencing.** -/
theorem wp_bind {p : Prog α β} {f : β → Prog α γ} {Q : γ → σ → Prop} {s : σ} :
    wp env I (p >>= f) Q s ↔ wp env I p (fun b => wp env I (f b) Q) s := by
  induction p generalizing s with
  | ret b => exact Iff.rfl
  | call r k ih =>
      simp only [call_bind, wp_call]
      exact and_congr_right fun _ => forall_congr' fun a => forall_congr' fun s' =>
        imp_congr_right fun _ => ih a

/-- Two continuations that agree on every result make the same program. -/
theorem bind_congr_of_wp {p : Prog α β} {f g : β → Prog α γ}
    (h : wp (fun _ (_ : Unit) _ _ => True) (fun _ => True) p (fun b _ => f b = g b) ()) :
    (p >>= f) = p >>= g := by
  induction p with
  | ret b => exact h
  | call r k ih => exact congrArg (Prog.call r) (funext fun a => ih a (h.2 a () trivial))

/-- Nothing is demanded of a program that may end anywhere. -/
theorem wp_any (p : Prog α β) (s : σ) : wp env (fun _ => True) p (fun _ _ => True) s := by
  induction p generalizing s with
  | ret b => trivial
  | call r k ih => exact ⟨trivial, fun a s' _ => ih a s'⟩

/-- A run to the end satisfies the postcondition. -/
theorem wp_run {h : (r : ρ) → σ → α r × σ} {p : Prog α β} {Q : β → σ → Prop} {s : σ}
    (hwp : wp (Answers h) I p Q s) : Q (run h p s).1 (run h p s).2 := by
  induction p generalizing s with
  | ret b => exact hwp
  | call r k ih => exact ih _ (hwp.2 _ _ rfl)

/-- **Projection**: what holds in a part of the world holds in the world, if every answer of the
world is one of the part. -/
theorem wp_comap {τ : Type} {env' : (r : ρ) → τ → α r → τ → Prop} {f : τ → σ}
    (henv : ∀ r s a s', env' r s a s' → env r (f s) a (f s')) {p : Prog α β}
    {Q : β → σ → Prop} {s : τ} (h : wp env I p Q (f s)) :
    wp env' (fun s => I (f s)) p (fun b s => Q b (f s)) s := by
  induction p generalizing s with
  | ret b => exact h
  | call r k ih => exact ⟨h.1, fun a s' ha => ih a (h.2 a (f s') (henv r s a s' ha))⟩

/-- What every answer leaves true, every program leaves true. -/
theorem wp_keeps {J : σ → Prop} (henv : ∀ r s a s', J s → env r s a s' → J s') (p : Prog α β)
    {s : σ} (h : J s) : wp env (fun _ => True) p (fun _ => J) s := by
  induction p generalizing s with
  | ret b => exact h
  | call r k ih => exact ⟨trivial, fun a s' ha => ih a (henv r s a s' h ha)⟩

/-- `p`, started in the world `s`, can end with the result `b` in the world `s'`. -/
inductive Ends (env : (r : ρ) → σ → α r → σ → Prop) : Prog α β → σ → β → σ → Prop
  | ret {b : β} {s : σ} : Ends env (.ret b) s b s
  | call {r : ρ} {k : α r → Prog α β} {s s' s'' : σ} {a : α r} {b : β} :
      env r s a s' → Ends env (k a) s' b s'' → Ends env (.call r k) s b s''

/-- Every end satisfies the postcondition. -/
theorem wp_ends {p : Prog α β} {Q : β → σ → Prop} {s s' : σ} {b : β} (h : wp env I p Q s)
    (hend : Ends env p s b s') : Q b s' := by
  induction hend with
  | ret => exact h
  | call ha _ ih => exact ih (h.2 _ _ ha)

/-- A program that may ask anything anywhere is known by its ends. -/
theorem wp_of_ends {p : Prog α β} {Q : β → σ → Prop} {s : σ}
    (h : ∀ b s', Ends env p s b s' → Q b s') : wp env (fun _ => True) p Q s := by
  induction p generalizing s with
  | ret b => exact h b s .ret
  | call r k ih => exact ⟨trivial, fun a s' ha => ih a fun b s'' hend => h b s'' (.call ha hend)⟩

/-- An environment with more answers has more ends. -/
theorem Ends.mono {env' : (r : ρ) → σ → α r → σ → Prop} {p : Prog α β} {s s' : σ} {b : β}
    (h : Ends env p s b s') (henv : ∀ r s a s', env r s a s' → env' r s a s') :
    Ends env' p s b s' := by
  induction h with
  | ret => exact .ret
  | call ha _ ih => exact .call (henv _ _ _ _ ha) ih

/-- An end in the world is an end in a part of it, if every answer of the world is one of the
part. -/
theorem Ends.comap {τ : Type} {env' : (r : ρ) → τ → α r → τ → Prop} {f : τ → σ} {p : Prog α β}
    {s s' : τ} {b : β} (h : Ends env' p s b s')
    (henv : ∀ r s a s', env' r s a s' → env r (f s) a (f s')) : Ends env p (f s) b (f s') := by
  induction h with
  | ret => exact .ret
  | call ha _ ih => exact .call (henv _ _ _ _ ha) ih

/-- Against a handler, a program has one run. -/
theorem wp_answers_iff {h : (r : ρ) → σ → α r × σ} {p : Prog α β} {Q : β → σ → Prop} {s : σ} :
    wp (Answers h) (fun _ => True) p Q s ↔ Q (run h p s).1 (run h p s).2 := by
  refine ⟨wp_run, fun hQ => ?_⟩
  induction p generalizing s with
  | ret b => exact hQ
  | call r k ih =>
      refine ⟨trivial, ?_⟩
      intro a s' ha
      obtain ⟨rfl, rfl⟩ := Prod.ext_iff.mp ha
      exact ih _ hQ

/-- Against a handler, a program ends in its run. -/
theorem ends_run (h : (r : ρ) → σ → α r × σ) (p : Prog α β) (s : σ) :
    Ends (Answers h) p s (run h p s).1 (run h p s).2 := by
  induction p generalizing s with
  | ret b => exact .ret
  | call r k ih => exact .call rfl (ih _ _)

/-- A stopped run leaves a world that satisfies the invariant of the requests. -/
theorem wp_runUntil {h : (r : ρ) → σ → α r × σ} {p : Prog α β} {Q : β → σ → Prop} {s s' : σ}
    {n : ℕ} (hwp : wp (Answers h) I p Q s) (hstop : runUntil h n p s = (none, s')) : I s' := by
  induction p generalizing s n with
  | ret b => cases n <;> cases hstop
  | call r k ih =>
      cases n with
      | zero =>
          cases hstop
          exact hwp.1
      | succ n => exact ih _ (hwp.2 _ _ rfl) hstop

/-- What holds wherever a program is stopped and where it ends. -/
theorem wp_runUntil_always {h : (r : ρ) → σ → α r × σ} {p : Prog α β} {s : σ} (n : ℕ)
    (hwp : wp (Answers h) I p (fun _ => I) s) : I (runUntil h n p s).2 := by
  induction p generalizing s n with
  | ret b => cases n <;> exact hwp
  | call r k ih =>
      cases n with
      | zero => exact hwp.1
      | succ n => exact ih _ n (hwp.2 _ _ rfl)

end Prog

/-- A program on a local state `σ` that returns a value, returns an error `ε` or panics. -/
def Script {ρ : Type} (α : ρ → Type) (σ ε β : Type) := σ → Prog α (Outcome ε β × σ)

namespace Script

variable {ρ : Type} {α : ρ → Type} {σ τ ε β γ W : Type}

/-- Return a value. -/
protected def pure (b : β) : Script α σ ε β := fun s => .ret (.ok b, s)

/-- Sequential composition: an error ends the sequence. -/
protected def bind (m : Script α σ ε β) (f : β → Script α σ ε γ) : Script α σ ε γ := fun s =>
  m s >>= fun
    | (.ok b, s') => f b s'
    | (.error e, s') => .ret (.error e, s')

instance : Monad (Script α σ ε) where
  pure := Script.pure
  bind := Script.bind

/-- Sequences associate. -/
theorem bind_assoc' {δ : Type} (m : Script α σ ε β) (f : β → Script α σ ε γ)
    (g : γ → Script α σ ε δ) : (m >>= f) >>= g = m >>= fun b => f b >>= g := by
  funext s
  refine (Prog.bind_assoc' (m s) _ _).trans (congrArg (m s >>= ·) (funext ?_))
  rintro ⟨e | b, s'⟩ <;> rfl

theorem pure_bind' (b : β) (f : β → Script α σ ε γ) : (pure b : Script α σ ε β) >>= f = f b := rfl

/-- The local state. -/
def get : Script α σ ε σ := fun s => .ret (.ok s, s)

/-- Replace the local state. -/
def set (s : σ) : Script α σ ε Unit := fun _ => .ret (.ok (), s)

/-- A computation that asks nothing and leaves the local state alone. -/
def lift (o : Outcome ε β) : Script α σ ε β := fun s => .ret (o, s)

theorem lift_ok_bind (b : β) (f : β → Script α σ ε γ) :
    (lift (.ok b) : Script α σ ε β) >>= f = f b := rfl

/-- Return an error. -/
def fail (e : ε) : Script α σ ε β := lift (Outcome.fail e)

/-- Return an error unless a condition holds. -/
def require (p : Prop) [Decidable p] (e : ε) : Script α σ ε Unit := if p then pure () else fail e

/-- Stop abnormally unless a condition holds. -/
def assert (p : Prop) [Decidable p] : Script α σ ε Unit :=
  if p then pure () else lift Outcome.panicked

/-- Issue a request. -/
def request (r : ρ) : Script α σ ε (α r) := fun s => .call r fun a => .ret (.ok a, s)

/-- Run a script on a state of its own and return that state with the value. An error loses
the state. -/
def on (m : Script α σ ε β) (s : σ) : Script α τ ε (β × σ) := fun t =>
  m s >>= fun
    | (.ok b, s') => .ret (.ok (b, s'), t)
    | (.error e, _) => .ret (.error e, t)

/-- Run a script on a part of the local state, read by `get` and written back by `put`. -/
def zoom (get : τ → σ) (put : τ → σ → τ) (m : Script α σ ε β) : Script α τ ε β := fun t =>
  m (get t) >>= fun (o, s') => .ret (o, put t s')

/-- Run a script and return its error as a value; a panic stays a panic. -/
def attempt (m : Script α σ ε β) : Script α σ ε (Except ε β) := fun s =>
  m s >>= fun
    | (.ok b, s') => .ret (.ok (.ok b), s')
    | (.error (.error e), s') => .ret (.ok (.error e), s')
    | (.error .panicked, s') => .ret (.error .panicked, s')

/-- Turn the errors of a script into others; a panic stays a panic. -/
def mapError {ε' : Type} (f : ε → ε') (m : Script α σ ε β) : Script α σ ε' β := fun s =>
  m s >>= fun
    | (.ok b, s') => .ret (.ok b, s')
    | (.error (.error e), s') => .ret (.error (.error (f e)), s')
    | (.error .panicked, s') => .ret (.error .panicked, s')

/-! ### Weakest preconditions -/

section Wp

variable (env : (r : ρ) → W → α r → W → Prop) (I : W → Prop)

/-- From the local state `s` and the world `w`, every run of the script returns a value with
`Q`, or ends in a fault with `R`. -/
def wp (m : Script α σ ε β) (Q : β → σ → W → Prop) (R : Fault ε → σ → W → Prop) (s : σ) (w : W) :
    Prop :=
  (m s).wp env I (fun r w' =>
    match r.1 with
    | .ok b => Q b r.2 w'
    | .error e => R e r.2 w') w

variable {env I} {Q : β → σ → W → Prop} {R : Fault ε → σ → W → Prop} {s : σ} {w : W}

@[simp] theorem wp_pure {b : β} :
    wp env I (pure b : Script α σ ε β) Q R s w ↔ Q b s w := Iff.rfl

@[simp] theorem wp_get {Q : σ → σ → W → Prop} :
    wp env I (get : Script α σ ε σ) Q R s w ↔ Q s s w := Iff.rfl

@[simp] theorem wp_set {Q : Unit → σ → W → Prop} {s' : σ} :
    wp env I (set s' : Script α σ ε Unit) Q R s w ↔ Q () s' w := Iff.rfl

@[simp] theorem wp_lift_ok {b : β} :
    wp env I (lift (.ok b) : Script α σ ε β) Q R s w ↔ Q b s w := Iff.rfl

@[simp] theorem wp_lift_error {e : Fault ε} :
    wp env I (lift (.error e) : Script α σ ε β) Q R s w ↔ R e s w := Iff.rfl

@[simp] theorem wp_fail {e : ε} :
    wp env I (fail e : Script α σ ε β) Q R s w ↔ R (.error e) s w := Iff.rfl

@[simp] theorem wp_request {r : ρ} {Q : α r → σ → W → Prop} :
    wp env I (request r : Script α σ ε (α r)) Q R s w ↔
      I w ∧ ∀ a w', env r w a w' → Q a s w' := Iff.rfl

/-- **Sequencing.** -/
@[simp] theorem wp_bind {m : Script α σ ε β} {f : β → Script α σ ε γ} {Q : γ → σ → W → Prop} :
    wp env I (m >>= f) Q R s w ↔
      wp env I m (fun b s' w' => wp env I (f b) Q R s' w') R s w := by
  simp only [wp, bind, Script.bind]
  rw [show (m s).bind _ = (m s >>= _) from rfl, Prog.wp_bind]
  refine Prog.wp_congr ?_
  rintro ⟨o, s'⟩ w'
  cases o with
  | ok b => exact Iff.rfl
  | error e => exact Iff.rfl

/-- **Consequence.** -/
theorem wp_mono {m : Script α σ ε β} {Q' : β → σ → W → Prop} {R' : Fault ε → σ → W → Prop}
    (h : wp env I m Q R s w) (hQ : ∀ b s' w', Q b s' w' → Q' b s' w')
    (hR : ∀ e s' w', R e s' w' → R' e s' w') : wp env I m Q' R' s w := by
  refine Prog.wp_mono h ?_
  rintro ⟨o, s'⟩ w' hw
  cases o with
  | ok b => exact hQ b s' w' hw
  | error e => exact hR e s' w' hw

/-- **Conjunction**, of the invariants as well. -/
theorem wp_both {I' : W → Prop} {m : Script α σ ε β} {Q' : β → σ → W → Prop}
    {R' : Fault ε → σ → W → Prop} (h : wp env I m Q R s w) (h' : wp env I' m Q' R' s w) :
    wp env (fun w => I w ∧ I' w) m (fun b s' w' => Q b s' w' ∧ Q' b s' w')
      (fun e s' w' => R e s' w' ∧ R' e s' w') s w := by
  refine Prog.wp_mono (Prog.wp_both h h') ?_
  rintro ⟨o, s'⟩ w' ⟨hw, hw'⟩
  cases o with
  | ok b => exact ⟨hw, hw'⟩
  | error e => exact ⟨hw, hw'⟩

/-- A weaker invariant. -/
theorem wp_weaken {I' : W → Prop} {m : Script α σ ε β} (h : wp env I m Q R s w)
    (hI : ∀ w, I w → I' w) : wp env I' m Q R s w := by
  rw [wp] at h ⊢
  exact Prog.wp_weaken h hI

/-- **Conjunction.** -/
theorem wp_and {m : Script α σ ε β} {Q' : β → σ → W → Prop} {R' : Fault ε → σ → W → Prop}
    (h : wp env I m Q R s w) (h' : wp env I m Q' R' s w) :
    wp env I m (fun b s' w' => Q b s' w' ∧ Q' b s' w') (fun e s' w' => R e s' w' ∧ R' e s' w')
      s w :=
  wp_weaken (wp_both h h') fun _ hI => hI.1

/-- **Projection**. -/
theorem wp_comap {V : Type} {env' : (r : ρ) → V → α r → V → Prop} {f : V → W}
    (henv : ∀ r v a v', env' r v a v' → env r (f v) a (f v')) {m : Script α σ ε β} {v : V}
    (h : wp env I m Q R s (f v)) :
    wp env' (fun v => I (f v)) m (fun b s' v' => Q b s' (f v')) (fun e s' v' => R e s' (f v'))
      s v := by
  refine Prog.wp_mono (Prog.wp_comap henv h) ?_
  rintro ⟨o, s'⟩ v' hv
  cases o with
  | ok b => exact hv
  | error e => exact hv

/-- Nothing is demanded of a script that may end anywhere. -/
theorem wp_any (m : Script α σ ε β) :
    wp env (fun _ => True) m (fun _ _ _ => True) (fun _ _ _ => True) s w := by
  refine Prog.wp_mono (Prog.wp_any _ _) ?_
  rintro ⟨o, s'⟩ w' -
  cases o with
  | ok b => trivial
  | error e => trivial

/-- A sequence whose first part is known by its own postconditions. -/
theorem wp_bind_of {m : Script α σ ε β} {f : β → Script α σ ε γ} {Q' : γ → σ → W → Prop}
    {R' : Fault ε → σ → W → Prop} (h : wp env I m Q R s w)
    (hQ : ∀ b s' w', Q b s' w' → wp env I (f b) Q' R' s' w')
    (hR : ∀ e s' w', R e s' w' → R' e s' w') : wp env I (m >>= f) Q' R' s w :=
  wp_bind.mpr (wp_mono h hQ hR)

/-- Two continuations that agree on every value make the same script. -/
theorem bind_congr_of_wp {m : Script α σ ε β} {f g : β → Script α σ ε γ}
    (h : ∀ s, wp (fun _ (_ : Unit) _ _ => True) (fun _ => True) m (fun b s' _ => f b s' = g b s')
      (fun _ _ _ => True) s ()) : (m >>= f) = m >>= g := by
  funext s
  refine Prog.bind_congr_of_wp (Prog.wp_mono (h s) ?_)
  rintro ⟨e | b, s'⟩ _ hb
  · rfl
  · exact hb

theorem wp_require {p : Prop} [Decidable p] {e : ε} {Q : Unit → σ → W → Prop} :
    wp env I (require p e : Script α σ ε Unit) Q R s w ↔
      (p → Q () s w) ∧ (¬p → R (.error e) s w) := by
  unfold require
  split
  · rename_i hp
    simp [hp]
  · rename_i hp
    simp [hp]

theorem wp_assert {p : Prop} [Decidable p] {Q : Unit → σ → W → Prop} :
    wp env I (assert p : Script α σ ε Unit) Q R s w ↔
      (p → Q () s w) ∧ (¬p → R .panicked s w) := by
  unfold assert
  split
  · rename_i hp
    simp [hp]
  · rename_i hp
    simp [hp, Outcome.panicked]

/-- Consuming the state: it is handed back with a value and lost with an error. -/
theorem wp_on {m : Script α σ ε β} {Q : β × σ → τ → W → Prop} {R : Fault ε → τ → W → Prop}
    {t : τ} : wp env I (m.on s) Q R t w ↔
      wp env I m (fun b s' w' => Q (b, s') t w') (fun e _ w' => R e t w') s w := by
  simp only [wp, on, Prog.wp_bind]
  refine Prog.wp_congr ?_
  rintro ⟨o, s'⟩ w'
  cases o with
  | ok b => exact Iff.rfl
  | error e => exact Iff.rfl

/-- Working on a part of the state leaves the rest alone, also after a fault. -/
theorem wp_zoom {get : τ → σ} {put : τ → σ → τ} {m : Script α σ ε β} {Q : β → τ → W → Prop}
    {R : Fault ε → τ → W → Prop} {t : τ} :
    wp env I (m.zoom get put) Q R t w ↔
      wp env I m (fun b s' => Q b (put t s')) (fun e s' => R e (put t s')) (get t) w := by
  simp only [wp, zoom, Prog.wp_bind]
  exact Iff.rfl

/-- Every end of a script with a value satisfies its postcondition. -/
theorem wp_ends {m : Script α σ ε β} {b : β} {s' : σ} {w' : W} (h : wp env I m Q R s w)
    (hend : Prog.Ends env (m s) w (.ok b, s') w') : Q b s' w' := by
  rw [wp] at h
  have hpost := Prog.wp_ends h hend
  exact hpost

/-- Every end of a script in a fault satisfies its fault postcondition. -/
theorem wp_ends_fault {m : Script α σ ε β} {e : Fault ε} {s' : σ} {w' : W}
    (h : wp env I m Q R s w) (hend : Prog.Ends env (m s) w (.error e, s') w') : R e s' w' := by
  rw [wp] at h
  have hpost := Prog.wp_ends h hend
  exact hpost

/-- Every end of a script, with a value or in a fault, satisfies its postcondition. -/
theorem wp_ends_both {J : σ → W → Prop} {m : Script α σ ε β} {r : Outcome ε β} {s' : σ} {w' : W}
    (h : wp env I m (fun _ => J) (fun _ => J) s w) (hend : Prog.Ends env (m s) w (r, s') w') :
    J s' w' := by
  rw [wp] at h
  have hpost := Prog.wp_ends h hend
  cases r with
  | ok b => exact hpost
  | error e => exact hpost

/-- Against a handler, a script ends. -/
theorem exists_ends_both {h : (r : ρ) → W → α r × W} {J : σ → W → Prop} {m : Script α σ ε β}
    (hwp : wp (Prog.Answers h) I m (fun _ => J) (fun _ => J) s w) :
    ∃ r s' w', Prog.Ends (Prog.Answers h) (m s) w (r, s') w' ∧ J s' w' :=
  ⟨_, _, _, Prog.ends_run h (m s) w, wp_ends_both hwp (Prog.ends_run h (m s) w)⟩

/-- What a script ends in can be assumed of it. -/
theorem wp_with_ends {m : Script α σ ε β} (h : wp env I m Q R s w) :
    wp env I m (fun b s' w' => Q b s' w' ∧ Prog.Ends env (m s) w (.ok b, s') w') R s w := by
  have hends : wp env (fun _ => True) m
      (fun b s' w' => Prog.Ends env (m s) w (.ok b, s') w') (fun _ _ _ => True) s w := by
    refine Prog.wp_of_ends ?_
    rintro ⟨o, s'⟩ w' hend
    cases o with
    | ok b => exact hend
    | error e => trivial
  exact wp_mono (wp_weaken (wp_both h hends) fun _ hI => hI.1) (fun _ _ _ hpost => hpost)
    fun _ _ _ he => he.1

/-- Against a handler, a script is known by its run. -/
theorem wp_of_run {h : (r : ρ) → W → α r × W} {m : Script α σ ε β} {b : β} {s' : σ} {w' : W}
    (hrun : Prog.run h (m s) w = ((.ok b, s'), w')) (hQ : Q b s' w') :
    wp (Prog.Answers h) (fun _ => True) m Q R s w := by
  rw [wp, Prog.wp_answers_iff, hrun]
  exact hQ

/-- A stopped script leaves a world that satisfies the invariant of the requests. -/
theorem wp_runUntil {h : (r : ρ) → W → α r × W} {m : Script α σ ε β} {n : ℕ} {w' : W}
    (hwp : wp (Prog.Answers h) I m Q R s w)
    (hstop : Prog.runUntil h n (m s) w = (none, w')) : I w' := by
  rw [wp] at hwp
  exact Prog.wp_runUntil hwp hstop

/-- What holds wherever a script is stopped and where it ends. -/
theorem wp_runUntil_always {h : (r : ρ) → W → α r × W} {m : Script α σ ε β} (n : ℕ)
    (hwp : wp (Prog.Answers h) I m (fun _ _ => I) (fun _ _ => I) s w) :
    I (Prog.runUntil h n (m s) w).2 := by
  rw [wp] at hwp
  refine Prog.wp_runUntil_always n (Prog.wp_mono hwp ?_)
  rintro ⟨e | b, s'⟩ w' hI
  · exact hI
  · exact hI

/-- Against a handler a script runs to a value or to a fault. -/
theorem run_cases {h : (r : ρ) → W → α r × W} {m : Script α σ ε β}
    (hwp : wp (Prog.Answers h) I m Q R s w) :
    (∃ b s' w', Prog.run h (m s) w = ((.ok b, s'), w') ∧ Q b s' w') ∨
      ∃ e s' w', Prog.run h (m s) w = ((.error e, s'), w') ∧ R e s' w' := by
  rw [wp] at hwp
  have hpost := Prog.wp_run hwp
  rcases hrun : Prog.run h (m s) w with ⟨⟨e | b, s'⟩, w'⟩
  · rw [hrun] at hpost
    exact .inr ⟨e, s', w', rfl, hpost⟩
  · rw [hrun] at hpost
    exact .inl ⟨b, s', w', rfl, hpost⟩

/-- A script that cannot fail against a handler runs to a value. -/
theorem exists_run {h : (r : ρ) → W → α r × W} {m : Script α σ ε β}
    (hwp : wp (Prog.Answers h) I m Q (fun _ _ _ => False) s w) :
    ∃ b s' w', Prog.run h (m s) w = ((.ok b, s'), w') ∧ Q b s' w' := by
  rw [wp] at hwp
  have hpost := Prog.wp_run hwp
  rcases hrun : Prog.run h (m s) w with ⟨⟨e | b, s'⟩, w'⟩
  · rw [hrun] at hpost
    exact hpost.elim
  · rw [hrun] at hpost
    exact ⟨b, s', w', rfl, hpost⟩

/-- A script that cannot fail against a handler ends with a value. -/
theorem exists_ends {h : (r : ρ) → W → α r × W} {m : Script α σ ε β}
    (hwp : wp (Prog.Answers h) I m Q (fun _ _ _ => False) s w) :
    ∃ b s' w', Prog.Ends (Prog.Answers h) (m s) w (.ok b, s') w' ∧ Q b s' w' := by
  obtain ⟨b, s', w', hrun, hpost⟩ := exists_run hwp
  have hend := Prog.ends_run h (m s) w
  rw [hrun] at hend
  exact ⟨b, s', w', hend, hpost⟩

/-- Catching an error. -/
theorem wp_attempt {m : Script α σ ε β} {Q : Except ε β → σ → W → Prop} :
    wp env I m.attempt Q R s w ↔
      wp env I m (fun b => Q (.ok b)) (fun
        | .error e => Q (.error e)
        | .panicked => R .panicked) s w := by
  simp only [wp, attempt, Prog.wp_bind]
  refine Prog.wp_congr ?_
  rintro ⟨(e | _) | b, s'⟩ w' <;> exact Iff.rfl

/-- Other errors. -/
theorem wp_mapError {ε' : Type} {f : ε → ε'} {m : Script α σ ε β} {R : Fault ε' → σ → W → Prop} :
    wp env I (m.mapError f) Q R s w ↔
      wp env I m Q (fun
        | .error e => R (.error (f e))
        | .panicked => R .panicked) s w := by
  simp only [wp, mapError, Prog.wp_bind]
  refine Prog.wp_congr ?_
  rintro ⟨(e | _) | b, s'⟩ w' <;> exact Iff.rfl

/-! ### Invariants of scripts -/

/-- A script leaves `J` true, however it ends. -/
def Keeps (env : (r : ρ) → W → α r → W → Prop) (J : σ → W → Prop) (m : Script α σ ε β) : Prop :=
  ∀ s w, J s w → wp env (fun _ => True) m (fun _ => J) (fun _ => J) s w

variable {J : σ → W → Prop}

theorem keeps_pure (b : β) : Keeps env J (pure b : Script α σ ε β) :=
  fun _ _ h => wp_pure.mpr h

theorem keeps_fail (e : ε) : Keeps env J (fail e : Script α σ ε β) :=
  fun _ _ h => wp_fail.mpr h

theorem keeps_require (p : Prop) [Decidable p] (e : ε) :
    Keeps env J (require p e : Script α σ ε Unit) :=
  fun _ _ h => wp_require.mpr ⟨fun _ => h, fun _ => h⟩

/-- **Sequencing** of what is kept. -/
theorem Keeps.bind {m : Script α σ ε β} {f : β → Script α σ ε γ} (hm : Keeps env J m)
    (hf : ∀ b, Keeps env J (f b)) : Keeps env J (m >>= f) :=
  fun s w h => wp_bind_of (hm s w h) (fun b s' w' h' => hf b s' w' h') fun _ _ _ h' => h'

end Wp

-- programs are stepped through by the rules above, never by unfolding
attribute [irreducible] wp

end Script
