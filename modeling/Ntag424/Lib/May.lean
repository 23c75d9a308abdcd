import Mathlib.Tactic.Common
import Ntag424.Lib.Script

/-!
# What a Script May Do

The weakest preconditions of `Script.wp` speak about every answer of the environment. The
predicates here are their counterparts for some answer: `Script.may` holds where the environment
has answers that lead the script to a value with `Q`, or to a fault with `R`. A claim about every
run is refuted by such a predicate, and the rules below put the run together, step by step, in the
order in which the script makes its requests.

## Main results

* `Prog.exists_ends_of_may`, `Script.exists_ends_of_may`: there is such a run.
* `Script.may_bind`: the sequencing rule.
* `Script.may_request`: a request whose answer may be chosen.
-/

namespace Prog

variable {ρ : Type} {α : ρ → Type} {β γ W : Type}

/-- Some run of the program from the given world ends in a result and a world that satisfy
`Q`. -/
def may (env : (r : ρ) → W → α r → W → Prop) : Prog α β → (β → W → Prop) → W → Prop
  | ret b, Q, w => Q b w
  | call r k, Q, w => ∃ a w', env r w a w' ∧ may env (k a) Q w'

variable {env : (r : ρ) → W → α r → W → Prop} {w : W}

/-- **There is such a run.** -/
theorem exists_ends_of_may {p : Prog α β} {Q : β → W → Prop} (h : may env p Q w) :
    ∃ b w', Ends env p w b w' ∧ Q b w' := by
  induction p generalizing w with
  | ret b => exact ⟨b, w, .ret, h⟩
  | call r k ih =>
      obtain ⟨a, w₁, ha, h⟩ := h
      obtain ⟨b, w', hend, hQ⟩ := ih a h
      exact ⟨b, w', .call ha hend, hQ⟩

/-- **Consequence.** -/
theorem may_mono {p : Prog α β} {Q Q' : β → W → Prop} (h : may env p Q w)
    (hQ : ∀ b w', Q b w' → Q' b w') : may env p Q' w := by
  induction p generalizing w with
  | ret b => exact hQ b w h
  | call r k ih =>
      obtain ⟨a, w', ha, h⟩ := h
      exact ⟨a, w', ha, ih a h⟩

/-- Equivalent postconditions. -/
theorem may_congr {p : Prog α β} {Q Q' : β → W → Prop} (h : ∀ b w', Q b w' ↔ Q' b w') :
    may env p Q w ↔ may env p Q' w :=
  ⟨fun hQ => may_mono hQ fun b w' => (h b w').mp, fun hQ => may_mono hQ fun b w' => (h b w').mpr⟩

/-- **Sequencing.** -/
theorem may_bind {p : Prog α β} {f : β → Prog α γ} {Q : γ → W → Prop} :
    may env (p >>= f) Q w ↔ may env p (fun b => may env (f b) Q) w := by
  induction p generalizing w with
  | ret b => exact Iff.rfl
  | call r k ih =>
      exact exists_congr fun a => exists_congr fun w' => and_congr_right fun _ => ih a

end Prog

namespace Script

variable {ρ : Type} {α : ρ → Type} {σ τ ε β γ W : Type}

/-- From the local state `s` and the world `w`, some run of the script returns a value with `Q`,
or ends in a fault with `R`. -/
def may (env : (r : ρ) → W → α r → W → Prop) (m : Script α σ ε β) (Q : β → σ → W → Prop)
    (R : Fault ε → σ → W → Prop) (s : σ) (w : W) : Prop :=
  (m s).may env (fun r w' =>
    match r.1 with
    | .ok b => Q b r.2 w'
    | .error e => R e r.2 w') w

variable {env : (r : ρ) → W → α r → W → Prop} {Q : β → σ → W → Prop} {R : Fault ε → σ → W → Prop}
  {s : σ} {w : W}

/-- **There is a run** to such a value or fault. -/
theorem exists_ends_of_may {m : Script α σ ε β} (h : may env m Q R s w) :
    (∃ b s' w', Prog.Ends env (m s) w (.ok b, s') w' ∧ Q b s' w') ∨
      ∃ e s' w', Prog.Ends env (m s) w (.error e, s') w' ∧ R e s' w' := by
  obtain ⟨⟨e | b, s'⟩, w', hend, hpost⟩ := Prog.exists_ends_of_may h
  · exact .inr ⟨e, s', w', hend, hpost⟩
  · exact .inl ⟨b, s', w', hend, hpost⟩

/-- **Consequence.** -/
theorem may_mono {m : Script α σ ε β} {Q' : β → σ → W → Prop} {R' : Fault ε → σ → W → Prop}
    (h : may env m Q R s w) (hQ : ∀ b s' w', Q b s' w' → Q' b s' w')
    (hR : ∀ e s' w', R e s' w' → R' e s' w') : may env m Q' R' s w := by
  refine Prog.may_mono h ?_
  rintro ⟨e | b, s'⟩ w' hw
  · exact hR e s' w' hw
  · exact hQ b s' w' hw

/-- Returning a value may only return it. -/
theorem may_pure {b : β} : may env (pure b : Script α σ ε β) Q R s w ↔ Q b s w := Iff.rfl

/-- Reading the state may only return it. -/
theorem may_get {Q : σ → σ → W → Prop} :
    may env (get : Script α σ ε σ) Q R s w ↔ Q s s w := Iff.rfl

/-- Writing the state may only write it. -/
theorem may_set {Q : Unit → σ → W → Prop} {s' : σ} :
    may env (set s' : Script α σ ε Unit) Q R s w ↔ Q () s' w := Iff.rfl

/-- **A request**, whose answer may be chosen. -/
theorem may_request {r : ρ} {Q : α r → σ → W → Prop} :
    may env (request r : Script α σ ε (α r)) Q R s w ↔ ∃ a w', env r w a w' ∧ Q a s w' := Iff.rfl

/-- **Sequencing.** -/
theorem may_bind {m : Script α σ ε β} {f : β → Script α σ ε γ} {Q : γ → σ → W → Prop} :
    may env (m >>= f) Q R s w ↔ may env m (fun b s' w' => may env (f b) Q R s' w') R s w := by
  simp only [may, bind, Script.bind]
  rw [show (m s).bind _ = (m s >>= _) from rfl, Prog.may_bind]
  refine Prog.may_congr ?_
  rintro ⟨e | b, s'⟩ w'
  · exact Iff.rfl
  · exact Iff.rfl

/-- A check may return if it holds, and may only fail with its error if it does not. -/
theorem may_require {p : Prop} [Decidable p] {e : ε} {Q : Unit → σ → W → Prop} :
    may env (require p e : Script α σ ε Unit) Q R s w ↔
      (p → Q () s w) ∧ (¬p → R (.error e) s w) := by
  unfold require
  split
  · rename_i hp
    exact ⟨fun h => ⟨fun _ => h, fun hno => absurd hp hno⟩, fun h => h.1 hp⟩
  · rename_i hp
    exact ⟨fun h => ⟨fun hyes => absurd hyes hp, fun _ => h⟩, fun h => h.2 hp⟩

/-- An assertion may return if it holds, and may only panic if it does not. -/
theorem may_assert {p : Prop} [Decidable p] {Q : Unit → σ → W → Prop} :
    may env (assert p : Script α σ ε Unit) Q R s w ↔
      (p → Q () s w) ∧ (¬p → R .panicked s w) := by
  unfold assert
  split
  · rename_i hp
    exact ⟨fun h => ⟨fun _ => h, fun hno => absurd hp hno⟩, fun h => h.1 hp⟩
  · rename_i hp
    exact ⟨fun h => ⟨fun hyes => absurd hyes hp, fun _ => h⟩, fun h => h.2 hp⟩

/-- Consuming the state: it is handed back with a value and lost with an error. -/
theorem may_on {m : Script α σ ε β} {Q : β × σ → τ → W → Prop} {R : Fault ε → τ → W → Prop}
    {t : τ} : may env (m.on s) Q R t w ↔
      may env m (fun b s' w' => Q (b, s') t w') (fun e _ w' => R e t w') s w := by
  simp only [may, on, Prog.may_bind]
  refine Prog.may_congr ?_
  rintro ⟨e | b, s'⟩ w'
  · exact Iff.rfl
  · exact Iff.rfl

-- runs are put together by the rules above, never by unfolding
attribute [irreducible] may

end Script
