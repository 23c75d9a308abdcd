import Mathlib.Tactic.Common
import Ntag424.Lib.Script

/-!
# What a Program Asks

A program asks only requests of a kind when every request in its tree is of that kind, whatever
was answered before (`Prog.Asks`). Such a program leaves alone what requests of that kind leave
alone, in every environment.

## Main results

* `Prog.Asks.bind`, `Script.Asks.bind`: a sequence asks what its parts ask.
* `Script.Asks.wp_always`: what requests of a kind leave true is true throughout the program.
-/

namespace Prog

variable {ρ : Type} {α : ρ → Type} {β γ σ : Type} {p : ρ → Prop}

/-- Every request in the tree is of the kind `p`. -/
def Asks (p : ρ → Prop) : Prog α β → Prop
  | ret _ => True
  | call r k => p r ∧ ∀ a, Asks p (k a)

/-- A program that returns asks nothing. -/
theorem asks_ret (b : β) : Asks p (ret b : Prog α β) := trivial

/-- Every program asks something. -/
theorem asks_all (m : Prog α β) : m.Asks fun _ => True := by
  induction m with
  | ret b => trivial
  | call r k ih => exact ⟨trivial, ih⟩

/-- A sequence asks what its parts ask. -/
theorem Asks.bind {m : Prog α β} {f : β → Prog α γ} (hm : m.Asks p) (hf : ∀ b, (f b).Asks p) :
    (m >>= f).Asks p := by
  induction m with
  | ret b => exact hf b
  | call r k ih => exact ⟨hm.1, fun a => ih a (hm.2 a)⟩

/-- What asks requests of a kind asks requests of every wider kind. -/
theorem Asks.mono {q : ρ → Prop} {m : Prog α β} (hm : m.Asks p) (h : ∀ r, p r → q r) :
    m.Asks q := by
  induction m with
  | ret b => trivial
  | call r k ih => exact ⟨h r hm.1, fun a => ih a (hm.2 a)⟩

/-- **Projection** of what a program asks: what holds in a part of the world holds in the world, if
every answer of the world to a request of the kind is one of the part. -/
theorem Asks.wp_comap {τ : Type} {env : (r : ρ) → σ → α r → σ → Prop}
    {env' : (r : ρ) → τ → α r → τ → Prop} {f : τ → σ} {I : σ → Prop} {m : Prog α β}
    {Q : β → σ → Prop} {s : τ} (hm : m.Asks p)
    (henv : ∀ r s a s', p r → env' r s a s' → env r (f s) a (f s'))
    (h : Prog.wp env I m Q (f s)) :
    Prog.wp env' (fun s => I (f s)) m (fun b s => Q b (f s)) s := by
  induction m generalizing s with
  | ret b => exact h
  | call r k ih =>
      exact ⟨h.1, fun a s' ha => ih a (hm.2 a) (h.2 a (f s') (henv r s a s' hm.1 ha))⟩

/-- What requests of the kind leave true is true throughout. -/
theorem Asks.wp_always {env : (r : ρ) → σ → α r → σ → Prop} {J : σ → Prop} {m : Prog α β} {s : σ}
    (hm : m.Asks p) (henv : ∀ r s a s', p r → J s → env r s a s' → J s') (h : J s) :
    Prog.wp env J m (fun _ => J) s := by
  induction m generalizing s with
  | ret b => exact h
  | call r k ih => exact ⟨h, fun a s' ha => ih a (hm.2 a) (henv r s a s' hm.1 h ha)⟩

end Prog

namespace Script

variable {ρ : Type} {α : ρ → Type} {σ τ ε β γ W : Type} {p : ρ → Prop}

/-- From every local state, a script asks only requests of the kind `p`. -/
def Asks (p : ρ → Prop) (m : Script α σ ε β) : Prop := ∀ s, (m s).Asks p

/-- Returning a value asks nothing. -/
theorem asks_pure (b : β) : Asks p (pure b : Script α σ ε β) := fun _ => trivial

/-- Lifting an outcome asks nothing. -/
theorem asks_lift (o : Outcome ε β) : Asks p (lift o : Script α σ ε β) := fun _ => trivial

/-- Failing asks nothing. -/
theorem asks_fail (e : ε) : Asks p (fail e : Script α σ ε β) := fun _ => trivial

/-- Reading the state asks nothing. -/
theorem asks_get : Asks p (get : Script α σ ε σ) := fun _ => trivial

/-- Writing the state asks nothing. -/
theorem asks_set (s : σ) : Asks p (set s : Script α σ ε Unit) := fun _ => trivial

/-- A check asks nothing, whether it holds or not. -/
theorem asks_require (q : Prop) [Decidable q] (e : ε) :
    Asks p (require q e : Script α σ ε Unit) := by
  rw [require]
  split
  · exact asks_pure ()
  · exact asks_fail e

/-- An assertion asks nothing, whether it holds or not. -/
theorem asks_assert (q : Prop) [Decidable q] : Asks p (assert q : Script α σ ε Unit) := by
  rw [assert]
  split
  · exact asks_pure ()
  · exact asks_lift _

/-- A request asks itself. -/
theorem asks_request {r : ρ} (h : p r) : Asks p (request r : Script α σ ε (α r)) :=
  fun _ => ⟨h, fun _ => trivial⟩

/-- A sequence asks what its parts ask. -/
theorem Asks.bind {m : Script α σ ε β} {f : β → Script α σ ε γ} (hm : m.Asks p)
    (hf : ∀ b, (f b).Asks p) : (m >>= f).Asks p := by
  intro s
  refine Prog.Asks.bind (hm s) ?_
  rintro ⟨e | b, s'⟩
  · exact Prog.asks_ret _
  · exact hf b s'

/-- What asks requests of a kind asks requests of every wider kind. -/
theorem Asks.mono {q : ρ → Prop} {m : Script α σ ε β} (hm : m.Asks p) (h : ∀ r, p r → q r) :
    m.Asks q := fun s => (hm s).mono h

/-- A script that runs on a state of its own asks what it asks. -/
theorem Asks.on {m : Script α σ ε β} (hm : m.Asks p) (s : σ) :
    (m.on s : Script α τ ε (β × σ)).Asks p := by
  intro t
  refine Prog.Asks.bind (hm s) ?_
  rintro ⟨e | b, s'⟩
  · exact Prog.asks_ret _
  · exact Prog.asks_ret _

/-- Catching the error of a script asks what the script asks. -/
theorem Asks.attempt {m : Script α σ ε β} (hm : m.Asks p) : m.attempt.Asks p := by
  intro s
  refine Prog.Asks.bind (hm s) ?_
  rintro ⟨(e | _) | b, s'⟩
  · exact Prog.asks_ret _
  · exact Prog.asks_ret _
  · exact Prog.asks_ret _

/-- Renaming the error of a script asks what the script asks. -/
theorem Asks.mapError {ε' : Type} {m : Script α σ ε β} (hm : m.Asks p) (f : ε → ε') :
    (m.mapError f).Asks p := by
  intro s
  refine Prog.Asks.bind (hm s) ?_
  rintro ⟨(e | _) | b, s'⟩
  · exact Prog.asks_ret _
  · exact Prog.asks_ret _
  · exact Prog.asks_ret _

/-- **Projection** of what a script asks. -/
theorem Asks.wp_comap {V : Type} {env : (r : ρ) → W → α r → W → Prop}
    {env' : (r : ρ) → V → α r → V → Prop} {f : V → W} {I : W → Prop} {m : Script α σ ε β}
    {Q : β → σ → W → Prop} {R : Fault ε → σ → W → Prop} {s : σ} {v : V} (hm : m.Asks p)
    (henv : ∀ r v a v', p r → env' r v a v' → env r (f v) a (f v'))
    (h : m.wp env I Q R s (f v)) :
    m.wp env' (fun v => I (f v)) (fun b s' v' => Q b s' (f v'))
      (fun e s' v' => R e s' (f v')) s v := by
  rw [Script.wp] at h ⊢
  refine Prog.wp_mono ((hm s).wp_comap henv h) ?_
  rintro ⟨e | b, s'⟩ v' hv
  · exact hv
  · exact hv

/-- **What requests of the kind leave true** is true throughout the script. -/
theorem Asks.wp_always {env : (r : ρ) → W → α r → W → Prop} {J : W → Prop} {m : Script α σ ε β}
    {s : σ} {w : W} (hm : m.Asks p) (henv : ∀ r w a w', p r → J w → env r w a w' → J w')
    (h : J w) : m.wp env J (fun _ _ => J) (fun _ _ => J) s w := by
  rw [Script.wp]
  refine Prog.wp_mono ((hm s).wp_always henv h) ?_
  rintro ⟨e | b, s'⟩ w' hw
  · exact hw
  · exact hw

/-- What requests of the kind leave true, the script leaves true. -/
theorem Asks.wp {env : (r : ρ) → W → α r → W → Prop} {J : W → Prop} {m : Script α σ ε β} {s : σ}
    {w : W} (hm : m.Asks p) (henv : ∀ r w a w', p r → J w → env r w a w' → J w') (h : J w) :
    m.wp env (fun _ => True) (fun _ _ => J) (fun _ _ => J) s w :=
  wp_weaken (hm.wp_always henv h) fun _ _ => trivial

end Script
