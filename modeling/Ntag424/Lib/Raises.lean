import Mathlib.Tactic.Common
import Ntag424.Lib.Script

/-!
# What a Script Raises

The faults in which a script can end, whatever it is answered and from whatever state. A script
raises only faults of a kind when each of its parts does; a part behind a check may rely on it.

## Main results

* `Script.Raises.bind`, `Script.Raises.require_bind`: a sequence raises what its parts raise.
* `Script.Raises.of_ends`: every fault of every run is of the kind.
-/

namespace Script

variable {ρ : Type} {α : ρ → Type} {σ τ ε β γ W : Type} {F : Fault ε → Prop}

/-- From every local state, and whatever is answered, a fault of the script satisfies `F`. -/
def Raises (F : Fault ε → Prop) (m : Script α σ ε β) : Prop :=
  ∀ s, m.wp (fun _ (_ : Unit) _ _ => True) (fun _ => True) (fun _ _ _ => True) (fun f _ _ => F f)
    s ()

/-- Returning a value raises nothing. -/
theorem raises_pure (b : β) : Raises F (pure b : Script α σ ε β) :=
  fun _ => wp_pure.mpr trivial

/-- Reading the state raises nothing. -/
theorem raises_get : Raises F (get : Script α σ ε σ) :=
  fun _ => wp_get.mpr trivial

/-- Writing the state raises nothing. -/
theorem raises_set (s : σ) : Raises F (set s : Script α σ ε Unit) :=
  fun _ => wp_set.mpr trivial

/-- Failing raises the error. -/
theorem raises_fail {e : ε} (h : F (.error e)) : Raises F (fail e : Script α σ ε β) :=
  fun _ => wp_fail.mpr h

/-- A request raises nothing: a transport that fails answers so. -/
theorem raises_request (r : ρ) : Raises F (request r : Script α σ ε (α r)) :=
  fun _ => wp_request.mpr ⟨trivial, fun _ _ _ => trivial⟩

/-- A check raises its error or nothing. -/
theorem raises_require {p : Prop} [Decidable p] {e : ε} (h : F (.error e)) :
    Raises F (require p e : Script α σ ε Unit) :=
  fun _ => wp_require.mpr ⟨fun _ => trivial, fun _ => h⟩

/-- An assertion raises a panic or nothing. -/
theorem raises_assert {p : Prop} [Decidable p] (h : F .panicked) :
    Raises F (assert p : Script α σ ε Unit) :=
  fun _ => wp_assert.mpr ⟨fun _ => trivial, fun _ => h⟩

/-- **A sequence** raises what its parts raise. -/
theorem Raises.bind {m : Script α σ ε β} {f : β → Script α σ ε γ} (hm : m.Raises F)
    (hf : ∀ b, (f b).Raises F) : (m >>= f).Raises F :=
  fun s => wp_bind_of (hm s) (fun b s' _ _ => hf b s') fun _ _ _ h => h

/-- What follows a check may rely on it. -/
theorem Raises.require_bind {p : Prop} [Decidable p] {e : ε} {f : Unit → Script α σ ε γ}
    (he : F (.error e)) (hf : p → (f ()).Raises F) :
    (require p e >>= f : Script α σ ε γ).Raises F :=
  fun s => wp_bind.mpr (wp_require.mpr ⟨fun hp => hf hp s, fun _ => he⟩)

/-- Consuming a state. -/
theorem Raises.on {m : Script α σ ε β} (hm : m.Raises F) (s : σ) :
    (m.on s : Script α τ ε (β × σ)).Raises F :=
  fun _ => wp_on.mpr (hm s)

/-- Working on a part of the state. -/
theorem Raises.zoom {get : τ → σ} {put : τ → σ → τ} {m : Script α σ ε β} (hm : m.Raises F) :
    (m.zoom get put).Raises F :=
  fun t => wp_zoom.mpr (hm (get t))

/-- What follows a caught error may rely on its kind. -/
theorem Raises.attempt_bind {m : Script α σ ε β} {f : Except ε β → Script α σ ε γ}
    (hm : m.Raises F) (hok : ∀ b, (f (.ok b)).Raises F)
    (herror : ∀ e, F (.error e) → (f (.error e)).Raises F) : (m.attempt >>= f).Raises F := by
  intro s
  refine wp_bind.mpr (wp_attempt.mpr (wp_mono (hm s) (fun b s' _ _ => hok b s') ?_))
  rintro (e | _) s' _ h
  · exact herror e h s'
  · exact h

/-- **Every fault of every run** is of the kind. -/
theorem Raises.of_ends {env : (r : ρ) → W → α r → W → Prop} {m : Script α σ ε β} {s s' : σ}
    {w w' : W} {f : Fault ε} (hm : m.Raises F) (hend : Prog.Ends env (m s) w (.error f, s') w') :
    F f :=
  wp_ends_fault (hm s) (hend.comap (f := fun _ => ()) fun _ _ _ _ _ => trivial)

end Script
