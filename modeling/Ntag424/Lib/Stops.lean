import Mathlib.Tactic.Common
import Ntag424.Lib.Script

/-!
# Where a Program Can Be Stopped

A program that is stopped after some of its requests leaves the world as they left it
(`Prog.Stops`). The worlds in which a sequence can be stopped are those of its parts.

## Main results

* `Prog.stops_self`: a program that changes the world can be stopped before it does.
* `Script.stops_bind`, `Script.Stops.first`: a sequence can be stopped in either part.
-/

namespace Prog

variable {ρ : Type} {α : ρ → Type} {β γ σ : Type} {h : (r : ρ) → σ → α r × σ} {p : Prog α β}
  {s s' : σ}

/-- Stopped after some number of requests, the program leaves the world `s'`. -/
def Stops (h : (r : ρ) → σ → α r × σ) (p : Prog α β) (s s' : σ) : Prop :=
  ∃ n, runUntil h n p s = (none, s')

/-- A program that changes the world can be stopped before it does. -/
theorem stops_self (hne : (run h p s).2 ≠ s) : Stops h p s s := by
  cases p with
  | ret b => exact absurd rfl hne
  | call r k => exact ⟨0, rfl⟩

/-- In the first part of a sequence. -/
theorem Stops.first (hp : Stops h p s s') (f : β → Prog α γ) : Stops h (p >>= f) s s' := by
  obtain ⟨n, hn⟩ := hp
  refine ⟨n, ?_⟩
  induction p generalizing n s with
  | ret b => cases n <;> cases hn
  | call r k ih =>
      cases n with
      | zero => exact Prod.ext rfl (Prod.mk.inj hn).2
      | succ n => exact ih _ n hn

/-- In the second part of a sequence. -/
theorem stops_bind {f : β → Prog α γ} (hf : Stops h (f (run h p s).1) (run h p s).2 s') :
    Stops h (p >>= f) s s' := by
  induction p generalizing s with
  | ret b => exact hf
  | call r k ih =>
      obtain ⟨n, hn⟩ := ih _ hf
      exact ⟨n + 1, hn⟩

end Prog

namespace Script

variable {ρ : Type} {α : ρ → Type} {σ ε ε' β γ W : Type} {h : (r : ρ) → W → α r × W}
  {m : Script α σ ε β} {s s' : σ} {w w₁ w' : W} {b : β}

/-- In the second part of a sequence, once the first has returned a value. -/
theorem stops_bind {f : β → Script α σ ε γ} (hrun : Prog.run h (m s) w = ((.ok b, s'), w₁))
    (hf : Prog.Stops h (f b s') w₁ w') : Prog.Stops h ((m >>= f) s) w w' := by
  refine Prog.stops_bind ?_
  rw [hrun]
  exact hf

/-- In the first part of a sequence. -/
theorem Stops.first (hm : Prog.Stops h (m s) w w') (f : β → Script α σ ε γ) :
    Prog.Stops h ((m >>= f) s) w w' :=
  Prog.Stops.first hm _

theorem Stops.mapError (hm : Prog.Stops h (m s) w w') (f : ε → ε') :
    Prog.Stops h (m.mapError f s) w w' :=
  Prog.Stops.first hm _

/-- A value is no error. -/
theorem run_mapError (hrun : Prog.run h (m s) w = ((.ok b, s'), w')) (f : ε → ε') :
    Prog.run h (m.mapError f s) w = ((.ok b, s'), w') := by
  rw [mapError, Prog.run_bind, hrun]
  rfl

end Script
