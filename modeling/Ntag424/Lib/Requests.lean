import Mathlib.Tactic.Common
import Ntag424.Lib.Script

/-!
# Counting Requests

A world beside which the answered requests are counted, and the number of requests that a script
makes until it returns a value, whatever it is answered (`Script.Takes`).

## Main results

* `Prog.runUntil_counted`: a run that is stopped after `n` requests has counted `n` of them.
* `Prog.exists_runUntil`, `Script.exists_runUntil`: what makes enough requests can be stopped.
* `Script.Takes.bind`: a sequence makes the requests of its parts.
* `Script.Takes.wp_counted`: a weakest precondition, with the counts at which requests are made.
-/

namespace Prog

variable {ρ : Type} {α : ρ → Type} {β σ : Type} {h : (r : ρ) → σ → α r × σ} {r : ρ} {a : α r}

/-- A handler that counts what it answers. -/
def counted (h : (r : ρ) → σ → α r × σ) (r : ρ) (v : σ × ℕ) : α r × (σ × ℕ) :=
  ((h r v.1).1, ((h r v.1).2, v.2 + 1))

/-- An environment that answers anything and counts. -/
def Counts (r : ρ) (n : ℕ) (_ : α r) (n' : ℕ) : Prop := n' = n + 1

/-- The world does not notice. -/
theorem answers_of_counted {v v' : σ × ℕ} (ha : Answers (counted h) r v a v') :
    Answers h r v.1 a v'.1 := by
  obtain ⟨rfl, rfl⟩ := Prod.mk.inj ha
  rfl

/-- An answer of a counting handler counts the request. -/
theorem counts_of_counted {v v' : σ × ℕ} (ha : Answers (counted h) r v a v') :
    Counts r v.2 a v'.2 := by
  obtain ⟨rfl, rfl⟩ := Prod.mk.inj ha
  rfl

/-- **A stopped run** has counted its requests. -/
theorem runUntil_counted {n c : ℕ} {p : Prog α β} {s s' : σ}
    (hstop : runUntil h n p s = (none, s')) :
    runUntil (counted h) n p (s, c) = (none, (s', c + n)) := by
  induction p generalizing n c s with
  | ret b => cases n <;> cases hstop
  | call r k ih =>
      cases n with
      | zero =>
          cases hstop
          rfl
      | succ n =>
          have hrest := ih (h r s).1 (c := c + 1) hstop
          rw [Nat.add_right_comm, Nat.add_assoc] at hrest
          exact hrest

/-- A run that makes more than `n` requests can be stopped after `n`. -/
theorem exists_runUntil {I : σ × ℕ → Prop} {n m c : ℕ} {p : Prog α β} {s : σ}
    (hwp : wp (Answers (counted h)) I p (fun _ v => m ≤ v.2) (s, c)) (hlt : c + n < m) :
    ∃ s', runUntil h n p s = (none, s') := by
  induction p generalizing n c s with
  | ret b =>
      have hle : m ≤ c := hwp
      omega
  | call r k ih =>
      cases n with
      | zero => exact ⟨s, rfl⟩
      | succ n => exact ih (h r s).1 (hwp.2 _ _ rfl) (by omega)

/-- What does not depend on the count holds without it. -/
theorem wp_of_counted {I : σ → Prop} {c : ℕ} {p : Prog α β} {Q : β → σ → Prop} {s : σ}
    (hwp : wp (Answers (counted h)) (fun v => I v.1) p (fun b v => Q b v.1) (s, c)) :
    wp (Answers h) I p Q s := by
  induction p generalizing c s with
  | ret b => exact hwp
  | call r k ih =>
      refine ⟨hwp.1, fun a s' ha => ?_⟩
      obtain ⟨rfl, rfl⟩ := Prod.mk.inj ha
      exact ih (h r s).1 (hwp.2 _ _ rfl)

end Prog

namespace Script

variable {ρ : Type} {α : ρ → Type} {σ τ ε β γ W : Type}

/-- However it is answered, the script makes `m` requests until it returns a value, and never
more. -/
def Takes (m : ℕ) (act : Script α σ ε β) : Prop :=
  ∀ s n, act.wp Prog.Counts (fun k => n ≤ k ∧ k < n + m) (fun _ _ k => k = n + m)
    (fun _ _ _ => True) s n

/-- Returning a value takes no request. -/
theorem takes_pure (b : β) : Takes 0 (pure b : Script α σ ε β) := fun _ _ => wp_pure.mpr rfl

/-- A script that always fails takes any number of requests before it returns. -/
theorem takes_fail (m : ℕ) (e : ε) : Takes m (fail e : Script α σ ε β) :=
  fun _ _ => wp_fail.mpr trivial

/-- Reading the state takes no request. -/
theorem takes_get : Takes 0 (get : Script α σ ε σ) := fun _ _ => wp_get.mpr rfl

/-- Writing the state takes no request. -/
theorem takes_set (s : σ) : Takes 0 (set s : Script α σ ε Unit) := fun _ _ => wp_set.mpr rfl

/-- A check takes no request. -/
theorem takes_require (p : Prop) [Decidable p] (e : ε) :
    Takes 0 (require p e : Script α σ ε Unit) :=
  fun _ _ => wp_require.mpr ⟨fun _ => rfl, fun _ => trivial⟩

/-- An assertion takes no request. -/
theorem takes_assert (p : Prop) [Decidable p] : Takes 0 (assert p : Script α σ ε Unit) :=
  fun _ _ => wp_assert.mpr ⟨fun _ => rfl, fun _ => trivial⟩

/-- A request takes one. -/
theorem takes_request (r : ρ) : Takes 1 (request r : Script α σ ε (α r)) :=
  fun _ n => wp_request.mpr ⟨⟨Nat.le_refl n, Nat.lt_succ_self n⟩, fun _ _ hcount => hcount⟩

/-- **A sequence** makes the requests of its parts. -/
theorem Takes.bind {m m' : ℕ} {act : Script α σ ε β} {f : β → Script α σ ε γ}
    (hact : Takes m act) (hf : ∀ b, Takes m' (f b)) : Takes (m + m') (act >>= f) := by
  intro s n
  refine wp_bind_of (wp_weaken (hact s n) fun k hk => ?_) (fun b s' k hk => ?_)
    fun _ _ _ _ => trivial
  · omega
  · subst hk
    rw [← Nat.add_assoc]
    exact wp_weaken (hf b s' (n + m)) fun k hk => by omega

/-- A sequence whose first part makes no request. -/
theorem Takes.free_bind {m : ℕ} {act : Script α σ ε β} {f : β → Script α σ ε γ}
    (hact : Takes 0 act) (hf : ∀ b, Takes m (f b)) : Takes m (act >>= f) := by
  have hall := hact.bind hf
  rwa [Nat.zero_add] at hall

/-- A sequence whose first part makes all requests. -/
theorem Takes.bind_free {m : ℕ} {act : Script α σ ε β} {f : β → Script α σ ε γ}
    (hact : Takes m act) (hf : ∀ b, Takes 0 (f b)) : Takes m (act >>= f) := hact.bind hf

/-- A script that runs on a state of its own takes as many requests. -/
theorem Takes.on {m : ℕ} {act : Script α σ ε β} (hact : Takes m act) (s : σ) :
    Takes m (act.on s : Script α τ ε (β × σ)) :=
  fun _ n => wp_on.mpr (hact s n)

/-- A weakest precondition beside a count of the requests. -/
theorem wp_counted {h : (r : ρ) → W → α r × W} {I : W → Prop} {I' : ℕ → Prop}
    {act : Script α σ ε β} {Q : β → σ → W → Prop} {Q' : β → σ → ℕ → Prop}
    {R : Fault ε → σ → W → Prop} {R' : Fault ε → σ → ℕ → Prop} {s : σ} {v : W × ℕ}
    (hwp : act.wp (Prog.Answers h) I Q R s v.1) (hcount : act.wp Prog.Counts I' Q' R' s v.2) :
    act.wp (Prog.Answers (Prog.counted h)) (fun v => I v.1 ∧ I' v.2)
      (fun b s' v' => Q b s' v'.1 ∧ Q' b s' v'.2) (fun e s' v' => R e s' v'.1 ∧ R' e s' v'.2)
      s v := by
  have hworld :=
    wp_comap (f := Prod.fst) (fun _ _ _ _ ha => Prog.answers_of_counted (h := h) ha) hwp
  have hnumber := wp_comap (f := Prod.snd) (fun _ _ _ _ ha => Prog.counts_of_counted (h := h) ha)
    hcount
  rw [wp] at hworld hnumber ⊢
  refine Prog.wp_mono (Prog.wp_both hworld hnumber) ?_
  rintro ⟨e | b, s'⟩ v' hv
  · exact hv
  · exact hv

/-- **What a script does**, with the counts at which it makes its requests. -/
theorem Takes.wp_counted {h : (r : ρ) → W → α r × W} {I : W → Prop} {m : ℕ}
    {act : Script α σ ε β} {Q : β → σ → W → Prop} {R : Fault ε → σ → W → Prop} {s : σ}
    {v : W × ℕ} (hact : Takes m act) (hwp : act.wp (Prog.Answers h) I Q R s v.1) :
    act.wp (Prog.Answers (Prog.counted h)) (fun v' => I v'.1 ∧ v.2 ≤ v'.2 ∧ v'.2 < v.2 + m)
      (fun b s' v' => Q b s' v'.1 ∧ v'.2 = v.2 + m) (fun e s' v' => R e s' v'.1) s v :=
  wp_mono (Script.wp_counted hwp (hact s v.2)) (fun _ _ _ h => h) fun _ _ _ h => h.1

/-- A script that makes more than `n` requests can be stopped after `n`. -/
theorem exists_runUntil {h : (r : ρ) → W → α r × W} {I : W × ℕ → Prop} {n m c : ℕ}
    {act : Script α σ ε β} {s : σ} {w : W}
    (hwp : act.wp (Prog.Answers (Prog.counted h)) I (fun _ _ v => m ≤ v.2) (fun _ _ _ => False)
      s (w, c)) (hlt : c + n < m) : ∃ w', Prog.runUntil h n (act s) w = (none, w') := by
  rw [wp] at hwp
  refine Prog.exists_runUntil (Prog.wp_mono hwp ?_) hlt
  rintro ⟨e | b, s'⟩ v' hv
  · exact hv.elim
  · exact hv

/-- What does not depend on the count holds without it. -/
theorem wp_of_counted {h : (r : ρ) → W → α r × W} {I : W → Prop} {act : Script α σ ε β}
    {Q : β → σ → W → Prop} {R : Fault ε → σ → W → Prop} {s : σ} {w : W} {c : ℕ}
    (hwp : act.wp (Prog.Answers (Prog.counted h)) (fun v => I v.1) (fun b s' v => Q b s' v.1)
      (fun e s' v => R e s' v.1) s (w, c)) : act.wp (Prog.Answers h) I Q R s w := by
  rw [wp] at hwp ⊢
  refine Prog.wp_of_counted (c := c) (Prog.wp_mono hwp ?_)
  rintro ⟨e | b, s'⟩ v' hv
  · exact hv
  · exact hv

end Script
