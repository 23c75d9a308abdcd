import Mathlib.Logic.Function.Basic
import Mathlib.Tactic.Common

/-!
# Programs That Ask Their Environment

A program is a tree: it returns a value, or issues a request and continues with the answer
(`Prog`). What answers is kept apart from the program, so one program text can be run against
a deterministic environment, interrupted between two requests, or interleaved with other
programs on a shared state.

* `Prog.run h p s` runs `p` to its end against a handler of requests.
* `Prog.runUntil h n p s` stops it after `n` answered requests.
* `Prog.Runs env` runs a family of programs on one shared state, one request at a time in any
  order, and records who asked what and what was answered.

## Main results

* `Prog.run_bind`: running a sequence is running its parts in turn.
* `Prog.runUntil_bind`: an interrupted sequence stopped inside its first part, or ran the
  first part to its end and stopped inside the rest.
* `Prog.Runs.invariant`: what holds initially and is kept by every step holds along every
  interleaving.
-/

/-- A program over requests `ρ` with answers `α`. -/
inductive Prog {ρ : Type} (α : ρ → Type) (β : Type) where
  | ret (b : β)
  | call (r : ρ) (k : α r → Prog α β)

namespace Prog

variable {ρ : Type} {α : ρ → Type} {β γ σ ι : Type}

/-- Sequential composition. -/
protected def bind (p : Prog α β) (f : β → Prog α γ) : Prog α γ :=
  match p with
  | ret b => f b
  | call r k => call r fun a => (k a).bind f

instance : Monad (Prog α) where
  pure := ret
  bind := Prog.bind

/-- Issue one request and return its answer. -/
def request (r : ρ) : Prog α (α r) := call r ret

@[simp] theorem ret_bind (b : β) (f : β → Prog α γ) : (ret b >>= f) = f b := rfl

@[simp] theorem pure_bind' (b : β) (f : β → Prog α γ) : ((pure b : Prog α β) >>= f) = f b := rfl

@[simp] theorem call_bind (r : ρ) (k : α r → Prog α β) (f : β → Prog α γ) :
    (call r k >>= f) = call r fun a => k a >>= f := rfl

@[simp] theorem request_bind (r : ρ) (f : α r → Prog α γ) :
    (request r >>= f) = call r f := rfl

/-- Sequences associate. -/
theorem bind_assoc' {δ : Type} (p : Prog α β) (f : β → Prog α γ) (g : γ → Prog α δ) :
    (p >>= f) >>= g = p >>= fun b => f b >>= g := by
  induction p with
  | ret b => rfl
  | call r k ih => exact congrArg (call r) (funext ih)

/-! ### Running alone -/

/-- Run a program to its end against a handler. -/
def run (h : (r : ρ) → σ → α r × σ) : Prog α β → σ → β × σ
  | ret b, s => (b, s)
  | call r k, s => run h (k (h r s).1) (h r s).2

/-- Run a program until `n` requests were answered; the result is missing when the program
was not finished by then. -/
def runUntil (h : (r : ρ) → σ → α r × σ) : ℕ → Prog α β → σ → Option β × σ
  | _, ret b, s => (some b, s)
  | 0, call _ _, s => (none, s)
  | n + 1, call r k, s => runUntil h n (k (h r s).1) (h r s).2

variable {h : (r : ρ) → σ → α r × σ}

@[simp] theorem run_ret (b : β) (s : σ) : run h (ret b : Prog α β) s = (b, s) := rfl

@[simp] theorem run_pure (b : β) (s : σ) : run h (pure b : Prog α β) s = (b, s) := rfl

@[simp] theorem run_call (r : ρ) (k : α r → Prog α β) (s : σ) :
    run h (call r k) s = run h (k (h r s).1) (h r s).2 := rfl

/-- **Running a sequence** runs its first part and continues on the result. -/
@[simp] theorem run_bind (p : Prog α β) (f : β → Prog α γ) (s : σ) :
    run h (p >>= f) s = run h (f (run h p s).1) (run h p s).2 := by
  induction p generalizing s with
  | ret b => rfl
  | call r k ih => exact ih (h r s).1 (h r s).2

/-- **Interrupting a sequence**: either its first part was interrupted, or it finished with
some requests to spare and the rest was interrupted. -/
theorem runUntil_bind (n : ℕ) (p : Prog α β) (f : β → Prog α γ) (s : σ) :
    (∃ s', runUntil h n p s = (none, s') ∧ runUntil h n (p >>= f) s = (none, s')) ∨
      ∃ m ≤ n, runUntil h n p s = (some (run h p s).1, (run h p s).2) ∧
        runUntil h n (p >>= f) s = runUntil h m (f (run h p s).1) (run h p s).2 := by
  induction p generalizing n s with
  | ret b => exact .inr ⟨n, Nat.le_refl n, by cases n <;> rfl, rfl⟩
  | call r k ih =>
      cases n with
      | zero => exact .inl ⟨s, rfl, rfl⟩
      | succ n =>
          obtain ⟨s', hp, hf⟩ | ⟨m, hm, hp, hf⟩ := ih (h r s).1 n (h r s).2
          · exact .inl ⟨s', hp, hf⟩
          · exact .inr ⟨m, Nat.le_succ_of_le hm, hp, hf⟩

/-! ### Interleaving -/

/-- Who asked what, and what was answered. -/
structure Event (ι : Type) (α : ρ → Type) where
  caller : ι
  request : ρ
  answer : α request

/-- The shared state and the programs running on it. -/
structure Config (σ ι : Type) (α : ρ → Type) (β : Type) where
  state : σ
  progs : ι → Prog α β

variable [DecidableEq ι] {env : (r : ρ) → σ → α r → σ → Prop}

/-- One request of one program is answered in one atomic step of the environment. -/
inductive Step (env : (r : ρ) → σ → α r → σ → Prop) :
    Config σ ι α β → Event ι α → Config σ ι α β → Prop
  | mk {c : Config σ ι α β} {i : ι} {r : ρ} {k : α r → Prog α β} {a : α r} {s' : σ} :
      c.progs i = call r k → env r c.state a s' →
      Step env c ⟨i, r, a⟩ ⟨s', Function.update c.progs i (k a)⟩

/-- Any interleaving of the programs, with the events in their order. -/
inductive Runs (env : (r : ρ) → σ → α r → σ → Prop) :
    Config σ ι α β → List (Event ι α) → Config σ ι α β → Prop
  | nil {c : Config σ ι α β} : Runs env c [] c
  | snoc {c c' c'' : Config σ ι α β} {es : List (Event ι α)} {e : Event ι α} :
      Runs env c es c' → Step env c' e c'' → Runs env c (es ++ [e]) c''

/-- **Invariants of interleavings.** What holds before the first step and is kept by every
step, given the events so far, holds after every interleaving. -/
theorem Runs.invariant {I : List (Event ι α) → Config σ ι α β → Prop}
    {c c' : Config σ ι α β} {es : List (Event ι α)} (hrun : Runs env c es c') (h₀ : I [] c)
    (hstep : ∀ es d e d', I es d → Step env d e d' → I (es ++ [e]) d') : I es c' := by
  induction hrun with
  | nil => exact h₀
  | snoc _ hs ih => exact hstep _ _ _ _ ih hs

end Prog
