import Mathlib.Tactic.Common
import Ntag424.Lib.Bytes

/-!
# Chains of Fallible Steps

Inversion lemmas for `Except`: what the success or the failure of a chain of fallible steps
says about its parts. Every checked constructor and every decoder of the development is such
a chain, and its specification is read off with these lemmas instead of by unfolding it.

A computation that can also stop abnormally has a `Fault` as its error: either a value the
program returns as an error, or a panic. Indexing and slicing panic outside the buffer.

## Main results

* `Except.bind_eq_ok_iff`, `Except.bind_eq_error_iff`: a chain succeeds when both steps do and
  fails at its first failing step.
* `Except.andThen_eq_ok_iff`: the special case of a sequence of checks.
* `Outcome.index_eq_ok_iff`, `Outcome.sliceRange_eq_ok_iff`: buffer accesses succeed exactly
  inside the buffer.
* `Outcome.faults_bind`: the faults of a chain, from those of its steps.
-/

namespace Except

variable {ε α β : Type}

/-- A chain succeeds exactly when its first step does and the rest succeeds on its result. -/
theorem bind_eq_ok_iff {x : Except ε α} {f : α → Except ε β} {b : β} :
    (x >>= f) = .ok b ↔ ∃ a, x = .ok a ∧ f a = .ok b := by
  cases x with
  | error e => simp [bind, Except.bind]
  | ok a => simp [bind, Except.bind]

/-- A chain fails at its first step or later. -/
theorem bind_eq_error_iff {x : Except ε α} {f : α → Except ε β} {e : ε} :
    (x >>= f) = .error e ↔ x = .error e ∨ ∃ a, x = .ok a ∧ f a = .error e := by
  cases x with
  | error e' => simp [bind, Except.bind]
  | ok a => simp [bind, Except.bind]

/-- A sequence of checks passes exactly when all of them pass. -/
theorem andThen_eq_ok_iff {a : Except ε Unit} {b : Except ε β} {r : β} :
    (a >>= fun _ => b) = .ok r ↔ a = .ok () ∧ b = .ok r := by
  rw [bind_eq_ok_iff]
  exact ⟨fun ⟨_, ha, hb⟩ => ⟨ha, hb⟩, fun ⟨ha, hb⟩ => ⟨(), ha, hb⟩⟩

@[simp] theorem pure_eq_ok_iff {a b : α} : (pure a : Except ε α) = .ok b ↔ a = b := by
  simp [pure, Except.pure]

@[simp] theorem ok_bind' (a : α) (f : α → Except ε β) : (Except.ok a >>= f) = f a := rfl

@[simp] theorem error_bind' (e : ε) (f : α → Except ε β) :
    ((Except.error e : Except ε α) >>= f) = .error e := rfl

/-- A computation is a success exactly when it has a result. -/
theorem isOk_iff {x : Except ε α} : x.isOk = true ↔ ∃ a, x = .ok a := by
  cases x with
  | error e => simp [Except.isOk, Except.toBool]
  | ok a => simp [Except.isOk, Except.toBool]

end Except

/-! ### Faults -/

/-- How a computation stops without a result: with an error value, or with a panic. -/
inductive Fault (ε : Type) where
  | error (e : ε)
  | panicked
deriving DecidableEq, Repr

/-- A computation that returns a value, returns an error, or panics. -/
abbrev Outcome (ε α : Type) := Except (Fault ε) α

namespace Outcome

variable {ε α β : Type}

/-- Return an error value. -/
def fail (e : ε) : Outcome ε α := .error (.error e)

/-- Stop abnormally. -/
def panicked : Outcome ε α := .error .panicked

/-- A panic-free computation. -/
def ofExcept : Except ε α → Outcome ε α
  | .ok a => .ok a
  | .error e => fail e

/-- Translate the error value of a computation; a panic stays a panic. -/
def mapError {ε' : Type} (f : ε → ε') : Outcome ε α → Outcome ε' α
  | .ok a => .ok a
  | .error (.error e) => fail (f e)
  | .error .panicked => panicked

/-- `l[i]`: panics outside the buffer. -/
def index (l : List α) (i : ℕ) : Outcome ε α :=
  match l[i]? with
  | some a => .ok a
  | none => panicked

/-- `l[a..b]`: panics for a reversed range and outside the buffer. -/
def sliceRange (l : List α) (a b : ℕ) : Outcome ε (List α) :=
  if a ≤ b ∧ b ≤ l.length then .ok (slice l a (b - a)) else panicked

/-- `buf[off..off + src.len()].copy_from_slice(src)`: panics outside the buffer. -/
def copyInto (buf : List α) (off : ℕ) (src : List α) : Outcome ε (List α) :=
  if off + src.length ≤ buf.length then .ok (overlay buf off src) else panicked

/-- `a - b` on unsigned integers: panics on underflow. -/
def checkedSub (a b : ℕ) : Outcome ε ℕ := if b ≤ a then .ok (a - b) else panicked

@[simp] theorem ofExcept_eq_ok_iff {x : Except ε α} {a : α} :
    (ofExcept x : Outcome ε α) = .ok a ↔ x = .ok a := by
  cases x with
  | error e => simp [ofExcept, fail]
  | ok b => simp [ofExcept]

@[simp] theorem mapError_eq_ok_iff {ε' : Type} {f : ε → ε'} {x : Outcome ε α} {a : α} :
    mapError f x = .ok a ↔ x = .ok a := by
  rcases x with (e | _) | b
  · simp [mapError, fail]
  · simp [mapError, panicked]
  · simp [mapError]

/-- Translating the error of a chain translates it in both steps. -/
theorem mapError_bind {ε' : Type} (f : ε → ε') (x : Outcome ε α) (g : α → Outcome ε β) :
    mapError f (x >>= g) = mapError f x >>= fun a => mapError f (g a) := by
  rcases x with (e | _) | a <;> rfl

/-- An error that is translated to itself is kept. -/
theorem mapError_ofExcept {f : ε → ε} {x : Except ε α} (h : ∀ e, x = .error e → f e = e) :
    mapError f (ofExcept x) = ofExcept x := by
  cases x with
  | ok a => rfl
  | error e => rw [ofExcept, fail, mapError, h e rfl, fail]

/-- Translations of errors compose. -/
theorem mapError_mapError {ε' ε'' : Type} (f : ε → ε') (g : ε' → ε'') (x : Outcome ε α) :
    mapError g (mapError f x) = mapError (g ∘ f) x := by
  rcases x with (e | _) | a <;> rfl

/-- An error that is translated to itself is kept. -/
theorem mapError_eq_self {f : ε → ε} {x : Outcome ε α} (h : ∀ e, x = .error (.error e) → f e = e) :
    mapError f x = x := by
  rcases x with (e | _) | a
  · rw [mapError, h e rfl, fail]
  · rfl
  · rfl

/-- Reading a buffer has no error value. -/
@[simp] theorem mapError_index {ε' : Type} (f : ε → ε') (l : List α) (i : ℕ) :
    mapError f (index l i : Outcome ε α) = index l i := by
  rw [index, index]
  cases l[i]? <;> rfl

@[simp] theorem fail_ne_ok {e : ε} {a : α} : (fail e : Outcome ε α) ≠ .ok a := nofun

@[simp] theorem panicked_ne_ok {a : α} : (panicked : Outcome ε α) ≠ .ok a := nofun

theorem index_eq_ok_iff {l : List α} {i : ℕ} {a : α} :
    (index l i : Outcome ε α) = .ok a ↔ l[i]? = some a := by
  unfold index
  cases l[i]? <;> simp

theorem sliceRange_eq_ok_iff {l s : List α} {a b : ℕ} :
    (sliceRange l a b : Outcome ε (List α)) = .ok s ↔
      (a ≤ b ∧ b ≤ l.length) ∧ slice l a (b - a) = s := by
  unfold sliceRange
  split
  · rename_i h
    simp [h]
  · rename_i h
    simp [h]

/-- Copying behind what is already written into a buffer that is filled with one value. -/
theorem copyInto_replicate {front src : List α} {a : α} {off k : ℕ} (hoff : off = front.length)
    (h : src.length ≤ k) :
    (copyInto (front ++ List.replicate k a) off src : Outcome ε (List α)) =
      .ok (front ++ src ++ List.replicate (k - src.length) a) := by
  have hroom : off + src.length ≤ (front ++ List.replicate k a).length := by
    rw [List.length_append, List.length_replicate]
    omega
  rw [copyInto, if_pos hroom, hoff, overlay, List.take_left' rfl, List.drop_length_add_append,
    List.drop_replicate]

/-- Copying to the start of such a buffer. -/
theorem copyInto_zero_replicate {src : List α} {a : α} {k : ℕ} (h : src.length ≤ k) :
    (copyInto (List.replicate k a) 0 src : Outcome ε (List α)) =
      .ok (src ++ List.replicate (k - src.length) a) := by
  have hcopy := copyInto_replicate (ε := ε) (a := a) List.length_nil.symm h
  simpa only [List.nil_append] using hcopy

/-- The start of such a buffer. -/
theorem sliceRange_replicate {front : List α} {a : α} {n k : ℕ} (hfront : front.length ≤ n)
    (h : n ≤ front.length + k) :
    (sliceRange (front ++ List.replicate k a) 0 n : Outcome ε (List α)) =
      .ok (front ++ List.replicate (n - front.length) a) := by
  have hlen : (front ++ List.replicate k a).length = front.length + k := by
    rw [List.length_append, List.length_replicate]
  rw [sliceRange, if_pos ⟨Nat.zero_le n, hlen ▸ h⟩, slice, List.drop_zero, Nat.sub_zero,
    List.take_append, List.take_of_length_le hfront, List.take_replicate,
    Nat.min_eq_left (by omega)]

theorem checkedSub_eq_ok_iff {a b c : ℕ} :
    (checkedSub a b : Outcome ε ℕ) = .ok c ↔ b ≤ a ∧ a - b = c := by
  unfold checkedSub
  split
  · rename_i h
    simp [h]
  · rename_i h
    simp [h]

/-! ### Possible faults -/

/-- Every fault of a computation satisfies `p`. -/
def Faults (p : Fault ε → Prop) (x : Outcome ε α) : Prop := ∀ f, x = .error f → p f

variable {p : Fault ε → Prop}

theorem faults_ok (a : α) : Faults p (.ok a : Outcome ε α) := nofun

theorem faults_pure (a : α) : Faults p (pure a : Outcome ε α) := nofun

theorem faults_fail {e : ε} (h : p (.error e)) : Faults p (fail e : Outcome ε α) := by
  rintro f ⟨⟩
  exact h

theorem faults_ofExcept {x : Except ε α} (h : ∀ e, x = .error e → p (.error e)) :
    Faults p (ofExcept x) := by
  cases x with
  | ok a => exact faults_ok a
  | error e => exact faults_fail (h e rfl)

/-- The faults of a chain are those of its steps, the second one run on a result of the first. -/
theorem faults_bind {x : Outcome ε α} {g : α → Outcome ε β} (hx : Faults p x)
    (hg : ∀ a, x = .ok a → Faults p (g a)) : Faults p (x >>= g) := by
  intro f hf
  rcases Except.bind_eq_error_iff.mp hf with hf | ⟨a, ha, hf⟩
  · exact hx f hf
  · exact hg a ha f hf

theorem faults_index {l : List α} {i : ℕ} (h : i < l.length) :
    Faults p (index l i : Outcome ε α) := by
  rw [index, List.getElem?_eq_getElem h]
  exact faults_ok _

theorem faults_sliceRange {l : List α} {a b : ℕ} (h : a ≤ b) (hb : b ≤ l.length) :
    Faults p (sliceRange l a b : Outcome ε (List α)) := by
  rw [sliceRange, if_pos ⟨h, hb⟩]
  exact faults_ok _

theorem faults_checkedSub {a b : ℕ} (h : b ≤ a) : Faults p (checkedSub a b : Outcome ε ℕ) := by
  rw [checkedSub, if_pos h]
  exact faults_ok _

end Outcome
