import Mathlib.Tactic.Common
import Ntag424.Lib.Outcome

/-!
# A Computation Within a Capacity

The same computation with less space and with more, where results only grow: as long as they fit
the smaller space, both agree, and once they no longer fit, the first one is refused
(`Outcome.Within`).

## Main results

* `Outcome.within_bind`, `Outcome.within_foldlM`: chains and loops of such computations.
* `Outcome.Within.eq_ok_iff`, `Outcome.Within.eq_full`: what fits is returned by both, and what
  does not fit is refused.
-/

namespace Outcome

variable {ε α β : Type} {full : Fault ε} {cap lo : ℕ} {size : α → ℕ} {size' : β → ℕ}
  {x y : Outcome ε α}

/-- From a size `lo` on, `x` does what `y` does if the result fits the capacity, and is refused
otherwise. -/
structure Within (full : Fault ε) (cap : ℕ) (size : α → ℕ) (lo : ℕ) (x y : Outcome ε α) :
    Prop where
  grows : ∀ a, y = .ok a → lo ≤ size a
  agrees : lo ≤ cap → (x = y ∧ ∀ a, y = .ok a → size a ≤ cap) ∨
    (x = .error full ∧ ∀ a, y = .ok a → cap < size a)

/-- A result of the same size. -/
theorem within_ok {a : α} (h : size a = lo) :
    Within full cap size lo (.ok a) (.ok a : Outcome ε α) := by
  refine ⟨?_, fun hle => .inl ⟨rfl, ?_⟩⟩
  · rintro _ ⟨⟩
    exact h.ge
  · rintro _ ⟨⟩
    exact h.trans_le hle

theorem within_error (f : Fault ε) :
    Within full cap size lo (.error f) (.error f : Outcome ε α) := by
  refine ⟨?_, fun _ => .inl ⟨rfl, ?_⟩⟩
  · rintro _ ⟨⟩
  · rintro _ ⟨⟩

/-- A chain. -/
theorem within_bind {f g : α → Outcome ε β} (hx : Within full cap size lo x y)
    (hf : ∀ a, y = .ok a → Within full cap size' (size a) (f a) (g a)) :
    Within full cap size' lo (x >>= f) (y >>= g) := by
  refine ⟨fun b hb => ?_, fun hle => ?_⟩
  · obtain ⟨a, ha, hga⟩ := Except.bind_eq_ok_iff.mp hb
    exact (hx.grows a ha).trans ((hf a ha).grows b hga)
  · rcases hx.agrees hle with ⟨rfl, hfits⟩ | ⟨rfl, hover⟩
    · cases x with
      | error e => exact .inl ⟨rfl, by rintro _ ⟨⟩⟩
      | ok a => exact (hf a rfl).agrees (hfits a rfl)
    · refine .inr ⟨rfl, fun b hb => ?_⟩
      obtain ⟨a, ha, hga⟩ := Except.bind_eq_ok_iff.mp hb
      exact (hover a ha).trans_le ((hf a ha).grows b hga)

/-- A chain whose first step needs no space. -/
theorem within_bind_self {z : Outcome ε β} {f g : β → Outcome ε α}
    (hf : ∀ b, z = .ok b → Within full cap size lo (f b) (g b)) :
    Within full cap size lo (z >>= f) (z >>= g) := by
  cases z with
  | error e => exact within_error e
  | ok b => exact hf b rfl

/-- A loop. -/
theorem within_foldlM {f g : α → β → Outcome ε α}
    (hstep : ∀ a b, Within full cap size (size a) (f a b) (g a b)) (l : List β) (a : α) :
    Within full cap size (size a) (l.foldlM f a) (l.foldlM g a) := by
  induction l generalizing a with
  | nil => exact within_ok rfl
  | cons b l ih =>
      rw [List.foldlM_cons, List.foldlM_cons]
      exact within_bind (hstep a b) fun a' _ => ih a'

/-- Results that are known to be larger. -/
theorem Within.larger {lo' : ℕ} (h : Within full cap size lo x y) (hle : lo ≤ lo')
    (hgrows : ∀ a, y = .ok a → lo' ≤ size a) : Within full cap size lo' x y :=
  ⟨hgrows, fun hlo => h.agrees (hle.trans hlo)⟩

/-- What fits is returned by both. -/
theorem Within.eq_ok_iff (h : Within full cap size lo x y) (hle : lo ≤ cap) {a : α} :
    x = .ok a ↔ y = .ok a ∧ size a ≤ cap := by
  rcases h.agrees hle with ⟨rfl, hfits⟩ | ⟨rfl, hover⟩
  · exact ⟨fun hx => ⟨hx, hfits a hx⟩, fun hx => hx.1⟩
  · refine ⟨by rintro ⟨⟩, ?_⟩
    rintro ⟨hy, hfits⟩
    exact absurd hfits (hover a hy).not_ge

/-- What does not fit is refused. -/
theorem Within.eq_full (h : Within full cap size lo x y) (hle : lo ≤ cap) {a : α}
    (hy : y = .ok a) (hover : cap < size a) : x = .error full := by
  rcases h.agrees hle with ⟨rfl, hfits⟩ | ⟨rfl, -⟩
  · exact absurd (hfits a hy) hover.not_ge
  · rfl

end Outcome
