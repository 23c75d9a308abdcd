import Mathlib.Data.List.Basic
import Mathlib.Tactic.Common

/-!
# First Match and Longest Match

A table of texts that is searched in order for one that starts the input. The first match is
the longest one when no text comes before an extension of it, and what comes after a text that
matches is never found.

## Main results

* `length_le_of_find`: a first match is a longest one, for a table ordered so.
* `mem_of_find`: a first match is found no later than any match.
-/

namespace FirstMatch

variable {ε α : Type*} [BEq α] [LawfulBEq α] {text : ε → List α} {table : List ε} {input : List α}
  {e : ε}

/-- The first entry of the table whose text starts the input. -/
def find (text : ε → List α) (table : List ε) (input : List α) : Option ε :=
  table.find? fun e => (text e).isPrefixOf input

/-- A first match is an entry that starts the input. -/
theorem starts_of_find (h : find text table input = some e) : e ∈ table ∧ text e <+: input := by
  have hstarts : (text e).isPrefixOf input = true :=
    List.find?_some (p := fun e => (text e).isPrefixOf input) h
  exact ⟨List.mem_of_find?_eq_some h, List.isPrefixOf_iff_prefix.mp hstarts⟩

/-- **A first match is a longest match** when every longer match stands before the shorter ones
it extends. -/
theorem length_le_of_find
    (horder : table.Pairwise fun a b => text a <+: text b → text b <+: input →
      (text b).length ≤ (text a).length)
    (h : find text table input = some e) :
    ∀ b ∈ table, text b <+: input → (text b).length ≤ (text e).length := by
  intro b hb hmatch
  obtain ⟨he, before, after, rfl, hfail⟩ := List.find?_eq_some_iff_append.mp h
  have hstarts : text e <+: input := List.isPrefixOf_iff_prefix.mp he
  rcases List.mem_append.mp hb with hbefore | hafter
  · -- what stands before the first match does not match
    have := hfail b hbefore
    rw [List.isPrefixOf_iff_prefix.mpr hmatch] at this
    cases this
  · rcases List.mem_cons.mp hafter with rfl | hafter
    · exact Nat.le_refl _
    · rcases Nat.le_total (text b).length (text e).length with hle | hle
      · exact hle
      · have hext : text e <+: text b := List.prefix_of_prefix_length_le hstarts hmatch hle
        exact (List.pairwise_cons.mp (List.pairwise_append.mp horder).2.1).1 b hafter hext hmatch

/-- **A first match is found no later than any match.** -/
theorem mem_of_find {before after : List ε} {u : ε} (hu : text u <+: input)
    (h : find text (before ++ u :: after) input = some e) : e ∈ before ++ [u] := by
  have hfound : ((u :: after).find? fun e => (text e).isPrefixOf input) = some u :=
    List.find?_cons_of_pos (List.isPrefixOf_iff_prefix.mpr hu)
  rw [find, List.find?_append, hfound] at h
  rcases Option.or_eq_some_iff.mp h with h | ⟨-, h⟩
  · exact List.mem_append_left _ (List.mem_of_find?_eq_some h)
  · obtain rfl := Option.some.inj h
    exact List.mem_append_right _ (List.mem_singleton_self _)

end FirstMatch
