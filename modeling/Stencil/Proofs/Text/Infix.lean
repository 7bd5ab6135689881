/-
# Stencil.Proofs.Text.Infix -- words inside a text

A word may lie on either side of a character that it does not hold, but not across it
(`Text.infix_or_infix_of_not_mem`), and the last character of a text is that of every end of it.
-/
import Stencil.Text.Basic

set_option autoImplicit false

namespace Stencil.Text

variable {s t u v w : Text} {c : Char}

/-- A word without a character lies on one side of it. -/
theorem infix_or_infix_of_not_mem (free : c ∉ w) (h : w <:+: u ++ c :: v) :
    w <:+: u ∨ w <:+: v := by
  rcases List.infix_append_iff_ne_nil.1 h with left | right | ⟨front, back, -, ne, rfl, -, start⟩
  · exact .inl left
  · rcases List.infix_cons_iff.1 right with start | right
    · cases w with
      | nil => exact .inl (List.nil_infix ..)
      | cons d w =>
          obtain ⟨rfl, -⟩ := List.cons_prefix_cons.1 start
          exact absurd (List.mem_cons_self ..) free
    · exact .inr right
  · cases back with
    | nil => exact absurd rfl ne
    | cons d back =>
        obtain ⟨rfl, -⟩ := List.cons_prefix_cons.1 start
        exact absurd (List.mem_append_right _ (List.mem_cons_self ..)) free

theorem infix_of_infix_cons (free : c ∉ w) (h : w <:+: c :: v) : w <:+: v := by
  rcases infix_or_infix_of_not_mem (u := []) free h with none | inside
  · exact none.trans (List.nil_infix ..)
  · exact inside

/-- The last character of an end of the text is the last of the text. -/
theorem mem_getLast?_of_suffix (h : t <:+ s) (last : c ∈ t.getLast?) : c ∈ s.getLast? := by
  obtain ⟨front, rfl⟩ := h
  rcases List.eq_nil_or_concat t with rfl | ⟨t, d, rfl⟩
  · exact nomatch last
  · simpa using last

theorem eq_of_mem_getLast? {d : Char} (h : [d] <:+ s) (last : c ∈ s.getLast?) : d = c := by
  have final : d ∈ s.getLast? := mem_getLast?_of_suffix h rfl
  exact Option.mem_unique final last

/-- A word that cannot go on into the right part of a text is in the left part. -/
theorem infix_left_of_last (h : w ++ [c] <:+: u ++ v) (free : c ∉ v) :
    w ++ [c] <:+: u := by
  rcases List.infix_append_iff_ne_nil.1 h with left | right | ⟨front, back, -, ne, split, -, start⟩
  · exact left
  · exact absurd (right.subset (by simp)) free
  · obtain ⟨back, d, rfl⟩ := (List.eq_nil_or_concat back).resolve_left ne
    have last := congrArg List.getLast? split
    have same : c = d := by simpa [← List.append_assoc] using last
    exact absurd (start.subset (by simp [same])) free

/-- A word without a character is in front of the first such character. -/
theorem prefix_of_not_mem (front : w <+: u ++ c :: v) (free : c ∉ w) : w <+: u := by
  obtain ⟨rest, whole⟩ := front
  rcases List.append_eq_append_iff.1 whole with ⟨more, split, -⟩ | ⟨more, rfl, behind⟩
  · exact ⟨more, split.symm⟩
  · cases more with
    | nil => exact ⟨[], by simp⟩
    | cons d more =>
        obtain ⟨rfl, -⟩ := List.cons.inj behind
        exact absurd (by simp) free

/-- A text is cut in one way at the first character of a kind. -/
theorem eq_of_append_cons {u' v' : Text} (free : c ∉ u) (free' : c ∉ u')
    (same : u ++ c :: v = u' ++ c :: v') : u = u' ∧ v = v' := by
  have split := congrArg (splitRun (· != c)) same
  rw [splitRun_ne_append free, splitRun_ne_append free'] at split
  obtain ⟨front, behind⟩ := Prod.mk.inj split
  exact ⟨front, (List.cons.inj behind).2⟩

end Stencil.Text
