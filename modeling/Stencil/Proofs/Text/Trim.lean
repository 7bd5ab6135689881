/-
# Stencil.Proofs.Text.Trim -- trimming up to a character that stays

A character that is not blank stays, with all that stands behind it when a text is trimmed at its
front, and with all that stands before it when it is trimmed at its end.  A text with such a
character at either end is its own trimmed text, and every trimmed text is one (`Text.trim_trim`).
-/
import Stencil.Text.Blank

set_option autoImplicit false

namespace Stencil.Text

variable {s t : Text} {c : Char}

theorem trimStart_append_cons (visible : isBlank c = false) (s t : Text) :
    trimStart (s ++ c :: t) = trimStart s ++ c :: t := by
  rw [trimStart, trimStart, List.dropWhile_append]
  split
  · next all =>
    rw [List.isEmpty_iff.1 all, List.dropWhile_cons_of_neg (by simp [visible]), List.nil_append]
  · rfl

theorem trimEnd_eq_reverse (s : Text) : trimEnd s = (trimStart s.reverse).reverse := rfl

theorem trimEnd_append_cons (visible : isBlank c = false) (s t : Text) :
    trimEnd (s ++ c :: t) = s ++ c :: trimEnd t := by
  have turned : (s ++ c :: t).reverse = t.reverse ++ c :: s.reverse := by simp
  rw [trimEnd_eq_reverse, turned, trimStart_append_cons visible, trimEnd_eq_reverse]
  simp

theorem isBlank_of_mem_head?_trimStart (here : c ∈ (trimStart s).head?) : isBlank c = false :=
  (splitRun_spec isBlank s).2 c here

theorem trimEnd_of_last (last : ∀ c ∈ s.getLast?, isBlank c = false) : trimEnd s = s := by
  rcases List.eq_nil_or_concat s with rfl | ⟨s, c, rfl⟩
  · rfl
  · have visible : isBlank c = false := last c (by simp)
    have kept := trimEnd_append_cons visible s []
    simpa [trimEnd, splitLastRun] using kept

theorem trimStart_of_head (first : ∀ c ∈ s.head?, isBlank c = false) : trimStart s = s := by
  cases s with
  | nil => rfl
  | cons c s =>
      have kept := trimStart_append_cons (first c rfl) [] s
      exact kept

theorem trim_of_ends (first : ∀ c ∈ s.head?, isBlank c = false)
    (last : ∀ c ∈ s.getLast?, isBlank c = false) : trim s = s := by
  rw [trim, trimStart_of_head first, trimEnd_of_last last]

/-- A trimmed text does not begin with a blank. -/
theorem isBlank_of_mem_head?_trim (here : c ∈ (trim s).head?) : isBlank c = false := by
  obtain ⟨blanks, whole, -, -⟩ := exists_trimEnd_append (trimStart s)
  obtain ⟨rest, trimmed⟩ := List.head?_eq_some_iff.1 here
  refine isBlank_of_mem_head?_trimStart (s := s) ?_
  rw [whole, show trimEnd (trimStart s) = c :: rest from trimmed]
  rfl

/-- A trimmed text does not end in a blank. -/
theorem isBlank_of_mem_getLast?_trim (here : c ∈ (trim s).getLast?) : isBlank c = false :=
  (splitLastRun_spec isBlank (trimStart s)).2 c here

theorem trim_trim (s : Text) : trim (trim s) = trim s :=
  trim_of_ends (fun _ => isBlank_of_mem_head?_trim) fun _ => isBlank_of_mem_getLast?_trim

end Stencil.Text
