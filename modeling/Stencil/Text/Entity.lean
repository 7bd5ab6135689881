/-
# Stencil.Text.Entity -- character entities

`escape` writes the five characters that have a meaning in markup as entities, so the result is
safe as text between tags and inside an attribute value of either quote.  `decode` reads the five
entities back, left to right.  Main statements: no bare `<`, `>` or quote is left
(`not_mem_escape`), and decoding undoes escaping (`decode_escape`), so escaped texts differ
whenever the texts differ.
-/
import Stencil.Text.Basic

set_option autoImplicit false

namespace Stencil.Text

/-- How a character is written inside markup. -/
def entity (c : Char) : Text :=
  if c = '&' then ['&', 'a', 'm', 'p', ';']
  else if c = '<' then ['&', 'l', 't', ';']
  else if c = '>' then ['&', 'g', 't', ';']
  else if c = '"' then ['&', 'q', 'u', 'o', 't', ';']
  else if c = '\'' then ['&', '#', 'x', '2', '7', ';']
  else [c]

/-- The text with the five characters that have a meaning in markup written as entities. -/
def escape (s : Text) : Text := s.flatMap entity

/-- The text with the five entities replaced by their characters.  Any other ampersand stays. -/
def decode : Text → Text
  | '&' :: 'a' :: 'm' :: 'p' :: ';' :: rest => '&' :: decode rest
  | '&' :: 'l' :: 't' :: ';' :: rest => '<' :: decode rest
  | '&' :: 'g' :: 't' :: ';' :: rest => '>' :: decode rest
  | '&' :: 'q' :: 'u' :: 'o' :: 't' :: ';' :: rest => '"' :: decode rest
  | '&' :: '#' :: 'x' :: '2' :: '7' :: ';' :: rest => '\'' :: decode rest
  | c :: rest => c :: decode rest
  | [] => []

@[simp] theorem escape_nil : escape [] = [] := rfl

@[simp] theorem escape_cons (c : Char) (s : Text) : escape (c :: s) = entity c ++ escape s := rfl

@[simp] theorem escape_append (s t : Text) : escape (s ++ t) = escape s ++ escape t :=
  List.flatMap_append

/-- A character that starts no entity is decoded to itself. -/
theorem decode_cons_of_ne {c : Char} (h : c ≠ '&') (s : Text) :
    decode (c :: s) = c :: decode s := by
  rw [decode.eq_def (c :: s)]
  split <;> simp_all

/-- Decoding undoes the writing of one character. -/
theorem decode_entity_append (c : Char) (s : Text) : decode (entity c ++ s) = c :: decode s := by
  unfold entity
  split
  · next h => subst h; rfl
  · next ha =>
    split
    · next h => subst h; rfl
    · split
      · next h => subst h; rfl
      · split
        · next h => subst h; rfl
        · split
          · next h => subst h; rfl
          · exact decode_cons_of_ne ha s

/-- Decoding undoes escaping. -/
theorem decode_escape (s : Text) : decode (escape s) = s := by
  induction s with
  | nil => rfl
  | cons c s ih => rw [escape_cons, decode_entity_append, ih]

/-- The characters that end a tag or an attribute value. -/
def isDelimiter (c : Char) : Bool := c == '<' || c == '>' || c == '"' || c == '\''

/-- No character of an entity ends a tag or an attribute value. -/
theorem all_not_isDelimiter_entity (c : Char) : (entity c).all (!isDelimiter ·) = true := by
  unfold entity
  split
  · rfl
  · split
    · rfl
    · split
      · rfl
      · split
        · rfl
        · split
          · rfl
          · simp_all [isDelimiter]

/-- No delimiter is left in an escaped text. -/
theorem not_mem_escape {d : Char} {s : Text} (h : d ∈ escape s) : isDelimiter d = false := by
  obtain ⟨c, -, hc⟩ := List.mem_flatMap.1 h
  simpa using List.all_eq_true.1 (all_not_isDelimiter_entity c) d hc

end Stencil.Text
