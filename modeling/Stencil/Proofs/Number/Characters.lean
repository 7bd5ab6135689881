/-
# Stencil.Proofs.Number.Characters -- the characters of a number's text

The text of a number, finite or not, is made of letters, digits, the minus sign and the decimal
point (`Binary.isNumberChar_of_mem_text`).  None of them has a meaning in markup, which is why the
text of a number is never escaped.
-/
import Stencil.Number.Shortest

set_option autoImplicit false

namespace Stencil.Number

/-- Whether a character may stand in the text of a number. -/
def isNumberChar (c : Char) : Bool := c.isAlphanum || c == '-' || c == '.'

theorem isNumberChar_of_mem_numeral {n : Nat} {c : Char} (h : c ∈ Text.numeral n) :
    isNumberChar c = true := by
  have digit := Nat.isDigit_of_mem_toDigits (by omega) (by omega) h
  simp [isNumberChar, Char.isAlphanum, digit]

namespace Decimal

theorem isNumberChar_of_mem_padded {width n : Nat} {c : Char} (h : c ∈ padded width n) :
    isNumberChar c = true := by
  rcases List.mem_append.1 h with zero | digit
  · obtain rfl : c = '0' := List.eq_of_mem_replicate zero
    decide
  · exact isNumberChar_of_mem_numeral digit

theorem isNumberChar_of_mem_text {d : Decimal} {c : Char} (h : c ∈ d.text) :
    isNumberChar c = true := by
  unfold text at h
  split at h
  · exact isNumberChar_of_mem_numeral h
  · rcases List.mem_append.1 h with whole | fraction
    · exact isNumberChar_of_mem_numeral whole
    · rcases List.mem_cons.1 fraction with rfl | digit
      · decide
      · exact isNumberChar_of_mem_padded digit

end Decimal

namespace Binary

theorem isNumberChar_of_mem_sign {negative : Bool} {s : Text} {c : Char}
    (rest : c ∈ s → isNumberChar c = true) (h : c ∈ (if negative then ['-'] else []) ++ s) :
    isNumberChar c = true := by
  rcases List.mem_append.1 h with sign | body
  · cases negative with
    | false => exact nomatch sign
    | true =>
        obtain rfl : c = '-' := List.mem_singleton.1 sign
        decide
  · exact rest body

/-- The text of a number has no other characters. -/
theorem isNumberChar_of_mem_text {f : Format} {x : Binary f} {c : Char} (h : c ∈ x.text) :
    isNumberChar c = true := by
  cases x with
  | nan =>
      have all : ∀ c ∈ ['N', 'a', 'N'], isNumberChar c = true := List.all_eq_true.1 (by decide)
      exact all c h
  | infinite negative =>
      have all : ∀ c ∈ ['I', 'n', 'f', 'i', 'n', 'i', 't', 'y'], isNumberChar c = true :=
        List.all_eq_true.1 (by decide)
      exact isNumberChar_of_mem_sign (all c) h
  | finite negative rank =>
      simp only [text] at h
      split at h
      · obtain rfl : c = '0' := List.mem_singleton.1 h
        decide
      · exact isNumberChar_of_mem_sign Decimal.isNumberChar_of_mem_text h

end Binary

end Stencil.Number
