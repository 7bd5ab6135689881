/-
# Stencil.Proofs.Json.Integers -- an integer is read as itself

The numeral of an integer, with a minus sign if it is negative, is a JSON text.  If the integer
fits a word of 64 bits, signed if it is negative, the document is that integer and no digit is lost
(`Json.ofText?_integer`): the digits are taken one by one, and none makes the number too large.
-/
import Mathlib
import Stencil.Json.Document
import Stencil.Proofs.Json.Reading

set_option autoImplicit false

namespace Stencil

/-- The numeral of an integer: a minus sign if it is negative, and its digits. -/
def Text.integer (n : ℤ) : Text := (if n < 0 then ['-'] else []) ++ Text.numeral n.natAbs

namespace Json

namespace Number

theorem absorb_append {s v : ℕ} {digits : Text} (taken : absorb s digits = (v, [])) (rest : Text) :
    absorb s (digits ++ rest) = absorb v rest := by
  induction digits generalizing s with
  | nil =>
      obtain ⟨rfl, -⟩ := Prod.mk.inj taken
      rfl
  | cons c digits ih =>
      simp only [absorb] at taken
      rw [List.cons_append, absorb]
      split at taken
      · next fits =>
          rw [if_pos fits]
          exact ih taken
      · cases taken

/-- The digits of a number that fits are all taken. -/
theorem absorb_numeral (n : ℕ) (fits : n < 2 ^ 64) : absorb 0 (Text.numeral n) = (n, []) := by
  rw [Text.numeral]
  rcases Nat.lt_or_ge n 10 with one_digit | more
  · have value : digitValue n.digitChar = n := Nat.toNat_digitChar_sub_48_of_lt_ten one_digit
    rw [Nat.toDigits_of_lt_base one_digit]
    simp only [absorb, value, Nat.pow_eq]
    rw [if_pos (by omega)]
    simp
  · have value : digitValue (n % 10).digitChar = n % 10 :=
      Nat.toNat_digitChar_sub_48_of_lt_ten (Nat.mod_lt n (by decide))
    have front : absorb 0 (Nat.toDigits 10 (n / 10)) = (n / 10, []) :=
      absorb_numeral (n / 10) (by omega)
    rw [Nat.toDigits_of_base_le (by decide) more, absorb_append front]
    simp only [absorb, value, Nat.pow_eq]
    rw [if_pos (by omega), Nat.div_add_mod]

end Number

/-! ## The number as it is written -/

theorem head?_numeral {n : ℕ} (pos : 0 < n) : (Text.numeral n).head? ≠ some '0' := by
  rw [Text.numeral]
  rcases Nat.lt_or_ge n 10 with one_digit | more
  · rw [Nat.toDigits_of_lt_base one_digit]
    interval_cases n <;> decide
  · rw [Nat.toDigits_of_base_le (by decide) more, List.head?_append_of_ne_nil _ Nat.toDigits_ne_nil]
    exact head?_numeral (Nat.div_pos more (by decide))

/-- A number without point and exponent. -/
def Numeral.ofInt (n : ℤ) : Numeral := ⟨decide (n < 0), Text.numeral n.natAbs, [], none⟩

theorem Numeral.proper_ofInt (n : ℤ) : (Numeral.ofInt n).Proper where
  whole_digits _ := Nat.isDigit_of_mem_toDigits (by decide) (by decide)
  whole_ne_nil := Nat.toDigits_ne_nil
  zero_alone c rest same := by
    rcases Nat.eq_zero_or_pos n.natAbs with zero | pos
    · rw [ofInt, zero] at same
      cases same
    · refine head?_numeral pos ?_
      rw [show Text.numeral n.natAbs = '0' :: c :: rest from same]
      rfl
  fraction_digits := nofun
  exponent_digits := nofun

theorem Numeral.layout_ofInt (n : ℤ) : (Numeral.ofInt n).Layout (Text.integer n) := by
  refine ⟨[], .none, ?_⟩
  simp [ofInt, signText, fractionText, Text.integer]

theorem Numeral.value?_ofInt {n : ℤ} (least : -2 ^ 63 ≤ n) (greatest : n < 2 ^ 64) :
    (Numeral.ofInt n).value? = some (.whole n) := by
  have written :
      (!decide (n < 0) || (n.natAbs != 0 && decide (n.natAbs ≤ Nat.pow 2 63))) = true := by
    simp only [Bool.or_eq_true, Bool.and_eq_true, Bool.not_eq_true', decide_eq_false_iff_not,
      bne_iff_ne, decide_eq_true_eq, Nat.pow_eq]
    omega
  simp only [value?, ofInt, Number.absorb_numeral n.natAbs (by omega), written]
  simp only [List.isEmpty_nil, Option.isNone_none, Bool.and_self, if_true, decide_eq_true_eq]
  congr 2
  split <;> omega

/-- The numeral of an integer is read as the integer. -/
theorem ofText?_integer {n : ℤ} (least : -2 ^ 63 ≤ n) (greatest : n < 2 ^ 64) :
    Json.ofText? (Text.integer n) = some (.number (.whole n)) := by
  have read := Tree.ofText?_of_layout (t := .number (.ofInt n)) (Numeral.proper_ofInt n)
    (.of_core (Numeral.layout_ofInt n))
  rw [ofText?, read, Option.bind_some, ofTree?, Numeral.value?_ofInt least greatest,
    Option.map_some]

end Json

end Stencil
