/-
# Stencil.Proofs.Text.Hyphen -- what becomes of a key's characters

Making a suffix of a key lowers capitals and puts hyphens in; all else in the key stays.  So a
character that is neither an ASCII letter nor a hyphen is in the suffix exactly if it is in the key
(`Text.mem_hyphenate_iff`).
-/
import Mathlib
import Stencil.Text.Hyphen

set_option autoImplicit false

namespace Stencil.Text

variable {c : Char}

theorem isAlpha_eq_false_iff :
    c.isAlpha = false ↔ ¬ (65 ≤ c.toNat ∧ c.toNat ≤ 90) ∧ ¬ (97 ≤ c.toNat ∧ c.toNat ≤ 122) := by
  rw [Char.isAlpha, Bool.or_eq_false_iff]
  simp [Char.isUpper, Char.isLower, UInt32.le_iff_toNat_le, ← Char.toNat_val]

theorem isAlpha_of_isDigit (digit : c.isDigit = true) : c.isAlpha = false := by
  have range : 48 ≤ c.toNat ∧ c.toNat ≤ 57 := Char.isDigit_iff_toNat.1 digit
  exact isAlpha_eq_false_iff.2 ⟨by omega, by omega⟩

/-- Lowering makes no character but small letters. -/
theorem toLower_eq_iff (other : c.isAlpha = false) (d : Char) : d.toLower = c ↔ d = c := by
  have unchanged {e : Char} (other : e.isAlpha = false) : e.toLower = e :=
    Char.toLower_eq_of_not_isUpper (by simp [(Bool.or_eq_false_iff.1 other).1])
  constructor
  · rintro rfl
    rw [Char.isAlpha_toLower_eq_isAlpha] at other
    exact (unchanged other).symm
  · rintro rfl
    exact unchanged other

theorem mem_hyphenateAfter_iff (other : c.isAlpha = false) (ne : c ≠ '-') :
    ∀ (previous : Char) (key : Text), c ∈ hyphenateAfter previous key ↔ c ∈ key
  | _, [] => Iff.rfl
  | previous, d :: key => by
      have lowered : c = d.toLower ↔ c = d := by rw [eq_comm, toLower_eq_iff other, eq_comm]
      have rest := mem_hyphenateAfter_iff other ne d key
      rw [hyphenateAfter]
      split
      · rw [List.mem_cons, List.mem_cons, List.mem_cons, lowered, rest, or_iff_right ne]
      · rw [List.mem_cons, List.mem_cons, lowered, rest]

/-- A character that is no letter and no hyphen is in the suffix if it is in the key, and only
then. -/
theorem mem_hyphenate_iff (other : c.isAlpha = false) (ne : c ≠ '-') (key : Text) :
    c ∈ hyphenate key ↔ c ∈ key := by
  cases key with
  | nil => exact Iff.rfl
  | cons d key =>
      rw [hyphenate, List.mem_cons, List.mem_cons, mem_hyphenateAfter_iff other ne, eq_comm,
        toLower_eq_iff other, eq_comm]

end Stencil.Text
