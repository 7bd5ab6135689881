/-
# Stencil.Proofs.Number.Ranks -- the numbers of a format in order

A rank is so many steps of a binade: `shift * 2 ^ fractionBits + significand`
(`Format.rank_eq`).  The count of steps may be one binade's worth too large without a change of
the number it stands for (`Format.quanta_of_count`), which is why rounding may carry into the next
binade and why ranks follow the order of the numbers (`Format.quanta_strictMono`): from one rank to
the next it is one step (`Format.quanta_succ`).
-/
import Mathlib
import Stencil.Number.Shortest

set_option autoImplicit false

namespace Stencil.Number.Format

variable {f : Format}

theorem rank_eq (f : Format) (rank : ℕ) :
    f.shift rank * 2 ^ f.fractionBits + f.significand rank = rank := by
  simp only [shift, significand, Nat.pow_eq]
  split
  · simp
  · next above =>
      have steps := Nat.div_add_mod' rank (2 ^ f.fractionBits)
      have first : 1 ≤ rank / 2 ^ f.fractionBits := by
        rw [Nat.le_div_iff_mul_le (by positivity), one_mul]
        rw [pow_succ] at above
        omega
      obtain ⟨k, quotient⟩ := Nat.exists_eq_add_of_le first
      rw [quotient, add_mul] at steps
      rw [quotient, Nat.add_sub_cancel_left]
      omega

theorem significand_lt (f : Format) (rank : ℕ) : f.significand rank < 2 ^ (f.fractionBits + 1) := by
  simp only [significand, Nat.pow_eq]
  split
  · assumption
  · have rest := Nat.mod_lt rank (Nat.two_pow_pos f.fractionBits)
    rw [pow_succ]
    omega

/-- Above the least binade the leading bit of the significand is there. -/
theorem le_significand (f : Format) {rank : ℕ} (normal : f.shift rank ≠ 0) :
    2 ^ f.fractionBits ≤ f.significand rank := by
  simp only [shift, significand, Nat.pow_eq] at normal ⊢
  split at normal
  · exact absurd rfl normal
  · next above => rw [if_neg above]; omega

/-- The rank of so many steps of a binade is there. -/
theorem shift_significand_of_count {s c : ℕ} (full : s = 0 ∨ 2 ^ f.fractionBits ≤ c)
    (lt : c < 2 ^ (f.fractionBits + 1)) :
    f.shift (s * 2 ^ f.fractionBits + c) = s ∧
      f.significand (s * 2 ^ f.fractionBits + c) = c := by
  simp only [shift, significand, Nat.pow_eq]
  by_cases first : s = 0
  · subst first
    simp [lt]
  · -- the leading bit of the count is the one that the rank does not have
    obtain ⟨rest, rfl⟩ := Nat.exists_eq_add_of_le (full.resolve_left first)
    have small : rest < 2 ^ f.fractionBits := by
      rw [pow_succ] at lt
      omega
    have above : ¬ s * 2 ^ f.fractionBits + (2 ^ f.fractionBits + rest) <
        2 ^ (f.fractionBits + 1) := by
      have one := Nat.le_mul_of_pos_left (2 ^ f.fractionBits) (Nat.pos_of_ne_zero first)
      rw [pow_succ]
      omega
    have split : s * 2 ^ f.fractionBits + (2 ^ f.fractionBits + rest) =
        rest + 2 ^ f.fractionBits * (s + 1) := by ring
    rw [if_neg above, if_neg above, split, Nat.add_mul_div_left _ _ (Nat.two_pow_pos _),
      Nat.div_eq_of_lt small, Nat.add_mul_mod_self_left, Nat.mod_eq_of_lt small]
    omega

/-- The first number of a binade has the leading bit alone. -/
theorem shift_significand_of_binade (f : Format) (s : ℕ) :
    f.shift (s * 2 ^ f.fractionBits + 2 ^ f.fractionBits) = s ∧
      f.significand (s * 2 ^ f.fractionBits + 2 ^ f.fractionBits) = 2 ^ f.fractionBits :=
  shift_significand_of_count (.inr le_rfl)
    (Nat.pow_lt_pow_right Nat.one_lt_two (Nat.lt_succ_self _))

/-- A count of steps that reaches the next binade stands for the first number there. -/
theorem quanta_of_count {s c : ℕ} (full : s = 0 ∨ 2 ^ f.fractionBits ≤ c)
    (le : c ≤ 2 ^ (f.fractionBits + 1)) :
    f.quanta (s * 2 ^ f.fractionBits + c) = c * 2 ^ s := by
  rcases le.lt_or_eq with lt | rfl
  · obtain ⟨step, count⟩ := shift_significand_of_count full lt
    rw [quanta, step, count, Nat.pow_eq]
  · have carried : s * 2 ^ f.fractionBits + 2 ^ (f.fractionBits + 1) =
        (s + 1) * 2 ^ f.fractionBits + 2 ^ f.fractionBits := by ring
    obtain ⟨step, count⟩ := f.shift_significand_of_binade (s + 1)
    rw [carried, quanta, step, count, Nat.pow_eq]
    ring

theorem full_succ (f : Format) (rank : ℕ) :
    f.shift rank = 0 ∨ 2 ^ f.fractionBits ≤ f.significand rank + 1 := by
  by_cases normal : f.shift rank = 0
  · exact .inl normal
  · exact .inr ((f.le_significand normal).trans (Nat.le_succ _))

/-- The next rank counts one step more, or it is the first of the next binade. -/
theorem succ_cases (f : Format) (rank : ℕ) :
    f.shift (rank + 1) = f.shift rank ∧ f.significand (rank + 1) = f.significand rank + 1 ∨
      f.shift (rank + 1) = f.shift rank + 1 ∧ f.significand (rank + 1) = 2 ^ f.fractionBits := by
  have next : rank + 1 = f.shift rank * 2 ^ f.fractionBits + (f.significand rank + 1) := by
    rw [← add_assoc, f.rank_eq]
  rcases (Nat.succ_le_of_lt (f.significand_lt rank)).lt_or_eq with lt | carry
  · left
    obtain ⟨step, count⟩ := shift_significand_of_count (f.full_succ rank) lt
    rw [← next] at step count
    exact ⟨step, count⟩
  · right
    have carried : rank + 1 = (f.shift rank + 1) * 2 ^ f.fractionBits + 2 ^ f.fractionBits := by
      rw [next, ← Nat.succ_eq_add_one, carry]
      ring
    obtain ⟨step, count⟩ := f.shift_significand_of_binade (f.shift rank + 1)
    rw [← carried] at step count
    exact ⟨step, count⟩

/-- The next number is one step further. -/
theorem quanta_succ (f : Format) (rank : ℕ) :
    f.quanta (rank + 1) = f.quanta rank + 2 ^ f.shift rank := by
  have next := quanta_of_count (f.full_succ rank) (f.significand_lt rank)
  rw [← add_assoc, f.rank_eq rank] at next
  rw [next, quanta, Nat.pow_eq]
  ring

theorem quanta_strictMono (f : Format) : StrictMono f.quanta :=
  strictMono_nat_of_lt_succ fun rank => by
    rw [f.quanta_succ rank]
    exact Nat.lt_add_of_pos_right (Nat.two_pow_pos _)

theorem quanta_zero (f : Format) : f.quanta 0 = 0 := by
  simp [quanta, significand]

/-- With a fraction of at least one bit a significand is even if its rank is. -/
theorem significand_mod_two (wide : 0 < f.fractionBits) (rank : ℕ) :
    f.significand rank % 2 = rank % 2 := by
  obtain ⟨k, bits⟩ := Nat.exists_eq_succ_of_ne_zero wide.ne'
  have steps := f.rank_eq rank
  rw [bits, pow_succ, ← mul_assoc] at steps
  omega

end Stencil.Number.Format
