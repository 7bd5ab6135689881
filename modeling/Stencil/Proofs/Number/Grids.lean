/-
# Stencil.Proofs.Number.Grids -- points of a grid in a rounding interval

An interval is convex and holds its number, so a point of a grid that is in it is no nearer to the
number than one of the two grid points around the number.  The search looks at these two only, and
misses no grid that has a point in the interval (`Interval.coarsest_spec`).  It starts with a grid
that is too coarse for the interval (`Interval.not_contains_of_log2`).
-/
import Stencil.Proofs.Number.Ranks

set_option autoImplicit false

namespace Stencil.Number.Interval

variable {i : Interval}

theorem contains_iff {n : ℕ} : i.contains n = true ↔
    (i.low < n ∨ i.low = n ∧ i.closed = true) ∧ (n < i.high ∨ n = i.high ∧ i.closed = true) := by
  cases closed : i.closed <;> simp [contains, closed, le_iff_lt_or_eq]

/-- An interval is convex. -/
theorem contains_of_between {a b n : ℕ} (first : i.contains a = true)
    (second : i.contains b = true) (le : a ≤ n) (le' : n ≤ b) : i.contains n = true := by
  rw [contains_iff] at first second ⊢
  grind

/-- How far a point is from the number. -/
def gap (i : Interval) (n : ℕ) : ℕ := (n - i.value) + (i.value - n)

/-- A multiple of the step that is in the interval: no other is nearer to the number, and of two
equally near ones it is the upper. -/
structure IsNearest (i : Interval) (step k : ℕ) : Prop where
  inside : i.contains (k * step) = true
  nearest : ∀ {k' : ℕ}, i.contains (k' * step) = true → i.gap (k * step) ≤ i.gap (k' * step)
  upper : ∀ {k' : ℕ}, i.contains (k' * step) = true →
    i.gap (k * step) = i.gap (k' * step) → k' ≤ k

/-! ## One grid -/

section Search

variable {step : ℕ} (pos : 0 < step)

include pos in
/-- The two neighbours of the number on the grid. -/
theorem neighbours (i : Interval) :
    i.value / step * step + i.value % step = i.value ∧ i.value % step < step ∧
      (i.value / step + 1) * step = i.value / step * step + step :=
  ⟨Nat.div_add_mod' i.value step, Nat.mod_lt i.value pos, Nat.succ_mul _ _⟩

/-- A multiple of the step is at most the lower or at least the upper neighbour. -/
theorem not_between (i : Interval) (step k' : ℕ) :
    k' ≤ i.value / step ∧ k' * step ≤ i.value / step * step ∨
      i.value / step < k' ∧ (i.value / step + 1) * step ≤ k' * step := by
  rcases Nat.lt_or_ge (i.value / step) k' with greater | le
  · exact .inr ⟨greater, Nat.mul_le_mul_right _ greater⟩
  · exact .inl ⟨le, Nat.mul_le_mul_right _ le⟩

variable (holds : i.contains i.value = true)
include pos holds

/-- A grid that has a point in the interval has a neighbour of the number there. -/
theorem contains_neighbour {k' : ℕ} (inside : i.contains (k' * step) = true) :
    k' ≤ i.value / step ∧ i.contains (i.value / step * step) = true ∨
      i.value / step < k' ∧ i.contains ((i.value / step + 1) * step) = true := by
  obtain ⟨whole, rest, next⟩ := neighbours pos i
  rcases not_between i step k' with ⟨side, le⟩ | ⟨side, ge⟩
  · exact .inl ⟨side, contains_of_between inside holds le (by omega)⟩
  · exact .inr ⟨side, contains_of_between holds inside (by omega) ge⟩

theorem isNearest_lower (inside : i.contains (i.value / step * step) = true)
    (nearer : i.contains ((i.value / step + 1) * step) = true → 2 * (i.value % step) < step) :
    i.IsNearest step (i.value / step) := by
  obtain ⟨whole, rest, next⟩ := neighbours pos i
  have preferred {k' : ℕ} (other : i.contains (k' * step) = true) (greater : i.value / step < k') :
      i.gap (i.value / step * step) < i.gap (k' * step) := by
    have close := nearer (contains_of_between holds other (by omega)
      (Nat.mul_le_mul_right _ greater))
    have far := Nat.mul_le_mul_right step greater
    simp only [gap, Nat.succ_eq_add_one] at far ⊢
    omega
  refine ⟨inside, fun {k'} other => ?_, fun {k'} other same => ?_⟩
  · rcases not_between i step k' with ⟨-, le⟩ | ⟨greater, -⟩
    · simp only [gap]
      omega
    · exact (preferred other greater).le
  · by_contra greater
    exact (preferred other (not_le.1 greater)).ne same

theorem isNearest_upper (inside : i.contains ((i.value / step + 1) * step) = true)
    (nearer : i.contains (i.value / step * step) = true → step ≤ 2 * (i.value % step)) :
    i.IsNearest step (i.value / step + 1) := by
  obtain ⟨whole, rest, next⟩ := neighbours pos i
  refine ⟨inside, fun {k'} other => ?_, fun {k'} other same => ?_⟩
  · rcases not_between i step k' with ⟨-, le⟩ | ⟨-, ge⟩
    · have close := nearer (contains_of_between other holds le (by omega))
      simp only [gap]
      omega
    · simp only [gap]
      omega
  · rcases not_between i step k' with ⟨le, -⟩ | ⟨greater, ge⟩
    · exact le.trans (Nat.le_succ _)
    · -- a point further up is further off
      have equal : k' * step = (i.value / step + 1) * step := by
        simp only [gap] at same
        omega
      exact (Nat.eq_of_mul_eq_mul_right pos equal).le

/-- What is found on a grid is nearest. -/
theorem isNearest_of_nearest? {k : ℕ} (found : i.nearest? step = some k) : i.IsNearest step k := by
  simp only [nearest?] at found
  split at found
  · next lower upper =>
      split at found
      · next nearer =>
          obtain rfl := Option.some.inj found
          exact isNearest_lower pos holds lower fun _ => nearer
      · next farther =>
          obtain rfl := Option.some.inj found
          exact isNearest_upper pos holds upper fun _ => not_lt.1 farther
  · next lower upper =>
      obtain rfl := Option.some.inj found
      exact isNearest_lower pos holds lower fun inside => by simp [inside] at upper
  · next lower upper =>
      obtain rfl := Option.some.inj found
      exact isNearest_upper pos holds upper fun inside => by simp [inside] at lower
  · cases found

/-- A grid on which nothing is found has no point in the interval. -/
theorem not_contains_of_nearest? (none_found : i.nearest? step = none) (k' : ℕ) :
    ¬ i.contains (k' * step) = true := fun inside => by
  simp only [nearest?] at none_found
  rcases contains_neighbour pos holds inside with ⟨-, lower⟩ | ⟨-, upper⟩
  · split at none_found <;> simp_all
  · split at none_found <;> simp_all

end Search

/-! ## All grids -/

/-- The grid of the search is the coarsest that it looked at, and on it the nearest point is
taken. -/
theorem coarsest_spec (holds : i.contains i.value = true) : ∀ e : ℕ,
    i.IsNearest (10 ^ (i.coarsest e).2) (i.coarsest e).1 ∧
      ∀ {k' e' : ℕ}, (i.coarsest e).2 < e' → e' ≤ e → ¬ i.contains (k' * 10 ^ e') = true
  | 0 => by
      refine ⟨⟨by simpa [coarsest] using holds, fun _ => ?_, fun _ same => ?_⟩, fun lt le => ?_⟩
      · simp [coarsest, gap]
      · simp [coarsest, gap] at same ⊢
        omega
      · omega
  | e + 1 => by
      have pos : 0 < 10 ^ (e + 1) := by positivity
      simp only [coarsest, Nat.pow_eq]
      split
      · next k found => exact ⟨isNearest_of_nearest? pos holds found, fun lt le => by omega⟩
      · next none_found =>
          obtain ⟨nearest, coarser⟩ := coarsest_spec holds e
          refine ⟨nearest, fun {k' e'} lt le => ?_⟩
          rcases le.lt_or_eq with smaller | rfl
          · exact coarser lt (Nat.lt_succ_iff.1 smaller)
          · exact not_contains_of_nearest? pos holds none_found k'

/-- The search starts at a grid that has no point in an interval above zero. -/
theorem not_contains_of_log2 (above : 0 < i.low) {e : ℕ} (start : Nat.log2 i.high / 3 + 1 ≤ e)
    (k' : ℕ) : ¬ i.contains (k' * 10 ^ e) = true := fun inside => by
  obtain ⟨lower, upper⟩ := contains_iff.1 inside
  have some_multiple : k' ≠ 0 := by
    rintro rfl
    omega
  have high : i.high < 10 ^ e := by
    calc i.high < 2 ^ (Nat.log2 i.high + 1) := Nat.lt_log2_self
      _ ≤ 2 ^ (3 * e) := Nat.pow_le_pow_right Nat.two_pos (by omega)
      _ = 8 ^ e := by rw [pow_mul]; norm_num
      _ ≤ 10 ^ e := Nat.pow_le_pow_left (by norm_num) e
  have least := Nat.le_mul_of_pos_left (10 ^ e) (Nat.pos_of_ne_zero some_multiple)
  omega

end Stencil.Number.Interval
