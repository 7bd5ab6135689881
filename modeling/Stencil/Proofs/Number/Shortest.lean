/-
# Stencil.Proofs.Number.Shortest -- the shortest decimal that reads back

`Format.IsShortest rank k e` says what the shortest decimal `k * 10 ^ e` of a number is, in
rational numbers and without a search: it rounds to the number, no decimal with fewer digits and no
point of a coarser grid does, and on its own grid it is the nearest, of two equally near ones the
upper.  There is exactly one (`Format.IsShortest.unique`), and the search finds it
(`Format.exists_isShortest`).
-/
import Stencil.Proofs.Number.Grids
import Stencil.Proofs.Number.Rounding

set_option autoImplicit false

namespace Stencil.Number

/-- The decimal `k * 10 ^ e`. -/
def Decimal.ofPower (k : ℕ) (e : ℤ) : Decimal :=
  if 0 ≤ e then ⟨k * 10 ^ e.toNat, 0⟩ else ⟨k, (-e).toNat⟩

namespace Format

variable {f : Format}

/-- The decimal `k * 10 ^ e` is the shortest one that reads back as the number of the rank. -/
structure IsShortest (f : Format) (rank k : ℕ) (e : ℤ) : Prop where
  rounds : f.Rounds (k * 10 ^ e) rank
  /-- What reads back and has at most so many digits is not shorter. -/
  fewest : ∀ {k' n : ℕ} {e' : ℤ}, f.Rounds (k' * 10 ^ e') rank → k' < 10 ^ n → k < 10 ^ n
  coarsest : ∀ {k' : ℕ} {e' : ℤ}, f.Rounds (k' * 10 ^ e') rank → e' ≤ e
  nearest : ∀ {k' : ℕ}, f.Rounds (k' * 10 ^ e) rank →
    |k * 10 ^ e - f.value rank| ≤ |k' * 10 ^ e - f.value rank|
  upper : ∀ {k' : ℕ}, f.Rounds (k' * 10 ^ e) rank →
    |k * 10 ^ e - f.value rank| = |k' * 10 ^ e - f.value rank| → k' ≤ k

/-! ## The rounding interval -/

theorem interval_value (f : Format) (rank : ℕ) :
    (f.interval rank).value = 4 * 5 ^ f.places * f.quanta rank := by
  simp only [interval, quanta, Nat.pow_eq]
  ring

theorem interval_high (f : Format) (rank : ℕ) :
    (f.interval rank).high = 2 * 5 ^ f.places * (f.quanta rank + f.quanta (rank + 1)) := by
  rw [f.quanta_succ]
  simp only [interval, quanta, Nat.pow_eq]
  ring

/-- The step below the first number of a binade is half of the step above it, any other step is
that above. -/
theorem step_below (f : Format) (low : ℕ) :
    (if f.significand (low + 1) = 2 ^ f.fractionBits ∧ f.shift (low + 1) ≠ 0 then 1 else 2) *
      2 ^ f.shift (low + 1) = 2 * 2 ^ f.shift low := by
  rcases f.succ_cases low with ⟨step, count⟩ | ⟨step, count⟩
  · rw [if_neg, step]
    rintro ⟨first, normal⟩
    rw [step] at normal
    have full := f.le_significand normal
    omega
  · rw [if_pos ⟨count, by omega⟩, step]
    ring

theorem interval_low (f : Format) (low : ℕ) :
    (f.interval (low + 1)).low = 2 * 5 ^ f.places * (f.quanta low + f.quanta (low + 1)) := by
  have step := f.step_below low
  have next := f.quanta_succ low
  simp only [quanta, Nat.pow_eq] at next
  simp only [interval, quanta, Nat.pow_eq]
  generalize (if f.significand (low + 1) = 2 ^ f.fractionBits ∧ f.shift (low + 1) ≠ 0 then 1
    else 2) = below at step ⊢
  have lower : (4 * f.significand (low + 1) - below) * 2 ^ f.shift (low + 1) =
      2 * (f.significand low * 2 ^ f.shift low +
        f.significand (low + 1) * 2 ^ f.shift (low + 1)) := by
    rw [Nat.sub_mul, step, mul_assoc]
    omega
  linear_combination 5 ^ f.places * lower

theorem ten_pow_places (f : Format) : (10 : ℚ) ^ f.places = 4 * 2 ^ f.scale * 5 ^ f.places := by
  have ten : (10 : ℚ) = 2 * 5 := by norm_num
  rw [ten, mul_pow, places, pow_add]
  ring

theorem value_eq_interval (f : Format) (rank : ℕ) :
    f.value rank = (f.interval rank).value / 10 ^ f.places := by
  rw [value, interval_value, ten_pow_places, div_eq_div_iff (by positivity) (by positivity)]
  push_cast
  ring

theorem middle_eq_high (f : Format) (rank : ℕ) :
    f.middle rank = (f.interval rank).high / 10 ^ f.places := by
  rw [middle, value, value, interval_high, ten_pow_places, ← add_div, div_div,
    div_eq_div_iff (by positivity) (by positivity)]
  push_cast
  ring

theorem middle_eq_low (f : Format) (low : ℕ) :
    f.middle low = (f.interval (low + 1)).low / 10 ^ f.places := by
  rw [middle_eq_high, interval_high, interval_low]

/-- The interval of a number holds what rounds to the number. -/
theorem contains_interval_iff {rank : ℕ} (pos : 0 < rank) (n : ℕ) :
    (f.interval rank).contains n = true ↔ f.Rounds (n / 10 ^ f.places) rank := by
  obtain ⟨low, rfl⟩ := Nat.exists_eq_succ_of_ne_zero pos.ne'
  have unit : (0 : ℚ) < 10 ^ f.places := by positivity
  have even : (f.interval (low + 1)).closed = true ↔ Even (f.significand (low + 1)) := by
    rw [Nat.even_iff]
    exact beq_iff_eq
  have above : (∀ low', low + 1 = low' + 1 → f.middle low' < n / 10 ^ f.places ∨
      f.middle low' = n / 10 ^ f.places ∧ Even (f.significand (low + 1))) ↔
        f.middle low < n / 10 ^ f.places ∨
          f.middle low = n / 10 ^ f.places ∧ Even (f.significand (low + 1)) :=
    ⟨fun h => h low rfl, fun h _ same => (Nat.succ.inj same) ▸ h⟩
  rw [Interval.contains_iff, rounds_iff, above, middle_eq_low, middle_eq_high, even,
    div_lt_div_iff_of_pos_right unit, div_lt_div_iff_of_pos_right unit, div_left_inj' unit.ne',
    div_left_inj' unit.ne', Nat.cast_lt, Nat.cast_lt, Nat.cast_inj, Nat.cast_inj]

theorem contains_value {rank : ℕ} (pos : 0 < rank) :
    (f.interval rank).contains (f.interval rank).value = true := by
  rw [contains_interval_iff pos, ← value_eq_interval]
  exact f.rounds_value rank

theorem interval_low_pos {rank : ℕ} (pos : 0 < rank) : 0 < (f.interval rank).low := by
  obtain ⟨low, rfl⟩ := Nat.exists_eq_succ_of_ne_zero pos.ne'
  have less := f.quanta_strictMono (Nat.lt_add_one low)
  rw [interval_low]
  have sum : 0 < f.quanta low + f.quanta (low + 1) := by omega
  positivity

/-! ## Fewest digits -/

/-- What is between two numbers that round to a rank rounds to it. -/
theorem Rounds.between {rank : ℕ} {a b x : ℚ} (first : f.Rounds a rank) (second : f.Rounds b rank)
    (le : a ≤ x) (le' : x ≤ b) : f.Rounds x rank := by
  rw [rounds_iff] at *
  exact ⟨fun low next => short_of_le le (first.1 low next), beyond_of_le le' second.2⟩

theorem not_rounds_zero {rank : ℕ} (pos : 0 < rank) : ¬ f.Rounds 0 rank := fun rounds => by
  obtain ⟨low, rfl⟩ := Nat.exists_eq_succ_of_ne_zero pos.ne'
  have before := f.value_nonneg low
  have value := value_pos (f := f) pos
  have above := rounds.middle_le
  rw [middle] at above
  linarith

/-- A decimal with fewer digits would have a power of ten between it and the other, on a coarser
grid. -/
theorem fewest_of_coarsest {rank k k' n : ℕ} {e e' : ℤ} (pos : 0 < rank)
    (rounds : f.Rounds (k * 10 ^ e) rank)
    (coarsest : ∀ {k' : ℕ} {e' : ℤ}, f.Rounds (k' * 10 ^ e') rank → e' ≤ e)
    (rounds' : f.Rounds (k' * 10 ^ e') rank) (digits : k' < 10 ^ n) : k < 10 ^ n := by
  by_contra more
  have count : n ≠ 0 := by
    rintro rfl
    obtain rfl : k' = 0 := by simpa using digits
    exact not_rounds_zero pos (by simpa using rounds')
  have le : (k' : ℚ) * 10 ^ e' ≤ (1 : ℕ) * 10 ^ (n + e : ℤ) := by
    rw [zpow_add₀ (by norm_num), zpow_natCast, Nat.cast_one, one_mul]
    have fewer : (k' : ℚ) ≤ 10 ^ n := by exact_mod_cast digits.le
    have finer : (10 : ℚ) ^ e' ≤ 10 ^ e := zpow_le_zpow_right₀ (by norm_num) (coarsest rounds')
    gcongr
  have le' : ((1 : ℕ) : ℚ) * 10 ^ (n + e : ℤ) ≤ k * 10 ^ e := by
    rw [zpow_add₀ (by norm_num), zpow_natCast, Nat.cast_one, one_mul]
    have enough : (10 : ℚ) ^ n ≤ k := by exact_mod_cast not_lt.1 more
    gcongr
  have grid := coarsest (rounds'.between rounds le le')
  omega

/-- There is only one shortest decimal. -/
theorem IsShortest.unique {rank k k' : ℕ} {e e' : ℤ} (first : f.IsShortest rank k e)
    (second : f.IsShortest rank k' e') : k = k' ∧ e = e' := by
  obtain rfl : e = e' := le_antisymm (second.coarsest first.rounds) (first.coarsest second.rounds)
  have equal := le_antisymm (first.nearest second.rounds) (second.nearest first.rounds)
  exact ⟨le_antisymm (second.upper first.rounds equal.symm) (first.upper second.rounds equal), rfl⟩

/-! ## Where the grid is wide -/

/-- Two points of a grid that differ by less than its step are one. -/
theorem eq_of_close {k k' : ℕ} {e : ℤ} (close : |(k' * 10 ^ e - k * 10 ^ e : ℚ)| < 10 ^ e) :
    k' = k := by
  have unit : (0 : ℚ) < 10 ^ e := by positivity
  rw [← sub_mul, abs_mul, abs_of_pos unit, mul_lt_iff_lt_one_left unit] at close
  have whole : |(k' - k : ℤ)| < 1 := by exact_mod_cast close
  have same := Int.abs_lt_one_iff.1 whole
  omega

/-- If only one point of the grid can round to a number, and it is not on a coarser grid, then no
point of a coarser grid does. -/
theorem coarsest_of_close {rank k : ℕ} {e : ℤ} (odd_digit : ¬ 10 ∣ k)
    (close : ∀ x, f.Rounds x rank → |x - k * 10 ^ e| < 10 ^ e) {k' : ℕ} {e' : ℤ}
    (rounds : f.Rounds (k' * 10 ^ e') rank) : e' ≤ e := by
  by_contra coarser
  obtain ⟨n, rfl⟩ : ∃ n : ℕ, e' = e + (n + 1 : ℕ) := ⟨(e' - e - 1).toNat, by omega⟩
  have on_grid : (k' : ℚ) * 10 ^ (e + (n + 1 : ℕ)) = (k' * 10 ^ (n + 1) : ℕ) * 10 ^ e := by
    rw [zpow_add₀ (by norm_num), zpow_natCast]
    push_cast
    ring
  have near := close _ rounds
  rw [on_grid] at near
  refine odd_digit ⟨k' * 10 ^ n, ?_⟩
  rw [← eq_of_close near, pow_succ]
  ring

/-- A decimal that is alone on its grid in reading back is the shortest. -/
theorem isShortest_of_close {rank k : ℕ} {e : ℤ} (pos : 0 < rank)
    (rounds : f.Rounds (k * 10 ^ e) rank) (odd_digit : ¬ 10 ∣ k)
    (close : ∀ x, f.Rounds x rank → |x - k * 10 ^ e| < 10 ^ e) : f.IsShortest rank k e where
  rounds := rounds
  fewest := fewest_of_coarsest pos rounds (coarsest_of_close odd_digit close)
  coarsest := coarsest_of_close odd_digit close
  nearest := fun rounds' => by rw [eq_of_close (close _ rounds')]
  upper := fun rounds' _ => (eq_of_close (close _ rounds')).le

/-- A number that is a decimal has it as its shortest if no point of a coarser grid reads back. -/
theorem isShortest_of_value {rank k : ℕ} {e : ℤ} (pos : 0 < rank)
    (exact_value : f.value rank = k * 10 ^ e)
    (coarsest : ∀ {k' : ℕ} {e' : ℤ}, f.Rounds (k' * 10 ^ e') rank → e' ≤ e) :
    f.IsShortest rank k e where
  rounds := exact_value ▸ f.rounds_value rank
  fewest := fewest_of_coarsest pos (exact_value ▸ f.rounds_value rank) coarsest
  coarsest := coarsest
  nearest := fun _ => by
    rw [exact_value, sub_self, abs_zero]
    exact abs_nonneg _
  upper := fun {k'} _ same => by
    have unit : (0 : ℚ) < 10 ^ e := by positivity
    rw [exact_value, sub_self, abs_zero, eq_comm, abs_eq_zero, sub_eq_zero] at same
    exact (Nat.cast_injective (mul_right_cancel₀ unit.ne' same)).le

/-! ## The search -/

/-- A point of the grid `10 ^ e` in units of the interval. -/
theorem grid_point (f : Format) (k e : ℕ) :
    (k : ℚ) * 10 ^ (e - f.places : ℤ) = (k * 10 ^ e : ℕ) / 10 ^ f.places := by
  rw [zpow_sub₀ (by norm_num), zpow_natCast, zpow_natCast]
  push_cast
  ring

theorem abs_sub_value (f : Format) (rank n : ℕ) :
    |(n : ℚ) / 10 ^ f.places - f.value rank| = (f.interval rank).gap n / 10 ^ f.places := by
  rw [value_eq_interval, ← sub_div, abs_div, abs_of_pos (by positivity : (0 : ℚ) < 10 ^ f.places)]
  congr 1
  rw [Interval.gap]
  rcases Nat.le_total n (f.interval rank).value with le | ge
  · rw [Nat.sub_eq_zero_of_le le, zero_add, Nat.cast_sub le, abs_of_nonpos, neg_sub]
    exact sub_nonpos.2 (Nat.cast_le.2 le)
  · rw [Nat.sub_eq_zero_of_le ge, add_zero, Nat.cast_sub ge, abs_of_nonneg]
    exact sub_nonneg.2 (Nat.cast_le.2 ge)

theorem abs_sub_grid_point (f : Format) (rank k e : ℕ) :
    |(k : ℚ) * 10 ^ (e - f.places : ℤ) - f.value rank| =
      (f.interval rank).gap (k * 10 ^ e) / 10 ^ f.places := by
  rw [grid_point, abs_sub_value]

/-- The decimal is the grid point that the search finds. -/
theorem shortest_eq_ofPower (f : Format) (rank : ℕ) :
    f.shortest rank =
      .ofPower ((f.interval rank).coarsest (Nat.log2 (f.interval rank).high / 3 + 1)).1
        (((f.interval rank).coarsest (Nat.log2 (f.interval rank).high / 3 + 1)).2 - f.places) := by
  rw [shortest, Decimal.ofPower]
  generalize (f.interval rank).coarsest _ = found
  obtain ⟨k, e⟩ := found
  simp only [Nat.pow_eq]
  rcases lt_trichotomy e f.places with less | rfl | greater
  · rw [if_pos less.le, if_neg (by omega)]
    congr 1
    omega
  · simp
  · rw [if_neg (by omega), if_pos (by omega)]
    congr 3
    omega

/-- The search finds the shortest decimal of every number but zero. -/
theorem exists_isShortest {rank : ℕ} (pos : 0 < rank) :
    ∃ (k : ℕ) (e : ℤ), f.shortest rank = .ofPower k e ∧ f.IsShortest rank k e := by
  obtain ⟨nearest, finer⟩ := Interval.coarsest_spec (f.contains_value pos)
    (Nat.log2 (f.interval rank).high / 3 + 1)
  refine ⟨_, _, f.shortest_eq_ofPower rank, ?_⟩
  generalize ((f.interval rank).coarsest (Nat.log2 (f.interval rank).high / 3 + 1)).1 = k at *
  generalize ((f.interval rank).coarsest (Nat.log2 (f.interval rank).high / 3 + 1)).2 = e at *
  have point (k' e' : ℕ) : f.Rounds (k' * 10 ^ (e' - f.places : ℤ)) rank ↔
      (f.interval rank).contains (k' * 10 ^ e') = true := by
    rw [grid_point, contains_interval_iff pos]
  have rounds := (point k e).2 nearest.inside
  have coarsest {k' : ℕ} {e' : ℤ} (rounds' : f.Rounds (k' * 10 ^ e') rank) :
      e' ≤ e - f.places := by
    by_contra coarser
    obtain ⟨e'', rfl⟩ : ∃ e'' : ℕ, e' = e'' - f.places := ⟨(e' + f.places).toNat, by omega⟩
    have inside := (point k' e'').1 rounds'
    rcases Nat.lt_or_ge (Nat.log2 (f.interval rank).high / 3 + 1) e'' with far | within
    · exact Interval.not_contains_of_log2 (f.interval_low_pos pos) far.le k' inside
    · exact finer (by omega) within inside
  have unit : (0 : ℚ) < 10 ^ f.places := by positivity
  refine ⟨rounds, fewest_of_coarsest pos rounds coarsest, coarsest, fun {k'} rounds' => ?_,
    fun {k'} rounds' same => ?_⟩
  · rw [abs_sub_grid_point, abs_sub_grid_point, div_le_div_iff_of_pos_right unit, Nat.cast_le]
    exact nearest.nearest ((point k' e).1 rounds')
  · rw [abs_sub_grid_point, abs_sub_grid_point, div_left_inj' unit.ne', Nat.cast_inj] at same
    exact nearest.upper ((point k' e).1 rounds') same

/-- What is shortest is what the search finds. -/
theorem IsShortest.shortest_eq {rank k : ℕ} {e : ℤ} (pos : 0 < rank)
    (isShortest : f.IsShortest rank k e) : f.shortest rank = .ofPower k e := by
  obtain ⟨k', e', found, isShortest'⟩ := exists_isShortest (f := f) pos
  obtain ⟨rfl, rfl⟩ := isShortest.unique isShortest'
  exact found

end Format

end Stencil.Number
