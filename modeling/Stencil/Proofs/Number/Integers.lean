/-
# Stencil.Proofs.Number.Integers -- integers keep their digits

An integer of at most as many bits as a significand has is a number of the format
(`Format.value_rankOfRatio_of_le`), and its shortest decimal is its own numeral
(`Format.shortest_of_natural`): what else rounds to it is less than one away, or it is the power of
two where the step doubles, and then there is no multiple of ten as near.

So every integer up to that bound has its numeral as its text, whether it comes as an integer or as
a number of a JSON document (`Value.toMarkup_integer`).  A JSON number counts with the number that
it was read as; one that is written with a point or an exponent may have been rounded before.
-/
import Stencil.Proofs.Json.Integers
import Stencil.Proofs.Number.Shortest
import Stencil.Value.Basic

set_option autoImplicit false

namespace Stencil

namespace Number

/-! ## Integers are numbers of the format -/

theorem divRound_mul (c : ℕ) {d : ℕ} (pos : 0 < d) : divRound (c * d) d = c := by
  rw [divRound, Nat.mul_mod_left, Nat.mul_div_cancel c pos, if_pos (by omega)]

namespace Format

variable {f : Format}

/-- The step at an integer divides it. -/
theorem two_pow_shiftAt_dvd {n : ℕ} (le : n ≤ 2 ^ (f.fractionBits + 1)) :
    2 ^ f.shiftAt (n * 2 ^ f.scale) ∣ n * 2 ^ f.scale := by
  rcases le.lt_or_eq with lt | rfl
  · refine Dvd.dvd.mul_left (pow_dvd_pow 2 ?_) n
    by_cases none : n * 2 ^ f.scale = 0
    · rw [none, shiftAt, Nat.log2_zero]
      omega
    · have log : Nat.log2 (n * 2 ^ f.scale) < f.fractionBits + 1 + f.scale := by
        rw [Nat.log2_lt none, pow_add]
        exact Nat.mul_lt_mul_of_pos_right lt (Nat.two_pow_pos _)
      rw [shiftAt]
      omega
  · rw [← pow_add]
    refine pow_dvd_pow 2 ?_
    rw [shiftAt, Nat.log2_two_pow]
    omega

/-- An integer that fits a significand is rounded to itself. -/
theorem value_rankOfRatio_of_le {n : ℕ} (le : n ≤ 2 ^ (f.fractionBits + 1)) :
    f.value (f.rankOfRatio n 1) = n := by
  obtain ⟨full, small⟩ := f.steps_bounds (n * 2 ^ f.scale)
  obtain ⟨c, steps⟩ := exists_eq_mul_left_of_dvd (two_pow_shiftAt_dvd le)
  have pos := Nat.two_pow_pos (f.shiftAt (n * 2 ^ f.scale))
  rw [f.rankOfRatio_eq, Nat.div_one, one_mul]
  generalize f.shiftAt (n * 2 ^ f.scale) = s at *
  rw [steps, Nat.mul_div_cancel c pos] at full small
  rw [steps, divRound_mul c pos, value, quanta_of_count full small.le, ← steps]
  push_cast
  field_simp

/-! ## Their shortest decimals -/

theorem not_five_dvd_two_pow (n : ℕ) : ¬ 5 ∣ 2 ^ n := fun divides =>
  absurd (Nat.Prime.dvd_of_dvd_pow Nat.prime_five divides) (by decide)

/-- Where the step is one at most, the integer is alone among the integers that round to it. -/
theorem isShortest_of_fine_step {rank k e : ℕ} (pos : 0 < rank) (odd_digit : ¬ 10 ∣ k)
    (exact_value : f.value rank = (k * 10 ^ e : ℕ)) (fine : f.shift rank ≤ f.scale) :
    f.IsShortest rank k e := by
  have same : f.value rank = k * 10 ^ (e : ℤ) := by
    rw [exact_value, zpow_natCast]
    push_cast
    rfl
  refine isShortest_of_close pos (same ▸ f.rounds_value rank) odd_digit fun x rounds => ?_
  have step_le : f.step rank ≤ 1 := by
    rw [step, div_le_one (by positivity)]
    exact pow_le_pow_right₀ (by norm_num) fine
  have unit : (1 : ℚ) ≤ 10 ^ (e : ℤ) := by
    rw [zpow_natCast]
    exact one_le_pow₀ (by norm_num)
  have near := rounds.abs_sub_le pos
  rw [same] at near
  linarith

/-- The power of two where the step becomes two: one more rounds to it as well, but there is no
multiple of ten so near. -/
theorem isShortest_of_double_step {rank : ℕ} (pos : 0 < rank)
    (exact_value : f.value rank = (2 ^ (f.fractionBits + 1) : ℕ))
    (doubled : f.shift rank = f.scale + 1) :
    f.IsShortest rank (2 ^ (f.fractionBits + 1)) 0 := by
  refine isShortest_of_value pos (by rw [exact_value, zpow_zero, mul_one]) ?_
  intro k' e' rounds
  by_contra coarser
  obtain ⟨n, rfl⟩ : ∃ n : ℕ, e' = (n + 1 : ℕ) := ⟨(e' - 1).toNat, by omega⟩
  have near := rounds.abs_sub_le pos
  have two : f.step rank / 2 = 1 := by
    rw [step, doubled, pow_succ]
    field_simp
  rw [two, exact_value, zpow_natCast] at near
  have near' : |(k' * 10 ^ (n + 1) - 2 ^ (f.fractionBits + 1) : ℤ)| ≤ 1 := by exact_mod_cast near
  -- both are even, so they are equal
  have even : (k' * 10 ^ (n + 1) - 2 ^ (f.fractionBits + 1) : ℤ) =
      2 * (k' * 10 ^ n * 5 - 2 ^ f.fractionBits) := by ring
  rw [even] at near'
  have equal : (k' * 10 ^ n * 5 : ℤ) = 2 ^ f.fractionBits := by
    rw [abs_le] at near'
    omega
  exact not_five_dvd_two_pow f.fractionBits ⟨k' * 10 ^ n, by zify; linarith⟩

/-- Where the step is greater than one, an integer that fits a significand is the least power of two
there. -/
theorem eq_two_pow_of_coarse_step {rank n : ℕ} (le : n ≤ 2 ^ (f.fractionBits + 1))
    (exact_value : f.value rank = n) (coarse : f.scale < f.shift rank) :
    n = 2 ^ (f.fractionBits + 1) ∧ f.shift rank = f.scale + 1 := by
  obtain ⟨t, step⟩ := Nat.exists_eq_add_of_lt coarse
  have full := f.le_significand (Nat.ne_zero_of_lt coarse)
  have count : f.significand rank * 2 ^ (t + 1) = n := by
    rw [value, div_eq_iff (by positivity), quanta, step, Nat.pow_eq] at exact_value
    have natural : f.significand rank * 2 ^ (f.scale + t + 1) = n * 2 ^ f.scale := by
      exact_mod_cast exact_value
    refine Nat.eq_of_mul_eq_mul_right (Nat.two_pow_pos f.scale) (natural ▸ ?_)
    ring
  have power : 2 ^ (f.fractionBits + 1) ≤ 2 ^ f.fractionBits * 2 ^ (t + 1) := by
    rw [← pow_add]
    exact Nat.pow_le_pow_right Nat.two_pos (by omega)
  have least := Nat.mul_le_mul_right (2 ^ (t + 1)) full
  have equal : n = 2 ^ (f.fractionBits + 1) := by omega
  refine ⟨equal, ?_⟩
  have exponent : 2 ^ (f.fractionBits + (t + 1)) ≤ 2 ^ (f.fractionBits + 1) := by
    rw [pow_add]
    omega
  have := (Nat.pow_le_pow_iff_right Nat.one_lt_two).1 exponent
  omega

theorem isShortest_of_natural {rank k e : ℕ} (pos : 0 < rank) (odd_digit : ¬ 10 ∣ k)
    (le : k * 10 ^ e ≤ 2 ^ (f.fractionBits + 1))
    (exact_value : f.value rank = (k * 10 ^ e : ℕ)) : f.IsShortest rank k e := by
  rcases Nat.lt_or_ge f.scale (f.shift rank) with coarse | fine
  · obtain ⟨power, step⟩ := eq_two_pow_of_coarse_step le exact_value coarse
    cases e with
    | zero =>
        rw [pow_zero, mul_one] at power exact_value
        rw [power] at exact_value ⊢
        exact isShortest_of_double_step pos exact_value step
    | succ e => exact absurd ⟨k * 10 ^ e * 2, by rw [← power]; ring⟩ (not_five_dvd_two_pow _)
  · exact isShortest_of_fine_step pos odd_digit exact_value fine

/-- The shortest decimal of an integer that fits a significand is the integer. -/
theorem shortest_of_natural {rank n : ℕ} (pos : 0 < rank) (le : n ≤ 2 ^ (f.fractionBits + 1))
    (exact_value : f.value rank = n) : f.shortest rank = ⟨n, 0⟩ := by
  have nonzero : n ≠ 0 := by
    rintro rfl
    exact (value_pos pos).ne' (exact_value.trans Nat.cast_zero)
  obtain ⟨e, k, odd_digit, rfl⟩ := Nat.exists_eq_pow_mul_and_not_dvd nonzero 10 (by decide)
  rw [mul_comm] at le exact_value ⊢
  rw [(isShortest_of_natural pos odd_digit le exact_value).shortest_eq pos, Decimal.ofPower,
    if_pos (Int.natCast_nonneg e), Int.toNat_natCast]

end Format

/-! ## Their texts -/

namespace Binary

variable {f : Format}

/-- The rational number that a finite number is. -/
def value? : Binary f → Option ℚ
  | .finite negative rank => some (if negative then -f.value rank else f.value rank)
  | _ => none

/-- The text of an integer is its numeral. -/
theorem text_of_integer {x : Binary f} {n : ℤ} (small : n.natAbs ≤ 2 ^ (f.fractionBits + 1))
    (holds : x.value? = some (n : ℚ)) : x.text = Text.integer n := by
  cases x with
  | nan => cases holds
  | infinite negative => cases holds
  | finite negative rank =>
      have same : (if negative then -f.value rank else f.value rank) = n := Option.some.inj holds
      have magnitude : f.value rank = n.natAbs := by
        have nonneg := f.value_nonneg rank
        rw [Nat.cast_natAbs, Int.cast_abs, ← same]
        cases negative
        · exact (abs_of_nonneg nonneg).symm
        · exact (abs_of_nonneg nonneg).symm.trans (abs_neg _).symm
      rw [text]
      split
      · next zero =>
          rw [zero, f.value_zero, eq_comm, Nat.cast_eq_zero, Int.natAbs_eq_zero] at magnitude
          rw [magnitude]
          decide
      · next nonzero =>
          have pos := Nat.pos_of_ne_zero nonzero
          have above := Format.value_pos (f := f) pos
          have sign : negative = true ↔ n < 0 := by
            rw [← Int.cast_lt_zero (R := ℚ), ← same]
            cases negative
            · simpa using above.le
            · simpa using above
          rw [Format.shortest_of_natural pos small magnitude, Decimal.text, if_pos rfl,
            Text.integer]
          simp only [sign]

/-- The double of an integer that fits a significand is the integer. -/
theorem value?_ofInt {n : ℤ} (small : n.natAbs ≤ 2 ^ 53) :
    (ofInt Format.double n).value? = some (n : ℚ) := by
  have exact_value := Format.value_rankOfRatio_of_le (f := Format.double) small
  have rounds := Format.rounds_value Format.double (Format.double.rankOfRatio n.natAbs 1)
  have within : (n.natAbs : ℚ) ≤ 2 ^ 128 := by
    have bound : (n.natAbs : ℚ) ≤ 2 ^ 53 := by exact_mod_cast small
    exact bound.trans (pow_le_pow_right₀ (by norm_num) (by norm_num))
  rw [exact_value] at rounds
  rw [ofInt, ofRatio, ofRank, dif_pos (rounds.lt_ranks_double within), value?, exact_value,
    Nat.cast_natAbs, Int.cast_abs]
  congr 1
  split
  · next negative =>
      rw [decide_eq_true_eq] at negative
      rw [abs_of_neg (Int.cast_lt_zero.2 negative), neg_neg]
  · next positive =>
      rw [decide_eq_true_eq, not_lt] at positive
      exact abs_of_nonneg (Int.cast_nonneg positive)

end Binary

end Number

/-- The rational number that a JSON number is. -/
def Json.Number.value? : Json.Number → Option ℚ
  | .whole n => some n
  | .real x => x.value?

theorem Json.Number.value?_toDouble {j : Json.Number} {n : ℤ} (small : n.natAbs ≤ 2 ^ 53)
    (holds : j.value? = some (n : ℚ)) : j.toDouble.value? = some (n : ℚ) := by
  cases j with
  | whole m =>
      obtain rfl : m = n := Int.cast_injective (Option.some.inj holds)
      exact Number.Binary.value?_ofInt small
  | real x => exact holds

namespace Value

/-- An integer up to `2 ^ 53` either way has its numeral as its markup and as its text, also as
the number of a JSON document; and its numeral is the JSON text of such a document. -/
theorem toMarkup_integer (n : ℤ) (small : n.natAbs ≤ 2 ^ 53) :
    (ofInt n).toMarkup = Text.integer n ∧ (ofInt n).toText = Text.integer n ∧
      (∀ j : Json.Number, j.value? = some (n : ℚ) →
        (ofJson (.number j)).toMarkup = Text.integer n ∧
          (ofJson (.number j)).toText = Text.integer n) ∧
      Json.ofText? (Text.integer n) = some (.number (.whole n)) := by
  have text : (Number.Binary.ofInt Number.Format.double n).text = Text.integer n :=
    Number.Binary.text_of_integer small (Number.Binary.value?_ofInt small)
  refine ⟨text, text, fun j holds => ?_, Json.ofText?_integer (by omega) (by omega)⟩
  have same : j.toDouble.text = Text.integer n :=
    Number.Binary.text_of_integer small (Json.Number.value?_toDouble small holds)
  exact ⟨same, same⟩

/-- The least of these integers, where the step of the doubles becomes two. -/
theorem toMarkup_last_integer :
    (-9007199254740992 : ℤ).natAbs ≤ 2 ^ 53 ∧
      (Json.Number.whole (-9007199254740992)).value? = some ((-9007199254740992 : ℤ) : ℚ) ∧
      (ofInt (-9007199254740992)).toMarkup =
        ['-', '9', '0', '0', '7', '1', '9', '9', '2', '5', '4', '7', '4', '0', '9', '9', '2'] ∧
      (ofJson (.number (.whole (-9007199254740992)))).toText =
        ['-', '9', '0', '0', '7', '1', '9', '9', '2', '5', '4', '7', '4', '0', '9', '9', '2'] := by
  have small : (-9007199254740992 : ℤ).natAbs ≤ 2 ^ 53 := by decide
  obtain ⟨markup, -, json, -⟩ := toMarkup_integer (-9007199254740992) small
  exact ⟨small, rfl, markup, (json (.whole (-9007199254740992)) rfl).2⟩

end Value

end Stencil
