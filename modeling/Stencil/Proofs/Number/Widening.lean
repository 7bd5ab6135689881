/-
# Stencil.Proofs.Number.Widening -- a wider format keeps the digits

The shortest decimal of a number has few digits for the width of the format
(`Format.IsShortest.lt_two_pow`), or a point of the next coarser grid would be in the rounding
interval.  In a format that is wider by some bits the numbers that round alike differ by less than
a unit in the last of so few digits (`Format.Rounds.mul_abs_sub_le`).  So the decimal is alone on
its grid in reading back as the number that it is read as there, and is that number's shortest as
well (`Format.IsShortest.widen`).

Hence a number of 32 bits has the same text before and after it is widened through its text
(`Value.toMarkup_ofSingle`), subnormal numbers and powers of two included.
-/
import Stencil.Proofs.Number.Shortest
import Stencil.Value.Basic

set_option autoImplicit false

namespace Stencil

namespace Number

theorem Decimal.ofPower_value (k : ℕ) (e : ℤ) :
    ((Decimal.ofPower k e).units : ℚ) / (Nat.pow 10 (Decimal.ofPower k e).places : ℕ) =
      k * 10 ^ e := by
  rw [ofPower, Nat.pow_eq]
  split
  · next whole =>
      obtain ⟨n, rfl⟩ := Int.eq_ofNat_of_zero_le whole
      simp
  · next fraction =>
      obtain ⟨n, rfl⟩ : ∃ n : ℕ, e = -n := ⟨(-e).toNat, by omega⟩
      simp [div_eq_mul_inv]

namespace Format

variable {f g : Format}

/-! ## Few digits -/

/-- An interval that is longer than a step has a multiple of the step inside. -/
theorem exists_multiple_between {a b step : ℚ} (nonneg : 0 ≤ a) (pos : 0 < step)
    (long : step < b - a) : ∃ k : ℕ, a < k * step ∧ k * step < b := by
  have below := Nat.floor_le (div_nonneg nonneg pos.le)
  have above := Nat.lt_floor_add_one (a / step)
  rw [le_div_iff₀ pos] at below
  rw [div_lt_iff₀ pos] at above
  refine ⟨⌊a / step⌋₊ + 1, ?_, ?_⟩
  · push_cast
    exact above
  · push_cast
    linarith

/-- The middles to the neighbours are at least three quarters of a step apart. -/
theorem three_quarters_le (f : Format) (low : ℕ) :
    3 / 4 * f.step (low + 1) ≤ f.middle (low + 1) - f.middle low := by
  have before := f.value_succ low
  have next := f.value_succ (low + 1)
  have half := (f.step_succ low).2
  rw [middle, middle]
  linarith

/-- A shortest decimal has few digits: it is less than so many bits. -/
theorem IsShortest.lt_two_pow {rank k : ℕ} {e : ℤ} (pos : 0 < rank)
    (shortest : f.IsShortest rank k e) : k < 2 ^ (f.fractionBits + 5) := by
  obtain ⟨low, rfl⟩ := Nat.exists_eq_add_one.2 pos
  have unit : (0 : ℚ) < 10 ^ e := by positivity
  have next_unit : (10 : ℚ) ^ (e + 1) = 10 ^ e * 10 := zpow_add_one₀ (by norm_num) e
  -- a longer interval would have a point of the next coarser grid
  have narrow : f.middle (low + 1) - f.middle low ≤ 10 ^ (e + 1) := by
    by_contra long
    obtain ⟨k', above, below⟩ :=
      exists_multiple_between (f.middle_nonneg low) (by positivity) (not_le.1 long)
    have grid := shortest.coarsest (rounds_of_between above below)
    omega
  have step_le : f.step (low + 1) ≤ 40 / 3 * 10 ^ e := by
    have wide := f.three_quarters_le low
    linarith
  have short : (k : ℚ) * 10 ^ e ≤ 2 ^ (f.fractionBits + 1) * f.step (low + 1) := by
    have top := shortest.rounds.le_middle
    have next := f.value_succ (low + 1)
    have steps := f.value_eq_steps (low + 1)
    have few : (f.significand (low + 1) + 1 : ℚ) ≤ 2 ^ (f.fractionBits + 1) := by
      exact_mod_cast f.significand_lt (low + 1)
    have count := mul_le_mul_of_nonneg_right few (f.step_pos (low + 1)).le
    have positive := f.step_pos (low + 1)
    rw [middle] at top
    linarith
  have digits : (k : ℚ) * 10 ^ e < 2 ^ (f.fractionBits + 5) * 10 ^ e := by
    calc (k : ℚ) * 10 ^ e ≤ 2 ^ (f.fractionBits + 1) * (40 / 3 * 10 ^ e) :=
          short.trans (mul_le_mul_of_nonneg_left step_le (by positivity))
      _ < 2 ^ (f.fractionBits + 1) * (16 * 10 ^ e) := by gcongr; norm_num
      _ = 2 ^ (f.fractionBits + 5) * 10 ^ e := by ring
  exact_mod_cast lt_of_mul_lt_mul_right digits unit.le

/-- A shortest decimal does not end in a zero. -/
theorem IsShortest.not_dvd {rank k : ℕ} {e : ℤ} (shortest : f.IsShortest rank k e) :
    ¬ 10 ∣ k := by
  rintro ⟨k', rfl⟩
  have same : ((10 * k' : ℕ) : ℚ) * 10 ^ e = k' * 10 ^ (e + 1) := by
    rw [zpow_add_one₀ (by norm_num)]
    push_cast
    ring
  have rounds := shortest.rounds
  rw [same] at rounds
  have grid := shortest.coarsest rounds
  omega

/-! ## Numbers that round alike -/

theorem le_significand_of_le {rank : ℕ} (normal : 2 ^ f.fractionBits ≤ rank) :
    2 ^ f.fractionBits ≤ f.significand rank := by
  by_cases least : f.shift rank = 0
  · have steps := f.rank_eq rank
    rw [least, zero_mul, zero_add] at steps
    rwa [steps]
  · exact f.le_significand least

/-- Two numbers that round to a number with a full significand differ by a small part of
themselves. -/
theorem Rounds.mul_abs_sub_le {x y : ℚ} {rank : ℕ} (normal : 2 ^ f.fractionBits ≤ rank)
    (rounds : f.Rounds x rank) (rounds' : f.Rounds y rank) :
    (2 ^ f.fractionBits - 1) * |y - x| ≤ x := by
  have pos : 0 < rank := (Nat.two_pow_pos _).trans_le normal
  have full : (2 ^ f.fractionBits : ℚ) ≤ f.significand rank := by
    exact_mod_cast le_significand_of_le normal
  have positive := f.step_pos rank
  obtain ⟨above, below⟩ := abs_le.1 (rounds.abs_sub_le pos)
  obtain ⟨above', below'⟩ := abs_le.1 (rounds'.abs_sub_le pos)
  have close : |y - x| ≤ f.step rank := by
    rw [abs_le]
    constructor <;> linarith
  have some_bits : (1 : ℚ) ≤ 2 ^ f.fractionBits := one_le_pow₀ (by norm_num)
  calc (2 ^ f.fractionBits - 1) * |y - x| ≤ (2 ^ f.fractionBits - 1) * f.step rank :=
        mul_le_mul_of_nonneg_left close (sub_nonneg.2 some_bits)
    _ ≤ (f.significand rank - 1) * f.step rank := by gcongr
    _ ≤ x := by
        rw [sub_mul, ← f.value_eq_steps]
        linarith

/-- The shortest decimal of a number is also that of the number it is read as in a wider format,
if that is not subnormal. -/
theorem IsShortest.widen {rank wide k : ℕ} {e : ℤ} (pos : 0 < rank)
    (shortest : f.IsShortest rank k e) (wider : f.fractionBits + 6 ≤ g.fractionBits)
    (normal : 2 ^ g.fractionBits ≤ wide) (rounds : g.Rounds (k * 10 ^ e) wide) :
    g.IsShortest wide k e := by
  refine isShortest_of_close ((Nat.two_pow_pos _).trans_le normal) rounds shortest.not_dvd
    fun x rounds' => ?_
  have unit : (0 : ℚ) < 10 ^ e := by positivity
  have few : (k : ℚ) < 2 ^ g.fractionBits - 1 := by
    have digits := shortest.lt_two_pow pos
    have bits : 2 ^ (f.fractionBits + 6) ≤ 2 ^ g.fractionBits :=
      Nat.pow_le_pow_right Nat.two_pos wider
    have natural : k + 1 < 2 ^ g.fractionBits := by
      rw [pow_succ] at bits
      omega
    rw [lt_sub_iff_add_lt]
    exact_mod_cast natural
  by_contra far
  have near := rounds.mul_abs_sub_le normal rounds'
  have apart : (2 ^ g.fractionBits - 1) * (10 : ℚ) ^ e ≤
      (2 ^ g.fractionBits - 1) * |x - k * 10 ^ e| :=
    mul_le_mul_of_nonneg_left (not_lt.1 far) (k.cast_nonneg.trans few.le)
  have less := mul_lt_mul_of_pos_right few unit
  linarith

/-! ## From 32 bits to 64 -/

/-- What rounds to a finite single above zero is not too great for a double. -/
theorem Rounds.le_of_single {x : ℚ} {rank : ℕ} (finite : rank < single.ranks)
    (rounds : single.Rounds x rank) : x ≤ 2 ^ 128 := by
  have exponent : 254 + single.fractionBits = 128 + single.scale := by decide
  have count : single.ranks = 254 * 2 ^ single.fractionBits + 2 ^ single.fractionBits := by decide
  have top : single.value single.ranks = 2 ^ 128 := by
    rw [count, value_binade, exponent, pow_add, mul_div_cancel_right₀ _ (by positivity)]
  have next := single.value_strictMono.monotone (Nat.succ_le_of_lt finite)
  have below := single.value_strictMono rank.lt_succ_self
  have short := rounds.le_middle
  rw [top] at next
  rw [middle] at short
  linarith

/-- Nor is it too small: half of the least single is still a normal double. -/
theorem Rounds.normal_of_single {x : ℚ} {rank wide : ℕ} (pos : 0 < rank)
    (rounds : single.Rounds x rank) (rounds' : double.Rounds x wide) :
    2 ^ double.fractionBits ≤ wide := by
  obtain ⟨low, rfl⟩ := Nat.exists_eq_add_one.2 pos
  have exponent : double.scale = 1022 + (0 + double.fractionBits) := by decide
  have first :
      double.value (0 * 2 ^ double.fractionBits + 2 ^ double.fractionBits) = (2 ^ 1022)⁻¹ := by
    rw [value_binade, exponent, pow_add 2 1022, div_mul_cancel_right₀ (by positivity)]
  have quantum : single.shift 0 = 0 ∧ single.scale = 149 := by decide
  have half : single.middle 0 = (2 ^ 150)⁻¹ := by
    rw [middle, value_succ, value_zero, step, quantum.1, quantum.2]
    norm_num
  have normal := rounds'.le_rank (a := 0 * 2 ^ double.fractionBits + 2 ^ double.fractionBits) <| by
    calc double.value (0 * 2 ^ double.fractionBits + 2 ^ double.fractionBits)
        = (2 ^ 1022)⁻¹ := first
      _ ≤ (2 ^ 150)⁻¹ :=
          inv_anti₀ (by positivity) (pow_le_pow_right₀ (by norm_num) (by norm_num))
      _ = single.middle 0 := half.symm
      _ ≤ single.middle low := single.middle_strictMono.monotone (Nat.zero_le low)
      _ ≤ x := rounds.middle_le
  rwa [zero_mul, zero_add] at normal

end Format

/-- The double of the shortest decimal of a single has the same shortest decimal. -/
theorem Binary.exists_widen_eq (negative : Bool) (rank : Fin Format.single.ranks)
    (nonzero : rank.val ≠ 0) :
    ∃ (k : ℕ) (e : ℤ) (wide : Fin Format.double.ranks),
      Format.single.IsShortest rank k e ∧ Format.double.Rounds (k * 10 ^ e) wide ∧
        Format.double.IsShortest wide k e ∧ wide.val ≠ 0 ∧
          widen (.finite negative rank) = .finite negative wide := by
  have pos := Nat.pos_of_ne_zero nonzero
  obtain ⟨k, e, found, shortest⟩ := Format.exists_isShortest (f := .single) pos
  have unit : 0 < Nat.pow 10 (Decimal.ofPower k e).places := Nat.pow_pos (by decide)
  have rounds :=
    Format.rounds_rankOfRatio (f := .double) (by decide) (Decimal.ofPower k e).units unit
  rw [Decimal.ofPower_value] at rounds
  have normal := shortest.rounds.normal_of_single pos rounds
  have finite := rounds.lt_ranks_double (shortest.rounds.le_of_single rank.isLt)
  refine ⟨k, e, ⟨_, finite⟩, shortest, rounds, shortest.widen pos (by decide) normal rounds,
    ((Nat.two_pow_pos _).trans_le normal).ne', ?_⟩
  rw [widen, if_neg nonzero, found, ofRatio, ofRank, dif_pos finite]

end Number

namespace Value

open Number

/-- A finite number of 32 bits other than the zeros has its own shortest decimal text as its
markup, for every sign and rank and so for every pattern of bits.  The value is the double that
is nearest to that decimal, and the decimal is the shortest of the double too. -/
theorem toMarkup_ofSingle (negative : Bool) (rank : Fin Format.single.ranks)
    (nonzero : rank.val ≠ 0) :
    ∃ (k : ℕ) (e : ℤ) (wide : Fin Format.double.ranks),
      Format.single.IsShortest rank k e ∧
        (Binary.finite negative rank : Single).text =
          (if negative then ['-'] else []) ++ (Decimal.ofPower k e).text ∧
        Binary.widen (.finite negative rank) = .finite negative wide ∧
        Format.double.Rounds (k * 10 ^ e) wide ∧ Format.double.IsShortest wide k e ∧
        (ofSingle (.finite negative rank)).toMarkup =
          (Binary.finite negative rank : Single).text := by
  obtain ⟨k, e, wide, shortest, rounds, shortest', nonzero', widened⟩ :=
    Binary.exists_widen_eq negative rank nonzero
  have text : (Binary.finite negative rank : Single).text =
      (if negative then ['-'] else []) ++ (Decimal.ofPower k e).text := by
    rw [Binary.text, if_neg nonzero, shortest.shortest_eq (Nat.pos_of_ne_zero nonzero)]
  have text' : (Binary.finite negative wide : Double).text =
      (if negative then ['-'] else []) ++ (Decimal.ofPower k e).text := by
    rw [Binary.text, if_neg nonzero', shortest'.shortest_eq (Nat.pos_of_ne_zero nonzero')]
  refine ⟨k, e, wide, shortest, text, widened, rounds, shortest', ?_⟩
  rw [ofSingle, toMarkup, widened, text', text]

/-- The single nearest to a tenth. -/
def singleTenth : Fin Format.single.ranks := ⟨0x3DCCCCCD, by decide⟩

/-- A tenth keeps its one digit. -/
theorem toMarkup_ofSingle_tenth :
    singleTenth.val ≠ 0 ∧
      (ofSingle (.finite true singleTenth)).toMarkup = ['-', '0', '.', '1'] := by
  have nonzero : singleTenth.val ≠ 0 := by decide
  obtain ⟨k, e, wide, -, -, -, -, -, markup⟩ := toMarkup_ofSingle true singleTenth nonzero
  refine ⟨nonzero, markup.trans ?_⟩
  decide +kernel

end Value

end Stencil
