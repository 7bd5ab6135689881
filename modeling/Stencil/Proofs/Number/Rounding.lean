/-
# Stencil.Proofs.Number.Rounding -- every ratio is rounded to the nearest number

`Format.Rounds x rank` says that no number of the format is nearer to `x` than the number of the
rank, and that of two equally near ones it has the even significand; ranks go on above that of
infinity, as the exponent of an overflowing number does.  The numbers that round to a rank are
those between the middles to its neighbours (`Format.rounds_iff`), and rounding a ratio finds the
rank that it rounds to, and no other (`Format.rankOfRatio_eq_iff`).
-/
import Stencil.Proofs.Number.Ranks

set_option autoImplicit false

namespace Stencil.Number

namespace Format

variable {f : Format}

/-- The rational number of a rank. -/
def value (f : Format) (rank : ℕ) : ℚ := f.quanta rank / 2 ^ f.scale

/-- How far it is from the number of a rank to the next. -/
def step (f : Format) (rank : ℕ) : ℚ := 2 ^ f.shift rank / 2 ^ f.scale

/-- Half way from a number to the next. -/
def middle (f : Format) (rank : ℕ) : ℚ := (f.value rank + f.value (rank + 1)) / 2

/-- The number of the rank is the nearest one, and of two nearest ones the even one. -/
def Rounds (f : Format) (x : ℚ) (rank : ℕ) : Prop :=
  ∀ other, other ≠ rank → |x - f.value rank| < |x - f.value other| ∨
    |x - f.value rank| = |x - f.value other| ∧ Even (f.significand rank)

theorem value_strictMono (f : Format) : StrictMono f.value := fun a b lt =>
  div_lt_div_of_pos_right (Nat.cast_lt.2 (f.quanta_strictMono lt)) (by positivity)

theorem value_zero (f : Format) : f.value 0 = 0 := by
  rw [value, f.quanta_zero, Nat.cast_zero, zero_div]

theorem value_nonneg (f : Format) (rank : ℕ) : 0 ≤ f.value rank := by
  rw [value]
  positivity

theorem value_pos {rank : ℕ} (pos : 0 < rank) : 0 < f.value rank :=
  f.value_zero.symm.trans_lt (f.value_strictMono pos)

theorem middle_nonneg (f : Format) (rank : ℕ) : 0 ≤ f.middle rank := by
  have first := f.value_nonneg rank
  have second := f.value_nonneg (rank + 1)
  rw [middle]
  linarith

theorem step_pos (f : Format) (rank : ℕ) : 0 < f.step rank := by
  rw [step]
  positivity

/-- A number is so many steps. -/
theorem value_eq_steps (f : Format) (rank : ℕ) :
    f.value rank = f.significand rank * f.step rank := by
  rw [value, step, quanta, Nat.pow_eq]
  push_cast
  ring

theorem value_succ (f : Format) (rank : ℕ) : f.value (rank + 1) = f.value rank + f.step rank := by
  rw [value, value, step, f.quanta_succ, Nat.cast_add, add_div]
  push_cast
  rfl

/-- From one number to the next the step stays or is doubled. -/
theorem step_succ (f : Format) (rank : ℕ) :
    f.step rank ≤ f.step (rank + 1) ∧ f.step (rank + 1) ≤ 2 * f.step rank := by
  have pos := f.step_pos rank
  rcases f.succ_cases rank with ⟨shift, -⟩ | ⟨shift, -⟩
  · have same : f.step (rank + 1) = f.step rank := by rw [step, step, shift]
    constructor <;> linarith
  · have doubled : f.step (rank + 1) = 2 * f.step rank := by
      rw [step, step, shift, pow_succ]
      ring
    constructor <;> linarith

/-- The first number of a binade is a power of two. -/
theorem value_binade (f : Format) (s : ℕ) :
    f.value (s * 2 ^ f.fractionBits + 2 ^ f.fractionBits) =
      2 ^ (s + f.fractionBits) / 2 ^ f.scale := by
  obtain ⟨shift, significand⟩ := f.shift_significand_of_binade s
  rw [value_eq_steps, step, shift, significand, pow_add]
  push_cast
  ring

/-! ## Between two middles -/

theorem abs_sub_lt_iff {x a b : ℚ} (lt : a < b) : |x - a| < |x - b| ↔ x < (a + b) / 2 := by
  rw [← sq_lt_sq]
  constructor <;> intro h <;> nlinarith

theorem abs_sub_eq_iff {x a b : ℚ} (lt : a < b) : |x - a| = |x - b| ↔ x = (a + b) / 2 := by
  rw [abs_eq_abs]
  constructor
  · rintro (h | h) <;> linarith
  · intro h
    right
    linarith

/-- A number is preferred to a greater one below the middle of both. -/
theorem preferred_to_greater_iff {x a b : ℚ} {P : Prop} (lt : a < b) :
    (|x - a| < |x - b| ∨ |x - a| = |x - b| ∧ P) ↔ x < (a + b) / 2 ∨ x = (a + b) / 2 ∧ P := by
  rw [abs_sub_lt_iff lt, abs_sub_eq_iff lt]

/-- A number is preferred to a smaller one above the middle of both. -/
theorem preferred_to_smaller_iff {x a b : ℚ} {P : Prop} (lt : a < b) :
    (|x - b| < |x - a| ∨ |x - b| = |x - a| ∧ P) ↔ (a + b) / 2 < x ∨ (a + b) / 2 = x ∧ P := by
  have below := preferred_to_greater_iff (x := -x) (P := P) (neg_lt_neg lt)
  have turn (c : ℚ) : |-x - -c| = |x - c| := by rw [← abs_neg]; congr 1; ring
  rw [turn, turn] at below
  rw [below]
  constructor
  · rintro (h | ⟨h, p⟩)
    · exact .inl (by linarith)
    · exact .inr ⟨by linarith, p⟩
  · rintro (h | ⟨h, p⟩)
    · exact .inl (by linarith)
    · exact .inr ⟨by linarith, p⟩

theorem beyond_of_le {x a b : ℚ} {P : Prop} (le : a ≤ b) (beyond : b < x ∨ b = x ∧ P) :
    a < x ∨ a = x ∧ P := by
  rcases beyond with lt | ⟨rfl, p⟩
  · exact .inl (le.trans_lt lt)
  · exact le.lt_or_eq.imp_right fun eq => ⟨eq, p⟩

theorem short_of_le {x a b : ℚ} {P : Prop} (le : a ≤ b) (short : x < a ∨ x = a ∧ P) :
    x < b ∨ x = b ∧ P := by
  rcases short with lt | ⟨rfl, p⟩
  · exact .inl (lt.trans_le le)
  · exact le.lt_or_eq.imp_right fun eq => ⟨eq, p⟩

/-- The numbers that round to a rank are those between the middles to its neighbours; a middle
itself goes to the even significand. -/
theorem rounds_iff {x : ℚ} {rank : ℕ} : f.Rounds x rank ↔
    (∀ low, rank = low + 1 → f.middle low < x ∨ f.middle low = x ∧ Even (f.significand rank)) ∧
      (x < f.middle rank ∨ x = f.middle rank ∧ Even (f.significand rank)) := by
  constructor
  · intro rounds
    constructor
    · rintro low rfl
      exact (preferred_to_smaller_iff (f.value_strictMono low.lt_succ_self)).1
        (rounds low low.lt_succ_self.ne)
    · exact (preferred_to_greater_iff (f.value_strictMono rank.lt_succ_self)).1
        (rounds (rank + 1) rank.lt_succ_self.ne')
  · rintro ⟨above, below⟩ other ne
    rcases ne.lt_or_gt with smaller | greater
    · obtain ⟨low, rfl⟩ := Nat.exists_eq_succ_of_ne_zero (Nat.ne_zero_of_lt smaller)
      have le := f.value_strictMono.monotone (Nat.lt_succ_iff.1 smaller)
      have middle_le : (f.value other + f.value (low + 1)) / 2 ≤ f.middle low := by
        rw [middle]
        linarith
      exact (preferred_to_smaller_iff (f.value_strictMono smaller)).2
        (beyond_of_le middle_le (above low rfl))
    · have le := f.value_strictMono.monotone (Nat.succ_le_iff.2 greater)
      have le_middle : f.middle rank ≤ (f.value rank + f.value other) / 2 := by
        rw [middle]
        linarith
      exact (preferred_to_greater_iff (f.value_strictMono greater)).2
        (short_of_le le_middle below)

theorem Rounds.le_middle {x : ℚ} {rank : ℕ} (rounds : f.Rounds x rank) : x ≤ f.middle rank := by
  rcases (rounds_iff.1 rounds).2 with lt | ⟨eq, -⟩
  · exact lt.le
  · exact eq.le

theorem Rounds.middle_le {x : ℚ} {rank : ℕ} (rounds : f.Rounds x (rank + 1)) :
    f.middle rank ≤ x := by
  rcases (rounds_iff.1 rounds).1 rank rfl with lt | ⟨eq, -⟩
  · exact lt.le
  · exact eq.le

theorem rounds_of_between {x : ℚ} {low : ℕ} (above : f.middle low < x)
    (below : x < f.middle (low + 1)) : f.Rounds x (low + 1) :=
  rounds_iff.2 ⟨fun _ next => .inl (Nat.succ.inj next ▸ above), .inl below⟩

theorem middle_strictMono (f : Format) : StrictMono f.middle :=
  strictMono_nat_of_lt_succ fun rank => by
    have first := f.value_strictMono rank.lt_succ_self
    have second := f.value_strictMono (rank + 1).lt_succ_self
    rw [middle, middle]
    linarith

/-- Every number of the format rounds to itself. -/
theorem rounds_value (f : Format) (rank : ℕ) : f.Rounds (f.value rank) rank := fun other ne => by
  left
  rw [sub_self, abs_zero, abs_pos, sub_ne_zero]
  exact f.value_strictMono.injective.ne ne.symm

/-- Rounding keeps the order: what is not below a number is not rounded below it. -/
theorem Rounds.le_rank {x : ℚ} {rank a : ℕ} (rounds : f.Rounds x rank) (le : f.value a ≤ x) :
    a ≤ rank := by
  by_contra less
  have next := f.value_strictMono.monotone (Nat.succ_le_of_lt (not_le.1 less))
  have step := f.value_strictMono rank.lt_succ_self
  have short := rounds.le_middle
  rw [middle] at short
  linarith

theorem Rounds.rank_le {x : ℚ} {rank a : ℕ} (rounds : f.Rounds x rank) (le : x ≤ f.value a) :
    rank ≤ a := by
  by_contra greater
  obtain ⟨low, rfl⟩ := Nat.exists_eq_succ_of_ne_zero (Nat.ne_zero_of_lt (not_le.1 greater))
  have before := f.value_strictMono.monotone (Nat.lt_succ_iff.1 (not_le.1 greater))
  have step := f.value_strictMono low.lt_succ_self
  have beyond := rounds.middle_le
  rw [middle] at beyond
  linarith

/-- What rounds to a number is at most half of a step away from it. -/
theorem Rounds.abs_sub_le {x : ℚ} {rank : ℕ} (pos : 0 < rank) (rounds : f.Rounds x rank) :
    |x - f.value rank| ≤ f.step rank / 2 := by
  obtain ⟨low, rfl⟩ := Nat.exists_eq_add_one.2 pos
  have short := rounds.le_middle
  have beyond := rounds.middle_le
  have smaller := (f.step_succ low).1
  have same := f.value_succ low
  have next := f.value_succ (low + 1)
  rw [middle] at short beyond
  rw [abs_le]
  constructor <;> linarith

/-- No number rounds to two ranks: of two neighbours only one has an even significand. -/
theorem Rounds.le (wide : 0 < f.fractionBits) {x : ℚ} {a b : ℕ} (first : f.Rounds x a)
    (second : f.Rounds x b) : b ≤ a := by
  by_contra greater
  obtain ⟨low, rfl⟩ := Nat.exists_eq_succ_of_ne_zero (Nat.ne_zero_of_lt (not_le.1 greater))
  have between := f.middle_strictMono.le_iff_le.2 (Nat.lt_succ_iff.1 (not_le.1 greater))
  have above := (rounds_iff.1 second).1 low rfl
  rcases (rounds_iff.1 first).2 with short | ⟨rfl, even⟩
  · rcases above with beyond | ⟨eq, -⟩ <;> linarith
  · rcases above with beyond | ⟨eq, even'⟩
    · linarith
    · obtain rfl := f.middle_strictMono.injective eq
      rw [Nat.even_iff, f.significand_mod_two wide] at even even'
      omega

theorem Rounds.unique (wide : 0 < f.fractionBits) {x : ℚ} {a b : ℕ} (first : f.Rounds x a)
    (second : f.Rounds x b) : a = b :=
  le_antisymm (second.le wide first) (first.le wide second)

end Format

/-! ## Rounding a ratio -/

/-- The rounded quotient is at most half away, and even if it is just half away. -/
theorem divRound_spec {n d : ℕ} (pos : 0 < d) :
    (2 * n < (2 * divRound n d + 1) * d ∨
        2 * n = (2 * divRound n d + 1) * d ∧ Even (divRound n d)) ∧
      (2 * divRound n d * d < 2 * n + d ∨
        2 * divRound n d * d = 2 * n + d ∧ Even (divRound n d)) := by
  have whole := Nat.div_add_mod' n d
  have rest := Nat.mod_lt n pos
  rw [divRound]
  generalize n / d = q at *
  generalize n % d = r at *
  split
  · constructor <;> left <;> linarith
  · split
    · constructor <;> left <;> linarith
    · have half : 2 * r = d := by omega
      rcases Nat.even_or_odd q with even | odd
      · rw [Nat.even_iff.1 even, add_zero]
        refine ⟨.inr ⟨by linarith, even⟩, .inl (by linarith)⟩
      · rw [Nat.odd_iff.1 odd]
        refine ⟨.inl (by linarith), .inr ⟨by linarith, odd.add_one⟩⟩

theorem div_le_divRound (n d : ℕ) : n / d ≤ divRound n d := by
  rw [divRound]
  split
  · exact le_rfl
  · split <;> omega

theorem divRound_le (n d : ℕ) : divRound n d ≤ n / d + 1 := by
  rw [divRound]
  split
  · omega
  · split <;> omega

namespace Format

variable {f : Format}

/-- The step at so many quanta is two to this power. -/
def shiftAt (f : Format) (quanta : ℕ) : ℕ := Nat.log2 quanta - f.fractionBits

theorem rankOfRatio_eq (f : Format) (num den : ℕ) :
    f.rankOfRatio num den = f.shiftAt (num * 2 ^ f.scale / den) * 2 ^ f.fractionBits +
      divRound (num * 2 ^ f.scale) (den * 2 ^ f.shiftAt (num * 2 ^ f.scale / den)) := by
  simp only [rankOfRatio, shiftAt, Nat.pow_eq]

/-- The whole steps in so many quanta fill a binade, but for the least, and none is too many. -/
theorem steps_bounds (f : Format) (quanta : ℕ) :
    (f.shiftAt quanta = 0 ∨ 2 ^ f.fractionBits ≤ quanta / 2 ^ f.shiftAt quanta) ∧
      quanta / 2 ^ f.shiftAt quanta < 2 ^ (f.fractionBits + 1) := by
  have top := Nat.lt_log2_self (n := quanta)
  rw [shiftAt]
  rcases Nat.le_total (Nat.log2 quanta) f.fractionBits with le | ge
  · rw [Nat.sub_eq_zero_of_le le, pow_zero, Nat.div_one]
    exact ⟨.inl rfl, top.trans_le (Nat.pow_le_pow_right Nat.two_pos (Nat.succ_le_succ le))⟩
  · obtain ⟨s, log⟩ := Nat.exists_eq_add_of_le ge
    rw [log] at top ⊢
    rw [Nat.add_sub_cancel_left]
    constructor
    · by_cases none : quanta = 0
      · subst none
        simp at log
        omega
      · right
        rw [Nat.le_div_iff_mul_le (Nat.two_pow_pos s), ← pow_add, ← log]
        exact Nat.log2_self_le none
    · rw [Nat.div_lt_iff_lt_mul (Nat.two_pow_pos s), ← pow_add]
      exact top.trans_eq (by ring)

/-- A ratio and a middle in half quanta of the denominator. -/
theorem ratio_eq (f : Format) {num den : ℕ} (pos : 0 < den) :
    (num / den : ℚ) = (2 * (num * 2 ^ f.scale) : ℕ) / (2 * 2 ^ f.scale * den : ℚ) := by
  rw [div_eq_div_iff (by positivity) (by positivity)]
  push_cast
  ring

theorem middle_eq (f : Format) {den : ℕ} (pos : 0 < den) (rank : ℕ) :
    f.middle rank =
      ((f.quanta rank + f.quanta (rank + 1)) * den : ℕ) / (2 * 2 ^ f.scale * den : ℚ) := by
  rw [middle, value, value, ← add_div, div_div, div_eq_div_iff (by positivity) (by positivity)]
  push_cast
  ring

theorem even_significand (wide : 0 < f.fractionBits) {s c : ℕ} (even : Even c) :
    Even (f.significand (s * 2 ^ f.fractionBits + c)) := by
  rw [Nat.even_iff, f.significand_mod_two wide, ← Nat.even_iff]
  exact (((Nat.even_pow.2 ⟨even_two, wide.ne'⟩)).mul_left s).add even

theorem le_shift_of_count {s c : ℕ} (full : s = 0 ∨ 2 ^ f.fractionBits ≤ c) :
    s ≤ f.shift (s * 2 ^ f.fractionBits + c) := by
  rcases full with rfl | full
  · exact Nat.zero_le _
  · have rank := f.rank_eq (s * 2 ^ f.fractionBits + c)
    have small := f.significand_lt (s * 2 ^ f.fractionBits + c)
    rw [pow_succ] at small
    by_contra less
    have steps := Nat.mul_le_mul_right (2 ^ f.fractionBits) (not_le.1 less)
    rw [Nat.succ_mul] at steps
    omega

/-- A count rounded to `c` steps is at most half way to the next number, where the step is not
smaller. -/
theorem short_of_count (wide : 0 < f.fractionBits) {n den s c : ℕ}
    (full : s = 0 ∨ 2 ^ f.fractionBits ≤ c) (le : c ≤ 2 ^ (f.fractionBits + 1))
    (rounded : 2 * n < (2 * c + 1) * (den * 2 ^ s) ∨
      2 * n = (2 * c + 1) * (den * 2 ^ s) ∧ Even c) :
    2 * n < (f.quanta (s * 2 ^ f.fractionBits + c) +
        f.quanta (s * 2 ^ f.fractionBits + c + 1)) * den ∨
      2 * n = (f.quanta (s * 2 ^ f.fractionBits + c) +
        f.quanta (s * 2 ^ f.fractionBits + c + 1)) * den ∧
          Even (f.significand (s * 2 ^ f.fractionBits + c)) := by
  rw [f.quanta_succ, quanta_of_count full le]
  have step : 2 ^ s ≤ 2 ^ f.shift (s * 2 ^ f.fractionBits + c) :=
    Nat.pow_le_pow_right Nat.two_pos (le_shift_of_count full)
  have wider : (2 * c + 1) * (den * 2 ^ s) ≤
      (c * 2 ^ s + (c * 2 ^ s + 2 ^ f.shift (s * 2 ^ f.fractionBits + c))) * den := by
    calc (2 * c + 1) * (den * 2 ^ s) = (c * 2 ^ s + (c * 2 ^ s + 2 ^ s)) * den := by ring
      _ ≤ _ := by gcongr
  rcases rounded with lt | ⟨eq, even⟩
  · exact .inl (lt.trans_le wider)
  · exact (eq.le.trans wider).lt_or_eq.imp_right fun same => ⟨same, even_significand wide even⟩

/-- A count rounded to `c` steps is at least half way from the number before.  If it was rounded
up, the step there is the same. -/
theorem beyond_of_count (wide : 0 < f.fractionBits) {n den s c low : ℕ} (pos : 0 < den)
    (full : s = 0 ∨ 2 ^ f.fractionBits ≤ n / (den * 2 ^ s))
    (small : n / (den * 2 ^ s) < 2 ^ (f.fractionBits + 1))
    (near : c = n / (den * 2 ^ s) ∨ c = n / (den * 2 ^ s) + 1)
    (rounded : 2 * c * (den * 2 ^ s) < 2 * n + den * 2 ^ s ∨
      2 * c * (den * 2 ^ s) = 2 * n + den * 2 ^ s ∧ Even c)
    (rank : s * 2 ^ f.fractionBits + c = low + 1) :
    (f.quanta low + f.quanta (low + 1)) * den < 2 * n ∨
      (f.quanta low + f.quanta (low + 1)) * den = 2 * n ∧ Even (f.significand (low + 1)) := by
  rcases near with rfl | rfl
  · left
    have down : n / (den * 2 ^ s) * (den * 2 ^ s) ≤ n := Nat.div_mul_le_self _ _
    have count := quanta_of_count full small.le
    have less := f.quanta_strictMono low.lt_succ_self
    rw [rank] at count
    calc (f.quanta low + f.quanta (low + 1)) * den
        < (f.quanta (low + 1) + f.quanta (low + 1)) * den := by gcongr
      _ = 2 * (n / (den * 2 ^ s) * (den * 2 ^ s)) := by rw [count]; ring
      _ ≤ 2 * n := by omega
  · have before : low = s * 2 ^ f.fractionBits + n / (den * 2 ^ s) := by omega
    obtain ⟨step, -⟩ := shift_significand_of_count full small
    have between : (f.quanta low + f.quanta (low + 1)) * den + den * 2 ^ s =
        2 * (n / (den * 2 ^ s) + 1) * (den * 2 ^ s) := by
      rw [f.quanta_succ, before, step, quanta_of_count full small.le]
      ring
    rcases rounded with lt | ⟨eq, even⟩
    · left
      omega
    · have even' := even_significand (s := s) wide even
      rw [rank] at even'
      exact .inr ⟨by omega, even'⟩

/-- The rank of a ratio is one that the ratio rounds to. -/
theorem rounds_rankOfRatio (wide : 0 < f.fractionBits) (num : ℕ) {den : ℕ} (pos : 0 < den) :
    f.Rounds (num / den) (f.rankOfRatio num den) := by
  set n := num * 2 ^ f.scale with quanta
  set s := f.shiftAt (n / den) with step
  have pos' : 0 < den * 2 ^ s := Nat.mul_pos pos (Nat.two_pow_pos s)
  have rank : f.rankOfRatio num den = s * 2 ^ f.fractionBits + divRound n (den * 2 ^ s) :=
    f.rankOfRatio_eq num den
  obtain ⟨full, small⟩ := f.steps_bounds (n / den)
  rw [← step, Nat.div_div_eq_div_mul] at full small
  have ge := div_le_divRound n (den * 2 ^ s)
  have le := divRound_le n (den * 2 ^ s)
  obtain ⟨upper, lower⟩ := divRound_spec (n := n) pos'
  have half : (0 : ℚ) < 2 * 2 ^ f.scale * den := by positivity
  rw [rounds_iff, rank, f.middle_eq pos, f.ratio_eq pos, ← quanta,
    div_lt_div_iff_of_pos_right half, div_left_inj' half.ne', Nat.cast_lt, Nat.cast_inj]
  constructor
  · intro low next
    rw [f.middle_eq pos, div_lt_div_iff_of_pos_right half, div_left_inj' half.ne', Nat.cast_lt,
      Nat.cast_inj, next]
    exact beyond_of_count wide pos full small (by omega) lower next
  · exact short_of_count wide (full.imp_right fun h => h.trans ge) (by omega) upper

/-- A ratio is rounded to the rank that it rounds to. -/
theorem rankOfRatio_eq_iff (wide : 0 < f.fractionBits) {num den rank : ℕ} (pos : 0 < den) :
    f.rankOfRatio num den = rank ↔ f.Rounds (num / den) rank := by
  have rounds := rounds_rankOfRatio wide num pos
  constructor
  · rintro rfl
    exact rounds
  · exact rounds.unique wide

/-- What is not above `2 ^ 128` is rounded to a finite double. -/
theorem Rounds.lt_ranks_double {x : ℚ} {rank : ℕ} (rounds : double.Rounds x rank)
    (le : x ≤ 2 ^ 128) : rank < double.ranks := by
  have exponent : 1150 + double.fractionBits = 128 + double.scale := by decide
  have power :
      double.value (1150 * 2 ^ double.fractionBits + 2 ^ double.fractionBits) = 2 ^ 128 := by
    rw [value_binade, exponent, pow_add, mul_div_cancel_right₀ _ (by positivity)]
  have within := rounds.rank_le (le.trans_eq power.symm)
  exact within.trans_lt (by decide)

end Format

end Stencil.Number
