/-
# Stencil.Number.Shortest -- the shortest decimal that reads back

Every real number close enough to a number of a binary format rounds to it; together they are the
number's rounding interval, whose ends belong to it when the significand is even.  The shortest
decimal of the number lies on the coarsest grid of powers of ten that has a point in the interval.
Where the number has two neighbours on that grid inside the interval, the nearer one is taken, and
of two equally near ones the upper.

All is exact: with `places` decimal places the number, both ends and every grid point are natural
numbers, because a quarter of a quantum is `5 ^ places` units of `10 ^ -places`.
-/
import Stencil.Number.Decimal
import Stencil.Number.Rounding

set_option autoImplicit false

namespace Stencil.Number

/-- A number between the ends of its rounding interval, all in units of one small power of ten. -/
structure Interval where
  low : Nat
  value : Nat
  high : Nat
  closed : Bool
  deriving DecidableEq, Repr

namespace Interval

def contains (i : Interval) (n : Nat) : Bool :=
  if i.closed then decide (i.low ≤ n) && decide (n ≤ i.high)
  else decide (i.low < n) && decide (n < i.high)

/-- Which multiple of `step` inside the interval is nearest to the number, if there is one. -/
def nearest? (i : Interval) (step : Nat) : Option Nat :=
  let k := i.value / step
  match i.contains (k * step), i.contains ((k + 1) * step) with
  | true, true => some (if 2 * (i.value % step) < step then k else k + 1)
  | true, false => some k
  | false, true => some (k + 1)
  | false, false => none

/-- The first hit among the grids `10 ^ e`, ..., `10`, and `1`, as the multiple and the exponent
of its grid.  On the finest grid the number itself is taken. -/
def coarsest (i : Interval) : (e : Nat) → Nat × Nat
  | 0 => (i.value, 0)
  | e + 1 =>
      match i.nearest? (Nat.pow 10 (e + 1)) with
      | some k => (k, e + 1)
      | none => i.coarsest e

end Interval

namespace Format

/-- With so many decimal places every quarter of a quantum is a whole number of units. -/
def places (f : Format) : Nat := f.scale + 2

/-- The rounding interval of the number of a rank, in units of `10 ^ -places`.  The step below the
first number of a binade is half of the step above it. -/
def interval (f : Format) (rank : Nat) : Interval :=
  let m := f.significand rank
  let quarter := Nat.pow 5 f.places * Nat.pow 2 (f.shift rank)
  let below := if m = Nat.pow 2 f.fractionBits ∧ f.shift rank ≠ 0 then 1 else 2
  { low := (4 * m - below) * quarter
    value := 4 * m * quarter
    high := (4 * m + 2) * quarter
    closed := m % 2 == 0 }

/-- The shortest decimal that reads back as the number of a rank. -/
def shortest (f : Format) (rank : Nat) : Decimal :=
  let i := f.interval rank
  let (k, e) := i.coarsest (Nat.log2 i.high / 3 + 1)
  if e ≤ f.places then ⟨k, f.places - e⟩ else ⟨k * Nat.pow 10 (e - f.places), 0⟩

end Format

namespace Binary

variable {f : Format}

/-- The text of a number: the shortest decimal that reads back, always positional.  Both zeros
are written without a sign. -/
def text : Binary f → Text
  | .nan => ['N', 'a', 'N']
  | .infinite negative =>
      (if negative then ['-'] else []) ++ ['I', 'n', 'f', 'i', 'n', 'i', 't', 'y']
  | .finite negative rank =>
      if rank.val = 0 then ['0']
      else (if negative then ['-'] else []) ++ (f.shortest rank.val).text

/-- The number of 64 bits whose text is the shortest text of a number of 32 bits. -/
def widen : Single → Double
  | .nan => .nan
  | .infinite negative => .infinite negative
  | .finite negative rank =>
      if rank.val = 0 then ofRank _ negative 0
      else
        let d := Format.single.shortest rank.val
        ofRatio _ negative d.units (Nat.pow 10 d.places)

end Binary

end Stencil.Number
