/-
# Stencil.Number.Rounding -- the nearest number of a format

`divRound` rounds a quotient to the nearest natural number and an exact half to the even one.
`Format.rankOfRatio` rounds a ratio to the nearest number of a format: it finds the step between
the numbers there and rounds the count of steps, so a count that reaches the next binade is the
first rank of it, and a rank at or above that of infinity has overflowed.  Products and quotients
are ratios of quanta.
-/
import Stencil.Number.Binary

set_option autoImplicit false

namespace Stencil.Number

/-- The quotient rounded to the nearest natural number, an exact half to the even one. -/
def divRound (n d : Nat) : Nat :=
  if 2 * (n % d) < d then n / d
  else if d < 2 * (n % d) then n / d + 1
  else n / d + n / d % 2

namespace Format

/-- The rank of the number nearest to `num / den`, a tie going to the even significand. -/
def rankOfRatio (f : Format) (num den : Nat) : Nat :=
  let quanta := num * Nat.pow 2 f.scale
  let shift := Nat.log2 (quanta / den) - f.fractionBits
  shift * Nat.pow 2 f.fractionBits + divRound quanta (den * Nat.pow 2 shift)

/-- The rank of the rounded product of the numbers of two ranks. -/
def mulRank (f : Format) (a b : Nat) : Nat :=
  f.rankOfRatio (f.quanta a * f.quanta b) (Nat.pow 2 (2 * f.scale))

def divRank (f : Format) (a b : Nat) : Nat :=
  f.rankOfRatio (f.quanta a) (f.quanta b)

end Format

namespace Binary

variable {f : Format}

/-- The number of the format nearest to `num / den`, with a sign. -/
def ofRatio (f : Format) (negative : Bool) (num den : Nat) : Binary f :=
  ofRank f negative (f.rankOfRatio num den)

def ofInt (f : Format) (n : Int) : Binary f := ofRatio f (decide (n < 0)) n.natAbs 1

end Binary

end Stencil.Number
