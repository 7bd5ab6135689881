/-
# Stencil.Number.Decimal -- decimal fractions and their text

A decimal is a whole number of units of `10 ^ -places`.  Its text is positional: the digits of the
whole part, and after a point exactly `places` digits; without places there is no point.
-/
import Stencil.Text.Basic

set_option autoImplicit false

namespace Stencil.Number

/-- The decimal fraction `units / 10 ^ places`. -/
structure Decimal where
  units : Nat
  places : Nat
  deriving DecidableEq, Repr

namespace Decimal

/-- The digits of a number, filled with zeros at the front up to a width. -/
def padded (width n : Nat) : Text :=
  let digits := Text.numeral n
  List.replicate (width - digits.length) '0' ++ digits

/-- The positional text of a decimal. -/
def text (d : Decimal) : Text :=
  if d.places = 0 then Text.numeral d.units
  else
    Text.numeral (d.units / Nat.pow 10 d.places) ++
      '.' :: padded d.places (d.units % Nat.pow 10 d.places)

end Decimal

end Stencil.Number
