/-
# Stencil.Json.Number -- the numbers that written numbers stand for

An integer without point or exponent that fits a word of 64 bits, signed if it is negative, is
kept exactly.  Every other number is a double, found in two roundings: as many digits as fit an
unsigned word of 64 bits become the nearest double, which is then multiplied or divided by the
nearest double of a power of ten.  Digits that do not fit are dropped, and those before the point
count in the exponent.  A result that overflows is no number.
-/
import Stencil.Json.Tree
import Stencil.Number.Rounding

set_option autoImplicit false

namespace Stencil.Json

open Stencil.Number

/-- The number that a written number stands for. -/
inductive Number where
  | whole (n : Int)
  | real (x : Double)
  deriving DecidableEq, Repr

namespace Number

/-- The double nearest to the number. -/
def toDouble : Number → Double
  | .whole n => Binary.ofInt _ n
  | .real x => x

def digitValue (c : Char) : Nat := c.toNat - 48

/-- The number that digits write, the most significant first. -/
def digitsValue (s : Text) : Nat := s.foldl (fun n c => 10 * n + digitValue c) 0

/-- Extends a significand by digits as long as it fits a word of 64 bits.  The digits that are
left over are returned. -/
def absorb (significand : Nat) : Text → Nat × Text
  | [] => (significand, [])
  | c :: rest =>
      let next := 10 * significand + digitValue c
      if next < Nat.pow 2 64 then absorb next rest else (significand, c :: rest)

/-- The rank of the double of a power of ten. -/
def powerRank (e : Nat) : Nat := Format.double.rankOfRatio (Nat.pow 10 e) 1

/-- The largest exponent of ten whose power is a double. -/
def lastPower : Nat := 308

/-- The rank of a double divided by a power of ten, in steps of the largest power. -/
def scaleDown (rank e : Nat) : Nat :=
  if e ≤ lastPower then Format.double.divRank rank (powerRank e)
  else if rank = 0 then 0
  else scaleDown (Format.double.divRank rank (powerRank lastPower)) (e - lastPower)
termination_by e
decreasing_by simp only [lastPower] at *; omega

/-- The rank of a double multiplied by a power of ten, unless it overflows. -/
def scaleUp? (rank e : Nat) : Option Nat :=
  if e ≤ lastPower then
    let product := Format.double.mulRank rank (powerRank e)
    if product < Format.double.ranks then some product else none
  else if rank = 0 then some 0
  else none

/-- The double of a significand and a power of ten. -/
def scaled? (negative : Bool) (significand : Nat) (exponent : Int) : Option Double :=
  let rank := Format.double.rankOfRatio significand 1
  if 0 ≤ exponent then
    (scaleUp? rank exponent.toNat).map (Binary.ofRank _ negative)
  else some (Binary.ofRank _ negative (scaleDown rank exponent.natAbs))

end Number

/-- The exponent that is written, zero if none is. -/
def Numeral.exponentValue (n : Numeral) : Int :=
  match n.exponent with
  | none => 0
  | some (negative, digits) =>
      if negative then -(Number.digitsValue digits : Int) else Number.digitsValue digits

/-- The number that a written number stands for, unless it overflows. -/
def Numeral.value? (n : Numeral) : Option Number :=
  let (whole, dropped) := Number.absorb 0 n.whole
  if n.fraction.isEmpty && n.exponent.isNone && dropped.isEmpty &&
      (!n.negative || (whole != 0 && decide (whole ≤ Nat.pow 2 63))) then
    some (.whole (if n.negative then -(whole : Int) else whole))
  else
    let (significand, unused) := Number.absorb whole n.fraction
    let exponent : Int :=
      n.exponentValue + dropped.length - (n.fraction.length - unused.length : Nat)
    (Number.scaled? n.negative significand exponent).map .real

end Stencil.Json
