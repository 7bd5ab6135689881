/-
# Stencil.Number.Binary -- binary floating point numbers

A `Format` has a width of the fraction and a width of the exponent.  Its finite numbers without a
sign are counted by their *rank*, from zero upwards in order of magnitude: the rank is the number
that the bits below the sign spell, and a finite number is a sign and a rank.  A rank stands for a
whole number of quanta, where a quantum is the smallest positive number of the format, `2 ^ -scale`;
`Format.quanta` gives it as `significand * 2 ^ shift`.

All arithmetic on numbers is exact arithmetic on quanta followed by one rounding
(`Stencil.Number.Rounding`).
-/

set_option autoImplicit false

namespace Stencil.Number

/-- The widths of a binary floating point format. -/
structure Format where
  fractionBits : Nat
  exponentBits : Nat
  deriving DecidableEq, Repr

namespace Format

def double : Format := ⟨52, 11⟩

def single : Format := ⟨23, 8⟩

/-- The quantum of the format is `2 ^ -scale`. -/
def scale (f : Format) : Nat := Nat.pow 2 (f.exponentBits - 1) - 2 + f.fractionBits

/-- How many finite numbers without a sign there are; the rank of infinity. -/
def ranks (f : Format) : Nat := (Nat.pow 2 f.exponentBits - 1) * Nat.pow 2 f.fractionBits

/-- The significand of the number of a rank: the least two binades share the quantum as their
step, above them the leading bit is not stored. -/
def significand (f : Format) (rank : Nat) : Nat :=
  if rank < Nat.pow 2 (f.fractionBits + 1) then rank
  else rank % Nat.pow 2 f.fractionBits + Nat.pow 2 f.fractionBits

/-- The step between numbers at a rank is `2 ^ shift` quanta. -/
def shift (f : Format) (rank : Nat) : Nat :=
  if rank < Nat.pow 2 (f.fractionBits + 1) then 0 else rank / Nat.pow 2 f.fractionBits - 1

/-- How many quanta the number of a rank is. -/
def quanta (f : Format) (rank : Nat) : Nat := f.significand rank * Nat.pow 2 (f.shift rank)

end Format

/-- A floating point number of the format. -/
inductive Binary (f : Format) where
  | nan
  | infinite (negative : Bool)
  /-- A finite number; there are two zeros, which differ in their sign. -/
  | finite (negative : Bool) (rank : Fin f.ranks)
  deriving DecidableEq, Repr

abbrev Double := Binary Format.double

abbrev Single := Binary Format.single

namespace Binary

variable {f : Format}

/-- The number with a sign and a rank; from the rank of infinity on it is infinite. -/
def ofRank (f : Format) (negative : Bool) (rank : Nat) : Binary f :=
  if h : rank < f.ranks then .finite negative ⟨rank, h⟩ else .infinite negative

/-- The number that the bits of an interchange format spell: the sign, then the rank.  Ranks
above that of infinity are no numbers. -/
def ofBits (f : Format) (bits : Nat) : Binary f :=
  let magnitude := bits % Nat.pow 2 (f.exponentBits + f.fractionBits)
  let negative := bits / Nat.pow 2 (f.exponentBits + f.fractionBits) % 2 == 1
  if f.ranks < magnitude then .nan else ofRank f negative magnitude

/-- Whether two numbers are equal as numbers: nothing equals the result that is no number, and
the two zeros are equal. -/
def equals : Binary f → Binary f → Bool
  | .infinite a, .infinite b => a == b
  | .finite a r, .finite b s => r == s && (a == b || r.val == 0)
  | _, _ => false

def negate : Binary f → Binary f
  | .nan => .nan
  | .infinite a => .infinite !a
  | .finite a r => .finite (!a) r

end Binary

end Stencil.Number
