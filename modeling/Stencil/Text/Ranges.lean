/-
# Stencil.Text.Ranges -- sets of characters given by code point

A property of characters that a standard lists is held as its ranges of code points, in
ascending order.  `Ranges.contains` is membership, `contains_iff` says so.
-/

set_option autoImplicit false

namespace Stencil

/-- Ranges of code points, each by its first and its last member. -/
abbrev Ranges := List (Nat × Nat)

namespace Ranges

/-- Whether the character's code point lies in one of the ranges. -/
def contains (rs : Ranges) (c : Char) : Bool :=
  rs.any fun r => decide (r.1 ≤ c.toNat) && decide (c.toNat ≤ r.2)

theorem contains_iff (rs : Ranges) (c : Char) :
    rs.contains c = true ↔ ∃ r ∈ rs, r.1 ≤ c.toNat ∧ c.toNat ≤ r.2 := by
  simp [contains]

end Ranges

end Stencil
