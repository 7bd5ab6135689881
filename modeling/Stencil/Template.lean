/-
# Stencil.Template -- the fixed parts of a page

A template is a list of fragments with a slot between any two.  It has an identity of its own,
given when it is made: two templates made of the same fragments are different templates, and a copy
of a template is the same template.
-/
import Stencil.Text.Basic

set_option autoImplicit false

namespace Stencil

/-- Fragments with an identity. -/
structure Template where
  id : Nat
  fragments : List Text
  fragments_ne_nil : fragments ≠ []

namespace Template

/-- How many slots the template has. -/
def slots (t : Template) : Nat := t.fragments.length - 1

/-- The fragments with a dollar sign and braces for each slot, for diagnostics. -/
def source (t : Template) : Text := List.intercalate "$\x7b\x7d".toList t.fragments

/-- The identity as diagnostics show it. -/
def idText (t : Template) : Text := '#' :: Text.numeral t.id

end Template

/-- Gives out identities for templates, counting in 64 bits. -/
structure Issuer where
  next : UInt64
  deriving DecidableEq, Repr

namespace Issuer

/-- The issuer that has given out nothing yet. -/
def start : Issuer := ⟨1⟩

/-- Makes a template.  No fragments at all stand for one empty fragment. -/
def create (i : Issuer) (fragments : List Text) : Template × Issuer :=
  (match fragments with
    | [] => ⟨i.next.toNat, [[]], by simp⟩
    | first :: more => ⟨i.next.toNat, first :: more, by simp⟩,
    ⟨i.next + 1⟩)

end Issuer

end Stencil
