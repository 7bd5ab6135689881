/-
# Stencil.Text.Lowercase -- the lower case of a text

Every character is mapped to its lower case of Unicode 16.  One letter has a lower case of two
characters: the capital I with a dot above, which becomes an i and a combining dot.  One letter
depends on its place: the capital sigma becomes a final sigma at the end of a word, that is after
a cased letter and not before one, where characters that are ignored for case do not count.
-/
import Stencil.Text.Basic
import Stencil.Text.CaseTables

set_option autoImplicit false

namespace Stencil.Text

/-- The lower case of a character that does not depend on its place. -/
def lowerChar (c : Char) : Text :=
  if c.toNat = 0x130 then ['i', Char.ofNat 0x307]
  else
    match lowerRuns.findSome? (·.lower? c.toNat) with
    | some n => [Char.ofNat n]
    | none => [c]

/-- Whether the first character that counts for case is a cased letter. -/
def meetsCased (s : Text) : Bool :=
  ((s.dropWhile ignorableRanges.contains).head?).any casedRanges.contains

/-- The lower case of the rest of a text after the characters `before`, nearest first. -/
def lowercaseAfter (before : Text) : Text → Text
  | [] => []
  | c :: rest =>
      let lowered :=
        if c.toNat = 0x3A3 then
          [Char.ofNat (if meetsCased before && !meetsCased rest then 0x3C2 else 0x3C3)]
        else lowerChar c
      lowered ++ lowercaseAfter (c :: before) rest

/-- The text in lower case. -/
def lowercase (s : Text) : Text := lowercaseAfter [] s

end Stencil.Text
