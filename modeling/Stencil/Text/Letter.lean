/-
# Stencil.Text.Letter -- the letters of tag names

A tag name starts with a letter from a to z of either case.  Case is compared as Unicode's simple
folding does, so the long s (U+017F) is an s and the kelvin sign (U+212A) is a k.  `foldLetter`
gives the small letter of each of them, and a character is a letter when its fold is one.
-/
import Stencil.Text.Basic

set_option autoImplicit false

namespace Stencil.Text

/-- The character with its case folded, as far as the letters from a to z are concerned. -/
def foldLetter (c : Char) : Char :=
  if c.toNat = 0x17F then 's' else if c.toNat = 0x212A then 'k' else c.toLower

/-- Whether the character is a letter from a to z when case is ignored. -/
def isLetter (c : Char) : Bool := (foldLetter c).isLower

/-- Whether the character may follow the letters at the front of a tag name. -/
def isTagNameChar (c : Char) : Bool :=
  isLetter c || c.isDigit || c == ':' || c == '.' || c == '_' || c == '-'

end Stencil.Text
