/-
# Stencil.Text.Hyphen -- attribute suffixes from keys

A key written in camel case becomes the suffix of an attribute name: every ASCII capital is
lowered, and a hyphen marks where a word starts.  A capital starts a word when it follows a small
letter or a digit, and when it follows a capital and a small letter comes next, which is the last
capital of a run such as the H of XMLHttp.
-/
import Stencil.Text.Basic

set_option autoImplicit false

namespace Stencil.Text

/-- Whether the character `c` starts a word, given the characters around it. -/
def startsWord (previous : Char) (c : Char) (next : Option Char) : Bool :=
  c.isUpper &&
    (previous.isLower || previous.isDigit || (previous.isUpper && next.any Char.isLower))

/-- The suffix for the rest of a key after the character `previous`. -/
def hyphenateAfter (previous : Char) : Text → Text
  | [] => []
  | c :: rest =>
      if startsWord previous c rest.head? then '-' :: c.toLower :: hyphenateAfter c rest
      else c.toLower :: hyphenateAfter c rest

/-- The attribute suffix of a key in camel case. -/
def hyphenate : Text → Text
  | [] => []
  | c :: rest => c.toLower :: hyphenateAfter c rest

end Stencil.Text
