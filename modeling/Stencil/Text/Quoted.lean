/-
# Stencil.Text.Quoted -- text shown between double quotes

For diagnostics a text is shown on one line between double quotes.  The backslash, the double
quote and the common controls have an escape of two characters; any other character that could
not be seen (`isPrintable`) is shown by its code point in braces.
-/
import Stencil.Text.Basic
import Stencil.Text.Printable

set_option autoImplicit false

namespace Stencil.Text

/-- How a character is shown between double quotes. -/
def quotedChar (c : Char) : Text :=
  if c.toNat = 0 then ['\\', '0']
  else if c = '\t' then ['\\', 't']
  else if c = '\r' then ['\\', 'r']
  else if c = '\n' then ['\\', 'n']
  else if c = '\\' then ['\\', '\\']
  else if c = '"' then ['\\', '"']
  else if isPrintable c then [c]
  else ['\\', 'u', '{'] ++ Nat.toDigits 16 c.toNat ++ ['}']

/-- The text between double quotes. -/
def quoted (s : Text) : Text := '"' :: s.flatMap quotedChar ++ ['"']

end Stencil.Text
