/-
# Stencil.Attribute -- attributes as they are written

An attribute is written with a space in front, its name, and its value between quotes of the style
that the template chose.  The value is escaped, so it cannot end the attribute.  A record is
written as one attribute for each of its fields, whose name is made from the key.
-/
import Stencil.Text.Hyphen
import Stencil.Value.Basic

set_option autoImplicit false

namespace Stencil

/-- The two quotes around the value of an attribute. -/
inductive Quote where
  | double
  | single
  deriving DecidableEq, Repr

namespace Quote

def char : Quote → Char
  | .double => '"'
  | .single => '\''

/-- The quote of a character; any but the single quote stands for the double quote. -/
def ofChar (c : Char) : Quote := if c = '\'' then .single else .double

@[simp] theorem ofChar_char (q : Quote) : ofChar q.char = q := by cases q <;> rfl

end Quote

namespace Attribute

/-- An attribute with a plain text as its value. -/
def write (name : Text) (quote : Quote) (value : Text) : Text :=
  ' ' :: name ++ '=' :: quote.char :: Text.escape value ++ [quote.char]

end Attribute

namespace Record

def keys (r : Record) : List Text := r.map (·.1)

/-- The name of the attribute for a key among the data attributes. -/
def dataName (key : Text) : Text := ['d', 'a', 't', 'a', '-'] ++ Text.hyphenate key

/-- The name of the attribute for a key among the accessibility attributes; the role has an
attribute of its own. -/
def ariaName (key : Text) : Text :=
  if key = ['r', 'o', 'l', 'e'] then key else ['a', 'r', 'i', 'a', '-'] ++ Text.hyphenate key

/-- Every field as a data attribute, in order. -/
def toData (r : Record) : Text :=
  r.flatMap fun (key, v) => Attribute.write (dataName key) .double v.toText

/-- Every field as an accessibility attribute, in order. -/
def toAria (r : Record) : Text :=
  r.flatMap fun (key, v) => Attribute.write (ariaName key) .double v.toText

end Record

end Stencil
