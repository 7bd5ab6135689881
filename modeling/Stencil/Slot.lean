/-
# Stencil.Slot -- the roles of a slot

What a slot writes for a value depends on where it stands: between tags, or in an attribute, where
the attribute's name decides.  A name with a point in front is a property, whose truth values
switch the bare attribute on and off; a name that starts with `on` is an event, which only text
can handle; the names `data` and `aria` stand for one attribute for each field of a record.
-/
import Stencil.Attribute
import Stencil.Text.Lowercase

set_option autoImplicit false

namespace Stencil

/-- The role of a slot. -/
inductive Slot where
  | text
  | data
  | aria
  /-- A property, by its name in lower case. -/
  | property (name : Text) (quote : Quote)
  | event (name : Text) (quote : Quote)
  | attribute (name : Text) (quote : Quote)
  deriving DecidableEq, Repr

namespace Slot

/-- The role of an attribute slot, by the attribute's name. -/
def ofAttribute (name : Text) (quote : Quote) : Slot :=
  if name = ['d', 'a', 't', 'a'] then .data
  else if name = ['a', 'r', 'i', 'a'] then .aria
  else
    match name with
    | '.' :: name => .property (Text.lowercase name) quote
    | 'o' :: 'n' :: _ => .event name quote
    | _ => .attribute name quote

/-- What a slot writes for a value. -/
def render : Slot → Value → Text
  | .text, v => v.toMarkup
  | .data, .record fields => Record.toData fields
  | .data, _ => []
  | .aria, .record fields => Record.toAria fields
  | .aria, _ => []
  | .property _ _, .null => []
  | .property name _, .bool b => if b then ' ' :: name else []
  | .property name quote, v => Attribute.write name quote v.toText
  | .event name quote, .text handler => Attribute.write name quote handler
  | .event _ _, _ => []
  | .attribute _ _, .null => []
  | .attribute name quote, v => Attribute.write name quote v.toText

end Slot

end Stencil
