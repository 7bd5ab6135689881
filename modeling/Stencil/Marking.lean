/-
# Stencil.Marking -- from fragments to marked markup

A marking joins the fragments of a template and puts a marker for each slot between them, in order.
Its variant names the markup that it produces: two markings that can turn the same fragments into
different markup have different variants.

`Marking.markup` finds out whether a slot is the value of an attribute: the fragment before it must
end in an assignment (`Assignment.ofFragment?`) and stand inside a tag (`OpenTag.isInside`).  Then
the assignment is cut off the fragment and goes into the marker, which keeps the template's quote.
`Marking.textOnly` takes every slot to stand between tags.
-/
import Stencil.Marker
import Stencil.Markup.Assignment
import Stencil.Markup.OpenTag
import Stencil.Markup.SelfClosing

set_option autoImplicit false

namespace Stencil

/-- A way to mark the slots of a template. -/
structure Marking where
  variant : Text
  mark : (fragments : List Text) → (lead : Text) → Except Error Text

namespace Marking

/-! ## Slots between tags -/

/-- Fragments with a comment marker between any two, from an index on. -/
def joinText (lead : Text) : (index : Nat) → List Text → Text
  | _, [] => []
  | _, [last] => last
  | index, fragment :: more =>
      fragment ++ Marker.comment lead index ++ joinText lead (index + 1) more

/-- Every slot stands between tags. -/
def textOnly : Marking where
  variant := "text-only".toList
  mark fragments lead := .ok (joinText lead 0 fragments)

/-! ## Slots in tags and between them -/

/-- The assignment that makes the slot after a fragment the value of an attribute, given the
fragments before it, nearest first. -/
def assignment? (before : List Text) (fragment : Text) : Option Assignment :=
  match Assignment.ofFragment? fragment with
  | some a => if OpenTag.isInside (fragment :: before) then some a else none
  | none => none

/-- The marker of a slot that is the value of an attribute.  When the template has an opening
quote, the closing one in the next fragment ends the marker. -/
def assignmentMarker (lead : Text) (index : Nat) (a : Assignment) : Text :=
  match a.quote with
  | some q => Marker.openAssignment lead index q a.name
  | none => Marker.openAssignment lead index .double a.name ++ [Quote.double.char]

/-- A fragment with the marker of the slot after it. -/
def markSlot (lead : Text) (index : Nat) (before : List Text) (fragment : Text) : Text :=
  match assignment? before fragment with
  | some a => a.before ++ assignmentMarker lead index a
  | none => fragment ++ Marker.comment lead index

/-- Fragments with a marker between any two, from an index on, after other fragments, nearest
first. -/
def joinMarkup (lead : Text) (before : List Text) : (index : Nat) → List Text → Text
  | _, [] => []
  | _, [last] => last
  | index, fragment :: more =>
      markSlot lead index before fragment ++
        joinMarkup lead (fragment :: before) (index + 1) more

/-- Slots are attributes or stand between tags, as the markup around them tells.  The result is
trimmed, and elements that close themselves are written out unless they are to stay, as they must
in vector graphics. -/
def markup (svg : Bool) : Marking where
  variant := if svg then "markup+svg".toList else "markup".toList
  mark fragments lead :=
    let joined := Text.trim (joinMarkup lead [] 0 fragments)
    .ok (if svg then joined else SelfClosing.writeOut joined)

/-! ## Markings with a fixed outcome -/

/-- The text form between square brackets. -/
def bracketed : Marking where
  variant := "bracketed".toList
  mark fragments lead := .ok ('[' :: joinText lead 0 fragments ++ [']'])

/-- Gives up with a message. -/
def failing (message : Text) : Marking where
  variant := "failing".toList
  mark _ _ := .error (.marking message)

/-- Produces one text, whatever the fragments. -/
def fixed (text : Text) : Marking where
  variant := "fixed:".toList ++ text
  mark _ _ := .ok text

end Marking

end Stencil
