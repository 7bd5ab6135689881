/-
# Stencil.Marker -- the marks that stand for slots in markup

In marked markup every slot is a marker, which begins with a text of the renderer's choice,
its *lead*, and an index in decimal digits.  Between tags a marker is a comment; in a tag it is an
assignment of the attribute's name, together with the blanks before it:

    <!--lead7-->        lead7="name"        lead7='name'

`Marker.scan` finds the markers of a text from left to right and keeps the text between them.  The
lead is compared literally, so it may hold any characters; blanks before an assignment belong to
the marker as far as a lead with blanks of its own leaves them.  `Marker.pattern` says the same of
all that is read here (see Stencil.Proofs.Marker.Pattern).
-/
import Stencil.Slot
import Stencil.Text.Blank
import Stencil.Text.Digit

set_option autoImplicit false

namespace Stencil

/-- A marker for a slot. -/
inductive Marker where
  | text
  | attribute (name : Text) (quote : Quote)
  deriving DecidableEq, Repr

namespace Marker

/-! ## Writing -/

/-- The marker of a slot between tags. -/
def comment (lead : Text) (index : Nat) : Text :=
  ['<', '!', '-', '-'] ++ lead ++ Text.numeral index ++ ['-', '-', '>']

/-- The marker of a slot for an attribute, up to the closing quote. -/
def openAssignment (lead : Text) (index : Nat) (quote : Quote) (name : Text) : Text :=
  lead ++ Text.numeral index ++ '=' :: quote.char :: name

/-! ## Reading -/

/-- What follows an index of at least one digit, whose digits are taken as far as they go. -/
def afterIndex? (s : Text) : Option Text :=
  match Text.splitRun Text.isDecimalDigit s with
  | ([], _) => none
  | (_, rest) => some rest

/-- What follows a marker between tags at the front. -/
def afterComment? (lead s : Text) : Option Text := do
  let s ← Text.after? ['<', '!', '-', '-'] s
  let s ← Text.after? lead s
  let s ← afterIndex? s
  Text.after? ['-', '-', '>'] s

/-- A name between two quotes at the front, not empty and without that quote, and what follows. -/
def quotedName? (s : Text) : Option (Marker × Text) :=
  match s with
  | [] => none
  | q :: s =>
      if q = '"' ∨ q = '\'' then
        match Text.splitRun (· != q) s with
        | ([], _) => none
        | (_, []) => none
        | (name, _ :: rest) => some (.attribute name (Quote.ofChar q), rest)
      else none

/-- An assignment at the front, without blanks before it, and what follows. -/
def assignment? (lead s : Text) : Option (Marker × Text) := do
  let s ← Text.after? lead s
  let s ← afterIndex? s
  let s ← Text.after? ['='] s
  quotedName? s

/-- An assignment after as many blanks at the front as can be taken, and what follows. -/
def blankAssignment? (lead : Text) : Text → Option (Marker × Text)
  | [] => assignment? lead []
  | c :: cs =>
      if Text.isBlank c then
        match blankAssignment? lead cs with
        | some found => some found
        | none => assignment? lead (c :: cs)
      else assignment? lead (c :: cs)

/-- A marker at the front and what follows it. -/
def read? (lead s : Text) : Option (Marker × Text) :=
  match afterComment? lead s with
  | some rest => some (.text, rest)
  | none => blankAssignment? lead s

/-- Puts a character in front of the text before the first marker. -/
def push (c : Char) : List (Text × Marker) × Text → List (Text × Marker) × Text
  | ([], post) => ([], c :: post)
  | ((pre, m) :: more, post) => ((c :: pre, m) :: more, post)

/-- The markers of a text whose first `skip` characters belong to a marker found before. -/
def scanFrom (lead : Text) : (skip : Nat) → Text → List (Text × Marker) × Text
  | _, [] => ([], [])
  | skip + 1, _ :: cs => scanFrom lead skip cs
  | 0, c :: cs =>
      match read? lead (c :: cs) with
      | some (m, rest) =>
          let (more, post) := scanFrom lead (cs.length - rest.length) cs
          (([], m) :: more, post)
      | none => push c (scanFrom lead 0 cs)

/-- The markers of a text from left to right, each with the text before it, and the text after the
last. -/
def scan (lead s : Text) : List (Text × Marker) × Text := scanFrom lead 0 s

/-- The role of the slot that a marker stands for. -/
def slot : Marker → Slot
  | .text => .text
  | .attribute name quote => Slot.ofAttribute name quote

end Marker

end Stencil
