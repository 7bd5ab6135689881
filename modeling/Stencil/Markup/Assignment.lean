/-
# Stencil.Markup.Assignment -- an attribute that a fragment leaves open

A slot stands for the value of an attribute when the fragment before it ends with the attribute's
name, an equals sign and possibly the opening quote, with blanks around the sign.  The pieces are
read from the end of the fragment, so the name is the longest run of characters that a name may
hold, and put together they are the fragment (`append_of_ofFragment?`).
-/
import Stencil.Attribute
import Stencil.Text.Blank

set_option autoImplicit false

namespace Stencil

/-- The end of a fragment that leaves an attribute without its value. -/
structure Assignment where
  before : Text
  name : Text
  blanksBefore : Text
  blanksAfter : Text
  quote : Option Quote
  deriving DecidableEq, Repr

namespace Assignment

/-- Whether a character may stand in an attribute's name. -/
def isNameChar (c : Char) : Bool :=
  !(Text.isBlank c || c == '\\' || c == '>' || c == '"' || c == '\'' || c == '=')

/-- The text without the quote at its end, and that quote. -/
def splitQuote (s : Text) : Text × Option Quote :=
  match s.reverse with
  | '"' :: rest => (rest.reverse, some .double)
  | '\'' :: rest => (rest.reverse, some .single)
  | _ => (s, none)

/-- The assignment at the end of a fragment, if there is one. -/
def ofFragment? (fragment : Text) : Option Assignment :=
  let (s, quote) := splitQuote fragment
  let (s, blanksAfter) := Text.splitLastRun Text.isBlank s
  match s.reverse with
  | '=' :: rest =>
      let (s, blanksBefore) := Text.splitLastRun Text.isBlank rest.reverse
      let (before, name) := Text.splitLastRun isNameChar s
      if name.isEmpty then none
      else some { before, name, blanksBefore, blanksAfter, quote }
  | _ => none

def toFragment (a : Assignment) : Text :=
  a.before ++ a.name ++ a.blanksBefore ++ '=' :: a.blanksAfter ++
    match a.quote with
    | some q => [q.char]
    | none => []

theorem splitQuote_append (s : Text) :
    (splitQuote s).1 ++ (match (splitQuote s).2 with | some q => [q.char] | none => []) = s := by
  unfold splitQuote
  split
  · next rest h =>
    have := congrArg List.reverse h
    simpa [Quote.char] using this.symm
  · next rest h =>
    have := congrArg List.reverse h
    simpa [Quote.char] using this.symm
  · simp

/-- The pieces of the assignment are the fragment. -/
theorem append_of_ofFragment? {fragment : Text} {a : Assignment}
    (h : ofFragment? fragment = some a) : a.toFragment = fragment := by
  simp only [ofFragment?] at h
  split at h
  · next rest hrest =>
    split at h
    · exact absurd h (by simp)
    · obtain rfl := Option.some.inj h
      have hs := congrArg List.reverse hrest
      rw [List.reverse_reverse, List.reverse_cons] at hs
      simp only [toFragment]
      rw [Text.splitLastRun_append, Text.splitLastRun_append]
      have hb := Text.splitLastRun_append Text.isBlank (splitQuote fragment).1
      rw [hs] at hb
      exact (congrArg (· ++ _) (by simpa using hb)).trans (splitQuote_append fragment)
  · exact absurd h (by simp)

end Assignment

end Stencil
