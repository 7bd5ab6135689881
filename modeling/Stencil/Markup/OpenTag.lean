/-
# Stencil.Markup.OpenTag -- whether a slot stands inside a tag

Only a slot inside a tag can be the value of an attribute.  Whether a slot is inside one is read
off the fragments before it, nearest first: a fragment settles the question when it leaves a tag
open, or when its last tag is closed.  A fragment that does neither passes the question on.  What
settles it are two patterns, `openPattern` and `closedPattern` (see Stencil.Proofs.Markup.Pattern).
-/
import Stencil.Text.Letter

set_option autoImplicit false

namespace Stencil.OpenTag

/-- The part of a text after its last closing bracket. -/
def lastPart (s : Text) : Text := (Text.splitLastRun (· != '>') s).2

/-- Whether the text begins with a letter and goes on after it, as a tag does behind its opening
bracket. -/
def startsName : Text → Bool
  | c :: _ :: _ => Text.isLetter c
  | _ => false

/-- Whether the text holds an opening bracket with the beginning of a tag behind it. -/
def opensTag : Text → Bool
  | [] => false
  | c :: rest => (c == '<' && startsName rest) || opensTag rest

/-- What a fragment alone says: that a tag is open at its end, that its last tag is closed, or
neither. -/
def verdict (fragment : Text) : Option Bool :=
  if opensTag (lastPart fragment) then some true
  else if fragment.contains '>' && !(lastPart fragment).contains '<' then some false
  else none

/-- Whether a slot stands inside a tag, given the fragments before it, nearest first. -/
def isInside (before : List Text) : Bool := (before.findSome? verdict).getD false

end Stencil.OpenTag
