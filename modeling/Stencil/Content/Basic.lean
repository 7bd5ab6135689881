/-
# Stencil.Content.Basic -- content with a declared kind

A piece of content has been produced already.  It comes with its kind and with the minifier that
shortens it.  Two pieces are equal when their kinds and their bodies are; the minifier does not
count.
-/
import Stencil.Content.Kind
import Stencil.Text.Blank
import Stencil.Text.Quoted

set_option autoImplicit false

namespace Stencil

/-- How content of a kind is shortened. -/
abbrev Minifier := Content.Kind → Text → Text

namespace Minifier

/-- Takes the blanks off both ends. -/
def trimming : Minifier := fun _ body => Text.trim body

/-- Puts one space between words, after a comment that names the kind. -/
def collapsing : Minifier := fun kind body =>
  ['/', '*'] ++ kind.name ++ ['*', '/'] ++
    List.intercalate [' '] (Text.words Text.isAsciiBlank body)

def shouting : Minifier := fun _ body => body.map Char.toUpper

end Minifier

/-- Content with its kind and its minifier. -/
structure Content where
  kind : Content.Kind
  body : Text
  minifier : Minifier := Minifier.trimming

namespace Content

/-- The shortened content.  Raw content is never changed. -/
def shortened (c : Content) : Text :=
  if c.kind = .raw then c.body else c.minifier c.kind c.body

def equals (a b : Content) : Bool := a.kind == b.kind && a.body == b.body

/-- The content as diagnostics show it: its kind and its quoted body. -/
def shown (c : Content) : Text :=
  "Chunk \x7b kind: ".toList ++ c.kind.title ++ ", body: ".toList ++ Text.quoted c.body ++
    ", .. \x7d".toList

end Content

end Stencil
