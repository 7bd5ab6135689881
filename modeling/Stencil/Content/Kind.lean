/-
# Stencil.Content.Kind -- the declared kinds of content

Content is declared to be markup, raw text, a style sheet or a script.  A kind has a name, and
`ofName` reads exactly the names (`ofName_eq_ok_iff`).
-/
import Stencil.Error
import Stencil.Json.Document

set_option autoImplicit false

namespace Stencil.Content

/-- The declared kind of a piece of content. -/
inductive Kind where
  | html
  /-- Content that the caller vouches for, never changed. -/
  | raw
  | css
  | js
  deriving DecidableEq, Repr

namespace Kind

def name : Kind → Text
  | .html => ['h', 't', 'm', 'l']
  | .raw => ['r', 'a', 'w']
  | .css => ['c', 's', 's']
  | .js => ['j', 's']

/-- The name of a kind with a capital, as diagnostics show it. -/
def title : Kind → Text
  | .html => ['H', 't', 'm', 'l']
  | .raw => ['R', 'a', 'w']
  | .css => ['C', 's', 's']
  | .js => ['J', 's']

def all : List Kind := [.html, .raw, .css, .js]

def ofName (s : Text) : Except Error Kind :=
  match all.find? (·.name == s) with
  | some kind => .ok kind
  | none => .error (.unknownKind s)

theorem ofName_name (kind : Kind) : ofName kind.name = .ok kind := by
  cases kind <;> rfl

/-- A text is read as a kind exactly if it is the kind's name. -/
theorem ofName_eq_ok_iff (s : Text) (kind : Kind) : ofName s = .ok kind ↔ s = kind.name := by
  constructor
  · intro h
    unfold ofName at h
    split at h
    · next found hfound =>
      obtain rfl := Except.ok.inj h
      have hname := List.find?_some hfound
      exact (eq_of_beq hname).symm
    · exact nomatch h
  · rintro rfl
    exact ofName_name kind

/-- The kind that a JSON document names: by a text, or by an object with the name as its only
key and nothing under it. -/
def ofJson? : Json → Option Kind
  | .text s => (ofName s).toOption
  | .object [(key, .null)] => (ofName key).toOption
  | _ => none

end Kind

end Stencil.Content
