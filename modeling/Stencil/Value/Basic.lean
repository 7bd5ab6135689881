/-
# Stencil.Value.Basic -- what fills a slot

A value is what a caller gives for a slot of a template.  It has two texts: `Value.toText`, the
plain text that attributes are made of and escape themselves, and `Value.toMarkup`, what stands
between tags, where text is escaped and content is trusted as its kind says.  `Value.equals`
compares numbers as numbers and content by kind and body.
-/
import Stencil.Content.Basic
import Stencil.Number.Shortest
import Stencil.Text.Entity

set_option autoImplicit false

namespace Stencil

/-- A value for a slot. -/
inductive Value where
  | text (s : Text)
  | number (x : Number.Double)
  | bool (b : Bool)
  | null
  /-- Content with a declared kind. -/
  | content (c : Content)
  | list (items : List Value)
  /-- Values under keys, for the slots that write one attribute for each key. -/
  | record (fields : List (Text × Value))
  /-- Anything else, as the text that the caller made of it. -/
  | other (s : Text)

/-- Values under keys, in order of insertion; a key may occur again. -/
abbrev Record := List (Text × Value)

namespace Value

/-- The words for the truth values. -/
def boolText (b : Bool) : Text :=
  if b then ['t', 'r', 'u', 'e'] else ['f', 'a', 'l', 's', 'e']

mutual

/-- The plain text of a value.  The items of a list have commas between them, a record has no
text, and content is its body whatever its kind. -/
def toText : Value → Text
  | .text s => s
  | .number x => x.text
  | .bool b => boolText b
  | .null => []
  | .content c => c.body
  | .list items => List.intercalate [','] (itemTexts items)
  | .record _ => []
  | .other s => s

def itemTexts : List Value → List Text
  | [] => []
  | v :: more => toText v :: itemTexts more

end

mutual

/-- The markup of a value between tags.  Text is escaped; markup and raw content are taken as
they are, style sheets and scripts are shortened first. -/
def toMarkup : Value → Text
  | .text s => Text.escape s
  | .number x => x.text
  | .bool b => boolText b
  | .null => []
  | .content c =>
      match c.kind with
      | .html => c.body
      | .raw => c.body
      | .css => c.shortened
      | .js => c.shortened
  | .list items => itemsMarkup items
  | .record _ => []
  | .other s => Text.escape s

def itemsMarkup : List Value → Text
  | [] => []
  | v :: more => toMarkup v ++ itemsMarkup more

end

mutual

/-- Whether two values are equal. -/
def equals : Value → Value → Bool
  | .text a, .text b => a == b
  | .number a, .number b => a.equals b
  | .bool a, .bool b => a == b
  | .null, .null => true
  | .content a, .content b => a.equals b
  | .list a, .list b => itemsEqual a b
  | .record a, .record b => fieldsEqual a b
  | .other a, .other b => a == b
  | _, _ => false

def itemsEqual : List Value → List Value → Bool
  | [], [] => true
  | a :: as, b :: bs => equals a b && itemsEqual as bs
  | _, _ => false

def fieldsEqual : List (Text × Value) → List (Text × Value) → Bool
  | [], [] => true
  | (k, a) :: as, (l, b) :: bs => k == l && equals a b && fieldsEqual as bs
  | _, _ => false

end

def isNull : Value → Bool
  | .null => true
  | _ => false

/-- The value of an integer: the nearest double. -/
def ofInt (n : Int) : Value := .number (Number.Binary.ofInt _ n)

/-- The value of a number of 32 bits: the double with the same shortest text. -/
def ofSingle (x : Number.Single) : Value := .number x.widen

/-- The value that is there, or no value. -/
def ofOption (v : Option Value) : Value := v.getD .null

mutual

/-- The value of a JSON document.  An object becomes a record in its own order. -/
def ofJson : Json → Value
  | .null => .null
  | .bool b => .bool b
  | .number n => .number n.toDouble
  | .text s => .text s
  | .list items => .list (ofJsonItems items)
  | .object fields => .record (ofJsonFields fields)

def ofJsonItems : List Json → List Value
  | [] => []
  | j :: more => ofJson j :: ofJsonItems more

def ofJsonFields : List (Text × Json) → Record
  | [] => []
  | (key, j) :: more => (key, ofJson j) :: ofJsonFields more

end

/-- A value inside so many lists of one item. -/
def nested (depth : Nat) (v : Value) : Value := Nat.repeat (fun v => .list [v]) depth v

@[simp] theorem itemTexts_eq_map (items : List Value) : itemTexts items = items.map toText := by
  induction items with
  | nil => rfl
  | cons v more ih => simp [itemTexts, ih]

@[simp] theorem itemsMarkup_eq_flatMap (items : List Value) :
    itemsMarkup items = items.flatMap toMarkup := by
  induction items with
  | nil => rfl
  | cons v more ih => simp [itemsMarkup, ih]

end Value

end Stencil
