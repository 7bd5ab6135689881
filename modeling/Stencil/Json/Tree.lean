/-
# Stencil.Json.Tree -- JSON as it is written

A `Tree` is the structure of a JSON text with every string and number kept as written, so that a
reader which needs only some parts decodes only those.  `Tree.compact` and `Tree.pretty` write a
tree, on one line and with one field or item on a line.
-/
import Stencil.Json.Quote

set_option autoImplicit false

namespace Stencil.Json

/-- A number as it is written: its sign, the digits before and after the point, and the exponent
with its sign.  A number without a point has no fraction digits. -/
structure Numeral where
  negative : Bool
  whole : Text
  fraction : Text
  /-- Whether the exponent has a minus sign, and its digits. -/
  exponent : Option (Bool × Text)
  deriving DecidableEq, Repr

/-- A natural number as it is written. -/
def Numeral.ofNat (n : Nat) : Numeral := ⟨false, Text.numeral n, [], none⟩

def Numeral.text (n : Numeral) : Text :=
  (if n.negative then ['-'] else []) ++ n.whole ++
    (if n.fraction.isEmpty then [] else '.' :: n.fraction) ++
      match n.exponent with
      | none => []
      | some (negative, digits) => 'e' :: (if negative then ['-'] else []) ++ digits

/-- The structure of a JSON text. -/
inductive Tree where
  | null
  | bool (b : Bool)
  | number (n : Numeral)
  /-- A string, as written between its quotes. -/
  | string (raw : Text)
  | array (items : List Tree)
  /-- An object: its fields in order, each key as written between its quotes. -/
  | object (fields : List (Text × Tree))
  deriving Repr

namespace Tree

def ofNat (n : Nat) : Tree := .number (.ofNat n)

def ofText (s : Text) : Tree := .string (encode s)

/-- The tree of an object with the given keys. -/
def ofFields (fields : List (Text × Tree)) : Tree :=
  .object (fields.map fun (key, t) => (encode key, t))

/-- A written string between its quotes. -/
def quote (raw : Text) : Text := '"' :: raw ++ ['"']

mutual

/-- The tree on one line, without blanks. -/
def compact : Tree → Text
  | .null => ['n', 'u', 'l', 'l']
  | .bool true => ['t', 'r', 'u', 'e']
  | .bool false => ['f', 'a', 'l', 's', 'e']
  | .number n => n.text
  | .string raw => quote raw
  | .array items => '[' :: compactItems items ++ [']']
  | .object fields => '{' :: compactFields fields ++ ['}']

def compactItems : List Tree → Text
  | [] => []
  | [t] => compact t
  | t :: more => compact t ++ ',' :: compactItems more

def compactFields : List (Text × Tree) → Text
  | [] => []
  | [(key, t)] => quote key ++ ':' :: compact t
  | (key, t) :: more => quote key ++ ':' :: compact t ++ ',' :: compactFields more

end

/-- A line end and the indentation of a depth: two spaces for each level. -/
def newline (depth : Nat) : Text := '\n' :: List.replicate (2 * depth) ' '

mutual

/-- The tree with every item and field on a line of its own, indented by its depth. -/
def pretty (depth : Nat) : Tree → Text
  | .array (t :: more) => '[' :: prettyItems (depth + 1) (t :: more) ++ newline depth ++ [']']
  | .object (field :: more) =>
      '{' :: prettyFields (depth + 1) (field :: more) ++ newline depth ++ ['}']
  | .null => ['n', 'u', 'l', 'l']
  | .bool true => ['t', 'r', 'u', 'e']
  | .bool false => ['f', 'a', 'l', 's', 'e']
  | .number n => n.text
  | .string raw => quote raw
  | .array [] => ['[', ']']
  | .object [] => ['{', '}']

def prettyItems (depth : Nat) : List Tree → Text
  | [] => []
  | [t] => newline depth ++ pretty depth t
  | t :: more => newline depth ++ pretty depth t ++ ',' :: prettyItems depth more

/-- Fields, each on a line of its own, with a space after the colon. -/
def prettyFields (depth : Nat) : List (Text × Tree) → Text
  | [] => []
  | [(key, t)] => newline depth ++ quote key ++ ':' :: ' ' :: pretty depth t
  | (key, t) :: more =>
      newline depth ++ quote key ++ ':' :: ' ' :: pretty depth t ++
        ',' :: prettyFields depth more

end

end Tree

end Stencil.Json
