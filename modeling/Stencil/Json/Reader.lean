/-
# Stencil.Json.Reader -- from a JSON text to its tree

The grammar is read strictly: blanks are space, tabulator, line feed and carriage return, there is
no comma after the last item or field, a number has no leading zero, and nothing but blanks follows
the tree.  Strings and numbers are checked against the grammar and kept as written.

Reading is by recursion on a bound for the number of steps.  Every step that reads an item or a
field takes at least one character, so a bound of twice the length is never reached.
-/
import Stencil.Json.Tree

set_option autoImplicit false

namespace Stencil.Json

/-- Whether the character is a blank of JSON. -/
def isBlank (c : Char) : Bool := c == ' ' || c == '\t' || c == '\n' || c == '\r'

def skipBlanks (s : Text) : Text := s.dropWhile isBlank

namespace Reader

/-- Digits at the front, at least one. -/
def digits? (s : Text) : Option (Text × Text) :=
  match Text.splitRun Char.isDigit s with
  | ([], _) => none
  | (digits, rest) => some (digits, rest)

/-- The digits before the point: a zero stands alone. -/
def whole? (s : Text) : Option (Text × Text) :=
  match digits? s with
  | some ('0' :: _ :: _, _) => none
  | found => found

/-- The digits after a point, if there is one. -/
def fraction? (s : Text) : Option (Text × Text) :=
  match s with
  | '.' :: rest => digits? rest
  | _ => some ([], s)

/-- The sign at the front of an exponent. -/
def exponentSign (s : Text) : Bool × Text :=
  match s with
  | '+' :: rest => (false, rest)
  | '-' :: rest => (true, rest)
  | _ => (false, s)

/-- The exponent, if there is one. -/
def exponent? (s : Text) : Option (Option (Bool × Text) × Text) :=
  match s with
  | c :: rest =>
      if c = 'e' ∨ c = 'E' then
        let (negative, rest) := exponentSign rest
        (digits? rest).map fun (digits, rest) => (some (negative, digits), rest)
      else some (none, s)
  | [] => some (none, s)

def numeral? (s : Text) : Option (Numeral × Text) := do
  let (negative, s) := match s with
    | '-' :: rest => (true, rest)
    | _ => (false, s)
  let (whole, s) ← whole? s
  let (fraction, s) ← fraction? s
  let (exponent, s) ← exponent? s
  some (⟨negative, whole, fraction, exponent⟩, s)

/-- One of the three words at the front. -/
def word? (s : Text) : Option (Tree × Text) :=
  match Text.after? ['n', 'u', 'l', 'l'] s with
  | some rest => some (.null, rest)
  | none =>
    match Text.after? ['t', 'r', 'u', 'e'] s with
    | some rest => some (.bool true, rest)
    | none =>
      match Text.after? ['f', 'a', 'l', 's', 'e'] s with
      | some rest => some (.bool false, rest)
      | none => none

mutual

/-- A tree at the front, after blanks. -/
def tree? : (bound : Nat) → Text → Option (Tree × Text)
  | 0, _ => none
  | bound + 1, s =>
      match skipBlanks s with
      | '"' :: rest => (scan rest).map fun (raw, rest) => (.string raw, rest)
      | '[' :: rest =>
          match skipBlanks rest with
          | ']' :: rest => some (.array [], rest)
          | _ => (items? bound rest).map fun (items, rest) => (.array items, rest)
      | '{' :: rest =>
          match skipBlanks rest with
          | '}' :: rest => some (.object [], rest)
          | _ => (fields? bound rest).map fun (fields, rest) => (.object fields, rest)
      | s =>
          match word? s with
          | some found => some found
          | none => (numeral? s).map fun (n, rest) => (.number n, rest)

/-- Items up to the end of an array, at least one. -/
def items? : (bound : Nat) → Text → Option (List Tree × Text)
  | 0, _ => none
  | bound + 1, s => do
      let (t, rest) ← tree? bound s
      match skipBlanks rest with
      | ',' :: rest => (items? bound rest).map fun (more, rest) => (t :: more, rest)
      | ']' :: rest => some ([t], rest)
      | _ => none

/-- Fields up to the end of an object, at least one. -/
def fields? : (bound : Nat) → Text → Option (List (Text × Tree) × Text)
  | 0, _ => none
  | bound + 1, s =>
      match skipBlanks s with
      | '"' :: rest => do
          let (key, rest) ← scan rest
          match skipBlanks rest with
          | ':' :: rest => do
              let (t, rest) ← tree? bound rest
              match skipBlanks rest with
              | ',' :: rest => (fields? bound rest).map fun (more, rest) => ((key, t) :: more, rest)
              | '}' :: rest => some ([(key, t)], rest)
              | _ => none
          | _ => none
      | _ => none

end

end Reader

/-- The tree of a whole JSON text. -/
def Tree.ofText? (s : Text) : Option Tree :=
  match Reader.tree? (2 * s.length + 2) s with
  | some (t, rest) => if (skipBlanks rest).isEmpty then some t else none
  | none => none

end Stencil.Json
