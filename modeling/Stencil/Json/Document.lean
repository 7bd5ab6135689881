/-
# Stencil.Json.Document -- JSON as data

A `Json` document is what a tree stands for: strings and numbers are decoded, and an object has
every key once.  A key that is written again keeps its place and takes the later value.
-/
import Stencil.Json.Number
import Stencil.Json.Reader

set_option autoImplicit false

namespace Stencil

/-- A JSON document. -/
inductive Json where
  | null
  | bool (b : Bool)
  | number (n : Json.Number)
  | text (s : Text)
  | list (items : List Json)
  | object (fields : List (Text × Json))
  deriving Repr

namespace Json

/-- Puts a value under a key: in its place if the key is there, else at the end. -/
def put {α : Type} (fields : List (Text × α)) (key : Text) (value : α) : List (Text × α) :=
  match fields with
  | [] => [(key, value)]
  | (k, v) :: more => if k = key then (k, value) :: more else (k, v) :: put more key value

/-- Every key once, in the order of first mention, with its last value. -/
def collect {α : Type} (fields : List (Text × α)) : List (Text × α) :=
  fields.foldl (fun done (key, value) => put done key value) []

mutual

/-- The document that a tree stands for; none if a string or a number stands for nothing. -/
def ofTree? : Tree → Option Json
  | .null => some .null
  | .bool b => some (.bool b)
  | .number n => n.value?.map .number
  | .string raw => (decode? raw).map .text
  | .array items => (ofItems? items).map .list
  | .object fields => (ofFields? fields).map fun fields => .object (collect fields)

def ofItems? : List Tree → Option (List Json)
  | [] => some []
  | t :: more => do
      let j ← ofTree? t
      let js ← ofItems? more
      some (j :: js)

def ofFields? : List (Text × Tree) → Option (List (Text × Json))
  | [] => some []
  | (raw, t) :: more => do
      let key ← decode? raw
      let j ← ofTree? t
      let fields ← ofFields? more
      some ((key, j) :: fields)

end

/-- The document of a whole JSON text. -/
def ofText? (s : Text) : Option Json := (Tree.ofText? s).bind ofTree?

def get? : Json → Text → Option Json
  | .object fields, key => (fields.find? (·.1 == key)).map (·.2)
  | _, _ => none

end Json

end Stencil
