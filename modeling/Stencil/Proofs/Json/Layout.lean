/-
# Stencil.Proofs.Json.Layout -- the texts of a tree

A tree has many texts: blanks may stand around every item, field, colon and comma, and an exponent
may be marked by either letter and have a plus sign.  `Tree.Layout` says which texts these are, by
recursion on the tree; blanks in front of the tree and behind it are left to `Padded`.  Whether a
tree has a text of the grammar at all depends on the strings and the numbers in it, which it keeps
as they are written: `Tree.Proper` asks that they are words of the grammar.

The pretty text is one of these texts, whatever its depth (`Tree.layout_pretty`).
-/
import Stencil.Json.Reader

set_option autoImplicit false

namespace Stencil.Json

/-! ## Blanks -/

/-- Nothing but blanks of JSON. -/
def Blanks (s : Text) : Prop := ∀ c ∈ s, isBlank c = true

theorem blanks_nil : Blanks [] := nofun

theorem blanks_space : Blanks [' '] := List.forall_mem_singleton.2 rfl

theorem blanks_newline (depth : Nat) : Blanks (Tree.newline depth) := by
  intro c member
  rcases List.mem_cons.1 member with rfl | space
  · rfl
  · rw [List.eq_of_mem_replicate space]
    rfl

/-- A text with the property, between blanks. -/
def Padded (core : Text → Prop) (s : Text) : Prop :=
  ∃ before middle after, Blanks before ∧ core middle ∧ Blanks after ∧ s = before ++ middle ++ after

theorem Padded.of_core {core : Text → Prop} {s : Text} (holds : core s) : Padded core s :=
  ⟨[], s, [], blanks_nil, holds, blanks_nil, by simp⟩

/-! ## Strings and numbers -/

/-- A string of the grammar, without its quotes. -/
inductive Written : Text → Prop where
  | nil : Written []
  | plain {c : Char} {s : Text} (quote : c ≠ '"') (backslash : c ≠ '\\') (control : ¬c < ' ')
      (rest : Written s) : Written (c :: s)
  | escape {e c : Char} {s : Text} (stands : escaped? e = some c) (rest : Written s) :
      Written ('\\' :: e :: s)
  | unit {a b c d : Char} {n : Nat} {s : Text} (stands : unit? a b c d = some n)
      (rest : Written s) : Written ('\\' :: 'u' :: a :: b :: c :: d :: s)

theorem written_encode (s : Text) : Written (encode s) := by
  induction s with
  | nil => exact .nil
  | cons c s ih =>
      rw [encode_cons]
      rcases encodeChar_cases c with ⟨e, stands, shape⟩ | ⟨low, shape⟩ |
        ⟨quote, backslash, control, shape⟩
      · rw [shape]
        exact .escape stands ih
      · rw [shape]
        exact .unit (unit?_hexChar c.toNat low) ih
      · rw [shape]
        exact .plain quote backslash control ih

/-- Nothing but decimal digits. -/
def Digits (s : Text) : Prop := ∀ c ∈ s, c.isDigit = true

namespace Numeral

/-- A number of the grammar: its parts are digits, there is one before the point and one in an
exponent, and a leading zero stands alone. -/
structure Proper (n : Numeral) : Prop where
  whole_digits : Digits n.whole
  whole_ne_nil : n.whole ≠ []
  zero_alone : ∀ c rest, n.whole ≠ '0' :: c :: rest
  fraction_digits : Digits n.fraction
  exponent_digits : ∀ negative digits, n.exponent = some (negative, digits) →
    Digits digits ∧ digits ≠ []

inductive SignLayout : (negative : Bool) → Text → Prop where
  | none : SignLayout false []
  | plus : SignLayout false ['+']
  | minus : SignLayout true ['-']

inductive ExponentLayout : Option (Bool × Text) → Text → Prop where
  | none : ExponentLayout none []
  | some {negative : Bool} {digits sign : Text} {mark : Char} (marked : mark = 'e' ∨ mark = 'E')
      (signed : SignLayout negative sign) :
      ExponentLayout (some (negative, digits)) (mark :: sign ++ digits)

def signText (n : Numeral) : Text := if n.negative then ['-'] else []

def fractionText (n : Numeral) : Text := if n.fraction.isEmpty then [] else '.' :: n.fraction

/-- The text is the number, with any way to write its exponent. -/
def Layout (n : Numeral) (s : Text) : Prop :=
  ∃ exponent, ExponentLayout n.exponent exponent ∧
    s = n.signText ++ n.whole ++ n.fractionText ++ exponent

theorem layout_text (n : Numeral) : n.Layout n.text := by
  obtain ⟨negative, whole, fraction, exponent⟩ := n
  match exponent with
  | none => exact ⟨[], .none, rfl⟩
  | some (false, digits) => exact ⟨'e' :: [] ++ digits, .some (.inl rfl) .none, rfl⟩
  | some (true, digits) => exact ⟨'e' :: ['-'] ++ digits, .some (.inl rfl) .minus, rfl⟩

end Numeral

/-! ## Trees -/

namespace Tree

mutual

/-- The strings and numbers in the tree are words of the grammar. -/
def Proper : Tree → Prop
  | .null | .bool _ => True
  | .number n => n.Proper
  | .string raw => Written raw
  | .array items => ItemsProper items
  | .object fields => FieldsProper fields

def ItemsProper : List Tree → Prop
  | [] => True
  | t :: more => Proper t ∧ ItemsProper more

def FieldsProper : List (Text × Tree) → Prop
  | [] => True
  | (key, t) :: more => Written key ∧ Proper t ∧ FieldsProper more

end

theorem fieldsProper_iff {fields : List (Text × Tree)} :
    FieldsProper fields ↔ ∀ field ∈ fields, Written field.1 ∧ field.2.Proper := by
  induction fields with
  | nil => simp [FieldsProper]
  | cons field more ih => simp [FieldsProper, ih, and_assoc]

mutual

/-- The text is the tree, with blanks inside it wherever the grammar has them. -/
def Layout : Tree → Text → Prop
  | .null, s => s = ['n', 'u', 'l', 'l']
  | .bool true, s => s = ['t', 'r', 'u', 'e']
  | .bool false, s => s = ['f', 'a', 'l', 's', 'e']
  | .number n, s => n.Layout s
  | .string raw, s => s = quote raw
  | .array items, s => ∃ body, ItemsLayout items body ∧ s = '[' :: body ++ [']']
  | .object fields, s => ∃ body, FieldsLayout fields body ∧ s = '{' :: body ++ ['}']

/-- The text between the brackets of an array. -/
def ItemsLayout : List Tree → Text → Prop
  | [], s => Blanks s
  | [t], s => Padded (Layout t) s
  | t :: more, s => ∃ first rest, Padded (Layout t) first ∧ ItemsLayout more rest ∧
      s = first ++ ',' :: rest

/-- The text between the braces of an object. -/
def FieldsLayout : List (Text × Tree) → Text → Prop
  | [], s => Blanks s
  | [(key, t)], s => ∃ name value, Padded (· = quote key) name ∧ Padded (Layout t) value ∧
      s = name ++ ':' :: value
  | (key, t) :: more, s => ∃ name value rest, Padded (· = quote key) name ∧
      Padded (Layout t) value ∧ FieldsLayout more rest ∧ s = name ++ ':' :: value ++ ',' :: rest

end

/-! ## The pretty text -/

mutual

/-- The pretty text is a text of the tree, at any depth. -/
theorem layout_pretty : ∀ (depth : Nat) (t : Tree), t.Layout (t.pretty depth)
  | _, .null => rfl
  | _, .bool true => rfl
  | _, .bool false => rfl
  | _, .number n => n.layout_text
  | _, .string _ => rfl
  | _, .array [] => ⟨[], blanks_nil, rfl⟩
  | depth, .array (t :: more) =>
      ⟨_, itemsLayout_prettyItems (depth + 1) (t :: more) (blanks_newline depth), by
        simp [pretty]⟩
  | _, .object [] => ⟨[], blanks_nil, rfl⟩
  | depth, .object (field :: more) =>
      ⟨_, fieldsLayout_prettyFields (depth + 1) (field :: more) (blanks_newline depth), by
        simp [pretty]⟩

theorem itemsLayout_prettyItems : ∀ (depth : Nat) (items : List Tree) {gap : Text},
    Blanks gap → ItemsLayout items (prettyItems depth items ++ gap)
  | _, [], _, blanks => blanks
  | depth, [t], gap, blanks =>
      ⟨newline depth, t.pretty depth, gap, blanks_newline depth, layout_pretty depth t, blanks, by
        simp [prettyItems]⟩
  | depth, t :: next :: more, _, blanks =>
      ⟨newline depth ++ t.pretty depth, _,
        ⟨newline depth, t.pretty depth, [], blanks_newline depth, layout_pretty depth t,
          blanks_nil, by simp⟩,
        itemsLayout_prettyItems depth (next :: more) blanks, by simp [prettyItems]⟩

theorem fieldsLayout_prettyFields : ∀ (depth : Nat) (fields : List (Text × Tree)) {gap : Text},
    Blanks gap → FieldsLayout fields (prettyFields depth fields ++ gap)
  | _, [], _, blanks => blanks
  | depth, [(key, t)], gap, blanks =>
      ⟨newline depth ++ quote key, ' ' :: t.pretty depth ++ gap,
        ⟨newline depth, quote key, [], blanks_newline depth, rfl, blanks_nil, by simp⟩,
        ⟨[' '], t.pretty depth, gap, blanks_space, layout_pretty depth t, blanks, by simp⟩, by
        simp [prettyFields]⟩
  | depth, (key, t) :: next :: more, _, blanks =>
      ⟨newline depth ++ quote key, ' ' :: t.pretty depth, _,
        ⟨newline depth, quote key, [], blanks_newline depth, rfl, blanks_nil, by simp⟩,
        ⟨[' '], t.pretty depth, [], blanks_space, layout_pretty depth t, blanks_nil, by simp⟩,
        fieldsLayout_prettyFields depth (next :: more) blanks, by simp [prettyFields]⟩

end

end Tree

end Stencil.Json
