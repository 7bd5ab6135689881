/-
# Stencil.Proofs.Value.Delimiters -- values without content hold no delimiter

Content is the only kind of value that is trusted.  `Value.holdsContent` looks for content in a
value at any depth of lists and records, and `Value.leaves` takes the lists of a value apart.
Without content the markup of a value is the escaped text of its leaves, one after the other
(`Value.toMarkup_eq_escape`): every leaf is escaped once, and numbers and truth values, which are
written as they are, hold nothing to escape.

So such markup is inert and decodes to the text of the leaves (`Value.inert_toMarkup`).  It is what
a JSON document becomes, as there is no content in JSON (`Value.holdsContent_ofJson`).
-/
import Stencil.Proofs.Number.Characters
import Stencil.Proofs.Text.Escaping
import Stencil.Value.Basic

set_option autoImplicit false

namespace Stencil.Value

mutual

/-- Whether there is content in a value, at any depth. -/
def holdsContent : Value → Bool
  | .content _ => true
  | .list items => itemsHoldContent items
  | .record fields => fieldsHoldContent fields
  | .text _ | .number _ | .bool _ | .null | .other _ => false

def itemsHoldContent : List Value → Bool
  | [] => false
  | v :: more => holdsContent v || itemsHoldContent more

def fieldsHoldContent : List (Text × Value) → Bool
  | [] => false
  | (_, v) :: more => holdsContent v || fieldsHoldContent more

end

mutual

/-- What is left of a value when all lists in it are taken apart, in order. -/
def leaves : Value → List Value
  | .list items => itemLeaves items
  | .text s => [.text s]
  | .number x => [.number x]
  | .bool b => [.bool b]
  | .null => [.null]
  | .content c => [.content c]
  | .record fields => [.record fields]
  | .other s => [.other s]

def itemLeaves : List Value → List Value
  | [] => []
  | v :: more => leaves v ++ itemLeaves more

end

/-! ## Leaves that are written as they are -/

/-- No character of a number's text has a meaning in markup. -/
theorem entity_of_isNumberChar {c : Char} (h : Number.isNumberChar c = true) :
    Text.entity c = [c] := by
  have apart : Text.special.any Number.isNumberChar = false := by decide
  exact Text.entity_of_not_mem_special fun isSpecial => List.any_eq_false.1 apart c isSpecial h

/-- The text of a number is its own escaped text. -/
theorem escape_numberText (x : Number.Double) : Text.escape x.text = x.text :=
  Text.escape_eq_self fun _ member =>
    entity_of_isNumberChar (Number.Binary.isNumberChar_of_mem_text member)

/-- So are the words for the truth values. -/
theorem escape_boolText (b : Bool) : Text.escape (boolText b) = boolText b := by
  cases b <;> rfl

/-! ## Values without content -/

mutual

/-- Without content in it a value's markup is the escaped text of its leaves. -/
theorem toMarkup_eq_escape : ∀ {v : Value}, v.holdsContent = false →
    v.toMarkup = Text.escape (v.leaves.flatMap toText)
  | .text s, _ => by rw [toMarkup, leaves, List.flatMap_singleton, toText]
  | .number x, _ => by rw [toMarkup, leaves, List.flatMap_singleton, toText, escape_numberText]
  | .bool b, _ => by rw [toMarkup, leaves, List.flatMap_singleton, toText, escape_boolText]
  | .null, _ => rfl
  | .content _, held => nomatch held
  | .list _, free => itemsMarkup_eq_escape free
  | .record _, _ => rfl
  | .other s, _ => by rw [toMarkup, leaves, List.flatMap_singleton, toText]

theorem itemsMarkup_eq_escape : ∀ {items : List Value}, itemsHoldContent items = false →
    itemsMarkup items = Text.escape ((itemLeaves items).flatMap toText)
  | [], _ => rfl
  | v :: more, free => by
      obtain ⟨first, others⟩ := Bool.or_eq_false_iff.1 free
      rw [itemsMarkup, itemLeaves, List.flatMap_append, Text.escape_append,
        toMarkup_eq_escape first, itemsMarkup_eq_escape others]

end

/-- Without content in it a value's markup has no bracket and no quote. -/
theorem not_isDelimiter_of_mem_toMarkup {v : Value} (free : v.holdsContent = false) :
    ∀ c ∈ v.toMarkup, Text.isDelimiter c = false := by
  rw [toMarkup_eq_escape free]
  exact (Text.inert_escape _).not_isDelimiter

mutual

/-- There is no content in JSON. -/
theorem holdsContent_ofJson : ∀ j : Json, (ofJson j).holdsContent = false
  | .null | .bool _ | .number _ | .text _ => rfl
  | .list items => itemsHoldContent_ofJsonItems items
  | .object fields => fieldsHoldContent_ofJsonFields fields

theorem itemsHoldContent_ofJsonItems : ∀ items : List Json,
    itemsHoldContent (ofJsonItems items) = false
  | [] => rfl
  | j :: more => by
      rw [ofJsonItems, itemsHoldContent, holdsContent_ofJson j, itemsHoldContent_ofJsonItems more]
      rfl

theorem fieldsHoldContent_ofJsonFields : ∀ fields : List (Text × Json),
    fieldsHoldContent (ofJsonFields fields) = false
  | [] => rfl
  | (_, j) :: more => by
      rw [ofJsonFields, fieldsHoldContent, holdsContent_ofJson j,
        fieldsHoldContent_ofJsonFields more]
      rfl

end

/-- Without content in it a value's markup ends no tag and no attribute, its ampersands begin
entities, and decoding it gives the text of the leaves, which was escaped once.  Every JSON document
is such a value. -/
theorem inert_toMarkup :
    (∀ v : Value, v.holdsContent = false →
      Text.Inert v.toMarkup ∧ Text.decode v.toMarkup = v.leaves.flatMap toText ∧
        v.toMarkup = Text.escape (v.leaves.flatMap toText)) ∧
    ∀ j : Json, (ofJson j).holdsContent = false ∧ Text.Inert (ofJson j).toMarkup ∧
      Text.decode (ofJson j).toMarkup = (ofJson j).leaves.flatMap toText := by
  have inert (v : Value) (free : v.holdsContent = false) : Text.Inert v.toMarkup ∧
      Text.decode v.toMarkup = v.leaves.flatMap toText ∧
        v.toMarkup = Text.escape (v.leaves.flatMap toText) := by
    have escaped := toMarkup_eq_escape free
    rw [escaped]
    exact ⟨Text.inert_escape _, Text.decode_escape _, rfl⟩
  refine ⟨inert, fun j => ?_⟩
  obtain ⟨undelimited, decoded, -⟩ := inert (ofJson j) (holdsContent_ofJson j)
  exact ⟨holdsContent_ofJson j, undelimited, decoded⟩

/-- Text that looks escaped already, a number, and lists in a list. -/
def hostileList : Value :=
  .list [.text "&lt;<i>".toList, .list [.number (.infinite true), .null, .list [.bool true]],
    .record [(['k'], .text ['<'])], .other "\"'".toList]

theorem inert_hostileList :
    hostileList.holdsContent = false ∧ Text.Inert hostileList.toMarkup ∧
      hostileList.toMarkup = "&amp;lt;&lt;i&gt;-Infinitytrue&quot;&#x27;".toList ∧
      Text.decode hostileList.toMarkup = "&lt;<i>-Infinitytrue\"'".toList := by
  obtain ⟨inert, decoded, -⟩ := inert_toMarkup.1 hostileList rfl
  exact ⟨rfl, inert, by decide, decoded.trans (by decide)⟩

end Stencil.Value
