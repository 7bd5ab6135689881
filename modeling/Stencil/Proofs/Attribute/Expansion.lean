/-
# Stencil.Proofs.Attribute.Expansion -- a record as attributes

A record is written as one attribute for each of its fields, in order, whose body holds no delimiter
and decodes to the text of the field's value (`Record.expands_fields`).  No value can close an
attribute or a tag.

Of a key that is not so: only its capitals are lowered and parted by hyphens, so a character that
ends a name is in the name exactly if it is in the key.  The attributes are as many well-formed ones
if and only if no key holds such a character; a key that holds a blank makes two attributes of one
(`Record.not_unbroken_forged`).
-/
import Stencil.Proofs.Attribute.Forms
import Stencil.Proofs.Text.Hyphen
import Stencil.Proofs.Text.Infix
import Stencil.Text.Blank

set_option autoImplicit false

namespace Stencil

namespace Attribute

/-! ## Names -/

/-- Whether the character ends the name of an attribute. -/
def endsName (c : Char) : Bool :=
  Text.isBlank c || c == '"' || c == '\'' || c == '=' || c == '<' || c == '>' || c == '/'

/-- A text without a character that ends a name. -/
def Unbroken (name : Text) : Prop := ∀ c ∈ name, endsName c = false

theorem any_endsName_iff (name : Text) : name.any endsName = false ↔ Unbroken name := by
  simp [Unbroken]

instance (name : Text) : Decidable (Unbroken name) :=
  decidable_of_iff _ (any_endsName_iff name)

/-- The characters of a name that end it are those of its key. -/
def SameEnds (key name : Text) : Prop := ∀ c, endsName c = true → (c ∈ name ↔ c ∈ key)

theorem unbroken_iff_not (s : Text) : Unbroken s ↔ ∀ c, ¬ (c ∈ s ∧ endsName c = true) := by
  simp [Unbroken]

theorem SameEnds.unbroken_iff {key name : Text} (same : SameEnds key name) :
    Unbroken name ↔ Unbroken key := by
  rw [unbroken_iff_not, unbroken_iff_not]
  exact forall_congr' fun c => not_congr (and_congr_left (same c))

theorem isAlpha_of_isBlank {c : Char} (blank : Text.isBlank c = true) : c.isAlpha = false := by
  simp only [Text.isBlank, Bool.or_eq_true, Bool.and_eq_true, decide_eq_true_eq, beq_iff_eq]
    at blank
  exact Text.isAlpha_eq_false_iff.2 ⟨by omega, by omega⟩

/-- No letter and no hyphen ends a name. -/
theorem isAlpha_of_endsName {c : Char} (ends : endsName c = true) :
    c.isAlpha = false ∧ c ≠ '-' := by
  simp only [endsName, Bool.or_eq_true, beq_iff_eq] at ends
  rcases ends with (((((blank | rfl) | rfl) | rfl) | rfl) | rfl) | rfl
  · refine ⟨isAlpha_of_isBlank blank, ?_⟩
    rintro rfl
    cases blank
  all_goals decide

/-- A word before the suffix adds no end if it has none. -/
theorem sameEnds_append_hyphenate {word : Text} (unbroken : Unbroken word) (key : Text) :
    SameEnds key (word ++ Text.hyphenate key) := by
  intro c ends
  obtain ⟨other, ne⟩ := isAlpha_of_endsName ends
  have outside : c ∉ word := fun member => by
    rw [unbroken c member] at ends
    cases ends
  rw [List.mem_append, or_iff_right outside, Text.mem_hyphenate_iff other ne]

theorem sameEnds_dataName (key : Text) : SameEnds key (Record.dataName key) :=
  sameEnds_append_hyphenate (by decide) key

theorem sameEnds_ariaName (key : Text) : SameEnds key (Record.ariaName key) := by
  rw [Record.ariaName]
  split
  · exact fun _ _ => Iff.rfl
  · exact sameEnds_append_hyphenate (by decide) key

/-! ## Attributes one after the other -/

/-- Attributes by their names and bodies, in double quotes. -/
def encloseAll (parts : List (Text × Text)) : Text :=
  parts.flatMap fun part => enclose part.1 .double part.2

theorem encloseAll_cons (part : Text × Text) (more : List (Text × Text)) :
    encloseAll (part :: more) = enclose part.1 .double part.2 ++ encloseAll more := rfl

/-- Two quotes belong to each attribute; any others are in the names. -/
theorem count_encloseAll : ∀ {parts : List (Text × Text)}, (∀ part ∈ parts, '"' ∉ part.2) →
    (encloseAll parts).count '"' = 2 * parts.length + (parts.flatMap Prod.fst).count '"'
  | [], _ => rfl
  | (name, body) :: more, free => by
      obtain ⟨first, others⟩ := List.forall_mem_cons.1 free
      have rest := count_encloseAll others
      have inBody : body.count '"' = 0 := List.count_eq_zero.2 first
      rw [encloseAll_cons, List.count_append, rest, List.flatMap_cons, List.count_append]
      simp [enclose, Quote.char, inBody]
      omega

/-- Without quotes in the names and the bodies the attributes are told by the text. -/
theorem encloseAll_injective : ∀ {parts parts' : List (Text × Text)},
    (∀ part ∈ parts, '"' ∉ part.1 ∧ '"' ∉ part.2) →
      (∀ part ∈ parts', '"' ∉ part.1 ∧ '"' ∉ part.2) →
        encloseAll parts = encloseAll parts' → parts = parts'
  | [], [], _, _, _ => rfl
  | [], _ :: _, _, _, same => nomatch same
  | _ :: _, [], _, _, same => nomatch same
  | (name, body) :: more, (name', body') :: more', free, free', same => by
      obtain ⟨⟨inName, inBody⟩, others⟩ := List.forall_mem_cons.1 free
      obtain ⟨⟨inName', inBody'⟩, others'⟩ := List.forall_mem_cons.1 free'
      simp only [encloseAll_cons, enclose, Quote.char] at same
      have split : (' ' :: name ++ ['=']) ++ '"' :: (body ++ '"' :: encloseAll more) =
          (' ' :: name' ++ ['=']) ++ '"' :: (body' ++ '"' :: encloseAll more') := by
        simpa using same
      obtain ⟨front, behind⟩ :=
        Text.eq_of_append_cons (by simpa using inName) (by simpa using inName') split
      obtain ⟨rfl, rest⟩ := Text.eq_of_append_cons inBody inBody' behind
      obtain rfl : name = name' := (List.cons.inj (List.append_cancel_right front)).2
      rw [encloseAll_injective others others' rest]

/-- As many attributes as there are, with the same text, have the same names if one list of them
has no quote in its names. -/
theorem eq_of_encloseAll_eq {parts parts' : List (Text × Text)}
    (count : parts.length = parts'.length) (free : ∀ part ∈ parts, '"' ∉ part.2)
    (free' : ∀ part ∈ parts', '"' ∉ part.1 ∧ '"' ∉ part.2)
    (same : encloseAll parts = encloseAll parts') : parts = parts' := by
  have quotes := congrArg (List.count '"') same
  have none' : (parts'.flatMap Prod.fst).count '"' = 0 := by
    refine List.count_eq_zero.2 fun member => ?_
    obtain ⟨part, here, inName⟩ := List.mem_flatMap.1 member
    exact (free' part here).1 inName
  rw [count_encloseAll free, count_encloseAll fun part here => (free' part here).2, none', count]
    at quotes
  have none : (parts.flatMap Prod.fst).count '"' = 0 := by omega
  refine encloseAll_injective (fun part here => ⟨fun inName => ?_, free part here⟩) free' same
  exact List.count_eq_zero.1 none (List.mem_flatMap.2 ⟨part, here, inName⟩)

end Attribute

namespace Record

open Attribute

/-! ## Records -/

/-- An attribute, by its name and its body, that carries a field: the name is as wanted for the
key, and the body holds no delimiter and decodes to the text of the value. -/
structure Carries (wanted : Text → Text → Prop) (field : Text × Value) (part : Text × Text) :
    Prop where
  name : wanted field.1 part.1
  undelimited : ∀ c ∈ part.2, Text.isDelimiter c = false
  decoded : Text.decode part.2 = field.2.toText

/-- The text is that of as many attributes as the record has fields, one for each in order. -/
def Expands (wanted : Text → Text → Prop) (r : Record) (written : Text) : Prop :=
  ∃ parts : List (Text × Text), List.Forall₂ (Carries wanted) r parts ∧ written = encloseAll parts

/-- The attributes of a record whose names are made from the keys. -/
def parts (nameOf : Text → Text) (r : Record) : List (Text × Text) :=
  r.map fun field => (nameOf field.1, Text.escape field.2.toText)

theorem toData_eq_encloseAll (r : Record) : r.toData = encloseAll (r.parts dataName) := by
  rw [encloseAll, parts, List.flatMap_map]
  rfl

theorem toAria_eq_encloseAll (r : Record) : r.toAria = encloseAll (r.parts ariaName) := by
  rw [encloseAll, parts, List.flatMap_map]
  rfl

variable {nameOf : Text → Text} {wanted : Text → Text → Prop}

theorem carries_parts {r : Record} (names : ∀ key ∈ r.keys, wanted key (nameOf key)) :
    List.Forall₂ (Carries wanted) r (r.parts nameOf) := by
  refine List.forall₂_map_right_iff.2 (List.forall₂_same.2 fun field member => ?_)
  exact ⟨names field.1 (List.mem_map_of_mem member), fun _ => Text.not_mem_escape,
    Text.decode_escape _⟩

theorem quote_not_mem {body : Text} (undelimited : ∀ c ∈ body, Text.isDelimiter c = false) :
    '"' ∉ body := fun member => nomatch undelimited _ member

theorem unbroken_of_carries {r : Record} {others : List (Text × Text)}
    (carried : List.Forall₂ (Carries fun _ => Unbroken) r others) :
    ∀ part ∈ others, Unbroken part.1 ∧ '"' ∉ part.2 := by
  induction carried with
  | nil => exact nofun
  | cons carries _ ih =>
      exact List.forall_mem_cons.2 ⟨⟨carries.name, quote_not_mem carries.undelimited⟩, ih⟩

/-- With names that end where their keys do, the attributes have unbroken names exactly if the keys
are unbroken. -/
theorem expands_unbroken_iff (sameEnds : ∀ key, SameEnds key (nameOf key)) (r : Record) :
    Expands (fun _ => Unbroken) r (encloseAll (r.parts nameOf)) ↔
      ∀ key ∈ r.keys, Unbroken key := by
  constructor
  · rintro ⟨others, carried, same⟩
    have bodies : ∀ part ∈ r.parts nameOf, '"' ∉ part.2 := by
      intro part member
      obtain ⟨field, -, rfl⟩ := List.mem_map.1 member
      exact quote_not_mem fun _ => Text.not_mem_escape
    have unbroken := unbroken_of_carries carried
    have free : ∀ part ∈ others, '"' ∉ part.1 ∧ '"' ∉ part.2 := fun part member =>
      (unbroken part member).imp_left fun name held => absurd (name _ held) (by decide)
    have count : (r.parts nameOf).length = others.length := by
      rw [parts, List.length_map, carried.length_eq]
    -- The names are those that the record made, so the keys have their ends.
    have own := eq_of_encloseAll_eq count bodies free same
    intro key member
    obtain ⟨field, here, rfl⟩ := List.mem_map.1 member
    have listed : (nameOf field.1, Text.escape field.2.toText) ∈ others :=
      own ▸ List.mem_map_of_mem here
    exact (sameEnds field.1).unbroken_iff.1 (unbroken _ listed).1
  · intro unbroken
    exact ⟨_, carries_parts fun key member => (sameEnds key).unbroken_iff.2 (unbroken key member),
      rfl⟩

/-- A record is written as one attribute for each field in order, with a body that holds no
delimiter and decodes to the value's text, under a name that is made from the key and has no other
ends than the key.  All of the names are unbroken exactly if all of the keys are. -/
theorem expands_fields (r : Record) :
    Expands (fun key name => name = dataName key ∧ SameEnds key name) r r.toData ∧
      Expands (fun key name => name = ariaName key ∧ SameEnds key name) r r.toAria ∧
      (Expands (fun _ => Unbroken) r r.toData ↔ ∀ key ∈ r.keys, Unbroken key) ∧
      (Expands (fun _ => Unbroken) r r.toAria ↔ ∀ key ∈ r.keys, Unbroken key) := by
  rw [toData_eq_encloseAll, toAria_eq_encloseAll]
  exact ⟨⟨_, carries_parts fun key _ => ⟨rfl, sameEnds_dataName key⟩, rfl⟩,
    ⟨_, carries_parts fun key _ => ⟨rfl, sameEnds_ariaName key⟩, rfl⟩,
    expands_unbroken_iff sameEnds_dataName r, expands_unbroken_iff sameEnds_ariaName r⟩

/-- A field whose key holds a blank. -/
def forged : Record := [("a onclick".toList, .text "f()".toList)]

/-- The field becomes two attributes, of which the second is an event. -/
theorem not_unbroken_forged :
    forged.toData = " data-a onclick=\"f()\"".toList ∧
      forged.toAria = " aria-a onclick=\"f()\"".toList ∧
      ¬ Expands (fun _ => Unbroken) forged forged.toData ∧
      ¬ Expands (fun _ => Unbroken) forged forged.toAria := by
  have broken : ¬ ∀ key ∈ forged.keys, Unbroken key := by decide
  rw [toData_eq_encloseAll, toAria_eq_encloseAll]
  exact ⟨rfl, rfl, (expands_unbroken_iff sameEnds_dataName forged).not.2 broken,
    (expands_unbroken_iff sameEnds_ariaName forged).not.2 broken⟩

end Record

end Stencil
