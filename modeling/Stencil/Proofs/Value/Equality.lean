/-
# Stencil.Proofs.Value.Equality -- equal values are rendered equally

Equal values need not be the same: the two zeros are equal as numbers, and content is compared by
its kind and its body alone, so the minifiers in two equal values may differ.  `Value.contents`
lists the content of a value, at any depth, and equal values have as much of it, each piece equal to
the piece at its place in the other (`Value.contents_of_equals`).

The text of a value shows none of these differences (`Value.toText_eq_of_equals`), and so no slot in
an attribute does.  Between tags style sheets and scripts are shortened first, so there a minifier
shows, but nothing else: `Value.render_eq_of_equals` says that a text slot writes the same for equal
values with no such content, or with the same minifiers in corresponding pieces of it.

The shape of two equal values is taken apart by `Value.matches_of_equals`, and from there the proofs
follow the values, with the items of lists and the fields of records beside them.
-/
import Stencil.Slot
import Mathlib.Data.List.Forall2

set_option autoImplicit false

namespace Stencil

/-! ## Equal numbers -/

namespace Number.Binary

variable {f : Format}

def isZero : Binary f → Bool
  | .finite _ rank => rank.val == 0
  | _ => false

/-- Numbers are equal if they are the same or both zero; what is no number equals nothing. -/
theorem equals_iff {x y : Binary f} :
    x.equals y = true ↔ x ≠ .nan ∧ (x = y ∨ x.isZero = true ∧ y.isZero = true) := by
  cases x with
  | nan => simp [equals]
  | infinite a => cases y <;> simp [equals, isZero]
  | finite a rank =>
      cases y with
      | nan => simp [equals, isZero]
      | infinite b => simp [equals, isZero]
      | finite b rank' =>
          simp only [equals, isZero, Bool.and_eq_true, Bool.or_eq_true, beq_iff_eq, ne_eq,
            reduceCtorEq, not_false_eq_true, true_and, finite.injEq]
          constructor
          · rintro ⟨rfl, rfl | zero⟩
            · exact .inl ⟨rfl, rfl⟩
            · exact .inr ⟨zero, zero⟩
          · rintro (⟨rfl, rfl⟩ | ⟨zero, zero'⟩)
            · exact ⟨rfl, .inl rfl⟩
            · exact ⟨Fin.ext (zero.trans zero'.symm), .inr zero⟩

theorem text_of_isZero {x : Binary f} (zero : x.isZero = true) : x.text = ['0'] := by
  cases x with
  | nan => exact nomatch zero
  | infinite a => exact nomatch zero
  | finite a rank => rw [text, if_pos (eq_of_beq zero)]

theorem text_eq_of_equals {x y : Binary f} (equal : x.equals y = true) : x.text = y.text := by
  obtain ⟨-, rfl | ⟨zero, zero'⟩⟩ := equals_iff.1 equal
  · rfl
  · rw [text_of_isZero zero, text_of_isZero zero']

end Number.Binary

/-- Whether content of a kind is shortened before it is written between tags. -/
def Content.Kind.isShortened : Content.Kind → Bool
  | .css | .js => true
  | .html | .raw => false

/-! ## What a slot reads of a value -/

namespace Slot

/-- What a slot in an attribute writes for a value of which it reads only the text. -/
def writeText : Slot → Text → Text
  | .property name quote, s | .attribute name quote, s => Attribute.write name quote s
  | .text, _ | .data, _ | .aria, _ | .event _ _, _ => []

/-- Of numbers, content and lists a slot in an attribute reads only the text. -/
def ReadsText : Value → Prop
  | .number _ | .content _ | .list _ => True
  | .text _ | .bool _ | .null | .record _ | .other _ => False

theorem render_eq_writeText {slot : Slot} (ne : slot ≠ .text) {v : Value} (reads : ReadsText v) :
    slot.render v = slot.writeText v.toText := by
  cases v with
  | number | content | list =>
      cases slot with
      | text => exact absurd rfl ne
      | _ => rfl
  | text | bool | null | record | other => exact nomatch reads

/-- A slot reads the keys of a record and the texts under them. -/
theorem render_record_congr {r r' : Record}
    (same : r.map (fun field => (field.1, field.2.toText)) =
      r'.map fun field => (field.1, field.2.toText)) :
    ∀ slot : Slot, slot.render (.record r) = slot.render (.record r') := by
  have written (nameOf : Text → Text) :
      r.flatMap (fun field => Attribute.write (nameOf field.1) .double field.2.toText) =
        r'.flatMap fun field => Attribute.write (nameOf field.1) .double field.2.toText := by
    have written := congrArg (List.flatMap fun field : Text × Text =>
      Attribute.write (nameOf field.1) .double field.2) same
    simpa only [List.flatMap_map] using written
  intro slot
  match slot with
  | .data => exact written Record.dataName
  | .aria => exact written Record.ariaName
  | .text | .property _ _ | .event _ _ | .attribute _ _ => rfl

end Slot

namespace Value

/-! ## The shape of equal values -/

/-- Two values of one shape, with equal parts. -/
inductive Matches : Value → Value → Prop where
  | text (s : Text) : Matches (.text s) (.text s)
  | number {x y : Number.Double} (equal : x.equals y = true) : Matches (.number x) (.number y)
  | bool (b : Bool) : Matches (.bool b) (.bool b)
  | null : Matches .null .null
  | content {c d : Content} (equal : c.equals d = true) : Matches (.content c) (.content d)
  | list {as bs : List Value} (equal : itemsEqual as bs = true) : Matches (.list as) (.list bs)
  | record {as bs : Record} (equal : fieldsEqual as bs = true) : Matches (.record as) (.record bs)
  | other (s : Text) : Matches (.other s) (.other s)

theorem matches_of_equals {a b : Value} (equal : a.equals b = true) : Matches a b := by
  cases a <;> cases b
  all_goals try exact absurd equal Bool.false_ne_true
  case text.text s s' => exact eq_of_beq equal ▸ .text s
  case number.number => exact .number equal
  case bool.bool b b' => exact eq_of_beq equal ▸ .bool b
  case null.null => exact .null
  case content.content => exact .content equal
  case list.list => exact .list equal
  case record.record => exact .record equal
  case other.other s s' => exact eq_of_beq equal ▸ .other s

theorem itemsEqual_cons {a b : Value} {as bs : List Value}
    (equal : itemsEqual (a :: as) (b :: bs) = true) :
    a.equals b = true ∧ itemsEqual as bs = true :=
  Bool.and_eq_true_iff.1 equal

theorem fieldsEqual_cons {key key' : Text} {a b : Value} {as bs : Record}
    (equal : fieldsEqual ((key, a) :: as) ((key', b) :: bs) = true) :
    key = key' ∧ a.equals b = true ∧ fieldsEqual as bs = true := by
  simpa [fieldsEqual, and_assoc] using equal

theorem body_eq_of_equals {c d : Content} (equal : c.equals d = true) : c.body = d.body := by
  simp only [Content.equals, Bool.and_eq_true, beq_iff_eq] at equal
  exact equal.2

theorem kind_eq_of_equals {c d : Content} (equal : c.equals d = true) : c.kind = d.kind := by
  simp only [Content.equals, Bool.and_eq_true, beq_iff_eq] at equal
  exact equal.1

/-! ## Text -/

mutual

/-- Equal values have the same text. -/
theorem toText_eq_of_equals : ∀ {a b : Value}, a.equals b = true → a.toText = b.toText
  | .list as, _, equal => by
      cases matches_of_equals equal with
      | list equal => exact congrArg (List.intercalate [',']) (itemTexts_eq_of_itemsEqual equal)
  | .number x, _, equal => by
      cases matches_of_equals equal with
      | number equal => exact Number.Binary.text_eq_of_equals equal
  | .content c, _, equal => by
      cases matches_of_equals equal with
      | content equal => exact body_eq_of_equals equal
  | .text _, _, equal | .bool _, _, equal | .null, _, equal | .record _, _, equal
  | .other _, _, equal => by
      cases matches_of_equals equal
      rfl

theorem itemTexts_eq_of_itemsEqual :
    ∀ {as bs : List Value}, itemsEqual as bs = true → itemTexts as = itemTexts bs
  | [], [], _ => rfl
  | _ :: _, _ :: _, equal => by
      obtain ⟨first, others⟩ := itemsEqual_cons equal
      rw [itemTexts, itemTexts, toText_eq_of_equals first, itemTexts_eq_of_itemsEqual others]

end

/-- Equal fields have the same keys and the same texts under them. -/
theorem map_toText_of_fieldsEqual : ∀ {as bs : Record}, fieldsEqual as bs = true →
    as.map (fun field => (field.1, field.2.toText)) =
      bs.map fun field => (field.1, field.2.toText)
  | [], [], _ => rfl
  | (_, _) :: _, (_, _) :: _, equal => by
      obtain ⟨rfl, first, others⟩ := fieldsEqual_cons equal
      rw [List.map_cons, List.map_cons, toText_eq_of_equals first,
        map_toText_of_fieldsEqual others]

/-! ## Content -/

mutual

/-- The content in a value, at any depth, in order. -/
def contents : Value → List Content
  | .content c => [c]
  | .list items => itemContents items
  | .record fields => fieldContents fields
  | .text _ | .number _ | .bool _ | .null | .other _ => []

def itemContents : List Value → List Content
  | [] => []
  | v :: more => contents v ++ itemContents more

def fieldContents : List (Text × Value) → List Content
  | [] => []
  | (_, v) :: more => contents v ++ fieldContents more

end

mutual

/-- The pieces of content in equal values are equal, one by one. -/
theorem contents_of_equals : ∀ {a b : Value}, a.equals b = true →
    List.Forall₂ (fun c d => Content.equals c d = true) a.contents b.contents
  | .content c, _, equal => by
      cases matches_of_equals equal with
      | content equal => exact .cons equal .nil
  | .list as, _, equal => by
      cases matches_of_equals equal with
      | list equal => exact itemContents_of_itemsEqual equal
  | .record as, _, equal => by
      cases matches_of_equals equal with
      | record equal => exact fieldContents_of_fieldsEqual equal
  | .text _, _, equal | .number _, _, equal | .bool _, _, equal | .null, _, equal
  | .other _, _, equal => by
      cases matches_of_equals equal
      all_goals exact .nil

theorem itemContents_of_itemsEqual : ∀ {as bs : List Value}, itemsEqual as bs = true →
    List.Forall₂ (fun c d => Content.equals c d = true) (itemContents as) (itemContents bs)
  | [], [], _ => .nil
  | _ :: _, _ :: _, equal => by
      obtain ⟨first, others⟩ := itemsEqual_cons equal
      exact List.rel_append (contents_of_equals first) (itemContents_of_itemsEqual others)

theorem fieldContents_of_fieldsEqual :
    ∀ {as bs : List (Text × Value)}, fieldsEqual as bs = true →
    List.Forall₂ (fun c d => Content.equals c d = true) (fieldContents as) (fieldContents bs)
  | [], [], _ => .nil
  | (_, _) :: _, (_, _) :: _, equal => by
      obtain ⟨-, first, others⟩ := fieldsEqual_cons equal
      exact List.rel_append (contents_of_equals first) (fieldContents_of_fieldsEqual others)

end

/-! ## Markup -/

/-- The content has the same minifiers, piece by piece, where it is shortened before it is written
between tags. -/
def SameMinifiers (cs ds : List Content) : Prop :=
  ∀ pair ∈ cs.zip ds, pair.1.kind.isShortened = true → pair.1.minifier = pair.2.minifier

theorem sameMinifiers_of_append {cs cs' ds ds' : List Content}
    (length : cs.length = ds.length) (same : SameMinifiers (cs ++ cs') (ds ++ ds')) :
    SameMinifiers cs ds ∧ SameMinifiers cs' ds' := by
  rw [SameMinifiers, List.zip_append length] at same
  exact List.forall_mem_append.1 same

/-- Content writes the same as content that is equal to it and has its minifier, if that counts. -/
theorem toMarkup_content_congr {c d : Content} (equal : c.equals d = true)
    (same : c.kind.isShortened = true → c.minifier = d.minifier) :
    (Value.content c).toMarkup = (Value.content d).toMarkup := by
  obtain ⟨kind, body, minifier⟩ := c
  obtain ⟨kind', body', minifier'⟩ := d
  obtain rfl : kind = kind' := kind_eq_of_equals equal
  obtain rfl : body = body' := body_eq_of_equals equal
  cases kind with
  | html => rfl
  | raw => rfl
  | css =>
      obtain rfl : minifier = minifier' := same rfl
      rfl
  | js =>
      obtain rfl : minifier = minifier' := same rfl
      rfl

mutual

/-- Equal values with the same minifiers in them have the same markup. -/
theorem toMarkup_eq_of_equals : ∀ {a b : Value}, a.equals b = true →
    SameMinifiers a.contents b.contents → a.toMarkup = b.toMarkup
  | .content c, _, equal, same => by
      cases matches_of_equals equal with
      | @content _ d equal =>
          exact toMarkup_content_congr equal (same (c, d) (List.mem_singleton_self _))
  | .list as, _, equal, same => by
      cases matches_of_equals equal with
      | list equal => exact itemsMarkup_eq_of_itemsEqual equal same
  | .number x, _, equal, _ => by
      cases matches_of_equals equal with
      | number equal => exact Number.Binary.text_eq_of_equals equal
  | .text _, _, equal, _ | .bool _, _, equal, _ | .null, _, equal, _ | .record _, _, equal, _
  | .other _, _, equal, _ => by
      cases matches_of_equals equal
      rfl

theorem itemsMarkup_eq_of_itemsEqual : ∀ {as bs : List Value}, itemsEqual as bs = true →
    SameMinifiers (itemContents as) (itemContents bs) → itemsMarkup as = itemsMarkup bs
  | [], [], _, _ => rfl
  | _ :: _, _ :: _, equal, same => by
      obtain ⟨first, others⟩ := itemsEqual_cons equal
      obtain ⟨same, same'⟩ := sameMinifiers_of_append (contents_of_equals first).length_eq same
      rw [itemsMarkup, itemsMarkup, toMarkup_eq_of_equals first same,
        itemsMarkup_eq_of_itemsEqual others same']

end

/-! ## Slots -/

/-- A slot in an attribute does not tell equal values apart. -/
theorem render_eq_of_ne_text {a b : Value} (equal : a.equals b = true) {slot : Slot}
    (ne : slot ≠ .text) : slot.render a = slot.render b := by
  have same := toText_eq_of_equals equal
  cases matches_of_equals equal with
  | text | bool | null | other => rfl
  | number | content | list =>
      rw [Slot.render_eq_writeText ne, Slot.render_eq_writeText ne, same]
      all_goals exact trivial
  | record equal => exact Slot.render_record_congr (map_toText_of_fieldsEqual equal) slot

/-- Equal values have the same text and write the same in every slot of an attribute.  They have as
much content, and where none of it is shortened, or corresponding pieces are shortened alike, they
write the same between tags. -/
theorem render_eq_of_equals {a b : Value} (equal : a.equals b = true) :
    a.toText = b.toText ∧
      (∀ slot : Slot, slot ≠ .text → slot.render a = slot.render b) ∧
      a.contents.length = b.contents.length ∧
      ((∀ c ∈ a.contents, c.kind.isShortened = false) ∨ SameMinifiers a.contents b.contents →
        Slot.text.render a = Slot.text.render b) := by
  refine ⟨toText_eq_of_equals equal, fun _ ne => render_eq_of_ne_text equal ne,
    (contents_of_equals equal).length_eq, ?_⟩
  rintro (never | same)
  · refine toMarkup_eq_of_equals equal fun pair member shortened => ?_
    rw [never pair.1 (List.of_mem_zip member).1] at shortened
    exact nomatch shortened
  · exact toMarkup_eq_of_equals equal same

/-! ## Two values that are equal and not the same -/

/-- A zero, a style sheet with a minifier and markup with another, in a list in a list. -/
def styled (negative : Bool) (markupMinifier : Minifier) : Value :=
  .list [.number (Number.Binary.ofRank _ negative 0),
    .list [.content ⟨.css, " b ".toList, Minifier.shouting⟩,
      .content ⟨.html, "<i>".toList, markupMinifier⟩]]

/-- The zeros differ in their signs and the markup in its minifiers, but only the style sheet is
shortened. -/
theorem render_styled :
    (styled true Minifier.shouting).equals (styled false Minifier.trimming) = true ∧
      (Slot.attribute ['a'] .single).render (styled true Minifier.shouting) =
        " a='0, b ,&lt;i&gt;'".toList ∧
      Slot.text.render (styled true Minifier.shouting) = "0 B <i>".toList := by
  have equal :
      (styled true Minifier.shouting).equals (styled false Minifier.trimming) = true := rfl
  obtain ⟨-, attributes, -, between⟩ := render_eq_of_equals equal
  refine ⟨equal, (attributes (.attribute ['a'] .single) nofun).trans (by decide),
    (between (.inr ?_)).trans (by decide)⟩
  intro pair member shortened
  rcases List.mem_pair.1 member with rfl | rfl
  · rfl
  · exact nomatch shortened

end Value

end Stencil
