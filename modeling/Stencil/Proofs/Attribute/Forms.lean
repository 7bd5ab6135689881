/-
# Stencil.Proofs.Attribute.Forms -- the forms of an attribute

A slot that stands for one attribute, that is a property, an event or any other named attribute,
writes nothing, or the bare name, or the name with a body between the template's quotes
(`Attribute.Form`).  The body is inert, so whatever the value was it ends neither the attribute nor
the tag, and it decodes to the value's text, so two values with different texts differ in it.

Here content is trusted no more than text: `Value.plain` puts plain text in the place of every
content in a value, at any depth, and a property or an attribute writes the same for it.  An event
is an exception, as it takes nothing but text.  `Slot.forms_render` is the main statement.
-/
import Stencil.Proofs.Value.Delimiters
import Stencil.Slot

set_option autoImplicit false

namespace Stencil

namespace Attribute

variable {name value : Text} {quote : Quote}

/-- An attribute with a body as it stands. -/
def enclose (name : Text) (quote : Quote) (body : Text) : Text :=
  ' ' :: name ++ '=' :: quote.char :: body ++ [quote.char]

theorem write_eq_enclose (name : Text) (quote : Quote) (value : Text) :
    write name quote value = enclose name quote (Text.escape value) := rfl

/-- Different bodies make different attributes. -/
theorem enclose_injective (name : Text) (quote : Quote) :
    Function.Injective (enclose name quote) := by
  intro body body' same
  have behind := List.append_cancel_right same
  rw [List.append_cancel_left_eq] at behind
  exact (List.cons.inj (List.cons.inj behind).2).2

theorem length_enclose (name : Text) (quote : Quote) (body : Text) :
    (enclose name quote body).length = name.length + body.length + 4 := by
  simp only [enclose, List.length_append, List.length_cons, List.length_nil]
  omega

/-- The ways to write an attribute for a value with a text: not at all, by its name alone, and with
an inert body that decodes to the text. -/
inductive Form (name : Text) (quote : Quote) (value : Text) : Text → Prop where
  | absent : Form name quote value []
  | bare : Form name quote value (' ' :: name)
  | enclosed {body : Text} (inert : Text.Inert body) (decoded : Text.decode body = value) :
      Form name quote value (enclose name quote body)

theorem form_write (name : Text) (quote : Quote) (value : Text) :
    Form name quote value (write name quote value) := by
  rw [write_eq_enclose]
  exact .enclosed (Text.inert_escape value) (Text.decode_escape value)

/-- A body tells the text that it was made of. -/
theorem Form.decode_eq {written body : Text} (form : Form name quote value written)
    (asBody : written = enclose name quote body) : Text.decode body = value := by
  have length := congrArg List.length asBody
  rw [length_enclose] at length
  cases form with
  | absent => cases length
  | bare =>
      rw [List.length_cons] at length
      omega
  | enclosed inert decoded => exact enclose_injective name quote asBody ▸ decoded

end Attribute

namespace Value

mutual

/-- The value with plain text in the place of every content, with the content's body. -/
def plain : Value → Value
  | .content c => .text c.body
  | .list items => .list (plainItems items)
  | .record fields => .record (plainFields fields)
  | .text s => .text s
  | .number x => .number x
  | .bool b => .bool b
  | .null => .null
  | .other s => .other s

def plainItems : List Value → List Value
  | [] => []
  | v :: more => plain v :: plainItems more

def plainFields : List (Text × Value) → List (Text × Value)
  | [] => []
  | (key, v) :: more => (key, plain v) :: plainFields more

end

mutual

theorem holdsContent_plain : ∀ v : Value, v.plain.holdsContent = false
  | .content _ | .text _ | .number _ | .bool _ | .null | .other _ => rfl
  | .list items => itemsHoldContent_plainItems items
  | .record fields => fieldsHoldContent_plainFields fields

theorem itemsHoldContent_plainItems : ∀ items : List Value,
    itemsHoldContent (plainItems items) = false
  | [] => rfl
  | v :: more => by
      rw [plainItems, itemsHoldContent, holdsContent_plain v, itemsHoldContent_plainItems more]
      rfl

theorem fieldsHoldContent_plainFields : ∀ fields : List (Text × Value),
    fieldsHoldContent (plainFields fields) = false
  | [] => rfl
  | (_, v) :: more => by
      rw [plainFields, fieldsHoldContent, holdsContent_plain v, fieldsHoldContent_plainFields more]
      rfl

end

mutual

/-- The text of a value does not tell content from text. -/
theorem toText_plain : ∀ v : Value, v.plain.toText = v.toText
  | .content _ | .text _ | .number _ | .bool _ | .null | .record _ | .other _ => rfl
  | .list items => congrArg (List.intercalate [',']) (itemTexts_plainItems items)

theorem itemTexts_plainItems : ∀ items : List Value,
    itemTexts (plainItems items) = itemTexts items
  | [] => rfl
  | v :: more => by
      rw [plainItems, itemTexts, itemTexts, toText_plain v, itemTexts_plainItems more]

end

end Value

namespace Slot

/-- The slots for one attribute that write every text that a value can have. -/
def valued (name : Text) (quote : Quote) : List Slot :=
  [.property name quote, .attribute name quote]

/-- The slots that stand for one attribute with a name and a quote. -/
def named (name : Text) (quote : Quote) : List Slot := .event name quote :: valued name quote

variable {name : Text} {quote : Quote} {slot : Slot}

/-- Whatever the value, such a slot writes one of the forms of the attribute. -/
theorem form_render (member : slot ∈ named name quote) (v : Value) :
    Attribute.Form name quote v.toText (slot.render v) := by
  simp only [named, valued, List.mem_cons, List.not_mem_nil, or_false] at member
  rcases member with rfl | rfl | rfl
  · cases v with
    | text handler => exact Attribute.form_write name quote handler
    | _ => exact .absent
  · cases v with
    | null => exact .absent
    | bool b =>
        cases b with
        | false => exact .absent
        | true => exact .bare
    | _ => exact Attribute.form_write name quote _
  · cases v with
    | null => exact .absent
    | _ => exact Attribute.form_write name quote _

/-- Plain text in the place of content makes no difference to a property or an attribute. -/
theorem render_plain (member : slot ∈ valued name quote) (v : Value) :
    slot.render v.plain = slot.render v := by
  have written := congrArg (Attribute.write name quote) v.toText_plain
  simp only [valued, List.mem_cons, List.not_mem_nil, or_false] at member
  rcases member with rfl | rfl
  · cases v with
    | null | bool _ => rfl
    | _ => exact written
  · cases v with
    | null => rfl
    | _ => exact written

/-- A slot for one attribute writes one of its forms for every value, two values for which it writes
the same body have the same text, and a property or an attribute takes content for plain text. -/
theorem forms_render (name : Text) (quote : Quote) :
    (∀ slot ∈ named name quote,
      (∀ v : Value, Attribute.Form name quote v.toText (slot.render v)) ∧
        ∀ (v w : Value) (body : Text), slot.render v = Attribute.enclose name quote body →
          slot.render w = Attribute.enclose name quote body → v.toText = w.toText) ∧
    ∀ slot ∈ valued name quote, ∀ v : Value,
      v.plain.holdsContent = false ∧ slot.render v.plain = slot.render v := by
  refine ⟨fun slot member => ⟨form_render member, fun v w body first second => ?_⟩,
    fun slot member v => ⟨v.holdsContent_plain, render_plain member v⟩⟩
  rw [← (form_render member v).decode_eq first, ← (form_render member w).decode_eq second]

/-- Content of all kinds with quotes and brackets, in a list in a list. -/
def hostileContent : Value :=
  .list [.content { kind := .raw, body := "' x='".toList },
    .list [.content { kind := .js, body := " &gt;".toList, minifier := Minifier.shouting }]]

theorem forms_hostileContent :
    .property "title".toList .single ∈ named "title".toList .single ∧
      .attribute "title".toList .single ∈ valued "title".toList .single ∧
      Attribute.Form "title".toList .single "' x=', &gt;".toList
        (Slot.render (.property "title".toList .single) hostileContent) ∧
      Slot.render (.property "title".toList .single) hostileContent =
        Attribute.enclose "title".toList .single "&#x27; x=&#x27;, &amp;gt;".toList ∧
      Slot.render (.property "title".toList .single) (.text "' x=', &gt;".toList) =
        Attribute.enclose "title".toList .single "&#x27; x=&#x27;, &amp;gt;".toList ∧
      hostileContent.toText = (Value.text "' x=', &gt;".toList).toText ∧
      Slot.render (.attribute "title".toList .single) hostileContent.plain =
        Slot.render (.attribute "title".toList .single) hostileContent := by
  obtain ⟨forms, plain⟩ := forms_render "title".toList .single
  have isNamed : .property "title".toList .single ∈ named "title".toList .single := by decide
  have isValued : .attribute "title".toList .single ∈ valued "title".toList .single := by decide
  obtain ⟨form, same⟩ := forms _ isNamed
  have asContent : Slot.render (.property "title".toList .single) hostileContent =
      Attribute.enclose "title".toList .single "&#x27; x=&#x27;, &amp;gt;".toList := by decide
  have asText : Slot.render (.property "title".toList .single) (.text "' x=', &gt;".toList) =
      Attribute.enclose "title".toList .single "&#x27; x=&#x27;, &amp;gt;".toList := by decide
  exact ⟨isNamed, isValued, form hostileContent, asContent, asText, same _ _ _ asContent asText,
    (plain _ isValued hostileContent).2⟩

end Slot

end Stencil
