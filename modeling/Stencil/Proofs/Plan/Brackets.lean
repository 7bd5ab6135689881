/-
# Stencil.Proofs.Plan.Brackets -- values open and close no tag

What an observer of tags sees of a page is its brackets, in order (`Text.brackets`).  A slot is
sealed if it writes no bracket for any value that it may take (`Slot.brackets_render`): a slot
between tags that takes no content, or an attribute whose name holds no bracket, whatever it takes.
The slots for records are not sealed, as they make names of keys.

`Plan.brackets_fill` is the main statement, on two fillings of one plan: a plan of sealed slots
shows the brackets of its fixed text and no others, so no two fillings can be told apart by them.
-/
import Stencil.Proofs.Marker.Cut
import Stencil.Proofs.Plan.Compiling
import Stencil.Proofs.Value.Delimiters

set_option autoImplicit false

namespace Stencil

namespace Text

/-- Whether the character opens or closes a tag. -/
def isBracket (c : Char) : Bool := c == '<' || c == '>'

/-- The brackets of a text, in order. -/
def brackets (s : Text) : Text := s.filter isBracket

@[simp] theorem brackets_nil : brackets [] = [] := rfl

@[simp] theorem brackets_append (s t : Text) : brackets (s ++ t) = brackets s ++ brackets t :=
  List.filter_append ..

@[simp] theorem brackets_cons_of_not {c : Char} (h : isBracket c = false) (s : Text) :
    brackets (c :: s) = brackets s := List.filter_cons_of_neg (by simp [h])

theorem brackets_eq_nil {s : Text} (h : ∀ c ∈ s, isBracket c = false) : brackets s = [] :=
  List.filter_eq_nil_iff.2 fun c member => by simp [h c member]

theorem not_isBracket_of_not_isDelimiter {c : Char} (h : isDelimiter c = false) :
    isBracket c = false := by
  simp only [isDelimiter, Bool.or_eq_false_iff] at h
  simp only [isBracket, Bool.or_eq_false_iff]
  exact h.1.1

theorem brackets_escape (s : Text) : brackets (escape s) = [] :=
  brackets_eq_nil fun _ member => not_isBracket_of_not_isDelimiter (not_mem_escape member)

/-- A text without brackets. -/
def Unbracketed (s : Text) : Prop := '<' ∉ s ∧ '>' ∉ s

instance (s : Text) : Decidable (Unbracketed s) := inferInstanceAs (Decidable (_ ∧ _))

theorem Unbracketed.brackets_eq_nil {s : Text} (h : Unbracketed s) : brackets s = [] := by
  apply Text.brackets_eq_nil
  intro c member
  rw [← Bool.not_eq_true]
  intro bracket
  simp only [isBracket, Bool.or_eq_true, beq_iff_eq] at bracket
  rcases bracket with rfl | rfl
  · exact h.1 member
  · exact h.2 member

end Text

/-! ## One slot -/

theorem Attribute.brackets_write {name : Text} (unbracketed : Text.Unbracketed name)
    (quote : Quote) (value : Text) : Text.brackets (write name quote value) = [] := by
  have quoted : Text.isBracket quote.char = false := by cases quote <;> rfl
  have space : Text.isBracket ' ' = false := rfl
  have sign : Text.isBracket '=' = false := rfl
  simp [write, unbracketed.brackets_eq_nil, Text.brackets_escape, quoted, space, sign]

namespace Slot

/-- A slot whose own text in a tag is a name without brackets. -/
def Sealed : Slot → Prop
  | .text => True
  | .data | .aria => False
  | .property name _ | .event name _ | .attribute name _ => Text.Unbracketed name

/-- A slot between tags takes values without content, any other takes all. -/
def Takes : Slot → Value → Prop
  | .text, v => v.holdsContent = false
  | _, _ => True

instance : (slot : Slot) → Decidable slot.Sealed
  | .text => inferInstanceAs (Decidable True)
  | .data | .aria => inferInstanceAs (Decidable False)
  | .property name _ | .event name _ | .attribute name _ =>
      inferInstanceAs (Decidable (Text.Unbracketed name))

instance : (slot : Slot) → (v : Value) → Decidable (slot.Takes v)
  | .text, v => inferInstanceAs (Decidable (v.holdsContent = false))
  | .data, _ | .aria, _ | .property _ _, _ | .event _ _, _ | .attribute _ _, _ =>
      inferInstanceAs (Decidable True)

/-- A sealed slot writes no bracket. -/
theorem brackets_render {slot : Slot} {v : Value} (isSealed : slot.Sealed) (takes : slot.Takes v) :
    Text.brackets (slot.render v) = [] := by
  cases slot with
  | text =>
      exact Text.brackets_eq_nil fun c member =>
        Text.not_isBracket_of_not_isDelimiter (Value.not_isDelimiter_of_mem_toMarkup takes c member)
  | data => exact isSealed.elim
  | aria => exact isSealed.elim
  | property name quote =>
      have bare : Text.brackets (' ' :: name) = [] := by
        rw [Text.brackets_cons_of_not rfl, Text.Unbracketed.brackets_eq_nil isSealed]
      cases v with
      | null => rfl
      | bool b =>
          cases b with
          | false => rfl
          | true => exact bare
      | _ => exact Attribute.brackets_write isSealed quote _
  | event name quote =>
      cases v with
      | text handler => exact Attribute.brackets_write isSealed quote handler
      | _ => rfl
  | «attribute» name quote =>
      cases v with
      | null => rfl
      | _ => exact Attribute.brackets_write isSealed quote _

end Slot

/-! ## All slots of a plan -/

namespace Segment

/-- The fixed text of a segment. -/
def fixedText (s : Segment) : Text := s.pre ++ s.post

theorem brackets_fixedText {s : Segment} {v : Value} (isSealed : ∀ slot ∈ s.slot, slot.Sealed)
    (takes : ∀ slot ∈ s.slot, slot.Takes v) :
    Text.brackets (s.fill v) = Text.brackets s.fixedText := by
  obtain ⟨pre, slot, post⟩ := s
  cases slot with
  | none => simp [fill, fixedText]
  | some slot => simp [fill, fixedText, Slot.brackets_render (isSealed slot rfl) (takes slot rfl)]

/-- Whether each value is taken by the slot that it fills. -/
def AllTake : List Segment → List Value → Prop
  | [], _ | _ :: _, [] => True
  | s :: more, v :: values => (∀ slot ∈ s.slot, slot.Takes v) ∧ AllTake more values

/-- A missing value is taken by every slot. -/
theorem takes_null (slot : Slot) : slot.Takes .null := by cases slot <;> trivial

theorem brackets_fillAll : ∀ {segments : List Segment} {values : List Value},
    (∀ s ∈ segments, ∀ slot ∈ s.slot, slot.Sealed) → AllTake segments values →
      Text.brackets (fillAll segments values) = Text.brackets (segments.flatMap fixedText)
  | [], _, _, _ => rfl
  | s :: more, [], isSealed, _ => by
      obtain ⟨first, others⟩ := List.forall_mem_cons.1 isSealed
      have rest : AllTake more [] := by cases more <;> trivial
      rw [fillAll, List.flatMap_cons, Text.brackets_append, Text.brackets_append,
        brackets_fixedText first fun slot _ => takes_null slot, brackets_fillAll others rest]
  | s :: more, v :: values, isSealed, takes => by
      obtain ⟨first, others⟩ := List.forall_mem_cons.1 isSealed
      rw [fillAll, List.flatMap_cons, Text.brackets_append, Text.brackets_append,
        brackets_fixedText first takes.1, brackets_fillAll others takes.2]

end Segment

namespace Segment

/-- The fixed texts of the segments are the texts between the markers. -/
theorem flatMap_fixedText_ofMarkers : ∀ (found : List (Text × Marker)) (post : Text),
    (ofMarkers found post).flatMap fixedText = found.flatMap Prod.fst ++ post
  | [], post => by simp [ofMarkers, fixedText]
  | [(pre, m)], post => by simp [ofMarkers, fixedText]
  | (pre, m) :: next :: more, post => by
      have rest := flatMap_fixedText_ofMarkers (next :: more) post
      have step : ofMarkers ((pre, m) :: next :: more) post =
          ⟨pre, some m.slot, []⟩ :: ofMarkers (next :: more) post := rfl
      rw [step, List.flatMap_cons, List.flatMap_cons, rest, fixedText, List.append_nil,
        List.append_assoc]

end Segment

namespace Plan

/-- The text of a plan that no value changes. -/
def fixedText (p : Plan) : Text := p.segments.flatMap Segment.fixedText

/-- Every slot of the plan is sealed. -/
def Sealed (p : Plan) : Prop := ∀ s ∈ p.segments, ∀ slot ∈ s.slot, slot.Sealed

/-- Every value is taken by its slot. -/
def Takes (p : Plan) (values : List Value) : Prop := Segment.AllTake p.segments values

/-- The fixed text of a plan is the markup without its markers. -/
theorem exists_cut_of_ofMarked {lead marked source : Text} {expected : Nat} {plan : Plan}
    (compiled : ofMarked lead marked expected source = .ok plan) :
    ∃ (pieces : List Piece) (post : Text), Marker.Cut lead (Text.trim marked) pieces post ∧
      plan.fixedText = pieces.flatMap Piece.pre ++ post := by
  obtain ⟨pieces, found, cut⟩ := Marker.exists_cut lead (Text.trim marked)
  generalize (Marker.scan lead (Text.trim marked)).2 = post at found cut
  refine ⟨pieces, post, cut, ?_⟩
  rw [ofMarked_eq, found] at compiled
  split at compiled
  · obtain rfl := Except.ok.inj compiled
    rw [fixedText, Segment.flatMap_fixedText_ofMarkers, List.flatMap_map]
    rfl
  · exact nomatch compiled

/-- Any two fillings of a compiled plan with sealed slots, by values that the slots take, show the
same brackets: those of the markup without its markers. -/
theorem brackets_fill {lead marked source : Text} {expected : Nat} {plan : Plan}
    (compiled : ofMarked lead marked expected source = .ok plan) (isSealed : plan.Sealed)
    {values values' : List Value} (takes : plan.Takes values) (takes' : plan.Takes values') :
    Text.brackets (plan.fill values) = Text.brackets (plan.fill values') ∧
      Text.brackets (plan.fill values) = Text.brackets plan.fixedText ∧
      ∃ (pieces : List Piece) (post : Text), Marker.Cut lead (Text.trim marked) pieces post ∧
        plan.fixedText = pieces.flatMap Piece.pre ++ post := by
  have first := Segment.brackets_fillAll isSealed takes
  have second := Segment.brackets_fillAll isSealed takes'
  exact ⟨first.trans second.symm, first, exists_cut_of_ofMarked compiled⟩

/-! ## A quoted attribute and a text -/

/-- A plan with a slot in an attribute and a slot between tags. -/
def titled : Plan :=
  ⟨[⟨"<p".toList, some (.attribute "title".toList .single), []⟩,
    ⟨">1 < 2: ".toList, some .text, "</p>".toList⟩]⟩

/-- Markup in the attribute, and text and a truth value in a list between the tags. -/
def hostile : List Value :=
  [.content { kind := .raw, body := "'><b>".toList }, .list [.text "<i>".toList, .bool true]]

theorem brackets_fill_titled :
    ofMarked ['m'] "<p m0='title'>1 < 2: <!--m1--></p>".toList 2 [] = .ok titled ∧
      titled.Sealed ∧ titled.Takes hostile ∧ titled.Takes [.bool true, .null] ∧
      Text.brackets (titled.fill hostile) = "<><<>".toList ∧
      Text.brackets (titled.fill [.bool true, .null]) = "<><<>".toList := by
  have compiled :
      ofMarked ['m'] "<p m0='title'>1 < 2: <!--m1--></p>".toList 2 [] = .ok titled := rfl
  have isSealed : titled.Sealed := by
    unfold Sealed
    decide
  have takes : titled.Takes hostile :=
    ⟨fun slot here => Option.some.inj here ▸ trivial,
      fun slot here => Option.some.inj here ▸ rfl, trivial⟩
  have takes' : titled.Takes [.bool true, .null] :=
    ⟨fun slot here => Option.some.inj here ▸ trivial,
      fun slot here => Option.some.inj here ▸ rfl, trivial⟩
  obtain ⟨same, fixed, -⟩ := brackets_fill compiled isSealed takes takes'
  have shown : Text.brackets titled.fixedText = "<><<>".toList := by decide
  exact ⟨compiled, isSealed, takes, takes', fixed.trans shown,
    (same.symm.trans fixed).trans shown⟩

end Plan

end Stencil
