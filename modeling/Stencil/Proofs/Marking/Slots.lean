/-
# Stencil.Proofs.Marking.Slots -- the slots of marked fragments

`Marking.InForm` says what it is for a slot to be the value of an attribute: the fragment before it
ends in an assignment and stands inside a tag.  `Marking.slotForm?` finds the assignment
(`slotForm?_eq_some_iff`), and from it come the marker of the slot (`slotWord`) and the text that
is a fragment's own (`ownText`): without the quote that belongs to the slot before it and without
the assignment of the slot behind it.

`Marking.joinMarkup_eq_join` is the main statement: if every quote that an assignment opens is
closed at the front of the next fragment, marking puts these markers between these texts.  What
trimming the whole leaves of each text is `fixedText`.
-/
import Stencil.Marking
import Stencil.Proofs.Marker.Plain
import Stencil.Proofs.Markup.Assignment

set_option autoImplicit false

namespace Stencil

namespace Marking

/-- The slot after a fragment is the value of an attribute in whose assignment the fragment ends. -/
structure InForm (fragments : List Text) (i : Nat) (a : Assignment) : Prop where
  slot : i + 1 < fragments.length
  ends : a.Ends (fragments.getD i [])
  inside : OpenTag.isInside (fragments.take (i + 1)).reverse = true

/-- The assignment of the slot after a fragment, if it is the value of an attribute. -/
def slotForm? (fragments : List Text) (i : Nat) : Option Assignment :=
  if i + 1 < fragments.length then
    assignment? (fragments.take i).reverse (fragments.getD i [])
  else none

/-- The quote that the slot before a fragment leaves to be closed. -/
def openQuote? (fragments : List Text) : Nat → Option Quote
  | 0 => none
  | i + 1 => (slotForm? fragments i).bind Assignment.quote

/-- The closing quote at the front of a fragment that belongs to the slot before it. -/
def quoteBefore (fragments : List Text) (i : Nat) : Text :=
  match openQuote? fragments i with
  | some q => [q.char]
  | none => []

/-- A fragment without the assignment in which it ends. -/
def textBefore (fragments : List Text) (i : Nat) : Text :=
  match slotForm? fragments i with
  | some a => a.before
  | none => fragments.getD i []

/-- The text of a fragment that is in no slot. -/
def ownText (fragments : List Text) (i : Nat) : Text :=
  match openQuote? fragments i with
  | some _ => (textBefore fragments i).tail
  | none => textBefore fragments i

def slotMarker (fragments : List Text) (i : Nat) : Marker :=
  match slotForm? fragments i with
  | some a => .attribute a.name (a.quote.getD .double)
  | none => .text

/-- The marker of a slot as it is written. -/
def slotWord (lead : Text) (fragments : List Text) (i : Nat) : Text :=
  match slotForm? fragments i with
  | some a =>
      Marker.openAssignment lead i (a.quote.getD .double) a.name ++ [(a.quote.getD .double).char]
  | none => Marker.comment lead i

/-- Every quote that an assignment opens is closed at the front of the next fragment. -/
def Closed (fragments : List Text) : Prop :=
  ∀ i a q, InForm fragments i a → a.quote = some q →
    (fragments.getD (i + 1) []).head? = some q.char

theorem getD_mem {fragments : List Text} {i : Nat} (h : i < fragments.length) :
    fragments.getD i [] ∈ fragments := by
  rw [List.getD_eq_getElem?_getD, List.getElem?_eq_getElem h]
  exact List.getElem_mem h

theorem take_succ_reverse {fragments : List Text} {i : Nat} (h : i < fragments.length) :
    (fragments.take (i + 1)).reverse = fragments.getD i [] :: (fragments.take i).reverse := by
  rw [List.take_add_one, List.reverse_append, List.getD_eq_getElem?_getD,
    List.getElem?_eq_getElem h]
  rfl

theorem assignment?_eq_some_iff {before : List Text} {fragment : Text} {a : Assignment} :
    assignment? before fragment = some a ↔
      Assignment.ofFragment? fragment = some a ∧ OpenTag.isInside (fragment :: before) = true := by
  unfold assignment?
  cases Assignment.ofFragment? fragment with
  | none => simp
  | some b => simp [and_comm]

theorem slotForm?_eq_some_iff {fragments : List Text} {i : Nat} {a : Assignment} :
    slotForm? fragments i = some a ↔ InForm fragments i a := by
  unfold slotForm?
  constructor
  · intro found
    split at found
    · next slot =>
      obtain ⟨read, inside⟩ := assignment?_eq_some_iff.1 found
      rw [← take_succ_reverse (Nat.lt_of_succ_lt slot)] at inside
      exact ⟨slot, Assignment.ofFragment?_eq_some_iff.1 read, inside⟩
    · exact nomatch found
  · rintro ⟨slot, ends, inside⟩
    rw [take_succ_reverse (Nat.lt_of_succ_lt slot)] at inside
    rw [if_pos slot]
    exact assignment?_eq_some_iff.2 ⟨Assignment.ofFragment?_eq_some_iff.2 ends, inside⟩

variable {fragments : List Text} {lead : Text}

/-! ## Text and quotes -/

theorem textBefore_prefix_getD (fragments : List Text) (i : Nat) :
    textBefore fragments i <+: fragments.getD i [] := by
  unfold textBefore
  split
  · next a found =>
    rw [← (slotForm?_eq_some_iff.1 found).ends.whole, Assignment.toFragment, List.append_assoc,
      List.append_assoc, List.append_assoc]
    exact List.prefix_append ..
  · exact List.prefix_refl _

/-- A quote at the front of a fragment is no part of the assignment in which it ends. -/
theorem head?_textBefore {i : Nat} {q : Quote}
    (front : (fragments.getD i []).head? = some q.char) :
    (textBefore fragments i).head? = some q.char := by
  unfold textBefore
  split
  · next a found =>
    obtain ⟨-, ends, -⟩ := slotForm?_eq_some_iff.1 found
    cases before : a.before with
    | cons c s =>
        rw [← ends.whole, Assignment.toFragment, before] at front
        exact front
    | nil =>
        obtain ⟨c, name, named⟩ := List.exists_cons_of_ne_nil ends.named
        rw [← ends.whole, Assignment.toFragment, before, named] at front
        have char := ends.name_chars c (by rw [named]; exact List.mem_cons_self ..)
        obtain rfl : c = q.char := Option.some.inj front
        cases q <;> exact absurd char (by decide)
  · exact front

/-- The quote that is to be closed stands before the fragment's own text. -/
theorem openQuote_ownText (closed : Closed fragments) (i : Nat) :
    quoteBefore fragments i ++ ownText fragments i = textBefore fragments i := by
  unfold quoteBefore ownText
  cases quote : openQuote? fragments i with
  | none => rfl
  | some q =>
      cases i with
      | zero => exact nomatch quote
      | succ i =>
          obtain ⟨a, found, opened⟩ := Option.bind_eq_some_iff.1 quote
          have front := head?_textBefore (closed i a q (slotForm?_eq_some_iff.1 found) opened)
          obtain ⟨s, text⟩ := List.head?_eq_some_iff.1 front
          simp only [text, List.tail_cons]
          rfl

/-- Marking a slot writes what stands before the slot and the slot's marker up to a quote that is
left to be closed. -/
theorem markSlot_eq {i : Nat} (slot : i + 1 < fragments.length) :
    markSlot lead i (fragments.take i).reverse (fragments.getD i []) ++
        quoteBefore fragments (i + 1) =
      textBefore fragments i ++ slotWord lead fragments i := by
  have form : assignment? (fragments.take i).reverse (fragments.getD i []) =
      slotForm? fragments i := (if_pos slot).symm
  simp only [markSlot, form, textBefore, slotWord, quoteBefore, openQuote?]
  cases slotForm? fragments i with
  | none => simp
  | some a =>
      cases quote : a.quote with
      | none => simp [assignmentMarker, quote]
      | some q => simp [assignmentMarker, quote]

/-! ## Marking all slots -/

/-- The marker of a slot behind the text of the fragment before it. -/
def slotPiece (lead : Text) (fragments : List Text) (i : Nat) : Piece :=
  ⟨ownText fragments i, slotWord lead fragments i, slotMarker fragments i⟩

theorem drop_eq_cons {i : Nat} (h : i < fragments.length) :
    fragments.drop i = fragments.getD i [] :: fragments.drop (i + 1) := by
  rw [List.drop_eq_getElem_cons h, List.getD_eq_getElem?_getD, List.getElem?_eq_getElem h,
    Option.getD_some]

/-- From any fragment on, with the quote that the slot before it leaves to be closed. -/
theorem joinMarkup_drop (lead : Text) (closed : Closed fragments) :
    ∀ (m i : Nat), i + m + 1 = fragments.length →
      joinMarkup lead (fragments.take i).reverse i (fragments.drop i) =
        quoteBefore fragments i ++ Piece.join (ownText fragments (i + m))
          ((List.range' i m).map (slotPiece lead fragments))
  | 0, i, last => by
      have none : slotForm? fragments i = none := if_neg (by omega)
      have own := openQuote_ownText closed i
      rw [textBefore, none] at own
      rw [drop_eq_cons (by omega), List.drop_eq_nil_of_le (by omega)]
      exact own.symm
  | m + 1, i, more => by
      have slot : i + 1 < fragments.length := by omega
      have rest := joinMarkup_drop lead closed m (i + 1) (by omega)
      have next : fragments.drop (i + 1) = _ := drop_eq_cons slot
      rw [take_succ_reverse (by omega), next] at rest
      rw [drop_eq_cons (by omega), next, joinMarkup, rest, ← List.append_assoc, markSlot_eq slot,
        ← openQuote_ownText closed, List.range'_succ, List.map_cons, Piece.join, slotPiece]
      · simp only [List.append_assoc, Nat.add_right_comm, Nat.add_assoc]
      · exact List.cons_ne_nil _ _

/-- Marking puts a marker for each slot between the texts of the fragments. -/
theorem joinMarkup_eq_join (lead : Text) (closed : Closed fragments) {n : Nat}
    (slots : n + 1 = fragments.length) :
    joinMarkup lead [] 0 fragments =
      Piece.join (ownText fragments n) ((List.range n).map (slotPiece lead fragments)) := by
  have whole := joinMarkup_drop lead closed n 0 (by omega)
  rw [Nat.zero_add, ← List.range_eq_range'] at whole
  exact whole

/-! ## The markers are well placed -/

theorem ownText_suffix (fragments : List Text) (i : Nat) :
    ownText fragments i <:+ textBefore fragments i := by
  unfold ownText
  split
  · exact List.tail_suffix _
  · exact List.suffix_refl _

/-- The own text of a fragment is in the fragment. -/
theorem ownText_infix_getD (fragments : List Text) (i : Nat) :
    ownText fragments i <:+: fragments.getD i [] :=
  (ownText_suffix fragments i).isInfix.trans (textBefore_prefix_getD fragments i).isInfix

/-- Each slot's marker is well placed behind a text that ends like the fragment's own. -/
theorem placed_slotPiece (absent : ∀ f ∈ fragments, ¬ lead <:+: f) {i : Nat} {pre : Text}
    (slot : i < fragments.length) (part : pre <:+ ownText fragments i) :
    Marker.Placed lead ⟨pre, slotWord lead fragments i, slotMarker fragments i⟩ := by
  have free : ¬ lead <:+: fragments.getD i [] := absent _ (getD_mem slot)
  have pre_free : ¬ lead <:+: pre := fun holds =>
    free (holds.trans (part.isInfix.trans (ownText_infix_getD fragments i)))
  unfold slotWord slotMarker
  split
  · next a found =>
    obtain ⟨-, ends, -⟩ := slotForm?_eq_some_iff.1 found
    have before : textBefore fragments i = a.before := by rw [textBefore, found]
    have named_free : ¬ lead <:+: a.name := fun holds => free <| holds.trans <| by
      rw [← ends.whole, Assignment.toFragment, List.append_assoc, List.append_assoc]
      exact List.infix_append ..
    have spread : Marker.openAssignment lead i (a.quote.getD .double) a.name ++
        [(a.quote.getD .double).char] = lead ++ Text.numeral i ++
          '=' :: (a.quote.getD .double).char :: a.name ++ [(a.quote.getD .double).char] := by
      rw [Marker.openAssignment]
    rw [spread]
    refine .assignment pre_free (fun c last => ends.longest c ?_) (Marker.isIndex_numeral i)
      ends.named ends.name_chars named_free
    rw [← before]
    exact Text.mem_getLast?_of_suffix (part.trans (ownText_suffix fragments i)) last
  · exact .comment pre_free (Marker.isIndex_numeral i)

/-! ## The trimmed whole -/

/-- What is left of the own text of a fragment when the whole is trimmed. -/
def fixedText (fragments : List Text) (i : Nat) : Text :=
  let text := if i = 0 then Text.trimStart (ownText fragments i) else ownText fragments i
  if i + 1 = fragments.length then Text.trimEnd text else text

theorem fixedText_suffix {i : Nat} (slot : i + 1 < fragments.length) :
    fixedText fragments i <:+ ownText fragments i := by
  rw [fixedText, if_neg (by omega)]
  split
  · exact List.dropWhile_suffix _
  · exact List.suffix_refl _

theorem fixedText_infix_getD (fragments : List Text) (i : Nat) :
    fixedText fragments i <:+: fragments.getD i [] := by
  refine List.IsInfix.trans ?_ (ownText_infix_getD fragments i)
  have start : (if i = 0 then Text.trimStart (ownText fragments i) else ownText fragments i) <:+
      ownText fragments i := by
    split
    · exact List.dropWhile_suffix _
    · exact List.suffix_refl _
  rw [fixedText]
  split
  · exact List.IsInfix.trans ⟨[], _, Text.trimEnd_append _⟩ start.isInfix
  · exact start.isInfix

end Marking

end Stencil
