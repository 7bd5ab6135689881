/-
# Stencil.Proofs.Marking.Links -- marked fragments as linked texts

Marking puts the front of a marker for each slot between the texts of the fragments
(`Marking.joinMarkup_eq_links`), whether the quotes that the assignments open are closed or not.
Behind an assignment the text begins with the name, which was cut off the fragment before: if the
template has no quote, the name is closed by a double quote right away, and if it has one, what the
next fragment begins with follows the name (`Marking.linkText`).  There, and only there, marking
joins what the fragments keep apart.  `Marking.Absent` says that a lead is in none of the fragments
and does not come up where they are joined.

`Marking.Absent.proper_links` is the main statement: if each quote is closed in the fragment behind
it, the linked texts are proper.
-/
import Stencil.Proofs.Marker.Proper
import Stencil.Proofs.Marking.Slots

set_option autoImplicit false

namespace Stencil

namespace Marking

variable {fragments : List Text} {lead : Text}

/-- The front of the marker of a slot. -/
def front (fragments : List Text) (i : Nat) : Marker.Front :=
  match slotForm? fragments i with
  | some a => .assignment i (a.quote.getD .double)
  | none => .comment i

/-- What marking puts behind the opening quote of a slot: the name, and a closing quote if the
template has none. -/
def nameText (fragments : List Text) (i : Nat) : Text :=
  match slotForm? fragments i with
  | some a => a.name ++ if a.quote.isNone then [Quote.double.char] else []
  | none => []

/-- The text before a slot, with the name of the slot before it. -/
def linkText (fragments : List Text) : Nat → Text
  | 0 => textBefore fragments 0
  | i + 1 => nameText fragments i ++ textBefore fragments (i + 1)

/-- The front of a slot's marker with the text behind it. -/
def link (fragments : List Text) (i : Nat) : Link :=
  ⟨front fragments i, linkText fragments (i + 1)⟩

/-- A marked slot is the text before it, the front of its marker and the name. -/
theorem markSlot_eq_front {i : Nat} (slot : i + 1 < fragments.length) :
    markSlot lead i (fragments.take i).reverse (fragments.getD i []) =
      textBefore fragments i ++ (front fragments i).write lead ++ nameText fragments i := by
  have form : assignment? (fragments.take i).reverse (fragments.getD i []) =
      slotForm? fragments i := (if_pos slot).symm
  simp only [markSlot, form, textBefore, front, nameText]
  cases slotForm? fragments i with
  | none => simp [Marker.Front.write]
  | some a =>
      cases quote : a.quote with
      | none => simp [assignmentMarker, quote, Marker.Front.write, Marker.openAssignment]
      | some q => simp [assignmentMarker, quote, Marker.Front.write, Marker.openAssignment]

/-- From any fragment on, marking links the texts by the fronts. -/
theorem joinMarkup_drop_eq_links (lead : Text) :
    ∀ (m i : Nat), i + m + 1 = fragments.length →
      joinMarkup lead (fragments.take i).reverse i (fragments.drop i) =
        Link.join lead (textBefore fragments i) ((List.range' i m).map (link fragments))
  | 0, i, last => by
      have none : slotForm? fragments i = none := if_neg (by omega)
      rw [drop_eq_cons (by omega), List.drop_eq_nil_of_le (by omega)]
      simp only [textBefore, none]
      rfl
  | m + 1, i, more => by
      have slot : i + 1 < fragments.length := by omega
      have rest := joinMarkup_drop_eq_links lead m (i + 1) (by omega)
      have next : fragments.drop (i + 1) = _ := drop_eq_cons slot
      rw [take_succ_reverse (by omega), next] at rest
      rw [drop_eq_cons (by omega), next, joinMarkup, rest, markSlot_eq_front slot,
        List.range'_succ, List.map_cons, Link.join, link, linkText, Link.join_append]
      · simp only [List.append_assoc]
      · exact List.cons_ne_nil _ _

/-- The links of all slots. -/
def links (fragments : List Text) : List Link :=
  (List.range' 0 (fragments.length - 1)).map (link fragments)

/-- Marking links the texts by the fronts. -/
theorem joinMarkup_eq_links (lead : Text) (ne : fragments ≠ []) :
    joinMarkup lead [] 0 fragments =
      Link.join lead (linkText fragments 0) (links fragments) := by
  have some := List.length_pos_iff.2 ne
  exact joinMarkup_drop_eq_links lead (fragments.length - 1) 0 (by omega)

/-! ## Where the lead could come up -/

/-- The lead is in no fragment, and not where the name of an attribute is joined to the text behind
its opening quote, up to the next slot. -/
structure Absent (lead : Text) (fragments : List Text) : Prop where
  apart : ∀ f ∈ fragments, ¬ lead <:+: f
  joined : ∀ i a q, InForm fragments i a → a.quote = some q →
    ¬ lead <:+: a.name ++ textBefore fragments (i + 1)

theorem free_textBefore (apart : ∀ f ∈ fragments, ¬ lead <:+: f) {i : Nat}
    (slot : i < fragments.length) : ¬ lead <:+: textBefore fragments i :=
  fun held => apart _ (getD_mem slot) (held.trans (textBefore_prefix_getD fragments i).isInfix)

/-- The name of an attribute is a part of the fragment before its slot. -/
theorem InForm.name_infix {i : Nat} {a : Assignment} (form : InForm fragments i a) :
    a.name <:+: fragments.getD i [] := by
  rw [← form.ends.whole, Assignment.toFragment, List.append_assoc, List.append_assoc]
  exact List.infix_append ..

/-- No linked text holds the lead. -/
theorem Absent.free_linkText (absent : Absent lead fragments) (plain : Marker.Plain lead) {i : Nat}
    (slot : i < fragments.length) : ¬ lead <:+: linkText fragments i := by
  have before := free_textBefore absent.apart slot
  cases i with
  | zero => exact before
  | succ i =>
      rw [linkText, nameText]
      cases form : slotForm? fragments i with
      | none => exact before
      | some a =>
          have inForm := slotForm?_eq_some_iff.1 form
          cases quote : a.quote with
          | some q => simpa [quote] using absent.joined i a q inForm quote
          | none =>
              have named : ¬ lead <:+: a.name := fun held =>
                absent.apart _ (getD_mem (Nat.lt_of_succ_lt slot)) (held.trans inForm.name_infix)
              simp only [quote, Option.isNone_none, if_true, List.append_assoc,
                List.singleton_append]
              intro held
              rcases Text.infix_or_infix_of_not_mem (plain.not_mem (by decide)) held with
                inName | behind
              · exact named inName
              · exact before behind

/-- Where every quote is closed at the front of the next fragment, the quote keeps the name and the
text behind it apart. -/
theorem Closed.absent (closed : Closed fragments) (plain : Marker.Plain lead)
    (apart : ∀ f ∈ fragments, ¬ lead <:+: f) : Absent lead fragments where
  apart := apart
  joined i a q form quote held := by
    have named : ¬ lead <:+: a.name := fun inName =>
      apart _ (getD_mem (Nat.lt_of_succ_lt form.slot)) (inName.trans form.name_infix)
    obtain ⟨s, text⟩ := List.head?_eq_some_iff.1 (head?_textBefore (closed i a q form quote))
    have behind := free_textBefore apart form.slot
    rw [text] at held behind
    rcases Text.infix_or_infix_of_not_mem (plain.not_mem (by cases q <;> decide)) held with
      inName | inText
    · exact named inName
    · exact behind (inText.trans (List.suffix_cons _ _).isInfix)

/-- Behind an assignment the text begins with a character of the name. -/
theorem linkText_begins {i : Nat} {q : Quote} (opens : (front fragments i).quote? = some q) :
    ∃ c s, linkText fragments (i + 1) = c :: s ∧ Assignment.isNameChar c = true := by
  rw [front] at opens
  rw [linkText, nameText]
  cases form : slotForm? fragments i with
  | none =>
      rw [form] at opens
      exact nomatch opens
  | some a =>
      have ends := (slotForm?_eq_some_iff.1 form).ends
      obtain ⟨c, s, name⟩ := List.exists_cons_of_ne_nil ends.named
      have char : Assignment.isNameChar c = true :=
        ends.name_chars c (by rw [name]; exact List.mem_cons_self ..)
      simp only [name, List.cons_append]
      exact ⟨c, _, rfl, char⟩

theorem visible_of_isNameChar {c : Char} (char : Assignment.isNameChar c = true) :
    c ∉ ['"', '\''] ∧ Text.isBlank c = false := by
  constructor
  · intro member
    simp only [List.mem_cons, List.not_mem_nil, or_false] at member
    rcases member with rfl | rfl <;> exact nomatch char
  · exact Assignment.isBlank_of_isNameChar char

theorem Absent.ready_link (absent : Absent lead fragments) (plain : Marker.Plain lead) {i : Nat}
    (slot : i + 1 < fragments.length) : (link fragments i).Ready lead where
  quiet := Marker.quiet_of_free (absent.free_linkText plain slot)
  begins opens := by
    obtain ⟨q, opens⟩ := Option.isSome_iff_exists.1 opens
    obtain ⟨c, s, begins, char⟩ := linkText_begins opens
    exact ⟨c, s, begins, visible_of_isNameChar char⟩

/-! ## Closed in place -/

/-- The text before an assignment does not end in a name, if it closes the assignment before. -/
theorem linkText_ends {i : Nat} {a : Assignment} (form : InForm fragments i a)
    (closed : ∀ k, k + 1 = i → ∀ q, (front fragments k).quote? = some q →
      q.char ∈ linkText fragments i) :
    ∀ c ∈ (linkText fragments i).getLast?, Assignment.isNameChar c = false := by
  have before : textBefore fragments i = a.before := by
    rw [textBefore, slotForm?_eq_some_iff.2 form]
  cases i with
  | zero =>
      rw [linkText, before]
      exact form.ends.longest
  | succ k =>
      have closed := closed k rfl
      rw [front] at closed
      rw [linkText, nameText, before] at closed ⊢
      rcases List.eq_nil_or_concat a.before with none | ⟨s, c, text⟩
      · rw [none, List.append_nil] at closed ⊢
        cases formBefore : slotForm? fragments k with
        | none =>
            intro c last
            cases last
        | some b =>
            rw [formBefore] at closed
            cases quote : b.quote with
            | none =>
                intro c last
                obtain rfl : Quote.double.char = c := by simpa [quote] using last
                decide
            | some q =>
                -- The text is the name alone, so the quote is not closed in it.
                have chars := (slotForm?_eq_some_iff.1 formBefore).ends.name_chars
                have member := closed q (by simp [Marker.Front.quote?, quote])
                simp only [quote, Option.isNone_some, Bool.false_eq_true, if_false,
                  List.append_nil] at member
                exact absurd member (Marker.quote_not_mem q chars)
      · rw [text]
        intro d last
        have final : d ∈ a.before.getLast? := by
          rw [text]
          simpa using last
        exact form.ends.longest d final

/-- If each quote is closed in the text behind it, the linked texts are proper. -/
theorem Absent.proper_links (absent : Absent lead fragments) (plain : Marker.Plain lead)
    (closed : ∀ i, i + 1 < fragments.length → ∀ q, (front fragments i).quote? = some q →
      q.char ∈ linkText fragments (i + 1)) :
    ∀ m i : Nat, i + m + 1 = fragments.length →
      Link.Proper lead (linkText fragments i) ((List.range' i m).map (link fragments))
  | 0, i, last => .last (absent.free_linkText plain (by omega))
  | m + 1, i, more => by
      have free := absent.free_linkText plain (i := i) (by omega)
      have rest := absent.proper_links plain closed m (i + 1) (by omega)
      rw [List.range'_succ, List.map_cons]
      cases form : slotForm? fragments i with
      | none =>
          have shape : link fragments i = ⟨.comment i, linkText fragments (i + 1)⟩ := by
            rw [link, front, form]
          rw [shape]
          exact .comment free rest
      | some a =>
          have inForm := slotForm?_eq_some_iff.1 form
          have opens : (front fragments i).quote? = some (a.quote.getD .double) := by
            rw [front, form]
            rfl
          generalize quote : a.quote.getD .double = q at opens
          obtain ⟨name, text, split, unquoted⟩ :=
            List.eq_append_cons_of_mem (closed i (by omega) q opens)
          obtain ⟨c, s, begins, char⟩ := linkText_begins opens
          have named : name ≠ [] := by
            rintro rfl
            rw [begins] at split
            obtain ⟨rfl, -⟩ := List.cons.inj split
            exact (visible_of_isNameChar char).1 (by cases q <;> decide)
          have whole := absent.free_linkText plain (i := i + 1) (by omega)
          rw [split] at whole
          have name_free : ¬ lead <:+: name := fun held =>
            whole (held.trans (List.prefix_append name _).isInfix)
          have ends := linkText_ends inForm fun k before => by
            subst before
            exact closed k (by omega)
          have part : text <:+ linkText fragments (i + 1) := by
            rw [split]
            exact ⟨name ++ [q.char], by simp⟩
          have shape : link fragments i = ⟨.assignment i q, name ++ q.char :: text⟩ := by
            rw [link, front, form, ← split, ← quote]
          rw [shape]
          exact .assignment free ends named unquoted name_free (rest.of_suffix part)

end Marking

end Stencil
