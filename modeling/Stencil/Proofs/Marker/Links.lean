/-
# Stencil.Proofs.Marker.Links -- marked text as texts linked by the fronts of markers

An assignment that a template leaves open has no end of its own: which quote closes it depends on
all that follows.  So a marked text is taken apart at the fronts of its markers, a comment as a
whole and an assignment up to its opening quote (`Marker.Front`).  Each front is linked to the text
behind it (`Link`), and only the fronts hold the lead (`Link.join`).

No blank, slash or closing bracket stands where a text meets a front, so trimming touches the two
outer texts only (`Link.trim_join`), and writing out changes each text for itself
(`Link.exists_rewritten`).
-/
import Stencil.Proofs.Markup.SelfClosing
import Stencil.Proofs.Marker.Plain
import Stencil.Proofs.Text.Trim
import Mathlib.Data.List.Forall2

set_option autoImplicit false

namespace Stencil

/-- The front of a marker: a comment, or an assignment up to its opening quote. -/
inductive Marker.Front where
  | comment (index : Nat)
  | assignment (index : Nat) (quote : Quote)

def Marker.Front.write (lead : Text) : Front → Text
  | .comment index => Marker.comment lead index
  | .assignment index quote => openAssignment lead index quote []

/-- The front of a marker with the text between it and the front of the next. -/
structure Link where
  front : Marker.Front
  text : Text

/-- A text with linked texts behind it. -/
def Link.join (lead : Text) : (first : Text) → List Link → Text
  | first, [] => first
  | first, l :: more => first ++ l.front.write lead ++ join lead l.text more

variable {lead : Text}

/-! ## Where a text meets a front -/

namespace Marker.Front

/-- What ends a front stands for itself: it is changed with no other character and is in no name. -/
theorem of_mem_ends : ∀ c ∈ ['"', '\'', '>'], Text.isBlank c = false ∧ c ≠ '/' ∧ c ≠ '<' ∧
    Text.isTagNameChar c = false := by
  simp only [List.mem_cons, List.not_mem_nil, or_false]
  rintro c (rfl | rfl | rfl) <;> decide

/-- A front begins with a character that writing out does not change. -/
theorem exists_write_eq_cons (plain : Plain lead) (f : Front) :
    ∃ c w, f.write lead = c :: w ∧ Text.isBlank c = false ∧ c ≠ '/' ∧ c ≠ '>' := by
  cases f with
  | comment index => exact ⟨'<', _, rfl, by decide⟩
  | assignment index quote =>
      obtain ⟨c, w, rfl⟩ := List.exists_cons_of_ne_nil plain.ne_nil
      have member : c ∈ c :: w := List.mem_cons_self ..
      refine ⟨c, _, rfl, plain.not_blank c member, ?_, ?_⟩
      · exact fun same => plain.not_special c member (by simp [same])
      · exact fun same => plain.not_special c member (by simp [same])

/-- A front ends with a quote or a bracket. -/
theorem exists_write_eq_append (lead : Text) (f : Front) :
    ∃ w c, f.write lead = w ++ [c] ∧ c ∈ ['"', '\'', '>'] := by
  cases f with
  | comment index =>
      exact ⟨['<', '!', '-', '-'] ++ lead ++ Text.numeral index ++ ['-', '-'], '>',
        by simp [write, Marker.comment], by simp⟩
  | assignment index quote =>
      refine ⟨lead ++ Text.numeral index ++ ['='], quote.char, by simp [write, openAssignment], ?_⟩
      cases quote <;> decide

/-- No change reaches from the text before a front into it. -/
theorem not_joint_head (plain : Plain lead) (f : Front) (rest : Text) (b : Char) :
    ∀ c ∈ (f.write lead ++ rest).head?, ¬ SelfClosing.Joint b c := by
  obtain ⟨d, w, begins, visible, slash, bracket⟩ := f.exists_write_eq_cons plain
  intro c head
  rw [begins] at head
  obtain rfl : d = c := Option.some.inj head
  exact SelfClosing.not_joint_of_second visible slash bracket

/-- No change reaches from a front into the text behind it. -/
theorem not_joint_last (lead : Text) (f : Front) (c : Char) :
    ∀ b ∈ (f.write lead).getLast?, ¬ SelfClosing.Joint b c := by
  obtain ⟨w, d, ended, ends⟩ := f.exists_write_eq_append lead
  obtain ⟨visible, slash, -, -⟩ := of_mem_ends d ends
  intro b last
  obtain rfl : d = b := Text.eq_of_mem_getLast? ⟨w, ended.symm⟩ last
  exact SelfClosing.not_joint_of_first visible slash

/-- No front has a slash. -/
theorem slash_not_mem_write (plain : Plain lead) (f : Front) : '/' ∉ f.write lead := by
  have inLead : '/' ∉ lead := plain.not_mem (by simp)
  have inDigits (index : Nat) : '/' ∉ Text.numeral index :=
    not_mem_of_isIndex (isIndex_numeral index) (by decide)
  cases f with
  | comment index => simp [write, Marker.comment, inLead, inDigits]
  | assignment index quote =>
      have other : '/' ≠ quote.char := by cases quote <;> decide
      simp [write, openAssignment, inLead, inDigits, other]

end Marker.Front

namespace Link

/-! ## Trimming -/

/-- The links with the last text trimmed at its end. -/
def trimLast : List Link → List Link
  | [] => []
  | [l] => [{ l with text := Text.trimEnd l.text }]
  | l :: more => l :: trimLast more

/-- The first text trimmed at its front, and at its end if no other follows. -/
def trimFirst (first : Text) : List Link → Text
  | [] => Text.trim first
  | _ :: _ => Text.trimStart first

theorem trimEnd_join (lead : Text) : ∀ (first : Text) (l : Link) (more : List Link),
    Text.trimEnd (join lead first (l :: more)) = join lead first (trimLast (l :: more))
  | first, l, [] => by
      obtain ⟨w, c, written, ends⟩ := l.front.exists_write_eq_append lead
      have visible : Text.isBlank c = false := (Marker.Front.of_mem_ends c ends).1
      have kept := Text.trimEnd_append_cons visible (first ++ w) l.text
      simpa [join, trimLast, written] using kept
  | first, l, next :: more => by
      have rest := trimEnd_join lead l.text next more
      obtain ⟨w, c, written, ends⟩ := l.front.exists_write_eq_append lead
      have visible : Text.isBlank c = false := (Marker.Front.of_mem_ends c ends).1
      have kept := Text.trimEnd_append_cons visible (first ++ w) (join lead l.text (next :: more))
      rw [rest] at kept
      simpa [join, trimLast, written] using kept

/-- Trimming touches the outer texts only. -/
theorem trim_join (plain : Marker.Plain lead) (first : Text) (links : List Link) :
    Text.trim (join lead first links) = join lead (trimFirst first links) (trimLast links) := by
  cases links with
  | nil => rfl
  | cons l more =>
      obtain ⟨c, w, written, visible, -⟩ := l.front.exists_write_eq_cons plain
      have start : Text.trimStart (join lead first (l :: more)) =
          join lead (Text.trimStart first) (l :: more) := by
        have kept := Text.trimStart_append_cons visible first (w ++ join lead l.text more)
        simpa [join, written] using kept
      rw [Text.trim, start, trimEnd_join, trimFirst]

/-! ## Writing out -/

variable {named : Text → Prop}

/-- The same front with a text that is rewritten. -/
structure Rewritten (named : Text → Prop) (l l' : Link) : Prop where
  front : l'.front = l.front
  text : SelfClosing.Rewrites named l.text l'.text

/-- A joined text is rewritten text by text. -/
theorem exists_rewritten (plain : Marker.Plain lead) : ∀ {links : List Link} {first t : Text},
    SelfClosing.Rewrites named (join lead first links) t →
      ∃ (first' : Text) (links' : List Link), t = join lead first' links' ∧
        SelfClosing.Rewrites named first first' ∧ List.Forall₂ (Rewritten named) links links'
  | [], _, t, h => ⟨t, [], rfl, h, .nil⟩
  | l :: more, first, t, h => by
      rw [join, List.append_assoc] at h
      obtain ⟨first', t', rfl, before, h⟩ := h.append_inv fun b _ =>
        l.front.not_joint_head plain (join lead l.text more) b
      obtain ⟨front, t', rfl, inside, h⟩ := h.append_inv fun b last c _ =>
        l.front.not_joint_last lead c b last
      have kept : front = l.front.write lead := inside.eq_of_free fun word =>
        l.front.slash_not_mem_write plain (word.subset (List.mem_cons_self ..))
      obtain ⟨text, links', rfl, within, others⟩ := exists_rewritten plain h
      refine ⟨first', ⟨l.front, text⟩ :: links', ?_, before, .cons ⟨rfl, within⟩ others⟩
      rw [kept, join, List.append_assoc]

/-- Writing out keeps the quotes of a text and brings none in. -/
theorem quote_mem_iff (tagged : ∀ name, named name → ∀ c ∈ name, Text.isTagNameChar c = true)
    {s t : Text} (h : SelfClosing.Rewrites named s t) (quote : Quote) :
    quote.char ∈ t ↔ quote.char ∈ s := by
  have other : Text.isBlank quote.char = false ∧ Text.isTagNameChar quote.char = false := by
    cases quote <;> decide
  refine h.mem_iff other.1 ?_ fun name good member => ?_
  · cases quote <;> simp [SelfClosing.Neutral, Quote.char]
  · have char := tagged name good _ member
    rw [other.2] at char
    cases char

end Link

end Stencil
