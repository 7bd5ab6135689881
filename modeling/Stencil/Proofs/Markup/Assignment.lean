/-
# Stencil.Proofs.Markup.Assignment -- which fragments end in an assignment

`Assignment.Ends` says without a search what it is for a fragment to end in an assignment: the
pieces make up the fragment, and the name is the longest run of characters that a name may hold.
`Assignment.ofFragment?_eq_some_iff` is the main statement: the assignment that is read from the end
of a fragment is the one in which it ends, so there is at most one.  A fragment can be written as an
assignment behind some text in other ways too (`Splits`), but their names are shorter
(`Ends.longest_name`).
-/
import Stencil.Markup.Assignment

set_option autoImplicit false

namespace Stencil

namespace Assignment

/-- A fragment ends in an assignment. -/
structure Ends (fragment : Text) (a : Assignment) : Prop where
  whole : a.toFragment = fragment
  named : a.name ≠ []
  name_chars : ∀ c ∈ a.name, isNameChar c = true
  longest : ∀ c ∈ a.before.getLast?, isNameChar c = false
  blank_before : ∀ c ∈ a.blanksBefore, Text.isBlank c = true
  blank_after : ∀ c ∈ a.blanksAfter, Text.isBlank c = true

/-- A character that may stand in a name is not blank. -/
theorem isBlank_of_isNameChar {c : Char} (h : isNameChar c = true) : Text.isBlank c = false := by
  rw [← Bool.not_eq_true]
  intro blank
  simp [isNameChar, blank] at h

theorem ends_of_ofFragment? {fragment : Text} {a : Assignment}
    (read : ofFragment? fragment = some a) : Ends fragment a := by
  have whole := append_of_ofFragment? read
  simp only [ofFragment?] at read
  split at read
  · next rest _ =>
    have blanks := Text.splitLastRun_spec Text.isBlank (splitQuote fragment).1
    have blanks' := Text.splitLastRun_spec Text.isBlank rest.reverse
    have names := Text.splitLastRun_spec isNameChar (Text.splitLastRun Text.isBlank rest.reverse).1
    split at read
    · exact absurd read (by simp)
    · next named =>
      obtain rfl := Option.some.inj read
      refine ⟨whole, ?_, names.1, names.2, blanks'.1, blanks.1⟩
      simpa [List.isEmpty_iff] using named
  · exact absurd read (by simp)

theorem splitQuote_of_some (s : Text) (q : Quote) : splitQuote (s ++ [q.char]) = (s, some q) := by
  cases q <;> simp [splitQuote, Quote.char]

theorem splitQuote_of_not {s : Text} {c : Char} (double : c ≠ '"') (single : c ≠ '\'') :
    splitQuote (s ++ [c]) = (s ++ [c], none) := by
  unfold splitQuote
  split
  · next rest h =>
    rw [List.reverse_append] at h
    exact absurd (List.cons.inj h).1 double
  · next rest h =>
    rw [List.reverse_append] at h
    exact absurd (List.cons.inj h).1 single
  · rfl

/-- No quote is taken for part of an assignment that has none. -/
theorem splitQuote_of_blank (s : Text) {blanks : Text}
    (blank : ∀ c ∈ blanks, Text.isBlank c = true) :
    splitQuote (s ++ '=' :: blanks) = (s ++ '=' :: blanks, none) := by
  rcases List.eq_nil_or_concat blanks with rfl | ⟨blanks, c, rfl⟩
  · exact splitQuote_of_not (by decide) (by decide)
  · have last : Text.isBlank c = true := blank c (by simp)
    have spread : s ++ '=' :: blanks.concat c = (s ++ '=' :: blanks) ++ [c] := by simp
    rw [spread]
    apply splitQuote_of_not
    · rintro rfl
      exact absurd last (by decide)
    · rintro rfl
      exact absurd last (by decide)

theorem ofFragment?_of_ends {fragment : Text} {a : Assignment} (ends : Ends fragment a) :
    ofFragment? fragment = some a := by
  obtain ⟨rfl, named, name_chars, longest, blank_before, blank_after⟩ := ends
  obtain ⟨before, name, blanksBefore, blanksAfter, quote⟩ := a
  have quoted : splitQuote (toFragment ⟨before, name, blanksBefore, blanksAfter, quote⟩) =
      (before ++ name ++ blanksBefore ++ '=' :: blanksAfter, quote) := by
    cases quote with
    | none =>
        simp only [toFragment, List.append_nil]
        exact splitQuote_of_blank _ blank_after
    | some q => exact splitQuote_of_some _ q
  have after : Text.splitLastRun Text.isBlank
      (before ++ name ++ blanksBefore ++ '=' :: blanksAfter) =
        (before ++ name ++ blanksBefore ++ ['='], blanksAfter) := by
    have sign : ∀ c ∈ (before ++ name ++ blanksBefore ++ ['=']).getLast?,
        Text.isBlank c = false := by
      simp only [List.getLast?_concat, Option.mem_some_iff, forall_eq']
      decide
    have cut := Text.splitLastRun_append_of_all blank_after sign
    rw [List.append_assoc] at cut
    exact cut
  have between : Text.splitLastRun Text.isBlank (before ++ name ++ blanksBefore) =
      (before ++ name, blanksBefore) := by
    apply Text.splitLastRun_append_of_all blank_before
    intro c last
    obtain ⟨name, d, rfl⟩ := (List.eq_nil_or_concat name).resolve_left named
    obtain rfl : d = c := by simpa using last
    exact isBlank_of_isNameChar (name_chars d (by simp))
  have run : Text.splitLastRun isNameChar (before ++ name) = (before, name) :=
    Text.splitLastRun_append_of_all name_chars longest
  have some : name.isEmpty = false := by
    rw [List.isEmpty_eq_false_iff]
    exact named
  have sign : (before ++ name ++ blanksBefore ++ ['=']).reverse =
      '=' :: (before ++ name ++ blanksBefore).reverse := by simp
  simp only [ofFragment?, quoted, after, sign, List.reverse_reverse, between, run, some,
    if_neg Bool.false_ne_true]

/-- The assignment read from a fragment is the one in which the fragment ends. -/
theorem ofFragment?_eq_some_iff {fragment : Text} {a : Assignment} :
    ofFragment? fragment = some a ↔ Ends fragment a :=
  ⟨ends_of_ofFragment?, ofFragment?_of_ends⟩

/-! ## Other ways to write a fragment -/

/-- A way to write a fragment as an assignment behind some text, which may hold the front of the
name. -/
structure Splits (fragment : Text) (a : Assignment) : Prop where
  whole : a.toFragment = fragment
  named : a.name ≠ []
  name_chars : ∀ c ∈ a.name, isNameChar c = true
  blank_before : ∀ c ∈ a.blanksBefore, Text.isBlank c = true
  blank_after : ∀ c ∈ a.blanksAfter, Text.isBlank c = true

variable {fragment : Text} {a b : Assignment}

theorem Ends.splits (ends : Ends fragment a) : Splits fragment a :=
  ⟨ends.whole, ends.named, ends.name_chars, ends.blank_before, ends.blank_after⟩

theorem Splits.ends (splits : Splits fragment a)
    (longest : ∀ c ∈ a.before.getLast?, isNameChar c = false) : Ends fragment a :=
  ⟨splits.whole, splits.named, splits.name_chars, longest, splits.blank_before,
    splits.blank_after⟩

theorem Ends.eq (ends : Ends fragment a) (ends' : Ends fragment b) : a = b :=
  Option.some.inj ((ofFragment?_of_ends ends).symm.trans (ofFragment?_of_ends ends'))

/-- All ways to write a fragment differ only in how much of the name they leave in front. -/
theorem Splits.exists_ends (splits : Splits fragment b) :
    ∃ before front : Text, b.before = before ++ front ∧
      Ends fragment { b with before := before, name := front ++ b.name } := by
  obtain ⟨rfl, named, name_chars, blank_before, blank_after⟩ := splits
  obtain ⟨run_chars, stop⟩ := Text.splitLastRun_spec isNameChar b.before
  have cut := Text.splitLastRun_append isNameChar b.before
  refine ⟨_, _, cut.symm, ?_, ?_, ?_, stop, blank_before, blank_after⟩
  · simp only [toFragment, ← List.append_assoc, cut]
  · simp [named]
  · intro c member
    exact (List.mem_append.1 member).elim (run_chars c) (name_chars c)

/-- The way that leaves the least in front leaves none of the name. -/
theorem Splits.ends_of_first (splits : Splits fragment a)
    (first : ∀ b, Splits fragment b → a.before.length ≤ b.before.length) : Ends fragment a := by
  obtain ⟨before, front, cut, ends⟩ := splits.exists_ends
  have least : a.before.length ≤ before.length := first _ ends.splits
  obtain rfl : front = [] := by
    rw [cut, List.length_append] at least
    exact List.length_eq_zero_iff.1 (by omega)
  obtain rfl : before = a.before := by rw [cut, List.append_nil]
  exact ends

/-- Any other way to write the fragment has a shorter name. -/
theorem Ends.longest_name (ends : Ends fragment a) (splits : Splits fragment b) (other : b ≠ a) :
    b.name.length < a.name.length := by
  obtain ⟨before, front, cut, ends'⟩ := splits.exists_ends
  obtain rfl := ends.eq ends'
  cases front with
  | nil =>
      obtain rfl : before = b.before := by rw [cut, List.append_nil]
      exact absurd rfl other
  | cons c front =>
      simp only [List.cons_append, List.length_cons, List.length_append]
      omega

end Assignment

end Stencil
