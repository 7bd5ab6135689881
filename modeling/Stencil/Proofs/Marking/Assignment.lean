/-
# Stencil.Proofs.Marking.Assignment -- the assignment that is cut off a fragment

Whether a fragment ends in an assignment is what a search for `Assignment.pattern` tells.  Marking
reads the assignment from the end of the fragment, and finds the same (`search?_pattern`): of all
ways to write the fragment as an assignment behind some text, the one with the longest name.

`markSlot_search` is the main statement.
-/
import Stencil.Proofs.Marking.Slots
import Stencil.Proofs.Text.Pattern

set_option autoImplicit false

namespace Stencil

namespace Assignment

variable {fragment behind rest : Text} {taken : List Text} {a : Assignment}

/-- A name, an equals sign with blanks around it, and at most one quote, at the end of the text. -/
def pattern : Pattern := .row [
  .run (.oneOrMore isNameChar),
  .run (.zeroOrMore Text.isBlank),
  .word ['='],
  .run (.zeroOrMore Text.isBlank),
  .run { takes := fun c => c == '"' || c == '\'', most := some 1 },
  .stop]

def quoteText : Option Quote → Text
  | some q => [q.char]
  | none => []

/-- The assignment without the text before it, in the pieces of its pattern. -/
def pieces (a : Assignment) : List Text :=
  [a.name, a.blanksBefore, ['='], a.blanksAfter, quoteText a.quote]

theorem before_append_pieces (a : Assignment) : a.before ++ a.pieces.flatten = a.toFragment := by
  cases quoted : a.quote <;> simp [pieces, toFragment, quoteText, quoted]

theorem exists_quoteText_iff {s : Text} :
    (∃ quote, quoteText quote = s) ↔ (∀ c ∈ s, c = '"' ∨ c = '\'') ∧ s.length ≤ 1 := by
  constructor
  · rintro ⟨_ | _ | _, rfl⟩ <;> simp [quoteText, Quote.char]
  · rintro ⟨quotes, short⟩
    cases s with
    | nil => exact ⟨none, rfl⟩
    | cons c rest =>
        obtain rfl : rest = [] :=
          List.length_eq_zero_iff.1 (Nat.le_zero.1 (Nat.le_of_succ_le_succ short))
        rcases quotes c List.mem_cons_self with rfl | rfl
        · exact ⟨some .double, rfl⟩
        · exact ⟨some .single, rfl⟩

theorem Splits.mem_ways (splits : Splits fragment a) :
    (a.pieces, []) ∈ pattern.ways a.pieces.flatten := by
  obtain ⟨quotes, short⟩ := exists_quoteText_iff.1 ⟨a.quote, rfl⟩
  refine Pattern.mem_ways_run_seq.2 ⟨a.name, _, _, ?_, rfl, ?_, rfl⟩
  · exact Repetition.admits_oneOrMore_iff.2 ⟨splits.named, splits.name_chars⟩
  refine Pattern.mem_ways_run_seq.2 ⟨a.blanksBefore, _, _, ?_, rfl, ?_, rfl⟩
  · exact Repetition.admits_zeroOrMore_iff.2 splits.blank_before
  refine Pattern.mem_ways_word_seq.2 ⟨_, _, rfl, ?_, rfl⟩
  refine Pattern.mem_ways_run_seq.2 ⟨a.blanksAfter, _, _, ?_, rfl, ?_, rfl⟩
  · exact Repetition.admits_zeroOrMore_iff.2 splits.blank_after
  refine Pattern.mem_ways_run_seq.2 ⟨quoteText a.quote, _, _, ?_, rfl, ?_, rfl⟩
  · exact Repetition.admits_iff.2 ⟨by simpa using quotes, Nat.zero_le _, by simpa using short⟩
  exact Pattern.mem_ways_stop.2 ⟨rfl, rfl, rfl⟩

theorem splits_of_mem_ways (way : (taken, rest) ∈ pattern.ways behind) (before : Text) :
    rest = [] ∧ ∃ a : Assignment, a.before = before ∧ a.pieces = taken ∧
      Splits (before ++ behind) a := by
  obtain ⟨name, _, _, names, rfl, afterName, rfl⟩ := Pattern.mem_ways_run_seq.1 way
  obtain ⟨blanks, _, _, blank, rfl, afterBlanks, rfl⟩ := Pattern.mem_ways_run_seq.1 afterName
  obtain ⟨_, _, rfl, afterSign, rfl⟩ := Pattern.mem_ways_word_seq.1 afterBlanks
  obtain ⟨blanks', _, _, blank', rfl, beforeQuote, rfl⟩ := Pattern.mem_ways_run_seq.1 afterSign
  obtain ⟨last, _, _, quotes, rfl, ended, rfl⟩ := Pattern.mem_ways_run_seq.1 beforeQuote
  obtain ⟨rfl, rfl, rfl⟩ := Pattern.mem_ways_stop.1 ended
  obtain ⟨named, name_chars⟩ := Repetition.admits_oneOrMore_iff.1 names
  obtain ⟨quote_chars, -, short⟩ := Repetition.admits_iff.1 quotes
  obtain ⟨quote, rfl⟩ := exists_quoteText_iff.2 ⟨by simpa using quote_chars, short 1 rfl⟩
  refine ⟨rfl, ⟨before, name, blanks, blanks', quote⟩, rfl, rfl, ?_, named, name_chars,
    Repetition.admits_zeroOrMore_iff.1 blank, Repetition.admits_zeroOrMore_iff.1 blank'⟩
  rw [← before_append_pieces]
  simp [pieces]

/-- A search finds the assignment that is read from the end. -/
theorem search?_pattern (fragment : Text) :
    pattern.search? fragment = (ofFragment? fragment).map fun a => (a.before, a.pieces, []) := by
  cases found : pattern.search? fragment with
  | none =>
      cases read : ofFragment? fragment with
      | none => rfl
      | some a =>
          have ends := ends_of_ofFragment? read
          have whole := (before_append_pieces a).trans ends.whole
          have some := Pattern.isSome_search?_of_mem_ways ends.splits.mem_ways whole.symm
          rw [found] at some
          exact nomatch some
  | some place =>
      obtain ⟨before, taken, rest⟩ := place
      obtain ⟨rfl, here, first⟩ := Pattern.search?_first found
      obtain ⟨rfl, a, rfl, rfl, splits⟩ :=
        splits_of_mem_ways (Pattern.mem_ways_of_first? here) before
      have ends : Ends (a.before ++ (a.pieces.flatten ++ [])) a := by
        refine splits.ends_of_first fun b splits' => ?_
        have whole := (before_append_pieces b).trans splits'.whole
        exact first b.before _ b.pieces [] whole.symm splits'.mem_ways
      rw [ofFragment?_of_ends ends]
      rfl

theorem isSome_search?_pattern_iff :
    (pattern.search? fragment).isSome = true ↔ ∃ a, Splits fragment a := by
  rw [Pattern.isSome_search?_iff]
  constructor
  · rintro ⟨before, behind, taken, rest, rfl, way⟩
    obtain ⟨-, a, -, -, splits⟩ := splits_of_mem_ways way before
    exact ⟨a, splits⟩
  · rintro ⟨a, splits⟩
    have whole := (before_append_pieces a).trans splits.whole
    exact ⟨a.before, _, a.pieces, [], whole.symm, splits.mem_ways⟩

end Assignment

namespace Marking

open Assignment

/-- The value of an attribute takes the assignment off its fragment, and nothing else. -/
theorem markSlot_of_isInside {fragment : Text} {a : Assignment} {before : List Text}
    (read : ofFragment? fragment = some a) (inside : OpenTag.isInside (fragment :: before) = true)
    (lead : Text) (index : Nat) :
    markSlot lead index before fragment = a.before ++ assignmentMarker lead index a := by
  rw [markSlot, assignment?_eq_some_iff.2 ⟨read, inside⟩]

/-- A fragment is found to end in an assignment exactly if it can be written as one behind some
text.  Of all ways to write it, the one that marking takes has the longest name and is alone in
that: its name cannot begin further to the front.  The fragment is cut where the name begins. -/
theorem markSlot_search (fragment : Text) :
    ((pattern.search? fragment).isSome = true ↔ ∃ a, Splits fragment a) ∧
    pattern.search? fragment = (ofFragment? fragment).map (fun a => (a.before, a.pieces, [])) ∧
    ∀ a, ofFragment? fragment = some a →
      Splits fragment a ∧
      (∀ b, Splits fragment b → b ≠ a → b.name.length < a.name.length) ∧
      (∀ b, Splits fragment b → ((∀ c ∈ b.before.getLast?, isNameChar c = false) ↔ b = a)) ∧
      a.before ++ a.pieces.flatten = fragment ∧
      ∀ (lead : Text) (index : Nat) (before : List Text),
        OpenTag.isInside (fragment :: before) = true →
          markSlot lead index before fragment = a.before ++ assignmentMarker lead index a := by
  refine ⟨isSome_search?_pattern_iff, search?_pattern fragment, fun a read => ?_⟩
  have ends := ends_of_ofFragment? read
  refine ⟨ends.splits, ?_, ?_, (before_append_pieces a).trans ends.whole, ?_⟩
  · intro b splits other
    exact ends.longest_name splits other
  · intro b splits
    exact ⟨fun stop => (splits.ends stop).eq ends, fun same => same ▸ ends.longest⟩
  · intro lead index before inside
    exact markSlot_of_isInside read inside lead index

/-- An earlier sign and a backslash end the name, and the fragment is cut behind them. -/
example : pattern.search? "<a x=y\\b \t= '".toList =
    some ("<a x=y\\".toList,
      ["b".toList, " \t".toList, "=".toList, " ".toList, "'".toList], []) := by
  decide

end Marking

end Stencil
