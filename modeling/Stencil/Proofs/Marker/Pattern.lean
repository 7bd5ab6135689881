/-
# Stencil.Proofs.Marker.Pattern -- markers as a pattern

A marker is what `Marker.pattern` takes: a comment, or an assignment with the blanks before it.  All
ways to take it are the words of the grammar (`mem_ways_pattern_iff`), and the one that is tried
first is what `Marker.read?` gives (`read?_eq_first?`), whatever the lead is.  So a scan is a search
for the pattern, and again behind what was found (`scan_eq_search?`).
-/
import Stencil.Marker.Grammar
import Stencil.Proofs.Text.Pattern

set_option autoImplicit false

namespace Stencil.Marker

variable {lead s rest : Text} {pieces : List Text}

/-! ## The pattern -/

def indexPattern : Pattern := .run (.oneOrMore Text.isDecimalDigit)

def commentPattern (lead : Text) : Pattern :=
  .row [.word ['<', '!', '-', '-'], .word lead, indexPattern, .word ['-', '-', '>']]

/-- A name between two quotes. -/
def quotedPattern (quote : Quote) : Pattern :=
  .row [.word [quote.char], .run (.oneOrMore (· != quote.char)), .word [quote.char]]

/-- An assignment without blanks before it. -/
def assignmentPattern (lead : Text) : Pattern :=
  .row [.word lead, indexPattern, .word ['='],
    .either (quotedPattern .single) (quotedPattern .double)]

def pattern (lead : Text) : Pattern :=
  .either (commentPattern lead) (.seq (.run (.zeroOrMore Text.isBlank)) (assignmentPattern lead))

/-- The marker in the pieces of an assignment without blanks before it. -/
def ofAssignment : List Text → Marker
  | [_, _, _, [quote], name, _] => .attribute name (Quote.ofChar quote)
  | _ => .text

/-- The marker in the pieces of the pattern.  The piece in front does not tell, and a comment has
fewer pieces behind it than an assignment. -/
def ofPieces (pieces : List Text) : Marker := ofAssignment pieces.tail

/-! ## All ways to take a marker -/

theorem mem_ways_comment_iff : (pieces, rest) ∈ (commentPattern lead).ways s ↔
    ∃ digits, IsIndex digits ∧ pieces = [['<', '!', '-', '-'], lead, digits, ['-', '-', '>']] ∧
      s = ['<', '!', '-', '-'] ++ lead ++ digits ++ ['-', '-', '>'] ++ rest := by
  constructor
  · intro way
    obtain ⟨_, _, rfl, inside, rfl⟩ := Pattern.mem_ways_word_seq.1 way
    obtain ⟨_, _, rfl, afterLead, rfl⟩ := Pattern.mem_ways_word_seq.1 inside
    obtain ⟨digits, _, _, index, rfl, closed, rfl⟩ := Pattern.mem_ways_run_seq.1 afterLead
    obtain ⟨rfl, rfl⟩ := Pattern.mem_ways_word.1 closed
    exact ⟨digits, Repetition.admits_oneOrMore_iff.1 index, rfl, by simp⟩
  · rintro ⟨digits, index, rfl, rfl⟩
    simp only [List.append_assoc]
    refine Pattern.mem_ways_word_seq.2 ⟨_, _, rfl, ?_, rfl⟩
    refine Pattern.mem_ways_word_seq.2 ⟨_, _, rfl, ?_, rfl⟩
    refine Pattern.mem_ways_run_seq.2 ⟨digits, _, _, ?_, rfl, ?_, rfl⟩
    · exact Repetition.admits_oneOrMore_iff.2 index
    · exact Pattern.mem_ways_word.2 ⟨rfl, rfl⟩

theorem mem_ways_quoted_iff {quote : Quote} : (pieces, rest) ∈ (quotedPattern quote).ways s ↔
    ∃ name, name ≠ [] ∧ quote.char ∉ name ∧ pieces = [[quote.char], name, [quote.char]] ∧
      s = quote.char :: name ++ quote.char :: rest := by
  constructor
  · intro way
    obtain ⟨_, _, rfl, opened, rfl⟩ := Pattern.mem_ways_word_seq.1 way
    obtain ⟨name, _, _, named, rfl, closed, rfl⟩ := Pattern.mem_ways_run_seq.1 opened
    obtain ⟨rfl, rfl⟩ := Pattern.mem_ways_word.1 closed
    obtain ⟨ne, others⟩ := Repetition.admits_oneOrMore_iff.1 named
    exact ⟨name, ne, Text.all_ne_iff.1 others, rfl, by simp⟩
  · rintro ⟨name, named, unquoted, rfl, rfl⟩
    refine Pattern.mem_ways_word_seq.2 ⟨name ++ quote.char :: rest, _, rfl, ?_, rfl⟩
    refine Pattern.mem_ways_run_seq.2 ⟨name, _, _, ?_, rfl, ?_, rfl⟩
    · exact Repetition.admits_oneOrMore_iff.2 ⟨named, Text.all_ne_iff.2 unquoted⟩
    · exact Pattern.mem_ways_word.2 ⟨rfl, rfl⟩

theorem mem_ways_quotes_iff :
    (pieces, rest) ∈ (Pattern.either (quotedPattern .single) (quotedPattern .double)).ways s ↔
      ∃ quote, (pieces, rest) ∈ (quotedPattern quote).ways s := by
  rw [Pattern.mem_ways_either]
  constructor
  · rintro (way | way)
    · exact ⟨.single, way⟩
    · exact ⟨.double, way⟩
  · rintro ⟨quote, way⟩
    cases quote with
    | single => exact .inl way
    | double => exact .inr way

theorem mem_ways_assignment_iff : (pieces, rest) ∈ (assignmentPattern lead).ways s ↔
    ∃ (digits name : Text) (quote : Quote), IsIndex digits ∧ name ≠ [] ∧ quote.char ∉ name ∧
      pieces = [lead, digits, ['='], [quote.char], name, [quote.char]] ∧
        s = lead ++ digits ++ '=' :: quote.char :: name ++ quote.char :: rest := by
  constructor
  · intro way
    obtain ⟨_, _, rfl, afterLead, rfl⟩ := Pattern.mem_ways_word_seq.1 way
    obtain ⟨digits, _, _, index, rfl, afterIndex, rfl⟩ := Pattern.mem_ways_run_seq.1 afterLead
    obtain ⟨_, _, rfl, quoted, rfl⟩ := Pattern.mem_ways_word_seq.1 afterIndex
    obtain ⟨quote, closed⟩ := mem_ways_quotes_iff.1 quoted
    obtain ⟨name, named, unquoted, rfl, rfl⟩ := mem_ways_quoted_iff.1 closed
    exact ⟨digits, name, quote, Repetition.admits_oneOrMore_iff.1 index, named, unquoted, rfl,
      by simp⟩
  · rintro ⟨digits, name, quote, index, named, unquoted, rfl, rfl⟩
    have closed : ([[quote.char], name, [quote.char]], rest) ∈ (quotedPattern quote).ways
        (quote.char :: name ++ quote.char :: rest) :=
      mem_ways_quoted_iff.2 ⟨name, named, unquoted, rfl, rfl⟩
    rw [List.append_assoc, List.append_assoc]
    refine Pattern.mem_ways_word_seq.2 ⟨_, _, rfl, ?_, rfl⟩
    refine Pattern.mem_ways_run_seq.2 ⟨digits, _, _, ?_, rfl, ?_, rfl⟩
    · exact Repetition.admits_oneOrMore_iff.2 index
    refine Pattern.mem_ways_word_seq.2 ⟨_, _, rfl, ?_, rfl⟩
    exact mem_ways_quotes_iff.2 ⟨quote, closed⟩

theorem ofAssignment_eq (digits name : Text) (quote : Quote) :
    ofAssignment [lead, digits, ['='], [quote.char], name, [quote.char]] =
      .attribute name quote := by
  rw [ofAssignment, Quote.ofChar_char]

/-- All ways to take a marker are the words that are markers. -/
theorem mem_ways_pattern_iff {m : Marker} :
    (∃ pieces, ofPieces pieces = m ∧ (pieces, rest) ∈ (pattern lead).ways s) ↔
      ∃ w, Word lead m w ∧ s = w ++ rest := by
  constructor
  · rintro ⟨pieces, rfl, way⟩
    rcases Pattern.mem_ways_either.1 way with comment | spaced
    · obtain ⟨digits, index, rfl, rfl⟩ := mem_ways_comment_iff.1 comment
      exact ⟨_, .comment index, rfl⟩
    · obtain ⟨blanks, _, _, admitted, rfl, assigned, rfl⟩ := Pattern.mem_ways_run_seq.1 spaced
      obtain ⟨digits, name, quote, index, named, unquoted, rfl, rfl⟩ :=
        mem_ways_assignment_iff.1 assigned
      have blank := Repetition.admits_zeroOrMore_iff.1 admitted
      rw [ofPieces, List.tail_cons, ofAssignment_eq]
      exact ⟨_, .assignment blank index named unquoted, by simp⟩
  · rintro ⟨w, word, rfl⟩
    cases word with
    | @comment digits index =>
        refine ⟨[['<', '!', '-', '-'], lead, digits, ['-', '-', '>']], rfl,
          Pattern.mem_ways_either.2 (.inl ?_)⟩
        exact mem_ways_comment_iff.2 ⟨digits, index, rfl, rfl⟩
    | @assignment blanks digits name quote blank index named unquoted =>
        refine ⟨[blanks, lead, digits, ['='], [quote.char], name, [quote.char]],
          ofAssignment_eq digits name quote, Pattern.mem_ways_either.2 (.inr ?_)⟩
        refine Pattern.mem_ways_run_seq.2 ⟨blanks, lead ++ digits ++
          '=' :: quote.char :: name ++ quote.char :: rest, _, ?_, by simp, ?_, rfl⟩
        · exact Repetition.admits_zeroOrMore_iff.2 blank
        · exact mem_ways_assignment_iff.2
            ⟨digits, name, quote, index, named, unquoted, rfl, rfl⟩

/-! ## What is read is tried first -/

theorem afterComment?_eq_first? (lead s : Text) : (afterComment? lead s).map (Marker.text, ·) =
    ((commentPattern lead).first? s).map fun found => (ofPieces found.1, found.2) := by
  symm
  apply Pattern.first?_map_eq
  · intro pieces rest way
    obtain ⟨digits, index, rfl, rfl⟩ := mem_ways_comment_iff.1 way
    rw [afterComment?_append index rest]
    rfl
  · intro found read
    obtain ⟨rest, after, -⟩ := Option.map_eq_some_iff.1 read
    obtain ⟨w, word, rfl⟩ := word_of_afterComment? after
    cases word with
    | @comment digits index => exact ⟨_, rest, mem_ways_comment_iff.2 ⟨digits, index, rfl, rfl⟩⟩

theorem assignment?_eq_first? (lead s : Text) : assignment? lead s =
    ((assignmentPattern lead).first? s).map fun found => (ofAssignment found.1, found.2) := by
  symm
  apply Pattern.first?_map_eq
  · intro pieces rest way
    obtain ⟨digits, name, quote, index, named, unquoted, rfl, rfl⟩ := mem_ways_assignment_iff.1 way
    rw [assignment?_append lead index named unquoted, ofAssignment_eq]
  · rintro ⟨m, rest⟩ read
    obtain ⟨digits, name, quote, index, named, unquoted, rfl, rfl⟩ := eq_append_of_assignment? read
    exact ⟨_, rest, mem_ways_assignment_iff.2
      ⟨digits, name, quote, index, named, unquoted, rfl, rfl⟩⟩

/-- The blanks before an assignment are tried as a run is: the longest first. -/
theorem blankAssignment?_eq_findSome? (lead s : Text) : blankAssignment? lead s =
    (Text.runs Text.isBlank s).findSome? fun way => assignment? lead way.2 := by
  induction s with
  | nil => simp [blankAssignment?, Text.runs]
  | cons c cs ih =>
      rw [blankAssignment?, Text.runs]
      split
      · rw [List.findSome?_append, List.findSome?_map, ih]
        simp only [Function.comp_def]
        cases (Text.runs Text.isBlank cs).findSome? fun way => assignment? lead way.2 with
        | some found => rfl
        | none => simp
      · simp

/-- What is read at the front of a text is what the pattern takes first. -/
theorem read?_eq_first? (lead s : Text) : read? lead s =
    ((pattern lead).first? s).map fun found => (ofPieces found.1, found.2) := by
  have spaced : blankAssignment? lead s =
      ((Pattern.seq (.run (.zeroOrMore Text.isBlank)) (assignmentPattern lead)).first? s).map
        fun found => (ofPieces found.1, found.2) := by
    rw [blankAssignment?_eq_findSome?, Pattern.first?_run_seq, Repetition.ways_zeroOrMore,
      List.map_findSome?]
    congr 1
    funext way
    simp only [assignment?_eq_first?, Function.comp_def, Option.map_map]
    rfl
  rw [pattern, Pattern.first?_either, Option.map_or, ← spaced, ← afterComment?_eq_first?, read?]
  cases afterComment? lead s <;> rfl

/-- The blanks give back the one that the lead begins with. -/
example : (pattern " p".toList).first? "  p07='x\"'>".toList =
    some ([" ".toList, " p".toList, "07".toList, "=".toList, "'".toList, "x\"".toList,
      "'".toList], ">".toList) := by
  decide

/-! ## Scanning is searching -/

theorem foldr_push_nil (s : Text) : s.foldr push ([], []) = ([], s) := by
  induction s with
  | nil => rfl
  | cons c cs ih => rw [List.foldr_cons, ih, push]

/-- The characters that are passed over stand before the next marker. -/
theorem foldr_push_cons (before : Text) (m : Marker) (more : List (Text × Marker)) (post : Text) :
    before.foldr push (([], m) :: more, post) = ((before, m) :: more, post) := by
  induction before with
  | nil => rfl
  | cons c cs ih => rw [List.foldr_cons, ih, push]

/-- A scan of a text is a search for the pattern, and a scan of what the search leaves. -/
theorem scan_eq_search? (lead s : Text) :
    ((pattern lead).search? s = none → scan lead s = ([], s)) ∧
      ∀ before pieces rest, (pattern lead).search? s = some (before, pieces, rest) →
        scan lead s = ((before, ofPieces pieces) :: (scan lead rest).1, (scan lead rest).2) := by
  have here (s : Text) (pieces : List Text) (rest : Text)
      (found : (pattern lead).first? s = some (pieces, rest)) :
      scan lead s = (([], ofPieces pieces) :: (scan lead rest).1, (scan lead rest).2) :=
    scan_of_read?_some (by rw [read?_eq_first?, found, Option.map_some])
  have further (c : Char) (cs : Text) (nothing : (pattern lead).first? (c :: cs) = none) :
      scan lead (c :: cs) = push c (scan lead cs) :=
    scan_of_read?_none (by rw [read?_eq_first?, nothing, Option.map_none])
  have walked := Pattern.walk_eq_search? (scan lead)
    (fun pieces tail => (([], ofPieces pieces) :: tail.1, tail.2)) push here further s
  simpa only [scan_nil, foldr_push_nil, foldr_push_cons] using walked

end Stencil.Marker
