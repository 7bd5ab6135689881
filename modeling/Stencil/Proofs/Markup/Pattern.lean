/-
# Stencil.Proofs.Markup.Pattern -- tags as patterns

What is read of tags is what patterns find: an element that closes itself is what
`SelfClosing.pattern` takes first (`SelfClosing.read?_eq_first?`), and writing out puts another text
for each place where a search finds one (`SelfClosing.writeOut_eq_search?`).  What a fragment says
of the tag before a slot is whether a search finds an open tag at its end, or else a closed one
(`OpenTag.verdict_eq_search?`).
-/
import Stencil.Proofs.Markup.Closing
import Stencil.Proofs.Markup.OpenTag
import Stencil.Proofs.Text.Pattern

set_option autoImplicit false

namespace Stencil

namespace SelfClosing

variable {s rest : Text} {pieces : List Text}

/-- What stands behind the name: attributes, and the two characters that close the tag. -/
def endPattern : Pattern :=
  .row [.run { takes := (· != '>'), sparing := true }, .word ['/', '>']]

/-- A tag that closes itself: an opening bracket, a name that starts with a letter, and its end. -/
def pattern : Pattern := .row [
  .word ['<'],
  .run (.oneOrMore Text.isLetter),
  .run (.zeroOrMore Text.isTagNameChar),
  endPattern]

/-- The element in the pieces of the pattern. -/
def ofPieces : List Text → SelfClosing
  | [_, letters, others, attributes, _] => ⟨letters ++ others, attributes⟩
  | _ => ⟨[], []⟩

theorem mem_ways_end_iff : (pieces, rest) ∈ endPattern.ways s ↔
    ∃ attributes : Text, '>' ∉ attributes ∧ pieces = [attributes, ['/', '>']] ∧
      s = attributes ++ '/' :: '>' :: rest := by
  constructor
  · intro way
    obtain ⟨attributes, _, _, admitted, rfl, closed, rfl⟩ := Pattern.mem_ways_run_seq.1 way
    obtain ⟨rfl, rfl⟩ := Pattern.mem_ways_word.1 closed
    have others := (Repetition.admits_iff.1 admitted).1
    exact ⟨attributes, Text.all_ne_iff.1 others, rfl, rfl⟩
  · rintro ⟨attributes, free, rfl, rfl⟩
    refine Pattern.mem_ways_run_seq.2 ⟨attributes, _, _, ?_, rfl, ?_, rfl⟩
    · exact Repetition.admits_iff.2 ⟨Text.all_ne_iff.2 free, Nat.zero_le _, nofun⟩
    · exact Pattern.mem_ways_word.2 ⟨rfl, rfl⟩

/-- The attributes end at the first closing bracket, so it does not matter that the run is
sparing. -/
theorem first?_end {attributes : Text} (free : '>' ∉ attributes) (rest : Text) :
    endPattern.first? (attributes ++ '/' :: '>' :: rest) =
      some ([attributes, ['/', '>']], rest) := by
  refine Pattern.first?_of_only (mem_ways_end_iff.2 ⟨attributes, free, rfl, rfl⟩) ?_
  intro others left way
  obtain ⟨attributes', free', rfl, same⟩ := mem_ways_end_iff.1 way
  have slash (a : Text) (free : '>' ∉ a) : '>' ∉ a ++ ['/'] := by simpa using free
  have split : attributes ++ ['/'] ++ '>' :: rest = attributes' ++ ['/'] ++ '>' :: left := by
    simpa using same
  obtain ⟨front, rfl⟩ := Text.eq_of_append_cons (slash _ free) (slash _ free') split
  obtain rfl := List.append_cancel_right front
  exact ⟨rfl, rfl⟩

theorem slash_of_dropWhile {name : Text} (chars : ∀ c ∈ name, Text.isTagNameChar c = true)
    (attributes : Text) : ((name ++ (attributes ++ ['/'])).dropWhile
      Text.isTagNameChar).getLast? = some '/' := by
  rw [List.dropWhile_append_of_pos chars, List.dropWhile_append]
  split
  · rfl
  · exact List.getLast?_concat

/-- Wherever the pattern takes something, an element is read. -/
theorem isSome_read?_of_mem_ways (way : (pieces, rest) ∈ pattern.ways s) :
    (read? s).isSome = true := by
  obtain ⟨_, _, rfl, opened, rfl⟩ := Pattern.mem_ways_word_seq.1 way
  obtain ⟨letters, _, _, lettered, rfl, afterLetters, rfl⟩ := Pattern.mem_ways_run_seq.1 opened
  obtain ⟨others, _, _, named, rfl, behind, rfl⟩ := Pattern.mem_ways_run_seq.1 afterLetters
  obtain ⟨attributes, free, rfl, rfl⟩ := mem_ways_end_iff.1 behind
  obtain ⟨ne, allLetters⟩ := Repetition.admits_oneOrMore_iff.1 lettered
  have chars : ∀ c ∈ letters ++ others, Text.isTagNameChar c = true := by
    intro c member
    rcases List.mem_append.1 member with letter | other
    · exact isTagNameChar_of_isLetter (allLetters c letter)
    · exact Repetition.admits_zeroOrMore_iff.1 named c other
  have free' : '>' ∉ letters ++ others ++ (attributes ++ ['/']) := by
    intro member
    rcases List.mem_append.1 member with inName | inEnd
    · exact absurd (chars '>' inName) (by decide)
    · exact free (by simpa using inEnd)
  have letter : (letters ++ others ++ (attributes ++ ['/'])).head?.any Text.isLetter = true := by
    obtain ⟨c, letters, rfl⟩ := List.exists_cons_of_ne_nil ne
    exact allLetters c (List.mem_cons_self ..)
  have read := read?_append_bracket free' rest
  rw [if_pos ⟨letter, slash_of_dropWhile chars attributes⟩] at read
  have regroup : ['<'] ++ (letters ++ (others ++ (attributes ++ '/' :: '>' :: rest))) =
      '<' :: (letters ++ others ++ (attributes ++ ['/']) ++ '>' :: rest) := by simp
  rw [regroup, read]
  rfl

/-- No more characters of a tag's name follow the name that is read. -/
theorem stop_of_read? {e : SelfClosing} (read : read? s = some (e, rest)) :
    ∀ c ∈ (e.attributes ++ '/' :: '>' :: rest).head?, Text.isTagNameChar c = false := by
  obtain ⟨rfl, -, free, chars⟩ := append_of_read? read
  have free' : '>' ∉ e.name ++ (e.attributes ++ ['/']) := by simpa using free
  have whole : '<' :: e.name ++ e.attributes ++ '/' :: '>' :: rest =
      '<' :: (e.name ++ (e.attributes ++ ['/']) ++ '>' :: rest) := by simp
  rw [whole, read?_append_bracket free' rest] at read
  split at read
  · have same := congrArg (SelfClosing.name ·.1) (Option.some.inj read)
    rw [List.takeWhile_append_of_pos chars] at same
    have none := List.append_cancel_left (same.trans (List.append_nil _).symm)
    intro c first
    cases attributes : e.attributes with
    | nil =>
        rw [attributes] at first
        obtain rfl : '/' = c := Option.some.inj first
        decide
    | cons d more =>
        rw [attributes] at first none
        obtain rfl : d = c := Option.some.inj first
        rw [← Bool.not_eq_true]
        intro char
        rw [List.cons_append, List.takeWhile_cons_of_pos char] at none
        cases none
  · cases read

theorem not_isLetter_of_stop {others behind : Text}
    (border : ∀ c ∈ others.head?, Text.isLetter c = false)
    (stop : ∀ c ∈ behind.head?, Text.isTagNameChar c = false) :
    ∀ c ∈ (others ++ behind).head?, Text.isLetter c = false := by
  cases others with
  | nil =>
      intro c first
      rw [← Bool.not_eq_true]
      intro letter
      have char := isTagNameChar_of_isLetter letter
      rw [stop c first] at char
      cases char
  | cons d others => exact border

/-- The element that is read is what the pattern takes first: its name is as long as it can be. -/
theorem first?_of_read? {e : SelfClosing} (read : read? s = some (e, rest)) :
    ∃ pieces, pattern.first? s = some (pieces, rest) ∧ ofPieces pieces = e := by
  have stop := stop_of_read? read
  obtain ⟨rfl, letter, free, chars⟩ := append_of_read? read
  obtain ⟨name, attributes⟩ := e
  have ended := first?_end (fun inside => free (List.mem_append_right _ inside)) rest
  obtain ⟨allLetters, border⟩ := Text.splitRun_spec Text.isLetter name
  have parts := Text.splitRun_append Text.isLetter name
  generalize (Text.splitRun Text.isLetter name).1 = letters at allLetters parts
  generalize (Text.splitRun Text.isLetter name).2 = others at border parts
  subst parts
  have ne : letters ≠ [] := by
    rintro rfl
    obtain ⟨c, first, isLetter⟩ := (Option.any_eq_true _ _).1 letter
    rw [border c first] at isLetter
    cases isLetter
  have named := Pattern.first?_longest_seq rfl (Repetition.admits_zeroOrMore_iff.2
    fun c member => chars c (List.mem_append_right letters member)) stop ended
  have lettered := Pattern.first?_longest_seq rfl
    (Repetition.admits_oneOrMore_iff.2 ⟨ne, allLetters⟩) (not_isLetter_of_stop border stop) named
  refine ⟨[['<'], letters, others, attributes, ['/', '>']], ?_, rfl⟩
  have regroup : '<' :: (letters ++ others) ++ attributes ++ '/' :: '>' :: rest =
      ['<'] ++ (letters ++ (others ++ (attributes ++ '/' :: '>' :: rest))) := by simp
  rw [regroup]
  exact (Pattern.first?_word_seq ['<'] _ _).trans (congrArg _ lettered)

/-- What is read at the front of a text is what the pattern takes first. -/
theorem read?_eq_first? (s : Text) :
    read? s = (pattern.first? s).map fun found => (ofPieces found.1, found.2) := by
  cases read : read? s with
  | some element =>
      obtain ⟨e, rest⟩ := element
      obtain ⟨pieces, first, rfl⟩ := first?_of_read? read
      rw [first, Option.map_some]
  | none =>
      cases first : pattern.first? s with
      | none => rfl
      | some found =>
          have some := isSome_read?_of_mem_ways (Pattern.mem_ways_of_first? first)
          rw [read] at some
          cases some

/-- Writing out is a search for the pattern: what stands before the element that is found stays, the
element is written out, and so is what the search leaves. -/
theorem writeOut_eq_search? (s : Text) : (pattern.search? s = none → writeOut s = s) ∧
    ∀ before pieces rest, pattern.search? s = some (before, pieces, rest) →
      writeOut s = before ++ (ofPieces pieces).write ++ writeOut rest := by
  have here (s : Text) (pieces : List Text) (rest : Text)
      (found : pattern.first? s = some (pieces, rest)) :
      writeOut s = (ofPieces pieces).write ++ writeOut rest :=
    writeOut_of_read?_some (by rw [read?_eq_first?, found, Option.map_some])
  have further (c : Char) (cs : Text) (nothing : pattern.first? (c :: cs) = none) :
      writeOut (c :: cs) = c :: writeOut cs :=
    writeOut_of_read?_none (by rw [read?_eq_first?, nothing, Option.map_none])
  have walked := Pattern.walk_eq_search? writeOut
    (fun pieces tail => (ofPieces pieces).write ++ tail) List.cons here further s
  simpa only [writeOut_nil, List.foldr_cons_eq_append', List.append_nil, List.append_assoc]
    using walked

end SelfClosing

namespace OpenTag

variable {s fragment rest : Text} {pieces : List Text}

/-- A tag that is open at the end of the text: an opening bracket, a letter, and at least one more
character but no closing bracket. -/
def openPattern : Pattern := .row [
  .word ['<'],
  .run { takes := Text.isLetter, least := 1, most := some 1 },
  .run (.oneOrMore (· != '>')),
  .stop]

/-- A tag that was closed last: a closing bracket, and no bracket behind it. -/
def closedPattern : Pattern := .row [
  .word ['>'],
  .run (.zeroOrMore fun c => c != '<' && c != '>'),
  .stop]

theorem mem_ways_open_iff : (∃ pieces rest, (pieces, rest) ∈ openPattern.ways s) ↔
    ∃ c d after, s = '<' :: c :: d :: after ∧ Text.isLetter c = true ∧ '>' ∉ d :: after := by
  constructor
  · rintro ⟨pieces, rest, way⟩
    obtain ⟨_, _, rfl, opened, rfl⟩ := Pattern.mem_ways_word_seq.1 way
    obtain ⟨letters, _, _, lettered, rfl, behind, rfl⟩ := Pattern.mem_ways_run_seq.1 opened
    obtain ⟨after, _, _, others, rfl, ended, rfl⟩ := Pattern.mem_ways_run_seq.1 behind
    obtain ⟨rfl, rfl, rfl⟩ := Pattern.mem_ways_stop.1 ended
    obtain ⟨letter, one, atMost⟩ := Repetition.admits_iff.1 lettered
    obtain ⟨ne, free⟩ := Repetition.admits_oneOrMore_iff.1 others
    obtain ⟨c, rfl⟩ := List.length_eq_one_iff.1 (Nat.le_antisymm (atMost 1 rfl) one)
    obtain ⟨d, more, rfl⟩ := List.exists_cons_of_ne_nil ne
    exact ⟨c, d, more, by simp, letter c (List.mem_cons_self ..), Text.all_ne_iff.1 free⟩
  · rintro ⟨c, d, after, rfl, letter, free⟩
    refine ⟨[['<'], [c], d :: after], [], ?_⟩
    refine Pattern.mem_ways_word_seq.2 ⟨_, _, rfl, ?_, rfl⟩
    refine Pattern.mem_ways_run_seq.2 ⟨[c], d :: after, _, ?_, rfl, ?_, rfl⟩
    · simpa [Repetition.admits_iff] using letter
    refine Pattern.mem_ways_run_seq.2 ⟨d :: after, [], _, ?_, by simp, ?_, rfl⟩
    · exact Repetition.admits_oneOrMore_iff.2 ⟨List.cons_ne_nil d after, Text.all_ne_iff.2 free⟩
    · exact Pattern.mem_ways_stop.2 ⟨rfl, rfl, rfl⟩

theorem isSome_search?_open_iff :
    (openPattern.search? fragment).isSome = true ↔ opensTag (lastPart fragment) = true := by
  rw [Pattern.isSome_search?_iff]
  constructor
  · rintro ⟨before, behind, pieces, rest, rfl, way⟩
    obtain ⟨c, d, after, rfl, letter, free⟩ := mem_ways_open_iff.1 ⟨pieces, rest, way⟩
    exact opensTag_lastPart letter free
  · intro opens
    obtain ⟨x, whole, free⟩ := exists_append_lastPart fragment
    obtain ⟨before, c, d, after, part, letter⟩ := opensTag_iff.1 opens
    have free' : '>' ∉ d :: after := fun inside => free (by
      rw [part]
      exact List.mem_append_right _ (List.mem_cons_of_mem _ (List.mem_cons_of_mem _ inside)))
    obtain ⟨pieces, rest, way⟩ := mem_ways_open_iff.2 ⟨c, d, after, rfl, letter, free'⟩
    refine ⟨x ++ before, _, pieces, rest, ?_, way⟩
    rw [List.append_assoc, ← part]
    exact whole

theorem mem_ways_closed_iff : (∃ pieces rest, (pieces, rest) ∈ closedPattern.ways s) ↔
    ∃ after : Text, s = '>' :: after ∧ '<' ∉ after ∧ '>' ∉ after := by
  have admits_iff (after : Text) :
      (Repetition.zeroOrMore fun c => c != '<' && c != '>').admits after = true ↔
        '<' ∉ after ∧ '>' ∉ after := by
    simp only [Repetition.admits_zeroOrMore_iff, Bool.and_eq_true, forall_and, Text.all_ne_iff]
  constructor
  · rintro ⟨pieces, rest, way⟩
    obtain ⟨_, _, rfl, behind, rfl⟩ := Pattern.mem_ways_word_seq.1 way
    obtain ⟨after, _, _, others, rfl, ended, rfl⟩ := Pattern.mem_ways_run_seq.1 behind
    obtain ⟨rfl, rfl, rfl⟩ := Pattern.mem_ways_stop.1 ended
    exact ⟨after, by simp, (admits_iff after).1 others⟩
  · rintro ⟨after, rfl, free⟩
    refine ⟨[['>'], after], [], Pattern.mem_ways_word_seq.2 ⟨after, _, rfl, ?_, rfl⟩⟩
    refine Pattern.mem_ways_run_seq.2 ⟨after, [], _, (admits_iff after).2 free, by simp, ?_, rfl⟩
    exact Pattern.mem_ways_stop.2 ⟨rfl, rfl, rfl⟩

theorem isSome_search?_closed_iff : (closedPattern.search? fragment).isSome = true ↔
    '>' ∈ fragment ∧ '<' ∉ lastPart fragment := by
  rw [Pattern.isSome_search?_iff]
  constructor
  · rintro ⟨before, behind, pieces, rest, rfl, way⟩
    obtain ⟨after, rfl, opening, closing⟩ := mem_ways_closed_iff.1 ⟨pieces, rest, way⟩
    rw [lastPart_append_bracket closing]
    exact ⟨by simp, opening⟩
  · rintro ⟨closed, opening⟩
    obtain ⟨before, after, rfl, closing⟩ := exists_last_bracket closed
    rw [lastPart_append_bracket closing] at opening
    obtain ⟨pieces, rest, way⟩ := mem_ways_closed_iff.2 ⟨after, rfl, opening, closing⟩
    exact ⟨before, _, pieces, rest, rfl, way⟩

/-- What a fragment says is what two searches find, the one for an open tag first. -/
theorem verdict_eq_search? (fragment : Text) : verdict fragment =
    if (openPattern.search? fragment).isSome then some true
    else if (closedPattern.search? fragment).isSome then some false
    else none := by
  simp only [verdict, isSome_search?_open_iff, isSome_search?_closed_iff, Bool.and_eq_true,
    Bool.not_eq_true', List.contains_eq_mem, decide_eq_false_iff_not, decide_eq_true_eq]

end OpenTag

end Stencil
