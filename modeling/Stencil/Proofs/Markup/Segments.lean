/-
# Stencil.Proofs.Markup.Segments -- writing out from segment to segment

Every closing bracket of a text ends a segment, and writing out takes one segment after the other:
nothing that stands in one has a part in what becomes of the next.  A segment is changed exactly if
it ends in a slash and its first tag (`SelfClosing.FirstTag`) is not void.  Then the slash and the
blanks before it go, and an end tag is put behind the bracket.  The name of the end tag is that of
the first tag, whatever tags or lone brackets follow it.

`SelfClosing.writeOut_segments` is the main statement.  It says what becomes of every text: take off
the segments one by one, and keep what stands behind the last bracket.
-/
import Stencil.Proofs.Markup.Closing

set_option autoImplicit false

namespace Stencil.SelfClosing

variable {segment before name after : Text}

/-! ## The first tag -/

/-- A letter or more, and behind the letters any characters of tag names. -/
def IsTagName (name : Text) : Prop :=
  ∃ letters others : Text, name = letters ++ others ∧ letters ≠ [] ∧
    (∀ c ∈ letters, Text.isLetter c = true) ∧ ∀ c ∈ others, Text.isTagNameChar c = true

/-- No tag begins in the text. -/
def Tagless (s : Text) : Prop := ∀ x c y, s = x ++ '<' :: c :: y → Text.isLetter c = false

/-- The first tag that begins in a segment, with its name as long as it can be. -/
structure FirstTag (segment before name after : Text) : Prop where
  whole : segment = before ++ '<' :: (name ++ after)
  named : IsTagName name
  longest : ∀ c ∈ after.head?, Text.isTagNameChar c = false
  first : Tagless before

theorem IsTagName.letter (named : IsTagName name) : name.head?.any Text.isLetter = true := by
  obtain ⟨letters, others, rfl, ne, letter, -⟩ := named
  obtain ⟨c, letters, rfl⟩ := List.exists_cons_of_ne_nil ne
  exact letter c (List.mem_cons_self ..)

theorem IsTagName.chars (named : IsTagName name) : ∀ c ∈ name, Text.isTagNameChar c = true := by
  obtain ⟨letters, others, rfl, -, letter, chars⟩ := named
  intro c member
  rcases List.mem_append.1 member with member | member
  · exact isTagNameChar_of_isLetter (letter c member)
  · exact chars c member

/-- The run at the front of a text that begins with a letter is a tag's name. -/
theorem isTagName_takeWhile {s : Text} (letter : s.head?.any Text.isLetter = true) :
    IsTagName (s.takeWhile Text.isTagNameChar) := by
  cases s with
  | nil => exact nomatch letter
  | cons c s =>
      have char := isTagNameChar_of_isLetter letter
      refine ⟨[c], s.takeWhile Text.isTagNameChar, List.takeWhile_cons_of_pos char,
        List.cons_ne_nil c [], List.forall_mem_singleton.2 letter, ?_⟩
      exact (Text.splitRun_spec Text.isTagNameChar s).1

theorem tagless_cons {c : Char} {s : Text} (tagless : Tagless s)
    (begins : ¬ (c = '<' ∧ s.head?.any Text.isLetter = true)) : Tagless (c :: s) := by
  rintro (_ | ⟨e, x⟩) d y split
  · obtain ⟨rfl, rfl⟩ := List.cons.inj split
    rw [← Bool.not_eq_true]
    exact fun letter => begins ⟨rfl, letter⟩
  · obtain ⟨-, split⟩ := List.cons.inj split
    exact tagless x d y split

theorem exists_firstTag {s : Text} (found : tagName? s = some name) :
    ∃ before after, FirstTag s before name after := by
  induction s with
  | nil => cases found
  | cons c s ih =>
      rw [tagName?] at found
      split at found
      · next begins =>
        obtain ⟨rfl, letter⟩ := begins
        obtain rfl := Option.some.inj found
        refine ⟨[], s.dropWhile Text.isTagNameChar, ?_, isTagName_takeWhile letter,
          (Text.splitRun_spec Text.isTagNameChar s).2, fun x d y split => ?_⟩
        · rw [List.takeWhile_append_dropWhile]
          rfl
        · simp at split
      · next begins =>
        obtain ⟨before, after, whole, named, longest, first⟩ := ih found
        refine ⟨c :: before, after, congrArg (c :: ·) whole, named, longest,
          tagless_cons first fun begins' => begins ⟨begins'.1, ?_⟩⟩
        cases before with
        | nil => exact absurd begins'.2 Bool.false_ne_true
        | cons d before =>
            rw [whole]
            exact begins'.2

theorem tagName?_of_firstTag : ∀ {before segment : Text},
    FirstTag segment before name after → tagName? segment = some name
  | [], segment, tag => by
      have stop : Text.splitRun Text.isTagNameChar (name ++ after) = (name, after) :=
        Text.splitRun_append_of_all tag.named.chars tag.longest
      have run : (name ++ after).takeWhile Text.isTagNameChar = name := congrArg Prod.fst stop
      have letter : (name ++ after).head?.any Text.isLetter = true := by
        rw [← any_isLetter_takeWhile, run]
        exact tag.named.letter
      rw [tag.whole, List.nil_append, tagName?, if_pos ⟨rfl, letter⟩, run]
  | c :: before, segment, tag => by
      have behind : FirstTag (before ++ '<' :: (name ++ after)) before name after :=
        ⟨rfl, tag.named, tag.longest,
          fun x d y split => tag.first (c :: x) d y (by rw [split]; rfl)⟩
      rw [tag.whole, List.cons_append, tagName?, if_neg, tagName?_of_firstTag behind]
      rintro ⟨rfl, letter⟩
      cases before with
      | nil =>
          have bracket : Text.isLetter '<' = true := letter
          exact absurd bracket (by decide)
      | cons d before =>
          have other : Text.isLetter d = false := tag.first [] d before rfl
          exact absurd (letter.symm.trans other) (by decide)

/-- The name found in a segment is that of its first tag. -/
theorem tagName?_eq_some_iff :
    tagName? segment = some name ↔ ∃ before after, FirstTag segment before name after :=
  ⟨exists_firstTag, fun ⟨_, _, tag⟩ => tagName?_of_firstTag tag⟩

/-! ## One segment -/

/-- A segment whose slash closes its first tag. -/
structure ClosesTag (segment before name after : Text) : Prop where
  tag : FirstTag segment before name after
  slash : segment.getLast? = some '/'
  notVoid : name.map Text.foldLetter ∉ voidNames

theorem isVoid_eq_false_iff : isVoid name = false ↔ name.map Text.foldLetter ∉ voidNames := by
  rw [isVoid, ← Bool.not_eq_true, List.contains_iff_mem]

/-- A segment with its bracket is written out by itself. -/
theorem writeOut_segment (free : '>' ∉ segment) :
    writeOut (segment ++ ['>']) = shut (tagName? segment) segment := by
  rw [writeOut_append_bracket free, writeOut_nil, List.append_nil]

/-- The slash of a segment stands behind the name of its first tag. -/
theorem ClosesTag.exists_after (closes : ClosesTag segment before name after) :
    ∃ inner, after = inner ++ ['/'] := by
  obtain ⟨⟨whole, named, longest, first⟩, slash, -⟩ := closes
  rcases List.eq_nil_or_concat after with rfl | ⟨inner, c, rfl⟩
  · have member : '/' ∈ '<' :: name := by
      refine List.mem_of_getLast? ?_
      have last : (before ++ '<' :: name).getLast? = some '/' := by simpa [whole] using slash
      rwa [List.getLast?_append_of_ne_nil _ (List.cons_ne_nil '<' name)] at last
    rcases List.mem_cons.1 member with same | inName
    · exact absurd same (by decide)
    · exact absurd (named.chars _ inName) (by decide)
  · have parts : segment = (before ++ '<' :: (name ++ inner)) ++ [c] := by
      rw [whole]
      simp
    rw [parts, List.getLast?_concat] at slash
    obtain rfl := Option.some.inj slash
    exact ⟨inner, List.concat_eq_append⟩

/-- What becomes of a segment whose slash closes its first tag. -/
theorem ClosesTag.writeOut_eq (closes : ClosesTag segment before name after)
    (free : '>' ∉ segment) :
    ∃ kept blanks : Text, segment = before ++ '<' :: name ++ kept ++ blanks ++ ['/'] ∧
      (∀ c ∈ blanks, Text.isBlank c = true) ∧ (∀ c ∈ kept.getLast?, Text.isBlank c = false) ∧
      writeOut (segment ++ ['>']) =
        before ++ '<' :: name ++ kept ++ '>' :: '<' :: '/' :: name ++ ['>'] := by
  obtain ⟨inner, rfl⟩ := closes.exists_after
  obtain ⟨kept, blanks, rfl, blank, visible⟩ : ∃ kept blanks : Text, inner = kept ++ blanks ∧
      (∀ c ∈ blanks, Text.isBlank c = true) ∧ ∀ c ∈ kept.getLast?, Text.isBlank c = false :=
    ⟨Text.trimEnd inner, Text.exists_trimEnd_append inner⟩
  have parts : segment = before ++ '<' :: name ++ kept ++ blanks ++ ['/'] := by
    rw [closes.tag.whole]
    simp
  refine ⟨kept, blanks, parts, blank, visible, ?_⟩
  -- The blanks end where the name or what is kept behind it does.
  have last : ∀ c ∈ (before ++ '<' :: name ++ kept).getLast?, Text.isBlank c = false := by
    rcases List.eq_nil_or_concat kept with rfl | ⟨kept, d, rfl⟩
    · intro c final
      rw [List.append_nil, List.getLast?_append_of_ne_nil _ (List.cons_ne_nil '<' name)] at final
      rcases List.mem_cons.1 (List.mem_of_getLast? final) with rfl | inName
      · decide
      · exact isBlank_of_isTagNameChar (closes.tag.named.chars c inName)
    · intro c final
      obtain rfl : d = c :=
        Text.eq_of_mem_getLast? ⟨before ++ '<' :: name ++ kept, by simp⟩ final
      exact visible d (by simp)
  have trimmed : Text.trimEnd (before ++ '<' :: name ++ kept ++ blanks) =
      before ++ '<' :: name ++ kept := by
    have none : Text.trimEnd blanks = [] := by
      rw [Text.trimEnd, show blanks = [] ++ blanks from rfl,
        Text.splitLastRun_append_of_all blank (by simp)]
    rw [Text.trimEnd_append_of_last last, none, List.append_nil]
  rw [writeOut_segment free, tagName?_of_firstTag closes.tag, shut,
    if_pos ⟨closes.slash, isVoid_eq_false_iff.2 closes.notVoid⟩, parts, List.dropLast_concat,
    trimmed]
  simp

/-- A segment is changed exactly if its slash closes its first tag. -/
theorem writeOut_segment_ne_iff (free : '>' ∉ segment) :
    writeOut (segment ++ ['>']) ≠ segment ++ ['>'] ↔
      ∃ before name after, ClosesTag segment before name after := by
  constructor
  · intro changed
    rw [writeOut_segment free] at changed
    cases found : tagName? segment with
    | none =>
        rw [found] at changed
        exact absurd rfl changed
    | some name =>
        obtain ⟨before, after, tag⟩ := exists_firstTag found
        rw [found, shut] at changed
        split at changed
        · next closes => exact ⟨before, name, after, tag, closes.1, isVoid_eq_false_iff.1 closes.2⟩
        · exact absurd rfl changed
  · rintro ⟨before, name, after, closes⟩ same
    obtain ⟨kept, blanks, -, -, -, written⟩ := closes.writeOut_eq free
    -- The end tag has a closing bracket before it, and the segment has none.
    have whole : (before ++ '<' :: name ++ kept ++ '>' :: '<' :: '/' :: name) ++ ['>'] =
        segment ++ ['>'] := by
      rw [← same, written]
    have inside : '>' ∈ segment := by
      rw [← List.append_cancel_right whole]
      simp
    exact free inside

/-! ## One segment after the other -/

/-- Writing out does not reach across a closing bracket. -/
theorem writeOut_append_bracket_append (a b : Text) :
    writeOut (a ++ '>' :: b) = writeOut (a ++ ['>']) ++ writeOut b := by
  induction a using bracket_induction with
  | free a free => rw [writeOut_append_bracket free, writeOut_segment free]
  | bracket segment rest free ih =>
      rw [List.append_assoc, List.cons_append, writeOut_append_bracket free, ih,
        List.append_assoc (segment), List.cons_append, writeOut_append_bracket free,
        List.append_assoc]

/-- A text is written out segment by segment.  What stands behind the last bracket stays, a segment
is changed exactly if its slash closes its first tag, and then the slash and the blanks before it
are taken away and the end tag is put behind the bracket. -/
theorem writeOut_segments :
    (∀ a b : Text, writeOut (a ++ '>' :: b) = writeOut (a ++ ['>']) ++ writeOut b) ∧
    (∀ s : Text, '>' ∉ s → writeOut s = s) ∧
    ∀ segment : Text, '>' ∉ segment →
      (writeOut (segment ++ ['>']) ≠ segment ++ ['>'] ↔
        ∃ before name after, ClosesTag segment before name after) ∧
      ∀ before name after : Text, ClosesTag segment before name after →
        ∃ kept blanks : Text, segment = before ++ '<' :: name ++ kept ++ blanks ++ ['/'] ∧
          (∀ c ∈ blanks, Text.isBlank c = true) ∧ (∀ c ∈ kept.getLast?, Text.isBlank c = false) ∧
          writeOut (segment ++ ['>']) =
            before ++ '<' :: name ++ kept ++ '>' :: '<' :: '/' :: name ++ ['>'] := by
  refine ⟨writeOut_append_bracket_append, fun s => writeOut_of_free, fun segment free => ⟨?_, ?_⟩⟩
  · exact writeOut_segment_ne_iff free
  · intro before name after closes
    exact closes.writeOut_eq free

/-- Lone brackets before the tag, a slash in it, and a void tag in front of another. -/
example : writeOut "< 1<a/b c = '/' \t/><BR <i/></i/>".toList =
    "< 1<a/b c = '/'></a><BR <i/></i/>".toList := by decide

end Stencil.SelfClosing
