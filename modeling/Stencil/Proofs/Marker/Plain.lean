/-
# Stencil.Proofs.Marker.Plain -- markers with a plain lead are found where they were put

A lead is plain if it is not empty and none of its characters is blank or of use in a marker or a
tag.  Markers with a plain lead are put between fixed texts that do not hold the lead.  A scan finds
these markers and no others, and leaves the fixed texts as they are, but for the blanks before an
assignment, which go to the marker: `Marker.scan_join_of_placed` is the main statement.

A marker read anywhere else would hold the lead, and the lead would lie across the border of a fixed
text and the marker behind it.  In front of a comment that is impossible, as `<` is not plain.  In
front of an assignment the lead would overlap itself, `lead = x ++ y` and `lead = y ++ z`, and since
an index follows `y`, all of `z` would be digits.  Then so is all of `x`, which is made of the same
characters (`List.Perm`), while a fixed text before an assignment does not end in a digit.
-/
import Stencil.Proofs.Marker.Cut
import Stencil.Proofs.Text.Infix
import Stencil.Markup.Assignment
import Stencil.Text.Letter

set_option autoImplicit false

namespace Stencil

namespace Marker

/-- A lead whose characters stand for nothing else in markup. -/
structure Plain (lead : Text) : Prop where
  ne_nil : lead ≠ []
  not_blank : ∀ c ∈ lead, Text.isBlank c = false
  not_special : ∀ c ∈ lead, c ∉ ['<', '>', '!', '-', '=', '/', '"', '\'']

instance (lead : Text) : Decidable (Plain lead) :=
  decidable_of_iff (lead ≠ [] ∧ (lead.all fun c => !Text.isBlank c) = true ∧
      (lead.all fun c => c ∉ ['<', '>', '!', '-', '=', '/', '"', '\'']) = true)
    ⟨fun ⟨ne_nil, visible, named⟩ => ⟨ne_nil, by simpa using visible, by simpa using named⟩,
      fun ⟨ne_nil, visible, named⟩ => ⟨ne_nil, by simpa using visible, by simpa using named⟩⟩

theorem Plain.not_mem {lead : Text} (plain : Plain lead) {c : Char}
    (special : c ∈ ['<', '>', '!', '-', '=', '/', '"', '\'']) : c ∉ lead :=
  fun member => plain.not_special c member special

theorem not_mem_of_isIndex {digits : Text} (index : IsIndex digits) {c : Char}
    (other : Text.isDecimalDigit c = false) : c ∉ digits := by
  intro member
  rw [index.2 c member] at other
  exact nomatch other

/-! ## What a marker holds -/

/-- Every marker holds the lead and behind it an index with an end. -/
theorem Word.shape {lead w : Text} {m : Marker} (word : Word lead m w) :
    ∃ (front digits : Text) (stop : Char) (back : Text),
      w = front ++ lead ++ (digits ++ stop :: back) ∧ IsIndex digits ∧ (stop = '=' ∨ stop = '-') ∧
        (front = ['<', '!', '-', '-'] ∨ ∀ c ∈ front, Text.isBlank c = true) := by
  cases word with
  | @comment digits index =>
      exact ⟨_, digits, '-', ['-', '>'], by simp, index, .inr rfl, .inl rfl⟩
  | @assignment blanks digits name quote blank index named unquoted =>
      exact ⟨blanks, digits, '=', quote.char :: (name ++ [quote.char]), by simp, index, .inl rfl,
        .inr blank⟩

theorem Word.holds_lead {lead w : Text} {m : Marker} (word : Word lead m w) : lead <:+: w := by
  obtain ⟨front, digits, stop, back, rfl, -, -, -⟩ := word.shape
  exact List.infix_append ..

/-- A text without the lead has no marker. -/
theorem read?_of_free {lead s : Text} (free : ¬ lead <:+: s) : read? lead s = none :=
  read?_eq_none_iff.2 fun _ _ word front => free (word.holds_lead.trans front.isInfix)

/-- A marker at the front of a text without the lead and something behind it holds the border in
its lead or before its lead. -/
theorem Word.border {lead w s tail : Text} {m : Marker} (word : Word lead m w)
    (front : w <+: s ++ tail) (free : ¬ lead <:+: s) :
    ∃ (before digits : Text) (stop : Char) (rest : Text), IsIndex digits ∧
      (stop = '=' ∨ stop = '-') ∧
      (before = ['<', '!', '-', '-'] ∨ ∀ c ∈ before, Text.isBlank c = true) ∧
      ((∃ x y, x ≠ [] ∧ y ≠ [] ∧ lead = x ++ y ∧ s = before ++ x ∧
          tail = y ++ (digits ++ stop :: rest)) ∨
        ∃ more, before = s ++ more ∧ tail = more ++ lead ++ (digits ++ stop :: rest)) := by
  obtain ⟨before, digits, stop, back, rfl, index, stops, kinds⟩ := word.shape
  obtain ⟨rest, whole⟩ := front
  refine ⟨before, digits, stop, back ++ rest, index, stops, kinds, ?_⟩
  have whole' : (before ++ lead) ++ (digits ++ stop :: (back ++ rest)) = s ++ tail := by
    rw [← whole]
    simp
  rcases List.append_eq_append_iff.1 whole' with ⟨more, inside, -⟩ | ⟨y, across, behind⟩
  · exact absurd (inside ▸ List.infix_append before lead more) free
  · rcases List.append_eq_append_iff.1 across with ⟨x, rfl, split⟩ | ⟨more, rfl, rfl⟩
    · by_cases none : x = []
      · subst none
        refine .inr ⟨[], by simp, ?_⟩
        rw [behind, split]
        simp
      · refine .inl ⟨x, y, none, ?_, split, rfl, behind⟩
        rintro rfl
        rw [List.append_nil] at split
        exact free (split ▸ (List.suffix_append before x).isInfix)
    · exact .inr ⟨more, rfl, behind⟩

theorem isIndex_numeral (i : Nat) : IsIndex (Text.numeral i) := by
  refine ⟨Nat.toDigits_ne_nil, ?_⟩
  intro c member
  have digit := Nat.isDigit_of_mem_toDigits (by omega) (by omega) member
  simp only [Char.isDigit, Bool.and_eq_true, decide_eq_true_eq] at digit
  refine (Ranges.contains_iff _ c).2 ⟨(0x30, 0x39), by simp [Text.digitRanges], ?_⟩
  exact digit

/-! ## Nothing is read across a border -/

variable {lead : Text}

/-- In front of a comment no marker is read. -/
theorem read?_append_comment (plain : Plain lead) {s : Text} (ne : s ≠ [])
    (free : ¬ lead <:+: s) (tail : Text) : read? lead (s ++ '<' :: tail) = none := by
  rw [read?_eq_none_iff]
  intro m w word front
  obtain ⟨before, digits, stop, rest, -, -, kinds, across | ⟨more, rfl, behind⟩⟩ :=
    word.border front free
  · obtain ⟨x, y, -, ney, rfl, -, behind⟩ := across
    cases y with
    | nil => exact ney rfl
    | cons c y =>
        obtain ⟨rfl, -⟩ := List.cons.inj behind
        exact plain.not_mem (by simp) (List.mem_append_right x (List.mem_cons_self ..))
  · cases more with
    | nil =>
        cases lead with
        | nil => exact plain.ne_nil rfl
        | cons c lead =>
            obtain ⟨rfl, -⟩ := List.cons.inj behind
            exact plain.not_mem (by simp) (List.mem_cons_self ..)
    | cons c more =>
        obtain ⟨rfl, -⟩ := List.cons.inj behind
        rcases kinds with opening | blank
        · cases s with
          | nil => exact ne rfl
          | cons d s =>
              obtain ⟨-, others⟩ := List.cons.inj opening
              have member : '<' ∈ ['!', '-', '-'] := others ▸ by simp
              exact absurd member (by decide)
        · exact absurd (blank '<' (by simp)) (by decide)

/-- A run in front of a digit run that stops is a digit run, or holds the stop. -/
theorem all_digits_of_append {z digits tail rest : Text} {stop : Char} (index : IsIndex digits)
    (free : stop ∉ z) (h : z ++ tail = digits ++ stop :: rest) :
    ∀ c ∈ z, Text.isDecimalDigit c = true := by
  rcases List.append_eq_append_iff.1 h with ⟨more, rfl, -⟩ | ⟨more, rfl, behind⟩
  · exact fun c member => index.2 c (List.mem_append_left _ member)
  · cases more with
    | nil => exact fun c member => index.2 c (by simpa using member)
    | cons c more =>
        obtain ⟨rfl, -⟩ := List.cons.inj behind
        exact absurd (List.mem_append_right _ (List.mem_cons_self ..)) free

/-- A lead that overlaps itself in front of an index ends in digits, and so does what stands before
the overlap. -/
theorem digits_of_overlap (plain : Plain lead) {x y digits tail rest : Text} {stop : Char}
    (index : IsIndex digits) (stops : stop = '=' ∨ stop = '-') (split : lead = x ++ y)
    (h : lead ++ tail = y ++ (digits ++ stop :: rest)) :
    ∀ c ∈ x, Text.isDecimalDigit c = true := by
  have special : stop ∉ lead := by
    rcases stops with rfl | rfl
    · exact plain.not_mem (by simp)
    · exact plain.not_mem (by simp)
  rcases List.append_eq_append_iff.1 h with ⟨more, longer, -⟩ | ⟨z, again, behind⟩
  · -- The overlap is no longer than the lead, so nothing stands before it.
    have none : x = [] := by
      have lengths := congrArg List.length split
      have lengths' := congrArg List.length longer
      rw [List.length_append] at lengths lengths'
      exact List.length_eq_zero_iff.1 (by omega)
    rw [none]
    nofun
  · have allZ : ∀ c ∈ z, Text.isDecimalDigit c = true := by
      refine all_digits_of_append index (fun member => special ?_) behind.symm
      rw [again]
      exact List.mem_append_right _ member
    have same : (y ++ x).Perm (y ++ z) := by
      rw [← again, split]
      exact List.perm_append_comm
    intro c member
    exact allZ c (((List.perm_append_left_iff y).1 same).subset member)

/-- In front of an assignment no marker is read but with blanks alone before it. -/
theorem read?_append_assignment (plain : Plain lead) {s : Text} (ne : s ≠ [])
    (free : ¬ lead <:+: s) (spoken : ∃ c ∈ s, Text.isBlank c = false)
    (last : ∀ c ∈ s.getLast?, Text.isDecimalDigit c = false ∧ c ≠ '-') (tail : Text) :
    read? lead (s ++ (lead ++ tail)) = none := by
  rw [read?_eq_none_iff]
  intro m w word front
  obtain ⟨before, digits, stop, rest, index, stops, kinds, across | ⟨more, rfl, behind⟩⟩ :=
    word.border front free
  · obtain ⟨x, y, nex, -, split, rfl, behind⟩ := across
    obtain ⟨x, c, rfl⟩ := (List.eq_nil_or_concat x).resolve_left nex
    have digit := digits_of_overlap plain index stops split behind c (by simp)
    have final : (before ++ x.concat c).getLast? = some c := by simp
    rw [(last c final).1] at digit
    exact Bool.false_ne_true digit
  · rcases kinds with opening | blank
    · cases more with
      | nil =>
          rw [List.append_nil] at opening
          exact (last '-' (by rw [opening]; rfl)).2 rfl
      | cons c more =>
          -- The lead would begin with a character of the comment's opening other than the first.
          have inside : c ∈ lead := by
            cases lead with
            | nil => exact absurd rfl plain.ne_nil
            | cons d lead =>
                obtain ⟨rfl, -⟩ := List.cons.inj behind
                exact List.mem_cons_self ..
          cases s with
          | nil => exact ne rfl
          | cons d s =>
              obtain ⟨-, others⟩ := List.cons.inj opening
              have member : c ∈ ['!', '-', '-'] := others ▸ by simp
              refine plain.not_special c inside ?_
              simp only [List.mem_cons, List.not_mem_nil, or_false] at member
              rcases member with rfl | rfl | rfl <;> simp
    · obtain ⟨c, member, visible⟩ := spoken
      rw [blank c (List.mem_append_left _ member)] at visible
      exact Bool.false_ne_true visible.symm

/-! ## What ends a fixed text before an assignment -/

/-- Code points of the characters that end a name. -/
def nameEnds : List Nat := [
  9, 10, 11, 12, 13, 0x20, 0x85, 0xA0, 0x1680, 0x2000, 0x2001, 0x2002, 0x2003, 0x2004, 0x2005,
  0x2006, 0x2007, 0x2008, 0x2009, 0x200A, 0x2028, 0x2029, 0x202F, 0x205F, 0x3000,
  0x22, 0x27, 0x3D, 0x3E, 0x5C]

theorem toNat_mem_nameEnds {c : Char} (h : Assignment.isNameChar c = false) :
    c.toNat ∈ nameEnds := by
  simp only [Assignment.isNameChar, Bool.not_eq_false', Bool.or_eq_true, beq_iff_eq] at h
  obtain ((((blank | rfl) | rfl) | rfl) | rfl) | rfl := h
  · simp only [Text.isBlank, Bool.or_eq_true, Bool.and_eq_true, decide_eq_true_eq, beq_iff_eq]
      at blank
    simp only [nameEnds, List.mem_cons, List.not_mem_nil, or_false]
    omega
  all_goals decide

/-- A digit may stand in a name. -/
theorem isNameChar_of_isDecimalDigit {c : Char} (digit : Text.isDecimalDigit c = true) :
    Assignment.isNameChar c = true := by
  rw [← Bool.not_eq_false]
  intro ends
  obtain ⟨range, member, low, high⟩ := (Ranges.contains_iff _ c).1 digit
  have apart : ∀ range ∈ Text.digitRanges, ∀ n ∈ nameEnds, n < range.1 ∨ range.2 < n := by decide
  have outside := apart range member _ (toNat_mem_nameEnds ends)
  omega

/-- A character of a tag's name may stand in an attribute's name. -/
theorem isNameChar_of_isTagNameChar {c : Char} (h : Text.isTagNameChar c = true) :
    Assignment.isNameChar c = true := by
  rw [← Bool.not_eq_false]
  intro ends
  have others : ∀ n ∈ nameEnds, Text.isTagNameChar (Char.ofNat n) = false := by decide
  have other := others _ (toNat_mem_nameEnds ends)
  rw [Char.ofNat_toNat, h] at other
  exact nomatch other

/-! ## The scan -/

/-- Where nothing is read the text in front of a marker grows. -/
theorem scan_append_of_none {m : Marker} {found : List (Text × Marker)} {post tail : Text}
    (behind : scan lead tail = (([], m) :: found, post)) :
    ∀ s : Text, (∀ t, t ≠ [] → t <:+ s → read? lead (t ++ tail) = none) →
      scan lead (s ++ tail) = ((s, m) :: found, post)
  | [], _ => behind
  | c :: s, nothing => by
      have here : read? lead (c :: (s ++ tail)) = none :=
        nothing (c :: s) (by simp) (List.suffix_refl _)
      have rest := scan_append_of_none behind s fun t ne inside =>
        nothing t ne (inside.trans (List.suffix_cons c s))
      rw [List.cons_append, scan_of_read?_none here, rest, push]

theorem scan_of_free : ∀ s : Text, ¬ lead <:+: s → scan lead s = ([], s)
  | [], _ => scan_nil lead
  | c :: s, free => by
      have rest := scan_of_free s fun inside => free (List.infix_cons inside)
      rw [scan_of_read?_none (read?_of_free free), rest, push]

/-- A marker put behind a fixed text. -/
inductive Placed (lead : Text) : Piece → Prop where
  | comment {pre digits : Text} (free : ¬ lead <:+: pre) (index : IsIndex digits) :
      Placed lead ⟨pre, ['<', '!', '-', '-'] ++ lead ++ digits ++ ['-', '-', '>'], .text⟩
  | assignment {pre digits name : Text} {quote : Quote} (free : ¬ lead <:+: pre)
      (ends : ∀ c ∈ pre.getLast?, Assignment.isNameChar c = false) (index : IsIndex digits)
      (named : name ≠ []) (name_chars : ∀ c ∈ name, Assignment.isNameChar c = true)
      (name_free : ¬ lead <:+: name) :
      Placed lead ⟨pre, lead ++ digits ++ '=' :: quote.char :: name ++ [quote.char],
        .attribute name quote⟩

theorem read?_comment {digits : Text} (index : IsIndex digits) (rest : Text) :
    read? lead (['<', '!', '-', '-'] ++ lead ++ digits ++ ['-', '-', '>'] ++ rest) =
      some (.text, rest) := by
  rw [read?, afterComment?_append index rest]

theorem blankAssignment?_append {found : Marker × Text} {s : Text}
    (here : assignment? lead s = some found) (visible : ∀ c ∈ s.head?, Text.isBlank c = false) :
    ∀ blanks : Text, (∀ c ∈ blanks, Text.isBlank c = true) →
      blankAssignment? lead (blanks ++ s) = some found
  | [], _ => by
      cases s with
      | nil => exact here
      | cons c s =>
          have first : Text.isBlank c = false := visible c rfl
          rw [List.nil_append, blankAssignment?, first, if_neg Bool.false_ne_true, here]
  | c :: blanks, blank => by
      have rest := blankAssignment?_append here visible blanks fun d member =>
        blank d (List.mem_cons_of_mem c member)
      rw [List.cons_append, blankAssignment?, if_pos (blank c (List.mem_cons_self ..)), rest]

theorem afterComment?_cons_of_ne {c : Char} (ne : c ≠ '<') (s : Text) :
    afterComment? lead (c :: s) = none := by
  simp [afterComment?, Text.after?, Ne.symm ne]

/-- Blanks before an assignment are read with it. -/
theorem read?_assignment (plain : Plain lead) {blanks digits name : Text} {quote : Quote}
    (blank : ∀ c ∈ blanks, Text.isBlank c = true) (index : IsIndex digits) (named : name ≠ [])
    (unquoted : quote.char ∉ name) (rest : Text) :
    read? lead (blanks ++ (lead ++ digits ++ '=' :: quote.char :: name ++ quote.char :: rest)) =
      some (.attribute name quote, rest) := by
  obtain ⟨c, cs, rfl⟩ := List.exists_cons_of_ne_nil plain.ne_nil
  have visible : Text.isBlank c = false := plain.not_blank c (List.mem_cons_self ..)
  have found := blankAssignment?_append (assignment?_append (c :: cs) index named unquoted rest)
    (by simpa using visible) blanks blank
  have comment : afterComment? (c :: cs)
      (blanks ++ (c :: cs ++ digits ++ '=' :: quote.char :: name ++ quote.char :: rest)) =
        none := by
    cases blanks with
    | nil =>
        have other : c ≠ '<' := by
          rintro rfl
          exact plain.not_mem (by simp) (List.mem_cons_self ..)
        exact afterComment?_cons_of_ne other _
    | cons b blanks =>
        have other : b ≠ '<' := by
          rintro rfl
          exact absurd (blank '<' (List.mem_cons_self ..)) (by decide)
        exact afterComment?_cons_of_ne other _
  rw [read?, comment]
  exact found

/-- The fixed text that is left before a marker. -/
def settled (p : Piece) : Text := if p.marker = .text then p.pre else Text.trimEnd p.pre

theorem quote_not_mem {name : Text} (quote : Quote)
    (name_chars : ∀ c ∈ name, Assignment.isNameChar c = true) : quote.char ∉ name := by
  intro member
  have := name_chars _ member
  cases quote <;> exact absurd this (by decide)

/-- Nothing is read in the fixed text before an assignment, up to the blanks at its end. -/
theorem read?_before_assignment (plain : Plain lead) {pre blanks t : Text} (free : ¬ lead <:+: pre)
    (ends : ∀ c ∈ pre.getLast?, Assignment.isNameChar c = false)
    (whole : pre = Text.trimEnd pre ++ blanks)
    (visible : ∀ c ∈ (Text.trimEnd pre).getLast?, Text.isBlank c = false) (ne : t ≠ [])
    (inside : t <:+ Text.trimEnd pre) (tail : Text) :
    read? lead (t ++ (blanks ++ (lead ++ tail))) = none := by
  have part : t ++ blanks <:+ pre := by
    obtain ⟨front, joined⟩ := inside
    refine ⟨front, ?_⟩
    rw [← List.append_assoc, joined]
    exact whole.symm
  -- The text from here on has a character that is not blank, the last before the blanks.
  have spoken : ∃ c ∈ t ++ blanks, Text.isBlank c = false := by
    obtain ⟨t, c, rfl⟩ := (List.eq_nil_or_concat t).resolve_left ne
    exact ⟨c, by simp, visible c (Text.mem_getLast?_of_suffix inside (by simp))⟩
  have last : ∀ c ∈ (t ++ blanks).getLast?, Text.isDecimalDigit c = false ∧ c ≠ '-' := by
    intro c member
    have stop := ends c (Text.mem_getLast?_of_suffix part member)
    constructor
    · rw [← Bool.not_eq_true]
      intro digit
      rw [isNameChar_of_isDecimalDigit digit] at stop
      exact nomatch stop
    · rintro rfl
      exact absurd stop (by decide)
  rw [← List.append_assoc]
  apply read?_append_assignment plain _ _ spoken last
  · simp [ne]
  · exact fun held => free (held.trans part.isInfix)

/-- A scan finds an assignment that was put behind a fixed text, and goes on behind it. -/
theorem scan_append_assignment (plain : Plain lead) {pre digits name : Text} {quote : Quote}
    (free : ¬ lead <:+: pre) (ends : ∀ c ∈ pre.getLast?, Assignment.isNameChar c = false)
    (index : IsIndex digits) (named : name ≠ []) (unquoted : quote.char ∉ name)
    {found : List (Text × Marker)} {post rest : Text} (behind : scan lead rest = (found, post)) :
    scan lead (pre ++ (lead ++ digits ++ '=' :: quote.char :: name ++ [quote.char]) ++ rest) =
      ((Text.trimEnd pre, .attribute name quote) :: found, post) := by
  obtain ⟨blanks, whole, blank, visible⟩ := Text.exists_trimEnd_append pre
  have here := scan_of_read?_some (read?_assignment plain blank index named unquoted rest)
  rw [behind] at here
  have spread : pre ++ (lead ++ digits ++ '=' :: quote.char :: name ++ [quote.char]) ++ rest =
      Text.trimEnd pre ++
        (blanks ++ (lead ++ digits ++ '=' :: quote.char :: name ++ quote.char :: rest)) := by
    have parts : pre ++ (lead ++ digits ++ '=' :: quote.char :: name ++ [quote.char]) ++ rest =
      pre ++ (lead ++ digits ++ '=' :: quote.char :: name ++ quote.char :: rest) := by simp
    rw [parts, ← List.append_assoc (Text.trimEnd pre), ← whole]
  rw [spread]
  apply scan_append_of_none here (Text.trimEnd pre)
  intro t ne inside
  have nothing := read?_before_assignment plain free ends whole visible ne inside
    (digits ++ '=' :: quote.char :: name ++ quote.char :: rest)
  simpa using nothing

/-- A scan finds a marker that was put behind a fixed text, and goes on behind it. -/
theorem scan_append_of_placed (plain : Plain lead) {p : Piece} (placed : Placed lead p)
    {found : List (Text × Marker)} {post rest : Text} (behind : scan lead rest = (found, post)) :
    scan lead (p.pre ++ p.word ++ rest) = ((settled p, p.marker) :: found, post) := by
  cases placed with
  | @comment pre digits free index =>
      have word : read? lead _ = _ := read?_comment index rest
      have here := scan_of_read?_some word
      rw [behind] at here
      rw [List.append_assoc]
      apply scan_append_of_none here pre
      intro t ne inside
      exact read?_append_comment plain ne (fun held => free (held.trans inside.isInfix)) _
  | @assignment pre digits name quote free ends index named name_chars name_free =>
      exact scan_append_assignment plain free ends index named (quote_not_mem quote name_chars)
        behind

/-- A scan finds the markers that were put between fixed texts without the lead, and no others. -/
theorem scan_join_of_placed (plain : Plain lead) {post : Text} (rest : ¬ lead <:+: post) :
    ∀ pieces : List Piece, (∀ p ∈ pieces, Placed lead p) →
      scan lead (Piece.join post pieces) = (pieces.map fun p => (settled p, p.marker), post)
  | [], _ => scan_of_free post rest
  | p :: more, placed => by
      obtain ⟨first, others⟩ := List.forall_mem_cons.1 placed
      rw [Piece.join, List.map_cons]
      exact scan_append_of_placed plain first (scan_join_of_placed plain rest more others)

end Marker

end Stencil
