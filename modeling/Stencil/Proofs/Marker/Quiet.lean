/-
# Stencil.Proofs.Marker.Quiet -- texts that make no marker

A text may hold the lead and still make no marker with it: writing out may put the lead into a text
as the name of an end tag.  What counts is that no lead in it has an index and an equals sign behind
it, and none has the opening of a comment before it (`Marker.Quiet`).

Between quiet texts a scan finds the markers that were put there.  A comment is found, and the scan
goes on behind it (`Marker.count_append_comment`).  An assignment is found if its quote encloses a
name, whatever the name holds, and the scan goes on behind the name
(`Marker.count_append_assignment_some`); otherwise it goes on behind the quote
(`Marker.count_append_assignment_none`).
-/
import Stencil.Proofs.Marker.Plain
import Stencil.Proofs.Markup.SelfClosing

set_option autoImplicit false

namespace Stencil

namespace Marker

variable {lead s : Text}

/-! ## Texts that make no marker -/

/-- The text has no lead with an index and an equals sign behind it, and none with the opening of a
comment before it. -/
structure Quiet (lead s : Text) : Prop where
  unassigned : ∀ digits, IsIndex digits → ¬ lead ++ digits ++ ['='] <:+: s
  uncommented : ¬ ['!', '-', '-'] ++ lead <:+: s

theorem quiet_of_free (free : ¬ lead <:+: s) : Quiet lead s where
  unassigned digits _ inside := free (List.IsInfix.trans ⟨[], digits ++ ['='], by simp⟩ inside)
  uncommented inside := free ((List.suffix_append _ lead).isInfix.trans inside)

theorem Quiet.of_infix {t : Text} (quiet : Quiet lead s) (part : t <:+: s) : Quiet lead t where
  unassigned digits index inside := quiet.unassigned digits index (inside.trans part)
  uncommented inside := quiet.uncommented (inside.trans part)

/-! ## Reading in quiet texts -/

/-- In a quiet text nothing is read. -/
theorem read?_of_quiet (quiet : Quiet lead s) : read? lead s = none := by
  rw [read?_eq_none_iff]
  intro m w word front
  cases word with
  | @comment digits index =>
      refine quiet.uncommented (List.IsInfix.trans ?_ front.isInfix)
      exact ⟨['<'], digits ++ ['-', '-', '>'], by simp⟩
  | @assignment blanks digits name quote blank index named unquoted =>
      refine quiet.unassigned digits index (List.IsInfix.trans ?_ front.isInfix)
      exact ⟨blanks, quote.char :: (name ++ [quote.char]), by simp⟩

/-- In a quiet text in front of a comment nothing is read. -/
theorem read?_quiet_append_comment (plain : Plain lead) (ne : s ≠ []) (quiet : Quiet lead s)
    (tail : Text) : read? lead (s ++ '<' :: tail) = none := by
  have inLead : '<' ∉ lead := plain.not_mem (by simp)
  rw [read?_eq_none_iff]
  intro m w word front
  cases word with
  | @comment digits index =>
      obtain ⟨c, s, rfl⟩ := List.exists_cons_of_ne_nil ne
      have inDigits : '<' ∉ digits := not_mem_of_isIndex index (by decide)
      have free : '<' ∉ ['!', '-', '-'] ++ lead ++ digits ++ ['-', '-', '>'] := by
        simp [inLead, inDigits]
      have behind := (List.cons_prefix_cons.1 front).2
      have inside := Text.prefix_of_not_mem behind free
      refine quiet.uncommented (List.IsInfix.trans ?_ (List.infix_cons inside.isInfix))
      exact ⟨[], digits ++ ['-', '-', '>'], by simp⟩
  | @assignment blanks digits name quote blank index named unquoted =>
      have inDigits : '<' ∉ digits := not_mem_of_isIndex index (by decide)
      have inBlanks : '<' ∉ blanks := fun member => absurd (blank '<' member) (by decide)
      have free : '<' ∉ blanks ++ lead ++ digits ++ ['='] := by
        simp [inBlanks, inLead, inDigits]
      have start : blanks ++ lead ++ digits ++ ['='] <+: s ++ '<' :: tail := by
        refine List.IsPrefix.trans ?_ front
        exact ⟨quote.char :: (name ++ [quote.char]), by simp⟩
      have inside := Text.prefix_of_not_mem start free
      refine quiet.unassigned digits index (List.IsInfix.trans ?_ inside.isInfix)
      exact ⟨blanks, [], by simp⟩

/-- In front of an equals sign with the lead and an index before it, what is read is the name
behind the sign. -/
theorem quotedName?_of_read? (plain : Plain lead) {before digits rest more : Text} {m : Marker}
    (quiet : Quiet lead before) (index : IsIndex digits)
    (part : s <:+ before ++ (lead ++ digits))
    (read : read? lead (s ++ '=' :: rest) = some (m, more)) :
    quotedName? rest = some (m, more) := by
  have inLead {c : Char} : c ∈ ['<', '>', '!', '-', '=', '/', '"', '\''] → c ∉ lead := plain.not_mem
  have inDigits : '=' ∉ digits ∧ '>' ∉ digits :=
    ⟨not_mem_of_isIndex index (by decide), not_mem_of_isIndex index (by decide)⟩
  obtain ⟨w, word, whole⟩ := word_of_read? read
  cases word with
  | @comment digits' index' =>
      have inDigits' : '=' ∉ digits' := not_mem_of_isIndex index' (by decide)
      have free : '=' ∉ ['<', '!', '-', '-'] ++ lead ++ digits' ++ ['-', '-', '>'] := by
        simp [inLead, inDigits']
      -- The comment ends before the sign, and in a bracket, so before the lead.
      have inside := Text.prefix_of_not_mem (c := '=') ⟨more, whole.symm⟩ free
      have early : ['<', '!', '-', '-'] ++ lead ++ digits' ++ ['-', '-'] ++ ['>'] <:+: before := by
        refine Text.infix_left_of_last (v := lead ++ digits) ?_ (by simp [inLead, inDigits])
        refine List.IsInfix.trans ?_ part.isInfix
        simpa using inside.isInfix
      refine absurd (List.IsInfix.trans ?_ early) quiet.uncommented
      exact ⟨['<'], digits' ++ ['-', '-', '>'], by simp⟩
  | @assignment blanks digits' name quote blank index' named unquoted =>
      have inDigits' : '=' ∉ digits' := not_mem_of_isIndex index' (by decide)
      have inBlanks : '=' ∉ blanks := fun member => absurd (blank '=' member) (by decide)
      have free : '=' ∉ blanks ++ lead ++ digits' := by simp [inLead, inBlanks, inDigits']
      have split : blanks ++ lead ++ digits' ++
          '=' :: (quote.char :: name ++ quote.char :: more) = s ++ '=' :: rest := by
        rw [whole]
        simp
      have front := Text.prefix_of_not_mem ⟨_, split⟩ free
      obtain ⟨t, rfl⟩ := front
      rw [List.append_assoc _ t, List.append_cancel_left_eq] at split
      cases t with
      | nil =>
          obtain ⟨-, rfl⟩ := List.cons.inj split
          exact quotedName?_append named unquoted more
      | cons c t =>
          obtain ⟨rfl, -⟩ := List.cons.inj split
          -- A sign before the sign in question stands in the text before the lead.
          have early : lead ++ digits' ++ ['='] <:+: before := by
            refine Text.infix_left_of_last (v := lead ++ digits) ?_ (by simp [inLead, inDigits])
            refine List.IsInfix.trans ?_ part.isInfix
            exact ⟨blanks, t, by simp⟩
          exact absurd early (quiet.unassigned digits' index')

/-- Nothing is read at a character that no marker begins with. -/
theorem read?_cons_of_other (plain : Plain lead) {c : Char} (visible : Text.isBlank c = false)
    (ne : c ≠ '<') (free : c ∉ lead) : read? lead (c :: s) = none := by
  rw [read?_eq_none_iff]
  intro m w word front
  cases word with
  | comment index => exact ne (List.cons_prefix_cons.1 front).1.symm
  | @assignment blanks digits name quote blank index named unquoted =>
      cases blanks with
      | nil =>
          obtain ⟨d, lead, rfl⟩ := List.exists_cons_of_ne_nil plain.ne_nil
          obtain rfl : d = c := (List.cons_prefix_cons.1 front).1
          exact free (List.mem_cons_self ..)
      | cons b blanks =>
          obtain rfl : b = c := (List.cons_prefix_cons.1 front).1
          rw [blank b (List.mem_cons_self ..)] at visible
          exact nomatch visible

/-! ## Counting -/

/-- How many markers a scan finds. -/
def count (lead s : Text) : Nat := (scan lead s).1.length

theorem length_push (c : Char) : ∀ x : List (Text × Marker) × Text,
    (push c x).1.length = x.1.length
  | ([], _) => rfl
  | (_ :: _, _) => rfl

theorem count_of_read?_none {c : Char} (h : read? lead (c :: s) = none) :
    count lead (c :: s) = count lead s := by
  rw [count, scan_of_read?_none h, length_push, count]

theorem count_of_read?_some {rest : Text} {m : Marker} (h : read? lead s = some (m, rest)) :
    count lead s = count lead rest + 1 := by
  rw [count, scan_of_read?_some h, List.length_cons, count]

theorem count_append_of_none {tail : Text} : ∀ s : Text,
    (∀ t, t ≠ [] → t <:+ s → read? lead (t ++ tail) = none) →
      count lead (s ++ tail) = count lead tail
  | [], _ => rfl
  | c :: s, nothing => by
      have here : read? lead (c :: (s ++ tail)) = none :=
        nothing (c :: s) (List.cons_ne_nil c s) (List.suffix_refl _)
      rw [List.cons_append, count_of_read?_none here, count_append_of_none s fun t ne part =>
        nothing t ne (part.trans (List.suffix_cons c s))]

theorem count_of_quiet (quiet : Quiet lead s) : count lead s = 0 := by
  have none : count lead (s ++ []) = count lead [] := count_append_of_none s fun t _ part => by
    rw [List.append_nil]
    exact read?_of_quiet (quiet.of_infix part.isInfix)
  rw [List.append_nil] at none
  rw [none, count, scan_nil, List.length_nil]

/-- A comment is counted. -/
theorem count_append_comment (plain : Plain lead) (quiet : Quiet lead s) (index : Nat)
    (rest : Text) : count lead (s ++ comment lead index ++ rest) = count lead rest + 1 := by
  have read : read? lead (comment lead index ++ rest) = some (.text, rest) :=
    read?_comment (isIndex_numeral index) rest
  rw [List.append_assoc, count_append_of_none s, count_of_read?_some read]
  intro t ne part
  exact read?_quiet_append_comment plain ne (quiet.of_infix part.isInfix) _

/-- A text, the front of an assignment and what follows, parted at the equals sign. -/
theorem append_openAssignment (s rest : Text) (index : Nat) (quote : Quote) :
    s ++ openAssignment lead index quote [] ++ rest =
      s ++ (lead ++ Text.numeral index) ++ '=' :: quote.char :: rest := by
  simp [openAssignment]

/-- An assignment whose quote encloses no name is not counted. -/
theorem count_append_assignment_none (plain : Plain lead) (quiet : Quiet lead s) {index : Nat}
    {quote : Quote} {rest : Text} (unclosed : quotedName? (quote.char :: rest) = none) :
    count lead (s ++ openAssignment lead index quote [] ++ rest) = count lead rest := by
  have sign : read? lead ('=' :: quote.char :: rest) = none :=
    read?_cons_of_other plain (by decide) (by decide) (plain.not_mem (by simp))
  have opening : read? lead (quote.char :: rest) = none := by
    cases quote
    all_goals exact read?_cons_of_other plain (by decide) (by decide) (plain.not_mem (by decide))
  rw [append_openAssignment, count_append_of_none, count_of_read?_none sign,
    count_of_read?_none opening]
  intro t _ part
  cases read : read? lead (t ++ '=' :: quote.char :: rest) with
  | none => rfl
  | some found =>
      have closed := quotedName?_of_read? plain quiet (isIndex_numeral index) part read
      rw [unclosed] at closed
      exact nomatch closed

/-- An assignment whose quote encloses a name is counted, and the count goes on behind the name. -/
theorem count_append_assignment_some (plain : Plain lead) (quiet : Quiet lead s) {index : Nat}
    {quote : Quote} {rest more : Text} {m : Marker}
    (closed : quotedName? (quote.char :: rest) = some (m, more)) :
    count lead (s ++ openAssignment lead index quote [] ++ rest) = count lead more + 1 := by
  obtain ⟨name, quote', named, unquoted, -, same⟩ := eq_append_of_quotedName? closed
  have whole : lead ++ Text.numeral index ++ '=' :: quote.char :: rest =
      [] ++ lead ++ Text.numeral index ++ '=' :: quote'.char :: name ++ [quote'.char] ++ more := by
    rw [same]
    simp
  -- Where something is read, in the text or at the lead, it is this assignment.
  have only (t : Text) (part : t <:+ s) (found : Marker × Text)
      (read : read? lead (t ++ (lead ++ Text.numeral index ++ '=' :: quote.char :: rest)) =
        some found) : found = (m, more) := by
    rw [← List.append_assoc] at read
    have part' : t ++ (lead ++ Text.numeral index) <:+ s ++ (lead ++ Text.numeral index) := by
      obtain ⟨front, rfl⟩ := part
      exact ⟨front, by simp⟩
    have closed' := quotedName?_of_read? plain quiet (isIndex_numeral index) part' read
    exact Option.some.inj (closed'.symm.trans closed)
  have counted : ∀ t : Text, t <:+ s →
      count lead (t ++ (lead ++ Text.numeral index ++ '=' :: quote.char :: rest)) =
        count lead more + 1 := by
    intro t part
    induction t with
    | nil =>
        have word : Word lead (.attribute name quote') ([] ++ lead ++ Text.numeral index ++
            '=' :: quote'.char :: name ++ [quote'.char]) :=
          .assignment (by simp) (isIndex_numeral index) named unquoted
        obtain ⟨found, read⟩ := Option.isSome_iff_exists.1 (word.isSome_read? more)
        rw [← whole] at read
        obtain rfl := only [] part found read
        exact count_of_read?_some read
    | cons c t ih =>
        cases read : read? lead
            (c :: (t ++ (lead ++ Text.numeral index ++ '=' :: quote.char :: rest))) with
        | none =>
            rw [List.cons_append, count_of_read?_none read]
            exact ih ((List.suffix_cons c t).trans part)
        | some found =>
            obtain rfl := only (c :: t) part found read
            exact count_of_read?_some read
  rw [append_openAssignment, List.append_assoc]
  exact counted s (List.suffix_refl s)

/-! ## Writing out -/

/-- No end tag makes a marker. -/
theorem quiet_of_rewrites {named : Text → Prop} (plain : Plain lead)
    (tagged : ∀ name, named name → ∀ c ∈ name, Text.isTagNameChar c = true) {t : Text}
    (h : SelfClosing.Rewrites named s t) (quiet : Quiet lead s) : Quiet lead t where
  unassigned digits index inside := by
    have neutral : SelfClosing.Neutral (lead ++ digits ++ ['=']) := by
      have free {c : Char} (special : c ∈ ['<', '>', '/']) : c ∉ digits := by
        refine not_mem_of_isIndex index ?_
        simp only [List.mem_cons, List.not_mem_nil, or_false] at special
        rcases special with rfl | rfl | rfl <;> rfl
      have inLead {c : Char} (special : c ∈ ['<', '>', '!', '-', '=', '/', '"', '\'']) :
          c ∉ lead := plain.not_mem special
      simp [SelfClosing.Neutral, inLead, free]
    rcases h.infix_before neutral inside with before | ⟨name, good, inName⟩
    · exact quiet.unassigned digits index before
    · exact absurd (tagged name good '=' (inName.subset (by simp))) (by decide)
  uncommented inside := by
    have neutral : SelfClosing.Neutral (['!', '-', '-'] ++ lead) := by
      have inLead {c : Char} (special : c ∈ ['<', '>', '!', '-', '=', '/', '"', '\'']) :
          c ∉ lead := plain.not_mem special
      simp [SelfClosing.Neutral, inLead]
    rcases h.infix_before neutral inside with before | ⟨name, good, inName⟩
    · exact quiet.uncommented before
    · exact absurd (tagged name good '!' (inName.subset (by simp))) (by decide)

end Marker

end Stencil
