/-
# Stencil.Proofs.Markup.OpenTag -- slots inside tags, whatever the fragments

Whether a slot stands inside a tag is a question about the text before it: behind its last closing
bracket there must be an opening bracket with a letter (`OpenTag.EndsInTag`).  `OpenTag.isInside`
asks one fragment after the other instead, and so its answer depends on how the text is cut.

`OpenTag.isInside_or_splitsTag` and its converse `OpenTag.endsInTag_or_hidesBracket` say by how
much.  A slot inside a tag is missed only if a fragment ends where the tag's name begins
(`SplitsTag`).  A slot outside is taken for one inside only if the last closing bracket has an
opening bracket behind it that begins no tag (`HidesBracket`), so that its fragment does not settle
the question.  `OpenTag.isInside_of_fragments` puts the two together, and both ways to err exist
(`OpenTag.isInside_ne_endsInTag`).  Elsewhere a slot is the value of an attribute wherever the text
before it ends in a tag and its fragment in an assignment (`OpenTag.assignment?_of_fragments`).
-/
import Stencil.Marking

set_option autoImplicit false

namespace Stencil.OpenTag

variable {s t fragment : Text} {fragments near far : List Text}

/-! ## The text before a slot -/

/-- Behind the last closing bracket of the text, a tag begins. -/
def EndsInTag (s : Text) : Prop :=
  ∃ before c after, s = before ++ '<' :: c :: after ∧ Text.isLetter c = true ∧ '>' ∉ after

/-- The tag in which the text ends has at most one character of its name in the fragment where it
begins. -/
def SplitsTag (fragments : List Text) : Prop :=
  ∃ front before start back, fragments = front ++ (before ++ '<' :: start) :: back ∧
    start.length ≤ 1 ∧ (start ++ back.flatten).head?.any Text.isLetter = true ∧
    '>' ∉ start ++ back.flatten

/-- The last closing bracket of the text has an opening one behind it in the same fragment. -/
def HidesBracket (fragments : List Text) : Prop :=
  ∃ front before after back, fragments = front ++ (before ++ '>' :: after) :: back ∧
    '<' ∈ after ∧ '>' ∉ after ++ back.flatten

theorem EndsInTag.append_left (ends : EndsInTag t) : EndsInTag (s ++ t) := by
  obtain ⟨before, c, after, rfl, letter, free⟩ := ends
  exact ⟨s ++ before, c, after, (List.append_assoc ..).symm, letter, free⟩

theorem EndsInTag.append_right (ends : EndsInTag s) (free : '>' ∉ t) : EndsInTag (s ++ t) := by
  obtain ⟨before, c, after, rfl, letter, free'⟩ := ends
  refine ⟨before, c, after ++ t, by simp, letter, fun member => ?_⟩
  exact (List.mem_append.1 member).elim free' free

/-! ## What one fragment says -/

theorem lastPart_eq (s : Text) : lastPart s = (s.reverse.takeWhile (· != '>')).reverse := rfl

theorem lastPart_append (free : '>' ∉ t) : lastPart (s ++ t) = lastPart s ++ t := by
  have run : ∀ c ∈ t.reverse, (c != '>') = true :=
    Text.all_ne_iff.2 fun member => free (List.mem_reverse.1 member)
  rw [lastPart_eq, lastPart_eq, List.reverse_append, List.takeWhile_append_of_pos run,
    List.reverse_append, List.reverse_reverse]

theorem lastPart_append_bracket (free : '>' ∉ t) : lastPart (s ++ '>' :: t) = t := by
  have bracket : lastPart (s ++ ['>']) = [] := by simp [lastPart_eq]
  rw [← List.singleton_append, ← List.append_assoc, lastPart_append free, bracket, List.nil_append]

/-- The last part ends the text, and no bracket closes in it. -/
theorem exists_append_lastPart (s : Text) : ∃ x, s = x ++ lastPart s ∧ '>' ∉ lastPart s := by
  refine ⟨_, (Text.splitLastRun_append (· != '>') s).symm, fun member => ?_⟩
  exact absurd ((Text.splitLastRun_spec (· != '>') s).1 '>' member) (by simp)

theorem opensTag_iff : ∀ {s : Text}, opensTag s = true ↔
    ∃ before c d after, s = before ++ '<' :: c :: d :: after ∧ Text.isLetter c = true
  | [] => by simp [opensTag]
  | e :: s => by
      rw [opensTag, Bool.or_eq_true, opensTag_iff, Bool.and_eq_true, beq_iff_eq]
      constructor
      · rintro (⟨rfl, starts⟩ | ⟨before, c, d, after, rfl, letter⟩)
        · obtain ⟨c, d, after, rfl⟩ : ∃ c d after, s = c :: d :: after := by
            match s, starts with
            | c :: d :: after, _ => exact ⟨c, d, after, rfl⟩
          exact ⟨[], c, d, after, rfl, starts⟩
        · exact ⟨e :: before, c, d, after, rfl, letter⟩
      · rintro ⟨_ | ⟨b, before⟩, c, d, after, whole, letter⟩
        · obtain ⟨rfl, rfl⟩ := List.cons.inj whole
          exact .inl ⟨rfl, letter⟩
        · obtain ⟨-, rfl⟩ := List.cons.inj whole
          exact .inr ⟨before, c, d, after, rfl, letter⟩

/-- A fragment that opens a tag ends in it. -/
theorem endsInTag_of_opensTag (opens : opensTag (lastPart s) = true) : EndsInTag s := by
  obtain ⟨x, whole, free⟩ := exists_append_lastPart s
  obtain ⟨before, c, d, after, part, letter⟩ := opensTag_iff.1 opens
  rw [whole]
  refine EndsInTag.append_left ⟨before, c, d :: after, part, letter, fun member => free ?_⟩
  rw [part]
  simp [List.mem_cons.1 member]

theorem bracket_ne_of_isLetter {c : Char} (letter : Text.isLetter c = true) : '>' ≠ c := by
  rintro rfl
  exact absurd letter (by decide)

/-- A tag opens if there is anything behind the letter. -/
theorem opensTag_lastPart {before after : Text} {c d : Char} (letter : Text.isLetter c = true)
    (free : '>' ∉ d :: after) :
    opensTag (lastPart (before ++ '<' :: c :: d :: after)) = true := by
  have open' : '>' ∉ '<' :: c :: d :: after := by
    simpa [bracket_ne_of_isLetter letter] using free
  rw [lastPart_append open']
  exact opensTag_iff.2 ⟨lastPart before, c, d, after, rfl, letter⟩

/-- One more character makes up for the one that a tag needs behind its letter. -/
theorem endsInTag_iff_opensTag : EndsInTag s ↔ opensTag (lastPart (s ++ [' '])) = true := by
  constructor
  · rintro ⟨before, c, after, rfl, letter, free⟩
    have ne := List.append_ne_nil_of_right_ne_nil after (List.cons_ne_nil ' ' [])
    obtain ⟨d, rest, more⟩ := List.exists_cons_of_ne_nil ne
    have free' : '>' ∉ d :: rest := by
      rw [← more]
      simpa using free
    have regroup : before ++ '<' :: c :: after ++ [' '] = before ++ '<' :: c :: d :: rest := by
      rw [← more]
      simp
    rw [regroup]
    exact opensTag_lastPart letter free'
  · intro opens
    obtain ⟨before, c, after, whole, letter, free⟩ := endsInTag_of_opensTag opens
    rcases List.eq_nil_or_concat after with rfl | ⟨after, d, rfl⟩
    · have last : c = ' ' := by simpa using (congrArg List.getLast? whole).symm
      rw [last] at letter
      exact absurd letter (by decide)
    · have parts : s ++ [' '] = (before ++ '<' :: c :: after) ++ [d] := by simpa using whole
      refine ⟨before, c, after, (List.append_inj' parts rfl).1, letter, fun member => free ?_⟩
      simp [member]

instance : DecidablePred EndsInTag := fun _ => decidable_of_iff _ endsInTag_iff_opensTag.symm

theorem verdict_eq_some_true_iff : verdict fragment = some true ↔
    opensTag (lastPart fragment) = true := by
  simp only [verdict]
  split <;> simp_all

/-- A fragment without a closing bracket does not say that the last tag is closed. -/
theorem verdict_ne_false_of_free (free : '>' ∉ fragment) : verdict fragment ≠ some false := by
  simp [verdict, free]

/-- A fragment with a closing bracket and no opening one behind it settles the question. -/
theorem mem_of_verdict_eq_none {before after : Text} (free : '>' ∉ after)
    (passes : verdict (before ++ '>' :: after) = none) : '<' ∈ after := by
  simp only [verdict, lastPart_append_bracket free] at passes
  split at passes
  · exact nomatch passes
  · simpa using passes

/-! ## From fragment to fragment -/

theorem isInside_cons (fragment : Text) (far : List Text) :
    isInside (fragment :: far) = (verdict fragment).getD (isInside far) := by
  rw [isInside, List.findSome?_cons]
  cases verdict fragment <;> rfl

/-- Fragments without closing brackets do not close the tag that is open before them. -/
theorem isInside_append : ∀ {near : List Text}, '>' ∉ near.flatten → isInside far = true →
    isInside (near ++ far) = true
  | [], _, inside => inside
  | fragment :: near, free, inside => by
      rw [List.flatten_cons, List.mem_append, not_or] at free
      have behind : isInside (near ++ far) = true := isInside_append free.2 inside
      rw [List.cons_append, isInside_cons, behind]
      match found : verdict fragment with
      | none | some true => rfl
      | some false => exact absurd found (verdict_ne_false_of_free free.1)

/-- A fragment that opens a tag settles the question for all fragments behind it without closing
brackets. -/
theorem isInside_of_opens {front back : List Text} (opens : opensTag (lastPart fragment) = true)
    (free : '>' ∉ back.flatten) : isInside (front ++ fragment :: back).reverse = true := by
  have found : isInside (fragment :: front.reverse) = true := by
    rw [isInside_cons, verdict_eq_some_true_iff.2 opens]
    rfl
  have later : '>' ∉ back.reverse.flatten := by
    simpa only [List.mem_flatten, List.mem_reverse] using free
  rw [List.reverse_append, List.reverse_cons, List.append_assoc]
  exact isInside_append later found

/-- A character of the joined text is in one of the fragments. -/
theorem exists_fragment {before after : Text} {c : Char}
    (whole : fragments.flatten = before ++ c :: after) :
    ∃ front start rest back, fragments = front ++ (start ++ c :: rest) :: back ∧
      after = rest ++ back.flatten := by
  rcases List.flatten_eq_append_iff.1 whole with
    ⟨front, back, rfl, -, behind⟩ | ⟨front, start, d, rest, back, rfl, -, behind⟩
  · obtain ⟨empty, rest, back, rfl, -, rfl⟩ := List.flatten_eq_cons_iff.1 behind.symm
    exact ⟨front ++ empty, [], rest, back, by simp, rfl⟩
  · obtain ⟨rfl, rfl⟩ := List.cons.inj behind
    exact ⟨front, start, rest, back, rfl, rfl⟩

theorem exists_last_bracket (closed : '>' ∈ s) : ∃ before after, s = before ++ '>' :: after ∧
    '>' ∉ after := by
  obtain ⟨after, before, reversed, free⟩ :=
    List.eq_append_cons_of_mem (List.mem_reverse.2 closed)
  refine ⟨before.reverse, after.reverse, ?_, fun member => free (List.mem_reverse.1 member)⟩
  simpa using congrArg List.reverse reversed

/-- A tag whose name goes on in the fragment where it begins is found. -/
theorem isInside_or_splitsTag (ends : EndsInTag fragments.flatten) :
    isInside fragments.reverse = true ∨ SplitsTag fragments := by
  obtain ⟨before, c, after, whole, letter, free⟩ := ends
  obtain ⟨front, start, rest, back, rfl, name⟩ := exists_fragment whole
  have free' : '>' ∉ rest ++ back.flatten := by
    rw [← name]
    simpa [bracket_ne_of_isLetter letter] using free
  by_cases short : rest.length ≤ 1
  · refine .inr ⟨front, start, rest, back, rfl, short, ?_, free'⟩
    rw [← name]
    exact letter
  · obtain ⟨c', d, rest, rfl⟩ : ∃ c' d more, rest = c' :: d :: more := by
      match rest, short with
      | c' :: d :: more, _ => exact ⟨c', d, more, rfl⟩
      | [], short => simp at short
      | [_], short => simp at short
    obtain ⟨rfl, -⟩ := List.cons.inj name
    rw [List.cons_append, List.mem_cons, List.mem_append, not_or, not_or] at free'
    exact .inl (isInside_of_opens (opensTag_lastPart letter free'.2.1) free'.2.2)

/-- A tag that is found is open, unless a closing bracket behind it is hidden. -/
theorem endsInTag_or_hidesBracket (inside : isInside fragments.reverse = true) :
    EndsInTag fragments.flatten ∨ HidesBracket fragments := by
  have found : fragments.reverse.findSome? verdict = some true := by
    cases result : fragments.reverse.findSome? verdict with
    | none => simp [isInside, result] at inside
    | some answer => simpa [isInside, result] using inside
  obtain ⟨near, fragment, far, split, opens, passed⟩ := List.findSome?_eq_some_iff.1 found
  obtain rfl : fragments = far.reverse ++ fragment :: near.reverse := by
    rw [← List.reverse_reverse fragments, split]
    simp
  have ends : EndsInTag (far.reverse.flatten ++ fragment) :=
    (endsInTag_of_opensTag (verdict_eq_some_true_iff.1 opens)).append_left
  rw [List.flatten_append, List.flatten_cons, ← List.append_assoc]
  by_cases closed : '>' ∈ near.reverse.flatten
  · -- The last of the closing brackets is in a fragment that passes the question on.
    obtain ⟨_, after, whole, free⟩ := exists_last_bracket closed
    obtain ⟨front, before, rest, back, behind, rfl⟩ := exists_fragment whole
    have member : before ++ '>' :: rest ∈ near := List.mem_reverse.1 (behind ▸ by simp)
    have stray : '<' ∈ rest :=
      mem_of_verdict_eq_none (fun bracket => free (List.mem_append_left _ bracket))
        (passed _ member)
    exact .inr ⟨far.reverse ++ fragment :: front, before, rest, back, by simp [behind], stray, free⟩
  · exact .inl (ends.append_right closed)

/-- Where the fragments before a slot are cut decides whether it is seen to stand inside a tag in
these cases only: the tag's name is split, or a closing bracket is hidden. -/
theorem isInside_of_fragments (fragments : List Text) (i : Nat) :
    (EndsInTag (fragments.take i).flatten →
      isInside (fragments.take i).reverse = true ∨ SplitsTag (fragments.take i)) ∧
    (isInside (fragments.take i).reverse = true →
      EndsInTag (fragments.take i).flatten ∨ HidesBracket (fragments.take i)) := by
  constructor
  · intro ends
    exact isInside_or_splitsTag ends
  · intro inside
    exact endsInTag_or_hidesBracket inside

/-- A lone bracket behind a closed tag hides that it is closed, and a tag is missed that is cut
behind its first letter. -/
theorem isInside_ne_endsInTag :
    ¬ (isInside (["<a ".toList, "> 1 < 2 y=".toList, "</a>".toList].take 2).reverse = true ↔
      EndsInTag (["<a ".toList, "> 1 < 2 y=".toList, "</a>".toList].take 2).flatten) ∧
    ¬ (isInside (["<a".toList, " b=".toList, ">".toList].take 2).reverse = true ↔
      EndsInTag (["<a".toList, " b=".toList, ">".toList].take 2).flatten) := by decide

/-! ## Slots as values of attributes -/

/-- Elsewhere a slot is seen to stand inside a tag exactly if it does. -/
theorem isInside_iff_endsInTag (whole : ¬ SplitsTag fragments) (shown : ¬ HidesBracket fragments) :
    isInside fragments.reverse = true ↔ EndsInTag fragments.flatten := by
  constructor
  · intro inside
    exact (endsInTag_or_hidesBracket inside).resolve_right shown
  · intro ends
    exact (isInside_or_splitsTag ends).resolve_right whole

/-- The slot after a fragment is the value of an attribute exactly if the fragment ends in an
assignment and the text before the slot in a tag, whatever other fragments the text comes in. -/
theorem assignment?_of_fragments {before : List Text}
    (whole : ¬ SplitsTag (before.reverse ++ [fragment]))
    (shown : ¬ HidesBracket (before.reverse ++ [fragment])) :
    Marking.assignment? before fragment =
      if EndsInTag (before.reverse ++ [fragment]).flatten then Assignment.ofFragment? fragment
      else none := by
  have inside := isInside_iff_endsInTag whole shown
  have nearest : (before.reverse ++ [fragment]).reverse = fragment :: before := by simp
  rw [nearest] at inside
  rw [Marking.assignment?]
  cases Assignment.ofFragment? fragment with
  | none => exact (ite_self none).symm
  | some a => simp only [inside]

end Stencil.OpenTag
