/-
# Stencil.Proofs.Text.Suffix -- what a suffix has that its key has not

The suffix of a key is the key in lower case, cut into pieces with a hyphen between any two
(`exists_pieces`).  Where two pieces meet, an ASCII letter or digit stands on either side, so a
hyphen that is put in is never the first or the last character and never stands beside another
hyphen.  A suffix has no capital, hence it is its own suffix (`hyphenate_of_lower`).

The hyphens that a key has itself stay where they are, doubled or not.
-/
import Stencil.Proofs.Text.Hyphen

set_option autoImplicit false

namespace Stencil.Text

/-- A hyphen may be put between two texts: the first ends and the second starts with an ASCII
letter or digit. -/
def Meet (u v : Text) : Prop :=
  (∃ c ∈ u.getLast?, c.isAlphanum = true) ∧ ∃ c ∈ v.head?, c.isAlphanum = true

/-! ## Where a word starts -/

theorem isAlphanum_toLower {c : Char} (alphanum : c.isAlphanum = true) :
    c.toLower.isAlphanum = true := by
  rw [Char.isAlphanum, Bool.or_eq_true] at alphanum
  rcases alphanum with letter | digit
  · rw [Char.isAlphanum, Char.isAlpha_toLower_eq_isAlpha, letter, Bool.true_or]
  · have same : c.toLower = c := (toLower_eq_iff (isAlpha_of_isDigit digit) c).2 rfl
    rw [same, Char.isAlphanum, digit, Bool.or_true]

theorem isAlphanum_of_isUpper {c : Char} (upper : c.isUpper = true) : c.isAlphanum = true := by
  simp [Char.isAlphanum, Char.isAlpha, upper]

theorem ne_hyphen_of_isAlphanum {c : Char} (alphanum : c.isAlphanum = true) : c ≠ '-' := by
  rintro rfl
  exact absurd alphanum (by decide)

theorem toLower_eq_hyphen_iff (c : Char) : c.toLower = '-' ↔ c = '-' :=
  toLower_eq_iff (by decide) c

/-- A word starts at a capital that follows an ASCII letter or digit. -/
theorem isAlphanum_of_startsWord {previous c : Char} {next : Option Char}
    (starts : startsWord previous c next = true) :
    previous.isAlphanum = true ∧ c.isAlphanum = true := by
  simp only [startsWord, Bool.and_eq_true, Bool.or_eq_true] at starts
  obtain ⟨upper, around⟩ := starts
  refine ⟨?_, isAlphanum_of_isUpper upper⟩
  rcases around with (lower | digit) | ⟨capital, -⟩
  · simp [Char.isAlphanum, Char.isAlpha, lower]
  · simp [Char.isAlphanum, digit]
  · exact isAlphanum_of_isUpper capital

theorem startsWord_of_lower {previous c : Char} {next : Option Char} (lower : c.isUpper = false) :
    startsWord previous c next = false := by
  rw [startsWord, lower, Bool.false_and]

/-! ## Pieces -/

/-- The pieces of the rest of a key, the first of which goes on after the character before. -/
theorem exists_piecesAfter : ∀ (previous : Char) (key : Text), ∃ (first : Text) (more : List Text),
    (first :: more).flatten = key.map Char.toLower ∧
      hyphenateAfter previous key = List.intercalate ['-'] (first :: more) ∧
        List.IsChain Meet ((previous.toLower :: first) :: more)
  | _, [] => ⟨[], [], rfl, rfl, .singleton _⟩
  | previous, c :: key => by
      obtain ⟨first, more, whole, joined, chain⟩ := exists_piecesAfter c key
      by_cases starts : startsWord previous c key.head? = true
      · obtain ⟨before, behind⟩ := isAlphanum_of_startsWord starts
        have meet : Meet [previous.toLower] (c.toLower :: first) :=
          ⟨⟨_, rfl, isAlphanum_toLower before⟩, ⟨_, rfl, isAlphanum_toLower behind⟩⟩
        refine ⟨[], (c.toLower :: first) :: more, ?_, ?_, .cons_cons meet chain⟩
        · simpa using whole
        · rw [hyphenateAfter, if_pos starts, joined]
          cases more <;> simp [List.intercalate_cons_cons]
      · refine ⟨c.toLower :: first, more, ?_, ?_, ?_⟩
        · simpa using whole
        · rw [hyphenateAfter, if_neg starts, joined]
          cases more <;> simp [List.intercalate_cons_cons]
        · cases chain with
          | singleton => exact .singleton _
          | cons_cons meet rest =>
              exact .cons_cons ⟨by simpa [List.getLast?_cons_cons] using meet.1, meet.2⟩ rest

/-- A suffix is the lowered key in pieces, with a hyphen where two of them meet. -/
theorem exists_pieces (key : Text) : ∃ pieces : List Text,
    pieces.flatten = key.map Char.toLower ∧ hyphenate key = List.intercalate ['-'] pieces ∧
      List.IsChain Meet pieces := by
  cases key with
  | nil => exact ⟨[], rfl, rfl, .nil⟩
  | cons c key =>
      obtain ⟨first, more, whole, joined, chain⟩ := exists_piecesAfter c key
      refine ⟨(c.toLower :: first) :: more, by simpa using whole, ?_, chain⟩
      rw [hyphenate, joined]
      cases more <;> simp [List.intercalate_cons_cons]

/-! ## Capitals -/

theorem isUpper_of_mem_hyphenateAfter {c : Char} : ∀ {previous : Char} {key : Text},
    c ∈ hyphenateAfter previous key → c.isUpper = false
  | _, [], member => nomatch member
  | _, d :: key, member => by
      have lowered (member : c ∈ d.toLower :: hyphenateAfter d key) : c.isUpper = false := by
        rcases List.mem_cons.1 member with rfl | rest
        · exact Char.isUpper_toLower_eq_false d
        · exact isUpper_of_mem_hyphenateAfter rest
      rw [hyphenateAfter] at member
      split at member
      · rcases List.mem_cons.1 member with rfl | rest
        · decide
        · exact lowered rest
      · exact lowered member

/-- There is no capital in a suffix. -/
theorem isUpper_of_mem_hyphenate {c : Char} {key : Text} (member : c ∈ hyphenate key) :
    c.isUpper = false := by
  cases key with
  | nil => exact nomatch member
  | cons d key =>
      rcases List.mem_cons.1 member with rfl | rest
      · exact Char.isUpper_toLower_eq_false d
      · exact isUpper_of_mem_hyphenateAfter rest

theorem hyphenateAfter_of_lower : ∀ {key : Text} (previous : Char),
    (∀ c ∈ key, c.isUpper = false) → hyphenateAfter previous key = key
  | [], _, _ => rfl
  | c :: key, previous, lower => by
      obtain ⟨first, rest⟩ := List.forall_mem_cons.1 lower
      rw [hyphenateAfter, startsWord_of_lower first, if_neg Bool.false_ne_true,
        Char.toLower_eq_of_not_isUpper (by simp [first]), hyphenateAfter_of_lower c rest]

/-- A key without capitals is its own suffix. -/
theorem hyphenate_of_lower {key : Text} (lower : ∀ c ∈ key, c.isUpper = false) :
    hyphenate key = key := by
  cases key with
  | nil => rfl
  | cons c key =>
      obtain ⟨first, rest⟩ := List.forall_mem_cons.1 lower
      rw [hyphenate, Char.toLower_eq_of_not_isUpper (by simp [first]),
        hyphenateAfter_of_lower c rest]

/-! ## Hyphens -/

/-- Without its hyphens a join is what is joined without its hyphens. -/
theorem filter_intercalate (pieces : List Text) :
    (List.intercalate ['-'] pieces).filter (· != '-') = pieces.flatten.filter (· != '-') := by
  induction pieces with
  | nil => rfl
  | cons first more ih =>
      cases more with
      | nil => simp
      | cons second more =>
          rw [List.intercalate_cons_cons, List.filter_append, List.filter_append, ih,
            List.flatten_cons, List.filter_append]
          simp

/-- The last character of a rest is lowered and nothing follows it. -/
theorem getLast?_hyphenateAfter : ∀ (previous : Char) (key : Text),
    (hyphenateAfter previous key).getLast? = (key.map Char.toLower).getLast?
  | _, [] => rfl
  | previous, c :: key => by
      have rest := getLast?_hyphenateAfter c key
      rw [hyphenateAfter]
      split
      · rw [List.getLast?_cons_cons, List.map_cons, List.getLast?_cons, List.getLast?_cons, rest]
      · rw [List.map_cons, List.getLast?_cons, List.getLast?_cons, rest]

/-- Two hyphens in a row are in what is made of a rest exactly if they are in the rest. -/
theorem doubled_hyphenateAfter_iff : ∀ (previous : Char) (key : Text),
    ['-', '-'] <:+: previous.toLower :: hyphenateAfter previous key ↔
      ['-', '-'] <:+: previous :: key
  | _, [] => by simp [hyphenateAfter, List.infix_cons_iff]
  | previous, c :: key => by
      have rest := doubled_hyphenateAfter_iff c key
      rw [hyphenateAfter]
      split
      · next starts =>
          obtain ⟨before, behind⟩ := isAlphanum_of_startsWord starts
          have lowered := ne_hyphen_of_isAlphanum (isAlphanum_toLower before)
          have lowered' := ne_hyphen_of_isAlphanum (isAlphanum_toLower behind)
          rw [List.infix_cons_iff, List.infix_cons_iff, rest, List.infix_cons_iff (a := previous)]
          simp [lowered.symm, lowered'.symm, (ne_hyphen_of_isAlphanum before).symm]
      · rw [List.infix_cons_iff, rest, List.infix_cons_iff (a := previous)]
        simp [eq_comm (a := '-'), toLower_eq_hyphen_iff]

theorem doubled_hyphenate_iff (key : Text) :
    ['-', '-'] <:+: hyphenate key ↔ ['-', '-'] <:+: key := by
  cases key with
  | nil => exact Iff.rfl
  | cons c key => exact doubled_hyphenateAfter_iff c key

theorem head?_hyphenate (key : Text) :
    (hyphenate key).head? = (key.map Char.toLower).head? := by
  cases key <;> rfl

theorem getLast?_hyphenate (key : Text) :
    (hyphenate key).getLast? = (key.map Char.toLower).getLast? := by
  cases key with
  | nil => rfl
  | cons c key =>
      rw [hyphenate, List.map_cons, List.getLast?_cons, List.getLast?_cons,
        getLast?_hyphenateAfter]

/-- A suffix has no capital, is its own suffix, and is the lowered key but for hyphens, each of
which stands between two ASCII letters or digits.  None is put first or last or next to another. -/
theorem hyphenate_lowers (key : Text) :
    (∀ c ∈ hyphenate key, c.isUpper = false) ∧
      hyphenate (hyphenate key) = hyphenate key ∧
      (hyphenate key).filter (· != '-') = (key.map Char.toLower).filter (· != '-') ∧
      (∃ pieces : List Text, pieces.flatten = key.map Char.toLower ∧
        hyphenate key = List.intercalate ['-'] pieces ∧ List.IsChain Meet pieces) ∧
      (hyphenate key).head? = (key.map Char.toLower).head? ∧
      (hyphenate key).getLast? = (key.map Char.toLower).getLast? ∧
      (['-', '-'] <:+: hyphenate key ↔ ['-', '-'] <:+: key) := by
  obtain ⟨pieces, whole, joined, chain⟩ := exists_pieces key
  have lower : ∀ c ∈ hyphenate key, c.isUpper = false := fun _ => isUpper_of_mem_hyphenate
  have stripped : (hyphenate key).filter (· != '-') = (key.map Char.toLower).filter (· != '-') := by
    rw [joined, filter_intercalate, whole]
  exact ⟨lower, hyphenate_of_lower lower, stripped, ⟨pieces, whole, joined, chain⟩,
    head?_hyphenate key, getLast?_hyphenate key, doubled_hyphenate_iff key⟩

end Stencil.Text
