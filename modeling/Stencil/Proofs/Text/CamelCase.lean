/-
# Stencil.Proofs.Text.CamelCase -- words in camel case and back

`camelCase` writes words without a separator, every word but the first with a capital in front.
The suffix of such a key is the words with a hyphen between any two (`hyphenate_camelCase`), so the
words can be read off the attribute.

A capital starts a word after a small letter or a digit.  In front of the capital of a word is the
last character of the word before, which is such a character unless that word is one letter long
and has a capital itself; so only words inside, not the first and not the last, need a second
character.
-/
import Stencil.Proofs.Text.Suffix

set_option autoImplicit false

namespace Stencil.Text

/-! ## Words -/

/-- Whether the character goes on with a word: a small letter or a digit. -/
def isWordChar (c : Char) : Bool := c.isLower || c.isDigit

/-- A word: a small letter and then small letters or digits. -/
def IsWord : Text → Prop
  | [] => False
  | c :: rest => c.isLower = true ∧ rest.all isWordChar = true

instance : DecidablePred IsWord
  | [] => inferInstanceAs (Decidable False)
  | c :: rest => inferInstanceAs (Decidable (c.isLower = true ∧ rest.all isWordChar = true))

/-- The word with a capital in front. -/
def capitalize : Text → Text
  | [] => []
  | c :: rest => c.toUpper :: rest

/-- The words one after the other, each but the first with a capital in front. -/
def camelCase : List Text → Text
  | [] => []
  | first :: more => first ++ more.flatMap capitalize

theorem isUpper_of_isWordChar {c : Char} (h : isWordChar c = true) : c.isUpper = false := by
  rw [isWordChar, Bool.or_eq_true] at h
  rcases h with lower | digit
  · simpa using Char.not_isUpper_of_isLower lower
  · exact (Bool.or_eq_false_iff.1 (isAlpha_of_isDigit digit)).1

/-- Every character of a word goes on with a word. -/
theorem IsWord.isWordChar {w : Text} (word : IsWord w) : ∀ c ∈ w, isWordChar c = true := by
  cases w with
  | nil => exact word.elim
  | cons c rest =>
      refine List.forall_mem_cons.2 ⟨?_, List.all_eq_true.1 word.2⟩
      rw [Text.isWordChar, word.1, Bool.true_or]

theorem IsWord.hyphen_not_mem {w : Text} (word : IsWord w) : '-' ∉ w := fun member =>
  absurd (word.isWordChar '-' member) (by decide)

/-! ## Suffixes of words -/

/-- Inside a word nothing changes. -/
theorem hyphenateAfter_append_of_isWordChar : ∀ {run : Text} (previous : Char) (rest : Text),
    (∀ c ∈ run, isWordChar c = true) →
      hyphenateAfter previous (run ++ rest) =
        run ++ hyphenateAfter (run.getLast?.getD previous) rest
  | [], _, _, _ => rfl
  | c :: run, previous, rest, all => by
      obtain ⟨first, others⟩ := List.forall_mem_cons.1 all
      have lower := isUpper_of_isWordChar first
      have last : (c :: run).getLast?.getD previous = run.getLast?.getD c := by
        rw [List.getLast?_cons, Option.getD_some]
      rw [List.cons_append, hyphenateAfter, startsWord_of_lower lower,
        if_neg Bool.false_ne_true, Char.toLower_eq_of_not_isUpper (by simp [lower]),
        hyphenateAfter_append_of_isWordChar c rest others, last, List.cons_append]

/-- The capital of a word gets a hyphen after a character that goes on with a word. -/
theorem startsWord_toUpper {previous c : Char} (before : isWordChar previous = true)
    (lower : c.isLower = true) (next : Option Char) :
    startsWord previous c.toUpper next = true := by
  have alpha : c.isAlpha = true := by simp [Char.isAlpha, lower]
  rw [isWordChar] at before
  rw [startsWord, Char.isUpper_toUpper_eq_isAlpha, alpha, before, Bool.true_or, Bool.true_and]

/-- Capitalized words after a character that goes on with a word: each has a hyphen in front. -/
theorem hyphenateAfter_capitalized : ∀ {words : List Text} {previous : Char},
    isWordChar previous = true → (∀ w ∈ words, IsWord w) →
      (∀ w ∈ words.dropLast, 2 ≤ w.length) →
        hyphenateAfter previous (words.flatMap capitalize) = words.flatMap ('-' :: ·)
  | [], _, _, _, _ => rfl
  | [] :: _, _, _, all, _ => (all [] List.mem_cons_self).elim
  | (c :: run) :: more, previous, before, all, long => by
      obtain ⟨⟨lower, run_all⟩, others⟩ := List.forall_mem_cons.1 all
      have rest := List.all_eq_true.1 run_all
      have lowered : c.toUpper.toLower = c := by
        rw [Char.toLower_toUpper_eq_toLower]
        exact Char.toLower_eq_of_not_isUpper (Char.not_isUpper_of_isLower lower)
      have start := startsWord_toUpper before lower (run ++ more.flatMap capitalize).head?
      rw [List.flatMap_cons, capitalize, List.cons_append, hyphenateAfter, if_pos start, lowered,
        hyphenateAfter_append_of_isWordChar _ _ rest, List.flatMap_cons]
      cases more with
      | nil => simp [hyphenateAfter]
      | cons next more =>
          -- the word is not the last, so its last character is not its capital
          obtain ⟨two, longer⟩ := List.forall_mem_cons.1 long
          have run_ne : run ≠ [] := by
            rintro rfl
            simp at two
          have last : isWordChar (run.getLast?.getD c.toUpper) = true := by
            rw [List.getLast?_eq_some_getLast run_ne, Option.getD_some]
            exact rest _ (List.getLast_mem run_ne)
          rw [hyphenateAfter_capitalized last others longer, List.cons_append, List.cons_append]

theorem flatMap_hyphen_eq_intercalate (first : Text) (more : List Text) :
    first ++ more.flatMap ('-' :: ·) = List.intercalate ['-'] (first :: more) := by
  induction more generalizing first with
  | nil => simp
  | cons second more ih =>
      rw [List.intercalate_cons_cons, ← ih second, List.flatMap_cons]
      simp

/-- The suffix of words in camel case is the words with a hyphen between any two, and cut at its
hyphens it is the words again. -/
theorem hyphenate_camelCase (words : List Text) (some_word : words ≠ [])
    (all : ∀ w ∈ words, IsWord w) (long : ∀ w ∈ words.tail.dropLast, 2 ≤ w.length) :
    hyphenate (camelCase words) = List.intercalate ['-'] words ∧
      (hyphenate (camelCase words)).splitOn '-' = words := by
  have joined : hyphenate (camelCase words) = List.intercalate ['-'] words := by
    obtain ⟨first, more, rfl⟩ := List.exists_cons_of_ne_nil some_word
    obtain ⟨word, others⟩ := List.forall_mem_cons.1 all
    cases first with
    | nil => exact word.elim
    | cons c run =>
        have chars := word.isWordChar
        obtain ⟨first, rest⟩ := List.forall_mem_cons.1 chars
        have lower := isUpper_of_isWordChar first
        have last := chars _ (List.mem_of_getLast? (List.getLast?_cons (a := c) (l := run)))
        rw [camelCase, List.cons_append, hyphenate,
          Char.toLower_eq_of_not_isUpper (by simp [lower]),
          hyphenateAfter_append_of_isWordChar c _ rest, hyphenateAfter_capitalized last others long,
          ← flatMap_hyphen_eq_intercalate, List.cons_append]
  refine ⟨joined, ?_⟩
  rw [joined]
  exact List.splitOn_intercalate '-' (fun w member => (all w member).hyphen_not_mem) some_word

/-- One letter at either end, a word that ends with a digit, and a word inside of two letters. -/
theorem hyphenate_oneLetterEnds :
    hyphenate ['x', 'H', '2', 'T', 'o', 'B'] = ['x', '-', 'h', '2', '-', 't', 'o', '-', 'b'] ∧
      (hyphenate ['x', 'H', '2', 'T', 'o', 'B']).splitOn '-' =
        [['x'], ['h', '2'], ['t', 'o'], ['b']] :=
  hyphenate_camelCase [['x'], ['h', '2'], ['t', 'o'], ['b']] (by decide) (by decide) (by decide)

end Stencil.Text
