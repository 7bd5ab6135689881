/-
# Stencil.Text.Basic -- texts as lists of characters

Every text of the library, from a template's fragments to the rendered page, is the list of its
characters, so that scanning it is recursion on a list.  `Text.after?` takes a fixed word off the
front; `after?_eq_some_iff` says that it succeeds exactly on texts that start with the word.
`Text.numeral` writes a natural number in decimal digits.
-/

set_option autoImplicit false

namespace Stencil

/-- A text: the list of its characters. -/
abbrev Text := List Char

namespace Text

/-- What is left of a text after a word at its front. -/
def after? : (word s : Text) → Option Text
  | [], s => some s
  | w :: ws, c :: cs => if w = c then after? ws cs else none
  | _ :: _, [] => none

theorem after?_eq_some_iff {word s rest : Text} :
    after? word s = some rest ↔ s = word ++ rest := by
  induction word generalizing s with
  | nil => simp [after?]
  | cons w ws ih =>
      cases s with
      | nil => simp [after?]
      | cons c cs =>
          by_cases h : w = c
          · simp [after?, h, ih]
          · simp [after?, h, Ne.symm h]

@[simp] theorem after?_append (word rest : Text) : after? word (word ++ rest) = some rest :=
  after?_eq_some_iff.2 rfl

/-- The longest run at the front whose characters satisfy `p`, and what follows it. -/
def splitRun (p : Char → Bool) (s : Text) : Text × Text := (s.takeWhile p, s.dropWhile p)

/-- The longest run at the end whose characters satisfy `p`, and what stands before it. -/
def splitLastRun (p : Char → Bool) (s : Text) : Text × Text :=
  ((s.reverse.dropWhile p).reverse, (s.reverse.takeWhile p).reverse)

/-- The pieces of the split are the text. -/
theorem splitRun_append (p : Char → Bool) (s : Text) :
    (splitRun p s).1 ++ (splitRun p s).2 = s := by
  simp [splitRun]

/-- The pieces of the split are the text. -/
theorem splitLastRun_append (p : Char → Bool) (s : Text) :
    (splitLastRun p s).1 ++ (splitLastRun p s).2 = s := by
  rw [splitLastRun, ← List.reverse_append, List.takeWhile_append_dropWhile, List.reverse_reverse]

/-- The run at the front satisfies `p`, and the character behind it does not. -/
theorem splitRun_spec (p : Char → Bool) (s : Text) :
    (∀ c ∈ (splitRun p s).1, p c = true) ∧ ∀ c ∈ (splitRun p s).2.head?, p c = false := by
  constructor
  · intro c member
    exact List.all_eq_true.1 List.all_takeWhile c member
  · intro c first
    have stop := List.head?_dropWhile_not p s
    rw [show (s.dropWhile p).head? = some c from first] at stop
    simpa using stop

/-- A run at the front that cannot be longer is the longest. -/
theorem splitRun_append_of_all {p : Char → Bool} {run rest : Text} (all : ∀ c ∈ run, p c = true)
    (stop : ∀ c ∈ rest.head?, p c = false) : splitRun p (run ++ rest) = (run, rest) := by
  rw [splitRun, List.takeWhile_append_of_pos all, List.dropWhile_append_of_pos all]
  cases rest with
  | nil => simp
  | cons c cs =>
      have stops : p c = false := stop c rfl
      simp [stops]

theorem all_ne_iff {c : Char} {s : Text} : (∀ d ∈ s, (d != c) = true) ↔ c ∉ s := by
  simp only [bne_iff_ne]
  constructor
  · exact fun others member => others c member rfl
  · exact fun absent d member same => absent (same ▸ member)

/-- The run up to the first character of a kind. -/
theorem splitRun_ne_append {c : Char} {run : Text} (free : c ∉ run) (rest : Text) :
    splitRun (· != c) (run ++ c :: rest) = (run, c :: rest) :=
  splitRun_append_of_all (all_ne_iff.2 free) (by simp)

/-- A run at the end that cannot be longer is the longest. -/
theorem splitLastRun_append_of_all {p : Char → Bool} {before run : Text}
    (all : ∀ c ∈ run, p c = true) (stop : ∀ c ∈ before.getLast?, p c = false) :
    splitLastRun p (before ++ run) = (before, run) := by
  have all' : ∀ c ∈ run.reverse, p c = true := by simpa using all
  have stop' : ∀ c ∈ before.reverse.head?, p c = false := by simpa using stop
  have reversed := splitRun_append_of_all all' stop'
  obtain ⟨longest, others⟩ := Prod.mk.inj reversed
  rw [splitLastRun, List.reverse_append, longest, others, List.reverse_reverse,
    List.reverse_reverse]

/-- The run at the end satisfies `p`, and the character before it does not. -/
theorem splitLastRun_spec (p : Char → Bool) (s : Text) :
    (∀ c ∈ (splitLastRun p s).2, p c = true) ∧
      ∀ c ∈ (splitLastRun p s).1.getLast?, p c = false := by
  obtain ⟨run, stop⟩ := splitRun_spec p s.reverse
  constructor
  · intro c member
    exact run c (List.mem_reverse.1 member)
  · intro c last
    rw [splitLastRun, List.getLast?_reverse] at last
    exact stop c last

/-- A natural number in decimal digits, without leading zeros. -/
def numeral (n : Nat) : Text := Nat.toDigits 10 n

/-- The value of a hexadecimal digit, of either case. -/
def hexDigit? (c : Char) : Option Nat :=
  if '0' ≤ c ∧ c ≤ '9' then some (c.toNat - 48)
  else if 'a' ≤ c ∧ c ≤ 'f' then some (c.toNat - 87)
  else if 'A' ≤ c ∧ c ≤ 'F' then some (c.toNat - 55)
  else none

/-- The number that hexadecimal digits write, the most significant first. -/
def hexNumber? (s : Text) : Option Nat :=
  s.foldlM (fun n c => (hexDigit? c).map (16 * n + ·)) 0

end Text

end Stencil
