/-
# Stencil.Proofs.Text.Pattern -- patterns, and what they find first

A pattern takes something off the front of a text: a word, a run of characters of one class, nothing
where the text ends, what two patterns take one after the other, or what one of two patterns takes.
`Pattern.ways` are all ways to do so, in the order in which they are tried.  A run takes as many
characters as it may, or as few if it is sparing, and is tried with others only if what stands
behind it fails; of two patterns the second is tried if the first has no way left.

What a pattern takes is its first way (`Pattern.first?`), and a search has it try at each character
in turn (`Pattern.search?`): no way starts before the one that is found (`search?_first`), and a
walk that stops wherever the pattern takes something stops there (`walk_eq_search?`).

Markup is read by hand in this library.  A pattern beside such a reader says what is read in other
words, and they are shown to agree without following the trials where the order of them does not
matter (`first?_map_eq`).  Where it does, a run takes the longest run if all behind it can be taken
then (`first?_longest_seq`).
-/
import Stencil.Text.Basic

set_option autoImplicit false

namespace Stencil

/-! ## One run -/

/-- The runs of characters of a class at the front of a text, each with what follows it, the longest
first. -/
def Text.runs (takes : Char → Bool) : Text → List (Text × Text)
  | [] => [([], [])]
  | c :: cs =>
      if takes c then (runs takes cs).map (fun d => (c :: d.1, d.2)) ++ [([], c :: cs)]
      else [([], c :: cs)]

theorem Text.mem_runs_iff {takes : Char → Bool} {s front rest : Text} :
    (front, rest) ∈ runs takes s ↔ s = front ++ rest ∧ ∀ c ∈ front, takes c = true := by
  induction s generalizing front with
  | nil => cases front <;> simp [runs, eq_comm (a := [])]
  | cons c cs ih =>
      rw [runs]
      split
      · next taken =>
        rw [List.mem_append, List.mem_map, List.mem_singleton, Prod.mk.injEq]
        constructor
        · rintro (⟨⟨more, rest⟩, run, same⟩ | ⟨rfl, rfl⟩)
          · obtain ⟨rfl, rfl⟩ := Prod.mk.inj same
            obtain ⟨rfl, all⟩ := ih.1 run
            exact ⟨rfl, List.forall_mem_cons.2 ⟨taken, all⟩⟩
          · exact ⟨rfl, nofun⟩
        · rintro ⟨whole, all⟩
          cases front with
          | nil => exact .inr ⟨rfl, whole.symm⟩
          | cons d more =>
              obtain ⟨rfl, behind⟩ := List.cons.inj whole
              exact .inl ⟨(more, rest), ih.2 ⟨behind, (List.forall_mem_cons.1 all).2⟩, rfl⟩
      · next other =>
        rw [List.mem_singleton, Prod.mk.injEq]
        constructor
        · rintro ⟨rfl, rfl⟩
          exact ⟨rfl, nofun⟩
        · rintro ⟨whole, all⟩
          cases front with
          | nil => exact ⟨rfl, whole.symm⟩
          | cons d more =>
              obtain ⟨rfl, -⟩ := List.cons.inj whole
              exact absurd (all c (List.mem_cons_self ..)) other

theorem Text.head?_runs (takes : Char → Bool) (s : Text) :
    (runs takes s).head? = some (splitRun takes s) := by
  induction s with
  | nil => rfl
  | cons c cs ih =>
      by_cases taken : takes c = true
      · simp [runs, taken, splitRun, ih]
      · simp [runs, taken, splitRun]

/-- Characters of one class, one after another: no fewer than `least`, and no more than `most` if
there is such a bound. -/
structure Repetition where
  takes : Char → Bool
  least : Nat := 0
  most : Option Nat := none
  /-- Whether it takes as few characters as it may, and not as many. -/
  sparing : Bool := false

namespace Repetition

variable {r : Repetition} {s front rest : Text}

/-- Whether a text is such a repetition. -/
def admits (r : Repetition) (s : Text) : Bool :=
  s.all r.takes && decide (r.least ≤ s.length) && r.most.all (s.length ≤ ·)

theorem admits_iff : r.admits s = true ↔ (∀ c ∈ s, r.takes c = true) ∧ r.least ≤ s.length ∧
    ∀ most ∈ r.most, s.length ≤ most := by
  simp [admits, and_assoc, Option.all_eq_true]

def zeroOrMore (takes : Char → Bool) : Repetition := { takes }

def oneOrMore (takes : Char → Bool) : Repetition := { takes, least := 1 }

variable {takes : Char → Bool}

theorem admits_zeroOrMore_iff : (zeroOrMore takes).admits s = true ↔ ∀ c ∈ s, takes c = true := by
  simp [admits_iff, zeroOrMore]

theorem admits_oneOrMore_iff :
    (oneOrMore takes).admits s = true ↔ s ≠ [] ∧ ∀ c ∈ s, takes c = true := by
  simp [admits_iff, oneOrMore, Nat.succ_le_iff, List.length_pos_iff, and_comm]

/-- What the repetition may take off the front of a text, with what it leaves. -/
def ways (r : Repetition) (s : Text) : List (Text × Text) :=
  let longestFirst := (Text.runs r.takes s).filter fun d => r.admits d.1
  if r.sparing then longestFirst.reverse else longestFirst

theorem mem_ways_iff : (front, rest) ∈ r.ways s ↔ r.admits front = true ∧ s = front ++ rest := by
  have listed : (front, rest) ∈ r.ways s ↔
      (front, rest) ∈ (Text.runs r.takes s).filter fun d => r.admits d.1 := by
    rw [ways]
    split
    · exact List.mem_reverse
    · rfl
  rw [listed, List.mem_filter, Text.mem_runs_iff, admits_iff]
  constructor
  · rintro ⟨⟨whole, all⟩, admitted⟩
    exact ⟨admitted, whole⟩
  · rintro ⟨admitted, whole⟩
    exact ⟨⟨whole, admitted.1⟩, admitted⟩

theorem ways_zeroOrMore (takes : Char → Bool) (s : Text) :
    (zeroOrMore takes).ways s = Text.runs takes s := by
  have every : ∀ d ∈ Text.runs takes s, (zeroOrMore takes).admits d.1 = true := by
    rintro ⟨front, rest⟩ member
    exact admits_zeroOrMore_iff.2 (Text.mem_runs_iff.1 member).2
  exact List.filter_eq_self.2 every

/-- The longest run comes first, if it is long enough and may be as long as it is. -/
theorem head?_ways (greedy : r.sparing = false)
    (admitted : r.admits (Text.splitRun r.takes s).1 = true) :
    (r.ways s).head? = some (Text.splitRun r.takes s) := by
  obtain ⟨others, runs⟩ := List.head?_eq_some_iff.1 (Text.head?_runs r.takes s)
  simp [ways, greedy, runs, admitted]

end Repetition

/-! ## Patterns -/

/-- What may stand at the front of a text. -/
inductive Pattern where
  | word (w : Text)
  | run (r : Repetition)
  /-- The end of the text. -/
  | stop
  | seq (first second : Pattern)
  | either (first second : Pattern)

namespace Pattern

variable {p q : Pattern} {r : Repetition} {w s rest before : Text} {pieces : List Text}

/-- Patterns one after the other. -/
def row : List Pattern → Pattern
  | [] => .word []
  | [p] => p
  | p :: more => .seq p (row more)

/-- All ways in which a pattern takes pieces off the front of a text, one for each word and each
run, with what they leave. -/
def ways : Pattern → Text → List (List Text × Text)
  | .word w, s => ((Text.after? w s).map fun rest => ([w], rest)).toList
  | .run r, s => (r.ways s).map fun way => ([way.1], way.2)
  | .stop, s => if s = [] then [([], [])] else []
  | .seq p q, s => (p.ways s).flatMap fun way =>
      (q.ways way.2).map fun next => (way.1 ++ next.1, next.2)
  | .either p q, s => p.ways s ++ q.ways s

theorem mem_ways_word : (pieces, rest) ∈ (word w).ways s ↔ pieces = [w] ∧ s = w ++ rest := by
  rw [ways, Option.mem_toList, Option.map_eq_some_iff]
  constructor
  · rintro ⟨behind, taken, same⟩
    obtain ⟨rfl, rfl⟩ := Prod.mk.inj same
    exact ⟨rfl, Text.after?_eq_some_iff.1 taken⟩
  · rintro ⟨rfl, whole⟩
    exact ⟨rest, Text.after?_eq_some_iff.2 whole, rfl⟩

theorem mem_ways_run : (pieces, rest) ∈ (run r).ways s ↔
    ∃ front, pieces = [front] ∧ r.admits front = true ∧ s = front ++ rest := by
  simp only [ways, List.mem_map, Prod.exists, Repetition.mem_ways_iff, Prod.mk.injEq]
  constructor
  · rintro ⟨front, _, way, rfl, rfl⟩
    exact ⟨front, rfl, way⟩
  · rintro ⟨front, rfl, way⟩
    exact ⟨front, rest, way, rfl, rfl⟩

theorem mem_ways_stop : (pieces, rest) ∈ stop.ways s ↔ pieces = [] ∧ rest = [] ∧ s = [] := by
  by_cases ended : s = [] <;> simp [ways, ended]

theorem mem_ways_seq : (pieces, rest) ∈ (seq p q).ways s ↔
    ∃ front between back, (front, between) ∈ p.ways s ∧ (back, rest) ∈ q.ways between ∧
      pieces = front ++ back := by
  simp only [ways, List.mem_flatMap, List.mem_map, Prod.exists, Prod.mk.injEq]
  constructor
  · rintro ⟨front, between, way, back, _, next, rfl, rfl⟩
    exact ⟨front, between, back, way, next, rfl⟩
  · rintro ⟨front, between, back, way, next, rfl⟩
    exact ⟨front, between, way, back, rest, next, rfl, rfl⟩

theorem mem_ways_either : (pieces, rest) ∈ (either p q).ways s ↔
    (pieces, rest) ∈ p.ways s ∨ (pieces, rest) ∈ q.ways s := by
  rw [ways, List.mem_append]

theorem mem_ways_word_seq : (pieces, rest) ∈ (seq (word w) q).ways s ↔
    ∃ between back, s = w ++ between ∧ (back, rest) ∈ q.ways between ∧ pieces = w :: back := by
  rw [mem_ways_seq]
  simp only [mem_ways_word]
  constructor
  · rintro ⟨_, between, back, ⟨rfl, whole⟩, next, rfl⟩
    exact ⟨between, back, whole, next, rfl⟩
  · rintro ⟨between, back, whole, next, rfl⟩
    exact ⟨[w], between, back, ⟨rfl, whole⟩, next, rfl⟩

theorem mem_ways_run_seq : (pieces, rest) ∈ (seq (run r) q).ways s ↔
    ∃ front between back, r.admits front = true ∧ s = front ++ between ∧
      (back, rest) ∈ q.ways between ∧ pieces = front :: back := by
  rw [mem_ways_seq]
  simp only [mem_ways_run]
  constructor
  · rintro ⟨_, between, back, ⟨front, rfl, admitted, whole⟩, next, rfl⟩
    exact ⟨front, between, back, admitted, whole, next, rfl⟩
  · rintro ⟨front, between, back, admitted, whole, next, rfl⟩
    exact ⟨[front], between, back, ⟨front, rfl, admitted, whole⟩, next, rfl⟩

/-- The pieces and what is left are the text. -/
theorem flatten_of_mem_ways (way : (pieces, rest) ∈ p.ways s) : s = pieces.flatten ++ rest := by
  induction p generalizing s pieces rest with
  | word w =>
      obtain ⟨rfl, rfl⟩ := mem_ways_word.1 way
      simp
  | run r =>
      obtain ⟨front, rfl, -, rfl⟩ := mem_ways_run.1 way
      simp
  | stop =>
      obtain ⟨rfl, rfl, rfl⟩ := mem_ways_stop.1 way
      rfl
  | seq p q first second =>
      obtain ⟨front, between, back, here, next, rfl⟩ := mem_ways_seq.1 way
      rw [first here, second next, List.flatten_append, List.append_assoc]
  | either p q first second =>
      rcases mem_ways_either.1 way with here | here
      · exact first here
      · exact second here

/-! ## What is found at the front -/

/-- The way that is tried first. -/
def first? (p : Pattern) (s : Text) : Option (List Text × Text) := (p.ways s).head?

theorem mem_ways_of_first? (found : p.first? s = some (pieces, rest)) :
    (pieces, rest) ∈ p.ways s := List.mem_of_head? found

theorem isSome_first?_iff :
    (p.first? s).isSome = true ↔ ∃ pieces rest, (pieces, rest) ∈ p.ways s := by
  constructor
  · intro some
    obtain ⟨⟨pieces, rest⟩, found⟩ := Option.isSome_iff_exists.1 some
    exact ⟨pieces, rest, mem_ways_of_first? found⟩
  · rintro ⟨pieces, rest, way⟩
    exact List.isSome_head?.2 (List.ne_nil_of_mem way)

/-- The second pattern is tried if the first takes nothing. -/
theorem first?_either (p q : Pattern) (s : Text) :
    (either p q).first? s = (p.first? s).or (q.first? s) := by
  rw [first?, ways, List.head?_append]
  rfl

/-- Where the order of the trials does not matter: a reader and a pattern agree if every way is what
the reader gives, and there is one if it gives something. -/
theorem first?_map_eq {α : Type} {read : Option α} {value : List Text × Text → α}
    (sound : ∀ pieces rest, (pieces, rest) ∈ p.ways s → read = some (value (pieces, rest)))
    (complete : ∀ a, read = some a → ∃ pieces rest, (pieces, rest) ∈ p.ways s) :
    (p.first? s).map value = read := by
  cases found : p.first? s with
  | some way => exact (sound way.1 way.2 (mem_ways_of_first? found)).symm
  | none =>
      cases given : read with
      | none => rfl
      | some a =>
          have some := isSome_first?_iff.2 (complete a given)
          rw [found] at some
          exact nomatch some

/-- The one way that there is. -/
theorem first?_of_only (here : (pieces, rest) ∈ p.ways s)
    (only : ∀ others left, (others, left) ∈ p.ways s → others = pieces ∧ left = rest) :
    p.first? s = some (pieces, rest) := by
  have found : (p.first? s).map id = some (pieces, rest) := by
    refine first?_map_eq (fun others left way => ?_) fun _ _ => ⟨pieces, rest, here⟩
    obtain ⟨rfl, rfl⟩ := only others left way
    rfl
  rwa [Option.map_id] at found

theorem first?_word_seq (w : Text) (q : Pattern) (s : Text) :
    (seq (word w) q).first? (w ++ s) =
      (q.first? s).map fun next => (w :: next.1, next.2) := by
  simp [first?, ways]

/-- What a run takes is tried in its order, until the pattern behind it takes something. -/
theorem first?_run_seq (r : Repetition) (q : Pattern) (s : Text) :
    (seq (run r) q).first? s = (r.ways s).findSome? fun way =>
      (q.first? way.2).map fun next => (way.1 :: next.1, next.2) := by
  simp [first?, ways, List.flatMap_map, List.head?_flatMap]

/-- A run takes as much as it can, if the pattern behind it takes something there. -/
theorem first?_longest_seq {front : Text} {next : List Text × Text} (greedy : r.sparing = false)
    (admitted : r.admits front = true) (stop : ∀ c ∈ rest.head?, r.takes c = false)
    (behind : q.first? rest = some next) :
    (seq (run r) q).first? (front ++ rest) = some (front :: next.1, next.2) := by
  have longest := Text.splitRun_append_of_all (Repetition.admits_iff.1 admitted).1 stop
  have tried : (r.ways (front ++ rest)).head? = some (front, rest) := by
    rw [← longest]
    exact r.head?_ways greedy (by rwa [longest])
  obtain ⟨others, ways⟩ := List.head?_eq_some_iff.1 tried
  rw [first?_run_seq, ways, List.findSome?_cons, behind]
  rfl

/-! ## What is found further on -/

/-- The first place in a text where a pattern takes something: what stands before it, the pieces,
and what they leave. -/
def search? (p : Pattern) (s : Text) : Option (Text × List Text × Text) :=
  match p.first? s with
  | some found => some ([], found)
  | none =>
      match s with
      | [] => none
      | c :: cs => (search? p cs).map fun found => (c :: found.1, found.2)

/-- What is found is a part of the text, tried first where it stands, and no way starts before
it. -/
theorem search?_first (found : p.search? s = some (before, pieces, rest)) :
    s = before ++ (pieces.flatten ++ rest) ∧
      p.first? (pieces.flatten ++ rest) = some (pieces, rest) ∧
      ∀ (earlier later : Text) (others : List Text) (left : Text), s = earlier ++ later →
        (others, left) ∈ p.ways later → before.length ≤ earlier.length := by
  fun_induction search? p s generalizing before with
  | case1 s way here =>
      obtain ⟨rfl, rfl⟩ := Prod.mk.inj (Option.some.inj found)
      have whole := flatten_of_mem_ways (mem_ways_of_first? here)
      exact ⟨whole, whole ▸ here, fun _ _ _ _ _ _ => Nat.zero_le _⟩
  | case2 => exact nomatch found
  | case3 c cs nothing ih =>
      obtain ⟨⟨behind, way⟩, later, same⟩ := Option.map_eq_some_iff.1 found
      obtain ⟨rfl, rfl⟩ := Prod.mk.inj same
      obtain ⟨whole, here, first⟩ := ih later
      refine ⟨congrArg (c :: ·) whole, here, ?_⟩
      intro earlier later others left split way
      cases earlier with
      | nil =>
          have some := isSome_first?_iff.2 ⟨others, left, way⟩
          rw [← show c :: cs = later from split, nothing] at some
          exact nomatch some
      | cons d earlier =>
          exact Nat.succ_le_succ (first earlier later others left (List.cons.inj split).2 way)

/-- A search misses no way. -/
theorem isSome_search?_of_mem_ways {behind : Text} (way : (pieces, rest) ∈ p.ways behind)
    (whole : s = before ++ behind) : (p.search? s).isSome = true := by
  have here := isSome_first?_iff.2 ⟨pieces, rest, way⟩
  fun_induction search? p s generalizing before with
  | case1 => rfl
  | case2 nothing =>
      obtain ⟨rfl, rfl⟩ := List.append_eq_nil_iff.1 whole.symm
      rw [nothing] at here
      cases here
  | case3 c cs nothing ih =>
      rw [Option.isSome_map]
      cases before with
      | nil =>
          rw [← show c :: cs = behind from whole, nothing] at here
          cases here
      | cons d before => exact ih (List.cons.inj whole).2

/-- Something is found exactly if there is a way somewhere in the text. -/
theorem isSome_search?_iff : (p.search? s).isSome = true ↔
    ∃ before behind pieces rest, s = before ++ behind ∧ (pieces, rest) ∈ p.ways behind := by
  constructor
  · intro some
    obtain ⟨⟨before, pieces, rest⟩, found⟩ := Option.isSome_iff_exists.1 some
    obtain ⟨whole, here, -⟩ := search?_first found
    exact ⟨before, _, pieces, rest, whole, mem_ways_of_first? here⟩
  · rintro ⟨before, behind, pieces, rest, rfl, way⟩
    exact isSome_search?_of_mem_ways way rfl

/-- A walk over a text that goes on behind whatever the pattern takes, and elsewhere passes over one
character, does what a search does: it passes over all that stands before what is found. -/
theorem walk_eq_search? {α : Type} (walk : Text → α) (taken : List Text → α → α)
    (passed : Char → α → α)
    (here : ∀ s pieces rest, p.first? s = some (pieces, rest) → walk s = taken pieces (walk rest))
    (further : ∀ c cs, p.first? (c :: cs) = none → walk (c :: cs) = passed c (walk cs))
    (s : Text) : (p.search? s = none → walk s = s.foldr passed (walk [])) ∧
      ∀ before pieces rest, p.search? s = some (before, pieces, rest) →
        walk s = before.foldr passed (taken pieces (walk rest)) := by
  fun_induction search? p s with
  | case1 s way found =>
      refine ⟨nofun, ?_⟩
      rintro before pieces rest ⟨⟩
      exact here s pieces rest found
  | case2 => exact ⟨fun _ => rfl, nofun⟩
  | case3 c cs nothing ih =>
      rw [further c cs nothing]
      refine ⟨fun none => ?_, fun before pieces rest found => ?_⟩
      · rw [ih.1 (Option.map_eq_none_iff.1 none), List.foldr_cons]
      · obtain ⟨⟨before, pieces, rest⟩, later, ⟨⟩⟩ := Option.map_eq_some_iff.1 found
        rw [ih.2 before pieces rest later, List.foldr_cons]

end Pattern

end Stencil
