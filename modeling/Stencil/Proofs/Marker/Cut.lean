/-
# Stencil.Proofs.Marker.Cut -- a scanned text is cut at its markers

A scan takes a text apart into pieces, each a marker as it is written with the fixed text before
it, and the text after the last marker.  `Marker.Cut` says what such pieces owe to the text, for
any lead whatsoever:

* joined again they are the text;
* each word is a marker of the grammar (`Marker.Word`);
* no fixed text holds a marker, and none before an assignment ends in a blank.

`Marker.exists_cut` is the main statement: what a scan finds is a cut.  A character joins the text
before the next marker only if nothing can be read where it stands, and reading misses no marker
(`read?_eq_none_iff`), so a marker left in a fixed text would have been found there
(`Cut.push`).
-/
import Stencil.Marker.Grammar

set_option autoImplicit false

namespace Stencil

/-- A marker in a text, as it is written, with the fixed text before it. -/
structure Piece where
  pre : Text
  word : Text
  marker : Marker

namespace Piece

/-- The text that pieces and the fixed text after them make. -/
def join (post : Text) : List Piece → Text
  | [] => post
  | p :: more => p.pre ++ p.word ++ join post more

/-- What a scan tells of a piece. -/
def found (p : Piece) : Text × Marker := (p.pre, p.marker)

/-- Puts a character in front of the text before the first marker. -/
def push (c : Char) : List Piece × Text → List Piece × Text
  | ([], post) => ([], c :: post)
  | (p :: more, post) => ({ p with pre := c :: p.pre } :: more, post)

theorem push_found (c : Char) (pieces : List Piece) (post : Text) :
    ((push c (pieces, post)).1.map found, (push c (pieces, post)).2) =
      Marker.push c (pieces.map found, post) := by
  cases pieces with
  | nil => rfl
  | cons p more => rfl

end Piece

namespace Marker

/-- There is no marker in the text. -/
def Free (lead s : Text) : Prop := ∀ m w, Word lead m w → ¬ w <:+: s

/-- The pieces and the text after them are the text, cut at its markers. -/
structure Cut (lead s : Text) (pieces : List Piece) (post : Text) : Prop where
  joined : Piece.join post pieces = s
  words : ∀ p ∈ pieces, Word lead p.marker p.word
  free : ∀ p ∈ pieces, Free lead p.pre
  flush : ∀ p ∈ pieces, p.marker ≠ .text → ∀ c ∈ p.pre.getLast?, Text.isBlank c = false
  rest : Free lead post

theorem free_nil (lead : Text) : Free lead [] := fun _ _ word inside =>
  word.ne_nil (List.infix_nil.1 inside)

/-- A character that no marker starts with joins a text without markers. -/
theorem Free.cons {lead s : Text} {c : Char} (free : Free lead s)
    (first : ∀ m w, Word lead m w → ¬ w <+: c :: s) : Free lead (c :: s) := by
  intro m w word inside
  rcases List.infix_cons_iff.1 inside with front | inside
  · exact first m w word front
  · exact free m w word inside

/-- The blanks before an assignment belong to the marker, so a further blank does too. -/
theorem Word.cons_blank {lead w : Text} {m : Marker} {c : Char} (word : Word lead m w)
    (assigned : m ≠ .text) (blank : Text.isBlank c = true) : Word lead m (c :: w) := by
  cases word with
  | comment => exact absurd rfl assigned
  | @assignment blanks digits name quote blanks_blank index named unquoted =>
      have all : ∀ d ∈ c :: blanks, Text.isBlank d = true := by
        intro d member
        rcases List.mem_cons.1 member with rfl | member
        · exact blank
        · exact blanks_blank d member
      exact .assignment all index named unquoted

/-- A marker in front of a text is a piece of its own. -/
theorem Cut.cons {lead s w post : Text} {m : Marker} {pieces : List Piece}
    (cut : Cut lead s pieces post) (word : Word lead m w) :
    Cut lead (w ++ s) (⟨[], w, m⟩ :: pieces) post where
  joined := by rw [Piece.join, cut.joined, List.nil_append]
  words := List.forall_mem_cons.2 ⟨word, cut.words⟩
  free := List.forall_mem_cons.2 ⟨free_nil lead, cut.free⟩
  flush := List.forall_mem_cons.2 ⟨fun _ => by simp, cut.flush⟩
  rest := cut.rest

/-- A character where nothing is read belongs to the fixed text that follows it. -/
theorem Cut.push {lead s post : Text} {c : Char} {pieces : List Piece}
    (cut : Cut lead s pieces post) (nothing : read? lead (c :: s) = none) :
    Cut lead (c :: s) (Piece.push c (pieces, post)).1 (Piece.push c (pieces, post)).2 := by
  have first := read?_eq_none_iff.1 nothing
  cases pieces with
  | nil =>
      obtain rfl : post = s := cut.joined
      exact ⟨rfl, nofun, nofun, nofun, cut.rest.cons first⟩
  | cons p more =>
      obtain ⟨word, words⟩ := List.forall_mem_cons.1 cut.words
      obtain ⟨free, frees⟩ := List.forall_mem_cons.1 cut.free
      obtain ⟨flush, flushes⟩ := List.forall_mem_cons.1 cut.flush
      have front : c :: p.pre <+: c :: s := by
        rw [← cut.joined, Piece.join, List.append_assoc]
        exact List.prefix_append (c :: p.pre) _
      refine ⟨congrArg (c :: ·) cut.joined, List.forall_mem_cons.2 ⟨word, words⟩,
        List.forall_mem_cons.2 ⟨free.cons fun m w marker inside => ?_, frees⟩,
        List.forall_mem_cons.2 ⟨fun assigned d last => ?_, flushes⟩, cut.rest⟩
      · exact first m w marker (inside.trans front)
      · cases before : p.pre with
        | cons e pre =>
            rw [before, List.getLast?_cons_cons] at last
            exact flush assigned d (before ▸ last)
        | nil =>
            obtain rfl : c = d := by simpa [before] using last
            -- A blank right before the assignment would make a longer marker with it.
            rw [← Bool.not_eq_true]
            intro blank
            refine first _ _ (word.cons_blank assigned blank) ?_
            rw [← cut.joined, Piece.join, before, List.nil_append]
            exact List.prefix_append (c :: p.word) _

/-- What a scan finds is a cut of the text. -/
theorem exists_cut (lead : Text) : ∀ s : Text, ∃ pieces : List Piece,
    scan lead s = (pieces.map Piece.found, (scan lead s).2) ∧
      Cut lead s pieces (scan lead s).2
  | [] => by
      rw [scan_nil]
      exact ⟨[], rfl, rfl, nofun, nofun, nofun, free_nil lead⟩
  | c :: cs => by
      cases read : read? lead (c :: cs) with
      | some found =>
          obtain ⟨m, rest⟩ := found
          obtain ⟨w, word, split⟩ := word_of_read? read
          have shorter : rest.length < (c :: cs).length := by
            have := List.length_pos_iff.2 word.ne_nil
            rw [split, List.length_append]
            omega
          obtain ⟨pieces, same, cut⟩ := exists_cut lead rest
          rw [scan_of_read?_some read]
          refine ⟨⟨[], w, m⟩ :: pieces, ?_, ?_⟩
          · rw [congrArg Prod.fst same]
            rfl
          · rw [split]
            exact cut.cons word
      | none =>
          obtain ⟨pieces, same, cut⟩ := exists_cut lead cs
          rw [scan_of_read?_none read, same, ← Piece.push_found]
          exact ⟨(Piece.push c (pieces, (scan lead cs).2)).1, rfl, cut.push read⟩
termination_by s => s.length
decreasing_by
  all_goals
    simp only [List.length_cons] at *
    omega

end Marker

end Stencil
