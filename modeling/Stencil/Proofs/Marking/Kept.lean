/-
# Stencil.Proofs.Marking.Kept -- writing out keeps the markers

Markers with a plain lead stand between fixed texts.  When the elements that close themselves are
written out, a change would have to reach across the border of a fixed text and a marker to touch
the marker, and no border allows it: a marker begins with none of the characters that are changed,
and ends with a quote or a bracket.  An end tag that is put in has the name of a tag of the text,
and no tag's name holds the lead, as a name that reached into a marker would have to cross a border
too.

`Marker.exists_rewritten` is the main statement: the text is afterwards the same markers between
fixed texts that are rewritten each for itself, and these still do not hold the lead.
-/
import Stencil.Proofs.Marker.Plain
import Stencil.Proofs.Markup.Closing
import Stencil.Proofs.Markup.SelfClosing
import Mathlib.Data.List.Forall2

set_option autoImplicit false

namespace Stencil

namespace Marker

variable {lead : Text}

/-! ## The borders of a marker -/

theorem Plain.neutral (plain : Plain lead) : SelfClosing.Neutral lead :=
  ⟨plain.not_mem (by simp), plain.not_mem (by simp), plain.not_mem (by simp)⟩

theorem Placed.pre_free {p : Piece} (placed : Placed lead p) : ¬ lead <:+: p.pre := by
  cases placed with
  | comment free => exact free
  | assignment free => exact free

/-- A marker begins with a character that is not changed. -/
theorem Placed.word_head (plain : Plain lead) {p : Piece} (placed : Placed lead p) :
    ∀ c ∈ p.word.head?, Text.isBlank c = false ∧ c ≠ '/' ∧ c ≠ '>' := by
  cases placed with
  | comment free index =>
      rintro c first
      obtain rfl : '<' = c := Option.some.inj first
      decide
  | assignment free ends index named name_chars name_free =>
      obtain ⟨d, ds, rfl⟩ := List.exists_cons_of_ne_nil plain.ne_nil
      rintro c first
      obtain rfl : d = c := Option.some.inj first
      have special := plain.not_special d (List.mem_cons_self ..)
      simp only [List.mem_cons, not_or] at special
      exact ⟨plain.not_blank d (List.mem_cons_self ..), special.2.2.2.2.2.1, special.2.1⟩

/-- A marker ends with a quote or a bracket. -/
theorem Placed.word_last {p : Piece} (placed : Placed lead p) :
    ∃ front c, p.word = front ++ [c] ∧ c ∈ ['"', '\'', '>'] := by
  cases placed with
  | @comment pre digits free index =>
      exact ⟨['<', '!', '-', '-'] ++ lead ++ digits ++ ['-', '-'], '>', by simp, by simp⟩
  | @assignment pre digits name quote free ends index named name_chars name_free =>
      exact ⟨_, quote.char, rfl, by cases quote <;> simp [Quote.char]⟩

/-- No marker has a slash before a bracket. -/
theorem Placed.word_free (plain : Plain lead) {p : Piece} (placed : Placed lead p) :
    ¬ ['/', '>'] <:+: p.word := by
  cases placed with
  | @comment pre digits free index =>
      intro inside
      have slash : '/' ∈ ['<', '!', '-', '-'] ++ lead ++ digits ++ ['-', '-', '>'] :=
        inside.subset (by simp)
      have inLead : '/' ∉ lead := plain.not_mem (by simp)
      have inDigits : '/' ∉ digits := not_mem_of_isIndex index (by decide)
      simp [inLead, inDigits] at slash
  | @assignment pre digits name quote free ends index named name_chars name_free =>
      intro inside
      have bracket : '>' ∈ lead ++ digits ++ '=' :: quote.char :: name ++ [quote.char] :=
        inside.subset (by simp)
      have inLead : '>' ∉ lead := plain.not_mem (by simp)
      have inDigits : '>' ∉ digits := not_mem_of_isIndex index (by decide)
      have inName : '>' ∉ name := fun member => absurd (name_chars _ member) (by decide)
      cases quote <;> simp [inLead, inDigits, inName, Quote.char] at bracket

/-! ## The names of tags -/

variable {name : Text}

theorem not_mem_tag (chars : ∀ c ∈ name, Text.isTagNameChar c = true) {c : Char}
    (other : Text.isTagNameChar c = false) (ne : c ≠ '<') : c ∉ '<' :: name := by
  intro member
  rcases List.mem_cons.1 member with same | member
  · exact ne same
  · rw [chars c member] at other
    exact nomatch other

/-- No tag's name in a marker holds the lead. -/
theorem Placed.tag_free (plain : Plain lead) {p : Piece} (placed : Placed lead p)
    (chars : ∀ c ∈ name, Text.isTagNameChar c = true) (tag : '<' :: name <:+: p.word) :
    ¬ lead <:+: name := by
  intro holds
  cases placed with
  | @comment pre digits free index =>
      have inLead : '<' ∉ lead := plain.not_mem (by simp)
      have inDigits : '<' ∉ digits := not_mem_of_isIndex index (by decide)
      rcases List.infix_cons_iff.1 tag with front | behind
      · obtain ⟨-, front⟩ := List.cons_prefix_cons.1 front
        cases name with
        | nil => exact plain.ne_nil (List.infix_nil.1 holds)
        | cons c name =>
            obtain ⟨rfl, -⟩ := List.cons_prefix_cons.1 front
            exact absurd (chars '!' (List.mem_cons_self ..)) (by decide)
      · have opening := behind.subset (List.mem_cons_self ..)
        simp [inLead, inDigits] at opening
  | @assignment pre digits name' quote free ends index named name_chars name_free =>
      have inLead : '<' ∉ lead := plain.not_mem (by simp)
      have inDigits : '<' ∉ digits := not_mem_of_isIndex index (by decide)
      have sign : '=' ∉ '<' :: name := not_mem_tag chars (by decide) (by decide)
      have quotes : quote.char ∉ '<' :: name := by
        cases quote <;> exact not_mem_tag chars (by decide) (by decide)
      have spread : lead ++ digits ++ '=' :: quote.char :: name' ++ [quote.char] =
          lead ++ digits ++ '=' :: quote.char :: (name' ++ quote.char :: []) := by simp
      rw [spread] at tag
      rcases Text.infix_or_infix_of_not_mem sign tag with front | behind
      · have opening := front.subset (List.mem_cons_self ..)
        simp [inLead, inDigits] at opening
      · rcases Text.infix_or_infix_of_not_mem quotes (Text.infix_of_infix_cons quotes behind) with
          inside | inside
        · exact name_free (holds.trans ((List.suffix_cons '<' name).isInfix.trans inside))
        · exact nomatch List.infix_nil.1 inside

/-- No tag begins before the end of a marker and goes on behind it. -/
theorem Placed.not_across {p : Piece} (placed : Placed lead p) {s front back : Text}
    (chars : ∀ c ∈ name, Text.isTagNameChar c = true) (split : '<' :: name = front ++ back)
    (ne : front ≠ []) (left : front <:+ s ++ p.word) : False := by
  obtain ⟨w, c, word, ends⟩ := placed.word_last
  obtain ⟨front, d, rfl⟩ := (List.eq_nil_or_concat front).resolve_left ne
  have final : d ∈ (s ++ p.word).getLast? :=
    Text.mem_getLast?_of_suffix left (by simp)
  obtain rfl : c = d := Text.eq_of_mem_getLast? ⟨s ++ w, by rw [word, List.append_assoc]⟩ final
  have member : c ∈ '<' :: name := by
    rw [split]
    simp
  simp only [List.mem_cons, List.not_mem_nil, or_false] at ends
  rcases ends with rfl | rfl | rfl
  all_goals exact not_mem_tag chars (by decide) (by decide) member

/-- No tag begins in a fixed text and goes on in the marker behind it. -/
theorem Placed.not_into {p : Piece} (placed : Placed lead p) {front back : Text}
    (chars : ∀ c ∈ name, Text.isTagNameChar c = true) (split : '<' :: name = front ++ back)
    (ne : front ≠ []) (ne' : back ≠ []) (left : front <:+ p.pre) (right : back <+: p.word) :
    False := by
  cases placed with
  | comment free index =>
      obtain ⟨c, back, rfl⟩ := List.exists_cons_of_ne_nil ne'
      obtain ⟨rfl, -⟩ := List.cons_prefix_cons.1 right
      obtain ⟨d, front, rfl⟩ := List.exists_cons_of_ne_nil ne
      obtain ⟨-, rfl⟩ := List.cons.inj split
      exact absurd (chars '<' (by simp)) (by decide)
  | assignment free ends index named name_chars name_free =>
      obtain ⟨front, d, rfl⟩ := (List.eq_nil_or_concat front).resolve_left ne
      have stop := ends d (Text.mem_getLast?_of_suffix left (by simp))
      have member : d ∈ '<' :: name := by
        rw [split]
        simp
      rcases List.mem_cons.1 member with rfl | member
      · exact absurd stop (by decide)
      · rw [isNameChar_of_isTagNameChar (chars d member)] at stop
        exact nomatch stop

/-- No tag's name between markers or in them holds the lead. -/
theorem tag_free_join (plain : Plain lead) {post : Text} (rest : ¬ lead <:+: post)
    (chars : ∀ c ∈ name, Text.isTagNameChar c = true) :
    ∀ pieces : List Piece, (∀ p ∈ pieces, Placed lead p) →
      '<' :: name <:+: Piece.join post pieces → ¬ lead <:+: name
  | [], _, tag => fun holds => rest (holds.trans ((List.suffix_cons '<' name).isInfix.trans tag))
  | p :: more, placed, tag => by
      obtain ⟨first, others⟩ := List.forall_mem_cons.1 placed
      rw [Piece.join] at tag
      rcases List.infix_append_iff_ne_nil.1 tag with
        inside | behind | ⟨front, back, ne, -, split, left, -⟩
      · rcases List.infix_append_iff_ne_nil.1 inside with
          inPre | inWord | ⟨front, back, ne, ne', split, left, right⟩
        · intro holds
          exact first.pre_free (holds.trans ((List.suffix_cons '<' name).isInfix.trans inPre))
        · exact first.tag_free plain chars inWord
        · exact (first.not_into chars split ne ne' left right).elim
      · exact tag_free_join plain rest chars more others behind
      · exact (first.not_across chars split ne left).elim

/-! ## The rewritten text -/

/-- The name of a tag that does not hold the lead. -/
structure TagName (lead name : Text) : Prop where
  letter : name.head?.any Text.isLetter = true
  chars : ∀ c ∈ name, Text.isTagNameChar c = true
  free : ¬ lead <:+: name

/-- The same marker behind a fixed text that is rewritten. -/
structure Rewritten (lead : Text) (p p' : Piece) : Prop where
  pre : SelfClosing.Rewrites (TagName lead) p.pre p'.pre
  word : p'.word = p.word
  marker : p'.marker = p.marker

theorem free_of_rewrites (plain : Plain lead) {s t : Text}
    (h : SelfClosing.Rewrites (TagName lead) s t) (free : ¬ lead <:+: s) : ¬ lead <:+: t := by
  intro inside
  rcases h.infix_before plain.neutral inside with before | ⟨name, tag, inName⟩
  · exact free before
  · exact tag.free inName

/-- A marker is well placed behind the rewritten text. -/
theorem Placed.rewritten (plain : Plain lead) {p : Piece} {pre : Text} (placed : Placed lead p)
    (h : SelfClosing.Rewrites (TagName lead) p.pre pre) :
    Placed lead ⟨pre, p.word, p.marker⟩ := by
  cases placed with
  | comment free index => exact .comment (free_of_rewrites plain h free) index
  | assignment free ends index named name_chars name_free =>
      have ends' := h.last (p := fun c => Assignment.isNameChar c = false) (by decide) ends
      exact .assignment (free_of_rewrites plain h free) ends' index named name_chars name_free

/-- No change reaches across the borders of a marker. -/
theorem Placed.rewrites_inv (plain : Plain lead) {named : Text → Prop} {p : Piece}
    (placed : Placed lead p) {rest t : Text}
    (h : SelfClosing.Rewrites named (p.pre ++ p.word ++ rest) t) :
    ∃ pre rest', t = pre ++ p.word ++ rest' ∧ SelfClosing.Rewrites named p.pre pre ∧
      SelfClosing.Rewrites named rest rest' := by
  obtain ⟨w, c, word, ends⟩ := placed.word_last
  obtain ⟨front, rest', rfl, left, right⟩ := h.append_inv fun b last d _ => by
    obtain rfl : c = b :=
      Text.eq_of_mem_getLast? ⟨p.pre ++ w, by rw [word, List.append_assoc]⟩ last
    simp only [List.mem_cons, List.not_mem_nil, or_false] at ends
    rcases ends with rfl | rfl | rfl
    all_goals exact SelfClosing.not_joint_of_first (by decide) (by decide)
  obtain ⟨pre, word', rfl, before, inside⟩ := left.append_inv fun b _ d first => by
    obtain ⟨visible, slash, bracket⟩ := placed.word_head plain d first
    exact SelfClosing.not_joint_of_second visible slash bracket
  rw [inside.eq_of_free (placed.word_free plain)]
  exact ⟨pre, rest', rfl, before, right⟩

theorem exists_rewritten_of_rewrites (plain : Plain lead) {post : Text}
    (rest : ¬ lead <:+: post) :
    ∀ (pieces : List Piece) (t : Text), (∀ p ∈ pieces, Placed lead p) →
      SelfClosing.Rewrites (TagName lead) (Piece.join post pieces) t →
      ∃ (pieces' : List Piece) (post' : Text), t = Piece.join post' pieces' ∧
        List.Forall₂ (Rewritten lead) pieces pieces' ∧ (∀ p ∈ pieces', Placed lead p) ∧
        SelfClosing.Rewrites (TagName lead) post post' ∧ ¬ lead <:+: post'
  | [], t, _, h => ⟨[], t, rfl, .nil, nofun, h, free_of_rewrites plain h rest⟩
  | p :: more, t, placed, h => by
      obtain ⟨first, others⟩ := List.forall_mem_cons.1 placed
      obtain ⟨pre, behind, rfl, before, after⟩ := first.rewrites_inv plain h
      obtain ⟨pieces', post', rfl, same, placed', last, free⟩ :=
        exists_rewritten_of_rewrites plain rest more behind others after
      refine ⟨⟨pre, p.word, p.marker⟩ :: pieces', post', rfl, .cons ⟨before, rfl, rfl⟩ same,
        List.forall_mem_cons.2 ⟨first.rewritten plain before, placed'⟩, last, free⟩

/-- Writing out the elements of a marked text rewrites its fixed texts and keeps its markers. -/
theorem exists_rewritten (plain : Plain lead) {pieces : List Piece} {post : Text}
    (placed : ∀ p ∈ pieces, Placed lead p) (rest : ¬ lead <:+: post) :
    ∃ (pieces' : List Piece) (post' : Text),
      SelfClosing.writeOut (Piece.join post pieces) = Piece.join post' pieces' ∧
        List.Forall₂ (Rewritten lead) pieces pieces' ∧ (∀ p ∈ pieces', Placed lead p) ∧
        SelfClosing.Rewrites (TagName lead) post post' ∧ ¬ lead <:+: post' := by
  apply exists_rewritten_of_rewrites plain rest pieces _ placed
  apply SelfClosing.rewrites_writeOut
  intro name letter chars tag
  exact ⟨letter, chars, tag_free_join plain rest chars pieces placed tag⟩

end Marker

end Stencil
