/-
# Stencil.Proofs.Marker.Proper -- texts whose assignments are closed in place

If every assignment is closed in the text right behind it, and the texts are free of the lead, then
a scan finds the fronts where they were put, and what it finds is told by the texts alone
(`Link.scan_join`): the name of an assignment is what stands before its quote in its own text.

Writing out keeps this.  Each text is written out for itself, with the tag that the texts before it
left open, and what becomes of it depends on the texts alone (`Link.close_join`).  A comment
closes any open tag, and an assignment closes none.
-/
import Stencil.Proofs.Marker.Counting
import Stencil.Proofs.Markup.Closing
import Stencil.Proofs.Marking.Kept

set_option autoImplicit false

namespace Stencil

namespace Link

open Marker

variable {lead first : Text} {links : List Link}

/-- Every assignment is closed in its own text, and no text holds the lead. -/
inductive Proper (lead : Text) : Text → List Link → Prop where
  | last {first : Text} (free : ¬ lead <:+: first) : Proper lead first []
  | comment {first text : Text} {index : Nat} {more : List Link} (free : ¬ lead <:+: first)
      (rest : Proper lead text more) : Proper lead first (⟨.comment index, text⟩ :: more)
  | assignment {first name text : Text} {index : Nat} {quote : Quote} {more : List Link}
      (free : ¬ lead <:+: first)
      (ends : ∀ c ∈ first.getLast?, Assignment.isNameChar c = false) (named : name ≠ [])
      (unquoted : quote.char ∉ name) (name_free : ¬ lead <:+: name)
      (rest : Proper lead text more) :
      Proper lead first (⟨.assignment index quote, name ++ quote.char :: text⟩ :: more)

theorem Proper.of_suffix {first' : Text} (proper : Proper lead first links)
    (part : first' <:+ first) : Proper lead first' links := by
  cases proper with
  | last free => exact .last fun held => free (held.trans part.isInfix)
  | comment free rest => exact .comment (fun held => free (held.trans part.isInfix)) rest
  | assignment free ends named unquoted name_free rest =>
      exact .assignment (fun held => free (held.trans part.isInfix))
        (fun c last => ends c (Text.mem_getLast?_of_suffix part last)) named unquoted name_free rest

theorem free_trimEnd {s : Text} (free : ¬ lead <:+: s) : ¬ lead <:+: Text.trimEnd s :=
  fun held => free (held.trans (List.IsPrefix.isInfix ⟨_, Text.trimEnd_append s⟩))

/-- Trimming the last text keeps the assignments closed. -/
theorem Proper.trimLast (proper : Proper lead first links) :
    Proper lead first (trimLast links) := by
  induction proper with
  | last free => exact .last free
  | @comment first text index more free rest ih =>
      cases rest with
      | last free' => exact .comment free (.last (free_trimEnd free'))
      | comment => exact .comment free ih
      | assignment => exact .comment free ih
  | @assignment first name text index quote more free ends named unquoted name_free rest ih =>
      cases rest with
      | last free' =>
          have visible : Text.isBlank quote.char = false := by cases quote <;> rfl
          have trimmed := Text.trimEnd_append_cons visible name text
          have closed : Proper lead first
              [⟨.assignment index quote, name ++ quote.char :: Text.trimEnd text⟩] :=
            .assignment free ends named unquoted name_free (.last (free_trimEnd free'))
          rw [← trimmed] at closed
          exact closed
      | comment => exact .assignment free ends named unquoted name_free ih
      | assignment => exact .assignment free ends named unquoted name_free ih

/-- Trimming the whole keeps the assignments closed. -/
theorem Proper.trim (proper : Proper lead first links) :
    Proper lead (trimFirst first links) (Link.trimLast links) := by
  cases links with
  | nil =>
      cases proper with
      | last free =>
          refine .last (free_trimEnd fun held => free (held.trans ?_))
          exact (List.dropWhile_suffix _).isInfix
  | cons l more => exact proper.trimLast.of_suffix (List.dropWhile_suffix _)

/-! ## What a scan finds -/

/-- The markers told by the fronts and the texts: an assignment's name is what stands before its
quote in its own text. -/
def markers (first : Text) : List Link → List (Text × Marker) × Text
  | [] => ([], first)
  | ⟨.comment _, text⟩ :: more => ((first, .text) :: (markers text more).1, (markers text more).2)
  | ⟨.assignment _ quote, text⟩ :: more =>
      let (name, rest) := Text.splitRun (· != quote.char) text
      ((Text.trimEnd first, .attribute name quote) :: (markers rest.tail more).1,
        (markers rest.tail more).2)

theorem markers_assignment {name text : Text} {quote : Quote} (unquoted : quote.char ∉ name)
    (first : Text) (index : Nat) (more : List Link) :
    markers first (⟨.assignment index quote, name ++ quote.char :: text⟩ :: more) =
      ((Text.trimEnd first, .attribute name quote) :: (markers text more).1,
        (markers text more).2) := by
  simp only [markers, Text.splitRun_ne_append unquoted, List.tail_cons]

theorem join_assignment (lead first name text : Text) (index : Nat) (quote : Quote)
    (more : List Link) :
    join lead first (⟨.assignment index quote, name ++ quote.char :: text⟩ :: more) =
      first ++ (lead ++ Text.numeral index ++ '=' :: quote.char :: name ++ [quote.char]) ++
        join lead text more := by
  have parts : name ++ quote.char :: text = (name ++ [quote.char]) ++ text := by simp
  rw [join, parts, join_append]
  simp [Front.write, openAssignment]

/-- A scan finds these markers, whatever the lead. -/
theorem scan_join (plain : Plain lead) (proper : Proper lead first links) :
    scan lead (join lead first links) = markers first links := by
  induction proper with
  | last free => exact scan_of_free _ free
  | @comment first text index more free rest ih =>
      have placed : Placed lead ⟨first, Marker.comment lead index, .text⟩ :=
        .comment free (isIndex_numeral index)
      exact scan_append_of_placed plain placed ih
  | @assignment first name text index quote more free ends named unquoted name_free rest ih =>
      rw [markers_assignment unquoted, join_assignment]
      exact scan_append_assignment plain free ends (isIndex_numeral index) named unquoted ih

/-! ## Writing out -/

/-- The tag that is open behind a front: a comment closes any, an assignment none. -/
def openBehind (opened : Option Text) : Front → Option Text
  | .comment _ => none
  | .assignment _ _ => opened

/-- The texts written out, one after the other, with the tag that is open before them. -/
def closeLinks (opened : Option Text) : List Link → List Link
  | [] => []
  | l :: more =>
      ⟨l.front, (SelfClosing.close (openBehind opened l.front) l.text).1⟩ ::
        closeLinks (SelfClosing.close (openBehind opened l.front) l.text).2 more

/-- A comment stays as it is, and closes any open tag. -/
theorem close_comment (plain : Plain lead) (opened : Option Text) (index : Nat) :
    SelfClosing.close opened (Marker.comment lead index) = (Marker.comment lead index, none) := by
  have shape : Marker.comment lead index =
      (['<', '!', '-', '-'] ++ lead ++ Text.numeral index ++ ['-']) ++ ['-'] ++ '>' :: [] := by
    simp [Marker.comment]
  have free : '>' ∉ (['<', '!', '-', '-'] ++ lead ++ Text.numeral index ++ ['-']) ++ ['-'] := by
    have inLead : '>' ∉ lead := plain.not_mem (by simp)
    have inDigits : '>' ∉ Text.numeral index :=
      not_mem_of_isIndex (isIndex_numeral index) (by decide)
    simp [inLead, inDigits]
  have last : ((['<', '!', '-', '-'] ++ lead ++ Text.numeral index ++ ['-']) ++ ['-']).getLast? ≠
      some '/' := by
    rw [List.getLast?_concat]
    decide
  rw [shape, SelfClosing.close_append_bracket opened free, SelfClosing.shut_of_last_ne _ last,
    SelfClosing.close_of_free none List.not_mem_nil]
  simp [SelfClosing.tagName?]

theorem tagName?_of_free : ∀ {s : Text}, '<' ∉ s → SelfClosing.tagName? s = none
  | [], _ => rfl
  | c :: s, free => by
      rw [SelfClosing.tagName?, if_neg, tagName?_of_free fun member => free (by simp [member])]
      rintro ⟨rfl, -⟩
      exact free (List.mem_cons_self ..)

/-- The front of an assignment stays as it is, and so does an open tag. -/
theorem close_assignment (plain : Plain lead) (opened : Option Text) (index : Nat)
    (quote : Quote) :
    SelfClosing.close opened ((Front.assignment index quote).write lead) =
      ((Front.assignment index quote).write lead, opened) := by
  have free : '<' ∉ (Front.assignment index quote).write lead ∧
      '>' ∉ (Front.assignment index quote).write lead := by
    have inLead : '<' ∉ lead ∧ '>' ∉ lead := ⟨plain.not_mem (by simp), plain.not_mem (by simp)⟩
    have inDigits : '<' ∉ Text.numeral index ∧ '>' ∉ Text.numeral index :=
      ⟨not_mem_of_isIndex (isIndex_numeral index) (by decide),
        not_mem_of_isIndex (isIndex_numeral index) (by decide)⟩
    cases quote <;> simp [Front.write, openAssignment, inLead, inDigits, Quote.char]
  rw [SelfClosing.close_of_free opened free.2, tagName?_of_free free.1, Option.or_none]

/-- Nothing reaches across the end of a front. -/
theorem apart_write (lead : Text) (f : Front) (rest : Text) :
    SelfClosing.Apart (f.write lead) rest := by
  constructor
  · exact fun b last c _ => f.not_joint_last lead c b last
  · obtain ⟨w, c, ended, ends⟩ := f.exists_write_eq_append lead
    refine .inl fun b last => ?_
    obtain rfl : c = b := Text.eq_of_mem_getLast? ⟨w, ended.symm⟩ last
    exact (Front.of_mem_ends c ends).2.2

/-- Nothing reaches into a front behind a text that does not end in a name. -/
theorem apart_of_front (plain : Plain lead) {f : Front}
    (ends : f.quote?.isSome = true → ∀ c ∈ first.getLast?, Assignment.isNameChar c = false)
    (rest : Text) : SelfClosing.Apart first (f.write lead ++ rest) := by
  constructor
  · exact fun b _ => f.not_joint_head plain rest b
  · cases f with
    | comment index =>
        refine .inr fun d head => ?_
        obtain rfl : '<' = d := Option.some.inj head
        decide
    | assignment index quote =>
        refine .inl fun b last => ?_
        have stop := ends rfl b last
        constructor
        · rintro rfl
          exact absurd stop (by decide)
        · rw [← Bool.not_eq_true]
          intro name
          rw [isNameChar_of_isTagNameChar name] at stop
          exact nomatch stop

theorem close_write (plain : Plain lead) (opened : Option Text) (f : Front) :
    SelfClosing.close opened (f.write lead) = (f.write lead, openBehind opened f) := by
  cases f with
  | comment index => exact close_comment plain opened index
  | assignment index quote => exact close_assignment plain opened index quote

/-- A text with a front behind it is written out for itself. -/
theorem close_append_front (plain : Plain lead) (opened : Option Text) {f : Front}
    (ends : f.quote?.isSome = true → ∀ c ∈ first.getLast?, Assignment.isNameChar c = false)
    (rest : Text) :
    (SelfClosing.close opened (first ++ f.write lead ++ rest)).1 =
      (SelfClosing.close opened first).1 ++ f.write lead ++
        (SelfClosing.close (openBehind (SelfClosing.close opened first).2 f) rest).1 := by
  rw [List.append_assoc, SelfClosing.close_append opened (apart_of_front plain ends rest),
    SelfClosing.close_append _ (apart_write lead f rest), close_write plain, List.append_assoc]

/-- Nothing reaches across a quote. -/
theorem apart_quote (name : Text) (quote : Quote) (rest : Text) :
    SelfClosing.Apart (name ++ [quote.char]) rest := by
  constructor
  · intro b last c _
    obtain rfl : quote.char = b := by simpa using last
    cases quote <;> exact SelfClosing.not_joint_of_first (by decide) (by decide)
  · refine .inl fun b last => ?_
    obtain rfl : quote.char = b := by simpa using last
    cases quote <;> decide

theorem close_append_quote (opened : Option Text) (name : Text) (quote : Quote) (text : Text) :
    SelfClosing.close opened (name ++ quote.char :: text) =
      ((SelfClosing.close opened (name ++ [quote.char])).1 ++
          (SelfClosing.close (SelfClosing.close opened (name ++ [quote.char])).2 text).1,
        (SelfClosing.close (SelfClosing.close opened (name ++ [quote.char])).2 text).2) := by
  rw [← SelfClosing.close_append opened (apart_quote name quote text), List.append_assoc,
    List.singleton_append]

/-- Linked texts are written out text by text, whatever the lead. -/
theorem close_join (plain : Plain lead) (proper : Proper lead first links)
    (opened : Option Text) :
    (SelfClosing.close opened (join lead first links)).1 =
      join lead (SelfClosing.close opened first).1
        (closeLinks (SelfClosing.close opened first).2 links) := by
  induction proper generalizing opened with
  | last free => rfl
  | @comment first text index more free rest ih =>
      have noName : (Front.comment index).quote?.isSome = true →
          ∀ c ∈ first.getLast?, Assignment.isNameChar c = false := fun isSome => nomatch isSome
      rw [join, close_append_front plain opened noName, ih]
      rfl
  | @assignment first name text index quote more free ends named unquoted name_free rest ih =>
      have parts : join lead (name ++ quote.char :: text) more =
          (name ++ [quote.char]) ++ join lead text more := by
        rw [← join_append, List.append_assoc, List.singleton_append]
      have within (opened : Option Text) :
          (SelfClosing.close opened (join lead (name ++ quote.char :: text) more)).1 =
            join lead (SelfClosing.close opened (name ++ quote.char :: text)).1
              (closeLinks (SelfClosing.close opened (name ++ quote.char :: text)).2 more) := by
        rw [parts, close_append_quote opened name quote text, join_append, ← ih,
          SelfClosing.close_append opened (apart_quote name quote _)]
      rw [join, close_append_front plain opened fun _ => ends, within]
      rfl

/-! ## The texts stay proper -/

theorem namesTags_of_free {s : Text} (free : ¬ lead <:+: s) :
    SelfClosing.NamesTags (TagName lead) s := by
  intro name letter chars inside
  refine ⟨letter, chars, fun held => free (held.trans ?_)⟩
  exact (List.suffix_cons '<' name).isInfix.trans inside

/-- Written out, every assignment is still closed in its own text, and no text holds the lead. -/
theorem Proper.close (plain : Plain lead) (proper : Proper lead first links)
    {opened : Option Text} (good : ∀ name ∈ opened, TagName lead name) :
    Proper lead (SelfClosing.close opened first).1
      (closeLinks (SelfClosing.close opened first).2 links) := by
  induction proper generalizing opened with
  | last free =>
      obtain ⟨rewrites, -⟩ := SelfClosing.rewrites_close good (namesTags_of_free free)
      exact .last (free_of_rewrites plain rewrites free)
  | @comment first text index more free rest ih =>
      obtain ⟨rewrites, -⟩ := SelfClosing.rewrites_close good (namesTags_of_free free)
      exact .comment (free_of_rewrites plain rewrites free) (@ih none nofun)
  | @assignment first name text index quote more free ends named unquoted name_free rest ih =>
      obtain ⟨rewrites, good'⟩ := SelfClosing.rewrites_close good (namesTags_of_free free)
      have inLead : quote.char ∉ lead := (quote_not_mem_of_plain plain quote 0).1
      have quoted_free : ¬ lead <:+: name ++ [quote.char] := fun held => by
        rcases Text.infix_or_infix_of_not_mem inLead held with inName | none
        · exact name_free inName
        · exact plain.ne_nil (List.infix_nil.1 none)
      obtain ⟨within, good''⟩ := SelfClosing.rewrites_close good' (namesTags_of_free quoted_free)
      -- The quote stays, and the name before it is rewritten for itself.
      obtain ⟨name', back, split, inName, inQuote⟩ := within.append_inv <| by
        intro b _ c head
        obtain rfl : quote.char = c := Option.some.inj head
        cases quote <;> exact SelfClosing.not_joint_of_second (by decide) (by decide) (by decide)
      obtain rfl : back = [quote.char] := inQuote.eq_of_free fun inside => by
        have slash : '/' ∈ [quote.char] := inside.subset (by simp)
        cases quote <;> exact absurd slash (by decide)
      have more' := ih good''
      have ends' := rewrites.last (p := fun c => Assignment.isNameChar c = false) (by decide) ends
      have named' : name' ≠ [] := fun none => named (inName.eq_nil_iff.2 none)
      have unquoted' : quote.char ∉ name' := fun member =>
        unquoted ((quote_mem_iff (fun _ tag => tag.chars) inName quote).1 member)
      have written (rest : Text) : (SelfClosing.close (SelfClosing.close opened first).2
          (name ++ [quote.char])).1 ++ rest = name' ++ quote.char :: rest := by
        rw [split, List.append_assoc, List.singleton_append]
      rw [closeLinks, openBehind, close_append_quote]
      simp only [written]
      exact .assignment (free_of_rewrites plain rewrites free) ends' named' unquoted'
        (free_of_rewrites plain inName name_free) more'

end Link

end Stencil
