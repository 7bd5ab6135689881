/-
# Stencil.Proofs.Markup.Closing -- writing out from bracket to bracket

Writing out can be told from one closing bracket to the next.  All that a part of the text has to
know of what stands before it is the name of the tag that is still open, if there is one: the first
tag that has begun since the last closing bracket.  A slash right before the next closing bracket
then closes this tag, unless it is void (`SelfClosing.shut`).

`SelfClosing.close` goes over a part of a text with the name of the open tag, and
`writeOut_eq_close` says that with none it is writing out.  So a text may be written out in parts,
each with the tag that the part before it left open (`close_append`), wherever neither a change nor
a tag's name reaches across from one part into the next (`SelfClosing.Apart`).

Whatever is closed by an end tag is named like a tag of the text, or like the one that was open
before (`rewrites_close`), so writing out is a case of `SelfClosing.Rewrites`
(`rewrites_writeOut`).
-/
import Stencil.Proofs.Marker.Plain
import Stencil.Proofs.Markup.Assignment
import Stencil.Proofs.Markup.SelfClosing
import Stencil.Proofs.Text.Trim

set_option autoImplicit false

namespace Stencil

namespace Text

variable {s t : Text}

/-- Trimming goes no further than a character that is not blank. -/
theorem trimEnd_append_of_last (last : ∀ c ∈ s.getLast?, isBlank c = false) :
    trimEnd (s ++ t) = s ++ trimEnd t := by
  rcases List.eq_nil_or_concat s with rfl | ⟨s, c, rfl⟩
  · rfl
  · have visible : isBlank c = false := last c (by simp)
    rw [List.concat_eq_append, List.append_assoc, List.singleton_append,
      trimEnd_append_cons visible, List.append_assoc, List.singleton_append]

theorem trimEnd_append_of_visible (visible : ∃ c ∈ t, isBlank c = false) :
    trimEnd (s ++ t) = s ++ trimEnd t := by
  obtain ⟨c, member, visible⟩ := visible
  obtain ⟨front, back, rfl⟩ := List.append_of_mem member
  rw [← List.append_assoc, trimEnd_append_cons visible, trimEnd_append_cons visible,
    List.append_assoc]

end Text

namespace SelfClosing

/-! ## Up to a closing bracket -/

/-- The name of the first tag that begins in a text. -/
def tagName? : Text → Option Text
  | [] => none
  | c :: s =>
      if c = '<' ∧ s.head?.any Text.isLetter = true then some (s.takeWhile Text.isTagNameChar)
      else tagName? s

/-- A text up to a closing bracket, and the bracket.  A slash before the bracket closes the open
tag, unless the tag is void. -/
def shut (opened : Option Text) (segment : Text) : Text :=
  match opened with
  | none => segment ++ ['>']
  | some name =>
      if segment.getLast? = some '/' ∧ isVoid name = false then
        Text.trimEnd segment.dropLast ++ '>' :: '<' :: '/' :: (name ++ ['>'])
      else segment ++ ['>']

theorem isTagNameChar_of_isLetter {c : Char} (letter : Text.isLetter c = true) :
    Text.isTagNameChar c = true := by
  simp [Text.isTagNameChar, letter]

theorem isBlank_of_isTagNameChar {c : Char} (char : Text.isTagNameChar c = true) :
    Text.isBlank c = false :=
  Assignment.isBlank_of_isNameChar (Marker.isNameChar_of_isTagNameChar char)

theorem any_isLetter_takeWhile (s : Text) :
    (s.takeWhile Text.isTagNameChar).head?.any Text.isLetter = s.head?.any Text.isLetter := by
  cases s with
  | nil => rfl
  | cons c s =>
      by_cases letter : Text.isLetter c = true
      · rw [List.takeWhile_cons_of_pos (isTagNameChar_of_isLetter letter)]
        rfl
      · by_cases char : Text.isTagNameChar c = true
        · rw [List.takeWhile_cons_of_pos char]
          rfl
        · rw [List.takeWhile_cons_of_neg char]
          simp [letter]

theorem spec_of_tagName? : ∀ {s name : Text}, tagName? s = some name →
    name.head?.any Text.isLetter = true ∧ (∀ c ∈ name, Text.isTagNameChar c = true) ∧
      '<' :: name <:+: s
  | [], _, found => nomatch found
  | c :: s, name, found => by
      rw [tagName?] at found
      split at found
      · next begins =>
        obtain ⟨rfl, letter⟩ := begins
        obtain rfl := Option.some.inj found
        refine ⟨(any_isLetter_takeWhile s).trans letter, ?_, ?_⟩
        · exact (Text.splitRun_spec Text.isTagNameChar s).1
        · exact ((List.prefix_cons_inj '<').2 (List.takeWhile_prefix _)).isInfix
      · obtain ⟨letter, chars, inside⟩ := spec_of_tagName? found
        exact ⟨letter, chars, List.infix_cons inside⟩

theorem shut_of_last_ne {segment : Text} (opened : Option Text)
    (last : segment.getLast? ≠ some '/') : shut opened segment = segment ++ ['>'] := by
  cases opened with
  | none => rfl
  | some name => exact if_neg fun shuted => last shuted.1

/-- What stands before the last tag that can be closed stays. -/
theorem shut_cons (c : Char) (segment : Text) :
    shut (tagName? segment) (c :: segment) = c :: shut (tagName? segment) segment := by
  cases found : tagName? segment with
  | none => rfl
  | some name =>
      obtain ⟨-, -, inside⟩ := spec_of_tagName? found
      have bracket : '<' ∈ segment := inside.subset (List.mem_cons_self ..)
      rcases List.eq_nil_or_concat segment with rfl | ⟨front, d, rfl⟩
      · exact nomatch bracket
      · rw [List.concat_eq_append] at bracket ⊢
        by_cases slash : d = '/'
        · subst slash
          have before : ∃ b ∈ front, Text.isBlank b = false := by
            rcases List.mem_append.1 bracket with here | last
            · exact ⟨'<', here, by decide⟩
            · exact absurd (List.mem_singleton.1 last) (by decide)
          have kept : Text.trimEnd (c :: front) = c :: Text.trimEnd front :=
            Text.trimEnd_append_of_visible (s := [c]) before
          rw [← List.cons_append]
          simp only [shut, List.getLast?_concat, List.dropLast_concat, kept]
          split <;> rfl
        · have last (s : Text) : (s ++ [d]).getLast? ≠ some '/' := by simpa using slash
          rw [shut_of_last_ne _ (last front), ← List.cons_append, shut_of_last_ne _ (last _)]
          rfl

/-! ## Writing out up to a closing bracket -/

variable {s rest segment : Text}

theorem read?_of_free (free : '>' ∉ s) : read? s = none := by
  cases found : read? s with
  | none => rfl
  | some element =>
      obtain ⟨e, rest⟩ := element
      obtain ⟨rfl, -⟩ := append_of_read? found
      exact absurd (by simp) free

theorem writeOut_of_free : ∀ {s : Text}, '>' ∉ s → writeOut s = s
  | [], _ => writeOut_nil
  | c :: s, free => by
      rw [writeOut_of_read?_none (read?_of_free free),
        writeOut_of_free fun inside => free (List.mem_cons_of_mem c inside)]

/-- What is read at an opening bracket with the closing bracket behind it. -/
theorem read?_append_bracket (free : '>' ∉ segment) (rest : Text) :
    read? ('<' :: (segment ++ '>' :: rest)) =
      if segment.head?.any Text.isLetter = true ∧
          (segment.dropWhile Text.isTagNameChar).getLast? = some '/' then
        some (⟨segment.takeWhile Text.isTagNameChar,
          (segment.dropWhile Text.isTagNameChar).dropLast⟩, rest)
      else none := by
  simp only [read?, Text.splitRun_ne_append free]
  simp only [Text.splitRun, any_isLetter_takeWhile, Bool.and_eq_true, beq_iff_eq]

/-- Up to the next closing bracket, writing out closes the tag that a slash before it closes. -/
theorem writeOut_append_bracket : ∀ {segment : Text}, '>' ∉ segment → ∀ rest : Text,
    writeOut (segment ++ '>' :: rest) = shut (tagName? segment) segment ++ writeOut rest
  | [], _, rest => by
      have none : read? ('>' :: rest) = none := rfl
      rw [List.nil_append, writeOut_of_read?_none none]
      rfl
  | c :: s, free, rest => by
      have free' : '>' ∉ s := fun inside => free (List.mem_cons_of_mem c inside)
      have behind := writeOut_append_bracket free' rest
      rw [List.cons_append]
      by_cases begins : c = '<' ∧ s.head?.any Text.isLetter = true
      · have named : tagName? (c :: s) = some (s.takeWhile Text.isTagNameChar) := if_pos begins
        obtain ⟨rfl, letter⟩ := begins
        have parts : s.takeWhile Text.isTagNameChar ++ s.dropWhile Text.isTagNameChar = s :=
          List.takeWhile_append_dropWhile
        have chars : ∀ d ∈ s.takeWhile Text.isTagNameChar, Text.isTagNameChar d = true :=
          (Text.splitRun_spec Text.isTagNameChar s).1
        have read := read?_append_bracket free' rest
        rw [named]
        generalize s.takeWhile Text.isTagNameChar = name at parts chars read
        generalize s.dropWhile Text.isTagNameChar = inner at parts read
        by_cases slash : inner.getLast? = some '/'
        · rw [if_pos ⟨letter, slash⟩] at read
          obtain ⟨attributes, rfl⟩ := List.getLast?_eq_some_iff.1 slash
          rw [List.dropLast_concat] at read
          rw [writeOut_of_read?_some read, ← parts, ← List.append_assoc, ← List.cons_append]
          have last : ∀ d ∈ ('<' :: name).getLast?, Text.isBlank d = false := by
            intro d final
            rcases List.mem_cons.1 (List.mem_of_getLast? final) with rfl | member
            · decide
            · exact isBlank_of_isTagNameChar (chars d member)
          have trimmed := Text.trimEnd_append_of_last (t := attributes) last
          simp only [shut, List.getLast?_concat, List.dropLast_concat, true_and, write]
          cases isVoid name with
          | true => simp
          | false => simp [← trimmed]
        · rw [if_neg fun both => slash both.2] at read
          have last : ('<' :: s).getLast? ≠ some '/' := by
            rw [← parts]
            rcases List.eq_nil_or_concat inner with rfl | ⟨inner, d, rfl⟩
            · intro final
              rw [List.append_nil] at final
              rcases List.mem_cons.1 (List.mem_of_getLast? final) with same | member
              · exact absurd same (by decide)
              · exact absurd (chars _ member) (by decide)
            · intro final
              have same : d = '/' := Text.eq_of_mem_getLast? ⟨'<' :: (name ++ inner), by simp⟩ final
              exact slash (by simp [same])
          have last' : s.getLast? ≠ some '/' := fun final =>
            last (Text.mem_getLast?_of_suffix (List.suffix_cons '<' s) final)
          rw [writeOut_of_read?_none read, behind, shut_of_last_ne _ last,
            shut_of_last_ne _ last']
          rfl
      · have named : tagName? (c :: s) = tagName? s := if_neg begins
        have read : read? (c :: (s ++ '>' :: rest)) = none := by
          by_cases bracket : c = '<'
          · subst bracket
            rw [read?_append_bracket free', if_neg fun both => begins ⟨rfl, both.1⟩]
          · unfold read?
            split
            · next same => exact absurd (List.cons.inj same).1 bracket
            · rfl
        rw [writeOut_of_read?_none read, behind, named, shut_cons]
        rfl

/-! ## A part of a text -/

/-- Writes out a part of a text, given the name of the tag that is open before it, and tells the
name of the tag that is open behind it. -/
def close (opened : Option Text) (s : Text) : Text × Option Text :=
  match _h : Text.splitRun (· != '>') s with
  | (segment, []) => (segment, opened.or (tagName? segment))
  | (segment, _ :: rest) =>
      (shut (opened.or (tagName? segment)) segment ++ (close none rest).1, (close none rest).2)
termination_by s.length
decreasing_by
  all_goals
    have parts := Text.splitRun_append (· != '>') s
    rw [_h] at parts
    rw [← parts, List.length_append, List.length_cons]
    omega

theorem close_of_free (opened : Option Text) (free : '>' ∉ s) :
    close opened s = (s, opened.or (tagName? s)) := by
  have run : Text.splitRun (· != '>') (s ++ []) = (s, []) :=
    Text.splitRun_append_of_all (Text.all_ne_iff.2 free) (by simp)
  rw [List.append_nil] at run
  unfold close
  split
  · next split =>
    obtain ⟨rfl, -⟩ := Prod.mk.inj (run.symm.trans split)
    rfl
  · next split => exact nomatch (Prod.mk.inj (run.symm.trans split)).2

theorem close_append_bracket (opened : Option Text) (free : '>' ∉ segment) (rest : Text) :
    close opened (segment ++ '>' :: rest) =
      (shut (opened.or (tagName? segment)) segment ++ (close none rest).1,
        (close none rest).2) := by
  have run := Text.splitRun_ne_append free rest
  rw [close]
  split
  · next split => exact nomatch (Prod.mk.inj (run.symm.trans split)).2
  · next split =>
    obtain ⟨rfl, same⟩ := Prod.mk.inj (run.symm.trans split)
    obtain ⟨-, rfl⟩ := List.cons.inj same
    rfl

/-- A text has no closing bracket, or goes on behind its first. -/
theorem bracket_induction {motive : Text → Prop} (free : ∀ s, '>' ∉ s → motive s)
    (bracket : ∀ segment rest, '>' ∉ segment → motive rest → motive (segment ++ '>' :: rest))
    (s : Text) : motive s := by
  by_cases inside : '>' ∈ s
  · obtain ⟨segment, rest, split, free'⟩ := List.eq_append_cons_of_mem inside
    have shorter : rest.length < s.length := by
      rw [split, List.length_append, List.length_cons]
      omega
    rw [split]
    exact bracket segment rest free' (bracket_induction free bracket rest)
  · exact free s inside
termination_by s.length

/-- Writing out is going over the text with no tag open. -/
theorem writeOut_eq_close (s : Text) : writeOut s = (close none s).1 := by
  induction s using bracket_induction with
  | free s free => rw [writeOut_of_free free, close_of_free none free]
  | bracket segment rest free behind =>
      rw [writeOut_append_bracket free, close_append_bracket none free, behind, Option.none_or]

/-! ## One part after the other -/

/-- Neither a change nor a tag's name reaches from one part of a text into the next. -/
structure Apart (s r : Text) : Prop where
  change : ∀ b ∈ s.getLast?, ∀ c ∈ r.head?, ¬ Joint b c
  name : (∀ b ∈ s.getLast?, b ≠ '<' ∧ Text.isTagNameChar b = false) ∨
    ∀ c ∈ r.head?, Text.isTagNameChar c = false

theorem Apart.of_suffix {s' r : Text} (apart : Apart s r) (part : s' <:+ s) : Apart s' r where
  change b last := apart.change b (Text.mem_getLast?_of_suffix part last)
  name := apart.name.imp_left fun no b last => no b (Text.mem_getLast?_of_suffix part last)

theorem Apart.of_prefix {r' r : Text} (apart : Apart s r) (part : r' <+: r) : Apart s r' where
  change b last c first := by
    obtain ⟨more, rfl⟩ := part
    exact apart.change b last c (List.mem_head?_append_of_mem_head? first)
  name := apart.name.imp_right fun no c first => by
    obtain ⟨more, rfl⟩ := part
    exact no c (List.mem_head?_append_of_mem_head? first)

theorem takeWhile_append_of_stop {p : Char → Bool} {s r : Text} (ne : s ≠ [])
    (stop : (∀ b ∈ s.getLast?, p b = false) ∨ ∀ c ∈ r.head?, p c = false) :
    (s ++ r).takeWhile p = s.takeWhile p := by
  rw [List.takeWhile_append]
  split
  · next all =>
    have whole : s.takeWhile p = s := (List.takeWhile_prefix p).eq_of_length all
    rw [whole]
    rcases stop with last | first
    · obtain ⟨s, b, rfl⟩ := (List.eq_nil_or_concat s).resolve_left ne
      have member : b ∈ (s.concat b).takeWhile p := by
        rw [whole]
        simp
      have char : p b = true := List.all_eq_true.1 List.all_takeWhile b member
      rw [last b (by simp)] at char
      exact nomatch char
    · have none : r.takeWhile p = [] := by
        cases r with
        | nil => rfl
        | cons c r => exact List.takeWhile_cons_of_neg (by simp [first c rfl])
      rw [none, List.append_nil]
  · rfl

/-- The first tag begins in the one part, or else in the other. -/
theorem tagName?_append : ∀ {s r : Text}, Apart s r →
    tagName? (s ++ r) = (tagName? s).or (tagName? r)
  | [], _, _ => (Option.none_or ..).symm
  | c :: s, r, apart => by
      have behind := tagName?_append (apart.of_suffix (List.suffix_cons c s))
      by_cases begins : c = '<' ∧ (s ++ r).head?.any Text.isLetter = true
      · obtain ⟨rfl, letter⟩ := begins
        cases s with
        | nil =>
            -- The letter behind the bracket would belong to a tag's name in the next part.
            obtain ⟨d, first, letter⟩ := (Option.any_eq_true ..).1 letter
            rcases apart.name with last | stop
            · exact absurd rfl (last '<' rfl).1
            · exact absurd (isTagNameChar_of_isLetter letter) (by simp [stop d first])
        | cons d s =>
            have stop : (∀ b ∈ (d :: s).getLast?, Text.isTagNameChar b = false) ∨
                ∀ c ∈ r.head?, Text.isTagNameChar c = false :=
              apart.name.imp_left fun no b last =>
                (no b (Text.mem_getLast?_of_suffix (List.suffix_cons _ _) last)).2
            have whole := takeWhile_append_of_stop (List.cons_ne_nil d s) stop
            have first : tagName? ('<' :: (d :: s ++ r)) = some _ := if_pos ⟨rfl, letter⟩
            have alone : tagName? ('<' :: d :: s) = some _ := if_pos ⟨rfl, letter⟩
            rw [List.cons_append, first, alone, whole, Option.some_or]
      · have alone : tagName? (c :: s) = tagName? s := by
          refine if_neg fun begins' => begins ⟨begins'.1, ?_⟩
          cases s with
          | nil => exact nomatch begins'.2
          | cons d s => exact begins'.2
        have both : tagName? (c :: (s ++ r)) = tagName? (s ++ r) := if_neg begins
        rw [List.cons_append, both, behind, alone]

/-- What stands in front of the part that ends in a slash stays. -/
theorem shut_append (opened : Option Text) {s r : Text}
    (apart : ∀ b ∈ s.getLast?, ∀ c ∈ (r ++ ['>']).head?, ¬ Joint b c) :
    shut opened (s ++ r) = s ++ shut opened r := by
  rcases List.eq_nil_or_concat r with rfl | ⟨r, d, rfl⟩
  · have last : s.getLast? ≠ some '/' := fun slash => apart '/' slash '>' rfl (.inr ⟨rfl, rfl⟩)
    rw [List.append_nil, shut_of_last_ne opened last, shut_of_last_ne opened (by simp)]
    rfl
  · rw [List.concat_eq_append] at apart ⊢
    by_cases slash : d = '/'
    · subst slash
      have trimmed : Text.trimEnd (s ++ r) = s ++ Text.trimEnd r := by
        by_cases blank : ∃ b ∈ s.getLast?, Text.isBlank b = true
        · obtain ⟨b, last, blank⟩ := blank
          cases r with
          | nil => exact absurd (.inl ⟨blank, .inr rfl⟩) (apart b last '/' rfl)
          | cons c r =>
              refine Text.trimEnd_append_of_visible ⟨c, List.mem_cons_self .., ?_⟩
              rw [← Bool.not_eq_true]
              exact fun blank' => apart b last c rfl (.inl ⟨blank, .inl blank'⟩)
        · refine Text.trimEnd_append_of_last fun b last => ?_
          rw [← Bool.not_eq_true]
          exact fun blank' => blank ⟨b, last, blank'⟩
      cases opened with
      | none => simp [shut]
      | some name =>
          rw [← List.append_assoc]
          simp only [shut, List.getLast?_concat, List.dropLast_concat, trimmed]
          split <;> simp
    · have last (s : Text) : (s ++ [d]).getLast? ≠ some '/' := by simpa using slash
      rw [← List.append_assoc, shut_of_last_ne _ (last _), shut_of_last_ne _ (last _)]
      simp

/-- The parts are written out one after the other. -/
theorem close_append (opened : Option Text) {s r : Text} (apart : Apart s r) :
    close opened (s ++ r) =
      ((close opened s).1 ++ (close (close opened s).2 r).1, (close (close opened s).2 r).2) := by
  induction s using bracket_induction generalizing opened with
  | bracket segment rest free ih =>
      have behind := ih none (apart.of_suffix ⟨segment ++ ['>'], by simp⟩)
      rw [List.append_assoc, List.cons_append, close_append_bracket opened free, behind,
        close_append_bracket opened free, List.append_assoc]
  | free s bracket =>
      rw [close_of_free opened bracket]
      by_cases behind : '>' ∈ r
      · obtain ⟨segment, rest, rfl, free⟩ := List.eq_append_cons_of_mem behind
        have front : segment ++ ['>'] <+: segment ++ '>' :: rest := ⟨rest, by simp⟩
        have free' : '>' ∉ s ++ segment := by simp [bracket, free]
        have tags := tagName?_append
          (apart.of_prefix ((List.prefix_append segment ['>']).trans front))
        rw [← List.append_assoc, close_append_bracket opened free', close_append_bracket _ free,
          tags, shut_append _ (apart.of_prefix front).change, List.append_assoc, Option.or_assoc]
      · have free : '>' ∉ s ++ r := by simp [bracket, behind]
        rw [close_of_free opened free, close_of_free _ behind, tagName?_append apart,
          Option.or_assoc]

/-! ## What closing changes -/

variable {named : Text → Prop}

theorem rewrites_shut {opened : Option Text} (good : ∀ name ∈ opened, named name) {t : Text}
    (more : Rewrites named rest t) (segment : Text) :
    Rewrites named (segment ++ '>' :: rest) (shut opened segment ++ t) := by
  have kept : Rewrites named (segment ++ '>' :: rest) ((segment ++ ['>']) ++ t) := by
    have whole := more.append_left (segment ++ ['>'])
    rwa [List.append_assoc, List.singleton_append] at whole
  cases opened with
  | none => exact kept
  | some name =>
      rw [shut]
      split
      · next sealed =>
        obtain ⟨front, rfl⟩ := List.getLast?_eq_some_iff.1 sealed.1
        obtain ⟨blanks, whole, blank, -⟩ := Text.exists_trimEnd_append front
        have closed := (Rewrites.close blank (good name rfl) more).append_left (Text.trimEnd front)
        have spread : front ++ ['/'] ++ '>' :: rest =
            Text.trimEnd front ++ (blanks ++ '/' :: '>' :: rest) := by
          rw [← List.append_assoc (Text.trimEnd front), ← whole]
          simp
        rw [spread, List.dropLast_concat]
        simpa using closed
      · exact kept

/-- A property of the names of all tags in a text. -/
def NamesTags (named : Text → Prop) (s : Text) : Prop :=
  ∀ name : Text, name.head?.any Text.isLetter = true →
    (∀ c ∈ name, Text.isTagNameChar c = true) → '<' :: name <:+: s → named name

theorem NamesTags.of_infix {s' : Text} (begun : NamesTags named s) (part : s' <:+: s) :
    NamesTags named s' :=
  fun name letter chars inside => begun name letter chars (inside.trans part)

theorem NamesTags.or_tagName? {opened : Option Text} (good : ∀ name ∈ opened, named name)
    (begun : NamesTags named s) : ∀ name ∈ opened.or (tagName? s), named name := by
  cases opened with
  | some name => exact good
  | none =>
      intro name found
      obtain ⟨letter, chars, inside⟩ := spec_of_tagName? found
      exact begun name letter chars inside

/-- A part is rewritten with the names of tags that are open before it or begin in it. -/
theorem rewrites_close {opened : Option Text} (good : ∀ name ∈ opened, named name)
    (begun : NamesTags named s) :
    Rewrites named s (close opened s).1 ∧ ∀ name ∈ (close opened s).2, named name := by
  induction s using bracket_induction generalizing opened with
  | free s free =>
      rw [close_of_free opened free]
      exact ⟨.refl s, begun.or_tagName? good⟩
  | bracket segment rest free ih =>
      have first := begun.of_infix (List.prefix_append segment ('>' :: rest)).isInfix
      have behind : rest <:+ segment ++ '>' :: rest := ⟨segment ++ ['>'], by simp⟩
      obtain ⟨more, last⟩ := @ih none nofun (begun.of_infix behind.isInfix)
      rw [close_append_bracket opened free]
      exact ⟨rewrites_shut (first.or_tagName? good) more segment, last⟩

/-- Writing out closes elements by end tags, each with the name of a tag in the text. -/
theorem rewrites_writeOut (begun : NamesTags named s) : Rewrites named s (writeOut s) := by
  rw [writeOut_eq_close]
  exact (rewrites_close nofun begun).1

end SelfClosing

end Stencil
