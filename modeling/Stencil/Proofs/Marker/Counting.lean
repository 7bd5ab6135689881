/-
# Stencil.Proofs.Marker.Counting -- how many markers a scan finds, whatever the lead

Texts are linked by the fronts of markers with a plain lead.  How many markers a scan finds in them
does not depend on the lead, nor on much of the texts: a comment is always found, and an assignment
is found if its quote occurs again, in its own text or in a later one or as the quote of a later
assignment.  Behind the closing quote the scan goes on, so the fronts before it are lost in the name
(`Marker.behind?`).  `Marker.found` is this count, for the fronts and the quotes in the texts alone
(`Link.Shape`), and `Link.count_join` says that it is what a scan finds.

It is at most the number of the fronts, and if it is as large, every assignment is closed in its own
text (`Marker.closes_of_found`).
-/
import Stencil.Proofs.Marker.Links
import Stencil.Proofs.Marker.Quiet

set_option autoImplicit false

namespace Stencil

/-! ## The count of the fronts -/

/-- What the count of markers depends on: the quote that a front opens, if it is an assignment, and
the quotes that occur in the text behind it. -/
structure Link.Shape where
  quote : Option Quote
  closes : Quote → Bool

def Marker.Front.quote? : Front → Option Quote
  | .comment _ => none
  | .assignment _ quote => some quote

theorem Marker.Front.eq_assignment_of_quote? {f : Front} {quote : Quote}
    (opens : f.quote? = some quote) : ∃ index, f = .assignment index quote := by
  cases f with
  | comment index => exact nomatch opens
  | assignment index quote' =>
      obtain rfl : quote' = quote := Option.some.inj opens
      exact ⟨index, rfl⟩

theorem Marker.Front.eq_comment_of_quote? {f : Front} (opens : f.quote? = none) :
    ∃ index, f = .comment index := by
  cases f with
  | comment index => exact ⟨index, rfl⟩
  | assignment index quote => exact nomatch opens

namespace Marker

variable {lead s : Text}

/-- The quotes in a text. -/
def quotesIn (s : Text) (quote : Quote) : Bool := s.contains quote.char

theorem quotesIn_eq_true_iff {quote : Quote} : quotesIn s quote = true ↔ quote.char ∈ s :=
  List.contains_iff_mem

theorem quotesIn_eq_false {quote : Quote} {s : Text} (free : quote.char ∉ s) :
    quotesIn s quote = false := by
  rw [← Bool.not_eq_true, quotesIn_eq_true_iff]
  exact free

/-- The links that are left behind the next of a quote, in a text with certain quotes, in one behind
it or at the front of an assignment. -/
def behind? (quote : Quote) : (closes : Quote → Bool) → List Link.Shape → Option (List Link.Shape)
  | closes, [] => if closes quote then some [] else none
  | closes, l :: more =>
      if closes quote then some (l :: more)
      else if l.quote = some quote then some more
      else behind? quote l.closes more

theorem suffix_of_behind? {quote : Quote} :
    ∀ {closes : Quote → Bool} {links rest : List Link.Shape},
      behind? quote closes links = some rest → rest <:+ links
  | closes, [], rest, h => by
      rw [behind?] at h
      split at h
      · obtain rfl := Option.some.inj h
        exact List.suffix_refl _
      · exact nomatch h
  | closes, l :: more, rest, h => by
      rw [behind?] at h
      split at h
      · obtain rfl := Option.some.inj h
        exact List.suffix_refl _
      · split at h
        · obtain rfl := Option.some.inj h
          exact List.suffix_cons l more
        · exact (suffix_of_behind? h).trans (List.suffix_cons l more)

/-- How many of the fronts make a marker that is found. -/
def found : List Link.Shape → Nat
  | [] => 0
  | l :: more =>
      match l.quote with
      | none => found more + 1
      | some quote =>
          match _closed : behind? quote l.closes more with
          | some rest => found rest + 1
          | none => found more
termination_by links => links.length
decreasing_by
  · simp
  · have := (suffix_of_behind? _closed).length_le
    simp only [List.length_cons]
    omega
  · simp

theorem found_cons_comment {l : Link.Shape} (comment : l.quote = none) (more : List Link.Shape) :
    found (l :: more) = found more + 1 := by
  rw [found, comment]

theorem found_cons_closed {l : Link.Shape} {quote : Quote} {more rest : List Link.Shape}
    (opens : l.quote = some quote) (closed : behind? quote l.closes more = some rest) :
    found (l :: more) = found rest + 1 := by
  rw [found, opens]
  simp only
  split
  · next rest' closed' => rw [Option.some.inj (closed.symm.trans closed')]
  · next unclosed => exact nomatch closed.symm.trans unclosed

theorem found_cons_unclosed {l : Link.Shape} {quote : Quote} {more : List Link.Shape}
    (opens : l.quote = some quote) (unclosed : behind? quote l.closes more = none) :
    found (l :: more) = found more := by
  rw [found, opens]
  simp only
  split
  · next rest' closed' => exact nomatch unclosed.symm.trans closed'
  · rfl

/-- No more markers are found than there are fronts. -/
theorem found_le : ∀ links : List Link.Shape, found links ≤ links.length
  | [] => by simp [found]
  | l :: more => by
      have whole := found_le more
      cases opens : l.quote with
      | none =>
          rw [found_cons_comment opens, List.length_cons]
          omega
      | some quote =>
          cases closed : behind? quote l.closes more with
          | none =>
              rw [found_cons_unclosed opens closed, List.length_cons]
              omega
          | some rest =>
              have shorter := (suffix_of_behind? closed).length_le
              have part := found_le rest
              rw [found_cons_closed opens closed, List.length_cons]
              omega
termination_by links => links.length
decreasing_by
  · simp
  · simp only [List.length_cons]
    omega

/-- A quote that is closed later only takes a front with it. -/
theorem length_lt_of_behind? {quote : Quote} {closes : Quote → Bool}
    (open_ : closes quote = false) :
    ∀ {links rest : List Link.Shape}, behind? quote closes links = some rest →
      rest.length < links.length
  | [], rest, h => by simp [behind?, open_] at h
  | l :: more, rest, h => by
      rw [behind?, open_, if_neg Bool.false_ne_true] at h
      split at h
      · obtain rfl := Option.some.inj h
        exact Nat.lt_succ_self _
      · exact Nat.lt_succ_of_le (suffix_of_behind? h).length_le

/-- If all are found, every assignment is closed in its own text. -/
theorem closes_of_found : ∀ {links : List Link.Shape}, found links = links.length →
    ∀ l ∈ links, ∀ quote, l.quote = some quote → l.closes quote = true
  | [], _, l, member => absurd member List.not_mem_nil
  | l :: more, all, l', member => by
      have bound := found_le more
      cases opens : l.quote with
      | none =>
          rw [found_cons_comment opens, List.length_cons] at all
          intro quote opens'
          rcases List.mem_cons.1 member with rfl | member
          · exact nomatch opens.symm.trans opens'
          · exact closes_of_found (Nat.succ.inj all) l' member quote opens'
      | some quote =>
          by_cases own : l.closes quote = true
          · have closed : behind? quote l.closes more = some more := by
              cases more <;> simp [behind?, own]
            rw [found_cons_closed opens closed, List.length_cons] at all
            intro quote' opens'
            rcases List.mem_cons.1 member with rfl | member
            · obtain rfl := Option.some.inj (opens.symm.trans opens')
              exact own
            · exact closes_of_found (Nat.succ.inj all) l' member quote' opens'
          · -- The front is lost, or one that stands before the closing quote.
            have own' : l.closes quote = false := Bool.not_eq_true _ ▸ own
            cases closed : behind? quote l.closes more with
            | none =>
                rw [found_cons_unclosed opens closed, List.length_cons] at all
                omega
            | some rest =>
                have shorter := length_lt_of_behind? own' closed
                have part := found_le rest
                rw [found_cons_closed opens closed, List.length_cons] at all
                omega

/-- If every assignment is closed in its own text, all are found. -/
theorem found_of_closes : ∀ {links : List Link.Shape},
    (∀ l ∈ links, ∀ quote, l.quote = some quote → l.closes quote = true) →
      found links = links.length
  | [], _ => by simp [found]
  | l :: more, closes => by
      obtain ⟨here, others⟩ := List.forall_mem_cons.1 closes
      have rest := found_of_closes others
      cases opens : l.quote with
      | none => rw [found_cons_comment opens, rest, List.length_cons]
      | some quote =>
          have own := here quote opens
          have closed : behind? quote l.closes more = some more := by
            cases more <;> simp [behind?, own]
          rw [found_cons_closed opens closed, rest, List.length_cons]

theorem quote_not_mem_of_plain (plain : Plain lead) (quote : Quote) (index : Nat) :
    quote.char ∉ lead ∧ quote.char ∉ Text.numeral index := by
  constructor
  · apply plain.not_mem
    cases quote <;> decide
  · refine not_mem_of_isIndex (isIndex_numeral index) ?_
    cases quote <;> decide

/-- The front of an assignment has no quote before the one that it opens. -/
theorem exists_write_assignment (plain : Plain lead) (index : Nat) (quote : Quote) :
    ∃ w, (Front.assignment index quote).write lead = w ++ [quote.char] ∧
      ∀ quote' : Quote, quote'.char ∉ w := by
  refine ⟨lead ++ Text.numeral index ++ ['='], by simp [Front.write, openAssignment], ?_⟩
  intro quote'
  obtain ⟨inLead, inDigits⟩ := quote_not_mem_of_plain plain quote' index
  have sign : quote'.char ≠ '=' := by cases quote' <;> decide
  simp [inLead, inDigits, sign]

/-- Only an assignment holds a quote, the one that it opens. -/
theorem Front.quote_not_mem_write (plain : Plain lead) {f : Front} {quote : Quote}
    (other : f.quote? ≠ some quote) : quote.char ∉ f.write lead := by
  cases f with
  | comment index =>
      obtain ⟨inLead, inDigits⟩ := quote_not_mem_of_plain plain quote index
      have outside : quote.char ∉ ['<', '!', '-', '-', '>'] := by cases quote <;> decide
      simp only [List.mem_cons, List.not_mem_nil, or_false, not_or] at outside
      simp [Front.write, Marker.comment, inLead, inDigits, outside]
  | assignment index quote' =>
      have differs : quote.char ≠ quote'.char := by
        cases quote <;> cases quote' <;> first | decide | exact absurd rfl other
      obtain ⟨w, written, free⟩ := exists_write_assignment plain index quote'
      simp [written, free quote, differs]

theorem quotedName?_of_not_mem {quote : Quote} {rest : Text} (free : quote.char ∉ rest) :
    quotedName? (quote.char :: rest) = none := by
  cases read : quotedName? (quote.char :: rest) with
  | none => rfl
  | some found =>
      obtain ⟨m, more⟩ := found
      obtain ⟨name, quote', -, -, -, same⟩ := eq_append_of_quotedName? read
      obtain ⟨opening, behind⟩ := List.cons.inj same
      exact absurd (by simp [behind, opening]) free

end Marker

namespace Link

open Marker

variable {lead : Text}

def shape (l : Link) : Shape := ⟨l.front.quote?, quotesIn l.text⟩

/-- The text makes no marker, and behind an assignment it begins with the name. -/
structure Ready (lead : Text) (l : Link) : Prop where
  quiet : Quiet lead l.text
  begins : l.front.quote?.isSome = true →
    ∃ c s, l.text = c :: s ∧ c ∉ ['"', '\''] ∧ Text.isBlank c = false

theorem join_append (lead s t : Text) (links : List Link) :
    join lead (s ++ t) links = s ++ join lead t links := by
  cases links with
  | nil => rfl
  | cons l more => simp [join]

theorem exists_join_eq_cons {first s : Text} {c : Char} (begins : first = c :: s)
    (links : List Link) : ∃ rest, join lead first links = c :: rest := by
  rw [begins, show c :: s = [c] ++ s from rfl, join_append]
  exact ⟨_, rfl⟩

/-- What is left behind the next of a quote is linked text again. -/
theorem exists_of_behind? (plain : Plain lead) {quote : Quote} :
    ∀ {links : List Link} {first : Text} {rest : List Shape}, Quiet lead first →
      (∀ l ∈ links, l.Ready lead) →
      behind? quote (quotesIn first) (links.map shape) = some rest →
      ∃ (name text : Text) (more : List Link),
        join lead first links = name ++ quote.char :: join lead text more ∧
          quote.char ∉ name ∧ Quiet lead text ∧ more <:+ links ∧ more.map shape = rest
  | links, first, rest, quiet, ready, closed => by
      by_cases own : quote.char ∈ first
      · obtain ⟨name, text, rfl, free⟩ := List.eq_append_cons_of_mem own
        have inside : text <:+: name ++ quote.char :: text := ⟨name ++ [quote.char], [], by simp⟩
        have left : rest = links.map shape := by
          have here := quotesIn_eq_true_iff.2 own
          cases links with
          | nil => simpa [behind?, here] using closed.symm
          | cons l more => simpa [behind?, here] using closed.symm
        refine ⟨name, text, links, ?_, free, quiet.of_infix inside, List.suffix_refl _, left.symm⟩
        rw [join_append, ← List.singleton_append, join_append, List.singleton_append]
      · have absent := quotesIn_eq_false own
        cases links with
        | nil => simp [behind?, absent] at closed
        | cons l more =>
            obtain ⟨here, others⟩ := List.forall_mem_cons.1 ready
            rw [List.map_cons, behind?, absent, if_neg Bool.false_ne_true] at closed
            by_cases opens : l.front.quote? = some quote
            · rw [shape, if_pos opens] at closed
              obtain ⟨index, front⟩ := Front.eq_assignment_of_quote? opens
              obtain ⟨w, written, free⟩ := exists_write_assignment plain index quote
              refine ⟨first ++ w, l.text, more, ?_, ?_, here.quiet, List.suffix_cons l more,
                Option.some.inj closed⟩
              · simp [join, front, written]
              · simp [own, free quote]
            · rw [shape, if_neg opens] at closed
              obtain ⟨name, text, more', joined, free, quiet', part, left⟩ :=
                exists_of_behind? plain here.quiet others closed
              refine ⟨first ++ l.front.write lead ++ name, text, more', ?_, ?_, quiet',
                part.trans (List.suffix_cons l more), left⟩
              · simp [join, joined]
              · have inFront := Front.quote_not_mem_write plain opens
                simp [own, inFront, free]

/-- Where nothing is left, the quote does not occur. -/
theorem not_mem_of_behind? (plain : Plain lead) {quote : Quote} :
    ∀ {links : List Link} {first : Text},
      behind? quote (quotesIn first) (links.map shape) = none →
        quote.char ∉ join lead first links
  | [], first, unclosed => by
      intro member
      have own : quotesIn first quote = true := quotesIn_eq_true_iff.2 member
      simp [behind?, own] at unclosed
  | l :: more, first, unclosed => by
      rw [List.map_cons, behind?] at unclosed
      split at unclosed
      · exact nomatch unclosed
      · next own =>
        rw [quotesIn_eq_true_iff] at own
        split at unclosed
        · exact nomatch unclosed
        · next opens =>
          have inFront := Front.quote_not_mem_write plain opens
          have behind := not_mem_of_behind? plain unclosed
          simp [join, own, inFront, behind]

/-- A scan of linked texts finds as many markers as are counted by the fronts. -/
theorem count_join (plain : Plain lead) : ∀ (links : List Link) {first : Text}, Quiet lead first →
    (∀ l ∈ links, l.Ready lead) → count lead (join lead first links) = found (links.map shape)
  | [], first, quiet, _ => by simp [join, count_of_quiet quiet, found]
  | l :: more, first, quiet, ready => by
      obtain ⟨here, others⟩ := List.forall_mem_cons.1 ready
      have rest := count_join plain more here.quiet others
      rw [join, List.map_cons]
      cases opens : l.front.quote? with
      | none =>
          obtain ⟨index, front⟩ := Front.eq_comment_of_quote? opens
          have counted := count_append_comment plain quiet index (join lead l.text more)
          rw [front, Front.write, counted, rest, found_cons_comment opens]
      | some quote =>
          obtain ⟨index, front⟩ := Front.eq_assignment_of_quote? opens
          rw [front, Front.write]
          cases closed : behind? quote (quotesIn l.text) (more.map shape) with
          | none =>
              have unclosed := quotedName?_of_not_mem (not_mem_of_behind? plain closed)
              rw [count_append_assignment_none plain quiet unclosed, rest,
                found_cons_unclosed opens closed]
          | some left =>
              obtain ⟨name, text, more', joined, free, quiet', part, rfl⟩ :=
                exists_of_behind? plain here.quiet others closed
              have shorter := part.length_le
              have behind := count_join plain more' quiet' fun l member =>
                others l (part.subset member)
              have named : name ≠ [] := by
                rintro rfl
                obtain ⟨c, s, begins, noQuote, -⟩ := here.begins (opens ▸ rfl)
                obtain ⟨rest', starts⟩ := exists_join_eq_cons begins more
                rw [starts] at joined
                obtain ⟨rfl, -⟩ := List.cons.inj joined
                cases quote <;> exact absurd noQuote (by decide)
              have read := quotedName?_append named free (join lead text more')
              rw [List.cons_append, ← joined] at read
              rw [count_append_assignment_some plain quiet read, behind,
                found_cons_closed opens closed]
termination_by links => links.length
decreasing_by
  all_goals
    simp only [List.length_cons]
    omega

/-! ## What keeps the count -/

theorem quotesIn_trimEnd (s : Text) : quotesIn (Text.trimEnd s) = quotesIn s := by
  funext quote
  obtain ⟨blanks, whole, blank, -⟩ := Text.exists_trimEnd_append s
  have outside : quote.char ∉ blanks := fun member => by
    have := blank _ member
    cases quote <;> exact absurd this (by decide)
  rw [Bool.eq_iff_iff, quotesIn_eq_true_iff, quotesIn_eq_true_iff]
  conv_rhs => rw [whole]
  simp [outside]

theorem map_shape_trimLast : ∀ links : List Link, (trimLast links).map shape = links.map shape
  | [] => rfl
  | [l] => by simp [trimLast, shape, quotesIn_trimEnd]
  | l :: next :: more => congrArg (shape l :: ·) (map_shape_trimLast (next :: more))

theorem Ready.trimEnd {l : Link} (ready : l.Ready lead) :
    Ready lead { l with text := Text.trimEnd l.text } where
  quiet := ready.quiet.of_infix (List.IsPrefix.isInfix ⟨_, Text.trimEnd_append l.text⟩)
  begins opens := by
    obtain ⟨c, s, begins, noQuote, visible⟩ := ready.begins opens
    have kept := Text.trimEnd_append_cons visible [] s
    exact ⟨c, Text.trimEnd s, by rw [begins]; exact kept, noQuote, visible⟩

theorem ready_trimLast : ∀ {links : List Link}, (∀ l ∈ links, l.Ready lead) →
    ∀ l ∈ trimLast links, l.Ready lead
  | [], ready => ready
  | [l], ready => List.forall_mem_singleton.2 (List.forall_mem_singleton.1 ready).trimEnd
  | l :: next :: more, ready => by
      obtain ⟨here, others⟩ := List.forall_mem_cons.1 ready
      exact List.forall_mem_cons.2 ⟨here, ready_trimLast others⟩

variable {named : Text → Prop}

theorem Rewritten.ready (plain : Plain lead)
    (tagged : ∀ name, named name → ∀ c ∈ name, Text.isTagNameChar c = true) {l l' : Link}
    (same : Rewritten named l l') (ready : l.Ready lead) : l'.Ready lead where
  quiet := quiet_of_rewrites plain tagged same.text ready.quiet
  begins opens := by
    rw [same.front] at opens
    obtain ⟨c, s, begins, noQuote, visible⟩ := ready.begins opens
    have first := same.text.head (p := fun c => c ∉ ['"', '\''] ∧ Text.isBlank c = false)
      (by decide) fun d head => by
        rw [begins] at head
        obtain rfl : c = d := Option.some.inj head
        exact ⟨noQuote, visible⟩
    cases text : l'.text with
    | nil =>
        have none := same.text.eq_nil_iff.2 text
        rw [begins] at none
        exact nomatch none
    | cons d s' =>
        rw [text] at first
        exact ⟨d, s', rfl, first d rfl⟩

theorem map_shape_rewritten
    (tagged : ∀ name, named name → ∀ c ∈ name, Text.isTagNameChar c = true)
    {links links' : List Link} (same : List.Forall₂ (Rewritten named) links links') :
    links'.map shape = links.map shape := by
  induction same with
  | nil => rfl
  | @cons l l' links links' first others ih =>
      have quotes : quotesIn l'.text = quotesIn l.text := by
        funext quote
        rw [Bool.eq_iff_iff, quotesIn_eq_true_iff, quotesIn_eq_true_iff]
        exact quote_mem_iff tagged first.text quote
      rw [List.map_cons, List.map_cons, ih, shape, shape, first.front, quotes]

theorem ready_rewritten (plain : Plain lead)
    (tagged : ∀ name, named name → ∀ c ∈ name, Text.isTagNameChar c = true)
    {links links' : List Link} (same : List.Forall₂ (Rewritten named) links links')
    (ready : ∀ l ∈ links, l.Ready lead) : ∀ l ∈ links', l.Ready lead := by
  induction same with
  | nil => exact nofun
  | cons first others ih =>
      obtain ⟨here, behind⟩ := List.forall_mem_cons.1 ready
      exact List.forall_mem_cons.2 ⟨first.ready plain tagged here, ih behind⟩

/-- Trimming and writing out change the number of markers that a scan finds as little as the
lead does. -/
theorem count_of_rewrites (plain : Plain lead)
    (tagged : ∀ name, named name → ∀ c ∈ name, Text.isTagNameChar c = true) {first t : Text}
    {links : List Link} (quiet : Quiet lead first) (ready : ∀ l ∈ links, l.Ready lead)
    (h : SelfClosing.Rewrites named (Text.trim (join lead first links)) t) :
    count lead t = found (links.map shape) := by
  rw [trim_join plain] at h
  obtain ⟨first', links', rfl, before, same⟩ := exists_rewritten plain h
  have inside : trimFirst first links <:+: first := by
    cases links with
    | nil =>
        refine List.IsInfix.trans ?_ (List.dropWhile_suffix Text.isBlank).isInfix
        exact List.IsPrefix.isInfix ⟨_, Text.trimEnd_append _⟩
    | cons l more => exact (List.dropWhile_suffix _).isInfix
  have quiet' := quiet_of_rewrites plain tagged before (quiet.of_infix inside)
  have ready' := ready_rewritten plain tagged same (ready_trimLast ready)
  rw [count_join plain links' quiet' ready', map_shape_rewritten tagged same, map_shape_trimLast]

end Link

end Stencil
