/-
# Stencil.Proofs.Marking.Quoting -- which quotes compiling asks for

The closing quote of an attribute is to come from the fragment behind its slot.  Marking does not
check that it does: it joins the name of the attribute to that fragment, and the name is read up to
the quote, wherever it stands.  Only the number of markers is checked.

So what compiling asks for is that each quote is in the fragment behind its slot, before the
assignment in which that fragment may end (`Marking.Quoted`).  Then the slots of the plan are those
of the template in order, but an attribute has what stands before its quote in its name
(`Marking.planOf_of_quoted`); it keeps its own name exactly if nothing does
(`Marking.ReadAs.eq_name_iff`), that is, if the quote comes first
(`Marking.textBeforeQuote_eq_nil_iff`).  If a quote is missing, too few markers are found
(`Marking.planOf_of_not_quoted`).
-/
import Stencil.Proofs.Marking.Compiling
import Stencil.Proofs.Marking.Leads

set_option autoImplicit false

namespace Stencil

variable {named : Text → Prop} {quote : Quote}

/-! ## The text before a quote -/

/-- What stands in a text before a quote. -/
def Text.before (quote : Quote) (s : Text) : Text := s.takeWhile (· != quote.char)

theorem Text.before_append {name : Text} (free : quote.char ∉ name) (s : Text) :
    Text.before quote (name ++ s) = name ++ Text.before quote s :=
  List.takeWhile_append_of_pos (all_ne_iff.2 free)

theorem Text.before_append_quote {name : Text} (free : quote.char ∉ name) (s : Text) :
    Text.before quote (name ++ quote.char :: s) = name := by
  rw [Text.before_append free, Text.before, List.takeWhile_cons_of_neg (by simp), List.append_nil]

theorem Text.before_eq_nil_iff {s : Text} (closed : quote.char ∈ s) :
    Text.before quote s = [] ↔ s.head? = some quote.char := by
  obtain ⟨name, rest, rfl, free⟩ := List.eq_append_cons_of_mem closed
  rw [Text.before_append_quote free]
  cases name with
  | nil => simp
  | cons c name =>
      have other : c ≠ quote.char := fun same => free (same ▸ List.mem_cons_self ..)
      simpa using other

/-- A closing bracket stays. -/
theorem SelfClosing.Rewrites.bracket_mem {s t : Text} (h : Rewrites named s t)
    (member : '>' ∈ s) : '>' ∈ t := by
  induction h with
  | nil => exact member
  | keep c more ih =>
      rcases List.mem_cons.1 member with same | behind
      · exact same ▸ List.mem_cons_self ..
      · exact List.mem_cons_of_mem c (ih behind)
  | close blank good more ih => exact List.mem_cons_self ..

theorem SelfClosing.Rewrites.eq_of_bracket {s t : Text} (h : Rewrites named s t)
    (free : '>' ∉ s) : t = s :=
  h.eq_of_free fun inside => free (inside.subset (by simp))

/-- The quote stays, and the text before it is rewritten for itself. -/
theorem SelfClosing.Rewrites.before {s t : Text} (h : Rewrites named s t)
    (tagged : ∀ name, named name → ∀ c ∈ name, Text.isTagNameChar c = true)
    (closed : quote.char ∈ s) :
    Rewrites named (Text.before quote s) (Text.before quote t) := by
  obtain ⟨name, rest, rfl, free⟩ := List.eq_append_cons_of_mem closed
  have plain : Text.isBlank quote.char = false ∧ quote.char ≠ '/' ∧ quote.char ≠ '>' := by
    cases quote <;> decide
  obtain ⟨visible, slash, bracket⟩ := plain
  obtain ⟨name', t, rfl, inName, h⟩ := h.append_inv <| by
    intro b _ c head
    obtain rfl : quote.char = c := Option.some.inj head
    exact not_joint_of_second visible slash bracket
  rw [← List.singleton_append] at h
  obtain ⟨word, rest', rfl, inQuote, -⟩ := h.append_inv <| by
    intro b last c _
    obtain rfl : quote.char = b := Option.some.inj last
    exact not_joint_of_first visible slash
  obtain rfl : word = [quote.char] := inQuote.eq_of_bracket (by simp [Ne.symm bracket])
  have free' : quote.char ∉ name' := fun member =>
    free ((Link.quote_mem_iff tagged inName quote).1 member)
  rw [Text.before_append_quote free, List.singleton_append, Text.before_append_quote free']
  exact inName

/-! ## The markers of linked texts -/

namespace Link

/-- The marker that a front makes: the name of an attribute is what stands before its quote. -/
def marker (l : Link) : Marker :=
  match l.front with
  | .comment _ => .text
  | .assignment _ quote => .attribute (Text.before quote l.text) quote

theorem map_snd_markers : ∀ (links : List Link) (first : Text),
    (markers first links).1.map Prod.snd = links.map marker
  | [], _ => rfl
  | ⟨.comment _, text⟩ :: more, _ => congrArg (Marker.text :: ·) (map_snd_markers more text)
  | ⟨.assignment _ quote, text⟩ :: more, _ =>
      congrArg (Marker.attribute (Text.before quote text) quote :: ·) (map_snd_markers more _)

/-- The slots of a plan are told by the links. -/
theorem filterMap_slot_markers (links : List Link) (first : Text) :
    (Segment.ofMarkers (markers first links).1 (markers first links).2).filterMap Segment.slot =
      links.map fun l => l.marker.slot := by
  have each := congrArg (List.map Marker.slot) (map_snd_markers links first)
  rw [List.map_map, List.map_map] at each
  rw [Segment.filterMap_slot_ofMarkers]
  exact each

/-! ## Trimming and writing out -/

theorem length_trimLast : ∀ links : List Link, (trimLast links).length = links.length
  | [] => rfl
  | [_] => rfl
  | _ :: next :: more => congrArg Nat.succ (length_trimLast (next :: more))

theorem length_closeLinks : ∀ (opened : Option Text) (links : List Link),
    (closeLinks opened links).length = links.length
  | _, [] => rfl
  | _, _ :: more => congrArg Nat.succ (length_closeLinks _ more)

/-- Each link stays in its place, and trimming changes its text at the end only. -/
theorem getElem?_trimLast {l : Link} : ∀ (links : List Link) (i : Nat), links[i]? = some l →
    ∃ l', (trimLast links)[i]? = some l' ∧ l'.front = l.front ∧
      (l'.text = l.text ∨ l'.text = Text.trimEnd l.text)
  | [only], 0, here => by
      obtain rfl : only = l := Option.some.inj here
      exact ⟨_, rfl, rfl, .inr rfl⟩
  | first :: next :: more, 0, here => by
      obtain rfl : first = l := Option.some.inj here
      exact ⟨first, rfl, rfl, .inl rfl⟩
  | _ :: next :: more, i + 1, here => getElem?_trimLast (next :: more) i here

/-- The names of end tags are made of the characters of tag names. -/
def Tagged (name : Text) : Prop := ∀ c ∈ name, Text.isTagNameChar c = true

theorem rewrites_close_tagged {opened : Option Text} (good : ∀ name ∈ opened, Tagged name)
    (s : Text) : SelfClosing.Rewrites Tagged s (SelfClosing.close opened s).1 ∧
      ∀ name ∈ (SelfClosing.close opened s).2, Tagged name :=
  SelfClosing.rewrites_close good fun _ _ chars _ => chars

theorem tagged_openBehind {opened : Option Text} (good : ∀ name ∈ opened, Tagged name)
    (f : Marker.Front) : ∀ name ∈ openBehind opened f, Tagged name := by
  cases f with
  | comment index => exact nofun
  | assignment index quote => exact good

/-- Each link stays in its place, and its text is rewritten. -/
theorem getElem?_closeLinks {l : Link} : ∀ (links : List Link) (i : Nat) (opened : Option Text),
    (∀ name ∈ opened, Tagged name) → links[i]? = some l →
      ∃ l', (closeLinks opened links)[i]? = some l' ∧ Rewritten Tagged l l'
  | first :: _, 0, opened, good, here => by
      obtain rfl : first = l := Option.some.inj here
      obtain ⟨inText, -⟩ := rewrites_close_tagged (tagged_openBehind good first.front) first.text
      exact ⟨_, rfl, rfl, inText⟩
  | first :: more, i + 1, opened, good, here => by
      obtain ⟨-, behind⟩ := rewrites_close_tagged (tagged_openBehind good first.front) first.text
      exact getElem?_closeLinks more i _ behind here

/-- Trimming does not reach a quote. -/
theorem before_trimEnd {s : Text} (closed : quote.char ∈ s) :
    Text.before quote (Text.trimEnd s) = Text.before quote s := by
  obtain ⟨name, rest, rfl, free⟩ := List.eq_append_cons_of_mem closed
  have visible : Text.isBlank quote.char = false := by cases quote <;> rfl
  rw [Text.trimEnd_append_cons visible, Text.before_append_quote free,
    Text.before_append_quote free]

end Link

namespace Marking

variable {fragments : List Text} {svg : Bool} {source : Text}

/-! ## The quotes of a template -/

/-- Each quote that an assignment opens is in the next fragment, before the assignment in which that
fragment may end. -/
def Quoted (fragments : List Text) : Prop :=
  ∀ i a q, InForm fragments i a → a.quote = some q → q.char ∈ textBefore fragments (i + 1)

instance : Decidable (Quoted fragments) :=
  decidable_of_iff (∀ i < fragments.length, ∀ a ∈ slotForm? fragments i, ∀ q ∈ a.quote,
      q.char ∈ textBefore fragments (i + 1)) <| by
    simp only [Option.mem_def, slotForm?_eq_some_iff]
    exact ⟨fun each i a q form => each i (Nat.lt_of_succ_lt form.slot) a form q,
      fun quoted i _ a form q => quoted i a q form⟩

/-- What stands between the name of an attribute and the quote that closes it. -/
def textBeforeQuote (fragments : List Text) (i : Nat) (a : Assignment) : Text :=
  match a.quote with
  | some q => Text.before q (textBefore fragments (i + 1))
  | none => []

/-- Nothing stands there exactly if the next fragment begins with the quote. -/
theorem textBeforeQuote_eq_nil_iff (quoted : Quoted fragments) {i : Nat} {a : Assignment}
    (form : InForm fragments i a) : textBeforeQuote fragments i a = [] ↔
      ∀ q, a.quote = some q → (fragments.getD (i + 1) []).head? = some q.char := by
  rw [textBeforeQuote]
  cases opened : a.quote with
  | none => simp
  | some q =>
      have closed := quoted i a q form opened
      have part := textBefore_prefix_getD fragments (i + 1)
      simp only [Option.some.injEq, forall_eq', Text.before_eq_nil_iff closed]
      refine ⟨fun front => ?_, head?_textBefore⟩
      obtain ⟨rest, text⟩ := List.head?_eq_some_iff.1 front
      obtain ⟨behind, whole⟩ := part
      rw [← whole, text]
      rfl

theorem quote_not_mem_name {i : Nat} {a : Assignment} (form : InForm fragments i a) (q : Quote) :
    q.char ∉ a.name := Marker.quote_not_mem q form.ends.name_chars

/-- The text behind the front of an assignment begins with the name, up to the closing quote. -/
theorem before_linkText {i : Nat} {a : Assignment} (form : InForm fragments i a) :
    Text.before (a.quote.getD .double) (linkText fragments (i + 1)) =
      a.name ++ textBeforeQuote fragments i a := by
  have found := slotForm?_eq_some_iff.2 form
  have unquoted := quote_not_mem_name form
  rw [linkText, nameText, found, textBeforeQuote]
  cases opened : a.quote with
  | some q => simpa [opened] using Text.before_append (unquoted q) (textBefore fragments (i + 1))
  | none =>
      simpa [opened] using
        Text.before_append_quote (unquoted .double) (textBefore fragments (i + 1))

/-- The closing quote of an assignment is in the text behind its front if the template has none, or
has it in the next fragment. -/
theorem quote_mem_linkText_iff {i : Nat} {a : Assignment} (form : InForm fragments i a) :
    (a.quote.getD .double).char ∈ linkText fragments (i + 1) ↔
      ∀ q, a.quote = some q → q.char ∈ textBefore fragments (i + 1) := by
  have found := slotForm?_eq_some_iff.2 form
  have unquoted := quote_not_mem_name form
  rw [linkText, nameText, found]
  cases opened : a.quote with
  | some q => simp [opened, unquoted q]
  | none => simp [opened]

theorem front_of_inForm {i : Nat} {a : Assignment} (form : InForm fragments i a) :
    front fragments i = .assignment i (a.quote.getD .double) := by
  rw [front, slotForm?_eq_some_iff.2 form]

theorem front_of_not_inForm {i : Nat} (no : ∀ a, ¬ InForm fragments i a) :
    front fragments i = .comment i := by
  have none : slotForm? fragments i = none :=
    Option.eq_none_iff_forall_ne_some.2 fun a found => no a (slotForm?_eq_some_iff.1 found)
  rw [front, none]

theorem exists_inForm {i : Nat} {q : Quote} (opens : (front fragments i).quote? = some q) :
    ∃ a, InForm fragments i a ∧ a.quote.getD .double = q := by
  by_cases no : ∀ a, ¬ InForm fragments i a
  · rw [front_of_not_inForm no] at opens
    exact nomatch opens
  · obtain ⟨a, form⟩ := not_forall_not.1 no
    rw [front_of_inForm form] at opens
    exact ⟨a, form, Option.some.inj opens⟩

theorem getElem?_links {i : Nat} (slot : i + 1 < fragments.length) :
    (links fragments)[i]? = some (link fragments i) := by
  rw [links, List.getElem?_map, List.getElem?_range' (by omega)]
  simp

/-- All markers are found exactly if each quote is in the next fragment. -/
theorem found_eq_iff_quoted :
    Marker.found ((links fragments).map Link.shape) = fragments.length - 1 ↔ Quoted fragments := by
  have length : ((links fragments).map Link.shape).length = fragments.length - 1 := by
    rw [List.length_map, length_links]
  rw [← length]
  constructor
  · intro all i a q form opened
    have member : (link fragments i).shape ∈ (links fragments).map Link.shape :=
      List.mem_map_of_mem (List.mem_of_getElem? (getElem?_links form.slot))
    have opens : (link fragments i).shape.quote = some (a.quote.getD .double) :=
      congrArg Marker.Front.quote? (front_of_inForm form)
    have closed := Marker.closes_of_found all _ member _ opens
    exact (quote_mem_linkText_iff form).1 (Marker.quotesIn_eq_true_iff.1 closed) q opened
  · intro quoted
    apply Marker.found_of_closes
    intro l member q opens
    obtain ⟨l, inLinks, rfl⟩ := List.mem_map.1 member
    obtain ⟨i, -, rfl⟩ := List.mem_map.1 inLinks
    obtain ⟨a, form, rfl⟩ := exists_inForm opens
    exact Marker.quotesIn_eq_true_iff.2
      ((quote_mem_linkText_iff form).2 fun q opened => quoted i a q form opened)

/-! ## The names of the slots -/

/-- Trimmed and written out, each slot keeps its front, and the text up to the quote is rewritten
for itself, if elements are written out at all. -/
theorem exists_markedLink (svg : Bool) {i : Nat} (slot : i + 1 < fragments.length) :
    ∃ l, (markedLinks svg fragments).2[i]? = some l ∧ l.front = front fragments i ∧
      ∀ q, (front fragments i).quote? = some q → q.char ∈ linkText fragments (i + 1) →
        SelfClosing.Rewrites Link.Tagged (Text.before q (linkText fragments (i + 1)))
            (Text.before q l.text) ∧
          (svg = true → Text.before q l.text = Text.before q (linkText fragments (i + 1))) := by
  obtain ⟨l, here, sameFront, trimmed⟩ :=
    Link.getElem?_trimLast (links fragments) i (getElem?_links slot)
  have sameName : ∀ q : Quote, q.char ∈ linkText fragments (i + 1) →
      q.char ∈ l.text ∧ Text.before q l.text = Text.before q (linkText fragments (i + 1)) := by
    intro q closed
    rcases trimmed with same | same
    · exact ⟨same ▸ closed, congrArg (Text.before q) same⟩
    · refine ⟨?_, same ▸ Link.before_trimEnd closed⟩
      rw [same, ← Marker.quotesIn_eq_true_iff, Link.quotesIn_trimEnd]
      exact Marker.quotesIn_eq_true_iff.2 closed
  cases svg with
  | true =>
      refine ⟨l, here, sameFront, fun q _ closed => ?_⟩
      rw [(sameName q closed).2]
      exact ⟨.refl _, fun _ => rfl⟩
  | false =>
      obtain ⟨-, behind⟩ := @Link.rewrites_close_tagged none nofun
        (Link.trimFirst (linkText fragments 0) (links fragments))
      obtain ⟨l', here', rewritten⟩ := Link.getElem?_closeLinks _ i _ behind here
      refine ⟨l', here', rewritten.front.trans sameFront, fun q _ closed => ⟨?_, nofun⟩⟩
      obtain ⟨inText, same⟩ := sameName q closed
      have inName := rewritten.text.before (fun _ => id) inText
      rwa [same] at inName

theorem length_markedLinks (svg : Bool) (fragments : List Text) :
    (markedLinks svg fragments).2.length = fragments.length - 1 := by
  rw [← length_links, ← Link.length_trimLast (links fragments)]
  cases svg with
  | true => rfl
  | false => exact Link.length_closeLinks _ _

/-- What is read as the name of an attribute: its own name and what stands before its quote. -/
structure ReadAs (svg : Bool) (fragments : List Text) (i : Nat) (a : Assignment) (name : Text) :
    Prop where
  rewritten : SelfClosing.Rewrites Link.Tagged (a.name ++ textBeforeQuote fragments i a) name
  asWritten : svg = true → name = a.name ++ textBeforeQuote fragments i a

variable {i : Nat} {a : Assignment} {name : Text}

/-- Only an element that is written out is read in another way than it stands in the template. -/
theorem ReadAs.eq (read : ReadAs svg fragments i a name) (form : InForm fragments i a)
    (kept : svg = true ∨ '>' ∉ textBeforeQuote fragments i a) :
    name = a.name ++ textBeforeQuote fragments i a := by
  rcases kept with asWritten | free
  · exact read.asWritten asWritten
  · have unnamed : '>' ∉ a.name := fun member =>
      absurd (form.ends.name_chars _ member) (by decide)
    exact read.rewritten.eq_of_bracket (by simp [unnamed, free])

/-- The own name of an attribute is read exactly if nothing stands before its quote. -/
theorem ReadAs.eq_name_iff (read : ReadAs svg fragments i a name) (form : InForm fragments i a) :
    name = a.name ↔ textBeforeQuote fragments i a = [] := by
  have unnamed : '>' ∉ a.name := fun member => absurd (form.ends.name_chars _ member) (by decide)
  have free : name = a.name ∨ textBeforeQuote fragments i a = [] →
      '>' ∉ textBeforeQuote fragments i a := by
    rintro (rfl | none) member
    · exact unnamed (read.rewritten.bracket_mem (List.mem_append_right _ member))
    · rw [none] at member
      exact nomatch member
  constructor
  · intro own
    have whole := read.eq form (.inr (free (.inl own)))
    rw [own] at whole
    exact List.self_eq_append_right.1 whole
  · intro none
    rw [read.eq form (.inr (free (.inr none))), none, List.append_nil]

/-- If each quote is in the next fragment, the fragments are compiled, and the plan has their slots
in order. -/
theorem planOf_of_quoted (quoted : Quoted fragments) :
    ∃ plan, planOf svg fragments source = .ok plan ∧ plan.slots = fragments.length - 1 ∧
      ∀ i, i + 1 < fragments.length →
        ∃ slot, (plan.segments.filterMap Segment.slot)[i]? = some slot ∧
          ((∀ a, ¬ InForm fragments i a) → slot = .text) ∧
          ∀ a, InForm fragments i a → ∃ name, ReadAs svg fragments i a name ∧
            slot = Slot.ofAttribute name (a.quote.getD .double) := by
  refine ⟨_, if_pos (found_eq_iff_quoted.2 quoted), ?_, fun i slot => ?_⟩
  · rw [Plan.slots_eq_length, Link.filterMap_slot_markers, List.length_map, length_markedLinks]
  · obtain ⟨l, here, sameFront, inName⟩ := exists_markedLink svg slot
    refine ⟨l.marker.slot, ?_, fun no => ?_, fun a form => ?_⟩
    · rw [Link.filterMap_slot_markers, List.getElem?_map, here]
      rfl
    · rw [Link.marker, sameFront, front_of_not_inForm no]
      rfl
    · have opens : (front fragments i).quote? = some (a.quote.getD .double) :=
        congrArg Marker.Front.quote? (front_of_inForm form)
      have closed := (quote_mem_linkText_iff form).2 fun q opened => quoted i a q form opened
      obtain ⟨rewritten, asWritten⟩ := inName _ opens closed
      rw [before_linkText form] at rewritten asWritten
      refine ⟨_, ⟨rewritten, asWritten⟩, ?_⟩
      rw [Link.marker, sameFront, front_of_inForm form]
      rfl

/-- If a quote is not in the next fragment, the fragments are refused, with too few markers. -/
theorem planOf_of_not_quoted (unquoted : ¬ Quoted fragments) :
    ∃ found, found < fragments.length - 1 ∧ planOf svg fragments source =
      .error (.templateShape source (fragments.length - 1) found) := by
  have differs := mt found_eq_iff_quoted.1 unquoted
  have bound := Marker.found_le ((links fragments).map Link.shape)
  rw [List.length_map, length_links] at bound
  exact ⟨_, lt_of_le_of_ne bound differs, if_neg differs⟩

end Marking

end Stencil
