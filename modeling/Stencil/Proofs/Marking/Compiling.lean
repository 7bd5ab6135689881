/-
# Stencil.Proofs.Marking.Compiling -- marked fragments compile

The fragments of a template are marked with a plain lead and compiled.  If none of them holds the
lead and every quote that an assignment opens is closed at the front of the next fragment, the plan
has the slots of the template in order, each in its role: `Marking.markup_compiles` is the main
statement, for both settings of `svg`.

With elements left as they are, the fixed texts of the plan are the own texts of the fragments
(`Marking.fixedText`), without the blanks before an attribute.  With elements written out, the same
markers stand between rewritten texts (`Marker.exists_rewritten`), and each of these is the fixed
text with elements closed by end tags.
-/
import Stencil.Proofs.Marking.Kept
import Stencil.Proofs.Marking.Slots
import Stencil.Proofs.Plan.Compiling
import Stencil.Proofs.Text.Trim
import Stencil.Template

set_option autoImplicit false

namespace Stencil

variable {lead : Text}

/-! ## Trimming a marked text -/

namespace Piece

theorem join_eq_append (post : Text) : ∀ pieces : List Piece,
    join post pieces = join [] pieces ++ post
  | [] => rfl
  | p :: more => by
      rw [join, join, join_eq_append post more, List.append_assoc _ (join [] more)]

/-- A text that ends with a marker ends with the last character of the marker. -/
theorem exists_join_eq_append : ∀ (more : List Piece) (p : Piece),
    (∀ q ∈ p :: more, ∃ front c, q.word = front ++ [c] ∧ Text.isBlank c = false) →
      ∃ s c, join [] (p :: more) = s ++ [c] ∧ Text.isBlank c = false
  | [], p, ends => by
      obtain ⟨front, c, word, visible⟩ := ends p (List.mem_cons_self ..)
      exact ⟨p.pre ++ front, c, by simp [join, word], visible⟩
  | q :: more, p, ends => by
      obtain ⟨s, c, joined, visible⟩ := exists_join_eq_append more q (List.forall_mem_cons.1 ends).2
      exact ⟨p.pre ++ p.word ++ s, c, by rw [join, joined, ← List.append_assoc], visible⟩

end Piece

namespace Marker

theorem Placed.word_ends {p : Piece} (placed : Placed lead p) :
    ∃ front c, p.word = front ++ [c] ∧ Text.isBlank c = false := by
  obtain ⟨front, c, word, ends⟩ := placed.word_last
  refine ⟨front, c, word, ?_⟩
  simp only [List.mem_cons, List.not_mem_nil, or_false] at ends
  rcases ends with rfl | rfl | rfl <;> decide

/-- Trimming touches the fixed texts at the ends only. -/
theorem trim_join (plain : Plain lead) {p : Piece} {more : List Piece}
    (placed : ∀ q ∈ p :: more, Placed lead q) (post : Text) :
    Text.trim (Piece.join post (p :: more)) =
      Piece.join (Text.trimEnd post) (⟨Text.trimStart p.pre, p.word, p.marker⟩ :: more) := by
  obtain ⟨first, others⟩ := List.forall_mem_cons.1 placed
  obtain ⟨front, c, word, -⟩ := first.word_last
  obtain ⟨d, w, begins⟩ : ∃ d w, p.word = d :: w :=
    List.exists_cons_of_ne_nil (by rw [word]; simp)
  have visible : Text.isBlank d = false := (first.word_head plain d (by rw [begins]; rfl)).1
  have start : Text.trimStart (Piece.join post (p :: more)) =
      Piece.join post (⟨Text.trimStart p.pre, p.word, p.marker⟩ :: more) := by
    have kept := Text.trimStart_append_cons visible p.pre (w ++ Piece.join post more)
    rw [Piece.join, Piece.join, begins, List.append_assoc, List.append_assoc]
    exact kept
  obtain ⟨s, c, joined, visible⟩ := Piece.exists_join_eq_append more
    ⟨Text.trimStart p.pre, p.word, p.marker⟩
    (List.forall_mem_cons.2 ⟨first.word_ends, fun q member => (others q member).word_ends⟩)
  rw [Text.trim, start, Piece.join_eq_append, joined, List.append_assoc, List.singleton_append,
    Text.trimEnd_append_cons visible, Piece.join_eq_append (Text.trimEnd post), joined,
    List.append_assoc, List.singleton_append]

end Marker

/-! ## Compiling a marked text -/

namespace Segment

/-- The slots of a plan are those of the markers, in order. -/
theorem filterMap_slot_ofMarkers : ∀ (found : List (Text × Marker)) (post : Text),
    (ofMarkers found post).filterMap Segment.slot = found.map fun m => m.2.slot
  | [], _ => rfl
  | [_], _ => rfl
  | (pre, m) :: next :: more, post => by
      have rest := filterMap_slot_ofMarkers (next :: more) post
      rw [List.map_cons, ← rest]
      rfl

end Segment

/-- Markers put between fixed texts are compiled to segments with their slots. -/
theorem Plan.ofMarked_of_placed (plain : Marker.Plain lead) {pieces : List Piece} {post : Text}
    (placed : ∀ p ∈ pieces, Marker.Placed lead p) (rest : ¬ lead <:+: post)
    (trimmed : Text.trim (Piece.join post pieces) = Piece.join post pieces) (source : Text) :
    Plan.ofMarked lead (Piece.join post pieces) pieces.length source =
      .ok ⟨Segment.ofMarkers (pieces.map fun p => (Marker.settled p, p.marker)) post⟩ := by
  rw [Plan.ofMarked_eq, trimmed, Marker.scan_join_of_placed plain rest pieces placed,
    if_pos (List.length_map _)]

namespace Marking

variable {fragments : List Text}

/-- The marker of a slot behind what is left of the text before it. -/
def fixedPiece (lead : Text) (fragments : List Text) (i : Nat) : Piece :=
  ⟨fixedText fragments i, slotWord lead fragments i, slotMarker fragments i⟩

/-- The markers of the slots are well placed behind texts that end like the fragments' own. -/
theorem placed_of_suffix (absent : ∀ f ∈ fragments, ¬ lead <:+: f) {n : Nat}
    (slots : n + 1 = fragments.length) {pre : Nat → Text}
    (part : ∀ i < n, pre i <:+ ownText fragments i) :
    ∀ p ∈ (List.range n).map (fun i => (⟨pre i, slotWord lead fragments i,
      slotMarker fragments i⟩ : Piece)), Marker.Placed lead p := by
  intro p member
  obtain ⟨i, inRange, rfl⟩ := List.mem_map.1 member
  have bound := List.mem_range.1 inRange
  exact placed_slotPiece absent (by omega) (part i bound)

theorem placed_fixedPieces (absent : ∀ f ∈ fragments, ¬ lead <:+: f) {n : Nat}
    (slots : n + 1 = fragments.length) :
    ∀ p ∈ (List.range n).map (fixedPiece lead fragments), Marker.Placed lead p :=
  placed_of_suffix absent slots fun i _ => fixedText_suffix (by omega)

/-- The marked fragments, trimmed, are the markers between the fixed texts. -/
theorem trim_joinMarkup (plain : Marker.Plain lead) (absent : ∀ f ∈ fragments, ¬ lead <:+: f)
    (closed : Closed fragments) {n : Nat} (slots : n + 1 = fragments.length) :
    Text.trim (joinMarkup lead [] 0 fragments) =
      Piece.join (fixedText fragments n) ((List.range n).map (fixedPiece lead fragments)) := by
  rw [joinMarkup_eq_join lead closed slots]
  have last : fixedText fragments n = Text.trimEnd
      (if n = 0 then Text.trimStart (ownText fragments n) else ownText fragments n) := by
    rw [fixedText, if_pos slots]
  cases n with
  | zero =>
      rw [last]
      rfl
  | succ m =>
      have placed : ∀ p ∈ (List.range (m + 1)).map (slotPiece lead fragments),
          Marker.Placed lead p :=
        placed_of_suffix absent slots fun i _ => List.suffix_refl _
      have first : fixedText fragments 0 = Text.trimStart (ownText fragments 0) := by
        rw [fixedText, if_neg (by omega)]
        rfl
      have others : ∀ i ∈ List.range m,
          slotPiece lead fragments (i + 1) = fixedPiece lead fragments (i + 1) := by
        intro i inRange
        have bound := List.mem_range.1 inRange
        rw [slotPiece, fixedPiece, fixedText, if_neg (by omega), if_neg (by omega)]
      rw [List.range_succ_eq_map, List.map_cons, List.map_map] at placed ⊢
      rw [Marker.trim_join plain placed, List.map_cons, List.map_map, last, if_neg (by omega),
        fixedPiece, first]
      congr 2
      exact List.map_congr_left others

/-- What marking and compiling make of the fragments: markers between fixed texts, which are
rewritten if elements are written out. -/
theorem exists_pieces (plain : Marker.Plain lead) (absent : ∀ f ∈ fragments, ¬ lead <:+: f)
    (closed : Closed fragments) {n : Nat} (slots : n + 1 = fragments.length) (svg : Bool) :
    ∃ (pieces : List Piece) (post : Text),
      (markup svg).mark fragments lead = .ok (Piece.join post pieces) ∧
      Text.trim (Piece.join post pieces) = Piece.join post pieces ∧
      (∀ p ∈ pieces, Marker.Placed lead p) ∧ ¬ lead <:+: post ∧
      List.Forall₂ (Marker.Rewritten lead) ((List.range n).map (fixedPiece lead fragments))
        pieces ∧
      SelfClosing.Rewrites (Marker.TagName lead) (fixedText fragments n) post ∧
      (svg = true → pieces = (List.range n).map (fixedPiece lead fragments) ∧
        post = fixedText fragments n) := by
  have joined := trim_joinMarkup plain absent closed slots
  have placed := placed_fixedPieces absent slots
  have free : ¬ lead <:+: fixedText fragments n := fun holds =>
    absent _ (getD_mem (by omega)) (holds.trans (fixedText_infix_getD fragments n))
  have trimmed := Text.trim_trim (joinMarkup lead [] 0 fragments)
  rw [joined] at trimmed
  cases svg with
  | true =>
      refine ⟨_, _, congrArg Except.ok joined, trimmed, placed, free, ?_, .refl _,
        fun _ => ⟨rfl, rfl⟩⟩
      exact List.forall₂_same.2 fun p _ => ⟨.refl _, rfl, rfl⟩
  | false =>
      obtain ⟨pieces, post, written, same, placed', rewrites, free'⟩ :=
        Marker.exists_rewritten plain placed free
      refine ⟨pieces, post, ?_, ?_, placed', free', same, rewrites, nofun⟩
      · rw [← written, ← joined]
        rfl
      · have whole : SelfClosing.Rewrites (fun _ => True) (Piece.join (fixedText fragments n)
            ((List.range n).map (fixedPiece lead fragments))) _ :=
          SelfClosing.rewrites_writeOut fun _ _ _ _ => trivial
        rw [written, ← joined] at whole
        exact whole.trim

theorem slot_slotMarker {i : Nat} {a : Assignment} (form : InForm fragments i a) :
    (slotMarker fragments i).slot = Slot.ofAttribute a.name (a.quote.getD .double) := by
  rw [slotMarker, slotForm?_eq_some_iff.2 form]
  rfl

theorem slot_slotMarker_of_not {i : Nat} (no : ∀ a, ¬ InForm fragments i a) :
    (slotMarker fragments i).slot = .text := by
  have none : slotForm? fragments i = none :=
    Option.eq_none_iff_forall_ne_some.2 fun a found => no a (slotForm?_eq_some_iff.1 found)
  rw [slotMarker, none]
  rfl

theorem markers_of_rewritten {pieces pieces' : List Piece}
    (same : List.Forall₂ (Marker.Rewritten lead) pieces pieces') :
    pieces'.map (fun p => (p.word, p.marker)) = pieces.map fun p => (p.word, p.marker) := by
  induction same with
  | nil => rfl
  | cons first others ih => rw [List.map_cons, List.map_cons, first.word, first.marker, ih]

/-- The marked fragments of a template are compiled to a plan with its slots. -/
theorem markup_compiles {t : Template} (plain : Marker.Plain lead)
    (absent : ∀ f ∈ t.fragments, ¬ lead <:+: f) (closed : Closed t.fragments) (svg : Bool)
    (source : Text) :
    ∃ (pieces : List Piece) (post : Text) (plan : Plan),
      (markup svg).mark t.fragments lead = .ok (Piece.join post pieces) ∧
      Plan.ofMarked lead (Piece.join post pieces) t.slots source = .ok plan ∧
      -- The slots are those of the template, in order.
      plan.slots = t.slots ∧
      (∀ i < t.slots, ∃ slot, (plan.segments.filterMap Segment.slot)[i]? = some slot ∧
        (∀ a, InForm t.fragments i a → slot = Slot.ofAttribute a.name (a.quote.getD .double)) ∧
        ((∀ a, ¬ InForm t.fragments i a) → slot = .text)) ∧
      -- The markers are those of the slots, whether elements are written out or not.
      (pieces.map fun p => (p.word, p.marker)) = ((List.range t.slots).map fun i =>
        (slotWord lead t.fragments i, slotMarker t.fragments i)) ∧
      Marker.scan lead (Piece.join post pieces) =
        (pieces.map fun p => (Marker.settled p, p.marker), post) ∧
      -- The fixed texts are kept, each in its place.
      (pieces = [] → plan.segments = [⟨post, none, []⟩]) ∧
      (pieces ≠ [] → plan.segments = pieces.mapIdx fun i p =>
        ⟨Marker.settled p, some p.marker.slot, if i + 1 = pieces.length then post else []⟩) ∧
      (svg = true → pieces = (List.range t.slots).map (fixedPiece lead t.fragments) ∧
        post = fixedText t.fragments t.slots) ∧
      List.Forall₂ (Marker.Rewritten lead)
        ((List.range t.slots).map (fixedPiece lead t.fragments)) pieces ∧
      SelfClosing.Rewrites (Marker.TagName lead) (fixedText t.fragments t.slots) post := by
  have slots : t.slots + 1 = t.fragments.length := by
    have := List.length_pos_iff.2 t.fragments_ne_nil
    rw [Template.slots]
    omega
  obtain ⟨pieces, post, marked, trimmed, placed, free, same, rewrites, asWritten⟩ :=
    exists_pieces plain absent closed slots svg
  have count : pieces.length = t.slots := by
    rw [← same.length_eq, List.length_map, List.length_range]
  have markers := markers_of_rewritten same
  have roles : pieces.map Piece.marker = (List.range t.slots).map (slotMarker t.fragments) := by
    have seconds := congrArg (List.map Prod.snd) markers
    rw [List.map_map, List.map_map, List.map_map] at seconds
    exact seconds
  have compiled := Plan.ofMarked_of_placed plain placed free trimmed source
  rw [count] at compiled
  have found := Segment.filterMap_slot_ofMarkers
    (pieces.map fun p => (Marker.settled p, p.marker)) post
  have slots_eq : (Segment.ofMarkers (pieces.map fun p => (Marker.settled p, p.marker))
      post).filterMap Segment.slot =
        (List.range t.slots).map fun i => (slotMarker t.fragments i).slot := by
    have each := congrArg (List.map Marker.slot) roles
    rw [List.map_map, List.map_map] at each
    rw [found, List.map_map]
    exact each
  refine ⟨pieces, post, _, marked, compiled, ?_, ?_, ?_, ?_, ?_, ?_, asWritten, same, rewrites⟩
  · rw [Plan.slots_eq_length, slots_eq, List.length_map, List.length_range]
  · intro i bound
    refine ⟨(slotMarker t.fragments i).slot, ?_, fun a form => slot_slotMarker form,
      slot_slotMarker_of_not⟩
    rw [slots_eq, List.getElem?_map, List.getElem?_range bound]
    rfl
  · rw [markers, List.map_map]
    rfl
  · exact Marker.scan_join_of_placed plain free pieces placed
  · rintro rfl
    rfl
  · exact Segment.ofMarkers_map Marker.settled pieces post

/-! ## An attribute with a quote, one without and a slot between tags -/

/-- A text with a blank at its front, and the second slot's form is told by the first fragment. -/
def forms : Template where
  id := 1
  fragments := [" <p class = \"".toList, "\" .on=".toList, " />x = ".toList, "<br /> ".toList]
  fragments_ne_nil := List.cons_ne_nil _ _

theorem plain_is1 : Marker.Plain ['i', 's', '1'] where
  ne_nil := List.cons_ne_nil _ _
  not_blank := by
    simp only [List.mem_cons, List.not_mem_nil, or_false]
    rintro c (rfl | rfl | rfl) <;> rfl
  not_special := by
    simp only [List.mem_cons, List.not_mem_nil, or_false]
    rintro c (rfl | rfl | rfl) <;> decide

theorem absent_forms : ∀ f ∈ forms.fragments, ¬ ['i', 's', '1'] <:+: f := by
  have digit : ∀ f ∈ forms.fragments, '1' ∉ f := by decide
  intro f member holds
  exact digit f member (holds.subset (by decide))

theorem closed_forms : Closed forms.fragments := by
  intro i a q form opened
  have found := slotForm?_eq_some_iff.2 form
  have slot : i + 1 < 4 := form.slot
  match i, slot with
  | 0, _ =>
      have quoted := congrArg (Option.bind · Assignment.quote) found
      rw [Option.bind_some, opened] at quoted
      obtain rfl : Quote.double = q := Option.some.inj quoted
      rfl
  | 1, _ =>
      have quoted := congrArg (Option.bind · Assignment.quote) found
      rw [Option.bind_some, opened] at quoted
      exact nomatch quoted
  | 2, _ => exact nomatch found

/-- The template is marked with a lead that ends in a digit, and its elements are written out. -/
theorem forms_compiles :
    Marker.Plain ['i', 's', '1'] ∧ (∀ f ∈ forms.fragments, ¬ ['i', 's', '1'] <:+: f) ∧
      Closed forms.fragments ∧ ∃ plan : Plan,
        Plan.ofMarked ['i', 's', '1']
          "<p is10=\"class\" is11=\".on\"></p>x = <!--is12--><br />".toList 3 [] = .ok plan ∧
        plan.slots = 3 ∧
        (plan.segments.filterMap Segment.slot)[1]? = some (.property ['o', 'n'] .double) := by
  refine ⟨plain_is1, absent_forms, closed_forms, ?_⟩
  obtain ⟨pieces, post, plan, marked, compiled, slots, roles, -⟩ :=
    markup_compiles plain_is1 absent_forms closed_forms false []
  have text : (markup false).mark forms.fragments ['i', 's', '1'] = .ok
      "<p is10=\"class\" is11=\".on\"></p>x = <!--is12--><br />".toList := by decide
  rw [text] at marked
  have same := Except.ok.inj marked
  rw [← same] at compiled
  obtain ⟨slot, found, inForm, -⟩ := roles 1 (by decide)
  have form : slotForm? forms.fragments 1 = some ⟨"\" ".toList, ".on".toList, [], [], none⟩ := rfl
  have role := inForm _ (slotForm?_eq_some_iff.1 form)
  have property : Slot.ofAttribute ".on".toList .double = .property ['o', 'n'] .double := by decide
  refine ⟨plan, compiled, slots, ?_⟩
  rw [found, role]
  exact congrArg some property

end Marking

end Stencil
