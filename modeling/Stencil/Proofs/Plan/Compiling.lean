/-
# Stencil.Proofs.Plan.Compiling -- a plan keeps all of its markup

Compiling cuts the trimmed markup at its markers (`Marker.Cut`).  `Plan.ofMarked_eq_cut` says what
becomes of the cut, for any lead, any markup and any expected number:

* the markup is refused, with the number of markers found, unless that number is the expected one;
* otherwise the plan has one segment for each piece, with the fixed text before the marker, and only
  the last has text after its slot; without markers the one segment is the trimmed markup;
* the slot of a piece is told by the form of its marker: a comment is a text slot, an assignment
  that of the attribute it names;
* filling the plan writes every fixed text once and in its place, and between them what the slots
  write, each for its own value.
-/
import Stencil.Plan
import Stencil.Proofs.Marker.Cut

set_option autoImplicit false

namespace Stencil

namespace Segment

/-- With markers there is a segment for each, and the text after the last goes with the last. -/
theorem ofMarkers_map (pre : Piece → Text) : ∀ (pieces : List Piece) (post : Text), pieces ≠ [] →
    ofMarkers (pieces.map fun p => (pre p, p.marker)) post = pieces.mapIdx fun i p =>
      ⟨pre p, some p.marker.slot, if i + 1 = pieces.length then post else []⟩
  | [], _, ne => absurd rfl ne
  | [p], post, _ => rfl
  | p :: next :: more, post, _ => by
      have rest := ofMarkers_map pre (next :: more) post (List.cons_ne_nil _ _)
      rw [List.mapIdx_cons]
      change ⟨pre p, some p.marker.slot, []⟩ ::
        ofMarkers ((next :: more).map fun p => (pre p, p.marker)) post = _
      rw [rest]
      simp

/-- Filling writes the fixed texts and the slots in turn. -/
theorem fillAll_ofMarkers : ∀ (pieces : List Piece) (post : Text) (values : List Value),
    fillAll (ofMarkers (pieces.map Piece.found) post) values =
      (pieces.mapIdx fun i p => p.pre ++ p.marker.slot.render (values.getD i .null)).flatten ++ post
  | [], post, values => by cases values <;> simp [ofMarkers, fillAll, fill]
  | [p], post, values => by cases values <;> simp [ofMarkers, fillAll, fill, Piece.found]
  | p :: next :: more, post, values => by
      have rest := fillAll_ofMarkers (next :: more) post values.tail
      have step : ofMarkers ((p :: next :: more).map Piece.found) post =
          ⟨p.pre, some p.marker.slot, []⟩ :: ofMarkers ((next :: more).map Piece.found) post := rfl
      rw [step, List.mapIdx_cons, List.flatten_cons, List.append_assoc]
      cases values with
      | nil =>
          rw [fillAll, show ([] : List Value) = ([] : List Value).tail from rfl, rest]
          simp [fill]
      | cons v values =>
          rw [fillAll, show values = (v :: values).tail from rfl, rest]
          simp [fill]

end Segment

/-- The form of a marker tells its slot: text for a comment, and for an assignment the slot of the
attribute with its name, in its quotes. -/
theorem Marker.Word.slot_cases {lead w : Text} {m : Marker} (word : Word lead m w) :
    (m.slot = .text ∧ ∃ digits : Text, IsIndex digits ∧
      w = "<!--".toList ++ lead ++ digits ++ "-->".toList) ∨
    ∃ (blanks digits name : Text) (quote : Quote), m.slot = Slot.ofAttribute name quote ∧
      (∀ c ∈ blanks, Text.isBlank c = true) ∧ IsIndex digits ∧ name ≠ [] ∧ quote.char ∉ name ∧
        w = blanks ++ lead ++ digits ++ '=' :: quote.char :: name ++ [quote.char] := by
  cases word with
  | @comment digits index => exact .inl ⟨rfl, digits, index, rfl⟩
  | @assignment blanks digits name quote blank index named unquoted =>
      exact .inr ⟨blanks, digits, name, quote, rfl, blank, index, named, unquoted, rfl⟩

namespace Plan

/-- A plan has as many slots as segments with a slot. -/
theorem slots_eq_length (p : Plan) : p.slots = (p.segments.filterMap Segment.slot).length := by
  rw [slots, ← List.countP_eq_length_filter, List.length_filterMap_eq_countP]
  exact List.countP_congr fun s _ => by simp [Segment.isStatic]

/-- Compiling is a decision on the number of markers that a scan of the trimmed markup finds. -/
theorem ofMarked_eq (lead marked : Text) (expected : Nat) (source : Text) :
    ofMarked lead marked expected source =
      if (Marker.scan lead (Text.trim marked)).1.length = expected then
        .ok ⟨Segment.ofMarkers (Marker.scan lead (Text.trim marked)).1
          (Marker.scan lead (Text.trim marked)).2⟩
      else
        .error (.templateShape source expected (Marker.scan lead (Text.trim marked)).1.length) :=
  rfl

/-- The plan of marked markup is the cut of the trimmed markup, with a slot for each marker by its
form, and filling it loses nothing. -/
theorem ofMarked_eq_cut (lead marked : Text) (expected : Nat) (source : Text) :
    ∃ (pieces : List Piece) (post : Text),
      Marker.scan lead (Text.trim marked) = (pieces.map Piece.found, post) ∧
      Marker.Cut lead (Text.trim marked) pieces post ∧
      (∀ p ∈ pieces,
        (p.marker.slot = .text ∧ ∃ digits : Text, Marker.IsIndex digits ∧
          p.word = "<!--".toList ++ lead ++ digits ++ "-->".toList) ∨
        ∃ (blanks digits name : Text) (quote : Quote), p.marker.slot = Slot.ofAttribute name quote ∧
          (∀ c ∈ blanks, Text.isBlank c = true) ∧ Marker.IsIndex digits ∧ name ≠ [] ∧
            quote.char ∉ name ∧
              p.word = blanks ++ lead ++ digits ++ '=' :: quote.char :: name ++ [quote.char]) ∧
      (pieces.length ≠ expected →
        ofMarked lead marked expected source =
          .error (.templateShape source expected pieces.length)) ∧
      (pieces.length = expected → ∃ plan : Plan,
        ofMarked lead marked expected source = .ok plan ∧
        (pieces = [] → plan.segments = [⟨Text.trim marked, none, []⟩]) ∧
        (pieces ≠ [] → plan.segments = pieces.mapIdx fun i p =>
          ⟨p.pre, some p.marker.slot, if i + 1 = pieces.length then post else []⟩) ∧
        ∀ values : List Value, plan.fill values =
          (pieces.mapIdx fun i p => p.pre ++ p.marker.slot.render (values.getD i .null)).flatten ++
            post) := by
  obtain ⟨pieces, found, cut⟩ := Marker.exists_cut lead (Text.trim marked)
  generalize (Marker.scan lead (Text.trim marked)).2 = post at found cut
  have counted : (pieces.map Piece.found).length = pieces.length := List.length_map _
  refine ⟨pieces, post, found, cut, fun p member => (cut.words p member).slot_cases, ?_, ?_⟩
  · intro unexpected
    rw [ofMarked_eq, found, counted, if_neg unexpected]
  · intro expects
    refine ⟨⟨Segment.ofMarkers (pieces.map Piece.found) post⟩, ?_, ?_, ?_, ?_⟩
    · rw [ofMarked_eq, found, counted, if_pos expects]
    · rintro rfl
      obtain rfl : post = Text.trim marked := cut.joined
      rfl
    · intro ne
      exact Segment.ofMarkers_map Piece.pre pieces post ne
    · intro values
      exact Segment.fillAll_ofMarkers pieces post values

end Plan

end Stencil
