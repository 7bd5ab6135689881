/-
# Stencil.Proofs.Plan.Alignment -- one segment for each slot

A plan is aligned with a number of slots if it has one segment for each of them, or a single one
without a slot if there are none.  Compiling gives aligned plans only (`Plan.aligned_of_ofMarked`),
and filling an aligned plan with one value for each slot gives each segment its own value
(`Plan.Aligned.fill_eq`): no value is left over, and none is missing.
-/
import Stencil.Proofs.Plan.Compiling

set_option autoImplicit false

namespace Stencil

namespace Segment

/-- With markers every segment has a slot. -/
theorem isStatic_of_mem_ofMarkers : ∀ {found : List (Text × Marker)} {post : Text},
    found ≠ [] → ∀ s ∈ ofMarkers found post, s.isStatic = false
  | [], _, ne => absurd rfl ne
  | [_], _, _ => fun _ member => List.mem_singleton.1 member ▸ rfl
  | _ :: next :: more, _, _ => by
      intro s member
      rcases List.mem_cons.1 member with rfl | member
      · rfl
      · exact isStatic_of_mem_ofMarkers (List.cons_ne_nil next more) s member

theorem length_ofMarkers : ∀ (found : List (Text × Marker)) (post : Text),
    (ofMarkers found post).length = max found.length 1
  | [], _ => rfl
  | [_], _ => rfl
  | _ :: next :: more, post => by
      have rest := length_ofMarkers (next :: more) post
      rw [ofMarkers, List.length_cons, rest]
      · simp
      · exact List.cons_ne_nil next more

/-- As many values as segments are used once each. -/
theorem fillAll_eq_flatten_zipWith : ∀ {segments : List Segment} {values : List Value},
    segments.length = values.length →
      fillAll segments values = (List.zipWith fill segments values).flatten
  | [], [], _ => rfl
  | s :: more, v :: values, same => by
      rw [fillAll, List.zipWith_cons_cons, List.flatten_cons,
        fillAll_eq_flatten_zipWith (Nat.succ.inj same)]

end Segment

namespace Plan

/-- The plan has a segment for each of so many slots, or one without a slot for none. -/
structure Aligned (p : Plan) (n : Nat) : Prop where
  slots_eq : p.slots = n
  length_eq : p.segments.length = max n 1
  static : ∀ s ∈ p.segments, s.isStatic = true → n = 0

/-- Compiled plans are aligned with the expected number of slots. -/
theorem aligned_of_ofMarked {lead marked source : Text} {expected : Nat} {plan : Plan}
    (compiled : ofMarked lead marked expected source = .ok plan) : plan.Aligned expected := by
  rw [ofMarked_eq] at compiled
  generalize (Marker.scan lead (Text.trim marked)).1 = found at compiled
  generalize (Marker.scan lead (Text.trim marked)).2 = post at compiled
  split at compiled
  · next count =>
    obtain rfl := Except.ok.inj compiled
    subst count
    by_cases none : found = []
    · subst none
      exact ⟨rfl, rfl, fun _ _ _ => rfl⟩
    · have dynamic : ∀ s ∈ Segment.ofMarkers found post, s.isStatic = false :=
        Segment.isStatic_of_mem_ofMarkers none
      have length := Segment.length_ofMarkers found post
      have pos := List.length_pos_iff.2 none
      refine ⟨?_, length, fun s member isStatic => ?_⟩
      · rw [slots, List.filter_eq_self.2 fun s member => by rw [dynamic s member]; rfl, length]
        omega
      · rw [dynamic s member] at isStatic
        cases isStatic
  · cases compiled

variable {p : Plan} {n : Nat} {values : List Value}

theorem Aligned.length_of_pos (aligned : p.Aligned n) (some : 0 < n) : p.segments.length = n := by
  rw [aligned.length_eq]
  omega

/-- One value for each slot fills the segments, each with its own value. -/
theorem Aligned.fill_eq (aligned : p.Aligned n) (some : 0 < n) (count : values.length = n) :
    p.fill values = (List.zipWith Segment.fill p.segments values).flatten :=
  Segment.fillAll_eq_flatten_zipWith ((aligned.length_of_pos some).trans count.symm)

/-- Without slots the plan is one segment without a slot. -/
theorem Aligned.exists_static (aligned : p.Aligned 0) :
    ∃ pre post : Text, p.segments = [⟨pre, none, post⟩] := by
  obtain ⟨⟨pre, slot, post⟩, only⟩ := List.length_eq_one_iff.1 aligned.length_eq
  cases slot with
  | none => exact ⟨pre, post, only⟩
  | some slot =>
      have counted := aligned.slots_eq
      rw [slots, only] at counted
      cases counted

/-- Without slots filling writes the fixed text, whatever the values. -/
theorem Aligned.fill_eq_of_zero (aligned : p.Aligned 0) (values : List Value) :
    p.fill values = p.segments.flatMap fun s => s.pre ++ s.post := by
  obtain ⟨pre, post, only⟩ := aligned.exists_static
  rw [fill, only]
  cases values <;> simp [Segment.fillAll, Segment.fill]

/-- Dynamic segments are found under the numbers of their slots. -/
theorem getElem?_filterMap_slot : ∀ {segments : List Segment},
    (∀ s ∈ segments, s.isStatic = false) →
      ∀ i : Nat, (segments.filterMap Segment.slot)[i]? = segments[i]?.bind Segment.slot
  | [], _, i => by simp
  | ⟨pre, none, post⟩ :: _, dynamic, _ => nomatch dynamic _ (List.mem_cons_self ..)
  | ⟨pre, some slot, post⟩ :: more, dynamic, 0 => rfl
  | ⟨pre, some slot, post⟩ :: more, dynamic, i + 1 => by
      have rest := getElem?_filterMap_slot (List.forall_mem_cons.1 dynamic).2 i
      rw [List.getElem?_cons_succ, ← rest]
      rfl

/-- The segment under a number is that of the slot with this number. -/
theorem Aligned.getElem?_slots (aligned : p.Aligned n) (i : Nat) :
    (p.segments.filterMap Segment.slot)[i]? = p.segments[i]?.bind Segment.slot := by
  cases n with
  | zero =>
      obtain ⟨pre, post, only⟩ := aligned.exists_static
      rw [only]
      cases i <;> rfl
  | succ n =>
      refine getElem?_filterMap_slot (fun s member => ?_) i
      rw [← Bool.not_eq_true]
      intro isStatic
      exact nomatch aligned.static s member isStatic

/-- With one value for each slot every slot finds a value. -/
theorem Aligned.exists_value (aligned : p.Aligned n) (count : values.length = n) {i : Nat}
    {slot : Slot} (here : p.segments[i]?.bind Segment.slot = some slot) :
    ∃ v, values[i]? = some v := by
  have inRange : i < (p.segments.filterMap Segment.slot).length :=
    (List.getElem?_eq_some_iff.1 ((aligned.getElem?_slots i).trans here)).1
  rw [← p.slots_eq_length, aligned.slots_eq] at inRange
  exact ⟨values[i], List.getElem?_eq_getElem (by omega)⟩

/-- Each number of a slot has a segment with a slot. -/
theorem Aligned.exists_segment (aligned : p.Aligned n) {i : Nat} (bound : i < n) :
    ∃ (pre post : Text) (slot : Slot), p.segments[i]? = some ⟨pre, some slot, post⟩ := by
  have inRange : i < p.segments.length := by
    rw [aligned.length_of_pos (Nat.zero_lt_of_lt bound)]
    exact bound
  have here := List.getElem?_eq_getElem inRange
  generalize p.segments[i] = s at here
  obtain ⟨pre, slot, post⟩ := s
  cases slot with
  | none =>
      have none := aligned.static _ (List.mem_of_getElem? here) rfl
      omega
  | some slot => exact ⟨pre, post, slot, here⟩

/-- With one value for each slot, the segment of a slot writes the slot's own value between its
texts. -/
theorem Aligned.getElem?_fill (aligned : p.Aligned n) (count : values.length = n) {i : Nat}
    (bound : i < n) :
    ∃ (pre post : Text) (slot : Slot) (v : Value),
      p.segments[i]? = some ⟨pre, some slot, post⟩ ∧ values[i]? = some v ∧
        (List.zipWith Segment.fill p.segments values)[i]? =
          some (pre ++ slot.render v ++ post) := by
  obtain ⟨pre, post, slot, segment⟩ := aligned.exists_segment bound
  have value : values[i]? = some values[i] := List.getElem?_eq_getElem (count ▸ bound)
  refine ⟨pre, post, slot, values[i], segment, value, ?_⟩
  rw [List.getElem?_zipWith, segment, value]
  rfl

end Plan

end Stencil
