/-
# Stencil.Proofs.Marking.Leads -- a plan does not depend on the lead

Renderers mark templates with different leads, and share the plans.  The lead of a plan's maker
leaves no trace in it if it is plain, in none of the fragments, and does not come up where marking
joins the name of an attribute to the text behind its opening quote (`Marking.Absent`): two such
leads give the same plan, or are refused with the same number of markers.

What a scan finds in the marked fragments is told by the fronts and the texts between them alone.
How many markers it finds is their count (`Marker.found`).  If it is the number of the slots, every
quote is closed in the text behind it, the texts are proper, and the markers are where the fronts
were put (`Link.markers`).  `Marking.planOf` puts this together without a lead, and
`Marking.ofMarked_markup` says that it is the plan.
-/
import Stencil.Plan
import Stencil.Proofs.Marking.Links
import Stencil.Proofs.Plan.Compiling

set_option autoImplicit false

namespace Stencil

variable {lead : Text} {fragments : List Text}

namespace Marking

/-! ## The plan without the lead -/

/-- The texts of the fragments with the fronts between them, trimmed, and written out unless
elements may close themselves. -/
def markedLinks (svg : Bool) (fragments : List Text) : Text × List Link :=
  let first := Link.trimFirst (linkText fragments 0) (links fragments)
  let others := Link.trimLast (links fragments)
  if svg then (first, others)
  else ((SelfClosing.close none first).1, Link.closeLinks (SelfClosing.close none first).2 others)

/-- The plan of marked fragments, told by their texts. -/
def planOf (svg : Bool) (fragments : List Text) (source : Text) : Except Error Plan :=
  let count := Marker.found ((links fragments).map Link.shape)
  let (markers, post) := Link.markers (markedLinks svg fragments).1 (markedLinks svg fragments).2
  if count = fragments.length - 1 then .ok ⟨Segment.ofMarkers markers post⟩
  else .error (.templateShape source (fragments.length - 1) count)

/-- Marked fragments are trimmed, and joined and trimmed fragments with some elements closed. -/
theorem exists_marked (svg : Bool) (fragments : List Text) (lead : Text) :
    ∃ marked, (markup svg).mark fragments lead = .ok marked ∧ Text.trim marked = marked ∧
      SelfClosing.Rewrites (fun name => ∀ c ∈ name, Text.isTagNameChar c = true)
        (Text.trim (joinMarkup lead [] 0 fragments)) marked := by
  have trimmed := Text.trim_trim (joinMarkup lead [] 0 fragments)
  cases svg with
  | true => exact ⟨_, rfl, trimmed, .refl _⟩
  | false =>
      have whole : SelfClosing.Rewrites (fun name => ∀ c ∈ name, Text.isTagNameChar c = true)
          (Text.trim (joinMarkup lead [] 0 fragments)) _ :=
        SelfClosing.rewrites_writeOut fun _ _ chars _ => chars
      exact ⟨_, rfl, whole.trim, whole⟩

theorem length_links (fragments : List Text) :
    (links fragments).length = fragments.length - 1 := by
  rw [links, List.length_map, List.length_range']

theorem Absent.ready_links (absent : Absent lead fragments) (plain : Marker.Plain lead) :
    ∀ l ∈ links fragments, l.Ready lead := by
  intro l member
  obtain ⟨i, inRange, rfl⟩ := List.mem_map.1 member
  have bound := (List.mem_range'_1.1 inRange).2
  exact absent.ready_link plain (by omega)

/-- If as many markers are found as there are slots, the texts are proper. -/
theorem Absent.proper_of_found (absent : Absent lead fragments) (plain : Marker.Plain lead)
    (ne : fragments ≠ []) (all : Marker.found ((links fragments).map Link.shape) =
      fragments.length - 1) :
    Link.Proper lead (linkText fragments 0) (links fragments) := by
  have some := List.length_pos_iff.2 ne
  refine absent.proper_links plain (fun i slot q opens => ?_) _ 0 (by omega)
  have member : (link fragments i).shape ∈ (links fragments).map Link.shape := by
    refine List.mem_map.2 ⟨_, List.mem_map.2 ⟨i, ?_, rfl⟩, rfl⟩
    rw [List.mem_range'_1]
    omega
  rw [← length_links, ← List.length_map Link.shape] at all
  exact Marker.quotesIn_eq_true_iff.1 (Marker.closes_of_found all _ member q opens)

/-- What a scan of proper marked fragments finds is told by their texts. -/
theorem scan_marked (plain : Marker.Plain lead) (ne : fragments ≠ [])
    (proper : Link.Proper lead (linkText fragments 0) (links fragments)) {svg : Bool}
    {marked : Text} (made : (markup svg).mark fragments lead = .ok marked) :
    Marker.scan lead marked =
      Link.markers (markedLinks svg fragments).1 (markedLinks svg fragments).2 := by
  have trimmed := proper.trim
  have joined : Text.trim (joinMarkup lead [] 0 fragments) = _ :=
    (congrArg Text.trim (joinMarkup_eq_links lead ne)).trans
      (Link.trim_join plain (linkText fragments 0) (links fragments))
  cases svg with
  | true =>
      obtain rfl : Text.trim (joinMarkup lead [] 0 fragments) = marked := Except.ok.inj made
      rw [joined]
      exact Link.scan_join plain trimmed
  | false =>
      obtain rfl : SelfClosing.writeOut (Text.trim (joinMarkup lead [] 0 fragments)) = marked :=
        Except.ok.inj made
      rw [joined, SelfClosing.writeOut_eq_close, Link.close_join plain trimmed]
      exact Link.scan_join plain (trimmed.close plain nofun)

/-- Marked fragments are compiled to the plan that their texts tell, whatever the lead. -/
theorem ofMarked_markup (plain : Marker.Plain lead) (absent : Absent lead fragments)
    (ne : fragments ≠ []) (svg : Bool) (source : Text) :
    ∃ marked, (markup svg).mark fragments lead = .ok marked ∧
      Plan.ofMarked lead marked (fragments.length - 1) source = planOf svg fragments source := by
  obtain ⟨marked, made, trimmed, rewrites⟩ := exists_marked svg fragments lead
  have some := List.length_pos_iff.2 ne
  rw [joinMarkup_eq_links lead ne] at rewrites
  have count := Link.count_of_rewrites plain (fun _ chars => chars)
    (Marker.quiet_of_free (absent.free_linkText plain some)) (absent.ready_links plain) rewrites
  rw [Marker.count] at count
  refine ⟨marked, made, ?_⟩
  rw [Plan.ofMarked_eq, trimmed, count, planOf]
  split
  · next all =>
    rw [scan_marked plain ne (absent.proper_of_found plain ne all) made]
  · rfl

/-! ## The library's markings -/

/-- The markings that mark every slot of the template. -/
inductive Standard : Marking → Prop where
  | textOnly : Standard Marking.textOnly
  | markup (svg : Bool) : Standard (Marking.markup svg)

/-- The variant tells such a marking. -/
theorem Standard.eq_of_variant {m m' : Marking} (standard : Standard m) (standard' : Standard m')
    (same : m.variant = m'.variant) : m = m' := by
  cases standard with
  | textOnly =>
      cases standard' with
      | textOnly => rfl
      | markup svg => cases svg <;> exact absurd same (by decide)
  | markup svg =>
      cases standard' with
      | textOnly => cases svg <;> exact absurd same (by decide)
      | markup svg' => cases svg <;> cases svg' <;> first | rfl | exact absurd same (by decide)

end Marking

end Stencil
