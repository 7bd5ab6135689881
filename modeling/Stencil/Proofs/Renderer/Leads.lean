/-
# Stencil.Proofs.Renderer.Leads -- renderers with different leads share their plans

A renderer may make its lead from the time, so two renderers of one kind hardly ever have the same.
Yet the lead is not part of what a plan is kept under.  It need not be: with leads that stay apart
from the template (`Renderer.Discreet`) both compile the same plan, or are refused with the same
error, and whatever such renderers render through shared caches, each gets what it would get alone
(`Pool.lead_leaves_no_trace`).

It is not enough that the lead is in no fragment.  Marking does not check the quotes of a template,
so the name of an attribute may run on into the next fragment, and there make up the lead
(`Pool.lead_leaves_trace`).
-/
import Stencil.Proofs.Marking.Compiling
import Stencil.Proofs.Marking.Leads
import Stencil.Proofs.Renderer.TextOnly

set_option autoImplicit false

namespace Stencil

namespace Renderer

variable {r r' : Renderer} {t : Template}

/-- The lead is plain and in none of the fragments, and does not come up where attributes are
marked and their names are joined to what follows. -/
structure Discreet (r : Renderer) (t : Template) : Prop where
  plain : Marker.Plain r.lead
  apart : ∀ f ∈ t.fragments, ¬ r.lead <:+: f
  joined : r.marking ≠ Marking.textOnly → ∀ i a q, Marking.InForm t.fragments i a →
    a.quote = some q → ¬ r.lead <:+: a.name ++ Marking.textBefore t.fragments (i + 1)

/-- A lead with a character that is in no fragment is discreet. -/
theorem discreet_of_missing (plain : Marker.Plain r.lead) {c : Char} (inLead : c ∈ r.lead)
    (missing : ∀ f ∈ t.fragments, c ∉ f) : r.Discreet t where
  plain := plain
  apart f member held := missing f member (held.subset inLead)
  joined _ i a q form _ held := by
    rcases List.mem_append.1 (held.subset inLead) with inName | inText
    · exact missing _ (Marking.getD_mem (Nat.lt_of_succ_lt form.slot))
        (form.name_infix.subset inName)
    · exact missing _ (Marking.getD_mem form.slot)
        ((Marking.textBefore_prefix_getD t.fragments (i + 1)).subset inText)

/-- A lead in no fragment is discreet if no attributes are marked, or if every quote that an
assignment opens is closed at the front of the next fragment. -/
theorem discreet_of_apart (plain : Marker.Plain r.lead) (apart : ∀ f ∈ t.fragments, ¬ r.lead <:+: f)
    (inPlace : r.marking = Marking.textOnly ∨ Marking.Closed t.fragments) : r.Discreet t where
  plain := plain
  apart := apart
  joined other := by
    rcases inPlace with texts | closed
    · exact absurd texts other
    · exact (closed.absent plain apart).joined

/-- With markup marked, the plan is told by the texts of the fragments. -/
theorem planAnew_markup {svg : Bool} (kind : r.marking = Marking.markup svg)
    (discreet : r.Discreet t) : r.planAnew t = Marking.planOf svg t.fragments t.source := by
  have other : r.marking ≠ Marking.textOnly := by
    rw [kind]
    intro same
    cases svg <;> exact absurd (congrArg Marking.variant same) (by decide)
  obtain ⟨marked, made, compiled⟩ := Marking.ofMarked_markup discreet.plain
    ⟨discreet.apart, discreet.joined other⟩ t.fragments_ne_nil svg t.source
  rw [planAnew, kind, made]
  exact compiled

/-- Two leads give the same plan, or the same error. -/
theorem planAnew_eq_of_discreet (standard : r.marking.Standard) (same : r'.marking = r.marking)
    (discreet : r.Discreet t) (discreet' : r'.Discreet t) : r.planAnew t = r'.planAnew t := by
  generalize kind : r.marking = m at standard same
  cases standard with
  | textOnly =>
      rw [planAnew_textOnly kind discreet.plain discreet.apart,
        planAnew_textOnly same discreet'.plain discreet'.apart]
  | markup svg => rw [planAnew_markup kind discreet, planAnew_markup same discreet']

end Renderer

/-- The library's markings with discreet leads make compatible requests. -/
theorem Request.compatible_of_discreet {requests : List Request}
    (distinct : Template.Distinct (requests.map Request.template))
    (discreet : ∀ q ∈ requests, q.renderer.marking.Standard ∧ q.renderer.Discreet q.template) :
    Request.Compatible requests := by
  intro q member q' member' _ sameKey
  obtain ⟨standard, ownLead⟩ := discreet q member
  obtain ⟨standard', otherLead⟩ := discreet q' member'
  obtain ⟨sameId, sameVariant⟩ := CacheKey.mk.inj sameKey
  have sameTemplate : q.template = q'.template :=
    distinct _ (List.mem_map_of_mem member) _ (List.mem_map_of_mem member') sameId
  have sameMarking := standard.eq_of_variant standard' sameVariant
  rw [← sameTemplate] at otherLead
  rw [planAnew, planAnew, ← sameTemplate,
    Renderer.planAnew_eq_of_discreet standard sameMarking.symm ownLead otherLead]

namespace Pool

/-- The lead leaves no trace: two renderers of one of the library's markings, whose leads are
discreet, compile the same plan of a template or are refused with the same error, and requests to
such renderers are served through shared caches as if each were alone.  A plain lead in no fragment
is discreet where only texts are marked and where all quotes are closed in place, and a plain lead
with a character that is in no fragment is discreet for all markings. -/
theorem lead_leaves_no_trace :
    (∀ (r r' : Renderer) (t : Template), r.marking.Standard → r'.marking = r.marking →
      r.Discreet t → r'.Discreet t → r.planAnew t = r'.planAnew t) ∧
    (∀ (r : Renderer) (t : Template), Marker.Plain r.lead →
      (∀ f ∈ t.fragments, ¬ r.lead <:+: f) →
      r.marking = Marking.textOnly ∨ Marking.Closed t.fragments → r.Discreet t) ∧
    (∀ (r : Renderer) (t : Template) (c : Char), Marker.Plain r.lead → c ∈ r.lead →
      (∀ f ∈ t.fragments, c ∉ f) → r.Discreet t) ∧
    ∀ (requests : List Request) (p : Pool),
      Template.Distinct (requests.map Request.template) →
      (∀ q ∈ requests, q.renderer.marking.Standard ∧ q.renderer.Discreet q.template) →
      (∀ number, p.cache number = Cache.empty) →
        (p.renderAll requests).1 = requests.map Request.alone := by
  refine ⟨?_, ?_, ?_, ?_⟩
  · intro r r' t standard same discreet discreet'
    exact Renderer.planAnew_eq_of_discreet standard same discreet discreet'
  · intro r t plain apart inPlace
    exact Renderer.discreet_of_apart plain apart inPlace
  · intro r t c plain inLead missing
    exact Renderer.discreet_of_missing plain inLead missing
  · intro requests p distinct discreet fresh
    have compatible := Request.compatible_of_discreet distinct discreet
    exact renderAll_of_honest compatible requests p (honest_of_empty fresh) fun _ member => member

/-! ## Leads from the time, and a lead that a template makes up -/

/-- A template whose quote is closed by the quote of a later attribute. -/
def torn : Template where
  id := 2
  fragments := ["<i xa=\"".toList, "b7='k'".toList]
  fragments_ne_nil := List.cons_ne_nil _ _

theorem discreet_timed (millis : Nat) (marking : Marking) {t : Template}
    (missing : ∀ f ∈ t.fragments, 'µ' ∉ f) : (timed millis marking).Discreet t :=
  Renderer.discreet_of_missing (Settings.plain_timedLead millis)
    (List.mem_cons_of_mem _ (List.mem_cons_of_mem _ (List.mem_cons_self ..))) missing

/-- Renderers made at two times, one template that is compiled and one that is refused. -/
def atTwoTimes : List Request := [
  ⟨timed 7 (Marking.markup false), card, [.text ['x'], .null]⟩,
  ⟨timed 17 (Marking.markup false), card, [.null, .text ['y']]⟩,
  ⟨timed 17 (Marking.markup false), torn, [.null]⟩,
  ⟨timed 7 (Marking.markup false), torn, [.null]⟩]

theorem discreet_atTwoTimes : ∀ q ∈ atTwoTimes,
    q.renderer.marking.Standard ∧ q.renderer.Discreet q.template := by
  intro q member
  simp only [atTwoTimes, List.mem_cons, List.not_mem_nil, or_false] at member
  rcases member with rfl | rfl | rfl | rfl
  all_goals exact ⟨.markup false, discreet_timed _ _ (by decide)⟩

theorem distinct_atTwoTimes : Template.Distinct (atTwoTimes.map Request.template) := by
  intro t member t' member' same
  simp only [atTwoTimes, List.map_cons, List.map_nil, List.mem_cons, List.not_mem_nil, or_false]
    at member member'
  rcases member with rfl | rfl | rfl | rfl <;> rcases member' with rfl | rfl | rfl | rfl
  all_goals first | rfl | exact absurd same (by decide)

/-- The plan of the one template and the error for the other do not tell the time; a lead from the
time is discreet as it has a character that the template has not, and a lead that is made of
characters of a template is discreet there too. -/
theorem no_trace_of_time :
    Template.Distinct (atTwoTimes.map Request.template) ∧
      (∀ q ∈ atTwoTimes, q.renderer.marking.Standard ∧ q.renderer.Discreet q.template) ∧
      (∀ number, empty.add.2.cache number = Cache.empty) ∧
      (timed 7 (Marking.markup false)).planAnew card =
        (timed 17 (Marking.markup false)).planAnew card ∧
      (timed 17 (Marking.markup false)).planAnew card =
        .ok ⟨[⟨"<p".toList, some (.attribute ['a'] .double), []⟩,
          ⟨"></p>".toList, some .text, []⟩]⟩ ∧
      (timed 7 (Marking.markup false)).planAnew torn =
        (timed 17 (Marking.markup false)).planAnew torn ∧
      (timed 17 (Marking.markup false)).planAnew torn = .error (.templateShape torn.source 1 0) ∧
      (∀ f ∈ torn.fragments, 'µ' ∉ f) ∧ (timed 7 (Marking.markup false)).Discreet torn ∧
      Marker.Plain ['i', 's', '1'] ∧
      (∀ f ∈ Marking.forms.fragments, ¬ ['i', 's', '1'] <:+: f) ∧
      Marking.Closed Marking.forms.fragments ∧
      (ofFirstCache false false ['i', 's', '1'] Minifier.trimming).Discreet Marking.forms ∧
      (empty.add.2.renderAll atTwoTimes).1 = atTwoTimes.map Request.alone := by
  obtain ⟨samePlan, inPlace, ofMissing, shared⟩ := lead_leaves_no_trace
  have missing : ∀ f ∈ torn.fragments, 'µ' ∉ f := by decide
  have inLead : 'µ' ∈ Settings.timedLead 7 := by decide
  refine ⟨distinct_atTwoTimes, discreet_atTwoTimes, fresh_add, ?_, by decide, ?_, by decide,
    missing, ofMissing _ _ 'µ' (Settings.plain_timedLead 7) inLead missing, Marking.plain_is1,
    Marking.absent_forms, Marking.closed_forms,
    inPlace _ _ Marking.plain_is1 Marking.absent_forms (.inr Marking.closed_forms),
    shared atTwoTimes _ distinct_atTwoTimes discreet_atTwoTimes fresh_add⟩
  · exact samePlan _ _ card (.markup false) rfl (discreet_timed 7 _ (by decide))
      (discreet_timed 17 _ (by decide))
  · exact samePlan _ _ torn (.markup false) rfl (discreet_timed 7 _ (by decide))
      (discreet_timed 17 _ (by decide))

/-- Two plain leads in no fragment of the template: the one comes up where the name of the
attribute runs on into the next fragment, and makes a marker there that the other does not. -/
theorem lead_leaves_trace :
    Marker.Plain ['a', 'b'] ∧ Marker.Plain ['c', 'd'] ∧
      (∀ f ∈ torn.fragments, ¬ ['a', 'b'] <:+: f ∧ ¬ ['c', 'd'] <:+: f) ∧
      ∀ svg : Bool,
        (ofFirstCache svg false ['a', 'b'] Minifier.trimming).planAnew torn =
            .ok ⟨[⟨"<i ab0=\"x".toList, some (.attribute ['k'] .single), []⟩]⟩ ∧
          (ofFirstCache svg false ['c', 'd'] Minifier.trimming).planAnew torn =
            .error (.templateShape torn.source 1 0) := by
  refine ⟨by decide, by decide, ?_, by decide⟩
  have missing : ∀ f ∈ torn.fragments, ¬ ['a', 'b'] ⊆ f ∧ ¬ ['c', 'd'] ⊆ f := by decide
  exact fun f member => (missing f member).imp (· ·.subset) (· ·.subset)

end Pool

end Stencil
