/-
# Stencil.Proofs.Renderer.Quoting -- what becomes of quotes that are not closed in place

A template may put more into the quotes of an attribute than a slot.  Nothing but the number of
markers is checked when it is compiled, so it is refused only if it leaves a quote out of the next
fragment altogether.  Otherwise what stands before the quote is taken for a part of the attribute's
name (`Renderer.planAnew_quotes`), and the template is compiled with a name that it does not write
(`Renderer.planAnew_of_late_quote`).
-/
import Stencil.Proofs.Marking.Quoting
import Stencil.Proofs.Renderer.Leads

set_option autoImplicit false

namespace Stencil

namespace Renderer

variable {r : Renderer} {t : Template} {svg : Bool}

/-- With a discreet lead, a template is refused with too few markers exactly if a quote that it
opens before a slot is not in the next fragment, before the assignment in which that may end.
Otherwise it is compiled to its slots in order, and an attribute has its own name exactly if its
quote is closed at the front of the next fragment, or not opened. -/
theorem planAnew_quotes (kind : r.marking = Marking.markup svg) (discreet : r.Discreet t) :
    (Marking.Quoted t.fragments → ∃ plan, r.planAnew t = .ok plan ∧ plan.slots = t.slots ∧
      ∀ i < t.slots, ∃ slot, (plan.segments.filterMap Segment.slot)[i]? = some slot ∧
        ((∀ a, ¬ Marking.InForm t.fragments i a) → slot = .text) ∧
        ∀ a, Marking.InForm t.fragments i a → ∃ name,
          slot = Slot.ofAttribute name (a.quote.getD .double) ∧
          Marking.ReadAs svg t.fragments i a name ∧
          (name = a.name ↔ ∀ q, a.quote = some q →
            (t.fragments.getD (i + 1) []).head? = some q.char)) ∧
    (¬ Marking.Quoted t.fragments → ∃ found < t.slots,
      r.planAnew t = .error (.templateShape t.source t.slots found)) := by
  rw [planAnew_markup kind discreet]
  constructor
  · intro quoted
    obtain ⟨plan, compiled, count, each⟩ := Marking.planOf_of_quoted quoted
    refine ⟨plan, compiled, count, fun i bound => ?_⟩
    have slot : i + 1 < t.fragments.length := by
      rw [Template.slots] at bound
      omega
    obtain ⟨slot, here, texts, attributes⟩ := each i slot
    refine ⟨slot, here, texts, fun a form => ?_⟩
    obtain ⟨name, read, same⟩ := attributes a form
    refine ⟨name, same, read, ?_⟩
    rw [read.eq_name_iff form, Marking.textBeforeQuote_eq_nil_iff quoted form]
  · exact Marking.planOf_of_not_quoted

/-! ## A quote that is closed late, and one that is never closed -/

/-- A template with more than a slot in the quotes of an attribute. -/
def halfFixed : Template where
  id := 3
  fragments := ["<p class=\"".toList, " b\">".toList]
  fragments_ne_nil := List.cons_ne_nil _ _

/-- Its slot is the value of an attribute whose quote is not closed in place. -/
theorem inForm_halfFixed : Marking.InForm halfFixed.fragments 0
    ⟨"<p ".toList, "class".toList, [], [], some .double⟩ :=
  Marking.slotForm?_eq_some_iff.1 (by decide)

theorem plain_z : Marker.Plain ['z'] := by decide

theorem discreet_of_z {t : Template} (missing : ∀ f ∈ t.fragments, 'z' ∉ f) :
    (Pool.ofFirstCache false false ['z'] Minifier.trimming).Discreet t :=
  discreet_of_missing plain_z (List.mem_cons_self ..) missing

/-- The one template is compiled, with a slot that has not the attribute's own name, and the other
is refused. -/
theorem planAnew_halfFixed :
    (Pool.ofFirstCache false false ['z'] Minifier.trimming).Discreet halfFixed ∧
      Marking.Quoted halfFixed.fragments ∧
      (∃ plan name, (Pool.ofFirstCache false false ['z'] Minifier.trimming).planAnew halfFixed =
          .ok plan ∧ plan.slots = 1 ∧
        (plan.segments.filterMap Segment.slot)[0]? = some (Slot.ofAttribute name .double) ∧
        name ≠ "class".toList) ∧
      (Pool.ofFirstCache false false ['z'] Minifier.trimming).Discreet Pool.torn ∧
      ¬ Marking.Quoted Pool.torn.fragments ∧
      ∃ found < 1, (Pool.ofFirstCache false false ['z'] Minifier.trimming).planAnew Pool.torn =
        .error (.templateShape Pool.torn.source 1 found) := by
  have quoted : Marking.Quoted halfFixed.fragments := by decide
  have unquoted : ¬ Marking.Quoted Pool.torn.fragments := by decide
  have discreet := discreet_of_z (t := halfFixed) (by decide)
  have discreet' := discreet_of_z (t := Pool.torn) (by decide)
  obtain ⟨plan, compiled, count, each⟩ := (planAnew_quotes rfl discreet).1 quoted
  obtain ⟨slot, here, -, attributes⟩ := each 0 Nat.one_pos
  obtain ⟨name, rfl, -, own⟩ := attributes _ inForm_halfFixed
  have late : name ≠ "class".toList := fun same => absurd (own.1 same .double rfl) (by decide)
  exact ⟨discreet, quoted, ⟨plan, name, compiled, count, here, late⟩, discreet', unquoted,
    (planAnew_quotes rfl discreet').2 unquoted⟩

/-- Two templates whose quotes are not closed in place are compiled: the one takes the text before
the quote for a part of the name, and in the other the name runs on into the next fragment and makes
up a marker there. -/
theorem planAnew_of_late_quote :
    Marker.Plain ['z'] ∧ (∀ f ∈ halfFixed.fragments, ¬ ['z'] <:+: f) ∧
      Marking.InForm halfFixed.fragments 0
        ⟨"<p ".toList, "class".toList, [], [], some .double⟩ ∧
      (halfFixed.fragments.getD 1 []).head? ≠ some Quote.double.char ∧
      (∀ svg : Bool,
        (Pool.ofFirstCache svg false ['z'] Minifier.trimming).planAnew halfFixed =
          .ok ⟨[⟨"<p".toList, some (.attribute "class b".toList .double), ">".toList⟩]⟩) ∧
      Marker.Plain ['a', 'b'] ∧ (∀ f ∈ Pool.torn.fragments, ¬ ['a', 'b'] <:+: f) ∧
      ¬ Marking.Quoted Pool.torn.fragments ∧
      ∀ svg : Bool, (Pool.ofFirstCache svg false ['a', 'b'] Minifier.trimming).planAnew Pool.torn =
        .ok ⟨[⟨"<i ab0=\"x".toList, some (.attribute ['k'] .single), []⟩]⟩ := by
  have absent : ∀ f ∈ halfFixed.fragments, ¬ ['z'] ⊆ f := by decide
  have absent' : ∀ f ∈ Pool.torn.fragments, ¬ ['a', 'b'] ⊆ f := by decide
  refine ⟨plain_z, fun f member held => absent f member held.subset, inForm_halfFixed, by decide,
    by decide, by decide, fun f member held => absent' f member held.subset, by decide, by decide⟩

end Renderer

end Stencil
