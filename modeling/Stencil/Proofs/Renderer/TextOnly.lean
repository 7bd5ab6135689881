/-
# Stencil.Proofs.Renderer.TextOnly -- a page of text slots is its fragments and values in turn

A renderer that takes every slot to stand between tags writes the fragments of a template and its
values in turn, each value as markup.  Blanks are taken off the two outer ends of the fixed text and
off nothing else, so a value keeps its own (`Pool.render_textOnly`).

The plan of such a renderer does not depend on its lead (`Renderer.planAnew_textOnly`).  So the
renderer may share its cache with others: all that is asked of earlier calls is that those for the
same key of the same cache were made by renderers of this kind too.
-/
import Stencil.Proofs.Marking.TextOnly
import Stencil.Proofs.Renderer.Reachable

set_option autoImplicit false

namespace Stencil

/-- Texts and the texts between them in turn. -/
def Text.interleave : (outer inner : List Text) → Text
  | text :: more, between :: others => text ++ between ++ interleave more others
  | texts, _ => texts.flatten

/-- The plan with a slot between any two texts writes the texts and the values in turn. -/
theorem Marking.fill_textPlan : ∀ (texts : List Text) (values : List Value),
    values.length + 1 = texts.length →
      (textPlan texts).fill values = Text.interleave texts (values.map Value.toMarkup)
  | [last], [], _ => by simp [Plan.fill, textPlan, between, Segment.ofMarkers, Segment.fillAll,
      Segment.fill, Text.interleave]
  | [first, last], [v], _ => by simp [Plan.fill, textPlan, between, Segment.ofMarkers,
      Segment.fillAll, Segment.fill, Marker.slot, Slot.render, Text.interleave]
  | text :: next :: other :: more, v :: values, count => by
      have rest := fill_textPlan (next :: other :: more) values (Nat.succ.inj count)
      have step : (textPlan (text :: next :: other :: more)).segments =
          ⟨text, some .text, []⟩ :: (textPlan (next :: other :: more)).segments := rfl
      rw [Plan.fill, step, Segment.fillAll, List.map_cons, Text.interleave, ← rest, Segment.fill,
        List.append_nil]
      rfl

namespace Renderer

/-- The renderer takes the slots of the template to stand between tags, and its lead is plain and
in no fragment. -/
structure MarksText (r : Renderer) (t : Template) : Prop where
  kind : r.marking = Marking.textOnly
  plain : Marker.Plain r.lead
  absent : ∀ f ∈ t.fragments, ¬ r.lead <:+: f

variable {r : Renderer} {t : Template}

/-- The page holds the outer trimmed fragments and the values in turn. -/
theorem page_textPlan (whole : r.settings.minify = false) {values : List Value}
    (count : values.length = t.slots) :
    r.page (Marking.textPlan (Marking.outerTrimmed t.fragments)) values =
      ⟨.html, Text.interleave (Marking.outerTrimmed t.fragments) (values.map Value.toMarkup),
        r.minifier⟩ := by
  have some := List.length_pos_iff.2 t.fragments_ne_nil
  have texts : values.length + 1 = (Marking.outerTrimmed t.fragments).length := by
    rw [Marking.length_outerTrimmed, count, Template.slots]
    omega
  rw [page, Marking.fill_textPlan _ values texts, whole]
  rfl

end Renderer

/-- A plan in the renderer's cache for the renderer and the template is the one with a slot between
any two fragments. -/
def Renderer.ForText (r : Renderer) (t : Template) (number : Nat) (key : CacheKey) (plan : Plan) :
    Prop :=
  number = r.cache → key = r.key t → plan = Marking.textPlan (Marking.outerTrimmed t.fragments)

namespace Pool

/-- If no other plan is kept, a renderer that marks text gets this plan. -/
theorem Keeps.plan_textOnly {r : Renderer} {t : Template} (marks : r.MarksText t) {p : Pool}
    (keeps : p.Keeps (r.ForText t)) :
    (p.plan r t).1 = .ok (Marking.textPlan (Marking.outerTrimmed t.fragments)) := by
  have made := Renderer.planAnew_textOnly marks.kind marks.plain marks.absent
  simp only [Pool.plan]
  cases kept : (p.cache r.cache).get? (r.key t) with
  | some found => rw [r.plan_of_some t kept, keeps r.cache _ found kept rfl rfl]
  | none => rw [r.plan_of_ok t kept made]

/-- With a plain lead that is in no fragment, and after any calls through caches that were empty, of
which those for the same key of the same cache were of the same kind, a renderer that marks text
writes the fragments and the values in turn, without the blanks at the outer ends. -/
theorem render_textOnly {r : Renderer} {t : Template} (marks : r.MarksText t)
    (whole : r.settings.minify = false) {p : Pool}
    (fresh : ∀ number, p.cache number = Cache.empty) {calls : List Call}
    (earlier : ∀ c ∈ calls, c.renderer.cache = r.cache → c.key = r.key t →
      c.template = t ∧ c.renderer.MarksText t)
    {values : List Value} (count : values.length = t.slots) :
    ((p.callAll calls).render r t values).1 = .ok ⟨.html,
      Text.interleave (Marking.outerTrimmed t.fragments) (values.map Value.toMarkup),
      r.minifier⟩ := by
  have keeps : (p.callAll calls).Keeps (r.ForText t) := by
    refine keeps_callAll calls (keeps_of_empty fresh) fun c here plan made sameCache same => ?_
    obtain ⟨rfl, marks'⟩ := earlier c here sameCache same
    have made' := Renderer.planAnew_textOnly marks'.kind marks'.plain marks'.absent
    exact Except.ok.inj (made.symm.trans made')
  have got := keeps.plan_textOnly marks
  have rendered := r.render_of_count t ((p.callAll calls).cache r.cache) count
  rw [show (r.plan ((p.callAll calls).cache r.cache) t).1 = _ from got] at rendered
  rw [← Renderer.page_textPlan whole count]
  exact congrArg Prod.fst rendered

/-! ## Leads made from a time -/

end Pool

/-- The lead that a renderer makes from the time is plain. -/
theorem Settings.plain_timedLead (millis : Nat) : Marker.Plain (timedLead millis) := by
  have char : ∀ c ∈ timedLead millis, c ∈ ['i', 's', 'µ'] ∨ Text.isDecimalDigit c = true := by
    intro c member
    exact (List.mem_append.1 member).imp_right ((Marker.isIndex_numeral millis).2 c)
  refine ⟨List.cons_ne_nil _ _, fun c member => ?_, fun c member special => ?_⟩
  · rcases char c member with letter | digit
    · simp only [List.mem_cons, List.not_mem_nil, or_false] at letter
      rcases letter with rfl | rfl | rfl <;> rfl
    · exact Assignment.isBlank_of_isNameChar (Marker.isNameChar_of_isDecimalDigit digit)
  · have other : ∀ c ∈ ['<', '>', '!', '-', '=', '/', '"', '\''],
        c ∉ ['i', 's', 'µ'] ∧ Text.isDecimalDigit c = false := by
      simp only [List.mem_cons, List.not_mem_nil, or_false]
      rintro c (rfl | rfl | rfl | rfl | rfl | rfl | rfl | rfl) <;> decide
    obtain ⟨noLetter, noDigit⟩ := other c special
    rcases char c member with letter | digit
    · exact noLetter letter
    · rw [noDigit] at digit
      cases digit

namespace Pool

/-- Fragments that end in a part of a marker, and blanks at all ends. -/
def spaced : Template where
  id := 1
  fragments := [" <!--isµ".toList, "7--> <b>x=\"\t".toList, " isµ \n".toList]
  fragments_ne_nil := List.cons_ne_nil _ _

/-- A renderer with the first cache and a lead made at a time. -/
def timed (millis : Nat) (marking : Marking) : Renderer :=
  Renderer.create {} marking Minifier.trimming 0 millis

theorem marksText_timed {millis : Nat}
    (missing : ∀ f ∈ spaced.fragments, ¬ Settings.timedLead millis ⊆ f) :
    (timed millis Marking.textOnly).MarksText spaced :=
  ⟨rfl, Settings.plain_timedLead millis, fun f member inside => missing f member inside.subset⟩

/-- Two caches that have been opened. -/
def twoCaches : Pool := empty.add.2.add.2

theorem fresh_twoCaches : ∀ number, twoCaches.cache number = Cache.empty
  | 0 => rfl
  | 1 => rfl
  | _ + 2 => rfl

/-- Calls by a renderer of attributes, by one of text with another lead, for another template with a
lead that is in one of its fragments, and through the other cache for the same key, where the plan
of another template is kept. -/
def others : List Call := [
  .plan (timed 7 (Marking.markup false)) spaced,
  .render (timed 17 Marking.textOnly) spaced [.null, .bool true],
  .render (timed 7 Marking.textOnly) ⟨2, ["isµ7".toList, []], List.cons_ne_nil _ _⟩ [.null],
  .plan { timed 7 Marking.textOnly with cache := 1 } ⟨1, [[], [], []], List.cons_ne_nil _ _⟩]

theorem earlier_others : ∀ c ∈ others, c.renderer.cache = (timed 7 Marking.textOnly).cache →
    c.key = (timed 7 Marking.textOnly).key spaced →
      c.template = spaced ∧ c.renderer.MarksText spaced := by
  intro c member
  simp only [others, List.mem_cons, List.not_mem_nil, or_false] at member
  rcases member with rfl | rfl | rfl | rfl
  · intro _ same
    exact absurd same (by decide)
  · exact fun _ _ => ⟨rfl, marksText_timed (by decide)⟩
  · intro _ same
    exact absurd same (by decide)
  · intro same
    exact absurd same (by decide)

/-- The values keep their blanks, and so do the fragments where they meet a value. -/
theorem render_spaced :
    (timed 7 Marking.textOnly).MarksText spaced ∧
      (timed 7 Marking.textOnly).settings.minify = false ∧
      (∀ number, twoCaches.cache number = Cache.empty) ∧
      (∀ c ∈ others, c.renderer.cache = (timed 7 Marking.textOnly).cache →
        c.key = (timed 7 Marking.textOnly).key spaced →
          c.template = spaced ∧ c.renderer.MarksText spaced) ∧
      ((twoCaches.callAll others).cache 1).get? ((timed 7 Marking.textOnly).key spaced) ≠
        ((twoCaches.callAll others).cache 0).get? ((timed 7 Marking.textOnly).key spaced) ∧
      [Value.text " <i> ".toList, .bool true].length = spaced.slots ∧
      ((twoCaches.callAll others).render (timed 7 Marking.textOnly) spaced
          [.text " <i> ".toList, .bool true]).1 =
        .ok ⟨.html, "<!--isµ &lt;i&gt; 7--> <b>x=\"\ttrue isµ".toList, Minifier.trimming⟩ := by
  have marks : (timed 7 Marking.textOnly).MarksText spaced := marksText_timed (by decide)
  refine ⟨marks, rfl, fresh_twoCaches, earlier_others, by decide, rfl, ?_⟩
  exact render_textOnly marks rfl fresh_twoCaches earlier_others rfl

end Pool

end Stencil
