/-
# Stencil.Proofs.Renderer.Reachable -- every page takes one value for each slot

Renderers of any kind are called for plans and for pages through shared caches, in any order; their
markings may fail, or produce markup with too few markers, too many or none of their own.
`Pool.callAll` is such a sequence of calls.

A kept plan was made by some call, so whatever is true of the plans that calls make is true of the
plans in every reachable pool: one call keeps it (`Pool.keeps_call`), so a sequence does
(`Pool.keeps_callAll`).  Since compiling gives aligned plans only, `Pool.aligned_callAll` follows:
whoever compiled a plan, it has a segment for each slot of its template, and whoever fills it gives
each slot its own value.
-/
import Stencil.Proofs.Plan.Alignment
import Stencil.Proofs.Renderer.Sharing
import Stencil.Proofs.Template.Identity

set_option autoImplicit false

namespace Stencil

namespace Renderer

variable {r : Renderer} {t : Template}

theorem aligned_of_planAnew {plan : Plan} (made : r.planAnew t = .ok plan) :
    plan.Aligned t.slots := by
  unfold planAnew at made
  split at made
  · exact nomatch made
  · exact Plan.aligned_of_ofMarked made

/-- A plan that was got was kept before or is made anew. -/
theorem plan_fst_cases {c : Cache Plan} {plan : Plan} (got : (r.plan c t).1 = .ok plan) :
    c.get? (r.key t) = some plan ∨ r.planAnew t = .ok plan := by
  cases kept : c.get? (r.key t) with
  | some found =>
      rw [plan_of_some r t kept] at got
      exact .inl (congrArg some (Except.ok.inj got))
  | none =>
      cases made : r.planAnew t with
      | error e =>
          rw [plan_of_error r t kept made] at got
          exact nomatch got
      | ok compiled =>
          rw [plan_of_ok r t kept made] at got
          exact .inr (congrArg Except.ok (Except.ok.inj got))

/-- A page is made of a plan and as many values as the template has slots. -/
theorem exists_plan_of_render {c : Cache Plan} {values : List Value} {content : Content}
    (rendered : (r.render c t values).1 = .ok content) : values.length = t.slots ∧
      ∃ plan, (r.plan c t).1 = .ok plan ∧ content = r.page plan values := by
  by_cases count : values.length = t.slots
  · rw [r.render_of_count t c count] at rendered
    cases got : (r.plan c t).1 with
    | error e =>
        rw [got] at rendered
        exact nomatch rendered
    | ok plan =>
        rw [got] at rendered
        exact ⟨count, plan, rfl, (Except.ok.inj rendered).symm⟩
  · rw [r.render_of_wrong_count t c count] at rendered
    exact nomatch rendered

/-- A page is markup with the renderer's minifier, which has shortened it if the settings ask for
that. -/
theorem page_eq (plan : Plan) (values : List Value) :
    r.page plan values =
      ⟨.html, if r.settings.minify then r.minifier .html (plan.fill values) else plan.fill values,
        r.minifier⟩ := by
  rw [page]
  split
  · rfl
  · rfl

/-- Rendering leaves the cache as it was or as getting the plan leaves it. -/
theorem render_snd (c : Cache Plan) (values : List Value) :
    (r.render c t values).2 = c ∨ (r.render c t values).2 = (r.plan c t).2 := by
  by_cases count : values.length = t.slots
  · exact .inr (congrArg Prod.snd (r.render_of_count t c count))
  · exact .inl (congrArg Prod.snd (r.render_of_wrong_count t c count))

end Renderer

/-- A call to a renderer: for the plan of a template, or for a page. -/
inductive Call where
  | plan (r : Renderer) (t : Template)
  | render (r : Renderer) (t : Template) (values : List Value)

namespace Call

def renderer : Call → Renderer
  | .plan r _ | .render r _ _ => r

def template : Call → Template
  | .plan _ t | .render _ t _ => t

/-- What the call keeps its plan under. -/
def key (c : Call) : CacheKey := c.renderer.key c.template

/-- The plan that the call makes if it finds none. -/
def planAnew (c : Call) : Except Error Plan := c.renderer.planAnew c.template

end Call

namespace Pool

/-- The pool after a call. -/
def call (p : Pool) : Call → Pool
  | .plan r t => (p.plan r t).2
  | .render r t values => (p.render r t values).2

/-- The pool after calls in order. -/
def callAll (p : Pool) (calls : List Call) : Pool := calls.foldl call p

/-- Every kept plan is good for its cache and its key. -/
def Keeps (good : (number : Nat) → CacheKey → Plan → Prop) (p : Pool) : Prop :=
  ∀ (number : Nat) (key : CacheKey) (plan : Plan), (p.cache number).get? key = some plan →
    good number key plan

variable {good : (number : Nat) → CacheKey → Plan → Prop} {p : Pool}

theorem keeps_of_empty (fresh : ∀ number, p.cache number = Cache.empty) : p.Keeps good := by
  intro number key plan kept
  rw [fresh] at kept
  exact nomatch kept

theorem Keeps.set (keeps : p.Keeps good) (number : Nat) {c : Cache Plan}
    (new : ∀ key plan, c.get? key = some plan → good number key plan) :
    (p.set number c).Keeps good := by
  intro other key plan kept
  rcases p.cache_set number other c with ⟨here, rfl⟩ | there
  · rw [here] at kept
    exact new key plan kept
  · rw [there] at kept
    exact keeps other key plan kept

/-- What the cache holds after a plan was got from it is good if the plan made anew is. -/
theorem Keeps.plan_snd (keeps : p.Keeps good) {r : Renderer} {t : Template}
    (made : ∀ plan, r.planAnew t = .ok plan → good r.cache (r.key t) plan) (key : CacheKey)
    (plan : Plan) (kept : (r.plan (p.cache r.cache) t).2.get? key = some plan) :
    good r.cache key plan := by
  rcases r.get?_plan_snd t kept with before | ⟨rfl, new⟩
  · exact keeps r.cache key plan before
  · exact made plan new

/-- What the cache holds after a page was rendered through it is good if the plan made anew is. -/
theorem Keeps.render_snd (keeps : p.Keeps good) {r : Renderer} {t : Template}
    (made : ∀ plan, r.planAnew t = .ok plan → good r.cache (r.key t) plan) (values : List Value)
    (key : CacheKey) (plan : Plan)
    (kept : (r.render (p.cache r.cache) t values).2.get? key = some plan) :
    good r.cache key plan := by
  rcases Renderer.render_snd (p.cache r.cache) values with same | got
  · rw [same] at kept
    exact keeps r.cache key plan kept
  · rw [got] at kept
    exact keeps.plan_snd made key plan kept

/-- A call that makes a good plan or none keeps the plans good. -/
theorem keeps_call (keeps : p.Keeps good) (c : Call)
    (made : ∀ plan, c.planAnew = .ok plan → good c.renderer.cache c.key plan) :
    (p.call c).Keeps good := by
  cases c with
  | plan r t => exact keeps.set r.cache (keeps.plan_snd made)
  | render r t values => exact keeps.set r.cache (keeps.render_snd made values)

/-- Calls that make good plans keep the plans good. -/
theorem keeps_callAll : ∀ (calls : List Call) {p : Pool}, p.Keeps good →
    (∀ c ∈ calls, ∀ plan, c.planAnew = .ok plan → good c.renderer.cache c.key plan) →
      (p.callAll calls).Keeps good
  | [], _, keeps, _ => keeps
  | c :: more, _, keeps, made => by
      obtain ⟨first, others⟩ := List.forall_mem_cons.1 made
      exact keeps_callAll more (keeps_call keeps c first) others

/-- What a renderer gets, kept or new, is good if what it makes is. -/
theorem Keeps.plan_fst (keeps : p.Keeps good) {r : Renderer} {t : Template} {plan : Plan}
    (made : ∀ plan, r.planAnew t = .ok plan → good r.cache (r.key t) plan)
    (got : (p.plan r t).1 = .ok plan) : good r.cache (r.key t) plan := by
  rcases Renderer.plan_fst_cases got with kept | new
  · exact keeps r.cache (r.key t) plan kept
  · exact made plan new

/-! ## Aligned plans -/

variable {templates : List Template}

/-- The plan is aligned with the slots of a template of the key's identity. -/
def AlignedFor (templates : List Template) (key : CacheKey) (plan : Plan) : Prop :=
  ∃ t ∈ templates, t.id = key.template ∧ plan.Aligned t.slots

theorem AlignedFor.aligned (distinct : Template.Distinct templates) {t : Template}
    {variant : Text} {plan : Plan} (known : t ∈ templates)
    (aligned : AlignedFor templates ⟨t.id, variant⟩ plan) : plan.Aligned t.slots := by
  obtain ⟨t', known', same, aligned⟩ := aligned
  obtain rfl := distinct t' known' t known same
  exact aligned

/-- Every plan that is made of one of the templates is aligned with its slots. -/
theorem alignedFor_of_planAnew {r : Renderer} {t : Template} (known : t ∈ templates) {plan : Plan}
    (made : r.planAnew t = .ok plan) : AlignedFor templates (r.key t) plan :=
  ⟨t, known, rfl, Renderer.aligned_of_planAnew made⟩

/-- After any calls through caches that were empty, every kept plan has a segment for each slot of
its template, or one without a slot for none, and whoever renders a template fills each of its
slots with the value of the slot's own number: the page is what the segments write, each between its
own texts, and the renderer's minifier comes after that if the settings ask for it. -/
theorem aligned_callAll (distinct : Template.Distinct templates)
    (fresh : ∀ number, p.cache number = Cache.empty) {calls : List Call}
    (known : ∀ c ∈ calls, c.template ∈ templates) {t : Template} (member : t ∈ templates) :
    (∀ (number : Nat) (variant : Text) (plan : Plan),
      ((p.callAll calls).cache number).get? ⟨t.id, variant⟩ = some plan →
        plan.Aligned t.slots) ∧
    (∀ (r : Renderer) (plan : Plan), ((p.callAll calls).plan r t).1 = .ok plan →
      plan.Aligned t.slots) ∧
    ∀ (r : Renderer) (values : List Value) (content : Content),
      ((p.callAll calls).render r t values).1 = .ok content →
        ∃ plan : Plan, ((p.callAll calls).plan r t).1 = .ok plan ∧
          content = r.page plan values ∧ plan.Aligned t.slots ∧ values.length = t.slots ∧
          content = ⟨.html, if r.settings.minify then r.minifier .html (plan.fill values)
            else plan.fill values, r.minifier⟩ ∧
          -- The slot with a number has the segment and the value with this number.
          (∀ i : Nat, (plan.segments.filterMap Segment.slot)[i]? =
            plan.segments[i]?.bind Segment.slot) ∧
          (∀ (i : Nat) (slot : Slot), plan.segments[i]?.bind Segment.slot = some slot →
            ∃ v, values[i]? = some v) ∧
          (∀ i < t.slots, ∃ (pre post : Text) (slot : Slot) (v : Value),
            plan.segments[i]? = some ⟨pre, some slot, post⟩ ∧ values[i]? = some v ∧
              (List.zipWith Segment.fill plan.segments values)[i]? =
                some (pre ++ slot.render v ++ post)) ∧
          -- Each value is used once, or there is none to use.
          (0 < t.slots → plan.fill values =
            (List.zipWith Segment.fill plan.segments values).flatten) ∧
          (t.slots = 0 → plan.fill values = plan.segments.flatMap fun s => s.pre ++ s.post) := by
  have keeps : (p.callAll calls).Keeps fun _ => AlignedFor templates :=
    keeps_callAll calls (keeps_of_empty fresh) fun c here _ => alignedFor_of_planAnew (known c here)
  have aligned_plan (r : Renderer) (plan : Plan)
      (got : ((p.callAll calls).plan r t).1 = .ok plan) : plan.Aligned t.slots :=
    (keeps.plan_fst (fun _ => alignedFor_of_planAnew member) got).aligned distinct member
  refine ⟨fun number variant plan kept => (keeps number _ plan kept).aligned distinct member,
    aligned_plan, ?_⟩
  intro r values content rendered
  obtain ⟨count, plan, got, rfl⟩ := Renderer.exists_plan_of_render rendered
  have aligned := aligned_plan r plan got
  refine ⟨plan, got, rfl, aligned, count, Renderer.page_eq plan values, aligned.getElem?_slots,
    fun i slot here => aligned.exists_value count here,
    fun i bound => aligned.getElem?_fill count bound, fun pos => aligned.fill_eq pos count, ?_⟩
  intro none
  rw [none] at aligned
  exact aligned.fill_eq_of_zero values

/-! ## Failing, wrong and right markings -/

def once : Template := (Issuer.start.create ["<p>".toList, "</p>".toList]).1

/-- A template with a slot and one without, made by one issuer. -/
def pair : List Template := [once, ((Issuer.mk 2).create [" x ".toList]).1]

/-- A renderer with the first cache. -/
def withMarking (marking : Marking) (lead : Text) : Renderer where
  settings := {}
  lead
  marking
  minifier := Minifier.trimming
  cache := 0

/-- A marking that fails, one with a marker too many, one with a marker of another lead, a wrong
number of values, and a marking with as many markers as slots. -/
def various : List Call := pair.flatMap fun t => [
  .plan (withMarking (Marking.failing []) ['m']) t,
  .render (withMarking (Marking.fixed "<!--m0--><!--m1-->".toList) ['m']) t [.null],
  .plan (withMarking (Marking.fixed "<!--n0-->".toList) ['m']) t,
  .render (withMarking Marking.textOnly ['m']) t [.null, .null],
  .render (withMarking Marking.textOnly ['m']) t [.null]]

theorem distinct_pair : Template.Distinct pair := by
  have few : [["<p>".toList, "</p>".toList], [" x ".toList]].length < UInt64.size := by decide
  have created : ∀ t ∈ pair, t ∈
      (Issuer.start.createAll [["<p>".toList, "</p>".toList], [" x ".toList]]).1 :=
    fun _ member => member
  exact Issuer.distinct_of_created few created

theorem known_various : ∀ c ∈ various, c.template ∈ pair := by
  intro c member
  obtain ⟨t, known, here⟩ := List.mem_flatMap.1 member
  simp only [List.mem_cons, List.not_mem_nil, or_false] at here
  rcases here with rfl | rfl | rfl | rfl | rfl
  all_goals exact known

/-- The plan of the template with a slot. -/
def oncePlan : Plan := ⟨[⟨"<p>".toList, some .text, "</p>".toList⟩]⟩

/-- Of these calls the last for the template with a slot keeps its plan.  A renderer with another
lead gets the kept plan, and fills the one slot of it with the one value. -/
theorem aligned_various :
    Template.Distinct pair ∧ (∀ number, empty.add.2.cache number = Cache.empty) ∧
      (∀ c ∈ various, c.template ∈ pair) ∧ once ∈ pair ∧
      ((empty.add.2.callAll various).cache 0).get? ⟨once.id, "text-only".toList⟩ =
        some oncePlan ∧
      ((empty.add.2.callAll various).plan (withMarking Marking.textOnly ['n']) once).1 =
        .ok oncePlan ∧
      oncePlan.Aligned 1 ∧
      ((empty.add.2.callAll various).render (withMarking Marking.textOnly ['n']) once
          [.text ['<']]).1 = .ok ⟨.html, "<p>&lt;</p>".toList, Minifier.trimming⟩ ∧
      (List.zipWith Segment.fill oncePlan.segments [.text ['<']])[0]? =
        some ("<p>".toList ++ Slot.text.render (.text ['<']) ++ "</p>".toList) ∧
      oncePlan.fill [.text ['<']] =
        (List.zipWith Segment.fill oncePlan.segments [.text ['<']]).flatten := by
  have member : once ∈ pair := List.mem_cons_self ..
  obtain ⟨kept, -, rendered⟩ := aligned_callAll distinct_pair fresh_add known_various member
  have got : ((empty.add.2.callAll various).plan (withMarking Marking.textOnly ['n']) once).1 =
      .ok oncePlan := rfl
  have page : ((empty.add.2.callAll various).render (withMarking Marking.textOnly ['n']) once
      [.text ['<']]).1 = .ok ⟨.html, "<p>&lt;</p>".toList, Minifier.trimming⟩ := rfl
  obtain ⟨plan, got', -, -, -, -, -, -, each, whole, -⟩ := rendered _ _ _ page
  obtain rfl : oncePlan = plan := Except.ok.inj (got.symm.trans got')
  obtain ⟨pre, post, slot, v, segment, value, filled⟩ := each 0 (by decide)
  cases segment
  cases value
  exact ⟨distinct_pair, fresh_add, known_various, member, rfl, got,
    kept 0 "text-only".toList oncePlan rfl, page, filled, whole (by decide)⟩

end Pool

end Stencil
