/-
# Stencil.Proofs.Renderer.Outcome -- what decides a rendering

`Pool.Outcome` gives the rules by which a rendering succeeds or fails, in the order in which they
apply, with the pool that it leaves.  The number of values comes first and needs neither a cache nor
a marking; a kept plan comes before the marking, so it is used even if the marking would fail now;
the marking's own failure comes before the number of markers.

`Pool.render_decided` says that exactly these outcomes come about, in every pool, whatever calls
have filled its caches.  A failure leaves the pool as it was.  A success may add one plan, the one
that the page was made of, under the template's identity and the variant of the marking in the
renderer's own cache; it changes nothing else there, and nothing in any other cache.
-/
import Stencil.Proofs.Marker.Quiet
import Stencil.Proofs.Renderer.Sharing

set_option autoImplicit false

namespace Stencil

namespace Renderer

/-- The number of markers that a scan of marked markup finds. -/
def markersIn (r : Renderer) (marked : Text) : Nat := Marker.count r.lead (Text.trim marked)

theorem planAnew_of_marking_error {r : Renderer} {t : Template} {e : Error}
    (failed : r.marking.mark t.fragments r.lead = .error e) : r.planAnew t = .error e := by
  rw [planAnew, failed]

theorem planAnew_of_marked {r : Renderer} {t : Template} {marked : Text}
    (marks : r.marking.mark t.fragments r.lead = .ok marked) :
    r.planAnew t = Plan.ofMarked r.lead marked t.slots t.source := by
  rw [planAnew, marks]

/-- Markup with another number of markers than slots is refused. -/
theorem ofMarked_of_wrong_shape {r : Renderer} {t : Template} {marked : Text}
    (wrong : r.markersIn marked ≠ t.slots) :
    Plan.ofMarked r.lead marked t.slots t.source =
      .error (.templateShape t.source t.slots (r.markersIn marked)) :=
  if_neg wrong

/-- Markup with as many markers as slots is compiled. -/
theorem exists_ofMarked_of_shape {r : Renderer} {t : Template} {marked : Text}
    (right : r.markersIn marked = t.slots) :
    ∃ plan, Plan.ofMarked r.lead marked t.slots t.source = .ok plan :=
  ⟨_, if_pos right⟩

end Renderer

namespace Pool

/-- How a rendering ends, and the pool that it leaves. -/
inductive Outcome (p : Pool) (r : Renderer) (t : Template) (values : List Value) :
    Except Error Content → Pool → Prop where
  | wrongCount (wrong : values.length ≠ t.slots) :
      Outcome p r t values (.error (.valueCount t.source t.slots values.length)) p
  | kept {plan : Plan} (count : values.length = t.slots)
      (found : (p.cache r.cache).get? (r.key t) = some plan) :
      Outcome p r t values (.ok (r.page plan values)) p
  | markingFailed {e : Error} (count : values.length = t.slots)
      (missing : (p.cache r.cache).get? (r.key t) = none)
      (failed : r.marking.mark t.fragments r.lead = .error e) :
      Outcome p r t values (.error e) p
  | wrongShape {marked : Text} (count : values.length = t.slots)
      (missing : (p.cache r.cache).get? (r.key t) = none)
      (marks : r.marking.mark t.fragments r.lead = .ok marked)
      (wrong : r.markersIn marked ≠ t.slots) :
      Outcome p r t values (.error (.templateShape t.source t.slots (r.markersIn marked))) p
  | compiled {marked : Text} {plan : Plan} (count : values.length = t.slots)
      (missing : (p.cache r.cache).get? (r.key t) = none)
      (marks : r.marking.mark t.fragments r.lead = .ok marked)
      (right : r.markersIn marked = t.slots)
      (made : Plan.ofMarked r.lead marked t.slots t.source = .ok plan) :
      Outcome p r t values (.ok (r.page plan values))
        (p.set r.cache ((p.cache r.cache).offer (r.key t) plan).2)

variable {p p' : Pool} {r : Renderer} {t : Template} {values : List Value}
  {result : Except Error Content}

/-! ## The rules are those of the renderer -/

theorem set_cache_self (p : Pool) (number : Nat) : p.set number (p.cache number) = p := by
  obtain ⟨caches⟩ := p
  simp only [set, cache, List.getD_eq_getElem?_getD]
  by_cases inUse : number < caches.length
  · simp [List.getElem?_eq_getElem inUse]
  · rw [List.set_eq_of_length_le (by omega)]

/-- Rendering is what the renderer does with its own cache. -/
theorem render_eq (p : Pool) (r : Renderer) (t : Template) (values : List Value) :
    p.render r t values =
      ((r.render (p.cache r.cache) t values).1,
        p.set r.cache (r.render (p.cache r.cache) t values).2) :=
  rfl

/-- What a rule says comes about. -/
theorem Outcome.render_eq (outcome : Outcome p r t values result p') :
    p.render r t values = (result, p') := by
  cases outcome with
  | wrongCount wrong =>
      rw [Pool.render_eq, r.render_of_wrong_count t _ wrong, set_cache_self]
  | kept count found =>
      rw [Pool.render_eq, r.render_of_count t _ count, r.plan_of_some t found, set_cache_self]
      rfl
  | markingFailed count missing failed =>
      have made := Renderer.planAnew_of_marking_error failed
      rw [Pool.render_eq, r.render_of_count t _ count, r.plan_of_error t missing made,
        set_cache_self]
      rfl
  | wrongShape count missing marks wrong =>
      have made := (Renderer.planAnew_of_marked marks).trans
        (Renderer.ofMarked_of_wrong_shape wrong)
      rw [Pool.render_eq, r.render_of_count t _ count, r.plan_of_error t missing made,
        set_cache_self]
      rfl
  | compiled count missing marks right made =>
      have made := (Renderer.planAnew_of_marked marks).trans made
      rw [Pool.render_eq, r.render_of_count t _ count, r.plan_of_ok t missing made]
      rfl

/-- One of the rules applies. -/
theorem exists_outcome (p : Pool) (r : Renderer) (t : Template) (values : List Value) :
    ∃ result p', Outcome p r t values result p' := by
  by_cases count : values.length = t.slots
  case neg => exact ⟨_, _, .wrongCount count⟩
  cases found : (p.cache r.cache).get? (r.key t) with
  | some plan => exact ⟨_, _, .kept count found⟩
  | none =>
      cases marks : r.marking.mark t.fragments r.lead with
      | error e => exact ⟨_, _, .markingFailed count found marks⟩
      | ok marked =>
          by_cases shape : r.markersIn marked = t.slots
          · obtain ⟨plan, made⟩ := Renderer.exists_ofMarked_of_shape shape
            exact ⟨_, _, .compiled count found marks shape made⟩
          · exact ⟨_, _, .wrongShape count found marks shape⟩

theorem render_eq_iff : p.render r t values = (result, p') ↔ Outcome p r t values result p' := by
  constructor
  · intro rendered
    obtain ⟨result', p'', outcome⟩ := exists_outcome p r t values
    obtain ⟨rfl, rfl⟩ := Prod.mk.inj (outcome.render_eq.symm.trans rendered)
    exact outcome
  · exact Outcome.render_eq

theorem exists_outcome_of_fst (ended : (p.render r t values).1 = result) :
    ∃ p', Outcome p r t values result p' :=
  ⟨_, render_eq_iff.1 (Prod.ext ended rfl)⟩

/-! ## What a rendering leaves -/

theorem cache_set_of_ne (p : Pool) {number other : Nat} (c : Cache Plan) (ne : other ≠ number) :
    (p.set number c).cache other = p.cache other := by
  rcases p.cache_set number other c with ⟨-, same⟩ | kept
  · exact absurd same ne
  · exact kept

theorem cache_set_self (p : Pool) {number : Nat} (c : Cache Plan)
    (inUse : number < p.caches.length) : (p.set number c).cache number = c := by
  simp only [set, cache, List.getD_eq_getElem?_getD]
  simp [inUse]

/-- A failure leaves the pool as it was. -/
theorem Outcome.pool_eq_of_error {e : Error} (outcome : Outcome p r t values (.error e) p') :
    p' = p := by
  cases outcome with
  | wrongCount | markingFailed | wrongShape => rfl

/-- With a kept plan nothing is added. -/
theorem Outcome.pool_eq_of_kept (outcome : Outcome p r t values result p') {plan : Plan}
    (found : (p.cache r.cache).get? (r.key t) = some plan) : p' = p := by
  cases outcome with
  | wrongCount | kept | markingFailed | wrongShape => rfl
  | compiled count missing =>
      rw [missing] at found
      exact nomatch found

/-- Only the plan for the template and the variant, in the renderer's own cache, may be new. -/
theorem Outcome.get?_of_other (outcome : Outcome p r t values result p') {number : Nat}
    {key : CacheKey} (other : number ≠ r.cache ∨ key ≠ r.key t) :
    (p'.cache number).get? key = (p.cache number).get? key := by
  cases outcome with
  | wrongCount | kept | markingFailed | wrongShape => rfl
  | @compiled marked plan =>
      rcases other with otherCache | otherKey
      · rw [cache_set_of_ne _ _ otherCache]
      · rcases p.cache_set r.cache number ((p.cache r.cache).offer (r.key t) plan).2 with
          ⟨new, rfl⟩ | old
        · rw [new, Cache.get?_offer_of_ne _ _ otherKey]
        · rw [old]

/-- After a success the renderer's cache holds the plan that the page was made of. -/
theorem Outcome.exists_plan_of_ok {page : Content} (outcome : Outcome p r t values (.ok page) p')
    (inUse : r.cache < p.caches.length) :
    ∃ plan, (p'.cache r.cache).get? (r.key t) = some plan ∧ page = r.page plan values := by
  cases outcome with
  | kept count found => exact ⟨_, found, rfl⟩
  | @compiled marked plan count missing =>
      refine ⟨plan, ?_, rfl⟩
      rw [cache_set_self p _ inUse, Cache.get?_offer_self, Cache.offer_fst, missing,
        Option.getD_none]

/-! ## Which failure it is -/

/-- The marking fails with a message of its own, never in the words of the library. -/
def FailsAsItself (marking : Marking) : Prop :=
  ∀ (fragments : List Text) (lead : Text) (e : Error),
    marking.mark fragments lead = .error e → ∃ message, e = .marking message

theorem valueCount_iff (own : FailsAsItself r.marking) :
    (∃ source expected found,
      (p.render r t values).1 = .error (.valueCount source expected found)) ↔
      values.length ≠ t.slots := by
  constructor
  · rintro ⟨source, expected, found, failed⟩
    obtain ⟨p', outcome⟩ := exists_outcome_of_fst failed
    cases outcome with
    | wrongCount wrong => exact wrong
    | markingFailed count missing own_error =>
        obtain ⟨message, other⟩ := own _ _ _ own_error
        exact nomatch other
  · intro wrong
    exact ⟨_, _, _, congrArg Prod.fst (Outcome.wrongCount wrong).render_eq⟩

theorem templateShape_iff (own : FailsAsItself r.marking) :
    (∃ source expected found,
      (p.render r t values).1 = .error (.templateShape source expected found)) ↔
      values.length = t.slots ∧ (p.cache r.cache).get? (r.key t) = none ∧
        ∃ marked, r.marking.mark t.fragments r.lead = .ok marked ∧
          r.markersIn marked ≠ t.slots := by
  constructor
  · rintro ⟨source, expected, found, failed⟩
    obtain ⟨p', outcome⟩ := exists_outcome_of_fst failed
    cases outcome with
    | markingFailed count missing own_error =>
        obtain ⟨message, other⟩ := own _ _ _ own_error
        exact nomatch other
    | wrongShape count missing marks wrong => exact ⟨count, missing, _, marks, wrong⟩
  · rintro ⟨count, missing, marked, marks, wrong⟩
    exact ⟨_, _, _, congrArg Prod.fst (Outcome.wrongShape count missing marks wrong).render_eq⟩

/-- The number of values is refused whatever the caches hold and whatever the marking does. -/
theorem wrong_count_iff : values.length ≠ t.slots ↔ ∀ (q : Pool) (marking : Marking),
    q.render { r with marking } t values =
      (.error (.valueCount t.source t.slots values.length), q) := by
  constructor
  · intro wrong q marking
    exact (Outcome.wrongCount wrong).render_eq
  · intro refused count
    -- A marking that fails with another error would be asked.
    have asked : Outcome Pool.empty { r with marking := Marking.failing [] } t values
        (.error (.marking [])) Pool.empty := .markingFailed count rfl rfl
    have same := (refused Pool.empty (Marking.failing [])).symm.trans asked.render_eq
    exact nomatch congrArg Prod.fst same

/-- In every pool a rendering ends as the rules say, in their order.  A failure leaves the pool as
it was; a success adds nothing but the plan for the template and the variant, if there was none. -/
theorem render_decided (p : Pool) (r : Renderer) (t : Template) (values : List Value) :
    (∀ (result : Except Error Content) (p' : Pool),
      p.render r t values = (result, p') ↔ Outcome p r t values result p') ∧
    -- The first rule asks neither the caches nor the marking.
    (values.length ≠ t.slots ↔ ∀ (q : Pool) (marking : Marking),
      q.render { r with marking } t values =
        (.error (.valueCount t.source t.slots values.length), q)) ∧
    -- Failures tell which rule applied, if the marking's own are told apart.
    (FailsAsItself r.marking →
      ((∃ source expected found,
        (p.render r t values).1 = .error (.valueCount source expected found)) ↔
          values.length ≠ t.slots) ∧
      ((∃ source expected found,
        (p.render r t values).1 = .error (.templateShape source expected found)) ↔
          values.length = t.slots ∧ (p.cache r.cache).get? ⟨t.id, r.marking.variant⟩ = none ∧
            ∃ marked, r.marking.mark t.fragments r.lead = .ok marked ∧
              r.markersIn marked ≠ t.slots)) ∧
    (∀ e, (p.render r t values).1 = .error e → (p.render r t values).2 = p) ∧
    ∀ page, (p.render r t values).1 = .ok page →
      (∀ plan, (p.cache r.cache).get? ⟨t.id, r.marking.variant⟩ = some plan →
        (p.render r t values).2 = p) ∧
      (∀ (number : Nat) (key : CacheKey),
        number ≠ r.cache ∨ key ≠ ⟨t.id, r.marking.variant⟩ →
          ((p.render r t values).2.cache number).get? key = (p.cache number).get? key) ∧
      (r.cache < p.caches.length → ∃ plan,
        ((p.render r t values).2.cache r.cache).get? ⟨t.id, r.marking.variant⟩ = some plan ∧
          page = r.page plan values) := by
  refine ⟨fun _ _ => render_eq_iff, wrong_count_iff,
    fun own => ⟨valueCount_iff own, templateShape_iff own⟩, ?_, ?_⟩
  · intro e failed
    exact (render_eq_iff.1 (Prod.ext failed rfl)).pool_eq_of_error
  · intro page rendered
    have outcome := render_eq_iff.1 (Prod.ext rendered rfl)
    exact ⟨fun _ => outcome.pool_eq_of_kept, fun _ _ => outcome.get?_of_other,
      outcome.exists_plan_of_ok⟩

/-! ## A marking that fails, without a plan and with one -/

theorem failsAsItself_failing (message : Text) : FailsAsItself (Marking.failing message) :=
  fun _ _ _ failed => ⟨message, (Except.error.inj failed).symm⟩

def paragraph : Template := (Issuer.start.create ["<p>".toList, "</p>".toList]).1

/-- A renderer with the first cache, whose marking fails. -/
def givingUp : Renderer where
  settings := {}
  lead := ['m']
  marking := Marking.failing "torn".toList
  minifier := Minifier.trimming
  cache := 0

/-- The first cache, with the plan that a marking of the same variant has made. -/
def prepared : Pool :=
  let marking := { Marking.textOnly with variant := givingUp.marking.variant }
  (empty.add.2.render { givingUp with marking } paragraph [.null]).2

/-- Without a plan the marking is asked, unless the number of values is wrong, and with one it is
not. -/
theorem decided_givingUp :
    FailsAsItself givingUp.marking ∧
      (∃ source expected found, (empty.add.2.render givingUp paragraph []).1 =
        .error (.valueCount source expected found)) ∧
      empty.add.2.render givingUp paragraph [.null] =
        (.error (.marking "torn".toList), empty.add.2) ∧
      ∃ plan, prepared.render givingUp paragraph [.null] =
        (.ok (givingUp.page plan [.null]), prepared) := by
  have own : FailsAsItself givingUp.marking := failsAsItself_failing "torn".toList
  obtain ⟨-, -, failures, -⟩ := render_decided empty.add.2 givingUp paragraph []
  obtain ⟨asked, -⟩ := render_decided empty.add.2 givingUp paragraph [.null]
  obtain ⟨kept, -⟩ := render_decided prepared givingUp paragraph [.null]
  have found : (prepared.cache givingUp.cache).get? (givingUp.key paragraph) =
      some ⟨[⟨"<p>".toList, some .text, "</p>".toList⟩]⟩ := rfl
  exact ⟨own, (failures own).1.2 (by decide), (asked _ _).2 (.markingFailed rfl rfl rfl),
    _, (kept _ _).2 (.kept rfl found)⟩

end Pool

end Stencil
