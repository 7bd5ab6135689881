/-
# Stencil.Proofs.Renderer.Sharing -- a shared cache changes no page

Renderers may share caches, and a plan that one of them has put into a cache is used by the others
of the same variant.  `Pool.renderAll` serves requests one after the other through such caches, and
`Request.alone` is what the same renderer gives with a cache of its own that is still empty.

The requests are compatible if any two that look under the same key of the same cache would compile
the same plan, or would both fail; a copy of a template has the template's identity, so it falls
under the same key.  `Pool.renderAll_eq_alone` is the main statement: compatible requests are served
as if each were alone.  What carries it is `Pool.Honest`: a kept plan is the plan that every request
for its key would compile itself.  A failure keeps nothing, and what is a renderer's own, its
minifier and its settings, is applied after the cache, so serving a request keeps the pool honest
(`Pool.honest_render`).
-/
import Stencil.Renderer

set_option autoImplicit false

namespace Stencil

/-! ## One rendering -/

namespace Renderer

variable (r : Renderer) (t : Template)

theorem plan_of_some {c : Cache Plan} {p : Plan} (kept : c.get? (r.key t) = some p) :
    r.plan c t = (.ok p, c) := by
  simp only [plan, Cache.fetch, kept]

theorem plan_of_error {c : Cache Plan} {e : Error} (missing : c.get? (r.key t) = none)
    (failed : r.planAnew t = .error e) : r.plan c t = (.error e, c) := by
  simp only [plan, Cache.fetch, missing, failed]

theorem plan_of_ok {c : Cache Plan} {p : Plan} (missing : c.get? (r.key t) = none)
    (compiled : r.planAnew t = .ok p) :
    r.plan c t = (.ok p, (c.offer (r.key t) p).2) := by
  have first := c.offer_fst (r.key t) p
  rw [missing, Option.getD_none] at first
  simp only [plan, Cache.fetch, missing, compiled, first]

/-- With an empty cache the plan is made anew. -/
theorem plan_empty_fst : (r.plan Cache.empty t).1 = r.planAnew t := by
  cases made : r.planAnew t with
  | error e => rw [plan_of_error r t (Cache.get?_empty _) made]
  | ok p => rw [plan_of_ok r t (Cache.get?_empty _) made]

/-- After a plan was got the cache holds what it held before, and perhaps under its key the plan
that was compiled. -/
theorem get?_plan_snd {c : Cache Plan} {key : CacheKey} {plan : Plan}
    (kept : (r.plan c t).2.get? key = some plan) :
    c.get? key = some plan ∨ key = r.key t ∧ r.planAnew t = .ok plan := by
  cases before : c.get? (r.key t) with
  | some found =>
      rw [plan_of_some r t before] at kept
      exact .inl kept
  | none =>
      cases made : r.planAnew t with
      | error e =>
          rw [plan_of_error r t before made] at kept
          exact .inl kept
      | ok compiled =>
          rw [plan_of_ok r t before made] at kept
          by_cases same : key = r.key t
          · subst same
            rw [Cache.get?_offer_self, Cache.offer_fst, before, Option.getD_none] at kept
            obtain rfl := Option.some.inj kept
            exact .inr ⟨rfl, rfl⟩
          · rw [Cache.get?_offer_of_ne _ _ same] at kept
            exact .inl kept

/-- The page is made of the plan, and the cache is as getting the plan leaves it. -/
theorem render_of_count {values : List Value} (c : Cache Plan) (count : values.length = t.slots) :
    r.render c t values = ((r.plan c t).1.map (r.page · values), (r.plan c t).2) := by
  rw [render, if_pos count]
  rcases r.plan c t with ⟨_ | p, c'⟩
  · rfl
  · rfl

theorem render_of_wrong_count {values : List Value} (c : Cache Plan)
    (wrong : values.length ≠ t.slots) :
    r.render c t values = (.error (.valueCount t.source t.slots values.length), c) := by
  rw [render, if_neg wrong]

end Renderer

/-! ## Requests through shared caches -/

/-- A template to be rendered with values by a renderer. -/
structure Request where
  renderer : Renderer
  template : Template
  values : List Value

namespace Request

def key (q : Request) : CacheKey := q.renderer.key q.template

/-- The plan that the request would compile itself. -/
def planAnew (q : Request) : Except Error Plan := q.renderer.planAnew q.template

/-- What the renderer gives with a fresh cache. -/
def alone (q : Request) : Except Error Content :=
  (q.renderer.render Cache.empty q.template q.values).1

/-- Any two requests for one key of one cache would compile the same plan or both fail. -/
def Compatible (requests : List Request) : Prop :=
  ∀ q ∈ requests, ∀ q' ∈ requests, q.renderer.cache = q'.renderer.cache → q.key = q'.key →
    q.planAnew.toOption = q'.planAnew.toOption

/-- What one request for a key compiles, another compiles too. -/
theorem Compatible.planAnew_eq {requests : List Request} (compatible : Compatible requests)
    {q q' : Request} (member : q ∈ requests) (member' : q' ∈ requests)
    (sameCache : q.renderer.cache = q'.renderer.cache) (sameKey : q.key = q'.key) {plan : Plan}
    (made : q'.planAnew = .ok plan) : q.planAnew = .ok plan := by
  have agree := compatible q member q' member' sameCache sameKey
  rw [made] at agree
  cases own : q.planAnew with
  | error e =>
      rw [own] at agree
      exact nomatch agree
  | ok plan' =>
      rw [own] at agree
      exact congrArg Except.ok (Option.some.inj agree)

end Request

namespace Pool

/-- Serves requests in order. -/
def renderAll (p : Pool) : List Request → List (Except Error Content) × Pool
  | [] => ([], p)
  | q :: more =>
      let (result, p) := p.render q.renderer q.template q.values
      let (results, p) := p.renderAll more
      (result :: results, p)

theorem renderAll_cons (p : Pool) (q : Request) (more : List Request) :
    (p.renderAll (q :: more)).1 = (p.render q.renderer q.template q.values).1 ::
      ((p.render q.renderer q.template q.values).2.renderAll more).1 := rfl

/-- A kept plan is the one that every request for its key would compile itself. -/
def Honest (requests : List Request) (p : Pool) : Prop :=
  ∀ (number : Nat) (key : CacheKey) (plan : Plan), (p.cache number).get? key = some plan →
    ∀ q ∈ requests, q.renderer.cache = number → q.key = key → q.planAnew = .ok plan

theorem honest_of_empty {requests : List Request} {p : Pool}
    (fresh : ∀ number, p.cache number = Cache.empty) : p.Honest requests := by
  intro number key plan kept
  rw [fresh] at kept
  exact nomatch kept

/-- Under a number is the new cache or, if it is another number or one that is not in use, the
old. -/
theorem cache_set (p : Pool) (number other : Nat) (c : Cache Plan) :
    (p.set number c).cache other = c ∧ other = number ∨
      (p.set number c).cache other = p.cache other := by
  simp only [cache, set, List.getD_eq_getElem?_getD, List.getElem?_set]
  by_cases same : number = other
  · subst same
    by_cases inUse : number < p.caches.length
    · exact .inl (by simp [inUse])
    · exact .inr (by simp [inUse])
  · exact .inr (by simp [same])

variable {requests : List Request} {p : Pool} {q : Request}

/-- In an honest pool the plan of a request is the one that it would compile itself. -/
theorem plan_fst_of_honest (honest : p.Honest requests) (member : q ∈ requests) :
    (q.renderer.plan (p.cache q.renderer.cache) q.template).1 = q.planAnew := by
  cases kept : (p.cache q.renderer.cache).get? q.key with
  | some plan =>
      rw [q.renderer.plan_of_some q.template kept]
      exact (honest _ _ _ kept q member rfl rfl).symm
  | none =>
      cases made : q.renderer.planAnew q.template with
      | error e => rw [q.renderer.plan_of_error q.template kept made, Request.planAnew, made]
      | ok plan => rw [q.renderer.plan_of_ok q.template kept made, Request.planAnew, made]

/-- The cache in which a request has looked for its plan holds nothing but honest plans. -/
theorem honest_set_plan (compatible : Request.Compatible requests) (honest : p.Honest requests)
    (member : q ∈ requests) :
    (p.set q.renderer.cache
      (q.renderer.plan (p.cache q.renderer.cache) q.template).2).Honest requests := by
  intro number key plan kept q' member' atNumber atKey
  rcases p.cache_set q.renderer.cache number
      (q.renderer.plan (p.cache q.renderer.cache) q.template).2 with ⟨new, rfl⟩ | old
  · rw [new] at kept
    rcases q.renderer.get?_plan_snd q.template kept with before | ⟨same, made⟩
    · exact honest _ _ _ before q' member' atNumber atKey
    · -- The plan is the one just compiled, and a request for its key agrees with `q`.
      exact compatible.planAnew_eq member' member atNumber (atKey.trans same) made
  · rw [old] at kept
    exact honest _ _ _ kept q' member' atNumber atKey

theorem set_cache_honest (honest : p.Honest requests) (number : Nat) :
    (p.set number (p.cache number)).Honest requests := by
  intro other key plan kept
  rcases p.cache_set number other (p.cache number) with ⟨new, rfl⟩ | old
  · exact honest _ _ _ (new ▸ kept)
  · exact honest _ _ _ (old ▸ kept)

/-- An honest pool serves a request as a fresh cache does, and stays honest. -/
theorem honest_render (compatible : Request.Compatible requests) (honest : p.Honest requests)
    (member : q ∈ requests) :
    (p.render q.renderer q.template q.values).1 = q.alone ∧
      (p.render q.renderer q.template q.values).2.Honest requests := by
  simp only [render, Request.alone]
  by_cases count : q.values.length = q.template.slots
  · rw [q.renderer.render_of_count q.template _ count,
      q.renderer.render_of_count q.template _ count, q.renderer.plan_empty_fst]
    refine ⟨?_, honest_set_plan compatible honest member⟩
    exact congrArg (Except.map (q.renderer.page · q.values)) (plan_fst_of_honest honest member)
  · rw [q.renderer.render_of_wrong_count q.template _ count,
      q.renderer.render_of_wrong_count q.template _ count]
    exact ⟨rfl, set_cache_honest honest _⟩

/-- An honest pool serves requests as fresh caches do. -/
theorem renderAll_of_honest (compatible : Request.Compatible requests) :
    ∀ (coming : List Request) (p : Pool), p.Honest requests → (∀ q ∈ coming, q ∈ requests) →
      (p.renderAll coming).1 = coming.map Request.alone
  | [], _, _, _ => rfl
  | q :: more, p, honest, members => by
      obtain ⟨member, members⟩ := List.forall_mem_cons.1 members
      obtain ⟨same, honest'⟩ := honest_render compatible honest member
      have rest := renderAll_of_honest compatible more _ honest' members
      rw [renderAll_cons, same, rest, List.map_cons]

/-- Compatible requests through shared caches get what each would get alone; in particular a
request made again gets the same again. -/
theorem renderAll_eq_alone (compatible : Request.Compatible requests)
    (fresh : ∀ number, p.cache number = Cache.empty) :
    (p.renderAll requests).1 = requests.map Request.alone ∧
      ∀ i j : Nat, requests[i]? = requests[j]? →
        (p.renderAll requests).1[i]? = (p.renderAll requests).1[j]? := by
  have served := renderAll_of_honest compatible requests p (honest_of_empty fresh) fun _ h => h
  refine ⟨served, ?_⟩
  intro i j same
  rw [served, List.getElem?_map, List.getElem?_map, same]

/-! ## Five requests to one cache -/

/-- A self-closing tag with a slot in an attribute and a slot after the tag. -/
def card : Template := (Issuer.start.create ["<p a=\"".toList, "\"/>".toList, "".toList]).1

/-- A renderer of markup with the first cache. -/
def ofFirstCache (svg minify : Bool) (lead : Text) (minifier : Minifier) : Renderer where
  settings := { markerLead := some lead, svg, minify }
  lead := lead
  marking := Marking.markup svg
  minifier := minifier
  cache := 0

/-- Two leads, two minifiers, both settings of `svg`, a wrong number of values and a repetition. -/
def mixed : List Request := [
  ⟨ofFirstCache false false ['m'] Minifier.trimming, card, [.text ['<'], .bool true]⟩,
  ⟨ofFirstCache false true ['n', '7'] Minifier.shouting, card, [.text ['b'], .null]⟩,
  ⟨ofFirstCache true false ['m'] Minifier.trimming, card, [.null, .null]⟩,
  ⟨ofFirstCache false false ['m'] Minifier.trimming, card, []⟩,
  ⟨ofFirstCache false false ['m'] Minifier.trimming, card, [.text ['<'], .bool true]⟩]

theorem compatible_mixed : Request.Compatible mixed := by
  unfold Request.Compatible
  decide

theorem fresh_add : ∀ number, empty.add.2.cache number = Cache.empty
  | 0 => rfl
  | _ + 1 => rfl

/-- The five requests find one empty cache and share it by variant. -/
theorem renderAll_mixed :
    Request.Compatible mixed ∧ (∀ number, empty.add.2.cache number = Cache.empty) ∧
      ((empty.add.2.renderAll mixed).1.map fun result => result.toOption.map Content.body) =
        [some "<p a=\"&lt;\"></p>true".toList, some "<P A=\"B\"></P>".toList,
          some "<p/>".toList, none, some "<p a=\"&lt;\"></p>true".toList] := by
  refine ⟨compatible_mixed, fresh_add, ?_⟩
  rw [(renderAll_eq_alone compatible_mixed fresh_add).1]
  decide

end Pool

end Stencil
