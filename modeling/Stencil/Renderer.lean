/-
# Stencil.Renderer -- from a template and its values to a page

A renderer marks the slots of a template, compiles the marked markup into a plan, and fills the
plan with the values.  Plans are kept in a cache, which several renderers may share: a plan is kept
under the template and the variant of the marking, and what is a renderer's own, its minifier and
whether it shortens, comes after the cache.

The number of values is checked first.  Then a plan is taken from the cache; only if there is none
is the template marked, and then the marking's failure or a wrong number of markers fails the
rendering.
-/
import Stencil.Cache
import Stencil.Marking
import Stencil.Plan
import Stencil.Settings.Basic
import Stencil.Template

set_option autoImplicit false

namespace Stencil

/-- How templates are rendered. -/
structure Renderer where
  settings : Settings
  lead : Text
  marking : Marking
  minifier : Minifier
  cache : Nat

namespace Renderer

/-- A renderer with settings, made at a time in milliseconds. -/
def create (settings : Settings) (marking : Marking) (minifier : Minifier)
    (cache millis : Nat) : Renderer where
  settings
  lead := settings.lead millis
  marking
  minifier
  cache

/-- The plan of a template, made anew. -/
def planAnew (r : Renderer) (t : Template) : Except Error Plan :=
  match r.marking.mark t.fragments r.lead with
  | .error e => .error e
  | .ok marked => Plan.ofMarked r.lead marked t.slots t.source

/-- What the plan of a template is kept under. -/
def key (r : Renderer) (t : Template) : CacheKey := ⟨t.id, r.marking.variant⟩

/-- The plan of a template, through a cache. -/
def plan (r : Renderer) (c : Cache Plan) (t : Template) : Except Error Plan × Cache Plan :=
  c.fetch (r.key t) fun c => (r.planAnew t, c)

/-- The page that a plan and values give: markup with the renderer's minifier, shortened if the
settings ask for it. -/
def page (r : Renderer) (p : Plan) (values : List Value) : Content :=
  let page : Content := ⟨.html, p.fill values, r.minifier⟩
  if r.settings.minify then { page with body := page.shortened } else page

/-- Renders a template with one value for each slot, through a cache. -/
def render (r : Renderer) (c : Cache Plan) (t : Template) (values : List Value) :
    Except Error Content × Cache Plan :=
  if values.length = t.slots then
    match r.plan c t with
    | (.error e, c) => (.error e, c)
    | (.ok p, c) => (.ok (r.page p values), c)
  else (.error (.valueCount t.source t.slots values.length), c)

end Renderer

/-- Caches that renderers share, by number. -/
structure Pool where
  caches : List (Cache Plan)

namespace Pool

def empty : Pool := ⟨[]⟩

/-- Opens a cache; its number is returned. -/
def add (p : Pool) : Nat × Pool := (p.caches.length, ⟨p.caches ++ [Cache.empty]⟩)

def cache (p : Pool) (number : Nat) : Cache Plan := p.caches.getD number Cache.empty

/-- The pool with another cache under a number. -/
def set (p : Pool) (number : Nat) (c : Cache Plan) : Pool := ⟨p.caches.set number c⟩

/-- The plan of a template for a renderer, through the renderer's cache. -/
def plan (p : Pool) (r : Renderer) (t : Template) : Except Error Plan × Pool :=
  let (result, c) := r.plan (p.cache r.cache) t
  (result, p.set r.cache c)

/-- Renders a template with a renderer, through the renderer's cache. -/
def render (p : Pool) (r : Renderer) (t : Template) (values : List Value) :
    Except Error Content × Pool :=
  let (result, c) := r.render (p.cache r.cache) t values
  (result, p.set r.cache c)

end Pool

end Stencil
