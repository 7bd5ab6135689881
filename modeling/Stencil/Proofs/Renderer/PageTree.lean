/-
# Stencil.Proofs.Renderer.PageTree -- pages made of pages

A page may be given to a slot of another template, by itself or in lists, and so on upwards.  A
`PageTree` is a page with all that goes into it.  `PageTree.value` renders it from below: the
children first, then the template with what they gave, so a page that goes into another passes
through as content.  `PageTree.markup` is what should come out, written in one pass: each template
once, with the markup of a child in its place as it stands.

Both are the same, or fail with the same error, if no renderer shortens its pages and pages are
given to slots between tags only (`PageTree.value_map_toMarkup`).
-/
import Mathlib.Data.List.Forall2
import Stencil.Proofs.Renderer.Sharing

set_option autoImplicit false

namespace Stencil

section

variable {ε α β : Type} {x : Except ε α} {b : β}

/-- One step after another gives a result if both do. -/
theorem bind_eq_ok {f : α → Except ε β} : x.bind f = .ok b ↔ ∃ a, x = .ok a ∧ f a = .ok b := by
  cases x <;> simp [Except.bind]

theorem map_eq_ok {f : α → β} : x.map f = .ok b ↔ ∃ a, x = .ok a ∧ f a = b := by
  cases x <;> simp [Except.map]

end

/-- A template with the renderer of its page and the pool that the renderer then finds.  The pools
of a tree's pages need not be related, so the pages may be rendered in any order, and other calls
may come in between. -/
structure Site where
  pool : Pool
  renderer : Renderer
  template : Template

namespace Site

variable (s : Site)

def plan : Except Error Plan := (s.pool.plan s.renderer s.template).1

def render (values : List Value) : Except Error Content :=
  (s.pool.render s.renderer s.template values).1

theorem render_of_count {values : List Value} (count : values.length = s.template.slots) :
    s.render values = s.plan.map (s.renderer.page · values) :=
  congrArg Prod.fst (s.renderer.render_of_count s.template _ count)

theorem render_of_wrong_count {values : List Value} (wrong : values.length ≠ s.template.slots) :
    s.render values =
      .error (.valueCount s.template.source s.template.slots values.length) :=
  congrArg Prod.fst (s.renderer.render_of_wrong_count s.template _ wrong)

end Site

/-! ## Filling slots with markup -/

/-- What a slot is filled with for a child that has a value and a markup: the markup between tags,
anywhere else what the slot writes for the value. -/
def Slot.put : Slot → Value → (markup : Text) → Text
  | .text, _, markup => markup
  | slot, v, _ => slot.render v

theorem Slot.put_toMarkup (slot : Slot) (v : Value) : slot.put v v.toMarkup = slot.render v := by
  cases slot <;> rfl

namespace Segment

/-- Segments filled with children, each by its value and its markup. -/
def place : List Segment → List (Value × Text) → Text
  | [], _ => []
  | s :: more, [] => s.fill .null ++ place more []
  | s :: more, (v, markup) :: others =>
      s.pre ++ (match s.slot with | some slot => slot.put v markup | none => []) ++ s.post ++
        place more others

/-- Behind a slot between tags the markup of a child stands as it is, and the rest does not depend
on the child. -/
theorem exists_place_append : ∀ (segments : List Segment) (left right : List (Value × Text)),
    segments[left.length]?.bind Segment.slot = some .text →
      ∃ before after : Text, ∀ (v : Value) (markup : Text),
        place segments (left ++ (v, markup) :: right) = before ++ markup ++ after
  | [], left, _, found => by simp at found
  | ⟨pre, slot, post⟩ :: more, [], right, found => by
      obtain rfl : slot = some .text := found
      exact ⟨pre, post ++ place more right, fun v markup => by simp [place, Slot.put]⟩
  | s :: more, child :: left, right, found => by
      obtain ⟨before, after, placed⟩ := exists_place_append more left right found
      refine ⟨place [s] [child] ++ before, after, fun v markup => ?_⟩
      rw [List.cons_append, place, placed v markup]
      simp [place]

/-- The fixed texts stand as they are. -/
theorem infix_place : ∀ (segments : List Segment) (children : List (Value × Text)),
    ∀ s ∈ segments, s.pre <:+: place segments children ∧ s.post <:+: place segments children
  | s :: more, children, t, member => by
      obtain ⟨child, others, split⟩ : ∃ (child : Text) (others : List (Value × Text)),
          place (s :: more) children = s.pre ++ child ++ s.post ++ place more others := by
        cases children with
        | nil => exact ⟨_, [], rfl⟩
        | cons child others => exact ⟨_, others, rfl⟩
      rw [split]
      rcases List.mem_cons.1 member with rfl | member
      · exact ⟨⟨[], child ++ t.post ++ place more others, by simp⟩,
          ⟨t.pre ++ child, place more others, by simp⟩⟩
      · obtain ⟨pre, post⟩ := infix_place more others t member
        have inside : place more others <:+: s.pre ++ child ++ s.post ++ place more others :=
          (List.suffix_append ..).isInfix
        exact ⟨pre.trans inside, post.trans inside⟩

end Segment

/-! ## Trees of pages -/

/-- A value, a page with what goes into its slots, or a list of such. -/
inductive PageTree where
  | leaf (v : Value)
  | page (site : Site) (children : List PageTree)
  | list (items : List PageTree)

namespace PageTree

mutual

/-- The value of a tree, with its pages rendered from below. -/
def value : PageTree → Except Error Value
  | .leaf v => .ok v
  | .page site children => (values children).bind fun given => (site.render given).map .content
  | .list items => (values items).map .list

def values : List PageTree → Except Error (List Value)
  | [] => .ok []
  | tree :: more => (value tree).bind fun v => (values more).map (v :: ·)

end

mutual

/-- The value of a tree with nothing in the place of its pages. -/
def withoutPages : PageTree → Value
  | .leaf v => v
  | .page _ _ => .null
  | .list items => .list (allWithoutPages items)

def allWithoutPages : List PageTree → List Value
  | [] => []
  | tree :: more => withoutPages tree :: allWithoutPages more

end

mutual

/-- The markup of a tree, written in one pass. -/
def markup : PageTree → Except Error Text
  | .leaf v => .ok v.toMarkup
  | .page site children => (shown children).bind fun given =>
      if given.length = site.template.slots then
        site.plan.map fun plan => Segment.place plan.segments given
      else .error (.valueCount site.template.source site.template.slots given.length)
  | .list items => (shown items).map (List.flatMap Prod.snd)

/-- Trees as slots show them: the value that each has without its pages, and its markup. -/
def shown : List PageTree → Except Error (List (Value × Text))
  | [] => .ok []
  | tree :: more => (markup tree).bind fun text =>
      (shown more).map ((withoutPages tree, text) :: ·)

end

mutual

/-- The pages in a tree, each with its children. -/
def pages : PageTree → List (Site × List PageTree)
  | .leaf _ => []
  | .page site children => (site, children) :: pagesOf children
  | .list items => pagesOf items

def pagesOf : List PageTree → List (Site × List PageTree)
  | [] => []
  | tree :: more => pages tree ++ pagesOf more

end

/-- No page is shortened, and what has pages in it is given to a slot between tags, unless the page
has no slot for each of its children. -/
structure Nests (tree : PageTree) : Prop where
  whole : ∀ page ∈ tree.pages, page.1.renderer.settings.minify = false
  between : ∀ page ∈ tree.pages, ∀ (plan : Plan), page.1.plan = .ok plan →
    page.2.length = page.1.template.slots → ∀ (i : Nat) (child : PageTree),
      page.2[i]? = some child → child.pages ≠ [] →
        plan.segments[i]?.bind Segment.slot = some .text

theorem pages_subset_pagesOf {tree : PageTree} : ∀ {trees : List PageTree}, tree ∈ trees →
    tree.pages ⊆ pagesOf trees
  | _ :: _, member => by
      rcases List.mem_cons.1 member with rfl | member
      · exact List.subset_append_left ..
      · exact List.subset_append_of_subset_right _ (pages_subset_pagesOf member)

theorem Nests.of_subset {tree inner : PageTree} (nests : tree.Nests)
    (fewer : inner.pages ⊆ tree.pages) : inner.Nests where
  whole page member := nests.whole page (fewer member)
  between page member := nests.between page (fewer member)

theorem Nests.of_mem_children {site : Site} {children : List PageTree}
    (nests : (page site children).Nests) : ∀ child ∈ children, child.Nests := fun _ member =>
  nests.of_subset (List.subset_cons_of_subset _ (pages_subset_pagesOf member))

theorem Nests.of_mem_items {items : List PageTree} (nests : (list items).Nests) :
    ∀ item ∈ items, item.Nests := fun _ member => nests.of_subset (pages_subset_pagesOf member)

/-! ## Rendering from below -/

/-- Trees give values if each of them does. -/
theorem values_eq_ok_iff {trees : List PageTree} {given : List Value} :
    values trees = .ok given ↔ List.Forall₂ (fun tree v => value tree = .ok v) trees given := by
  induction trees generalizing given with
  | nil =>
      rw [values, List.forall₂_nil_left_iff, Except.ok.injEq]
      exact eq_comm
  | cons tree more ih =>
      rw [values, List.forall₂_cons_left_iff, bind_eq_ok]
      simp only [map_eq_ok, ih]
      constructor
      · rintro ⟨v, first, rest, others, rfl⟩
        exact ⟨v, rest, first, others, rfl⟩
      · rintro ⟨v, rest, first, others, rfl⟩
        exact ⟨v, first, rest, others, rfl⟩

mutual

/-- Without pages there is nothing to render. -/
theorem value_of_pages_eq_nil : ∀ {tree : PageTree}, tree.pages = [] →
    tree.value = .ok tree.withoutPages
  | .leaf _, _ => rfl
  | .page _ _, pageless => nomatch pageless
  | .list _, pageless => by rw [value, values_of_pagesOf_eq_nil pageless, withoutPages]; rfl

theorem values_of_pagesOf_eq_nil : ∀ {trees : List PageTree}, pagesOf trees = [] →
    values trees = .ok (allWithoutPages trees)
  | [], _ => rfl
  | tree :: more, pageless => by
      obtain ⟨first, others⟩ := List.append_eq_nil_iff.1 pageless
      rw [values, value_of_pages_eq_nil first, values_of_pagesOf_eq_nil others, allWithoutPages]
      rfl

end

/-- A tree with the value that it gives, as `PageTree.shown` has it. -/
def asShown (tree : PageTree) (v : Value) : Value × Text := (tree.withoutPages, v.toMarkup)

/-- Filling segments with values from below is filling them in one pass. -/
theorem fillAll_eq_place : ∀ (segments : List Segment) {children : List PageTree}
    {given : List Value}, List.Forall₂ (fun tree v => value tree = .ok v) children given →
      (∀ (i : Nat) (child : PageTree), children[i]? = some child → child.pages ≠ [] →
        segments[i]?.bind Segment.slot = some .text) →
      Segment.fillAll segments given = Segment.place segments (List.zipWith asShown children given)
  | [], _, _, _, _ => by simp [Segment.fillAll, Segment.place]
  | s :: more, _, _, .nil, _ => by
      rw [Segment.fillAll, fillAll_eq_place more .nil fun i child missing => by simp at missing]
      rfl
  | s :: more, child :: _, v :: _, .cons first others, between => by
      have rest := fillAll_eq_place more others fun i => between (i + 1)
      have here : ∀ slot, s.slot = some slot →
          slot.render v = slot.put child.withoutPages v.toMarkup := by
        intro slot atSlot
        by_cases pageless : child.pages = []
        · have same := (value_of_pages_eq_nil pageless).symm.trans first
          rw [Except.ok.inj same, Slot.put_toMarkup]
        · obtain rfl := Option.some.inj (atSlot.symm.trans (between 0 child rfl pageless))
          rfl
      rw [Segment.fillAll, rest, List.zipWith_cons_cons, asShown, Segment.place, Segment.fill]
      cases atSlot : s.slot with
      | none => rfl
      | some slot => simp only [here slot atSlot]

/-- What trees show of themselves when they are put together is what their values show. -/
theorem flatMap_zipWith_asShown {trees : List PageTree} {given : List Value}
    (each : List.Forall₂ (fun tree v => value tree = .ok v) trees given) :
    (List.zipWith asShown trees given).flatMap Prod.snd = given.flatMap Value.toMarkup := by
  induction each with
  | nil => rfl
  | cons _ _ ih => rw [List.zipWith_cons_cons, List.flatMap_cons, List.flatMap_cons, ih]; rfl

/-- A page passes through as its body. -/
theorem toMarkup_page (r : Renderer) (plan : Plan) (given : List Value) :
    (Value.content (r.page plan given)).toMarkup = (r.page plan given).body := by
  unfold Renderer.page
  split <;> rfl

/-- Unless it is shortened, that is the filled plan. -/
theorem body_page {r : Renderer} (whole : r.settings.minify = false) (plan : Plan)
    (given : List Value) : (r.page plan given).body = plan.fill given := by
  rw [Renderer.page, whole]
  rfl

mutual

/-- From below comes what is written in one pass. -/
theorem value_map_toMarkup : ∀ {tree : PageTree}, tree.Nests →
    tree.value.map Value.toMarkup = tree.markup
  | .leaf _, _ => rfl
  | .page site children, nests => by
      have onePass := values_map_shown nests.of_mem_children
      rw [value, markup, ← onePass]
      cases rendered : values children with
      | error e => rfl
      | ok given =>
          have each := values_eq_ok_iff.1 rendered
          have first : (site, children) ∈ (page site children).pages := List.mem_cons_self ..
          simp only [Except.map, Except.bind, List.length_zipWith, each.length_eq, Nat.min_self]
          by_cases count : given.length = site.template.slots
          · rw [if_pos count, site.render_of_count count]
            cases made : site.plan with
            | error e => rfl
            | ok plan =>
                have placed := fillAll_eq_place plan.segments each
                  (nests.between _ first plan made (each.length_eq.trans count))
                simp only [Except.map, toMarkup_page, body_page (nests.whole _ first), Plan.fill,
                  placed]
          · rw [if_neg count, site.render_of_wrong_count count]
  | .list items, nests => by
      have onePass := values_map_shown nests.of_mem_items
      rw [value, markup, ← onePass]
      cases rendered : values items with
      | error e => rfl
      | ok given =>
          have shows := flatMap_zipWith_asShown (values_eq_ok_iff.1 rendered)
          simp only [Except.map, Value.toMarkup, Value.itemsMarkup_eq_flatMap, shows]

theorem values_map_shown : ∀ {trees : List PageTree}, (∀ tree ∈ trees, tree.Nests) →
    (values trees).map (List.zipWith asShown trees) = shown trees
  | [], _ => rfl
  | tree :: more, nests => by
      obtain ⟨first, others⟩ := List.forall_mem_cons.1 nests
      rw [values, shown, ← value_map_toMarkup first, ← values_map_shown others]
      cases value tree with
      | error e => rfl
      | ok v =>
          cases values more with
          | error e => rfl
          | ok given => rfl

end

end PageTree

end Stencil
