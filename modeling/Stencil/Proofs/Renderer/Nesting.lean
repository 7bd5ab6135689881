/-
# Stencil.Proofs.Renderer.Nesting -- what stands where in nested pages

`Surroundings` are a tree of pages without one of its parts, with every page and list on the way
down to it.  If each page on the way gives the part a slot between tags, the markup of the part is
in the markup of the tree once and unchanged, between two texts that do not depend on it
(`Surroundings.exists_frame`).  In a tree that nests this is so for every page
(`PageTree.exists_surroundings`).

`PageTree.render_eq_markup` says it of what renderers give: the root's page is the tree written in
one pass, every page's markup and fixed texts are in it as they are, and a text at any depth is
escaped once.
-/
import Stencil.Proofs.Renderer.PageTree

set_option autoImplicit false

namespace Stencil

/-- A tree of pages without one of its parts, by the way down to it. -/
inductive Surroundings where
  | here
  | page (site : Site) (left : List PageTree) (inside : Surroundings) (right : List PageTree)
  | list (left : List PageTree) (inside : Surroundings) (right : List PageTree)

namespace Surroundings

/-- The tree with the missing part. -/
def around : Surroundings → PageTree → PageTree
  | .here, tree => tree
  | .page site left inside right, tree => .page site (left ++ inside.around tree :: right)
  | .list left inside right, tree => .list (left ++ inside.around tree :: right)

/-- Each page on the way down gives what is inside it a slot between tags, if the page has a slot
for each of its children. -/
def BetweenTags : Surroundings → Prop
  | .here => True
  | .page site left inside right =>
      (∀ plan : Plan, site.plan = .ok plan →
        left.length + (right.length + 1) = site.template.slots →
          plan.segments[left.length]?.bind Segment.slot = some .text) ∧ inside.BetweenTags
  | .list _ inside _ => inside.BetweenTags

end Surroundings

namespace PageTree

theorem length_of_shown {trees : List PageTree} {given : List (Value × Text)}
    (allShown : shown trees = .ok given) : given.length = trees.length := by
  induction trees generalizing given with
  | nil =>
      cases allShown
      rfl
  | cons tree more ih =>
      rw [shown, bind_eq_ok] at allShown
      obtain ⟨text, -, others⟩ := allShown
      obtain ⟨rest, moreShown, rfl⟩ := map_eq_ok.1 others
      rw [List.length_cons, ih moreShown, List.length_cons]

/-- What trees show around one of them does not depend on that one. -/
theorem exists_frame_of_shown (left right : List PageTree) :
    ∃ front back : List (Value × Text), front.length = left.length ∧
      ∀ (tree : PageTree) (given : List (Value × Text)),
        shown (left ++ tree :: right) = .ok given →
          ∃ inner, tree.markup = .ok inner ∧
            given = front ++ (tree.withoutPages, inner) :: back := by
  induction left with
  | nil =>
      refine ⟨[], (shown right).toOption.getD [], rfl, fun tree given allShown => ?_⟩
      rw [List.nil_append, shown, bind_eq_ok] at allShown
      obtain ⟨inner, innerShown, others⟩ := allShown
      obtain ⟨back, rightShown, rfl⟩ := map_eq_ok.1 others
      exact ⟨inner, innerShown, by rw [rightShown]; rfl⟩
  | cons first left ih =>
      obtain ⟨front, back, atLength, shows⟩ := ih
      refine ⟨(first.withoutPages, first.markup.toOption.getD []) :: front, back,
        congrArg Nat.succ atLength, fun tree given allShown => ?_⟩
      rw [List.cons_append, shown, bind_eq_ok] at allShown
      obtain ⟨text, firstShown, others⟩ := allShown
      obtain ⟨rest, restShown, rfl⟩ := map_eq_ok.1 others
      obtain ⟨inner, innerShown, rfl⟩ := shows tree rest restShown
      exact ⟨inner, innerShown, by rw [firstShown]; rfl⟩

/-- A page that has a markup has a plan, filled with what its children show. -/
theorem markup_page_eq_ok {site : Site} {children : List PageTree} {written : Text}
    (rendered : (page site children).markup = .ok written) :
    ∃ plan given, site.plan = .ok plan ∧ children.length = site.template.slots ∧
      shown children = .ok given ∧ written = Segment.place plan.segments given := by
  rw [markup, bind_eq_ok] at rendered
  obtain ⟨given, allShown, filled⟩ := rendered
  by_cases count : given.length = site.template.slots
  · rw [if_pos count, map_eq_ok] at filled
    obtain ⟨plan, made, rfl⟩ := filled
    exact ⟨plan, given, made, (length_of_shown allShown).symm.trans count, allShown, rfl⟩
  · rw [if_neg count] at filled
    cases filled

end PageTree

namespace Surroundings

open PageTree

/-- Behind slots between tags the markup of a part stands as it is, and the rest does not depend on
the part. -/
theorem exists_frame (s : Surroundings) (betweenTags : s.BetweenTags) :
    ∃ before after : Text, ∀ (tree : PageTree) (written : Text),
      (s.around tree).markup = .ok written →
        ∃ inner, tree.markup = .ok inner ∧ written = before ++ inner ++ after := by
  induction s with
  | here => exact ⟨[], [], fun _ written rendered => ⟨written, rendered, by simp⟩⟩
  | page site left inside right ih =>
      obtain ⟨between, within⟩ := betweenTags
      obtain ⟨before, after, framed⟩ := ih within
      obtain ⟨front, back, atLength, shows⟩ := exists_frame_of_shown left right
      by_cases possible : ∃ plan, site.plan = .ok plan ∧
          left.length + (right.length + 1) = site.template.slots
      · obtain ⟨plan, made, count⟩ := possible
        have atSlot := between plan made count
        rw [← atLength] at atSlot
        obtain ⟨first, last, placed⟩ := Segment.exists_place_append plan.segments front back atSlot
        refine ⟨first ++ before, after ++ last, fun tree written rendered => ?_⟩
        obtain ⟨plan', given, made', -, allShown, rfl⟩ := markup_page_eq_ok rendered
        obtain rfl := Except.ok.inj (made.symm.trans made')
        obtain ⟨middle, middleShown, rfl⟩ := shows _ given allShown
        obtain ⟨inner, innerShown, rfl⟩ := framed tree middle middleShown
        exact ⟨inner, innerShown, by rw [placed]; simp⟩
      · refine ⟨[], [], fun tree written rendered => absurd ?_ possible⟩
        obtain ⟨plan, given, made, count, -, -⟩ := markup_page_eq_ok rendered
        exact ⟨plan, made, by simpa using count⟩
  | list left inside right ih =>
      obtain ⟨before, after, framed⟩ := ih betweenTags
      obtain ⟨front, back, -, shows⟩ := exists_frame_of_shown left right
      refine ⟨front.flatMap Prod.snd ++ before, after ++ back.flatMap Prod.snd,
        fun tree written rendered => ?_⟩
      obtain ⟨given, allShown, rfl⟩ := map_eq_ok.1 rendered
      obtain ⟨middle, middleShown, rfl⟩ := shows _ given allShown
      obtain ⟨inner, innerShown, rfl⟩ := framed tree middle middleShown
      exact ⟨inner, innerShown, by simp⟩

/-- The pages of a part are among those of the tree. -/
theorem pages_subset_around (s : Surroundings) (tree : PageTree) :
    tree.pages ⊆ (s.around tree).pages := by
  intro p member
  induction s with
  | here => exact member
  | page site left inside right ih =>
      have among : inside.around tree ∈ left ++ inside.around tree :: right := by simp
      exact List.mem_cons_of_mem _ (pages_subset_pagesOf among ih)
  | list left inside right ih =>
      have among : inside.around tree ∈ left ++ inside.around tree :: right := by simp
      exact pages_subset_pagesOf among ih

end Surroundings

namespace PageTree

mutual

/-- In a tree that nests, every page is given slots between tags all the way up. -/
theorem exists_surroundings : ∀ {tree : PageTree}, tree.Nests → ∀ p ∈ tree.pages,
    ∃ s : Surroundings, s.BetweenTags ∧ s.around (page p.1 p.2) = tree
  | .leaf _, _, _, member => nomatch member
  | .page site children, nests, p, member => by
      rcases List.mem_cons.1 member with rfl | member
      · exact ⟨.here, trivial, rfl⟩
      · obtain ⟨left, s, right, betweenTags, rfl⟩ :=
          exists_surroundings_items nests.of_mem_children p member
        refine ⟨.page site left s right, ⟨fun plan made count => ?_, betweenTags⟩, rfl⟩
        refine nests.between _ (List.mem_cons_self ..) plan made (by simpa using count) left.length
          (s.around (page p.1 p.2)) (by simp) ?_
        exact List.ne_nil_of_mem (s.pages_subset_around _ (List.mem_cons_self ..))
  | .list items, nests, p, member => by
      obtain ⟨left, s, right, betweenTags, rfl⟩ :=
        exists_surroundings_items nests.of_mem_items p member
      exact ⟨.list left s right, betweenTags, rfl⟩

theorem exists_surroundings_items : ∀ {trees : List PageTree}, (∀ tree ∈ trees, tree.Nests) →
    ∀ p ∈ pagesOf trees, ∃ (left : List PageTree) (s : Surroundings) (right : List PageTree),
      s.BetweenTags ∧ left ++ s.around (page p.1 p.2) :: right = trees
  | [], _, _, member => nomatch member
  | tree :: more, nests, p, member => by
      obtain ⟨first, others⟩ := List.forall_mem_cons.1 nests
      rcases List.mem_append.1 member with here | there
      · obtain ⟨s, betweenTags, rfl⟩ := exists_surroundings first p here
        exact ⟨[], s, more, betweenTags, rfl⟩
      · obtain ⟨left, s, right, betweenTags, rfl⟩ := exists_surroundings_items others p there
        exact ⟨tree :: left, s, right, betweenTags, rfl⟩

end

/-- The body of a tree's root is the tree written in one pass. -/
theorem render_map_body {site : Site} {children : List PageTree}
    (nests : (page site children).Nests) :
    ((values children).bind site.render).map Content.body = (page site children).markup := by
  rw [← value_map_toMarkup nests, value]
  cases values children with
  | error e => rfl
  | ok given =>
      simp only [Except.bind]
      by_cases count : given.length = site.template.slots
      · rw [site.render_of_count count]
        cases site.plan with
        | error e => rfl
        | ok plan => exact congrArg Except.ok (toMarkup_page _ plan given).symm
      · rw [site.render_of_wrong_count count]
        rfl

section

variable {s : Surroundings} {before after written : Text}

/-- The frame of a part is around what its value shows. -/
theorem exists_value_of_frame
    (framed : ∀ (tree : PageTree) (written : Text), (s.around tree).markup = .ok written →
      ∃ inner, tree.markup = .ok inner ∧ written = before ++ inner ++ after)
    {tree : PageTree} (nests : (s.around tree).Nests)
    (rendered : (s.around tree).value.map Value.toMarkup = .ok written) :
    ∃ inner, tree.value.map Value.toMarkup = .ok inner ∧ written = before ++ inner ++ after := by
  rw [value_map_toMarkup nests] at rendered
  obtain ⟨inner, innerShown, split⟩ := framed tree written rendered
  have innerNests : tree.Nests := nests.of_subset (s.pages_subset_around tree)
  exact ⟨inner, (value_map_toMarkup innerNests).trans innerShown, split⟩

/-- Every page of a tree that nests has its markup in it as it is, and so its fixed texts. -/
theorem exists_infix_of_mem_pages {tree : PageTree} (nests : tree.Nests)
    (rendered : tree.value.map Value.toMarkup = .ok written) :
    ∀ p ∈ tree.pages, ∃ plan inner, p.1.plan = .ok plan ∧
      (page p.1 p.2).value.map Value.toMarkup = .ok inner ∧ inner <:+: written ∧
        ∀ segment ∈ plan.segments, segment.pre <:+: written ∧ segment.post <:+: written := by
  intro p member
  obtain ⟨s, betweenTags, rfl⟩ := exists_surroundings nests p member
  obtain ⟨before, after, framed⟩ := s.exists_frame betweenTags
  obtain ⟨inner, innerRendered, rfl⟩ := exists_value_of_frame framed nests rendered
  have inside : inner <:+: before ++ inner ++ after := ⟨before, after, rfl⟩
  have innerShown := innerRendered
  rw [value_map_toMarkup (nests.of_subset (s.pages_subset_around _))] at innerShown
  obtain ⟨plan, given, made, -, -, rfl⟩ := markup_page_eq_ok innerShown
  refine ⟨plan, _, made, innerRendered, inside, fun segment listed => ?_⟩
  obtain ⟨pre, post⟩ := Segment.infix_place plan.segments given segment listed
  exact ⟨pre.trans inside, post.trans inside⟩

end

/-- Rendered from below, a tree of pages that nests gives what is written in one pass, or the same
error.  The markup of every page in it stands in it as it is, and so do the fixed texts of every
page.  Behind slots between tags alone, what a part shows is between two texts that do not depend on
the part; for a text it is the text, escaped once. -/
theorem render_eq_markup :
    (∀ (site : Site) (children : List PageTree), (page site children).Nests →
      ((values children).bind site.render).map Content.body = (page site children).markup) ∧
    (∀ (tree : PageTree) (written : Text), tree.Nests →
      tree.value.map Value.toMarkup = .ok written → ∀ p ∈ tree.pages, ∃ plan inner,
        p.1.plan = .ok plan ∧ (page p.1 p.2).value.map Value.toMarkup = .ok inner ∧
          inner <:+: written ∧
            ∀ segment ∈ plan.segments, segment.pre <:+: written ∧ segment.post <:+: written) ∧
    ∀ s : Surroundings, s.BetweenTags → ∃ before after : Text,
      (∀ (tree : PageTree) (written : Text), (s.around tree).Nests →
        (s.around tree).value.map Value.toMarkup = .ok written →
          ∃ inner, tree.value.map Value.toMarkup = .ok inner ∧
            written = before ++ inner ++ after) ∧
      ∀ t written : Text, (s.around (.leaf (.text t))).Nests →
        (s.around (.leaf (.text t))).value.map Value.toMarkup = .ok written →
          written = before ++ Text.escape t ++ after := by
  refine ⟨fun _ _ => render_map_body, fun _ _ => exists_infix_of_mem_pages,
    fun s betweenTags => ?_⟩
  obtain ⟨before, after, framed⟩ := s.exists_frame betweenTags
  refine ⟨before, after, fun _ _ => exists_value_of_frame framed,
    fun t written nests rendered => ?_⟩
  obtain ⟨inner, innerRendered, split⟩ := exists_value_of_frame framed nests rendered
  cases innerRendered
  exact split

/-! ## A page with pages in its list -/

/-- A renderer of markup that leaves pages as they are. -/
def plainRenderer : Renderer := Pool.ofFirstCache false false ['m'] Minifier.trimming

/-- A template with one slot, between tags. -/
def bold : Template :=
  ((Issuer.start.create Pool.card.fragments).2.create ["<b>".toList, "</b>".toList]).1

/-- The pool after the first page of `bold`. -/
def afterBold : Pool := (Pool.empty.add.2.plan plainRenderer bold).2

/-- A slot in an attribute, and one after the tag for a list with a page, a word and a page. -/
def gallery : PageTree :=
  .page ⟨afterBold, plainRenderer, Pool.card⟩ [.leaf (.text ['"']),
    .list [.page ⟨Pool.empty.add.2, plainRenderer, bold⟩ [.leaf (.text ['<'])],
      .list [.leaf (.bool true),
        .page ⟨afterBold, plainRenderer, bold⟩ [.leaf (.text "&lt;".toList)]]]]

def galleryMarkup : Text := "<p a=\"&quot;\"></p><b>&lt;</b>true<b>&amp;lt;</b>".toList

/-- The way to the last text of `gallery`. -/
def lastText : Surroundings :=
  .page ⟨afterBold, plainRenderer, Pool.card⟩ [.leaf (.text ['"'])]
    (.list [.page ⟨Pool.empty.add.2, plainRenderer, bold⟩ [.leaf (.text ['<'])]]
      (.list [.leaf (.bool true)] (.page ⟨afterBold, plainRenderer, bold⟩ [] .here []) []) []) []

theorem nests_gallery : gallery.Nests where
  whole := by decide
  between := by
    intro p member plan made _ i child given paged
    have listed : p ∈ [_, _, _] := member
    simp only [List.mem_cons, List.not_mem_nil, or_false] at listed
    obtain rfl | rfl | rfl := listed
    · match i with
      | 0 => cases given; exact absurd rfl paged
      | 1 => cases made; rfl
      | _ + 2 => nomatch given
    all_goals
      match i with
      | 0 => cases given; exact absurd rfl paged
      | _ + 1 => nomatch given

theorem betweenTags_lastText : lastText.BetweenTags :=
  ⟨fun _ made _ => by cases made; rfl, fun _ made _ => by cases made; rfl, trivial⟩

/-- The quote and the bracket are escaped once, and so is the text that looks escaped already; the
tags of the pages in the lists are tags of the whole page. -/
theorem render_gallery :
    gallery.Nests ∧ lastText.BetweenTags ∧
      lastText.around (.leaf (.text "&lt;".toList)) = gallery ∧
      gallery.value.map Value.toMarkup = .ok galleryMarkup ∧
      gallery.markup = .ok galleryMarkup ∧
      (∀ p ∈ gallery.pages, ∃ inner, (page p.1 p.2).value.map Value.toMarkup = .ok inner ∧
        inner <:+: galleryMarkup) ∧
      ∃ before after : Text, galleryMarkup = before ++ Text.escape "&lt;".toList ++ after := by
  obtain ⟨onePass, verbatim, framed⟩ := render_eq_markup
  have rendered : gallery.value.map Value.toMarkup = .ok galleryMarkup := rfl
  obtain ⟨before, after, -, escaped⟩ := framed lastText betweenTags_lastText
  refine ⟨nests_gallery, betweenTags_lastText, rfl, rendered, ?_, fun p member => ?_, before, after,
    escaped _ _ nests_gallery rendered⟩
  · exact (onePass _ _ nests_gallery).symm.trans rfl
  · obtain ⟨-, inner, -, innerRendered, inside, -⟩ :=
      verbatim gallery _ nests_gallery rendered p member
    exact ⟨inner, innerRendered, inside⟩

end PageTree

end Stencil
