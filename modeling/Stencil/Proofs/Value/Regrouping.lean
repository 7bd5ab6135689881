/-
# Stencil.Proofs.Value.Regrouping -- how lists are grouped does not show

A value is a tree whose inner nodes are its lists.  Its markup is the markup of its leaves, one
after the other (`Value.toMarkup_eq_flatMap_leaves`), and its text is that of its leaves with one
comma between any two, as long as no list is empty (`Value.toText_eq_intercalate_leaves`): an empty
list is a leaf less but a comma more.

`Value.Regroups` puts the items of an inner list in the place of the list.  The inner list must not
be empty; the lists in it and around it may be.  No slot writes anything else afterwards
(`Value.render_eq_of_regroups`).  The reason for both is that a join of joins is the join of all
(`Text.intercalate_flatten`).
-/
import Stencil.Proofs.Value.Delimiters
import Stencil.Proofs.Value.Equality

set_option autoImplicit false

namespace Stencil

/-! ## Joins of joins -/

namespace Text

variable (separator : Text)

/-- The separator stands between the last text of the one list and the first of the other. -/
theorem intercalate_append {front back : List Text} (front_ne : front ≠ []) (back_ne : back ≠ []) :
    List.intercalate separator (front ++ back) =
      List.intercalate separator front ++ separator ++ List.intercalate separator back := by
  induction front with
  | nil => exact absurd rfl front_ne
  | cons s more ih =>
      by_cases last : more = []
      · subst last
        rw [List.singleton_append, List.intercalate_cons_of_ne_nil back_ne,
          List.intercalate_singleton]
      · have more_ne : more ++ back ≠ [] := by simp [last]
        rw [List.cons_append, List.intercalate_cons_of_ne_nil more_ne, ih last,
          List.intercalate_cons_of_ne_nil last]
        simp only [List.append_assoc]

/-- Joining groups and then their joins is joining all texts: no group is empty, so there is a
separator between any two groups. -/
theorem intercalate_flatten {groups : List (List Text)} (full : ∀ group ∈ groups, group ≠ []) :
    List.intercalate separator (groups.map (List.intercalate separator)) =
      List.intercalate separator groups.flatten := by
  induction groups with
  | nil => rfl
  | cons group more ih =>
      obtain ⟨group_ne, rest⟩ := List.forall_mem_cons.1 full
      by_cases last : more = []
      · subst last
        simp
      · have flat_ne : more.flatten ≠ [] := by
          obtain ⟨next, member⟩ := List.exists_mem_of_ne_nil _ last
          intro none
          exact rest next member (List.flatten_eq_nil_iff.1 none next member)
        rw [List.map_cons, List.intercalate_cons_of_ne_nil (by simpa using last), ih rest,
          List.flatten_cons, intercalate_append separator group_ne flat_ne]

end Text

namespace Value

/-! ## Leaves -/

@[simp] theorem itemLeaves_eq_flatMap (items : List Value) :
    itemLeaves items = items.flatMap leaves := by
  induction items with
  | nil => rfl
  | cons v more ih => rw [itemLeaves, ih, List.flatMap_cons]

mutual

/-- No leaf is a list. -/
theorem ne_list_of_mem_leaves :
    ∀ {v leaf : Value}, leaf ∈ v.leaves → ∀ items : List Value, leaf ≠ .list items
  | .list items, _, member => @ne_list_of_mem_itemLeaves items _ member
  | .text _, _, member | .number _, _, member | .bool _, _, member | .null, _, member
  | .content _, _, member | .record _, _, member | .other _, _, member => by
      rw [List.mem_singleton.1 member]
      nofun

theorem ne_list_of_mem_itemLeaves : ∀ {items : List Value} {leaf : Value},
    leaf ∈ itemLeaves items → ∀ others : List Value, leaf ≠ .list others
  | [], _, member => nomatch member
  | v :: more, _, member => by
      rcases List.mem_append.1 member with first | later
      · exact ne_list_of_mem_leaves first
      · exact ne_list_of_mem_itemLeaves later

end

mutual

/-- The markup of a value is that of its leaves. -/
theorem toMarkup_eq_flatMap_leaves : ∀ v : Value, v.toMarkup = v.leaves.flatMap toMarkup
  | .list items => itemsMarkup_eq_flatMap_leaves items
  | .text _ | .number _ | .bool _ | .null | .content _ | .record _ | .other _ => by
      rw [leaves, List.flatMap_singleton]

theorem itemsMarkup_eq_flatMap_leaves :
    ∀ items : List Value, itemsMarkup items = (itemLeaves items).flatMap toMarkup
  | [] => rfl
  | v :: more => by
      rw [itemsMarkup, itemLeaves, List.flatMap_append, toMarkup_eq_flatMap_leaves v,
        itemsMarkup_eq_flatMap_leaves more]

end

mutual

/-- No list of the value is empty.  A record is a leaf, so lists in records do not count. -/
def Full : Value → Prop
  | .list items => items ≠ [] ∧ ItemsFull items
  | .text _ | .number _ | .bool _ | .null | .content _ | .record _ | .other _ => True

def ItemsFull : List Value → Prop
  | [] => True
  | v :: more => Full v ∧ ItemsFull more

end

/-- A value without empty lists has a leaf. -/
theorem leaves_ne_nil : ∀ {v : Value}, v.Full → v.leaves ≠ []
  | .list [], ⟨ne, _⟩ => absurd rfl ne
  | .list (v :: more), ⟨_, full, _⟩ => by
      show v.leaves ++ itemLeaves more ≠ []
      simp [leaves_ne_nil full]
  | .text _, _ | .number _, _ | .bool _, _ | .null, _ | .content _, _ | .record _, _
  | .other _, _ => List.cons_ne_nil _ _

theorem full_of_mem : ∀ {items : List Value}, ItemsFull items → ∀ v ∈ items, v.Full
  | _ :: _, ⟨full, others⟩ => List.forall_mem_cons.2 ⟨full, full_of_mem others⟩
  | [], _ => nofun

mutual

/-- The text of a value without empty lists is that of its leaves, joined by commas. -/
theorem toText_eq_intercalate_leaves :
    ∀ {v : Value}, v.Full → v.toText = List.intercalate [','] (v.leaves.map toText)
  | .list items, ⟨_, full⟩ => by
      have groups_ne : ∀ group ∈ items.map fun v => v.leaves.map toText, group ≠ [] := by
        intro group member
        obtain ⟨v, here, rfl⟩ := List.mem_map.1 member
        simpa using leaves_ne_nil (full_of_mem full v here)
      show List.intercalate [','] (itemTexts items) =
        List.intercalate [','] ((itemLeaves items).map toText)
      rw [itemTexts_eq_intercalate_leaves full, Text.intercalate_flatten _ groups_ne,
        itemLeaves_eq_flatMap, List.map_flatMap, List.flatMap_def]
  | .text _, _ | .number _, _ | .bool _, _ | .null, _ | .content _, _ | .record _, _
  | .other _, _ => by rw [leaves, List.map_singleton, List.intercalate_singleton]

/-- The text of each item is the join of its own leaves. -/
theorem itemTexts_eq_intercalate_leaves : ∀ {items : List Value}, ItemsFull items →
    itemTexts items = (items.map fun v => v.leaves.map toText).map (List.intercalate [','])
  | [], _ => rfl
  | v :: more, ⟨full, others⟩ => by
      rw [itemTexts, toText_eq_intercalate_leaves full, itemTexts_eq_intercalate_leaves others]
      rfl

end

/-! ## Regrouping -/

/-- One list inside the value, which is not empty, gives way to its items. -/
inductive Regroups : Value → Value → Prop where
  | here {before inner after : List Value} (inner_ne : inner ≠ []) :
      Regroups (.list (before ++ .list inner :: after)) (.list (before ++ inner ++ after))
  | item {before after : List Value} {v w : Value} (inside : Regroups v w) :
      Regroups (.list (before ++ v :: after)) (.list (before ++ w :: after))
  | field {before after : Record} {key : Text} {v w : Value} (inside : Regroups v w) :
      Regroups (.record (before ++ (key, v) :: after)) (.record (before ++ (key, w) :: after))

variable {v w : Value}

theorem toMarkup_list (items : List Value) : (Value.list items).toMarkup = items.flatMap toMarkup :=
  itemsMarkup_eq_flatMap items

theorem toText_list (items : List Value) :
    (Value.list items).toText = List.intercalate [','] (items.map toText) :=
  congrArg (List.intercalate [',']) (itemTexts_eq_map items)

theorem toMarkup_eq_of_regroups (regroups : Regroups v w) : v.toMarkup = w.toMarkup := by
  induction regroups with
  | here inner_ne => simp [toMarkup_list]
  | item inside ih => simp [toMarkup_list, ih]
  | field inside ih => rfl

/-- The comma that the list has on either side its first and its last item get. -/
theorem toText_eq_of_regroups (regroups : Regroups v w) : v.toText = w.toText := by
  induction regroups with
  | @here before inner after inner_ne =>
      -- Every other item is a group of its own.
      have full : ∀ group ∈ before.map (fun v => [v.toText]) ++ inner.map toText ::
          after.map (fun v => [v.toText]), group ≠ [] := by
        intro group member
        simp only [List.mem_append, List.mem_cons, List.mem_map] at member
        rcases member with ⟨_, _, rfl⟩ | rfl | ⟨_, _, rfl⟩
        · exact List.cons_ne_nil _ _
        · simpa using inner_ne
        · exact List.cons_ne_nil _ _
      have joined := Text.intercalate_flatten [','] full
      simp only [List.map_append, List.map_cons, List.map_map, Function.comp_def,
        List.intercalate_singleton, List.flatten_append, List.flatten_cons, ← List.flatMap_def,
        ← List.map_eq_flatMap] at joined
      simp only [toText_list, List.map_append, List.map_cons, joined, List.append_assoc]
  | item inside ih => simp [toText_list, ih]
  | field inside ih => rfl

/-- The value under each key has the text that it had. -/
theorem map_toText_of_regroups {before after : Record} {key : Text} (regroups : Regroups v w) :
    (before ++ (key, v) :: after).map (fun field => (field.1, field.2.toText)) =
      (before ++ (key, w) :: after).map fun field => (field.1, field.2.toText) := by
  simp [toText_eq_of_regroups regroups]

/-- No slot tells the value from the regrouped one. -/
theorem render_eq_of_regroups (regroups : Regroups v w) (slot : Slot) :
    slot.render v = slot.render w := by
  by_cases text : slot = .text
  · subst text
    exact toMarkup_eq_of_regroups regroups
  · have same := toText_eq_of_regroups regroups
    cases regroups with
    | field inside => exact Slot.render_record_congr (map_toText_of_regroups inside) slot
    | here | item =>
        rw [Slot.render_eq_writeText text, Slot.render_eq_writeText text, same]
        all_goals exact trivial

/-- The markup of a value is that of its leaves, none of which is a list; so is its text, with a
comma between any two, if no list is empty.  And if an inner list that is not empty gives way to its
items, at any depth, every slot writes for the whole value what it wrote before. -/
theorem leaves_determine (v : Value) :
    (∀ leaf ∈ v.leaves, ∀ items : List Value, leaf ≠ .list items) ∧
      v.toMarkup = v.leaves.flatMap toMarkup ∧
      (v.Full → v.toText = List.intercalate [','] (v.leaves.map toText)) ∧
      ∀ w : Value, Regroups v w → ∀ slot : Slot, slot.render v = slot.render w :=
  ⟨fun _ => ne_list_of_mem_leaves, toMarkup_eq_flatMap_leaves v, toText_eq_intercalate_leaves,
    fun _ => render_eq_of_regroups⟩

def grouped : Value := .list [.text ['a'], .list [.text ['b'], .bool true]]

/-- An inner list that is not empty but holds a list that is. -/
def holed : Value := .list [.text ['a'], .list [.list [], .bool true]]

/-- The inner list gives way to its two items, and the empty list among them keeps its comma. -/
theorem leaves_grouped :
    grouped.Full ∧ grouped.toText = "a,b,true".toList ∧
      Regroups holed (.list [.text ['a'], .list [], .bool true]) ∧
      ∀ slot : Slot, slot.render holed =
        slot.render (.list [.text ['a'], .list [], .bool true]) := by
  have full : grouped.Full := by simp [grouped, Full, ItemsFull]
  have regroups : Regroups holed (.list [.text ['a'], .list [], .bool true]) :=
    @Regroups.here [.text ['a']] [.list [], .bool true] [] (List.cons_ne_nil _ _)
  obtain ⟨-, -, joined, -⟩ := leaves_determine grouped
  obtain ⟨-, -, -, same⟩ := leaves_determine holed
  exact ⟨full, (joined full).trans (by decide), regroups, same _ regroups⟩

end Value

end Stencil
