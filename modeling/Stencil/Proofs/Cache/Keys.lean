/-
# Stencil.Proofs.Cache.Keys -- what a tidy cache counts

A cache holds its forms on two levels, and what it counts it reads from different ones: `Cache.size`
adds up the forms, `Cache.isEmpty` and `Cache.contains` look at the templates alone.  In a tidy
cache they agree: the size is the number of keys that have a form (`Cache.size_eq_length_keys`,
`Cache.nodup_keys`, `Cache.mem_keys_iff`), the cache is empty when that is none
(`Cache.isEmpty_iff`), and it contains the templates of these keys (`Cache.contains_iff`).
-/
import Stencil.Cache
import Mathlib.Data.List.Nodup

set_option autoImplicit false

namespace Stencil

namespace Cache

variable {α : Type}

/-- The keys that have a form. -/
def keys (c : Cache α) : List CacheKey :=
  c.templates.flatMap fun row => (Table.keys row.2).map (CacheKey.mk row.1)

theorem size_eq_length_keys (c : Cache α) : c.size = c.keys.length := by
  rw [size, keys]
  induction c.templates with
  | nil => rfl
  | cons row more ih =>
      rw [List.foldr_cons, ih, List.flatMap_cons, List.length_append, List.length_map, Table.keys,
        List.length_map]

variable {c : Cache α}

theorem nodup_keys (tidy : c.Tidy) : c.keys.Nodup := by
  rw [keys, List.nodup_flatMap]
  constructor
  · intro row member
    exact (tidy.variants_once row member).map fun _ _ same => (CacheKey.mk.inj same).2
  · refine (List.pairwise_map.1 tidy.templates_once).imp fun {row other} differ => ?_
    intro key left right
    obtain ⟨_, _, rfl⟩ := List.mem_map.1 left
    obtain ⟨_, _, same⟩ := List.mem_map.1 right
    exact differ (CacheKey.mk.inj same).1.symm

/-- The forms of a template are those of its row. -/
theorem forms_of_mem (tidy : c.Tidy) {row : Nat × Table Text α} (member : row ∈ c.templates) :
    c.forms row.1 = row.2 := by
  rw [forms, Table.lookup_of_mem tidy.templates_once member, Option.getD_some]

theorem mem_keys_iff (tidy : c.Tidy) (key : CacheKey) :
    key ∈ c.keys ↔ (c.get? key).isSome = true := by
  rw [get?_eq_lookup_forms, ← Table.mem_keys_iff, keys, List.mem_flatMap]
  constructor
  · rintro ⟨row, member, held⟩
    obtain ⟨variant, found, rfl⟩ := List.mem_map.1 held
    rw [forms_of_mem tidy member]
    exact found
  · intro found
    cases row : c.templates.lookup key.template with
    | none =>
        rw [forms, row] at found
        exact absurd found List.not_mem_nil
    | some forms =>
        rw [Cache.forms, row, Option.getD_some] at found
        exact ⟨_, Table.mem_of_lookup row, List.mem_map.2 ⟨_, found, rfl⟩⟩

/-- A cache is empty when it has no form: no template is without. -/
theorem isEmpty_iff (tidy : c.Tidy) : c.isEmpty = true ↔ c.size = 0 := by
  rw [isEmpty, List.isEmpty_iff, size_eq_length_keys, List.length_eq_zero_iff, keys,
    List.flatMap_eq_nil_iff]
  constructor
  · rintro none _ member
    rw [none] at member
    exact nomatch member
  · intro none
    rw [List.eq_nil_iff_forall_not_mem]
    intro row member
    have left := List.map_eq_nil_iff.1 (none row member)
    exact tidy.forms_ne_nil row member (List.map_eq_nil_iff.1 left)

/-- A cache contains a template that has a form under some variant. -/
theorem contains_iff (tidy : c.Tidy) (template : Nat) :
    c.contains template = true ↔ ∃ variant, (c.get? ⟨template, variant⟩).isSome = true := by
  simp only [contains, List.any_eq_true, beq_iff_eq, ← mem_keys_iff tidy, keys, List.mem_flatMap,
    List.mem_map]
  constructor
  · rintro ⟨row, member, rfl⟩
    obtain ⟨form, found⟩ := List.exists_mem_of_ne_nil _ (tidy.forms_ne_nil row member)
    exact ⟨form.1, row, member, form.1, List.mem_map.2 ⟨form, found, rfl⟩, rfl⟩
  · rintro ⟨_, row, member, _, _, same⟩
    exact ⟨row, member, (CacheKey.mk.inj same).1⟩

end Cache

end Stencil
