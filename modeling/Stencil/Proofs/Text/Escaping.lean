/-
# Stencil.Proofs.Text.Escaping -- escaped text ends nothing

A text is inert if it may stand between tags and between quotes of either kind: it holds no bracket
and no quote, and each of its ampersands begins one of the five entities.  Inert texts put together
are inert (`Text.Inert.append`), and every escaped text is inert (`Text.inert_escape`).  A text
without any of the five characters is its own escaped text (`Text.escape_eq_self`).
-/
import Stencil.Text.Entity

set_option autoImplicit false

namespace Stencil.Text

/-- The entities that escaping writes. -/
def entities : List Text := [
  ['&', 'a', 'm', 'p', ';'], ['&', 'l', 't', ';'], ['&', 'g', 't', ';'],
  ['&', 'q', 'u', 'o', 't', ';'], ['&', '#', 'x', '2', '7', ';']]

/-- A text that ends no tag and no attribute value, and in which an ampersand is nothing but the
beginning of an entity. -/
structure Inert (s : Text) : Prop where
  not_isDelimiter : ∀ c ∈ s, isDelimiter c = false
  exists_entity : ∀ before rest : Text, s = before ++ '&' :: rest →
    ∃ e ∈ entities, e <+: '&' :: rest

theorem inert_nil : Inert [] := ⟨nofun, fun before _ split => by simp at split⟩

/-- Inert texts put together are inert. -/
theorem Inert.append {s t : Text} (left : Inert s) (right : Inert t) : Inert (s ++ t) where
  not_isDelimiter c member := by
    rcases List.mem_append.1 member with here | there
    · exact left.not_isDelimiter c here
    · exact right.not_isDelimiter c there
  exists_entity before rest split := by
    rcases List.append_eq_append_iff.1 split with ⟨more, rfl, behind⟩ | ⟨more, rfl, behind⟩
    · exact right.exists_entity more rest behind
    · cases more with
      | nil => exact right.exists_entity [] rest behind.symm
      | cons c more =>
          -- The ampersand is in the left text, and so is the entity that it begins.
          obtain ⟨rfl, rfl⟩ := List.cons.inj behind
          obtain ⟨e, listed, front⟩ := left.exists_entity before more rfl
          exact ⟨e, listed, front.trans (List.prefix_append _ _)⟩

theorem inert_of_mem_entities {e : Text} (listed : e ∈ entities) : Inert e where
  not_isDelimiter c member := by
    have none : ∀ e ∈ entities, e.any isDelimiter = false := by decide
    simpa using List.any_eq_false.1 (none e listed) c member
  exists_entity before rest split := by
    have once : ∀ e ∈ entities, '&' ∉ e.tail := by decide
    cases before with
    | nil => exact ⟨e, listed, split ▸ List.prefix_rfl⟩
    | cons c before =>
        refine absurd ?_ (once e listed)
        rw [split]
        exact List.mem_append_right before (List.mem_cons_self ..)

/-- A character is written as an entity or as itself. -/
theorem entity_cases (c : Char) :
    entity c ∈ entities ∨ entity c = [c] ∧ c ≠ '&' ∧ isDelimiter c = false := by
  unfold entity isDelimiter
  grind [entities]

theorem inert_entity (c : Char) : Inert (entity c) := by
  rcases entity_cases c with listed | ⟨itself, other, undelimited⟩
  · exact inert_of_mem_entities listed
  · rw [itself]
    refine ⟨fun d member => List.mem_singleton.1 member ▸ undelimited, fun before rest split => ?_⟩
    have held : '&' ∈ [c] := split ▸ List.mem_append_right before (List.mem_cons_self ..)
    exact absurd (List.mem_singleton.1 held).symm other

/-- Escaped text is inert. -/
theorem inert_escape (s : Text) : Inert (escape s) := by
  induction s with
  | nil => exact inert_nil
  | cons c s ih => exact (inert_entity c).append ih

/-- The characters that are written as an entity. -/
def special : List Char := ['&', '<', '>', '"', '\'']

/-- Any other character is written as itself. -/
theorem entity_of_not_mem_special {c : Char} (other : c ∉ special) : entity c = [c] := by
  simp_all [special, entity]

/-- A text of characters that are written as themselves is its own escaped text. -/
theorem escape_eq_self {s : Text} (plain : ∀ c ∈ s, entity c = [c]) : escape s = s := by
  induction s with
  | nil => rfl
  | cons c s ih =>
      obtain ⟨first, others⟩ := List.forall_mem_cons.1 plain
      rw [escape_cons, first, ih others, List.singleton_append]

end Stencil.Text
