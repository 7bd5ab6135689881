/-
# Stencil.Cache -- what has been compiled before

A cache holds one compiled form for each template and variant: a table of templates, and for each
of them a table of its forms by variant.  It never replaces or drops a form.  Compiling goes on
outside the cache: `fetch` looks a key up, on a miss runs the compiler, which may itself use the
cache, and then offers the outcome to the cache as it is by then.  The first form that was offered
for a key stays (`Cache.offer`), so all who ask for the key get the same.

`Cache.Tidy` is what every offer keeps (`tidy_offer`): each template and each variant of it has one
row, and a template that has a row has a form.
-/
import Stencil.Table
import Stencil.Text.Basic

set_option autoImplicit false

namespace Stencil

/-- What a compiled form is kept under. -/
structure CacheKey where
  template : Nat
  variant : Text
  deriving DecidableEq, Repr

/-- Compiled forms by template and variant. -/
structure Cache (α : Type) where
  templates : Table Nat (Table Text α)
  deriving Repr

namespace Cache

variable {α ε : Type}

def empty : Cache α := ⟨[]⟩

def forms (c : Cache α) (template : Nat) : Table Text α := (c.templates.lookup template).getD []

/-- The form under a key. -/
def get? (c : Cache α) (key : CacheKey) : Option α :=
  match c.templates.lookup key.template with
  | some forms => forms.lookup key.variant
  | none => none

/-- Whether a template has a form under some variant. -/
def contains (c : Cache α) (template : Nat) : Bool :=
  c.templates.any fun row => row.1 == template

/-- How many forms there are, for all templates and variants. -/
def size (c : Cache α) : Nat := c.templates.foldr (fun row n => row.2.length + n) 0

def isEmpty (c : Cache α) : Bool := c.templates.isEmpty

/-- Offers a form for a key: it is kept if the key has none.  The form under the key afterwards is
returned. -/
def offer (c : Cache α) (key : CacheKey) (form : α) : α × Cache α :=
  let (kept, templates) :=
    Table.enter key.template [] (Table.enter key.variant form fun kept => (kept, kept)) c.templates
  (kept, ⟨templates⟩)

/-- The form under a key, compiled on a miss.  A failure offers nothing. -/
def fetch (c : Cache α) (key : CacheKey)
    (compile : Cache α → Except ε α × Cache α) : Except ε α × Cache α :=
  match c.get? key with
  | some form => (.ok form, c)
  | none =>
      match compile c with
      | (.error e, c) => (.error e, c)
      | (.ok form, c) =>
          let (kept, c) := c.offer key form
          (.ok kept, c)

/-! ## What an offer does -/

@[simp] theorem get?_empty (key : CacheKey) : (empty : Cache α).get? key = none := rfl

theorem get?_eq_lookup_forms (c : Cache α) (key : CacheKey) :
    c.get? key = (c.forms key.template).lookup key.variant := by
  unfold get? forms
  cases c.templates.lookup key.template <;> rfl

/-- An offer returns the form that the key had, or else the form offered. -/
theorem offer_fst (c : Cache α) (key : CacheKey) (form : α) :
    (c.offer key form).1 = (c.get? key).getD form := by
  rw [get?_eq_lookup_forms, forms]
  simp only [offer, Table.enter_fst]

/-- The template has its forms of before and the one that the offer returned. -/
theorem forms_offer_self (c : Cache α) (key : CacheKey) (form : α) :
    (c.offer key form).2.forms key.template =
      (Table.enter key.variant form (fun kept => (kept, kept)) (c.forms key.template)).2 := by
  rw [forms, offer, Table.lookup_enter_self, Option.getD_some, forms]

/-- Every other template has its forms of before. -/
theorem forms_offer_of_ne (c : Cache α) {key : CacheKey} {template : Nat} (form : α)
    (h : template ≠ key.template) : (c.offer key form).2.forms template = c.forms template := by
  rw [forms, offer, Table.lookup_enter_of_ne _ _ _ h, forms]

/-- After an offer the key has the form that the offer returned. -/
theorem get?_offer_self (c : Cache α) (key : CacheKey) (form : α) :
    (c.offer key form).2.get? key = some (c.offer key form).1 := by
  rw [get?_eq_lookup_forms, forms_offer_self, Table.lookup_enter_self, offer_fst,
    get?_eq_lookup_forms]

/-- An offer for a key changes nothing under another key. -/
theorem get?_offer_of_ne (c : Cache α) {key other : CacheKey} (form : α) (h : other ≠ key) :
    (c.offer key form).2.get? other = c.get? other := by
  rw [get?_eq_lookup_forms, get?_eq_lookup_forms]
  by_cases sameTemplate : other.template = key.template
  · have otherVariant : other.variant ≠ key.variant := fun sameVariant => h <| by
      cases other
      cases key
      simp_all
    rw [sameTemplate, forms_offer_self, Table.lookup_enter_of_ne _ _ _ otherVariant]
  · rw [forms_offer_of_ne c form sameTemplate]

/-- A form that is kept stays, whatever is offered. -/
theorem get?_offer_of_some (c : Cache α) {key other : CacheKey} (form : α) {kept : α}
    (h : c.get? other = some kept) : (c.offer key form).2.get? other = some kept := by
  by_cases same : other = key
  · subst same
    rw [get?_offer_self, offer_fst, h, Option.getD_some]
  · rw [get?_offer_of_ne c form same, h]

/-! ## One row for each key -/

/-- Each template has one row and each of its variants one form, and no template is without. -/
structure Tidy (c : Cache α) : Prop where
  templates_once : (Table.keys c.templates).Nodup
  variants_once : ∀ row ∈ c.templates, (Table.keys row.2).Nodup
  forms_ne_nil : ∀ row ∈ c.templates, row.2 ≠ []

theorem tidy_empty : (empty : Cache α).Tidy := ⟨.nil, nofun, nofun⟩

/-- An offer keeps the cache tidy. -/
theorem tidy_offer {c : Cache α} (tidy : c.Tidy) (key : CacheKey) (form : α) :
    (c.offer key form).2.Tidy where
  templates_once := Table.nodup_keys_enter _ _ _ tidy.templates_once
  variants_once row member := by
    rcases Table.mem_enter _ _ _ member with old | ⟨forms, rfl, before⟩
    · exact tidy.variants_once row old
    · refine Table.nodup_keys_enter _ _ _ ?_
      rcases before with rfl | old
      · exact .nil
      · exact tidy.variants_once _ old
  forms_ne_nil row member := by
    rcases Table.mem_enter _ _ _ member with old | ⟨forms, rfl, -⟩
    · exact tidy.forms_ne_nil row old
    · have found := Table.lookup_enter_self key.variant form (fun kept => (kept, kept)) forms
      intro empty
      rw [show (Table.enter key.variant form (fun kept => (kept, kept)) forms).2 = [] from empty]
        at found
      exact nomatch found

end Cache

end Stencil
