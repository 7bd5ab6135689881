/-
# Stencil.Proofs.Template.Identity -- each template its own identity

`Issuer.createAll` makes templates one after the other.  The identities count up from one in 64
bits, so as long as fewer than 2^64 templates are made no two of them have the same
(`Issuer.createAll_id_inj`), whatever their fragments are.  Of such templates and their copies,
those with the same identity are the same template (`Template.Distinct`).
-/
import Stencil.Template

set_option autoImplicit false

namespace Stencil

namespace Issuer

/-- Makes a template of each list of fragments, in order. -/
def createAll (i : Issuer) : List (List Text) → List Template × Issuer
  | [] => ([], i)
  | fragments :: more =>
      let (t, i) := i.create fragments
      let (made, i) := i.createAll more
      (t :: made, i)

theorem create_id (i : Issuer) (fragments : List Text) :
    (i.create fragments).1.id = i.next.toNat := by
  cases fragments <;> rfl

theorem createAll_cons (i : Issuer) (fragments : List Text) (more : List (List Text)) :
    (i.createAll (fragments :: more)).1 =
      (i.create fragments).1 :: ((Issuer.mk (i.next + 1)).createAll more).1 := rfl

/-- Every call makes one template. -/
theorem length_createAll :
    ∀ (made : List (List Text)) (i : Issuer), (i.createAll made).1.length = made.length
  | [], _ => rfl
  | fragments :: more, i => by
      rw [createAll_cons, List.length_cons, length_createAll more, List.length_cons]

/-- The identities count up from the next one, in 64 bits. -/
theorem createAll_id :
    ∀ (made : List (List Text)) (i : Issuer) (k : Nat) (h : k < (i.createAll made).1.length),
      ((i.createAll made).1[k]).id = (i.next.toNat + k) % UInt64.size
  | [], _, _, h => nomatch h
  | fragments :: more, i, 0, _ => by
      have small := i.next.toNat_lt
      simp only [createAll_cons, List.getElem_cons_zero, create_id, UInt64.size]
      omega
  | fragments :: more, i, k + 1, h => by
      rw [createAll_cons, List.length_cons] at h
      have next := createAll_id more ⟨i.next + 1⟩ k (by omega)
      simp only [createAll_cons, List.getElem_cons_succ, next, UInt64.toNat_add, UInt64.size]
      have one : (1 : UInt64).toNat = 1 := rfl
      omega

/-- Of fewer than 2^64 templates no two have the same identity. -/
theorem createAll_id_inj {made : List (List Text)} {i : Issuer} (few : made.length < UInt64.size)
    {j k : Nat} (hj : j < (i.createAll made).1.length) (hk : k < (i.createAll made).1.length)
    (same : ((i.createAll made).1[j]).id = ((i.createAll made).1[k]).id) : j = k := by
  have bound := length_createAll made i
  rw [createAll_id made i j hj, createAll_id made i k hk, UInt64.size] at same
  rw [UInt64.size] at few
  omega

end Issuer

/-- Templates with the same identity are the same template. -/
def Template.Distinct (templates : List Template) : Prop :=
  ∀ t ∈ templates, ∀ t' ∈ templates, t.id = t'.id → t = t'

/-- Templates that are copies of fewer than 2^64 templates of one issuer are distinct. -/
theorem Issuer.distinct_of_created {made : List (List Text)} {i : Issuer}
    (few : made.length < UInt64.size) {templates : List Template}
    (created : ∀ t ∈ templates, t ∈ (i.createAll made).1) : Template.Distinct templates := by
  intro t member t' member' same
  obtain ⟨j, hj, rfl⟩ := List.getElem_of_mem (created t member)
  obtain ⟨k, hk, rfl⟩ := List.getElem_of_mem (created t' member')
  obtain rfl := createAll_id_inj few hj hk same
  rfl

end Stencil
