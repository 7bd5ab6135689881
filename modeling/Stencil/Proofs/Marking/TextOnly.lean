/-
# Stencil.Proofs.Marking.TextOnly -- slots between tags keep all of the text

`Marking.textOnly` puts a comment between any two fragments.  A comment begins and ends with a
bracket, so trimming the whole trims the first fragment at its front and the last at its end and no
other (`Marking.trim_joinText`).  With a plain lead that no fragment holds, a scan finds these
comments and no others, so the plan is the one of the trimmed fragments with a slot between any two
(`Renderer.planAnew_textOnly`), whatever the lead is.
-/
import Stencil.Proofs.Marker.Plain
import Stencil.Proofs.Marking.Slots
import Stencil.Proofs.Text.Trim
import Stencil.Renderer

set_option autoImplicit false

namespace Stencil

namespace Marking

/-! ## Fragments whose outer blanks are gone -/

/-- The fragments with the last trimmed at its end. -/
def trimmedLast : List Text → List Text
  | [] => []
  | [last] => [Text.trimEnd last]
  | fragment :: more => fragment :: trimmedLast more

/-- The fragments with the first trimmed at its front and the last at its end. -/
def outerTrimmed : List Text → List Text
  | [] => []
  | first :: more => trimmedLast (Text.trimStart first :: more)

theorem length_trimmedLast : ∀ fragments : List Text,
    (trimmedLast fragments).length = fragments.length
  | [] => rfl
  | [_] => rfl
  | _ :: next :: more => congrArg (· + 1) (length_trimmedLast (next :: more))

theorem length_outerTrimmed (fragments : List Text) :
    (outerTrimmed fragments).length = fragments.length := by
  cases fragments with
  | nil => rfl
  | cons first more => exact length_trimmedLast (Text.trimStart first :: more)

variable {word : Text}

theorem free_trimmedLast : ∀ {fragments : List Text}, (∀ f ∈ fragments, ¬ word <:+: f) →
    ∀ f ∈ trimmedLast fragments, ¬ word <:+: f
  | [], _ => nofun
  | [last], absent => by
      intro f member
      obtain rfl := List.mem_singleton.1 member
      intro inside
      refine absent last (List.mem_singleton_self _) (inside.trans ?_)
      exact List.IsPrefix.isInfix ⟨_, Text.trimEnd_append last⟩
  | first :: next :: more, absent => by
      obtain ⟨here, behind⟩ := List.forall_mem_cons.1 absent
      exact List.forall_mem_cons.2 ⟨here, free_trimmedLast behind⟩

/-- A word that is in no fragment is in none of the trimmed ones. -/
theorem free_outerTrimmed {fragments : List Text} (absent : ∀ f ∈ fragments, ¬ word <:+: f) :
    ∀ f ∈ outerTrimmed fragments, ¬ word <:+: f := by
  cases fragments with
  | nil => exact nofun
  | cons first more =>
      obtain ⟨here, behind⟩ := List.forall_mem_cons.1 absent
      refine free_trimmedLast (List.forall_mem_cons.2 ⟨?_, behind⟩)
      exact fun inside => here (inside.trans (List.dropWhile_suffix _).isInfix)

/-! ## Trimming what was joined -/

variable {lead : Text}

theorem joinText_cons (index : Nat) (fragment next : Text) (more : List Text) :
    joinText lead index (fragment :: next :: more) =
      fragment ++ Marker.comment lead index ++ joinText lead (index + 1) (next :: more) := by
  rw [joinText]
  exact List.cons_ne_nil next more

theorem trimStart_joinText (index : Nat) (first : Text) (more : List Text) :
    Text.trimStart (joinText lead index (first :: more)) =
      joinText lead index (Text.trimStart first :: more) := by
  cases more with
  | nil => rfl
  | cons next more =>
      rw [joinText_cons, joinText_cons, List.append_assoc, List.append_assoc]
      exact Text.trimStart_append_cons (by decide) first _

theorem trimEnd_joinText : ∀ (index : Nat) (fragments : List Text),
    Text.trimEnd (joinText lead index fragments) = joinText lead index (trimmedLast fragments)
  | _, [] => rfl
  | _, [_] => rfl
  | index, fragment :: next :: more => by
      have rest := trimEnd_joinText (index + 1) (next :: more)
      have shape (s : Text) : fragment ++ Marker.comment lead index ++ s =
          (fragment ++ (['<', '!', '-', '-'] ++ lead ++ Text.numeral index ++ ['-', '-'])) ++
            '>' :: s := by
        simp [Marker.comment]
      rw [joinText_cons, shape, Text.trimEnd_append_cons (by decide), rest, ← shape]
      cases more with
      | nil => rfl
      | cons other more => rfl

/-- Trimming the joined fragments trims the first at its front and the last at its end. -/
theorem trim_joinText (index : Nat) (fragments : List Text) :
    Text.trim (joinText lead index fragments) = joinText lead index (outerTrimmed fragments) := by
  cases fragments with
  | nil => rfl
  | cons first more =>
      rw [Text.trim, trimStart_joinText, trimEnd_joinText, outerTrimmed]

/-! ## Scanning what was joined -/

/-- The fragments before the last, each with a slot between tags behind it, and the last. -/
def between : List Text → List (Text × Marker) × Text
  | [] => ([], [])
  | [last] => ([], last)
  | fragment :: more => ((fragment, .text) :: (between more).1, (between more).2)

theorem length_between : ∀ fragments : List Text,
    (between fragments).1.length = fragments.length - 1
  | [] => rfl
  | [_] => rfl
  | _ :: next :: more => congrArg (· + 1) (length_between (next :: more))

/-- A scan finds the comments between the fragments and no others. -/
theorem scan_joinText (plain : Marker.Plain lead) : ∀ (index : Nat) (fragments : List Text),
    (∀ f ∈ fragments, ¬ lead <:+: f) →
      Marker.scan lead (joinText lead index fragments) = between fragments
  | _, [], _ => Marker.scan_nil lead
  | _, [last], absent => Marker.scan_of_free last (absent last (List.mem_singleton_self _))
  | index, fragment :: next :: more, absent => by
      obtain ⟨here, behind⟩ := List.forall_mem_cons.1 absent
      have rest := scan_joinText plain (index + 1) (next :: more) behind
      have placed : Marker.Placed lead ⟨fragment, Marker.comment lead index, .text⟩ :=
        .comment here (Marker.isIndex_numeral index)
      rw [joinText_cons]
      exact Marker.scan_append_of_placed plain placed rest

/-- The plan with a slot between any two texts. -/
def textPlan (texts : List Text) : Plan := ⟨Segment.ofMarkers (between texts).1 (between texts).2⟩

end Marking

/-- A template whose slots all stand between tags is compiled to its fragments with a slot between
any two, trimmed at the outer ends. -/
theorem Renderer.planAnew_textOnly {r : Renderer} {t : Template}
    (kind : r.marking = Marking.textOnly) (plain : Marker.Plain r.lead)
    (absent : ∀ f ∈ t.fragments, ¬ r.lead <:+: f) :
    r.planAnew t = .ok (Marking.textPlan (Marking.outerTrimmed t.fragments)) := by
  have count : (Marking.between (Marking.outerTrimmed t.fragments)).1.length = t.slots := by
    rw [Marking.length_between, Marking.length_outerTrimmed, Template.slots]
  have marked : r.marking.mark t.fragments r.lead =
      .ok (Marking.joinText r.lead 0 t.fragments) := by rw [kind]; rfl
  simp only [planAnew, marked]
  rw [Plan.ofMarked, Marking.trim_joinText,
    Marking.scan_joinText plain 0 _ (Marking.free_outerTrimmed absent)]
  exact if_pos count

end Stencil
