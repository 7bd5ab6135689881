/-
# Stencil.Proofs.Markup.SelfClosing -- what writing out leaves in place

Writing out changes a text at the closing brackets of elements only: a slash before a bracket and
the blanks before the slash are taken away, and an end tag is put behind the bracket.
`SelfClosing.Rewrites` is this relation of a text and the changed text, for a property that the
names in the end tags have.

The relation is what later proofs use.  It may be taken apart at every place where no change can
reach across (`Rewrites.append_inv`), it leaves a text without a slash before a bracket as it is
(`Rewrites.eq_of_free`), and it brings no new word without brackets and slashes into the text,
unless the word is in the name of an end tag (`Rewrites.infix_before`).
-/
import Stencil.Markup.SelfClosing
import Stencil.Proofs.Text.Infix
import Stencil.Proofs.Text.Trim
import Mathlib.Data.List.Chain

set_option autoImplicit false

namespace Stencil

namespace SelfClosing

variable {named : Text → Prop}

/-- A text and the text with some of its elements closed by an end tag. -/
inductive Rewrites (named : Text → Prop) : Text → Text → Prop where
  | nil : Rewrites named [] []
  | keep (c : Char) {s t : Text} (more : Rewrites named s t) : Rewrites named (c :: s) (c :: t)
  | close {blanks name s t : Text} (blank : ∀ c ∈ blanks, Text.isBlank c = true)
      (good : named name) (more : Rewrites named s t) :
      Rewrites named (blanks ++ '/' :: '>' :: s) ('>' :: '<' :: '/' :: (name ++ '>' :: t))

theorem Rewrites.append_left {s t : Text} (h : Rewrites named s t) :
    ∀ w : Text, Rewrites named (w ++ s) (w ++ t)
  | [] => h
  | c :: w => .keep c (h.append_left w)

theorem Rewrites.refl (s : Text) : Rewrites named s s := by
  have kept : Rewrites named (s ++ []) (s ++ []) := Rewrites.nil.append_left s
  rwa [List.append_nil] at kept

/-! ## Where nothing changes -/

theorem Rewrites.eq_nil_iff {s t : Text} (h : Rewrites named s t) : s = [] ↔ t = [] := by
  cases h with
  | nil => simp
  | keep => simp
  | close => simp

/-- Two neighbours in the blanks, the slash and the bracket that are changed together. -/
def Joint (b c : Char) : Prop :=
  Text.isBlank b = true ∧ (Text.isBlank c = true ∨ c = '/') ∨ b = '/' ∧ c = '>'

theorem not_joint_of_first {b c : Char} (visible : Text.isBlank b = false) (slash : b ≠ '/') :
    ¬ Joint b c := by
  rintro (⟨blank, -⟩ | ⟨same, -⟩)
  · rw [visible] at blank
    cases blank
  · exact slash same

theorem not_joint_of_second {b c : Char} (visible : Text.isBlank c = false) (slash : c ≠ '/')
    (bracket : c ≠ '>') : ¬ Joint b c := by
  rintro (⟨-, blank | same⟩ | ⟨-, same⟩)
  · rw [visible] at blank
    cases blank
  · exact slash same
  · exact bracket same

theorem chain_joint : ∀ blanks : Text, (∀ c ∈ blanks, Text.isBlank c = true) →
    List.IsChain Joint (blanks ++ ['/', '>'])
  | [], _ => .cons_cons (.inr ⟨rfl, rfl⟩) (.singleton _)
  | [b], blank => .cons_cons (.inl ⟨blank b (by simp), .inr rfl⟩) (chain_joint [] nofun)
  | b :: c :: blanks, blank =>
      .cons_cons (.inl ⟨blank b (by simp), .inl (blank c (by simp))⟩)
        (chain_joint (c :: blanks) fun d member => blank d (List.mem_cons_of_mem b member))

/-- The changes on both sides of a place that no change reaches across. -/
theorem Rewrites.append_inv {x y t : Text} (h : Rewrites named (x ++ y) t)
    (apart : ∀ b ∈ x.getLast?, ∀ c ∈ y.head?, ¬ Joint b c) :
    ∃ x' y', t = x' ++ y' ∧ Rewrites named x x' ∧ Rewrites named y y' := by
  generalize whole : x ++ y = s at h
  induction h generalizing x with
  | nil =>
      obtain ⟨rfl, rfl⟩ := List.append_eq_nil_iff.1 whole
      exact ⟨[], [], rfl, .nil, .nil⟩
  | @keep c s t more ih =>
      cases x with
      | nil =>
          rw [List.nil_append] at whole
          exact ⟨[], _, rfl, .nil, whole ▸ .keep c more⟩
      | cons d x =>
          obtain ⟨rfl, rest⟩ := List.cons.inj whole
          have apart' : ∀ b ∈ x.getLast?, ∀ c ∈ y.head?, ¬ Joint b c := fun b last =>
            apart b (Text.mem_getLast?_of_suffix (List.suffix_cons d x) last)
          obtain ⟨x', y', rfl, left, right⟩ := ih apart' rest
          exact ⟨d :: x', y', rfl, .keep d left, right⟩
  | @close blanks name s t blank good more ih =>
      have whole' : x ++ y = (blanks ++ ['/', '>']) ++ s := by
        rw [whole]
        simp
      rcases List.append_eq_append_iff.1 whole' with ⟨z, part, rest⟩ | ⟨z, rfl, rest⟩
      · by_cases none : x = []
        · subst none
          rw [List.nil_append] at whole
          exact ⟨[], _, rfl, .nil, whole ▸ .close blank good more⟩
        · cases z with
          | nil =>
              rw [List.append_nil] at part
              rw [List.nil_append] at rest
              subst rest
              refine ⟨'>' :: '<' :: '/' :: (name ++ ['>']), t, by simp, ?_, more⟩
              rw [← part]
              exact .close blank good .nil
          | cons c z =>
              -- The place would be inside of what is changed together.
              have chain := chain_joint blanks blank
              rw [part] at chain
              obtain ⟨x, b, rfl⟩ := (List.eq_nil_or_concat x).resolve_left none
              have joint := (List.isChain_append.1 chain).2.2 b (by simp) c (by simp)
              refine absurd joint (apart b (by simp) c ?_)
              rw [rest]
              rfl
      · have apart' : ∀ b ∈ z.getLast?, ∀ c ∈ y.head?, ¬ Joint b c := fun b last =>
          apart b (Text.mem_getLast?_of_suffix (List.suffix_append _ z) last)
        obtain ⟨x', y', rfl, left, right⟩ := ih apart' rest.symm
        refine ⟨'>' :: '<' :: '/' :: (name ++ '>' :: x'), y', by simp, ?_, right⟩
        have closed := Rewrites.close blank good left
        simpa using closed

/-- A text with no slash before a bracket stays as it is. -/
theorem Rewrites.eq_of_free {s t : Text} (h : Rewrites named s t) (free : ¬ ['/', '>'] <:+: s) :
    t = s := by
  induction h with
  | nil => rfl
  | keep c more ih => rw [ih fun inside => free (List.infix_cons inside)]
  | @close blanks name s t blank good more ih =>
      exact absurd ⟨blanks, s, by simp⟩ free

/-! ## What no change brings in -/

/-- A word without brackets and slashes. -/
def Neutral (w : Text) : Prop := '<' ∉ w ∧ '>' ∉ w ∧ '/' ∉ w

theorem Rewrites.prefix_before {s t : Text} (h : Rewrites named s t) :
    ∀ {w : Text}, Neutral w → w <+: t → w <+: s := by
  induction h with
  | nil => exact fun _ inside => inside
  | keep c more ih =>
      intro w neutral inside
      cases w with
      | nil => exact List.nil_prefix
      | cons d w =>
          obtain ⟨rfl, behind⟩ := List.cons_prefix_cons.1 inside
          have neutral' : Neutral w :=
            ⟨fun m => neutral.1 (List.mem_cons_of_mem _ m),
              fun m => neutral.2.1 (List.mem_cons_of_mem _ m),
              fun m => neutral.2.2 (List.mem_cons_of_mem _ m)⟩
          exact List.cons_prefix_cons.2 ⟨rfl, ih neutral' behind⟩
  | close blank good more ih =>
      intro w neutral inside
      cases w with
      | nil => exact List.nil_prefix
      | cons d w =>
          obtain ⟨rfl, -⟩ := List.cons_prefix_cons.1 inside
          exact absurd (List.mem_cons_self ..) neutral.2.1

/-- A word that is in the changed text was there before, or is in the name of an end tag. -/
theorem Rewrites.infix_before {s t w : Text} (h : Rewrites named s t) (neutral : Neutral w)
    (inside : w <:+: t) : w <:+: s ∨ ∃ name, named name ∧ w <:+: name := by
  induction h with
  | nil => exact .inl inside
  | @keep c s t more ih =>
      rcases List.infix_cons_iff.1 inside with front | inside
      · exact .inl ((Rewrites.keep c more).prefix_before neutral front).isInfix
      · exact (ih inside).imp_left List.infix_cons
  | @close blanks name s t blank good more ih =>
      have behind : w <:+: name ++ '>' :: t :=
        Text.infix_of_infix_cons neutral.2.2 <| Text.infix_of_infix_cons neutral.1 <|
          Text.infix_of_infix_cons neutral.2.1 inside
      rcases Text.infix_or_infix_of_not_mem neutral.2.1 behind with named | inside
      · exact .inr ⟨name, good, named⟩
      · refine (ih inside).imp_left fun before => before.trans ?_
        exact ⟨blanks ++ ['/', '>'], [], by simp⟩

/-- A character that is not changed and in no end tag stays, and does not come in. -/
theorem Rewrites.mem_iff {s t : Text} {c : Char} (h : Rewrites named s t)
    (visible : Text.isBlank c = false) (neutral : Neutral [c])
    (unnamed : ∀ name, named name → c ∉ name) : c ∈ t ↔ c ∈ s := by
  obtain ⟨less, greater, slash⟩ := neutral
  rw [List.mem_singleton, eq_comm] at less greater slash
  induction h with
  | nil => rfl
  | keep d more ih => rw [List.mem_cons, List.mem_cons, ih]
  | @close blanks name s t blank good more ih =>
      have inBlanks : c ∉ blanks := fun member => by
        rw [blank c member] at visible
        exact nomatch visible
      simp [less, greater, slash, inBlanks, unnamed name good, ih]

/-! ## The ends of a text -/

variable {p : Char → Prop} {s t : Text}

/-- The first character stays or becomes a bracket. -/
theorem Rewrites.head (h : Rewrites named s t) (bracket : p '>') (first : ∀ c ∈ s.head?, p c) :
    ∀ c ∈ t.head?, p c := by
  cases h with
  | nil => exact nofun
  | keep c more => exact first
  | close blank good more =>
      rintro c same
      obtain rfl : '>' = c := Option.some.inj same
      exact bracket

/-- The last character stays or becomes a bracket. -/
theorem Rewrites.last (h : Rewrites named s t) (bracket : p '>') (final : ∀ c ∈ s.getLast?, p c) :
    ∀ c ∈ t.getLast?, p c := by
  induction h with
  | nil => exact nofun
  | @keep c s t more ih =>
      intro d last
      rcases List.eq_nil_or_concat t with rfl | ⟨t, e, rfl⟩
      · rw [more.eq_nil_iff.2 rfl] at final
        exact final d last
      · obtain rfl : e = d := Text.eq_of_mem_getLast? ⟨c :: t, by simp⟩ last
        refine ih (fun b here => ?_) e (by simp)
        exact final b (Text.mem_getLast?_of_suffix (List.suffix_cons c s) here)
  | @close blanks name s t blank good more ih =>
      intro d last
      rcases List.eq_nil_or_concat t with rfl | ⟨t, e, rfl⟩
      · obtain rfl : '>' = d := Text.eq_of_mem_getLast? ⟨'>' :: '<' :: '/' :: name, by simp⟩ last
        exact bracket
      · obtain rfl : e = d :=
          Text.eq_of_mem_getLast? ⟨'>' :: '<' :: '/' :: (name ++ '>' :: t), by simp⟩ last
        refine ih (fun b here => ?_) e (by simp)
        refine final b (Text.mem_getLast?_of_suffix ?_ here)
        exact ⟨blanks ++ ['/', '>'], by simp⟩

/-- A trimmed text stays trimmed. -/
theorem Rewrites.trim (h : Rewrites named (Text.trim s) t) : Text.trim t = t :=
  Text.trim_of_ends
    (h.head (p := fun c => Text.isBlank c = false) (by decide) fun _ =>
      Text.isBlank_of_mem_head?_trim)
    (h.last (p := fun c => Text.isBlank c = false) (by decide) fun _ =>
      Text.isBlank_of_mem_getLast?_trim)

end SelfClosing

end Stencil
