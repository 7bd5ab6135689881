/-
# Stencil.Markup.SelfClosing -- elements that close themselves

An element written with a slash before its closing bracket is empty.  Only the void elements of
the markup language may stand so; any other is written out with an end tag, and the slash and the
blanks before it are taken away.  An element begins at an opening bracket with a letter after it
and ends at the next closing bracket (`append_of_read?`).

Writing out goes from left to right: an element at the front is written out and the rest after it
(`writeOut_of_read?_some`), any other character stays (`writeOut_of_read?_none`).  As a pattern the
elements are `SelfClosing.pattern` (see Stencil.Proofs.Markup.Pattern).
-/
import Stencil.Text.Blank
import Stencil.Text.Letter

set_option autoImplicit false

namespace Stencil

/-- An element that closes itself. -/
structure SelfClosing where
  name : Text
  attributes : Text
  deriving DecidableEq, Repr

namespace SelfClosing

/-- The elements that have no content and no end tag. -/
def voidNames : List Text :=
  ["area".toList, "base".toList, "br".toList, "col".toList, "embed".toList, "hr".toList,
    "img".toList, "input".toList, "keygen".toList, "link".toList, "menuitem".toList,
    "meta".toList, "param".toList, "source".toList, "track".toList, "wbr".toList]

/-- Whether a name is that of a void element, whatever the case of its letters. -/
def isVoid (name : Text) : Bool := voidNames.contains (name.map Text.foldLetter)

/-- The element that closes itself at the front of a text, and what follows it. -/
def read? (s : Text) : Option (SelfClosing × Text) :=
  match s with
  | '<' :: s =>
      match Text.splitRun (· != '>') s with
      | (tag, _ :: rest) =>
          let (name, inner) := Text.splitRun Text.isTagNameChar tag
          if name.head?.any Text.isLetter && inner.getLast? == some '/' then
            some (⟨name, inner.dropLast⟩, rest)
          else none
      | (_, []) => none
  | _ => none

/-- The element as it is written in the end: with an end tag unless it is void. -/
def write (e : SelfClosing) : Text :=
  if isVoid e.name then '<' :: e.name ++ e.attributes ++ ['/', '>']
  else
    '<' :: e.name ++ Text.trimEnd e.attributes ++ '>' :: ['<', '/'] ++ e.name ++ ['>']

/-- Writes out the elements of a text whose first `skip` characters belong to an element that has
been written out before. -/
def writeOutFrom : (skip : Nat) → Text → Text
  | _, [] => []
  | skip + 1, _ :: cs => writeOutFrom skip cs
  | 0, c :: cs =>
      match read? (c :: cs) with
      | some (e, rest) => e.write ++ writeOutFrom (cs.length - rest.length) cs
      | none => c :: writeOutFrom 0 cs

/-- Writes out every element that closes itself and is not void. -/
def writeOut (s : Text) : Text := writeOutFrom 0 s

/-! ## What is read -/

/-- An element that is read is the front of the text: its name starts with a letter and is made of
the characters of tag names, and the first closing bracket is its own. -/
theorem append_of_read? {s rest : Text} {e : SelfClosing} (h : read? s = some (e, rest)) :
    s = '<' :: e.name ++ e.attributes ++ '/' :: '>' :: rest ∧
      e.name.head?.any Text.isLetter = true ∧ '>' ∉ e.name ++ e.attributes ∧
      ∀ c ∈ e.name, Text.isTagNameChar c = true := by
  unfold read? at h
  split at h
  · next s =>
    split at h
    · next tag closing rest' hsplit =>
      have pieces := Text.splitRun_append (fun c => c != '>') s
      obtain ⟨run, stop⟩ := Text.splitRun_spec (fun c => c != '>') s
      rw [hsplit] at pieces run stop
      have closed : closing = '>' := by simpa using stop closing rfl
      have inside := Text.all_ne_iff.1 run
      split at h
      next name inner hname =>
      have parts := Text.splitRun_append Text.isTagNameChar tag
      have chars := (Text.splitRun_spec Text.isTagNameChar tag).1
      rw [hname] at parts chars
      split at h
      · next accepted =>
        obtain ⟨rfl, rfl⟩ := Prod.mk.inj (Option.some.inj h)
        simp only [Bool.and_eq_true, beq_iff_eq] at accepted
        obtain ⟨attributes, rfl⟩ := List.getLast?_eq_some_iff.1 accepted.2
        rw [← parts] at inside pieces
        refine ⟨by simp [← pieces, closed], accepted.1, fun mem => inside ?_, chars⟩
        simp only [List.dropLast_concat, List.mem_append] at mem ⊢
        exact mem.imp_right .inl
      · exact nomatch h
    · exact nomatch h
  · exact nomatch h

/-! ## The first step of writing out -/

/-- The characters of an element written out before are passed over. -/
theorem writeOutFrom_eq_writeOut_drop :
    ∀ (skip : Nat) (s : Text), writeOutFrom skip s = writeOut (s.drop skip)
  | 0, s => by rw [List.drop_zero, writeOut]
  | skip + 1, [] => by simp [writeOutFrom, writeOut]
  | skip + 1, c :: cs => by
      rw [writeOutFrom, writeOutFrom_eq_writeOut_drop skip cs, List.drop_succ_cons]

@[simp] theorem writeOut_nil : writeOut [] = [] := by simp [writeOut, writeOutFrom]

/-- An element at the front is written out, and what follows it after that. -/
theorem writeOut_of_read?_some {s rest : Text} {e : SelfClosing} (h : read? s = some (e, rest)) :
    writeOut s = e.write ++ writeOut rest := by
  obtain ⟨rfl, -, -⟩ := append_of_read? h
  have behind (w : Text) : (w ++ rest).drop ((w ++ rest).length - rest.length) = rest := by simp
  have regroup : e.name ++ e.attributes ++ '/' :: '>' :: rest =
      (e.name ++ e.attributes ++ ['/', '>']) ++ rest := by simp
  rw [List.cons_append, List.cons_append, regroup] at h ⊢
  rw [writeOut, writeOutFrom, h]
  simp only [writeOutFrom_eq_writeOut_drop, behind]

/-- Any other character stays. -/
theorem writeOut_of_read?_none {c : Char} {cs : Text} (h : read? (c :: cs) = none) :
    writeOut (c :: cs) = c :: writeOut cs := by
  simp only [writeOut, writeOutFrom, h]

end SelfClosing

end Stencil
