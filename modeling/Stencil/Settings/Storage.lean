/-
# Stencil.Settings.Storage -- where a file can be written

Whether a file can be written at a path is the answer of the system that holds the files, a
`Storage`.  It may be any answer: folders come and go, a disk fills up.

`Storage.refusal?` is the answer of one system, for a folder that holds nothing.  There a file can
be written at a relative path whose last name is an ordinary one and whose other names are the
folder itself or a folder above.  Names are checked from the first on; the limits are those of the
system, in bytes.
-/
import Stencil.Error

set_option autoImplicit false

namespace Stencil

/-- What a system answers to a file that is to be written at a path: why it is not, or nothing. -/
abbrev Storage := (path : Text) → Option Refusal

namespace Storage

/-- The longest name of a file. -/
def nameLimit : Nat := 255

/-- The longest path, with the null character at its end. -/
def pathLimit : Nat := 4096

def byteSize (s : Text) : Nat := s.foldr (fun c n => c.utf8Size + n) 0

/-- The names of a path, between its slashes. -/
def names : Text → List Text
  | [] => [[]]
  | c :: cs =>
      match names cs with
      | [] => [[c]]
      | name :: more => if c = '/' then [] :: name :: more else (c :: name) :: more

/-- Whether a name stands for a folder that is there. -/
def isFolder (name : Text) : Bool := name.isEmpty || name == ['.'] || name == ['.', '.']

/-- Why the names of a path do not lead to a place for a file. -/
def namesRefusal? : List Text → Option Refusal
  | [] => none
  | name :: more =>
      if isFolder name then if more.isEmpty then some .isFolder else namesRefusal? more
      else if nameLimit < byteSize name then some .nameTooLong
      else if more.isEmpty then none
      else if more.all List.isEmpty then some .isFolder
      else some .missingFolder

/-- Why a file cannot be written at a path in a folder that holds nothing. -/
def refusal? : Storage := fun path =>
  if path.any (·.toNat == 0) then some .nullCharacter
  else if path.isEmpty then some .missingFolder
  else if pathLimit ≤ byteSize path then some .nameTooLong
  else namesRefusal? (names path)

end Storage

end Stencil
