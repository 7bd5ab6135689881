/-
# Stencil.Settings.Stored -- settings as a JSON text

Settings are stored as an object with one field for each setting.  Reading takes the fields in any
order and skips fields with other names, whatever is in them; a field that is missing has its
default, a field that is there twice is refused, and so is one with a value of another type.  The
settings may also stand in an array, in the order of the fields, from the first on.
-/
import Stencil.Error
import Stencil.Json.Reader
import Stencil.Settings.Storage
import Stencil.Settings.Basic

set_option autoImplicit false

namespace Stencil.Settings

open Json

/-! ## Writing -/

def leadField : Text := "marker_prefix".toList

def svgField : Text := "svg".toList

def minifyField : Text := "minify".toList

/-- The tree of an optional text. -/
def leadTree : Option Text → Tree
  | none => .null
  | some s => .ofText s

/-- The settings as a tree. -/
def toTree (s : Settings) : Tree :=
  .ofFields [(leadField, leadTree s.markerLead), (svgField, .bool s.svg),
    (minifyField, .bool s.minify)]

def write (s : Settings) : Text := s.toTree.pretty 0

/-! ## Reading -/

/-- The lead that a tree gives. -/
def lead? : Tree → Option (Option Text)
  | .null => some none
  | .string raw => (decode? raw).map some
  | _ => none

/-- The truth value that a tree gives. -/
def bool? : Tree → Option Bool
  | .bool b => some b
  | _ => none

/-- The fields that have been read so far. -/
structure Found where
  markerLead : Option (Option Text) := none
  svg : Option Bool := none
  minify : Option Bool := none

/-- Reads one field more, unless it was read before. -/
def Found.read? (found : Found) (field : Text × Tree) : Option Found := do
  let key ← decode? field.1
  if key = leadField then
    if found.markerLead.isSome then none
    else
      let lead ← lead? field.2
      some { found with markerLead := some lead }
  else if key = svgField then
    if found.svg.isSome then none
    else
      let svg ← bool? field.2
      some { found with svg := some svg }
  else if key = minifyField then
    if found.minify.isSome then none
    else
      let minify ← bool? field.2
      some { found with minify := some minify }
  else some found

/-- The settings of the fields that were found, with defaults for the others. -/
def Found.settings (found : Found) : Settings where
  markerLead := found.markerLead.getD none
  svg := found.svg.getD false
  minify := found.minify.getD false

/-- The settings of a tree. -/
def ofTree? : Tree → Option Settings
  | .object fields => (fields.foldlM Found.read? {}).map Found.settings
  | .array [] => some {}
  | .array [a] => do
      let lead ← lead? a
      some { markerLead := lead }
  | .array [a, b] => do
      let lead ← lead? a
      let svg ← bool? b
      some { markerLead := lead, svg }
  | .array [a, b, c] => do
      let lead ← lead? a
      let svg ← bool? b
      let minify ← bool? c
      some { markerLead := lead, svg, minify }
  | _ => none

def read? (s : Text) : Option Settings := (Tree.ofText? s).bind ofTree?

/-! ## Files -/

/-- Loads settings from what a path holds.  A file that is missing or holds no text is not found;
a text that is not a settings text is malformed. -/
def load (path : Text) (file : Option ByteArray) : Except Error Settings :=
  match file.bind String.fromUTF8? with
  | none => .error (.settingsNotFound path)
  | some s =>
      match read? s.toList with
      | none => .error (.settingsMalformed path)
      | some settings => .ok settings

/-- Saves settings at a path of a system: the text that the file then holds, unless the system
refuses to write it. -/
def saveTo (storage : Storage) (s : Settings) (path : Text) : Except Error Text :=
  match storage path with
  | some refusal => .error (.notWritten refusal)
  | none => .ok s.write

/-- Saves settings at a path in a folder without files. -/
def save (s : Settings) (path : Text) : Except Error Text := s.saveTo Storage.refusal? path

end Stencil.Settings
