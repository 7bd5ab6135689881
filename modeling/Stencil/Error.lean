/-
# Stencil.Error -- what can fail, and the words for it

Every failure of the library is one of these causes.  `Error.message` gives its text.
-/
import Stencil.Text.Basic

set_option autoImplicit false

namespace Stencil

/-- Why a file could not be written. -/
inductive Refusal where
  | missingFolder
  | isFolder
  | nameTooLong
  | nullCharacter
  /-- Any other answer of a system, in its own words. -/
  | system (message : Text)
  deriving DecidableEq, Repr

/-- The text of a refusal, with the number that the operating system gives it. -/
def Refusal.message : Refusal → Text
  | .missingFolder => "No such file or directory (os error 2)".toList
  | .isFolder => "Is a directory (os error 21)".toList
  | .nameTooLong => "File name too long (os error 36)".toList
  | .nullCharacter => "file name contained an unexpected NUL byte".toList
  | .system message => message

/-- What can fail. -/
inductive Error where
  /-- The marked markup of a template holds a different number of markers than the template has
  slots. -/
  | templateShape (template : Text) (expected found : Nat)
  /-- A template was rendered with a different number of values than it has slots. -/
  | valueCount (template : Text) (expected found : Nat)
  | unknownKind (name : Text)
  | settingsNotFound (path : Text)
  | settingsMalformed (path : Text)
  | notWritten (refusal : Refusal)
  | marking (message : Text)
  deriving DecidableEq, Repr

namespace Error

/-- The text of a failure. -/
def message : Error → Text
  | .templateShape template expected found =>
      "invalid template ".toList ++ template ++ " (expected ".toList ++ Text.numeral expected ++
        " slots, found ".toList ++ Text.numeral found ++ " markers)".toList
  | .valueCount template expected found =>
      "template ".toList ++ template ++ " takes ".toList ++ Text.numeral expected ++
        " values, got ".toList ++ Text.numeral found
  | .unknownKind name =>
      "unknown chunk kind: ".toList ++ name ++ " (supported: html, raw, css, js)".toList
  | .settingsNotFound path => "config file not found at ".toList ++ path
  | .settingsMalformed path => "failed to parse config at ".toList ++ path
  | .notWritten refusal => refusal.message
  | .marking message => message

end Error

end Stencil
