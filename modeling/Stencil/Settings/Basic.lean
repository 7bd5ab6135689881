/-
# Stencil.Settings.Basic -- the settings of a renderer

Settings choose the lead of the markers, whether elements may close themselves, and whether the
rendered markup is shortened.  Without a chosen lead a renderer makes one from the time.
-/
import Stencil.Text.Basic

set_option autoImplicit false

namespace Stencil

/-- The settings of a renderer. -/
structure Settings where
  markerLead : Option Text := none
  svg : Bool := false
  minify : Bool := false
  deriving DecidableEq, Repr

namespace Settings

/-- The lead made from a time in milliseconds. -/
def timedLead (millis : Nat) : Text := ['i', 's', 'µ'] ++ Text.numeral millis

/-- The lead of the markers at a time in milliseconds. -/
def lead (s : Settings) (millis : Nat) : Text := s.markerLead.getD (timedLead millis)

end Settings

end Stencil
