/-
# Stencil.Plan -- compiled templates

Marked markup is compiled into a plan: one segment for each slot in order, which holds the text
before the slot, the slot itself and, for the last, the text after it.  Markup without markers
becomes one segment without a slot.  Filling a plan gives each segment its value and joins what
they write.  Markup with another number of markers than expected is refused.
-/
import Stencil.Marker

set_option autoImplicit false

namespace Stencil

/-- A slot with the fixed text around it. -/
structure Segment where
  pre : Text
  /-- The slot; none if the text has no slot. -/
  slot : Option Slot
  post : Text
  deriving DecidableEq, Repr

namespace Segment

/-- What a segment writes for a value. -/
def fill (s : Segment) (v : Value) : Text :=
  s.pre ++ (match s.slot with | some slot => slot.render v | none => []) ++ s.post

/-- Whether a segment ignores its value. -/
def isStatic (s : Segment) : Bool := s.slot.isNone

/-- The segments for markers and the text around them: the text before a marker goes with the
marker, the text after the last goes with the last. -/
def ofMarkers : List (Text × Marker) → (post : Text) → List Segment
  | [], post => [⟨post, none, []⟩]
  | [(pre, m)], post => [⟨pre, some m.slot, post⟩]
  | (pre, m) :: more, post => ⟨pre, some m.slot, []⟩ :: ofMarkers more post

/-- What segments write for values, each for its own; a value that is missing is none. -/
def fillAll : List Segment → List Value → Text
  | [], _ => []
  | s :: more, [] => s.fill .null ++ fillAll more []
  | s :: more, v :: values => s.fill v ++ fillAll more values

end Segment

/-- The segments of a template, in the order of its slots. -/
structure Plan where
  segments : List Segment
  deriving DecidableEq, Repr

namespace Plan

def slots (p : Plan) : Nat := (p.segments.filter fun s => !s.isStatic).length

/-- What the segments write for values, one after the other. -/
def fill (p : Plan) (values : List Value) : Text := Segment.fillAll p.segments values

/-- The plan of marked markup.  The markup is trimmed; it is refused, with the template's source in
the error, unless it has the expected number of markers. -/
def ofMarked (lead marked : Text) (expected : Nat) (source : Text) : Except Error Plan :=
  let (markers, post) := Marker.scan lead (Text.trim marked)
  if markers.length = expected then .ok ⟨Segment.ofMarkers markers post⟩
  else .error (.templateShape source expected markers.length)

end Plan

end Stencil
