import Stencil.Proofs.Plan.Compiling
import Stencil.Proofs.Renderer.Sharing
import Stencil.Settings.Stored
import Stencil.Proofs.Cache.Calls
import Stencil.Proofs.Marker.Plain
import Stencil.Proofs.Markup.Assignment
import Stencil.Proofs.Markup.SelfClosing
import Stencil.Proofs.Marking.Kept
import Stencil.Proofs.Marking.Slots
import Stencil.Proofs.Text.Trim
import Stencil.Proofs.Marking.Compiling
import Stencil.Proofs.Number.Characters
import Stencil.Proofs.Value.Delimiters
import Stencil.Proofs.Plan.Brackets
import Stencil.Proofs.Plan.Alignment
import Stencil.Proofs.Renderer.Reachable
import Stencil.Proofs.Marking.TextOnly
import Stencil.Proofs.Renderer.TextOnly
import Stencil.Proofs.Markup.Closing
import Stencil.Proofs.Marker.Links
import Stencil.Proofs.Marker.Counting
import Stencil.Proofs.Marker.Proper
import Stencil.Proofs.Marking.Links
import Stencil.Proofs.Marking.Leads
import Stencil.Proofs.Renderer.Leads
import Stencil.Proofs.Attribute.Expansion
import Stencil.Proofs.Text.Escaping
import Stencil.Proofs.Text.Hyphen
import Stencil.Proofs.Attribute.Forms
import Stencil.Proofs.Renderer.PageTree
import Stencil.Proofs.Renderer.Nesting
import Stencil.Proofs.Marking.Quoting
import Stencil.Proofs.Markup.OpenTag
import Stencil.Proofs.Markup.Segments
import Stencil.Proofs.Renderer.Quoting
import Stencil.Proofs.Marker.Imitation
import Stencil.Proofs.Renderer.Imitation
import Stencil.Proofs.Value.Equality
import Stencil.Proofs.Value.Regrouping
import Stencil.Proofs.Renderer.Outcome
import Stencil.Proofs.Json.Layout
import Stencil.Proofs.Json.Reading
import Stencil.Proofs.Settings.Editing
import Stencil.Proofs.Text.Suffix
import Stencil.Proofs.Number.Ranks
import Stencil.Proofs.Text.CamelCase
import Stencil.Proofs.Number.Rounding
import Stencil.Proofs.Number.Grids
import Stencil.Proofs.Number.Shortest
import Stencil.Proofs.Json.Integers
import Stencil.Proofs.Number.Integers
import Stencil.Proofs.Number.Widening
import Stencil.Proofs.Marking.Assignment
import Stencil.Proofs.Marker.Pattern
import Stencil.Proofs.Markup.Pattern
