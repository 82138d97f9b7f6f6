/-
# `ComponentHost.Component.Catalogue` — components known by their bytes

A catalogue lists binaries with the components they hold.  Its engine compiles a
binary by looking it up.
-/
import ComponentHost.Component.Refusal

namespace ComponentHost

/-- Binaries with the components they hold. -/
abbrev Catalogue : Type := List (ByteArray × Component)

def Catalogue.engine (c : Catalogue) : Engine :=
  .knowing fun bytes => c.lookup bytes

end ComponentHost
