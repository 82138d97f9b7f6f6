/-
# `ComponentHost.Component.Package` — components described in text

A package is a text that describes a component: a first line `component-package`
and then the description; blanks may follow.  The engine of packages runs the samples
as well.
-/
import ComponentHost.Component.Description
import ComponentHost.Component.Sample
import ComponentHost.Json.Parser

namespace ComponentHost.Package

def header : String := "component-package\n"

def component? (bytes : ByteArray) : Option Component := do
  let text ← String.fromUTF8? bytes
  let description ← Json.afterWord header.toList text.toList
  Description.component? (← Json.parseWithin Json.depthLimit description)

def engine : Engine :=
  .knowing fun bytes => (Sample.catalogue.lookup bytes).or (component? bytes)

end ComponentHost.Package
