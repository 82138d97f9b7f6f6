/-
# `ComponentHost.Invocation.Arguments` — argument text

The arguments of a call are typed as one text.  Blank text is no argument; a JSON
array is one argument an item; any other JSON is one argument; and text that is no
JSON is one string.  The way back lists the arguments with commas.
-/
import ComponentHost.Json.Parser
import ComponentHost.Json.Printer
import ComponentHost.Text.Blank

namespace ComponentHost.Arguments

/-- The arguments that a text stands for. -/
def parse (text : String) : List Json :=
  if text.toList.all Text.isBlank then []
  else match Json.parse? text with
    | some (.array items) => items
    | some j => [j]
    | none => [.string text]

/-- The arguments as they are shown. -/
def format (args : List Json) : String :=
  String.intercalate ", " (args.map Json.compress)

end ComponentHost.Arguments
