/-
# `ComponentHost.Namespace.Walk` — every callable below a namespace

The walk goes through the own members of a namespace in order and into every
namespace it meets, and enters each namespace once.  A callable is exported under
the keys that lead to it, with dots between them; a key is put after a dot only if
something stands before it.  Two keys are never followed, and a member that cannot
be read is passed over.

A namespace is entered only if its number is new, so the walk is never deeper than
the number of namespaces; that number is the fuel.
-/
import ComponentHost.Namespace.Graph

namespace ComponentHost

/-- A callable that was found. -/
structure Export (α : Type) where
  /-- The keys that lead to it, with dots between them. -/
  path : String
  /-- The name it goes by. -/
  displayName : String
  target : α

/-- The keys that are never followed. -/
def skippedKeys : List String := ["constructor", "__proto__"]

/-- What stands before the first `mark`. -/
def upTo (mark : Char) (cs : List Char) : List Char :=
  cs.takeWhile (· != mark)

/-- What stands after the last `mark`, if there is one. -/
def afterLast? (mark : Char) (cs : List Char) : Option (List Char) :=
  if cs.contains mark then some ((cs.reverse.takeWhile (· != mark)).reverse) else none

/-- The short form of a key: of an interface name, what follows the last slash, without the
version; any other key as it is. -/
def displayName (key : String) : String :=
  match afterLast? '/' key.toList with
  | some name => String.ofList (upTo '@' name)
  | none => key

/-- The path of a member, from the path of its namespace. -/
def memberPath (path key : String) : String :=
  if path.isEmpty then key else path ++ "." ++ key

namespace Graph

variable {α : Type}

/-- The exports found so far, and the namespaces entered so far. -/
structure Trail (α : Type) where
  found : List (Export α)
  entered : List NamespaceId

/-- Goes through entities; `visit` enters a namespace. -/
def walkEntities (visit : NamespaceId → String → Trail α → Trail α) (path : String) :
    List (String × Entity α) → Trail α → Trail α
  | [], t => t
  | (key, e) :: rest, t =>
    if skippedKeys.contains key then walkEntities visit path rest t
    else match e with
      | .callable f =>
        walkEntities visit path rest
          { t with found := t.found ++ [⟨memberPath path key, displayName key, f⟩] }
      | .nested id => walkEntities visit path rest (visit id (memberPath path key) t)
      | .list _ | .data _ => walkEntities visit path rest t

/-- Goes through members; `visit` enters a namespace of the graph. -/
def walkMembers (visit : NamespaceId → String → Trail α → Trail α) (path : String) :
    List (String × Member α) → Trail α → Trail α
  | [], t => t
  | (key, m) :: rest, t =>
    match m.read with
    | .entity e => walkMembers visit path rest (walkEntities visit path [(key, e)] t)
    | .fresh members =>
      if skippedKeys.contains key then walkMembers visit path rest t
      else walkMembers visit path rest (walkEntities visit (memberPath path key) members t)
    | .failure _ => walkMembers visit path rest t

/-- Enters a namespace, unless it has been entered before. -/
def visit (g : Graph α) : Nat → NamespaceId → String → Trail α → Trail α
  | 0, _, _, t => t
  | fuel + 1, id, path, t =>
    if t.entered.contains id then t
    else walkMembers (g.visit fuel) path (g.members id) { t with entered := id :: t.entered }

/-- Every callable below `root`, with `base` in front of the paths. -/
def walk (g : Graph α) (root : Entity α) (base : String) : List (Export α) :=
  match root with
  | .nested id => (g.visit (g.size + 1) id base ⟨[], []⟩).found
  | _ => []

end Graph

namespace Export

variable {α : Type}

def describe (x : Export α) : String :=
  "ExportDescriptor \x7b path: " ++ Text.quoted x.path ++ ", display_name: " ++
    Text.quoted x.displayName ++ ", .. \x7d"

end Export

end ComponentHost
