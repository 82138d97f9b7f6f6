/-
# `ComponentHost.Namespace.EntryPoint` — the function that runs a module

A module is run through the first of three names that stands for a callable without
arguments.  The names are looked up the way any member is, parents included.
-/
import ComponentHost.Invocation.Callable
import ComponentHost.Namespace.Graph

namespace ComponentHost

/-- The names a module can be run by, the preferred one first. -/
def entryPointNames : List String := ["run", "main", "start"]

def Callable.takesNothing {α σ : Type} [Callable α σ] (f : α) : Bool :=
  match Callable.arity f with
  | none | some 0 => true
  | some _ => false

namespace Graph

variable {α σ : Type} [Callable α σ]

/-- The callable that `name` stands for in a namespace, if it takes no arguments. -/
def entryPoint? (g : Graph α) (id : NamespaceId) (name : String) : Option (String × α) :=
  match g.get? id name with
  | some (.entity (.callable f)) => if Callable.takesNothing f then some (name, f) else none
  | _ => none

/-- The name and the callable that run the module with that root. -/
def findEntryPoint (g : Graph α) (root : Entity α) : Option (String × α) :=
  match root with
  | .nested id => entryPointNames.findSome? (g.entryPoint? id)
  | _ => none

end Graph

end ComponentHost
