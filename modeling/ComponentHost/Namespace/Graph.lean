/-
# `ComponentHost.Namespace.Graph` — namespaces, and what stands in them

A module in memory is a graph of namespaces.  Everything that can stand in one is
sorted into four kinds: something to call, another namespace, a list, or plain data.
A member holds such an entity, or an accessor that is asked for one each time the
member is read.  A namespace is known by its number in the graph, so two names for
one namespace are one namespace; it may have a parent, and a parent has a smaller
number than its child.
-/
import ComponentHost.Json.Printer
import ComponentHost.KeyedList

namespace ComponentHost

/-! ## Entities and members -/

/-- The number of a namespace in its graph. -/
abbrev NamespaceId : Type := Nat

/-- What can stand in a namespace. -/
inductive Entity (α : Type) where
  | callable (f : α)
  | nested (id : NamespaceId)
  | list (items : List (Entity α))
  | data (j : Json)

inductive Member (α : Type) where
  | entity (e : Entity α)
  /-- An accessor that gives the same entity each time. -/
  | getter (e : Entity α)
  /-- An accessor that fails. -/
  | failing (message : String)
  /-- An accessor that makes a new namespace each time. -/
  | maker (members : List (String × Entity α))

/-- What reading a member gives. -/
inductive Reading (α : Type) where
  | entity (e : Entity α)
  /-- A namespace that nothing else refers to. -/
  | fresh (members : List (String × Entity α))
  | failure (message : String)

def Member.read {α : Type} : Member α → Reading α
  | .entity e | .getter e => .entity e
  | .failing message => .failure message
  | .maker members => .fresh members

/-- One namespace: its members with distinct keys, in the order of their first insertion, and its
parent. -/
structure Namespace (α : Type) where
  members : List (String × Member α)
  parent : Option NamespaceId
  distinct : (members.map (·.1)).Nodup

namespace Namespace

variable {α : Type}

def empty (parent : Option NamespaceId) : Namespace α := ⟨[], parent, List.nodup_nil⟩

/-- Sets a member: in its place if the key is there, else behind the others. -/
def set (n : Namespace α) (key : String) (m : Member α) : Namespace α :=
  ⟨setKey key m n.members, n.parent, nodup_keys_setKey key m n.distinct⟩

def ofList (parent : Option NamespaceId) (members : List (String × Member α)) : Namespace α :=
  members.foldl (fun n m => n.set m.1 m.2) (empty parent)

end Namespace

structure Graph (α : Type) where
  namespaces : List (Namespace α)

namespace Graph

variable {α : Type}

def empty : Graph α := ⟨[]⟩

def size (g : Graph α) : Nat := g.namespaces.length

def members (g : Graph α) (id : NamespaceId) : List (String × Member α) :=
  (g.namespaces[id]?.map Namespace.members).getD []

def parent? (g : Graph α) (id : NamespaceId) : Option NamespaceId :=
  g.namespaces[id]?.bind Namespace.parent

def keys (g : Graph α) (id : NamespaceId) : List String :=
  (g.members id).map (·.1)

def hasOwn (g : Graph α) (id : NamespaceId) (key : String) : Bool :=
  (g.keys id).contains key

/-- The graph with one namespace more, and the number of that namespace. -/
def add (g : Graph α) (n : Namespace α) : NamespaceId × Graph α :=
  (g.size, ⟨g.namespaces ++ [n]⟩)

def insert (g : Graph α) (id : NamespaceId) (key : String) (m : Member α) : Graph α :=
  ⟨g.namespaces.modify id fun n => n.set key m⟩

/-- Reads the member with that key in a namespace or in its ancestors, at most `generations` of
them. -/
def lookup (g : Graph α) (key : String) : Nat → NamespaceId → Option (Reading α)
  | 0, _ => none
  | generations + 1, id =>
    match (g.members id).lookup key with
    | some m => some m.read
    | none => (g.parent? id).bind (g.lookup key generations)

/-- Reads the member with that key: an own one if there is one, else that of the parent.  A parent
has a smaller number, so there are no more generations than the number of the namespace tells. -/
def get? (g : Graph α) (id : NamespaceId) (key : String) : Option (Reading α) :=
  g.lookup key (id + 1) id

/-! ## Descriptions -/

def describe (g : Graph α) (id : NamespaceId) : String :=
  "Namespace \x7b keys: " ++ Text.bracketed ((g.keys id).map Text.quoted) ++ ", prototype: " ++
    (if (g.parent? id).isSome then "Some(\"<namespace>\")" else "None") ++ " \x7d"

mutual

def describeEntity (g : Graph α) : Entity α → String
  | .callable _ => "Callable(<function>)"
  | .nested id => "Namespace(" ++ Text.bracketed ((g.keys id).map Text.quoted) ++ ")"
  | .list items => "List(" ++ Text.bracketed (describeEntities g items) ++ ")"
  | .data j => "Opaque(" ++ j.describe ++ ")"

def describeEntities (g : Graph α) : List (Entity α) → List String
  | [] => []
  | e :: rest => describeEntity g e :: describeEntities g rest

end

end Graph

end ComponentHost
