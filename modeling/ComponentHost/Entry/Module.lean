/-
# `ComponentHost.Entry.Module` — evaluating an entry source

Evaluating a source instantiates a component for each binding and fills one
namespace, the root, with what the export statements contribute.  A binding's
exports form a namespace of their own: functions become callables of that instance,
instances become namespaces, and all other exports become data that tell their
kind.  What a function needs to be called stays with it: the instance it belongs
to, its place among the exports, its signature and its body.

Statements are evaluated in order against any way of resolving locators, so a
source can be given a meaning with and without a resource table.
-/
import ComponentHost.Entry.Statement
import ComponentHost.Invocation.Callable
import ComponentHost.Namespace.EntryPoint
import ComponentHost.Namespace.Walk
import ComponentHost.Resource.Table

namespace ComponentHost

/-! ## Functions of instances -/

/-- A function of a running component. -/
structure BoundFunction where
  /-- The number of the instance among the instances of its module. -/
  owner : Nat
  /-- The exported instances that the function lies in, the outermost first. -/
  within : List String
  name : String
  signature : Signature
  body : Option Body

namespace BoundFunction

/-- The arguments converted by the types of the parameters, of which the first has the given
number. -/
def convertFrom : Nat → List Ty → List Json → Except InvocationError (List Datum)
  | index, ty :: types, j :: args =>
    match ty.decode j with
    | .ok d => (convertFrom (index + 1) types args).map (d :: ·)
    | .error e => .error (.ofDecode index e)
  | _, _, _ => .ok []

/-- The arguments as values, if there are as many as parameters and each converts. -/
def convert (f : BoundFunction) (args : List Json) : Except InvocationError (List Datum) :=
  let types := f.signature.params.map (·.2)
  if types.length = args.length then convertFrom 0 types args
  else .error (.argumentCount types.length args.length)

/-- The body and the values to enter it with, or why it is not entered. -/
def prepare (f : BoundFunction) (args : List Json) : Except InvocationError (Body × List Datum) :=
  match f.convert args with
  | .error e => .error e
  | .ok data =>
    match f.body with
    | some body => .ok (body, data)
    | none => .error (.invalidFunction f.name)

def encodeResult (d : Datum) : Answer :=
  match d.encode with
  | .ok j => .ok j
  | .error e => .error (.ofEncode e)

/-- The answer that a result makes.  An error result is raised, as the text of what it carries. -/
def answer : Option Datum → Answer
  | none => .ok .null
  | some (.err none) => .error (.raised "err")
  | some (.err (some d)) =>
    match encodeResult d with
    | .ok j => .error (.raised j.compress)
    | .error e => .error e
  | some (.ok none) => .ok .null
  | some (.ok (some d)) => encodeResult d
  | some d => encodeResult d

/-- Calls the function in the instances of its module. -/
def call (f : BoundFunction) (args : List Json) (instances : List Instance) :
    Answer × List Instance :=
  match f.prepare args with
  | .error e => (.error e, instances)
  | .ok (body, data) =>
    match instances[f.owner]? with
    | none => (.error (.runtimeException poisonedError), instances)
    | some i =>
      match i.enter body data with
      | (.ok result, i) => (answer result, instances.set f.owner i)
      | (.error e, i) => (.error (.runtimeException e), instances.set f.owner i)

instance : Callable BoundFunction (List Instance) where
  arity f := some f.signature.params.length
  call := call

end BoundFunction

namespace Entry

/-! ## Namespaces of components -/

/-- The data that stands for an export that is neither a function nor an instance. -/
def kindData (kind : ExportKind) : Entity BoundFunction :=
  .data (.object [("kind", .string kind.name)])

mutual

/-- The members that exports make, and the graph with the namespaces of exported instances. -/
def mountItems (owner : Nat) (within : List String) :
    List (String × ExportItem) → Graph BoundFunction →
      List (String × Member BoundFunction) × Graph BoundFunction
  | [], g => ([], g)
  | (name, item) :: rest, g =>
    match mountItem owner within name item g with
    | (e, g) =>
      match mountItems owner within rest g with
      | (members, g) => ((name, .entity e) :: members, g)

/-- The entity that an export makes, and the graph with the namespaces below it. -/
def mountItem (owner : Nat) (within : List String) (name : String) :
    ExportItem → Graph BoundFunction → Entity BoundFunction × Graph BoundFunction
  | .function signature body, g => (.callable ⟨owner, within, name, signature, body⟩, g)
  | .nested exports, g =>
    match mountItems owner (within ++ [name]) exports g with
    | (members, g) =>
      match g.add (.ofList none members) with
      | (id, g) => (.nested id, g)
  | .type, g => (kindData .type, g)
  | .resource, g => (kindData .resource, g)
  | .coreModule, g => (kindData .coreModule, g)
  | .component, g => (kindData .component, g)

end

/-- The namespace of a component's exports, and the graph with it and all below it. -/
def mount (owner : Nat) (exports : List (String × ExportItem)) (g : Graph BoundFunction) :
    NamespaceId × Graph BoundFunction :=
  match mountItems owner [] exports g with
  | (members, g) => g.add (.ofList none members)

/-! ## Evaluation -/

/-- What an evaluation needs: an engine, and the limit to the memory of an instance. -/
structure Loader where
  engine : Engine
  limit : Option Nat

/-- An evaluation under way. -/
structure Linkage where
  graph : Graph BoundFunction
  /-- The names bound so far, each with the namespace of its component. -/
  bindings : List (String × NamespaceId)
  /-- The instances of the bindings, in order. -/
  instances : List Instance

def rootId : NamespaceId := 0

/-- Before the first statement: an empty root. -/
def Linkage.initial : Linkage := ⟨⟨[.empty none]⟩, [], []⟩

/-- Compiles and instantiates the component that a resource holds. -/
def Loader.instantiate (l : Loader) (r : Resource) : Except LoadError (Component × Instance) :=
  match l.engine.compile r.bytes with
  | .error e => .error (.instantiation r.filename e)
  | .ok c =>
    match c.instantiate l.limit with
    | .error e => .error (.instantiation r.filename e)
    | .ok i => .ok (c, i)

def Linkage.bind (s : Linkage) (binding : String) (c : Component) (i : Instance) : Linkage :=
  match mount s.instances.length c.exports s.graph with
  | (id, graph) => ⟨graph, s.bindings ++ [(binding, id)], s.instances ++ [i]⟩

/-- The entities that stand in a namespace, with their keys; accessors are not asked. -/
def entities {α : Type} (g : Graph α) (id : NamespaceId) : List (String × Entity α) :=
  (g.members id).filterMap fun m =>
    match m.2 with
    | .entity e => some (m.1, e)
    | _ => none

/-- The linkage with entities set in the root, one after the other. -/
def Linkage.contribute (s : Linkage) (es : List (String × Entity BoundFunction)) : Linkage :=
  { s with graph := es.foldl (fun g e => g.insert rootId e.1 (.entity e.2)) s.graph }

/-- Evaluates one statement.  `resolve` finds the resource that a locator stands for in a form. -/
def Loader.step (l : Loader) (resolve : ImportForm → String → Option Resource) (s : Linkage) :
    Statement → Except LoadError Linkage
  | .bind form binding locator =>
    if (s.bindings.lookup binding).isSome then .error (.duplicate binding)
    else match resolve form locator with
      | none => .error (.unresolved locator)
      | some r => (l.instantiate r).map fun (c, i) => s.bind binding c i
  | .exportAll binding =>
    match s.bindings.lookup binding with
    | none => .error (.undefined binding)
    | some id => .ok (s.contribute (entities s.graph id))
  | .exportDefault binding =>
    match s.bindings.lookup binding with
    | none => .error (.undefined binding)
    | some id => .ok (s.contribute [("default", .nested id)])

/-- Evaluates statements one after the other, up to the first error. -/
def Loader.run (l : Loader) (resolve : ImportForm → String → Option Resource) :
    Linkage → List Statement → Except LoadError Linkage
  | s, [] => .ok s
  | s, statement :: rest =>
    match l.step resolve s statement with
    | .ok s => l.run resolve s rest
    | .error e => .error e

end Entry

/-! ## Modules -/

/-- A module that has been loaded. -/
structure Module where
  graph : Graph BoundFunction
  /-- The instances of its bindings, in order. -/
  instances : List Instance
  /-- The source it was loaded from. -/
  source : String

namespace Module

open Entry

/-- The module that a source makes, with locators looked up among live resources. -/
def load (l : Loader) (source : String) (table : ResourceTable) : Except LoadError Module :=
  match parse source with
  | .error e => .error e
  | .ok statements =>
    match l.run (fun _ locator => table.resolve locator) .initial statements with
    | .error e => .error e
    | .ok s => .ok ⟨s.graph, s.instances, source⟩

def root (_ : Module) : Entity BoundFunction := .nested rootId

/-- What the module exports, and whether it is its default export: the member `default` counts
when nothing stands beside it. -/
def exportRoot (m : Module) : Entity BoundFunction × Bool :=
  if (m.graph.keys rootId).any (· != "default") then (m.root, false)
  else match m.graph.get? rootId "default" with
    | some (.entity e) => (e, true)
    | _ => (m.root, false)

def describe (m : Module) : String :=
  "LoadedModule \x7b namespace: " ++ m.graph.describe rootId ++ ", instance_count: " ++
    toString m.instances.length ++ ", .. \x7d"

end Module

end ComponentHost
