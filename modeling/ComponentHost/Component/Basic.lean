/-
# `ComponentHost.Component.Basic` — components, engines and running instances

A component is a tree of exports.  An engine turns bytes into a component or says
why it cannot; nothing else is asked of it, so everything above is stated for every
engine.  An instance is the state of one running component: its store, and whether
it has failed.  What a function does is its `Body`, a function of the store and the
arguments.  A call that fails leaves the instance poisoned, and a poisoned instance
answers every later call with an error.
-/
import ComponentHost.Interface.Datum

namespace ComponentHost

/-! ## Errors -/

/-- What an engine has to say when something goes wrong: a message and the causes behind it,
outermost first. -/
structure EngineError where
  message : String
  causes : List String := []
  deriving DecidableEq, Repr

/-- All messages from the outermost to the innermost, with colons between them. -/
def EngineError.chain (e : EngineError) : String :=
  String.intercalate ": " (e.message :: e.causes)

/-! ## Functions -/

/-- The state of a running component that its functions share. -/
structure Store where
  /-- What the counting functions have counted to. -/
  counter : Nat
  /-- How many resources have been handed out. -/
  minted : Nat
  deriving DecidableEq, Repr

/-- What a function does once it is entered: an error, or a result and the store it leaves. -/
abbrev Body : Type := List Datum → Store → Except EngineError (Option Datum × Store)

/-- The parameters and the result of a function. -/
structure Signature where
  params : List (String × Ty)
  result : Option Ty

/-! ## Exports -/

/-- One export of a component. -/
inductive ExportItem where
  /-- A function; without a body it is a function type only and cannot be entered. -/
  | function (signature : Signature) (body : Option Body)
  /-- An instance with exports of its own. -/
  | nested (exports : List (String × ExportItem))
  | type
  | resource
  | coreModule
  /-- A component, which is not instantiated with the one that exports it. -/
  | component

/-- What an export can be. -/
inductive ExportKind where
  | function | nested | component | coreModule | coreFunction | type | resource
  deriving DecidableEq, Repr

namespace ExportKind

def name : ExportKind → String
  | function => "function"
  | nested => "instance"
  | component => "component"
  | coreModule => "module"
  | coreFunction => "core-function"
  | type => "type"
  | resource => "resource"

def all : List ExportKind :=
  [function, nested, component, coreModule, coreFunction, type, resource]

end ExportKind

def ExportItem.kind : ExportItem → ExportKind
  | .function .. => .function
  | .nested .. => .nested
  | .type => .type
  | .resource => .resource
  | .coreModule => .coreModule
  | .component => .component

/-! ## Components -/

def pageBytes : Nat := 65536

/-- A component that the engine accepts. -/
structure Component where
  exports : List (String × ExportItem)
  /-- Pages of memory it asks for when it is instantiated. -/
  pages : Nat
  /-- Names it wants from its surroundings, which offer none. -/
  imports : List String
  /-- The store after its start function, or the error the start function fails with. -/
  start : Except EngineError Store

/-- An engine: the component that bytes stand for, or why they stand for none. -/
structure Engine where
  compile : ByteArray → Except EngineError Component

def ExportItem.isFunction : ExportItem → Bool
  | .function .. => true
  | _ => false

/-! ## Instances -/

/-- A running component. -/
structure Instance where
  store : Store
  /-- A call has failed, and no further call is let in. -/
  poisoned : Bool
  deriving DecidableEq, Repr

/-- The answer of a poisoned instance. -/
def poisonedError : EngineError := ⟨"cannot enter component instance", []⟩

/-- A component is instantiated only if it imports nothing, its memory is within the limit and
its start function does not fail. -/
def Component.instantiate (limit : Option Nat) (c : Component) : Except EngineError Instance :=
  match c.imports with
  | name :: _ =>
    .error ⟨"no matching implementation of the import " ++ name ++ " was found", []⟩
  | [] =>
    match limit with
    | some bytes =>
      if c.pages * pageBytes ≤ bytes then c.start.map (⟨·, false⟩)
      else .error ⟨"a memory of " ++ toString c.pages ++ " pages exceeds the limit", []⟩
    | none => c.start.map (⟨·, false⟩)

/-- Enters a function of the instance.  An error poisons the instance. -/
def Instance.enter (i : Instance) (body : Body) (args : List Datum) :
    Except EngineError (Option Datum) × Instance :=
  if i.poisoned then (.error poisonedError, i)
  else match body args i.store with
    | .ok (result, store) => (.ok result, { i with store := store })
    | .error e => (.error e, { i with poisoned := true })

end ComponentHost
