/-
# `ComponentHost.Runner.State` — how far a component has come

The state of a run is one value.  It holds the artifact from its first load on, and
the module with everything found in it while there is one.  Leaving a runnable state
revokes the handles that the module was linked with.
-/
import ComponentHost.Artifact
import ComponentHost.Entry.Module
import ComponentHost.Runner.Status
import ComponentHost.Transpiler.Basic

namespace ComponentHost

/-! ## Errors -/

/-- Why a transpilation does not end in a module. -/
inductive PipelineError where
  | noComponent
  | transpile (error : TranspileError)
  | load (error : LoadError)
  deriving DecidableEq, Repr

namespace PipelineError

def message : PipelineError → String
  | noComponent => "No component loaded"
  | transpile error => error.message
  | load error => error.message

/-- What an error of the transpiler says with all its causes. -/
def fullMessage : TranspileError → String
  | .invalidComponent error => error.chain
  | error => error.message

def componentHint : String := "Make sure the file is a valid WebAssembly component"

def memoryHint : String := "The component might be too large for the configured memory limit"

/-- The words that speak of what a component is. -/
def componentWords : List String := ["webassembly", "magic header", "binary"]

/-- Advice that goes with an error of the transpiler, by the words it uses in either case. -/
def hint : PipelineError → Option String
  | transpile error =>
    let text := (fullMessage error).toList.map Char.toLower
    if componentWords.any fun w => Text.contains w.toList text then some componentHint
    else if Text.contains "memory".toList text then some memoryHint
    else none
  | _ => none

end PipelineError

/-! ## States -/

/-- A module that can be called into, and what it was made from. -/
structure Runnable where
  artifact : Artifact
  module : Module
  root : Entity BoundFunction
  exports : List (Export BoundFunction)
  /-- The handles of the binary resources that the module was linked with, in file order. -/
  handles : List Handle

def Runnable.enter (r : Runnable) (f : BoundFunction) (args : List Json) : Answer × Runnable :=
  let (answer, instances) := Callable.call f args r.module.instances
  (answer, { r with module := { r.module with instances } })

/-- How far a component has come. -/
inductive State where
  | empty
  | loaded (artifact : Artifact)
  | transpiling (artifact : Artifact)
  | runnable (r : Runnable)

namespace State

def phase : State → Phase
  | empty => .empty
  | loaded _ => .loaded
  | transpiling _ => .transpiling
  | runnable _ => .runnable

/-- The artifact that is held. -/
def artifact? : State → Option Artifact
  | empty => none
  | loaded a | transpiling a => some a
  | runnable r => some r.artifact

/-- The module that can be called into. -/
def runnable? : State → Option Runnable
  | runnable r => some r
  | _ => none

def exports (s : State) : List (Export BoundFunction) :=
  match s.runnable? with
  | some r => r.exports
  | none => []

/-- The handles that the state holds. -/
def handles (s : State) : List Handle :=
  match s.runnable? with
  | some r => r.handles
  | none => []

/-- The table without the handles that the state holds. -/
def release (s : State) (table : ResourceTable) : ResourceTable :=
  (table.revokeAll s.handles).2

/-- Takes in an artifact. -/
def load (s : State) (a : Artifact) (table : ResourceTable) : State × ResourceTable :=
  (.loaded a, s.release table)

/-- Starts a transpilation, if there is an artifact. -/
def beginTranspile (s : State) (table : ResourceTable) : State × ResourceTable :=
  match s.artifact? with
  | some a => (.transpiling a, s.release table)
  | none => (.empty, table)

/-! ## Descriptions -/

def describe : State → String
  | empty => "Empty"
  | loaded a => "Loaded(" ++ a.describe ++ ")"
  | transpiling a => "Transpiling(" ++ a.describe ++ ")"
  | runnable r =>
    "Runnable(Runnable \x7b component: " ++ Text.quoted r.artifact.filename ++ ", exports: " ++
      Text.bracketed (r.exports.map Export.describe) ++ ", handles: " ++
      Text.bracketed (r.handles.map Handle.describe) ++ ", .. \x7d)"

end State

end ComponentHost
