/-
# `ComponentHost.Transpiler.Basic` — the transpiler as a black box

A transpiler turns the bytes of a component into a file set and a list of what the
component exports.  It may answer differently each time, so it is a function of the
number of the attempt as well; a *steady* transpiler does not look at that number.
-/
import ComponentHost.Component.Basic
import ComponentHost.FileSet
import ComponentHost.Text.Quoted

namespace ComponentHost

/-! ## Options -/

/-- What a transpiler is told besides the bytes. -/
structure TranspileOptions where
  name : String := "component"
  noTypescript : Bool := true
  validLiftingOptimization : Bool := false

namespace TranspileOptions

/-- The name of the file with the entry source. -/
def entryPoint (o : TranspileOptions) : String := o.name ++ ".js"

def describe (o : TranspileOptions) : String :=
  "TranspileOptions \x7b name: " ++ Text.quoted o.name ++ ", no_typescript: " ++
    toString o.noTypescript ++ ", valid_lifting_optimization: " ++
    toString o.validLiftingOptimization ++ " \x7d"

end TranspileOptions

/-- The name of the entry source that a run looks for. -/
def entryPointFile : String := "component.js"

/-! ## Results -/

/-- Why there is nothing to load. -/
inductive TranspileError where
  /-- The engine does not accept the bytes. -/
  | invalidComponent (error : EngineError)
  | failed (text : String)
  | entry (error : EntryError)
  deriving DecidableEq, Repr

def EntryError.message : EntryError → String
  | missing name => "No loadable module was produced: missing " ++ name
  | notText name => "Entry point " ++ name ++ " is not valid UTF-8"

def TranspileError.message : TranspileError → String
  | invalidComponent error => "Invalid WebAssembly component: " ++ error.message
  | failed text => text
  | entry error => error.message

/-- What a transpiler produces: files, and the names and kinds of the component's exports. -/
structure Transpiled where
  files : FileSet
  exports : List (String × ExportKind)

/-- A transpiler.  The first argument is the number of the attempt. -/
structure Transpiler where
  transpile : Nat → ByteArray → TranspileOptions → Except TranspileError Transpiled

/-- A transpiler that answers alike each time. -/
def Transpiler.Steady (t : Transpiler) : Prop :=
  ∀ m n bytes options, t.transpile m bytes options = t.transpile n bytes options

end ComponentHost
