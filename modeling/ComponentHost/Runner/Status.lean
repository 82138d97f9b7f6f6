/-
# `ComponentHost.Runner.Status` — the status line, the phases and the controls

The status line tells what happened last.  The phase tells how far the component
has come, and decides which controls can be used.
-/

namespace ComponentHost

/-! ## The status line -/

/-- How a status is meant. -/
inductive StatusKind where
  | ready | loading | error
  deriving DecidableEq, Repr

def StatusKind.name : StatusKind → String
  | ready => "ready"
  | loading => "loading"
  | error => "error"

/-- What happened last. -/
inductive Status where
  | noComponent
  | componentLoaded
  | loadingComponent
  | transpiling
  | transpilationComplete
  | transpilationFailed
  | loadFailed
  deriving DecidableEq, Repr

namespace Status

def all : List Status :=
  [noComponent, componentLoaded, loadingComponent, transpiling, transpilationComplete,
    transpilationFailed, loadFailed]

def name : Status → String
  | noComponent => "NoComponent"
  | componentLoaded => "ComponentLoaded"
  | loadingComponent => "LoadingComponent"
  | transpiling => "Transpiling"
  | transpilationComplete => "TranspilationComplete"
  | transpilationFailed => "TranspilationFailed"
  | loadFailed => "LoadFailed"

def text : Status → String
  | noComponent => "No component loaded"
  | componentLoaded => "Component loaded"
  | loadingComponent => "Loading component..."
  | transpiling => "Transpiling..."
  | transpilationComplete => "Transpilation complete"
  | transpilationFailed => "Transpilation failed"
  | loadFailed => "Error loading component"

def kind : Status → StatusKind
  | noComponent | componentLoaded | transpilationComplete => .ready
  | loadingComponent | transpiling => .loading
  | transpilationFailed | loadFailed => .error

end Status

/-! ## Phases and controls -/

/-- How far the component has come. -/
inductive Phase where
  | empty | loaded | transpiling | runnable
  deriving DecidableEq, Repr

def Phase.name : Phase → String
  | empty => "Empty"
  | loaded => "Loaded"
  | transpiling => "Transpiling"
  | runnable => "Runnable"

def Phase.all : List Phase := [.empty, .loaded, .transpiling, .runnable]

/-- Which controls can be used. -/
structure Controls where
  transpile : Bool
  run : Bool
  call : Bool
  deriving DecidableEq, Repr

def Phase.controls : Phase → Controls
  | empty | transpiling => ⟨false, false, false⟩
  | loaded => ⟨true, false, false⟩
  | runnable => ⟨true, true, true⟩

end ComponentHost
