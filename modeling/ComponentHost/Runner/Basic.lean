/-
# `ComponentHost.Runner.Basic` — driving a component from its bytes to its calls

A runner owns a table of resources, the state of one component, a status and a log.
Every operation takes the runner as it is and gives its answer and the runner after
it.  What an operation needs from outside comes in as an argument: the outcome of
reading a file, and the time that a transpilation took.
-/
import ComponentHost.Runner.Build

namespace ComponentHost

/-- A runner: one component at a time, the files that are kept in memory for it, and the log. -/
structure Runner where
  resources : ResourceTable
  state : State
  status : Status
  log : Log
  /-- How often the transpiler has been asked. -/
  attempts : Nat

namespace Runner

def greeting : Log :=
  [.success "WebAssembly Component Runner initialized",
    .info "Select a .wasm component file or load an example to begin"]

/-- A new runner, which numbers its handles from `first` on. -/
def initial (first : Nat) : Runner :=
  ⟨.empty first, .empty, .noComponent, greeting, 0⟩

def phase (r : Runner) : Phase := r.state.phase

def controls (r : Runner) : Controls := r.phase.controls

def artifact? (r : Runner) : Option Artifact := r.state.artifact?

def exports (r : Runner) : List (Export BoundFunction) := r.state.exports

def write (r : Runner) (entries : Log) : Runner :=
  { r with log := r.log ++ entries }

/-! ## Loading -/

/-- Announces a load. -/
def beginLoad (r : Runner) (name : String) : Runner :=
  { r.write [.info ("Loading component: " ++ name)] with status := .loadingComponent }

/-- Takes in what a load gave.  A failure leaves the component and its module as they are. -/
def finishLoad (r : Runner) : Except IngestError Artifact → Except IngestError Unit × Runner
  | .ok a =>
    let (state, resources) := r.state.load a r.resources
    let r := r.write [.success ("Component loaded successfully (" ++ a.kibibytes ++ " KB)")]
    (.ok (), { r with state, resources, status := .componentLoaded })
  | .error e =>
    let r := r.write [.error ("Error loading component: " ++ e.message)]
    (.error e, { r with status := .loadFailed })

def loadBytes (r : Runner) (bytes : ByteArray) (filename : String) :
    Except IngestError Unit × Runner :=
  (r.beginLoad filename).finishLoad (Artifact.ofBytes bytes filename)

def loadFile (r : Runner) (path : String) (outcome : Except IoError ByteArray) :
    Except IngestError Unit × Runner :=
  (r.beginLoad path).finishLoad (Artifact.ofFile path outcome)

/-- Loads a dropped file.  One with the wrong ending is refused with a warning only. -/
def loadDropped (r : Runner) (path : String) (outcome : Except IoError ByteArray) :
    Except IngestError Unit × Runner :=
  match Artifact.ofDropped path outcome with
  | .error (.unsupportedFile name) =>
    (.error (.unsupportedFile name), r.write [.warning (IngestError.unsupportedFile name).message])
  | loaded => (r.beginLoad path).finishLoad loaded

def loadExample (r : Runner) (e : Example) (outcome : Except IoError ByteArray) :
    Except IngestError Unit × Runner :=
  let r := (r.write [.info ("Loading example: " ++ e.fileName)]).beginLoad e.fileName
  match r.finishLoad (Artifact.ofExample e outcome) with
  | (.ok (), r) => (.ok (), r)
  | (.error error, r) =>
    (.error error, r.write [.info "Make sure the example file exists in the examples directory"])

/-! ## Transpiling -/

/-- What is said of a transpilation that failed: the error, and advice if there is any. -/
def failureNotes (e : PipelineError) : Log :=
  .error ("Transpilation failed: " ++ e.message) :: (e.hint.toList.map .error)

/-- Takes in what an attempt ended with.  A failure leaves the component loaded. -/
def finishTranspile (r : Runner) (a : Artifact) (attempt : Attempt) :
    Except PipelineError Nat × Runner :=
  let r := { r.write attempt.notes with
    resources := attempt.resources
    attempts := r.attempts + 1 }
  match attempt.outcome with
  | .ok m =>
    (.ok m.exports.length, { r with state := .runnable m, status := .transpilationComplete })
  | .error e =>
    (.error e, { r.write (failureNotes e) with state := .loaded a, status := .transpilationFailed })

/-- Transpiles the component and loads the module, in place of the one there may be.  The answer
is the number of exports; `elapsed` counts hundredths of a second. -/
def transpile (h : Host) (r : Runner) (elapsed : Nat) : Except PipelineError Nat × Runner :=
  let (state, resources) := r.state.beginTranspile r.resources
  match state with
  | .transpiling a =>
    let r := { r.write [.info "Starting transpilation..."] with
      state, resources, status := .transpiling }
    r.finishTranspile a (h.attempt r.attempts a elapsed r.resources)
  | _ => (.error .noComponent, r.write (failureNotes .noComponent))

/-! ## Calling -/

/-- The export with that path, or else the first with that short name. -/
def findExport (r : Runner) (name : String) : Option (Export BoundFunction) :=
  (r.exports.find? (·.path == name)).or (r.exports.find? (·.displayName == name))

/-- Says that a short name is shared, where it is. -/
def ambiguityNotes (r : Runner) (name path : String) : Log :=
  if path = name then []
  else
    let count := r.exports.countP (·.displayName == name)
    if count ≤ 1 then []
    else [.warning ("\"" ++ name ++ "\" matches " ++ toString count ++ " exports, calling " ++
      path ++ ". Use the full path to call another one.")]

/-- What is said of an answer. -/
def answerNote (name : String) : Answer → LogEntry
  | .ok j => .success (Answer.display (.ok j))
  | .error e => .error ("Error calling " ++ name ++ ": " ++ e.message)

def enter (r : Runner) (m : Runnable) (f : BoundFunction) (args : List Json) : Answer × Runner :=
  let (answer, m) := m.enter f args
  (answer, { r with state := .runnable m })

/-- Calls an export with arguments. -/
def callWith (r : Runner) (name : String) (args : List Json) : Answer × Runner :=
  match r.state.runnable?, r.findExport name with
  | some m, some x =>
    let r := r.write <| r.ambiguityNotes name x.path ++
      [.info ("Calling " ++ x.displayName ++ "(" ++ Arguments.format args ++ ")")]
    let (answer, r) := r.enter m x.target args
    (answer, r.write [answerNote x.displayName answer])
  | _, _ =>
    let answer : Answer := .error (.unknownExport name)
    (answer, r.write [answerNote name answer])

/-- Calls an export with argument text. -/
def call (r : Runner) (name text : String) : Answer × Runner :=
  r.callWith name (Arguments.parse text)

/-! ## Running -/

def capitalised (name : String) : String :=
  match name.toList with
  | [] => ""
  | c :: cs => String.ofList (c.toUpper :: cs)

/-- What is said of the answer of an entry function. -/
def runNote (name : String) : Answer → LogEntry
  | .ok j => .success (capitalised name ++ " completed: " ++ j.compress)
  | .error e => .error ("Execution error: " ++ e.message)

/-- Runs the module through its entry function, if there is a module and it has one. -/
def run (r : Runner) : Option Answer × Runner :=
  let r := r.write [.info "Attempting to run component..."]
  match r.state.runnable? with
  | none => (none, r.write [.warning "No component has been transpiled yet"])
  | some m =>
    match m.module.graph.findEntryPoint m.root with
    | none =>
      (none, r.write [.warning ("No standard entry point found. " ++
        "Use the function call interface to call specific exports.")])
    | some (name, f) =>
      let r := r.write [.info ("Found \"" ++ name ++ "\" export, executing...")]
      let (answer, r) := r.enter m f []
      (some answer, r.write [runNote name answer])

/-! ## The log -/

/-- Empties the log, but for the notice of that. -/
def clearLog (r : Runner) : Runner :=
  { r with log := .clear }

/-! ## Descriptions -/

def describe (r : Runner) : String :=
  "ComponentRunner \x7b status: " ++ r.status.name ++ ", state: " ++ r.state.describe ++
    ", resources: " ++ toString r.resources.size ++ ", .. \x7d"

end Runner

end ComponentHost
