/-
# `ComponentHost.Runner.Build` — from an artifact to a module that can be called into

One attempt goes through five stages: the artifact is transpiled; every binary
resource of the output gets a handle; the entry source is relinked to the handles;
the linked source is loaded; and the exports of the module are discovered.  Each
stage says in the log what it did.  An attempt that fails after handles were made
revokes them, so the table is left with the live resources it had before.

    stage        can fail with                       says
    transpile    an error of the transpiler          the time, the files, the component's exports
    entry        no entry source                     —
    handles      —                                   one line a binary resource
    load         an error of the source              that it starts, what the module exports
    discover     —                                   what can be called
-/
import ComponentHost.Config.Basic
import ComponentHost.Decimal.Fixed
import ComponentHost.Entry.Reference
import ComponentHost.Runner.Log
import ComponentHost.Runner.State
import ComponentHost.Transpiler.Bundled

namespace ComponentHost

/-- What a runner works with and never changes. -/
structure Host where
  engine : Engine
  transpiler : Transpiler
  config : Config

/-- The loader of the host: its engine, under the configured limit. -/
def Host.loader (h : Host) : Entry.Loader :=
  ⟨h.engine, h.config.maxMemoryBytes⟩

def Host.bundled (engine : Engine) (config : Config) : Host :=
  ⟨engine, .bundled engine, config⟩

def Host.examplePath (h : Host) (e : Example) : String :=
  e.path h.config.examplesDir

/-! ## What the stages say -/

def commaList (texts : List String) : String :=
  String.intercalate ", " texts

/-- What is said of the transpiler's output; `elapsed` counts hundredths of a second. -/
def transpiledNotes (elapsed : Nat) (t : Transpiled) : Log :=
  [.success ("Transpilation completed in " ++ Decimal.hundredths elapsed ++ "s"),
    .info ("Generated files: " ++ commaList t.files.names)] ++
  if t.exports.isEmpty then []
  else [.info ("Component exports: " ++ commaList (t.exports.map (·.1)))]

def handleNotes (files : List (String × ByteArray)) : Log :=
  files.map fun f => .info ("Created resource handle for " ++ f.1)

def loadingNote : LogEntry := .info "Loading transpiled module..."

def rootNotes (m : Module) : Log :=
  let (root, isDefault) := m.exportRoot
  let keys := match root with
    | .nested id => m.graph.keys id
    | _ => []
  if !isDefault && !keys.isEmpty then
    [.success ("Module loaded with exports: " ++ commaList keys)]
  else
    .info "Module loaded (checking for default export)" ::
      if isDefault then [.success ("Using default export with keys: " ++ commaList keys)] else []

def exportNotes (exports : List (Export BoundFunction)) : Log :=
  if exports.isEmpty then [.warning "No callable functions found in the component exports"]
  else
    [.success ("Discovered " ++ toString exports.length ++ " callable function(s)"),
      .info ("Available functions: " ++ commaList (exports.map Export.displayName))]

/-! ## The stages -/

def locatorOf (files : List (String × ByteArray)) (handles : List Handle) (name : String) :
    Option String :=
  (((files.map (·.1)).zip handles).lookup name).map Handle.locator

def FileSet.resources (s : FileSet) : List Resource :=
  s.binaries.map fun f => ⟨f.1, f.2⟩

/-- The entry source with its references relinked to the handles of the binary files. -/
def FileSet.link (s : FileSet) (handles : List Handle) (source : String) : String :=
  Entry.relink (locatorOf s.binaries handles) source

def Runnable.discover (a : Artifact) (m : Module) (handles : List Handle) : Runnable :=
  let root := m.exportRoot.1
  ⟨a, m, root, m.graph.walk root "", handles⟩

/-- What an attempt ends with: its outcome, the table after it, and what it said. -/
structure Attempt where
  outcome : Except PipelineError Runnable
  resources : ResourceTable
  notes : Log

/-- The stages that follow once there is an entry source. -/
def buildFrom (loader : Entry.Loader) (a : Artifact) (files : FileSet) (source : String)
    (table : ResourceTable) : Attempt :=
  let (handles, live) := table.createAll files.resources
  let notes := handleNotes files.binaries ++ [loadingNote]
  match Module.load loader (files.link handles source) live with
  | .error e => ⟨.error (.load e), (live.revokeAll handles).2, notes⟩
  | .ok m =>
    let r := Runnable.discover a m handles
    ⟨.ok r, live, notes ++ rootNotes m ++ exportNotes r.exports⟩

/-- Makes a module of what the transpiler answered. -/
def build (loader : Entry.Loader) (a : Artifact) (elapsed : Nat) (table : ResourceTable) :
    Except TranspileError Transpiled → Attempt
  | .error e => ⟨.error (.transpile e), table, []⟩
  | .ok t =>
    match t.files.entrySource entryPointFile with
    | .error e => ⟨.error (.transpile (.entry e)), table, transpiledNotes elapsed t⟩
    | .ok source =>
      let rest := buildFrom loader a t.files source table
      { rest with notes := transpiledNotes elapsed t ++ rest.notes }

def Host.attempt (h : Host) (number : Nat) (a : Artifact) (elapsed : Nat) (table : ResourceTable) :
    Attempt :=
  build h.loader a elapsed table (h.transpiler.transpile number a.bytes {})

end ComponentHost
