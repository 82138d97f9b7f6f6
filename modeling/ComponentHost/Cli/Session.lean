/-
# `ComponentHost.Cli.Session` — what a command line does

A session reads the configuration, loads one component, transpiles it and does one
task with it.  Its report is what is to be printed: the log, then the lines of the
task; apart from these the failure and the log entries that are traced.  A session
that has no configuration prints nothing else.

Files, times and the numbers of handles come from the surroundings, which may live in
any monad.
-/
import ComponentHost.Cli.Arguments
import ComponentHost.Runner.Basic

namespace ComponentHost.Cli

/-! ## Reports -/

/-- What is printed, and the code that is returned. -/
structure Report where
  log : Log
  lines : List String
  /-- Why the session ends early. -/
  failure : Option String
  /-- The entries that go where failures are printed. -/
  traced : Log

def Report.code (r : Report) : Nat :=
  if r.failure.isSome then 1 else 0

/-- The name and the number of this program. -/
def versionLine : String := "component-runner 0.1.0"

def usage : String :=
  "Load, transpile and invoke WebAssembly components\n\n" ++
    "Usage: component-runner [OPTIONS] <COMMAND>\n\n" ++
    "Commands:\n" ++
    "  inspect  Transpile a component and list its callable exports\n" ++
    "  call     Call one export of a component\n" ++
    "  run      Run the component's run, main or start export\n" ++
    "  help     Print this message or the help of the given command\n\n" ++
    "Options:\n" ++
    "  -v, --verbose          Enable verbose logging\n" ++
    "      --config <CONFIG>  Read runner settings from a TOML file\n" ++
    "  -h, --help             Print help\n" ++
    "  -V, --version          Print version"

def Notice.code : Notice → Nat
  | help | version => 0
  | misuse => 2

def Notice.text : Notice → String
  | version => versionLine
  | help | misuse => usage

/-! ## Sessions -/

def Source.path (h : Host) : Source → String
  | file path => path
  | bundled e => h.examplePath e

def Source.load (r : Runner) (outcome : Except IoError ByteArray) :
    Source → Except IngestError Unit × Runner
  | file path => r.loadFile path outcome
  | bundled e => r.loadExample e outcome

/-- What comes to a session from outside while it works. -/
structure Circumstances where
  /-- The number of its first handle. -/
  first : Nat
  /-- The outcome of reading its source. -/
  outcome : Except IoError ByteArray
  /-- The time of the transpilation, in hundredths of a second. -/
  elapsed : Nat

/-- Loads and transpiles; the answer is the text of the failure, if there is one. -/
def prepare (h : Host) (s : Source) (c : Circumstances) : Except String Unit × Runner :=
  match s.load (.initial c.first) c.outcome with
  | (.error e, r) => (.error e.message, r)
  | (.ok (), r) =>
    match r.transpile h c.elapsed with
    | (.error e, r) => (.error e.message, r)
    | (.ok _, r) => (.ok (), r)

/-- An answer of a call, as the end of a session. -/
def conclude (answer : Answer) : Except String (List String) :=
  if answer.isSuccess then .ok [] else .error answer.display

/-- Does a task; the answer is its lines, or the text of the failure. -/
def Task.perform (r : Runner) : Task → Except String (List String) × Runner
  | inspect => (.ok (r.exports.map fun x => x.displayName ++ "\t" ++ x.path), r)
  | call name text =>
    let (answer, r) := r.call name text
    (conclude answer, r)
  | run =>
    match r.run with
    | (some answer, r) => (conclude answer, r)
    | (none, r) => (.error "The component has no runnable entry point", r)

def Request.execute (q : Request) (h : Host) (c : Circumstances) :
    Except String (List String) × Runner :=
  match prepare h q.source c with
  | (.error e, r) => (.error e, r)
  | (.ok (), r) => q.task.perform r

/-- The entries that are traced: warnings and errors, and all others too if that is asked for. -/
def Request.traced (q : Request) (log : Log) : Log :=
  log.filter fun e => q.verbose || e.level == .warning || e.level == .error

def Request.report (q : Request) (h : Host) (c : Circumstances) : Report :=
  match q.execute h c with
  | (.ok lines, r) => ⟨r.log, lines, none, q.traced r.log⟩
  | (.error e, r) => ⟨r.log, [], some e, q.traced r.log⟩

def Report.noConfig (path : String) : Report :=
  ⟨[], [], some ("Failed to load config " ++ path), []⟩

/-- Where files, times and numbers come from. -/
structure Surroundings (m : Type → Type) where
  /-- Reads a file. -/
  read : String → m (Except IoError ByteArray)
  /-- How long a host takes to transpile what has been read, in hundredths of a second. -/
  measure : Host → Except IoError ByteArray → m Nat
  /-- Draws the number that the handles of a session start from. -/
  draw : m Nat

def Surroundings.answer {m : Type → Type} [Monad m] (w : Surroundings m) (q : Request) (h : Host) :
    m Report := do
  let outcome ← w.read (q.source.path h)
  let elapsed ← w.measure h outcome
  let first ← w.draw
  return q.report h ⟨first, outcome, elapsed⟩

/-- Answers a request. -/
def Surroundings.session {m : Type → Type} [Monad m] (w : Surroundings m) (engine : Engine)
    (q : Request) : m Report := do
  match q.config with
  | none => w.answer q (.bundled engine {})
  | some path =>
    match Config.ofFile (← w.read path) with
    | .ok config => w.answer q (.bundled engine config)
    | .error _ => return .noConfig path

end ComponentHost.Cli
