/-
# `ComponentHost.Cli.Arguments` — reading a command line

    component-runner [OPTIONS] inspect (--file F | --example E)
    component-runner [OPTIONS] call    (--file F | --example E) EXPORT [ARGS]
    component-runner [OPTIONS] run     (--file F | --example E)
    component-runner [OPTIONS] help    [COMMAND]

`-v`, `--verbose` and `--config F` may stand before the command and behind it.  Words
are read from left to right, and the first one that is wrong, or that asks for help
or for the version, ends the reading.  A value given as a word of its own is judged
when the next word is read, so a bad value before a command does not keep the command
from being asked for help.
-/
import ComponentHost.Artifact

namespace ComponentHost.Cli

/-! ## Requests -/

/-- What a command does. -/
inductive Verb where
  | inspect | call | run
  deriving DecidableEq, Repr

def Verb.name : Verb → String
  | inspect => "inspect"
  | call => "call"
  | run => "run"

def Verb.all : List Verb := [.inspect, .call, .run]

/-- The command that a word stands for. -/
def Verb.ofName? (word : String) : Option Verb :=
  Verb.all.find? (·.name = word)

/-- How many words a command takes besides its options. -/
def Verb.capacity : Verb → Nat
  | call => 2
  | inspect | run => 0

/-- What to do with the component. -/
inductive Task where
  | inspect
  | call (name text : String)
  | run
  deriving DecidableEq, Repr

/-- Where the component comes from. -/
inductive Source where
  | file (path : String)
  | bundled (e : Example)
  deriving DecidableEq, Repr

/-- What a command line asks for. -/
structure Request where
  task : Task
  source : Source
  verbose : Bool
  config : Option String
  deriving DecidableEq, Repr

/-- Why a command line asks for nothing. -/
inductive Notice where
  | help
  | version
  | misuse
  deriving DecidableEq, Repr

/-! ## Words -/

/-- Where a word stands: before the command, or behind it. -/
inductive Level where
  | start
  | command (v : Verb)
  deriving DecidableEq, Repr

/-- An option without a value. -/
inductive Flag where
  | verbose | help | version
  deriving DecidableEq, Repr

/-- The flag with that name.  The version can be asked for only before the command. -/
def Flag.ofName? : Level → String → Option Flag
  | _, "verbose" => some verbose
  | _, "help" => some help
  | .start, "version" => some version
  | _, _ => none

def Flag.ofLetter? : Level → Char → Option Flag
  | _, 'v' => some verbose
  | _, 'h' => some help
  | .start, 'V' => some version
  | _, _ => none

/-- An option with a value. -/
inductive Setting where
  | config | file | bundled
  deriving DecidableEq, Repr

/-- The setting with that name.  A source can be given only behind the command. -/
def Setting.ofName? : Level → String → Option Setting
  | _, "config" => some config
  | .command _, "file" => some file
  | .command _, "example" => some bundled
  | _, _ => none

/-- What a word is. -/
inductive Word where
  /-- Flags, one after the other; `none` is none that there is. -/
  | flags (fs : List (Option Flag))
  /-- A setting, and its value if that stands in the same word. -/
  | setting (s : Setting) (value : Option String)
  /-- No options follow. -/
  | stop
  | plain
  deriving DecidableEq, Repr

/-- An option by its name. -/
def Word.ofName (level : Level) (name : String) : Word :=
  match Setting.ofName? level name with
  | some s => .setting s none
  | none => .flags [Flag.ofName? level name]

/-- An option by its name, with a value in the same word; a flag takes none. -/
def Word.ofAssignment (level : Level) (name value : String) : Word :=
  match Setting.ofName? level name with
  | some s => .setting s (some value)
  | none => .flags [none]

/-- What a word is. -/
def Word.read (level : Level) (word : String) : Word :=
  match word.toList with
  | ['-', '-'] => .stop
  | '-' :: '-' :: cs =>
    let name := String.ofList (cs.takeWhile (· != '='))
    match cs.dropWhile (· != '=') with
    | [] => .ofName level name
    | _ :: value => .ofAssignment level name (String.ofList value)
  | '-' :: c :: cs => .flags ((c :: cs).map (Flag.ofLetter? level))
  | _ => .plain

/-! ## Options -/

/-- The options and words of one level. -/
structure Options where
  verbose : Bool
  config : Option String
  file : Option String
  bundled : Option Example
  words : List String
  /-- A setting whose value is still to be judged. -/
  held : Option (Setting × String)

namespace Options

def empty : Options := ⟨false, none, none, none, [], none⟩

def exampleNamed? : String → Option Example
  | "add" => some .add
  | "string-reverse" => some .stringReverse
  | _ => none

/-- A path that is not empty, for a setting that has not been given before. -/
def givePath (old : Option String) (path : String) : Except Notice String :=
  if old.isSome || path.isEmpty then .error .misuse else .ok path

def give (o : Options) : Setting × String → Except Notice Options
  | (.config, path) => do return { o with config := some (← givePath o.config path) }
  | (.file, path) => do return { o with file := some (← givePath o.file path) }
  | (.bundled, name) =>
    match o.bundled, exampleNamed? name with
    | none, some e => .ok { o with bundled := some e }
    | _, _ => .error .misuse

/-- Judges the value that is held. -/
def settle (o : Options) : Except Notice Options :=
  match o.held with
  | none => .ok o
  | some given => { o with held := none }.give given

def raise (o : Options) : Option Flag → Except Notice Options
  | some .help => .error .help
  | some .version => .error .version
  | some .verbose => if o.verbose then .error .misuse else .ok { o with verbose := true }
  | none => .error .misuse

/-- Takes a word that is no option, if there is room for it. -/
def take (capacity : Nat) (o : Options) (word : String) : Except Notice Options :=
  if o.words.length < capacity then .ok { o with words := o.words ++ [word] } else .error .misuse

end Options

/-! ## Levels -/

/-- A word that would be taken for an option. -/
def isOption (word : String) : Bool :=
  match word.toList with
  | '-' :: _ :: _ => true
  | _ => false

def readStart : Options → List String → Except Notice (Options × List String)
  | o, [] => .ok (o, [])
  | o, word :: rest =>
    match Word.read .start word with
    | .stop => .error .misuse
    | .plain => .ok (o, word :: rest)
    | .flags fs =>
      match o.settle.bind (fs.foldlM Options.raise) with
      | .ok o => readStart o rest
      | .error e => .error e
    | .setting s (some value) =>
      match o.settle.bind (·.give (s, value)) with
      | .ok o => readStart o rest
      | .error e => .error e
    | .setting s none =>
      match o.settle, rest with
      | .ok o, value :: rest =>
        if isOption value then .error .misuse else readStart { o with held := some (s, value) } rest
      | _, _ => .error .misuse

def readCommand (v : Verb) : Options → List String → Except Notice Options
  | o, [] => o.settle
  | o, word :: rest =>
    match Word.read (.command v) word with
    | .stop => o.settle.bind (rest.foldlM (Options.take v.capacity))
    | .plain =>
      match o.settle.bind (·.take v.capacity word) with
      | .ok o => readCommand v o rest
      | .error e => .error e
    | .flags fs =>
      match o.settle.bind (fs.foldlM Options.raise) with
      | .ok o => readCommand v o rest
      | .error e => .error e
    | .setting s (some value) =>
      match o.settle.bind (·.give (s, value)) with
      | .ok o => readCommand v o rest
      | .error e => .error e
    | .setting s none =>
      match o.settle, rest with
      | .ok o, value :: rest =>
        if isOption value then .error .misuse
        else readCommand v { o with held := some (s, value) } rest
      | _, _ => .error .misuse

/-- What a command is to do, from the words behind it. -/
def taskOf : Verb → List String → Except Notice Task
  | .inspect, [] => .ok .inspect
  | .run, [] => .ok .run
  | .call, [name] => .ok (.call name "")
  | .call, [name, text] => .ok (.call name text)
  | _, _ => .error .misuse

/-- The one source that is given. -/
def sourceOf (o : Options) : Except Notice Source :=
  match o.file, o.bundled with
  | some path, none => .ok (.file path)
  | none, some e => .ok (.bundled e)
  | _, _ => .error .misuse

/-- What asking for help leads to: help with one thing at most. -/
def helpOn : List String → Notice
  | [] => .help
  | [name] => if name = "help" || (Verb.ofName? name).isSome then .help else .misuse
  | _ => .misuse

/-- What a command line asks for.  What stands behind the command goes before what stands in front
of it. -/
def Request.ofArguments (args : List String) : Except Notice Request := do
  let (start, rest) ← readStart .empty args
  match rest with
  | [] => .error .misuse
  | "help" :: names => .error (helpOn names)
  | name :: rest =>
    match Verb.ofName? name with
    | none => .error .misuse
    | some v => do
      let o ← readCommand v .empty rest
      let task ← taskOf v o.words
      let source ← sourceOf o
      let start ← start.settle
      return ⟨task, source, start.verbose || o.verbose, o.config.or start.config⟩

end ComponentHost.Cli
