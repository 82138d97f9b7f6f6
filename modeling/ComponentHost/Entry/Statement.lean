/-
# `ComponentHost.Entry.Statement` — the statements of an entry source

An entry source has one statement a line:

    static       import NAME from 'LOCATOR';
    deferred     const NAME = await import('LOCATOR');
    location     const NAME = new URL('LOCATOR'[, import.meta.url]);
    everything   export * from NAME;
    default      export default NAME;

The semicolon may be missing, white space may stand between the pieces, and either
quotation mark may stand on each side of a locator.  Blank lines and lines that
start with `//` say nothing.  The source is read as a whole before any of it is
evaluated; the first line that is no statement is the error.
-/
import ComponentHost.Component.Basic
import ComponentHost.Entry.Token

namespace ComponentHost

/-! ## Errors -/

/-- Why an entry source does not make a module. -/
inductive LoadError where
  /-- A line that is no statement, by its number and its text. -/
  | malformed (line : Nat) (text : String)
  | unresolved (locator : String)
  | undefined (binding : String)
  | duplicate (binding : String)
  | instantiation (filename : String) (error : EngineError)
  deriving DecidableEq, Repr

def LoadError.message : LoadError → String
  | malformed line text => "Syntax error on line " ++ toString line ++ ": " ++ text
  | unresolved locator => "Unresolved reference: " ++ locator
  | undefined binding => "Undefined binding: " ++ binding
  | duplicate binding => "Duplicate binding: " ++ binding
  | instantiation filename error => "Instantiation failed for " ++ filename ++ ": " ++ error.message

namespace Entry

/-! ## Statements -/

/-- The ways in which a statement names a component. -/
inductive ImportForm where
  | static
  | deferred
  /-- A location, which may be said to be relative to the module. -/
  | location (relative : Bool)
  deriving DecidableEq, Repr

inductive Statement where
  /-- Binds a name to an instance of the component at the locator. -/
  | bind (form : ImportForm) (binding locator : String)
  /-- Exports everything that the binding's component exports. -/
  | exportAll (binding : String)
  /-- Exports the binding's namespace under the key `default`. -/
  | exportDefault (binding : String)
  deriving DecidableEq, Repr

/-! ## Reading one line -/

/-- The end of a statement: a semicolon or none, and nothing else. -/
def isEnd (cs : List Char) : Bool :=
  match Text.trimStart cs with
  | [] | [';'] => true
  | _ => false

/-- The statement, if the line ends here. -/
def finish (s : Statement) (cs : List Char) : Option Statement :=
  if isEnd cs then some s else none

def readStatic (cs : List Char) : Option Statement := do
  let cs ← eat [kw "import", .gap] cs
  let (name, cs) ← readName cs
  let cs ← eat [.gap, kw "from", .gap] cs
  let (locator, cs) ← readQuoted cs
  finish (.bind .static (String.ofList name) (String.ofList locator)) cs

def readDeferred (cs : List Char) : Option Statement := do
  let cs ← eat [kw "const", .gap] cs
  let (name, cs) ← readName cs
  let cs ← eat [.space, kw "=", .space, kw "await", .gap, kw "import", .space, kw "(", .space] cs
  let (locator, cs) ← readQuoted cs
  let cs ← eat [.space, kw ")"] cs
  finish (.bind .deferred (String.ofList name) (String.ofList locator)) cs

/-- The end of a location: whether it is relative to the module, and what follows it. -/
def readBase (cs : List Char) : Option (Bool × List Char) :=
  match eat [.space, kw ",", .space, kw "import.meta.url", .space, kw ")"] cs with
  | some rest => some (true, rest)
  | none => (eat [.space, kw ")"] cs).map (false, ·)

def readLocation (cs : List Char) : Option Statement := do
  let cs ← eat [kw "const", .gap] cs
  let (name, cs) ← readName cs
  let cs ← eat [.space, kw "=", .space, kw "new", .gap, kw "URL", .space, kw "(", .space] cs
  let (locator, cs) ← readQuoted cs
  let (relative, cs) ← readBase cs
  finish (.bind (.location relative) (String.ofList name) (String.ofList locator)) cs

def readExportAll (cs : List Char) : Option Statement := do
  let cs ← eat [kw "export", .gap, kw "*", .gap, kw "from", .gap] cs
  let (name, cs) ← readName cs
  finish (.exportAll (String.ofList name)) cs

def readExportDefault (cs : List Char) : Option Statement := do
  let cs ← eat [kw "export", .gap, kw "default", .gap] cs
  let (name, cs) ← readName cs
  finish (.exportDefault (String.ofList name)) cs

/-- The statement that a line without blank ends makes. -/
def statement? (line : List Char) : Option Statement :=
  readStatic line <|> readDeferred line <|> readLocation line <|> readExportAll line <|>
    readExportDefault line

/-! ## Reading a source -/

/-- The line says nothing: it is empty or starts with two slashes. -/
def isSilent (line : List Char) : Bool :=
  line.isEmpty || "//".toList.isPrefixOf line

/-- The statements of lines, of which the first has the given number. -/
def parseLines : Nat → List (List Char) → Except LoadError (List Statement)
  | _, [] => .ok []
  | number, line :: lines =>
    let text := Text.trim line
    if isSilent text then parseLines (number + 1) lines
    else match statement? text with
      | some s => (parseLines (number + 1) lines).map (s :: ·)
      | none => .error (.malformed number (String.ofList text))

def parse (source : String) : Except LoadError (List Statement) :=
  parseLines 1 (Text.splitAt '\n' source.toList)

end Entry

end ComponentHost
