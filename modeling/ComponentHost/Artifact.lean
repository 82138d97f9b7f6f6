/-
# `ComponentHost.Artifact` — the bytes of a component, and how they come in

An artifact is what a user brings: bytes and the name of the file they came in.  It
is never empty.  Bytes come in directly, from a file, from a file dropped on the
host (which must be called `.wasm`), or from one of the examples that belong to it.
Reading the file is done outside; here its outcome is judged.
-/
import ComponentHost.Decimal.Fixed
import ComponentHost.Files.Path

namespace ComponentHost

/-- The ending of the names of files that may be dropped. -/
def componentSuffix : String := ".wasm"

/-! ## Examples -/

/-- The examples that belong to the host. -/
inductive Example where
  | stringReverse
  | add
  deriving DecidableEq, Repr

def Example.fileName : Example → String
  | stringReverse => "string-reverse.wasm"
  | add => "add.wasm"

def Example.all : List Example := [.stringReverse, .add]

/-- The path of an example in the directory of examples. -/
def Example.path (directory : String) (e : Example) : String :=
  Path.join directory e.fileName

/-! ## Errors -/

/-- Why no artifact comes in. -/
inductive IngestError where
  | empty (filename : String)
  | unreadable (path : String) (error : IoError)
  | unsupportedFile (filename : String)
  | exampleUnavailable (e : Example) (error : IoError)
  deriving DecidableEq, Repr

def IngestError.message : IngestError → String
  | empty filename => "Component " ++ filename ++ " is empty"
  | unreadable path error => "Failed to read " ++ path ++ ": " ++ error.message
  | unsupportedFile filename => "Unsupported file: " ++ filename ++ " (expected a .wasm file)"
  | exampleUnavailable e error =>
    "Failed to load example component " ++ e.fileName ++ ": " ++ error.message

/-! ## Artifacts -/

/-- The bytes of a component and the name of their file. -/
structure Artifact where
  bytes : ByteArray
  filename : String
  nonempty : bytes.size ≠ 0

namespace Artifact

def ofBytes (bytes : ByteArray) (filename : String) : Except IngestError Artifact :=
  if h : bytes.size ≠ 0 then .ok ⟨bytes, filename, h⟩ else .error (.empty filename)

def ofFile (path : String) (outcome : Except IoError ByteArray) : Except IngestError Artifact :=
  match outcome with
  | .error e => .error (.unreadable path e)
  | .ok bytes => ofBytes bytes (Path.fileName path)

def isDroppable (path : String) : Bool :=
  Text.endsWith componentSuffix.toList (Path.fileName path).toList

/-- A dropped file; it counts as read only if its name is right. -/
def ofDropped (path : String) (outcome : Except IoError ByteArray) : Except IngestError Artifact :=
  if isDroppable path then ofFile path outcome else .error (.unsupportedFile (Path.fileName path))

/-- An example that has been read. -/
def ofExample (e : Example) (outcome : Except IoError ByteArray) : Except IngestError Artifact :=
  match outcome with
  | .error error => .error (.exampleUnavailable e error)
  | .ok bytes => ofBytes bytes e.fileName

def size (a : Artifact) : Nat := a.bytes.size

/-- The size in units of 1024 bytes, with two places. -/
def kibibytes (a : Artifact) : String := Decimal.kibibytes a.size

def describe (a : Artifact) : String :=
  let bytes := a.bytes.data.toList.map fun b => toString b.toNat
  "RawComponent \x7b bytes: " ++ Text.bracketed bytes ++ ", filename: " ++
    Text.quoted a.filename ++ " \x7d"

end Artifact

end ComponentHost
