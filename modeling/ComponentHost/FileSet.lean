/-
# `ComponentHost.FileSet` — generated files

A file set is what a transpiler produces: files with distinct names, in the order
in which their names first came up.  Files whose names end in `.wasm` are binary
resources.
-/
import ComponentHost.KeyedList
import ComponentHost.Text.Blank

namespace ComponentHost

/-- The ending of the names of binary resources. -/
def binarySuffix : String := ".wasm"

/-- The name is that of a binary resource. -/
def isBinaryName (name : String) : Bool :=
  Text.endsWith binarySuffix.toList name.toList

/-- Why a file set has no entry source. -/
inductive EntryError where
  | missing (name : String)
  /-- The bytes of the file are no text. -/
  | notText (name : String)
  deriving DecidableEq, Repr

/-- Files with distinct names. -/
structure FileSet where
  files : List (String × ByteArray)
  distinct : (files.map (·.1)).Nodup

namespace FileSet

def empty : FileSet := ⟨[], .nil⟩

/-- Adds a file; one of the same name is replaced where it stands. -/
def insert (s : FileSet) (name : String) (bytes : ByteArray) : FileSet :=
  ⟨setKey name bytes s.files, nodup_keys_setKey name bytes s.distinct⟩

def ofList (files : List (String × ByteArray)) : FileSet :=
  files.foldl (fun s f => s.insert f.1 f.2) empty

/-- The bytes of the file with that name. -/
def get? (s : FileSet) (name : String) : Option ByteArray :=
  s.files.lookup name

def names (s : FileSet) : List String :=
  s.files.map (·.1)

/-- The binary resources, in order. -/
def binaries (s : FileSet) : List (String × ByteArray) :=
  s.files.filter fun f => isBinaryName f.1

/-- The text of the file with that name. -/
def entrySource (s : FileSet) (name : String) : Except EntryError String :=
  match s.get? name with
  | none => .error (.missing name)
  | some bytes =>
    match String.fromUTF8? bytes with
    | some text => .ok text
    | none => .error (.notText name)

def size (s : FileSet) : Nat := s.files.length

end FileSet

end ComponentHost
