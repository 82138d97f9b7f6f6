/-
# `ComponentHost.Files.Path` — paths, and what reading them can fail with

A path is a text with slashes between its names.  An empty name and the name `.`
stay where they are; `..` goes up.
-/
import ComponentHost.Text.Blank

namespace ComponentHost

/-- Why a file could not be read. -/
inductive IoError where
  | notFound
  | notDirectory
  | isDirectory
  /-- The path or one of its names has too many bytes. -/
  | nameTooLong
  /-- The path holds a NUL character. -/
  | nulByte
  /-- The bytes are no text. -/
  | notText
  | other (text : String)
  deriving DecidableEq, Repr

def IoError.message : IoError → String
  | notFound => "No such file or directory (os error 2)"
  | notDirectory => "Not a directory (os error 20)"
  | isDirectory => "Is a directory (os error 21)"
  | nameTooLong => "File name too long (os error 36)"
  | nulByte => "file name contained an unexpected NUL byte"
  | notText => "stream did not contain valid UTF-8"
  | other text => text

namespace Path

/-- The pieces between the slashes. -/
def pieces (path : String) : List String :=
  (Text.splitAt '/' path.toList).map String.ofList

/-- The names of a path, without those that stay where they are. -/
def names (path : String) : List String :=
  (pieces path).filter fun p => p != "" && p != "."

/-- The most bytes that a path can have. -/
def longest : Nat := 4095

/-- The most bytes that a name in a path can have. -/
def longestName : Nat := 255

/-- The last name of a path, unless the path ends by going up. -/
def fileName? (path : String) : Option String :=
  match (names path).getLast? with
  | some ".." | none => none
  | some name => some name

def fileName (path : String) : String :=
  (fileName? path).getD path

/-- The path of a file in a directory. -/
def join (directory file : String) : String :=
  if directory.isEmpty then file
  else if directory.toList.getLast? = some '/' then directory ++ file
  else directory ++ "/" ++ file

end Path

end ComponentHost
