/-
# `ComponentHost.Files.Tree` — files that are held in memory

A tree lists the files and the directories of one place by their names from there.
Every directory on the way to a listed name exists too.  Reading a path walks its
names one by one: each but the last must lead to a directory, going up from the
place leads to directories of which nothing more is known, and so does a path that
starts at the top.
-/
import ComponentHost.Files.Path

namespace ComponentHost

/-- A file with its bytes, or a directory. -/
inductive FileNode where
  | file (bytes : ByteArray)
  | directory

/-- Files and directories with the names that lead to them. -/
structure FileTree where
  entries : List (List String × FileNode)

namespace FileTree

/-- The tree of listed paths. -/
def ofPaths (entries : List (String × FileNode)) : FileTree :=
  ⟨entries.map fun e => (Path.names e.1, e.2)⟩

/-- What stands at the end of some names. -/
def find? (t : FileTree) (names : List String) : Option FileNode :=
  if names.isEmpty then some .directory
  else match t.entries.lookup names with
    | some node => some node
    | none => if t.entries.any fun e => names.isPrefixOf e.1 then some .directory else none

/-- A place a path has led to: names below the tree's own place, or somewhere outside it. -/
inductive Place where
  | inside (names : List String)
  | outside

def nodeAt (t : FileTree) : Place → Option FileNode
  | .inside names => t.find? names
  | .outside => some .directory

/-- Goes through the pieces of a path.  Each piece, the empty one included, wants a directory to
start from, and that is looked at before the piece itself. -/
def follow (t : FileTree) : Place → List String → Except IoError Place
  | place, [] => .ok place
  | place, piece :: rest =>
    match t.nodeAt place with
    | none => .error .notFound
    | some (.file _) => .error .notDirectory
    | some .directory =>
      if piece = "" || piece = "." then t.follow place rest
      else if Path.longestName < piece.utf8ByteSize then .error .nameTooLong
      else match place with
        | .outside => if piece = ".." then t.follow .outside rest else .error .notFound
        | .inside names =>
          if piece = ".." then
            if names.isEmpty then t.follow .outside rest else t.follow (.inside names.dropLast) rest
          else t.follow (.inside (names ++ [piece])) rest

def read (t : FileTree) (path : String) : Except IoError ByteArray :=
  if path.toList.contains '\x00' then .error .nulByte
  else if path.isEmpty then .error .notFound
  else if Path.longest < path.utf8ByteSize then .error .nameTooLong
  else
    let start := if path.toList.head? = some '/' then Place.outside else .inside []
    match t.follow start (Path.pieces path) with
    | .error e => .error e
    | .ok place =>
      match t.nodeAt place with
      | none => .error .notFound
      | some .directory => .error .isDirectory
      | some (.file bytes) => .ok bytes

end FileTree

end ComponentHost
