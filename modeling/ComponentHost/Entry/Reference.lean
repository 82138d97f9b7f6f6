/-
# `ComponentHost.Entry.Reference` — references to files, and relinking them

An entry source refers to a file in three shapes:

    from 'NAME'        import('NAME')        new URL('NAME', import.meta.url)

with white space between the pieces, either quotation mark on each side, and
possibly `./` in front of the name.  Relinking replaces the references to files
that have a locator, one shape after the other over the whole text.  Within one
shape references are looked for from left to right; one that has no locator is left
as it is, and the search goes on behind it.
-/
import ComponentHost.Entry.Token

namespace ComponentHost.Entry

/-! ## Shapes -/

/-- A shape of reference: the pieces before and after the quoted name, and the text that is
written around a locator. -/
structure Shape where
  before : List Token
  after : List Token
  lead : List Char
  tail : List Char

def Shape.static : Shape where
  before := [kw "from", .gap]
  after := []
  lead := "from '".toList
  tail := "'".toList

def Shape.deferred : Shape where
  before := [kw "import", .space, kw "(", .space]
  after := [.space, kw ")"]
  lead := "import('".toList
  tail := "')".toList

def Shape.relative : Shape where
  before := [kw "new", .gap, kw "URL", .space, kw "(", .space]
  after := [.space, kw ",", .space, kw "import.meta.url", .space, kw ")"]
  lead := "new URL('".toList
  tail := "')".toList

/-- The name without one `./` in front, unless nothing would be left. -/
def plainName : List Char → List Char
  | '.' :: '/' :: c :: cs => c :: cs
  | cs => cs

/-- A reference of the shape in front of a text: the name it refers to, and what follows. -/
def Shape.read (s : Shape) (cs : List Char) : Option (List Char × List Char) := do
  let cs ← eat s.before cs
  let (text, cs) ← readQuoted cs
  let rest ← eat s.after cs
  return (plainName text, rest)

/-! ## Segments -/

/-- A piece of a text: one character, or a reference with the name it refers to. -/
inductive Segment where
  | plain (c : Char)
  | reference (text name : List Char)
  deriving DecidableEq, Repr

def Segment.text : Segment → List Char
  | .plain c => [c]
  | .reference text _ => text

/-- The segments of a text whose first `skip` characters belong to a reference already found. -/
def Shape.segmentsFrom (s : Shape) : Nat → List Char → List Segment
  | _, [] => []
  | skip + 1, _ :: cs => s.segmentsFrom skip cs
  | 0, c :: cs =>
    match s.read (c :: cs) with
    | some (name, rest) =>
      .reference ((c :: cs).take (cs.length + 1 - rest.length)) name ::
        s.segmentsFrom (cs.length - rest.length) cs
    | none => .plain c :: s.segmentsFrom 0 cs

/-- The segments of a text: the references of the shape, found from left to right, and the
characters between them. -/
def Shape.segments (s : Shape) (cs : List Char) : List Segment :=
  s.segmentsFrom 0 cs

/-! ## Relinking -/

/-- A segment as it is written once references with a locator are replaced. -/
def Shape.write (s : Shape) (target : List Char → Option (List Char)) : Segment → List Char
  | .plain c => [c]
  | .reference text name =>
    match target name with
    | some locator => s.lead ++ locator ++ s.tail
    | none => text

def Shape.relink (s : Shape) (target : List Char → Option (List Char)) (cs : List Char) :
    List Char :=
  (s.segments cs).flatMap (s.write target)

/-- The text with its references replaced, static imports first, then deferred imports, then
relative locations. -/
def relinkText (target : List Char → Option (List Char)) (cs : List Char) : List Char :=
  Shape.relative.relink target (Shape.deferred.relink target (Shape.static.relink target cs))

/-- The source with the references to files that have a locator replaced. -/
def relink (target : String → Option String) (source : String) : String :=
  let target := fun name => (target (String.ofList name)).map String.toList
  String.ofList (relinkText target source.toList)

end ComponentHost.Entry
