/-
# `ComponentHost.Component.Binary` — what the binary form of a component surely holds

A binary starts with a magic number and a version, and sections follow.  A section is
its kind, its size and as many bytes.  Only components without any content are read
here: lists of no items, notes for other tools, the empty module, and components of
that sort in turn.  A binary outside of them may hold anything, and nothing is claimed
of it.
-/

namespace ComponentHost.Binary

/-! ## Reading -/

/-- An unsigned number below `2 ^ bits` in groups of seven bits, the lowest first, and what follows
it.  The top bit of a byte says that another group comes. -/
def number? : (bits : Nat) → List UInt8 → Option (Nat × List UInt8)
  | _, [] => none
  | bits, b :: bs =>
    if b < 0x80 then
      if b.toNat < 2 ^ bits then some (b.toNat, bs) else none
    else if 7 < bits then
      (number? (bits - 7) bs).map fun r => (2 ^ 7 * r.1 + (b.toNat - 0x80), r.2)
    else none

/-- A size, as many bytes, and what follows them. -/
def sized? (bytes : List UInt8) : Option (List UInt8 × List UInt8) := do
  let (size, rest) ← number? 32 bytes
  let (content, others) := rest.splitAt size
  if content.length = size then some (content, others) else none

/-- The kind and the content of each section.  Each has at least two bytes, so the length of the
input bounds how many there are. -/
def sections? : (fuel : Nat) → List UInt8 → Option (List (UInt8 × List UInt8))
  | _, [] => some []
  | 0, _ => none
  | fuel + 1, kind :: bytes => do
    let (content, rest) ← sized? bytes
    let others ← sections? fuel rest
    some ((kind, content) :: others)

/-! ## Forms -/

def magicNumber : List UInt8 := [0x00, 0x61, 0x73, 0x6d]

def componentPreamble : List UInt8 := magicNumber ++ [0x0d, 0x00, 0x01, 0x00]

/-- What a binary module starts with, and the whole of the empty one. -/
def modulePreamble : List UInt8 := magicNumber ++ [0x01, 0x00, 0x00, 0x00]

def isBinary (bytes : List UInt8) : Bool :=
  magicNumber.isPrefixOf bytes

/-- The longest text that a binary may hold, in bytes. -/
def longestText : Nat := 100000

/-- A note for other tools: a name and anything after it. -/
def isNote (content : List UInt8) : Bool :=
  match sized? content with
  | some (name, _) => name.length ≤ longestText && (String.fromUTF8? ⟨name.toArray⟩).isSome
  | none => false

def isEmptyList (content : List UInt8) : Bool :=
  number? 32 content == some (0, [])

/-- The kinds of sections that list instances, types, aliases, imports and exports. -/
def listKinds : List UInt8 := [2, 3, 5, 6, 7, 8, 10, 11]

/-- A component without content, with at most `depth` others around one another in it. -/
def isBareWithin : (depth : Nat) → List UInt8 → Bool
  | 0, _ => false
  | depth + 1, bytes =>
    componentPreamble.isPrefixOf bytes &&
      match sections? bytes.length (bytes.drop componentPreamble.length) with
      | some sections => sections.all fun (kind, content) =>
          if kind = 0 then isNote content
          else if kind = 1 then content == modulePreamble
          else if kind = 4 then isBareWithin depth content
          else listKinds.contains kind && isEmptyList content
      | none => false

/-- A component without content.  Each around another one is longer, so the length of the input
bounds how many there are. -/
def isBare (bytes : List UInt8) : Bool :=
  isBareWithin bytes.length bytes

end ComponentHost.Binary
