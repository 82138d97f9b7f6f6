/-
# `ComponentHost.Json.Parser` — reading JSON text

The strict grammar: blanks are space, tab, carriage return and line feed; no
comments, no trailing commas, no raw control characters in strings, no escape of
half a surrogate pair.  Arrays and objects nest at most `depthLimit` deep.  The
reader of values is structural in the depth that is left; items and members are
read with the length of the text as fuel.
-/
import ComponentHost.Json.Number

namespace ComponentHost.Json

/-! ## Blanks and fixed words -/

/-- The four characters that may stand between tokens. -/
def isJsonBlank (c : Char) : Bool :=
  c == ' ' || c == '\t' || c == '\n' || c == '\r'

def skipBlanks (cs : List Char) : List Char :=
  cs.dropWhile isJsonBlank

/-- What follows `word`, when the text starts with it. -/
def afterWord : List Char → List Char → Option (List Char)
  | [], cs => some cs
  | w :: ws, c :: cs => if w = c then afterWord ws cs else none
  | _ :: _, [] => none

/-! ## Strings -/

/-- The value of a hexadecimal digit, in either case. -/
def hexValue? (c : Char) : Option Nat :=
  if '0' ≤ c && c ≤ '9' then some (c.toNat - 48)
  else if 'a' ≤ c && c ≤ 'f' then some (c.toNat - 87)
  else if 'A' ≤ c && c ≤ 'F' then some (c.toNat - 55)
  else none

/-- The 16-bit unit that four hexadecimal digits name. -/
def unit? (a b c d : Char) : Option Nat := do
  let a ← hexValue? a
  let b ← hexValue? b
  let c ← hexValue? c
  let d ← hexValue? d
  return ((a * 16 + b) * 16 + c) * 16 + d

/-- The character a letter after a backslash stands for. -/
def unescape? : Char → Option Char
  | '"' => some '"'
  | '\\' => some '\\'
  | '/' => some '/'
  | 'b' => some '\x08'
  | 'f' => some '\x0c'
  | 'n' => some '\n'
  | 'r' => some '\r'
  | 't' => some '\t'
  | _ => none

/-- The characters of a string up to its closing quote, and what follows it. -/
def readText : List Char → Option (List Char × List Char)
  | [] => none
  | '"' :: rest => some ([], rest)
  | '\\' :: 'u' :: a :: b :: c :: d :: rest =>
    match unit? a b c d with
    | none => none
    | some high =>
      if 0xD800 ≤ high && high < 0xDC00 then
        match rest with
        | '\\' :: 'u' :: e :: f :: g :: h :: rest =>
          match unit? e f g h with
          | none => none
          | some low =>
            if 0xDC00 ≤ low && low < 0xE000 then
              (readText rest).map fun (text, rest) =>
                (Char.ofNat (0x10000 + (high - 0xD800) * 0x400 + (low - 0xDC00)) :: text, rest)
            else none
        | _ => none
      else if 0xDC00 ≤ high && high < 0xE000 then none
      else (readText rest).map fun (text, rest) => (Char.ofNat high :: text, rest)
  | '\\' :: l :: rest =>
    match unescape? l with
    | none => none
    | some c => (readText rest).map fun (text, rest) => (c :: text, rest)
  | c :: rest =>
    if c = '\\' || c.toNat < 0x20 then none
    else (readText rest).map fun (text, rest) => (c :: text, rest)

/-- A string in front of a text, and what follows it. -/
def readString : List Char → Option (String × List Char)
  | '"' :: cs => (readText cs).map fun (text, rest) => (String.ofList text, rest)
  | _ => none

/-! ## Arrays and objects -/

/-- The items of an array from the first on, up to the closing bracket.  `fuel` bounds their
number. -/
def readItems (value : List Char → Option (Json × List Char)) :
    Nat → List Char → Option (List Json × List Char)
  | 0, _ => none
  | fuel + 1, cs =>
    match value (skipBlanks cs) with
    | none => none
    | some (j, rest) =>
      match skipBlanks rest with
      | ']' :: rest => some ([j], rest)
      | ',' :: rest => (readItems value fuel rest).map fun (items, rest) => (j :: items, rest)
      | _ => none

/-- The members of an object from the first on, up to the closing brace.  `fuel` bounds their
number. -/
def readMembers (value : List Char → Option (Json × List Char)) :
    Nat → List Char → Option (List (String × Json) × List Char)
  | 0, _ => none
  | fuel + 1, cs =>
    match readString (skipBlanks cs) with
    | none => none
    | some (key, rest) =>
      match skipBlanks rest with
      | ':' :: rest =>
        match value (skipBlanks rest) with
        | none => none
        | some (j, rest) =>
          match skipBlanks rest with
          | '\x7d' :: rest => some ([(key, j)], rest)
          | ',' :: rest =>
            (readMembers value fuel rest).map fun (members, rest) => ((key, j) :: members, rest)
          | _ => none
      | _ => none

/-! ## Values -/

/-- A value in front of a text, and what follows it.  `depth` bounds the nesting of arrays and
objects. -/
def readValue : Nat → List Char → Option (Json × List Char)
  | _, [] => none
  | depth, c :: cs =>
    match c with
    | '[' =>
      match depth with
      | 0 => none
      | depth + 1 =>
        match skipBlanks cs with
        | ']' :: rest => some (.array [], rest)
        | rest => (readItems (readValue depth) rest.length rest).map fun (items, rest) =>
            (.array items, rest)
    | '\x7b' =>
      match depth with
      | 0 => none
      | depth + 1 =>
        match skipBlanks cs with
        | '\x7d' :: rest => some (.object [], rest)
        | rest => (readMembers (readValue depth) rest.length rest).map fun (members, rest) =>
            (ofMembers members, rest)
    | '"' => (readText cs).map fun (text, rest) => (.string (String.ofList text), rest)
    | 'n' => (afterWord "ull".toList cs).map (.null, ·)
    | 't' => (afterWord "rue".toList cs).map (.bool true, ·)
    | 'f' => (afterWord "alse".toList cs).map (.bool false, ·)
    | c => readNumber (c :: cs)

def depthLimit : Nat := 127

def parseWithin (depth : Nat) (cs : List Char) : Option Json :=
  match readValue depth (skipBlanks cs) with
  | some (j, rest) => if (skipBlanks rest).isEmpty then some j else none
  | none => none

/-- The value of a JSON text. -/
def parse? (text : String) : Option Json :=
  parseWithin depthLimit text.toList

end ComponentHost.Json
