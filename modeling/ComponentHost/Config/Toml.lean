/-
# `ComponentHost.Config.Toml` — configuration text

A configuration is a TOML document whose values are texts and integers, one
setting a line.  A key is bare or in quotes; a text is basic or literal, on one line
or on several; an integer is decimal, hexadecimal, octal or binary, with
underscores between its digits.  Comments run to the end of the line.  Documents
with tables, dotted keys or values of other kinds are valid TOML but no
configuration, and the reader refuses them as well.
-/
import ComponentHost.Json.Parser

namespace ComponentHost.Toml

/-- The value of a setting. -/
inductive Value where
  | text (s : String)
  | integer (n : Int)
  deriving DecidableEq, Repr

/-! ## Characters -/

def isSpace (c : Char) : Bool := c == ' ' || c == '\t'

def skipSpace (cs : List Char) : List Char := cs.dropWhile isSpace

/-- A character that may stand in a comment or a text as it is. -/
def isVisible (c : Char) : Bool :=
  c == '\t' || (0x20 ≤ c.toNat && c.toNat != 0x7F)

/-- What follows the end of a line, if a line ends here. -/
def afterNewline? : List Char → Option (List Char)
  | '\n' :: cs => some cs
  | '\r' :: '\n' :: cs => some cs
  | _ => none

/-! ## Escapes -/

/-- The number that hexadecimal digits stand for. -/
def hexNumber? (digits : List Char) : Option Nat :=
  digits.foldl (fun n c => n.bind fun n => (Json.hexValue? c).map (n * 16 + ·)) (some 0)

/-- The character with that code point; surrogates are none. -/
def scalar? (n : Nat) : Option Char :=
  if n.isValidChar then some (Char.ofNat n) else none

/-- The character that a sequence after a backslash stands for, and what follows it. -/
def readEscape : List Char → Option (Char × List Char)
  | 'b' :: cs => some ('\x08', cs)
  | 't' :: cs => some ('\t', cs)
  | 'n' :: cs => some ('\n', cs)
  | 'f' :: cs => some ('\x0c', cs)
  | 'r' :: cs => some ('\r', cs)
  | '"' :: cs => some ('"', cs)
  | '\\' :: cs => some ('\\', cs)
  | 'u' :: cs =>
    if cs.length < 4 then none
    else ((hexNumber? (cs.take 4)).bind scalar?).map (·, cs.drop 4)
  | 'U' :: cs =>
    if cs.length < 8 then none
    else ((hexNumber? (cs.take 8)).bind scalar?).map (·, cs.drop 8)
  | _ => none

/-! ## Texts

The readers below take what stands after the opening quotes, and `fuel` bounds the
characters they go through. -/

/-- A basic text on one line. -/
def readBasic : Nat → List Char → Option (List Char × List Char)
  | 0, _ => none
  | _ + 1, '"' :: cs => some ([], cs)
  | fuel + 1, '\\' :: cs =>
    (readEscape cs).bind fun (c, cs) => (readBasic fuel cs).map fun (t, cs) => (c :: t, cs)
  | fuel + 1, c :: cs =>
    if isVisible c then (readBasic fuel cs).map fun (t, cs) => (c :: t, cs) else none
  | _ + 1, [] => none

/-- A literal text on one line. -/
def readLiteral : List Char → Option (List Char × List Char)
  | [] => none
  | c :: cs =>
    if c = '\'' then some ([], cs)
    else if isVisible c then (readLiteral cs).map fun (t, cs) => (c :: t, cs)
    else none

/-- The end of a text on several lines, if its three quotes stand here.  One or two more quotes in
front of them belong to the text. -/
def afterClosing? (q : Char) (cs : List Char) : Option (List Char × List Char) :=
  let run := cs.takeWhile (· == q)
  if run.length < 3 then none
  else some (List.replicate (min run.length 5 - 3) q, cs.drop (min run.length 5))

/-- Without the white space and the ends of lines in front. -/
def skipLines : List Char → List Char
  | '\r' :: '\n' :: cs => skipLines cs
  | c :: cs => if isSpace c || c == '\n' then skipLines cs else c :: cs
  | [] => []

/-- What follows a backslash at the end of a line, up from the next character that neither is white
space nor belongs to the end of a line. -/
def afterFold? (cs : List Char) : Option (List Char) :=
  (afterNewline? (skipSpace cs)).map skipLines

/-- A basic text on several lines. -/
def readLongBasic : Nat → List Char → Option (List Char × List Char)
  | 0, _ => none
  | fuel + 1, cs =>
    match afterClosing? '"' cs with
    | some answer => some answer
    | none =>
      match afterNewline? cs with
      | some cs => (readLongBasic fuel cs).map fun (t, cs) => ('\n' :: t, cs)
      | none =>
        match cs with
        | '\\' :: cs =>
          match afterFold? cs with
          | some cs => readLongBasic fuel cs
          | none =>
            (readEscape cs).bind fun (c, cs) =>
              (readLongBasic fuel cs).map fun (t, cs) => (c :: t, cs)
        | c :: cs =>
          if isVisible c then (readLongBasic fuel cs).map fun (t, cs) => (c :: t, cs) else none
        | [] => none

/-- A literal text on several lines. -/
def readLongLiteral : Nat → List Char → Option (List Char × List Char)
  | 0, _ => none
  | fuel + 1, cs =>
    match afterClosing? '\'' cs with
    | some answer => some answer
    | none =>
      match afterNewline? cs with
      | some cs => (readLongLiteral fuel cs).map fun (t, cs) => ('\n' :: t, cs)
      | none =>
        match cs with
        | c :: cs =>
          if isVisible c then (readLongLiteral fuel cs).map fun (t, cs) => (c :: t, cs) else none
        | [] => none

/-- A text on several lines starts behind the line that its opening quotes end. -/
def skipFirstNewline (cs : List Char) : List Char :=
  (afterNewline? cs).getD cs

/-- A text of any of the four kinds in front, and what follows it. -/
def readText (cs : List Char) : Option (List Char × List Char) :=
  match cs with
  | '"' :: '"' :: '"' :: cs => readLongBasic (cs.length + 1) (skipFirstNewline cs)
  | '"' :: cs => readBasic (cs.length + 1) cs
  | '\'' :: '\'' :: '\'' :: cs => readLongLiteral (cs.length + 1) (skipFirstNewline cs)
  | '\'' :: cs => readLiteral cs
  | _ => none

/-! ## Integers -/

/-- Digits with single underscores between them, without the underscores. -/
def joinDigits (isDigit : Char → Bool) : List Char → Option (List Char)
  | [] => none
  | [c] => if isDigit c then some [c] else none
  | c :: '_' :: cs => if isDigit c then (joinDigits isDigit cs).map (c :: ·) else none
  | c :: cs => if isDigit c then (joinDigits isDigit cs).map (c :: ·) else none

/-- The number that digits stand for in a base. -/
def inBase (base : Nat) (digits : List Char) : Nat :=
  digits.foldl (fun n c => n * base + (Json.hexValue? c).getD 0) 0

/-- A decimal number without a sign: no zero in front of other digits. -/
def decimal? (cs : List Char) : Option Nat :=
  if cs.head? = some '0' && cs.length ≠ 1 then none
  else (joinDigits Char.isDigit cs).map (inBase 10)

/-- An integer without bounds. -/
def unbounded? : List Char → Option Int
  | '0' :: 'x' :: cs => (joinDigits (fun c => (Json.hexValue? c).isSome) cs).map (inBase 16 ·)
  | '0' :: 'o' :: cs => (joinDigits (fun c => '0' ≤ c && c ≤ '7') cs).map (inBase 8 ·)
  | '0' :: 'b' :: cs => (joinDigits (fun c => c == '0' || c == '1') cs).map (inBase 2 ·)
  | '+' :: cs => (decimal? cs).map Int.ofNat
  | '-' :: cs => (decimal? cs).map fun n => -(n : Int)
  | cs => (decimal? cs).map Int.ofNat

def integer? (cs : List Char) : Option Int :=
  (unbounded? cs).bind fun n => if -Int.pow 2 63 ≤ n && n < Int.pow 2 63 then some n else none

/-! ## Settings -/

def isKeyChar (c : Char) : Bool :=
  c.isAlphanum || c == '_' || c == '-'

/-- A key in front, and what follows it. -/
def readKey (cs : List Char) : Option (List Char × List Char) :=
  match cs with
  | '"' :: cs => readBasic (cs.length + 1) cs
  | '\'' :: cs => readLiteral cs
  | cs =>
    match cs.takeWhile isKeyChar with
    | [] => none
    | key => some (key, cs.dropWhile isKeyChar)

def isTokenChar (c : Char) : Bool :=
  !(isSpace c || c == '#' || c == '\n' || c == '\r')

/-- A value in front, and what follows it. -/
def readValue (cs : List Char) : Option (Value × List Char) :=
  match cs with
  | '"' :: _ | '\'' :: _ => (readText cs).map fun (t, cs) => (.text (String.ofList t), cs)
  | cs => (integer? (cs.takeWhile isTokenChar)).map fun n => (.integer n, cs.dropWhile isTokenChar)

/-- What follows the end of a line, a comment before it included; at the end of the document,
nothing follows. -/
def afterLine? (cs : List Char) : Option (List Char) :=
  let rest := match skipSpace cs with
    | '#' :: cs => cs.dropWhile isVisible
    | cs => cs
  match rest with
  | [] => some []
  | cs => afterNewline? cs

/-- The settings of a document.  `fuel` bounds the number of its lines. -/
def readSettings : Nat → List Char → Option (List (String × Value))
  | 0, _ => none
  | _ + 1, [] => some []
  | fuel + 1, cs =>
    match afterLine? cs with
    | some rest => readSettings fuel rest
    | none => do
      let (key, cs) ← readKey (skipSpace cs)
      match skipSpace cs with
      | '=' :: cs =>
        let (value, cs) ← readValue (skipSpace cs)
        let rest ← afterLine? cs
        let others ← readSettings fuel rest
        return (String.ofList key, value) :: others
      | _ => none

/-- The settings of a text, which may start with a byte order mark. -/
def parse? (text : String) : Option (List (String × Value)) :=
  let cs := match text.toList with
    | '\ufeff' :: cs => cs
    | cs => cs
  readSettings (cs.length + 1) cs

end ComponentHost.Toml
