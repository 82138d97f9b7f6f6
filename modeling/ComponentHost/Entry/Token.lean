/-
# `ComponentHost.Entry.Token` — the pieces that entry sources are written in

Statements and references are sequences of fixed words, gaps of white space and
quoted texts.  A gap takes all the white space there is, and no word starts with
white space, so each piece can be read in one way only.
-/
import ComponentHost.Text.Word

namespace ComponentHost.Entry

/-! ## Words and gaps -/

/-- A piece of a pattern. -/
inductive Token where
  /-- These characters. -/
  | word (cs : List Char)
  /-- White space, if there is any. -/
  | space
  /-- White space, at least one character of it. -/
  | gap
  deriving DecidableEq, Repr

/-- The word with the characters of a string. -/
def kw (s : String) : Token := .word s.toList

/-- What follows `word`, when the text starts with it. -/
def afterText : List Char → List Char → Option (List Char)
  | [], cs => some cs
  | w :: ws, c :: cs => if w = c then afterText ws cs else none
  | _ :: _, [] => none

/-- What follows a piece, when the text starts with it. -/
def Token.eat : Token → List Char → Option (List Char)
  | .word w, cs => afterText w cs
  | .space, cs => some (Text.trimStart cs)
  | .gap, c :: cs => if Text.isBlank c then some (Text.trimStart cs) else none
  | .gap, [] => none

/-- What follows a sequence of pieces, when the text starts with them. -/
def eat : List Token → List Char → Option (List Char)
  | [], cs => some cs
  | t :: ts, cs => (t.eat cs).bind (eat ts)

/-! ## Quoted texts and names -/

def isQuote (c : Char) : Bool :=
  c == '\'' || c == '"'

/-- A text between two quotation marks of either kind, and what follows it.  The text is not empty
and holds no quotation mark. -/
def readQuoted : List Char → Option (List Char × List Char)
  | [] => none
  | c :: cs =>
    if isQuote c then
      match cs.takeWhile (!isQuote ·), cs.dropWhile (!isQuote ·) with
      | [], _ => none
      | _, [] => none
      | text, _ :: rest => some (text, rest)
    else none

/-- A name, taken as far as it goes, and what follows it. -/
def readName : List Char → Option (List Char × List Char)
  | [] => none
  | c :: cs =>
    if Text.isNameStart c then
      some (c :: cs.takeWhile Text.isNamePart, cs.dropWhile Text.isNamePart)
    else none

end ComponentHost.Entry
