/-
# `ComponentHost.Component.Outline` — what the text of a component or module surely holds

The textual form is made of parentheses, words and quoted strings.  Only two outlines
are read here: a component without any content, and a module of functions that do
nothing and are at most exported.  A text outside of them may hold anything, and
nothing is claimed of it; so comments, escapes and all other fields are left out.
-/

namespace ComponentHost.Outline

/-! ## Lexemes -/

/-- A piece of a text. -/
inductive Lexeme where
  | opening
  | closing
  | word (cs : List Char)
  | quoted (cs : List Char)
  deriving DecidableEq, Repr

def isWordChar (c : Char) : Bool :=
  c.isAlphanum || "!#$%&'*+-./:<=>?@\\^_|~\x60".toList.contains c

/-- A character between two lexemes. -/
def isGap (c : Char) : Bool :=
  c == ' ' || c == '\t' || c == '\n' || c == '\r'

/-- A character that stands for itself in a quoted string. -/
def isLiteral (c : Char) : Bool :=
  0x20 ≤ c.toNat && c.toNat < 0x7F && c != '"' && c != '\\'

/-- What a reader is in the middle of, its characters last first. -/
inductive Pending where
  | nothing
  | word (seen : List Char)
  | quoted (seen : List Char)
  /-- A string has just ended, so neither a word nor a string can follow without a gap. -/
  | ended
  deriving DecidableEq, Repr

def Lexeme.ofChar? (c : Char) : Option Lexeme :=
  if c = '(' then some .opening else if c = ')' then some .closing else none

/-- Reads on, behind the lexemes `found`, which are last first. -/
def scan : Pending → List Lexeme → List Char → Option (List Lexeme)
  | .quoted _, _, [] => none
  | .word seen, found, [] => some (.word seen.reverse :: found).reverse
  | _, found, [] => some found.reverse
  | .quoted seen, found, c :: cs =>
    if c = '"' then scan .ended (.quoted seen.reverse :: found) cs
    else if isLiteral c then scan (.quoted (c :: seen)) found cs
    else none
  | .word seen, found, c :: cs =>
    if isWordChar c then scan (.word (c :: seen)) found cs
    else if isGap c then scan .nothing (.word seen.reverse :: found) cs
    else match Lexeme.ofChar? c with
      | some l => scan .nothing (l :: .word seen.reverse :: found) cs
      | none => none
  | pending, found, c :: cs =>
    if isGap c then scan .nothing found cs
    else match Lexeme.ofChar? c with
      | some l => scan .nothing (l :: found) cs
      | none =>
        if pending = .ended then none
        else if isWordChar c then scan (.word [c]) found cs
        else if c = '"' then scan (.quoted []) found cs
        else none

/-- The lexemes of a text, if it has no other pieces. -/
def lexemes? (cs : List Char) : Option (List Lexeme) :=
  scan .nothing [] cs

/-! ## Outlines -/

/-- A word that names something: a dollar sign and at least one further character. -/
def isName : List Char → Bool
  | '$' :: _ :: _ => true
  | _ => false

def Lexeme.named (w : String) : Lexeme := .word w.toList

/-- What stands in parentheses behind the word `w` and a name, where there is one; the group is the
whole text. -/
def group? (w : String) : List Lexeme → Option (List Lexeme)
  | .opening :: l :: ls =>
    if l = .named w ∧ ls.getLast? = some .closing then
      match ls.dropLast with
      | .word n :: inner => if isName n then some inner else none
      | inner => some inner
    else none
  | _ => none

/-- The lexemes are fields of a module: functions without a body, in each any number of export
names.  With `inside` the first function has been opened already. -/
def areFunctions : (inside : Bool) → List Lexeme → Bool
  | inside, [] => !inside
  | false, .opening :: l :: ls => l == .named "func" && areFunctions true ls
  | true, .opening :: l :: .quoted _ :: .closing :: ls =>
    l == .named "export" && areFunctions true ls
  | true, .closing :: ls => areFunctions false ls
  | _, _ => false

/-- A component without content. -/
def isComponent (ls : List Lexeme) : Bool :=
  group? "component" ls == some []

/-- A module of functions that do nothing. -/
def isModule (ls : List Lexeme) : Bool :=
  (group? "module" ls).any (areFunctions false)

end ComponentHost.Outline
