/-
# `ComponentHost.Text.Quoted` — texts in quotes, for descriptions

A description of a value shows its texts between double quotes.  A quote and a
backslash get a backslash in front, the four characters NUL, tab, carriage return
and line feed get a letter, and every other character that is not printable is
written by its code point, as in `\u{301}`.  An apostrophe stands for itself.
-/
import ComponentHost.Text.Printable

namespace ComponentHost.Text

/-! ## Numerals -/

/-- The digits of `n` in lower-case hexadecimal, none in front that is not needed. -/
def hexDigits (n : Nat) : List Char :=
  Nat.toDigits 16 n

/-- The digits of `n` in decimal. -/
def decimalDigits (n : Nat) : List Char :=
  Nat.toDigits 10 n

/-- The digits with zeros in front, up to `width` characters. -/
def padZeros (width : Nat) (digits : List Char) : List Char :=
  List.replicate (width - digits.length) '0' ++ digits

/-! ## Quoting -/

/-- One character as it is written between quotes. -/
def quoteChar (c : Char) : List Char :=
  if c = '"' then ['\\', '"']
  else if c = '\\' then ['\\', '\\']
  else if c = '\x00' then ['\\', '0']
  else if c = '\t' then ['\\', 't']
  else if c = '\r' then ['\\', 'r']
  else if c = '\n' then ['\\', 'n']
  else if isPrintable c then [c]
  else ['\\', 'u', '\x7b'] ++ hexDigits c.toNat ++ ['\x7d']

/-- A text between double quotes. -/
def quote (cs : List Char) : List Char :=
  '"' :: cs.flatMap quoteChar ++ ['"']

/-- A string between double quotes. -/
def quoted (s : String) : String :=
  String.ofList (quote s.toList)

/-- Descriptions in brackets, with a comma and a space between two neighbours. -/
def bracketed (items : List String) : String :=
  "[" ++ String.intercalate ", " items ++ "]"

end ComponentHost.Text
