/-
# `ComponentHost.Json.Printer` — JSON text, and descriptions of values

`render` writes a value without blanks.  A float gets the fewest digits that read
back to it: positionally when its first digit stands for 10^-5 up to 10^15, always
with a fraction, and otherwise with a signed exponent.  Values that are no numbers
are written as `null`.  `describe` names the kind of every value.
-/
import ComponentHost.Decimal.Shortest
import ComponentHost.Json.Basic
import ComponentHost.Text.Quoted

namespace ComponentHost.Json

/-! ## Numbers -/

/-- The exponents of the first digit that are written positionally: from `plainFrom` up to, and
without, `plainBelow`. -/
structure FloatLayout where
  plainFrom : Int
  plainBelow : Int

/-- Floats are written positionally from 10^-5 up to below 10^16. -/
def floatLayout : FloatLayout := ⟨-5, 16⟩

/-- Decimal digits with the point `point` places after the first digit's left side; a zero is
written on a side that would be empty. -/
def positional (digits : List Char) (point : Int) : List Char :=
  if point ≤ 0 then '0' :: '.' :: List.replicate (-point).toNat '0' ++ digits
  else
    let whole := digits.take point.toNat
    let zeros := List.replicate (point.toNat - digits.length) '0'
    let fraction := digits.drop point.toNat
    whole ++ zeros ++ '.' :: (if fraction.isEmpty then ['0'] else fraction)

/-- Decimal digits with the point after the first one and a signed exponent. -/
def scientific (digits : List Char) (exponent : Int) : List Char :=
  let fraction := digits.drop 1
  let mark := if exponent < 0 then ['e', '-'] else ['e', '+']
  digits.take 1 ++ (if fraction.isEmpty then [] else '.' :: fraction) ++ mark ++
    Text.decimalDigits exponent.natAbs

/-- A decimal value above zero, laid out. -/
def layOut (layout : FloatLayout) (d : Decimal.Dec) : List Char :=
  let digits := Text.decimalDigits d.digits
  let first : Int := d.exponent + digits.length - 1
  if layout.plainFrom ≤ first && first < layout.plainBelow then positional digits (first + 1)
  else scientific digits first

def renderFloat (x : Float) : List Char :=
  if x.isNaN || x.isInf then "null".toList
  else
    let bits := x.toBits
    let sign := if bits >>> 63 = 1 then ['-'] else []
    let value := Decimal.Binary.ofBits bits
    sign ++ (if value.m = 0 then "0.0".toList else layOut floatLayout value.shortest)

def renderInt (n : Int) : List Char :=
  if n < 0 then '-' :: Text.decimalDigits n.natAbs else Text.decimalDigits n.natAbs

/-! ## Strings -/

/-- One character as it is written in a JSON string. -/
def escapeChar (c : Char) : List Char :=
  if c = '"' then ['\\', '"']
  else if c = '\\' then ['\\', '\\']
  else if c = '\x08' then ['\\', 'b']
  else if c = '\x0c' then ['\\', 'f']
  else if c = '\n' then ['\\', 'n']
  else if c = '\r' then ['\\', 'r']
  else if c = '\t' then ['\\', 't']
  else if c.toNat < 0x20 then ['\\', 'u'] ++ Text.padZeros 4 (Text.hexDigits c.toNat)
  else [c]

def renderString (s : String) : List Char :=
  '"' :: s.toList.flatMap escapeChar ++ ['"']

/-! ## Values -/

mutual

/-- A value as JSON text, without blanks. -/
def render : Json → List Char
  | .null => "null".toList
  | .bool true => "true".toList
  | .bool false => "false".toList
  | .integer n => renderInt n.val
  | .float x => renderFloat x
  | .string s => renderString s
  | .array items => '[' :: renderItems items ++ [']']
  | .object members => '\x7b' :: renderMembers members ++ ['\x7d']

def renderItems : List Json → List Char
  | [] => []
  | [j] => render j
  | j :: rest => render j ++ ',' :: renderItems rest

def renderMembers : List (String × Json) → List Char
  | [] => []
  | [(k, v)] => renderString k ++ ':' :: render v
  | (k, v) :: rest => renderString k ++ ':' :: render v ++ ',' :: renderMembers rest

end

/-- A value as JSON text, without blanks. -/
def compress (j : Json) : String :=
  String.ofList j.render

/-! ## Descriptions -/

mutual

/-- A value with the kind of each of its parts. -/
def describe : Json → String
  | .null => "Null"
  | .bool b => "Bool(" ++ (if b then "true" else "false") ++ ")"
  | .integer n => "Number(" ++ String.ofList (renderInt n.val) ++ ")"
  | .float x => "Number(" ++ String.ofList (renderFloat x) ++ ")"
  | .string s => "String(" ++ Text.quoted s ++ ")"
  | .array items => "Array " ++ Text.bracketed (describeItems items)
  | .object members => "Object \x7b" ++ String.intercalate ", " (describeMembers members) ++ "\x7d"

def describeItems : List Json → List String
  | [] => []
  | j :: rest => describe j :: describeItems rest

def describeMembers : List (String × Json) → List String
  | [] => []
  | (k, v) :: rest => (Text.quoted k ++ ": " ++ describe v) :: describeMembers rest

end

end ComponentHost.Json
