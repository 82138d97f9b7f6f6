/-
# `ComponentHost.Json.Number` — reading the numbers of JSON text

Digits alone make an integer when it fits 64 bits.  Anything else is a float.  Its
digits are taken into one 64-bit number as long as they fit; what no longer fits
only counts towards the power of ten.  The power is then applied in one step of at
most 308, or in several, so the result is not always the nearest float.
-/
import ComponentHost.Json.Basic

namespace ComponentHost.Json

/-! ## The parts of a numeral -/

/-- The significant digits so far, and the power of ten they are to be taken with. -/
structure Scaled where
  significand : Nat
  exponent : Int

def digitValue (c : Char) : Nat :=
  c.toNat - 48

/-- The significand with one more digit, unless it would leave 64 bits. -/
def pushDigit (significand : Nat) (c : Char) : Option Nat :=
  let next := significand * 10 + digitValue c
  if next < Nat.pow 2 64 then some next else none

/-- Whole digits: each is taken until one does not fit; from there on each counts as a power. -/
def takeWhole : Scaled → List Char → Scaled
  | s, [] => s
  | s, c :: cs =>
    match pushDigit s.significand c with
    | some n => takeWhole ⟨n, s.exponent⟩ cs
    | none => ⟨s.significand, s.exponent + 1 + cs.length⟩

/-- Fraction digits: each is taken until one does not fit; the rest are ignored. -/
def takeFraction : Scaled → List Char → Scaled
  | s, [] => s
  | s, c :: cs =>
    match pushDigit s.significand c with
    | some n => takeFraction ⟨n, s.exponent - 1⟩ cs
    | none => s

/-! ## From parts to a value -/

/-- The float `x · 10^exponent`, in steps of at most 308 powers; none when it is out of range. -/
def scaleFloat : Nat → Float → Int → Option Float
  | 0, x, _ => some x
  | steps + 1, x, exponent =>
    if exponent.natAbs ≤ 308 then
      let power := Float.ofScientific 1 false exponent.natAbs
      let scaled := if exponent ≥ 0 then x * power else x / power
      if scaled.isInf then none else some scaled
    else if x == 0 then some x
    else if exponent > 0 then none
    else scaleFloat steps (x / Float.ofScientific 1 false 308) (exponent + 308)

/-- The float with the given digits, power and sign; none when it is out of range. -/
def scaledFloat (negative : Bool) (s : Scaled) : Option Json :=
  (scaleFloat (s.exponent.natAbs / 308 + 2) (Float.ofNat s.significand) s.exponent).map fun x =>
    .float (if negative then -x else x)

/-- The value of digits without fraction and exponent: an integer when it fits and is not a
negative zero, else a float. -/
def wholeNumber (negative : Bool) (digits : List Char) : Option Json :=
  let s := takeWhole ⟨0, 0⟩ digits
  let n : Int := if negative then -(s.significand : Int) else s.significand
  if h : -Int.pow 2 63 ≤ n ∧ n < Int.pow 2 64 then
    if s.exponent = 0 && !(negative && n == 0) then some (.integer ⟨n, h⟩)
    else scaledFloat negative s
  else scaledFloat negative s

/-- The largest power of ten that a numeral may write down. -/
def exponentLimit : Nat := Nat.pow 2 31 - 1

/-- The value of digits with a fraction or an exponent. -/
def scaledNumber (negative : Bool) (whole fraction : List Char) (down : Bool) (power : List Char) :
    Option Json :=
  let s := takeFraction (takeWhole ⟨0, 0⟩ whole) fraction
  let written := power.foldl (fun n c => n * 10 + digitValue c) 0
  if written ≤ exponentLimit then
    let shift : Int := if down then -(written : Int) else written
    scaledFloat negative ⟨s.significand, s.exponent + shift⟩
  else if s.significand ≠ 0 && !down then none
  else some (.float (if negative then -0.0 else 0.0))

/-! ## Reading -/

/-- The digits in front, and what follows them. -/
def spanDigits (cs : List Char) : List Char × List Char :=
  (cs.takeWhile Char.isDigit, cs.dropWhile Char.isDigit)

/-- A fraction part, if the text goes on with a point; the point needs a digit after it. -/
def readFraction : List Char → Option (Option (List Char) × List Char)
  | '.' :: cs =>
    match spanDigits cs with
    | ([], _) => none
    | (digits, rest) => some (some digits, rest)
  | cs => some (none, cs)

/-- The sign of an exponent: whether it counts downwards. -/
def readSign : List Char → Bool × List Char
  | '-' :: cs => (true, cs)
  | '+' :: cs => (false, cs)
  | cs => (false, cs)

/-- An exponent part, if the text goes on with one; it needs at least one digit. -/
def readExponent : List Char → Option (Option (Bool × List Char) × List Char)
  | c :: cs =>
    if c = 'e' || c = 'E' then
      match readSign cs with
      | (down, cs) =>
        match spanDigits cs with
        | ([], _) => none
        | (digits, rest) => some (some (down, digits), rest)
    else some (none, c :: cs)
  | [] => some (none, [])

/-- A number without its sign: no zero in front of other digits. -/
def readUnsigned (negative : Bool) (cs : List Char) : Option (Json × List Char) :=
  match spanDigits cs with
  | ([], _) => none
  | (whole, rest) =>
    if whole.head? = some '0' && whole.length ≠ 1 then none
    else do
      let (fraction, rest) ← readFraction rest
      let (power, rest) ← readExponent rest
      match fraction, power with
      | none, none => (wholeNumber negative whole).map (·, rest)
      | _, _ =>
        let (down, digits) := power.getD (false, [])
        (scaledNumber negative whole (fraction.getD []) down digits).map (·, rest)

def readNumber : List Char → Option (Json × List Char)
  | '-' :: cs => readUnsigned true cs
  | cs => readUnsigned false cs

end ComponentHost.Json
