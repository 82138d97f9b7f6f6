/-
# `ComponentHost.Decimal.Fixed` — quotients with a fixed number of places

A quotient of natural numbers is written with two places; a half goes to the even
neighbour.
-/
import ComponentHost.Text.Quoted

namespace ComponentHost.Decimal

/-- The quotient `num / den` rounded to a whole number, a half to the even neighbour. -/
def roundQuotient (num den : Nat) : Nat :=
  let whole := num / den
  let rest := num % den
  if 2 * rest < den then whole
  else if den < 2 * rest then whole + 1
  else if whole % 2 = 0 then whole else whole + 1

/-- A number of hundredths, written with a point before the last two digits. -/
def hundredths (n : Nat) : String :=
  let places := Text.padZeros 2 (Text.decimalDigits (n % 100))
  String.ofList (Text.decimalDigits (n / 100) ++ '.' :: places)

/-- The quotient `num / den` written with two places. -/
def twoPlaces (num den : Nat) : String :=
  hundredths (roundQuotient (100 * num) den)

def kibibytes (bytes : Nat) : String :=
  twoPlaces bytes 1024

end ComponentHost.Decimal
