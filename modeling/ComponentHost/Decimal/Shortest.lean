/-
# `ComponentHost.Decimal.Shortest` — the fewest digits that read back to a value

A finite binary value is `m · 2^q`.  The reals that round to it form an interval
whose ends belong to it exactly when `m` is even.  `shortest` looks, one digit at
a time, at the two neighbours of the value on the grid of that many digits; the
first grid with a neighbour in the interval wins, and of two neighbours the closer
one, or the even one at the same distance.  All comparisons are between natural
numbers.
-/

namespace ComponentHost.Decimal

/-! ## Binary values -/

/-- A finite value without its sign: `m · 2^q`. -/
structure Binary where
  m : Nat
  q : Int
  /-- The gap to the value below is half the gap to the value above. -/
  narrowBelow : Bool

/-- The value of a pattern of 64 bits that stands for a finite number; the sign is left out. -/
def Binary.ofBits (bits : UInt64) : Binary :=
  let exponent := ((bits >>> 52) &&& 0x7FF).toNat
  let fraction := (bits &&& 0xFFFFFFFFFFFFF).toNat
  if exponent = 0 then ⟨fraction, -1074, false⟩
  else ⟨Nat.pow 2 52 + fraction, (exponent : Int) - 1075, fraction == 0 && exponent > 1⟩

/-- A decimal value: `digits · 10^exponent`. -/
structure Dec where
  digits : Nat
  exponent : Int
  deriving DecidableEq, Repr

/-! ## The interval of a value -/

/-- How `a · 10^i` compares with `n · 2^j`. -/
def compareScaled (a : Nat) (i : Int) (n : Nat) (j : Int) : Ordering :=
  compare (a * Nat.pow 10 i.toNat * Nat.pow 2 (-j).toNat)
    (n * Nat.pow 2 j.toNat * Nat.pow 10 (-i).toNat)

/-- The decimal `d` lies among the reals that round to `x`. -/
def Binary.readsBack (x : Binary) (d : Dec) : Bool :=
  let low := if x.narrowBelow then 4 * x.m - 1 else 4 * x.m - 2
  let ends := x.m % 2 == 0
  let atLow := compareScaled d.digits d.exponent low (x.q - 2)
  let atHigh := compareScaled d.digits d.exponent (4 * x.m + 2) (x.q - 2)
  (atLow == .gt || (ends && atLow == .eq)) && (atHigh == .lt || (ends && atHigh == .eq))

/-! ## The search -/

/-- The value divided by `10^k`, rounded down. -/
def Binary.quotient (x : Binary) (k : Int) : Nat :=
  (x.m * Nat.pow 2 x.q.toNat * Nat.pow 10 (-k).toNat) /
    (Nat.pow 2 (-x.q).toNat * Nat.pow 10 k.toNat)

/-- The least `k`, from `k` on upwards, with the value below `10^k`. -/
def Binary.scaleFrom (x : Binary) : Nat → Int → Int
  | 0, k => k
  | steps + 1, k => if x.quotient k = 0 then k else x.scaleFrom steps (k + 1)

/-- The number of digits before the point; negative when zeros follow the point. -/
def Binary.scale (x : Binary) : Int :=
  x.scaleFrom 3 (((x.m.log2 : Int) + x.q) * 30103 / 100000)

/-- The neighbour of the value on the grid `10^k` that reads back to it, if there is one. -/
def Binary.onGrid (x : Binary) (k : Int) : Option Dec :=
  let floor := x.quotient k
  let below : Dec := ⟨floor, k⟩
  let above : Dec := ⟨floor + 1, k⟩
  match x.readsBack below, x.readsBack above with
  | true, false => some below
  | false, true => some above
  | false, false => none
  | true, true =>
    match compareScaled (2 * floor + 1) k (2 * x.m) x.q with
    | .lt => some above
    | .gt => some below
    | .eq => some (if floor % 2 = 0 then below else above)

/-- The digits without the zeros at their end, which move into the exponent. -/
def Dec.stripFrom : Nat → Dec → Dec
  | 0, d => d
  | steps + 1, d =>
    if d.digits ≠ 0 && d.digits % 10 == 0 then stripFrom steps ⟨d.digits / 10, d.exponent + 1⟩
    else d

/-- The fewest digits that read back to a value above zero, and of those the closest. -/
def Binary.shortest (x : Binary) : Dec :=
  let top := x.scale
  let exact : Dec := ⟨x.m * Nat.pow 2 x.q.toNat * Nat.pow 5 (-x.q).toNat, min x.q 0⟩
  ((List.range 17).findSome? fun (n : Nat) => x.onGrid (top - 1 - n)).getD exact |>.stripFrom 20

end ComponentHost.Decimal
