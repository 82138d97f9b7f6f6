/-
# `ComponentHost.Text.Blank` — white space, and the blank ends of a text

Texts are handled as lists of characters.  White space is the Unicode property
White_Space, 25 characters in ten ranges; trimming, blank arguments and the gaps
of an entry source all go by it.
-/

namespace ComponentHost.Text

/-! ## Classes given by ranges -/

def inRanges (ranges : List (Nat × Nat)) (n : Nat) : Bool :=
  ranges.any fun r => r.1 ≤ n && n ≤ r.2

/-- The code points with the property White_Space. -/
def blankRanges : List (Nat × Nat) :=
  [(0x09, 0x0D), (0x20, 0x20), (0x85, 0x85), (0xA0, 0xA0), (0x1680, 0x1680), (0x2000, 0x200A),
   (0x2028, 0x2029), (0x202F, 0x202F), (0x205F, 0x205F), (0x3000, 0x3000)]

def isBlank (c : Char) : Bool :=
  inRanges blankRanges c.toNat

/-! ## Trimming -/

def trimStart (cs : List Char) : List Char :=
  cs.dropWhile isBlank

def trimEnd (cs : List Char) : List Char :=
  (cs.reverse.dropWhile isBlank).reverse

def trim (cs : List Char) : List Char :=
  trimEnd (trimStart cs)

/-! ## Cutting and joining -/

/-- The pieces between the occurrences of `mark`; there is always at least one. -/
def splitAt (mark : Char) : List Char → List (List Char)
  | [] => [[]]
  | c :: cs =>
    if c = mark then [] :: splitAt mark cs
    else match splitAt mark cs with
      | [] => [[c]]
      | piece :: pieces => (c :: piece) :: pieces

/-- The texts one after the other, with `gap` between two neighbours. -/
def joinWith (gap : List Char) : List (List Char) → List Char
  | [] => []
  | [t] => t
  | t :: ts => t ++ gap ++ joinWith gap ts

def contains (needle : List Char) : List Char → Bool
  | [] => needle.isEmpty
  | c :: cs => needle.isPrefixOf (c :: cs) || contains needle cs

def endsWith (ending cs : List Char) : Bool :=
  ending.reverse.isPrefixOf cs.reverse

end ComponentHost.Text
