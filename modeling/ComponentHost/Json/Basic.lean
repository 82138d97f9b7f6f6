/-
# `ComponentHost.Json.Basic` — JSON values

A number is an integer of 64 bits, signed or unsigned, or a float; the two kinds
stay apart, so `1` and `1.0` are different values.  An object is a list of members
with strictly increasing keys; `setMember` keeps it so.
-/

namespace ComponentHost

/-- The integers a number can hold exactly: those of 64 bits, signed or unsigned. -/
abbrev Json.Integer : Type := { n : Int // -Int.pow 2 63 ≤ n ∧ n < Int.pow 2 64 }

/-- A JSON value. -/
inductive Json where
  | null
  | bool (b : Bool)
  | integer (n : Json.Integer)
  | float (x : Float)
  | string (s : String)
  | array (items : List Json)
  | object (members : List (String × Json))
  deriving Inhabited

namespace Json

/-! ## Making values -/

/-- The natural number `n`, when it fits. -/
def ofNat? (n : Nat) : Option Json :=
  if h : -Int.pow 2 63 ≤ (n : Int) ∧ (n : Int) < Int.pow 2 64 then some (.integer ⟨n, h⟩) else none

/-- A count; beyond 64 bits it is a float. -/
def ofNat (n : Nat) : Json :=
  (ofNat? n).getD (.float (Float.ofNat n))

/-- The members with `key` set to `value`: in its place if it is there, else where the order of
keys puts it.  Keys are ordered by code points, which is the order of their UTF-8 bytes. -/
def setMember (key : String) (value : Json) : List (String × Json) → List (String × Json)
  | [] => [(key, value)]
  | (k, v) :: rest =>
    if key = k then (key, value) :: rest
    else if key < k then (key, value) :: (k, v) :: rest
    else (k, v) :: setMember key value rest

/-- The object with the given members, set one after the other; of a repeated key the last
counts. -/
def ofMembers (members : List (String × Json)) : Json :=
  .object (members.foldl (fun set m => setMember m.1 m.2 set) [])

/-! ## Taking values apart -/

def get? (key : String) : Json → Option Json
  | .object members => members.lookup key
  | _ => none

def string? : Json → Option String
  | .string s => some s
  | _ => none

def array? : Json → Option (List Json)
  | .array items => some items
  | _ => none

def bool? : Json → Option Bool
  | .bool b => some b
  | _ => none

def integer? : Json → Option Int
  | .integer n => some n.val
  | _ => none

def nat? (j : Json) : Option Nat :=
  j.integer?.bind fun n => if 0 ≤ n then some n.toNat else none

/-- The value of any number, rounded to a float. -/
def float? : Json → Option Float
  | .integer n => some (Float.ofInt n.val)
  | .float x => some x
  | _ => none

/-- What kind of value it is, in the words of an error message. -/
def kind : Json → String
  | .null => "null"
  | .bool _ => "bool"
  | .integer _ | .float _ => "number"
  | .string _ => "string"
  | .array _ => "array"
  | .object _ => "object"

end Json

end ComponentHost
