/-
# `ComponentHost.Interface.Datum` — the values that cross an interface

A `Datum` is what an engine takes and gives.  It carries no type of its own beyond
its shape; `HasType` says which shapes belong to a type.
-/
import ComponentHost.Interface.Ty

namespace ComponentHost

/-- A value of an interface type. -/
inductive Datum where
  | bool (b : Bool)
  | int (w : Width) (n : w.Carrier)
  | f32 (x : Float32)
  | f64 (x : Float)
  | char (c : Char)
  | string (s : String)
  | list (items : List Datum)
  | record (fields : List (String × Datum))
  | tuple (items : List Datum)
  | variant (label : String) (payload : Option Datum)
  | enum (name : String)
  | option (payload : Option Datum)
  | ok (payload : Option Datum)
  | err (payload : Option Datum)
  | flags (names : List String)
  | resource (serial : Nat)
  /-- A future, a stream or an error context, with the engine's text for the value. -/
  | async (kind : AsyncKind) (text : String)
  deriving Inhabited

namespace Datum

/-! ## The form a value has once it has been in a component -/

mutual

/-- The value as a component gives it back: flags once each, in the order their type declares
them, and everything else unchanged. -/
def settle : Ty → Datum → Datum
  | .flags names, .flags set => .flags (names.filter (set.contains ·))
  | .list item, .list items => .list (items.map (settle item))
  | .record types, .record fields => .record (settleFields types fields)
  | .tuple types, .tuple items => .tuple (settleItems types items)
  | .variant cases, .variant label payload => .variant label (settleCase cases label payload)
  | .option payload, .option value => .option (value.map (settle payload))
  | .result okTy _, .ok payload => .ok (settlePayload okTy payload)
  | .result _ errTy, .err payload => .err (settlePayload errTy payload)
  | _, d => d

def settleFields : List (String × Ty) → List (String × Datum) → List (String × Datum)
  | (_, ty) :: types, (name, d) :: fields => (name, settle ty d) :: settleFields types fields
  | _, fields => fields

def settleItems : List Ty → List Datum → List Datum
  | ty :: types, d :: items => settle ty d :: settleItems types items
  | _, items => items

def settleCase : List (String × Option Ty) → String → Option Datum → Option Datum
  | [], _, payload => payload
  | (name, ty) :: cases, label, payload =>
    if name = label then settlePayload ty payload else settleCase cases label payload

def settlePayload : Option Ty → Option Datum → Option Datum
  | some ty, payload => payload.map (settle ty)
  | none, payload => payload

end

end Datum

end ComponentHost
