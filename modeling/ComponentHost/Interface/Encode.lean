/-
# `ComponentHost.Interface.Encode` — from a value to JSON

The way back needs no type: lists and tuples become arrays, records become objects,
variants and results become objects with `tag` and, if they carry something, `val`;
enums and characters become strings, an option its payload or null, flags the list
of their names.  A resource has no JSON form, and neither has what stays with the
engine.
-/
import ComponentHost.Interface.Decode

namespace ComponentHost.Datum

/-- An integer of a type as a JSON integer. -/
def intJson (w : Width) (n : w.Carrier) : Json :=
  .integer ⟨n.val, Int.le_trans w.le_low n.property.1, Int.lt_of_le_of_lt n.property.2 w.high_lt⟩

def tagJson (tag : String) : Option Json → Json
  | none => Json.ofMembers [("tag", .string tag)]
  | some payload => Json.ofMembers [("tag", .string tag), ("val", payload)]

/-- A float as JSON: what is no number becomes null. -/
def floatJson (x : Float) : Json :=
  if x.isNaN || x.isInf then .null else .float x

mutual

/-- The JSON form of a value. -/
def encode : Datum → Except DecodeError Json
  | .bool b => .ok (.bool b)
  | .int w n => .ok (intJson w n)
  | .f32 x => .ok (floatJson x.toFloat)
  | .f64 x => .ok (floatJson x)
  | .char c => .ok (.string (String.ofList [c]))
  | .string s => .ok (.string s)
  | .list items | .tuple items => (encodeItems items).map .array
  | .record fields => (encodeFields fields).map Json.ofMembers
  | .variant label payload => (encodePayload payload).map (tagJson label)
  | .enum name => .ok (.string name)
  | .option payload => (encodePayload payload).map (·.getD .null)
  | .ok payload => (encodePayload payload).map (tagJson "ok")
  | .err payload => (encodePayload payload).map (tagJson "err")
  | .flags names => .ok (.array (names.map .string))
  | .resource _ => .error (.unsupported "resource")
  | .async _ text => .error (.unsupported text)

def encodeItems : List Datum → Except DecodeError (List Json)
  | [] => .ok []
  | d :: rest => do
    let j ← encode d
    let js ← encodeItems rest
    return j :: js

def encodeFields : List (String × Datum) → Except DecodeError (List (String × Json))
  | [] => .ok []
  | (name, d) :: rest => do
    let j ← encode d
    let js ← encodeFields rest
    return (name, j) :: js

def encodePayload : Option Datum → Except DecodeError (Option Json)
  | none => .ok none
  | some d => (encode d).map some

end

end ComponentHost.Datum
