/-
# `ComponentHost.Interface.Decode` — from JSON to a value of a given type

The type decides how the JSON is read.  Integers must be JSON integers in range;
floats take any number; a record is an object whose missing members count as null;
a variant or result is an object with `tag` and `val`, or the bare tag when nothing
is carried; an option is null or its payload; flags are a list of names or an
object of truth values.  The first part that does not fit is the error, and the
error tells what was found there.
-/
import ComponentHost.Interface.Datum
import ComponentHost.Json.Basic

namespace ComponentHost

/-! ## Errors -/

/-- Why a JSON value is no value of a type. -/
inductive DecodeError where
  /-- Something else was wanted than the kind of JSON value that was found. -/
  | mismatch (expected found : String)
  /-- Values of this type cannot be written in JSON. -/
  | unsupported (type : String)
  deriving DecidableEq, Repr

namespace Ty

/-- The error of finding `j` where `expected` was wanted. -/
def mismatch {α : Type} (expected : String) (j : Json) : Except DecodeError α :=
  .error (.mismatch expected j.kind)

/-! ## Parts -/

/-- A tag with what it carries: a bare string, or an object with members `tag` and `val`. -/
def tagged? : Json → Option (String × Option Json)
  | .string tag => some (tag, none)
  | .object members => do
    let tag ← (← members.lookup "tag").string?
    return (tag, members.lookup "val")
  | _ => none

/-- The names of set flags: the strings of an array, or the keys of an object that are true. -/
def flagNames? : Json → Option (List String)
  | .array items => items.mapM Json.string?
  | .object members => some ((members.filter fun m => m.2.bool? == some true).map (·.1))
  | _ => none

/-- The one character of a text. -/
def onlyChar? (s : String) : Option Char :=
  match s.toList with
  | [c] => some c
  | _ => none

/-! ## Decoding -/

mutual

/-- The value of the type that `j` stands for.  `number` reads the JSON of a float. -/
def decodeWith (number : Json → Option Float) : Ty → Json → Except DecodeError Datum
  | .bool, j =>
    match j.bool? with
    | some b => .ok (.bool b)
    | none => mismatch "bool" j
  | .int w, j =>
    match j.integer? with
    | some n => if h : w.low ≤ n ∧ n ≤ w.high then .ok (.int w ⟨n, h⟩) else mismatch w.name j
    | none => mismatch w.name j
  | .f32, j =>
    match number j with
    | some x => .ok (.f32 x.toFloat32)
    | none => mismatch "f32" j
  | .f64, j =>
    match number j with
    | some x => .ok (.f64 x)
    | none => mismatch "f64" j
  | .char, j =>
    match j.string?.bind onlyChar? with
    | some c => .ok (.char c)
    | none => mismatch "char" j
  | .string, j =>
    match j.string? with
    | some s => .ok (.string s)
    | none => mismatch "string" j
  | .list item, j =>
    match j with
    | .array items => (items.mapM (decodeWith number item)).map .list
    | _ => mismatch "list" j
  | .record fields, j =>
    match j with
    | .object members => (decodeFields number fields members).map .record
    | _ => mismatch "record" j
  | .tuple types, j =>
    match j with
    | .array items =>
      if items.length = types.length then (decodeItems number types items).map .tuple
      else mismatch "tuple" j
    | _ => mismatch "tuple" j
  | .variant cases, j =>
    match tagged? j with
    | some (tag, payload) => (decodeCase number cases tag payload j).map (.variant tag)
    | none => mismatch "variant" j
  | .enum names, j =>
    match j.string? with
    | some name => if names.contains name then .ok (.enum name) else mismatch "enum" j
    | none => mismatch "enum" j
  | .option payload, j =>
    match j with
    | .null => .ok (.option none)
    | j => (decodeWith number payload j).map fun d => .option (some d)
  | .result ok err, j =>
    match tagged? j with
    | some (tag, payload) =>
      if tag = "ok" then (decodePayload number "result payload" ok payload j).map .ok
      else if tag = "err" then (decodePayload number "result payload" err payload j).map .err
      else mismatch "result" j
    | none => mismatch "result" j
  | .flags names, j =>
    match flagNames? j with
    | some set =>
      match set.find? (!names.contains ·) with
      | some unknown => mismatch ("flags (unknown flag " ++ unknown ++ ")") j
      | none => .ok (.flags set)
    | none => mismatch "flags" j
  | .own _, _ | .borrow _, _ => .error (.unsupported "resource")
  | .async _ text, _ => .error (.unsupported text)

/-- The fields of a record in the order of its type; a member that is missing counts as null. -/
def decodeFields (number : Json → Option Float) :
    List (String × Ty) → List (String × Json) → Except DecodeError (List (String × Datum))
  | [], _ => .ok []
  | (name, ty) :: fields, members => do
    let d ← decodeWith number ty ((members.lookup name).getD .null)
    let rest ← decodeFields number fields members
    return (name, d) :: rest

def decodeItems (number : Json → Option Float) :
    List Ty → List Json → Except DecodeError (List Datum)
  | ty :: types, j :: items => do
    let d ← decodeWith number ty j
    let rest ← decodeItems number types items
    return d :: rest
  | _, _ => .ok []

/-- The payload of a variant, by the type of the case that the tag names. -/
def decodeCase (number : Json → Option Float) :
    List (String × Option Ty) → String → Option Json → Json → Except DecodeError (Option Datum)
  | [], _, _, whole => mismatch "variant" whole
  | (name, ty) :: cases, tag, payload, whole =>
    if name = tag then decodePayload number "variant payload" ty payload whole
    else decodeCase number cases tag payload whole

/-- What a tag carries.  A case without a type carries nothing, whatever is given. -/
def decodePayload (number : Json → Option Float) (expected : String) :
    Option Ty → Option Json → Json → Except DecodeError (Option Datum)
  | none, _, _ => .ok none
  | some ty, some payload, _ => (decodeWith number ty payload).map some
  | some _, none, whole => mismatch expected whole

end

/-- The value of the type that `j` stands for. -/
def decode (ty : Ty) (j : Json) : Except DecodeError Datum :=
  decodeWith Json.float? ty j

end Ty

end ComponentHost
