/-
# `ComponentHost.Component.Description` — components described in JSON

A description of a component is a JSON object with the exports, the pages of memory,
the imports and whether the start function fails.  Each function names its behaviour.
A type can be given a name by a type export and referred to by it afterwards.
-/
import ComponentHost.Component.Behaviour
import ComponentHost.Interface.Decode
import ComponentHost.Json.Parser

namespace ComponentHost.Description

/-! ## Types -/

/-- The types that names stand for, the latest first. -/
abbrev Scope : Type := List (String × Ty)

/-- The names in an array of strings. -/
def names? (j : Json) : Option (List String) :=
  j.array?.bind (·.mapM Json.string?)

def width? (name : String) : Option Width :=
  Width.all.find? (·.name == name)

/-- The type that a bare name stands for. -/
def simpleTy? (name : String) : Option Ty :=
  match name with
  | "bool" => some .bool
  | "f32" => some .f32
  | "f64" => some .f64
  | "char" => some .char
  | "string" => some .string
  | _ => (width? name).map .int

mutual

/-- The type that a description stands for. -/
def ty? (scope : Scope) : Json → Option Ty
  | .string name => simpleTy? name
  | .object [(key, j)] =>
    if key = "list" then (ty? scope j).map .list
    else if key = "option" then (ty? scope j).map .option
    else if key = "record" then
      match j with
      | .array fields => (fieldTys? scope fields).map .record
      | _ => none
    else if key = "variant" then
      match j with
      | .array cases => (caseTys? scope cases).map .variant
      | _ => none
    else if key = "tuple" then
      match j with
      | .array items => (tys? scope items).map .tuple
      | _ => none
    else if key = "result" then
      match j with
      | .array [ok, err] =>
        match payloadTy? scope ok, payloadTy? scope err with
        | some ok, some err => some (.result ok err)
        | _, _ => none
      | _ => none
    else if key = "enum" then (names? j).map .enum
    else if key = "flags" then (names? j).map .flags
    else if key = "own" then j.string?.map .own
    else if key = "borrow" then j.string?.map .borrow
    else if key = "ref" then j.string?.bind fun name => scope.lookup name
    else none
  | _ => none

def tys? (scope : Scope) : List Json → Option (List Ty)
  | [] => some []
  | j :: rest =>
    match ty? scope j, tys? scope rest with
    | some ty, some tys => some (ty :: tys)
    | _, _ => none

/-- The fields of a record: pairs of a name and a type. -/
def fieldTys? (scope : Scope) : List Json → Option (List (String × Ty))
  | [] => some []
  | .array [.string name, j] :: rest =>
    match ty? scope j, fieldTys? scope rest with
    | some ty, some fields => some ((name, ty) :: fields)
    | _, _ => none
  | _ => none

/-- The cases of a variant: pairs of a name and a type or null. -/
def caseTys? (scope : Scope) : List Json → Option (List (String × Option Ty))
  | [] => some []
  | .array [.string name, j] :: rest =>
    match payloadTy? scope j, caseTys? scope rest with
    | some ty, some cases => some ((name, ty) :: cases)
    | _, _ => none
  | _ => none

/-- The type of a payload; null is no payload. -/
def payloadTy? (scope : Scope) : Json → Option (Option Ty)
  | .null => some none
  | .string name => (simpleTy? name).map some
  | .object members => (ty? scope (.object members)).map some
  | _ => none

end

/-! ## Functions -/

/-- A float constant: a number, or the name of a value that is no finite number. -/
def floatConstant? : Json → Option Float
  | .string "nan" => some (0.0 / 0.0)
  | .string "inf" => some (1.0 / 0.0)
  | .string "-inf" => some (-1.0 / 0.0)
  | j => j.float?

/-- The body with the given name, for a function with that result. -/
def body? (result : Option Ty) : Json → Option Body
  | .string "add" => some Body.add
  | .string "nop" => some Body.nop
  | .string "trap" => some Body.trap
  | .string "count" => some Body.count
  | .string "own" => some Body.own
  | .string "reverse" => some Body.reverseBytes
  | .object [("echo", k)] => k.nat?.map Body.echo
  | .object [("const", j)] => do
    let ty ← result
    let d ← (ty.decodeWith floatConstant? j).toOption
    return Body.const d
  | _ => none

def signature? (scope : Scope) (j : Json) : Option Signature := do
  let params ← fieldTys? scope (← (← j.get? "params").array?)
  let result ← payloadTy? scope ((j.get? "result").getD .null)
  return ⟨params, result⟩

def function? (scope : Scope) (j : Json) : Option ExportItem := do
  let signature ← signature? scope j
  let body ← body? signature.result (← j.get? "do")
  return .function signature (some (Body.settled signature.result body))

/-- A function type, which has no body. -/
def functionType? (scope : Scope) (j : Json) : Option ExportItem :=
  (signature? scope j).map (.function · none)

/-! ## Exports -/

/-- The exports of a list of descriptions, each in the scope that those before it leave.  `depth`
bounds the nesting of instances. -/
def exports? : Nat → Scope → List Json → Option (List (String × ExportItem))
  | _, _, [] => some []
  | depth, scope, j :: rest => do
    let name ← (← j.get? "name").string?
    let (item, scope) ←
      if let some f := j.get? "func" then (function? scope f).map (·, scope)
      else if let some f := j.get? "functype" then (functionType? scope f).map (·, scope)
      else if let some t := j.get? "type" then
        (ty? scope t).map fun ty => (ExportItem.type, (name, ty) :: scope)
      else if let some (.array items) := j.get? "instance" then
        match depth with
        | 0 => none
        | depth + 1 => (exports? depth scope items).map fun inner => (.nested inner, scope)
      else if (j.get? "resource").isSome then some (.resource, scope)
      else if (j.get? "module").isSome then some (.coreModule, scope)
      else none
    let others ← exports? depth scope rest
    return (name, item) :: others

/-- Pages of memory when a description names none. -/
def defaultPages : Nat := 16

/-- The component that a description stands for. -/
def component? (j : Json) : Option Component := do
  let exports ← exports? Json.depthLimit [] (← (← j.get? "exports").array?)
  let pages ← match j.get? "pages" with
    | some p => p.nat?
    | none => some defaultPages
  let imports ← match j.get? "imports" with
    | some names => names? names
    | none => some []
  let trapped := (j.get? "start_trap").bind Json.bool? == some true
  return {
    exports
    pages
    imports
    start := if trapped then .error Body.trapError else .ok ⟨0, 0⟩ }

end ComponentHost.Description
