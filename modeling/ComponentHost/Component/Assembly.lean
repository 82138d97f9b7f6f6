/-
# `ComponentHost.Component.Assembly` — described components as text

A described component can be written out in the textual form of components: a module
of instructions with one procedure for each function, and the functions lifted out of
it.  That is done here where all exports are functions which take numbers and give a
number or nothing.  Constants stand in the memory of the module, behind a reserved
piece and each at a multiple of its size; what is handed out at run time comes after
them.
-/
import ComponentHost.Component.Description
import ComponentHost.Text.Quoted

namespace ComponentHost.Assembly

/-! ## Numbers -/

/-- A type whose values the machine handles as one number. -/
structure NumberTy where
  name : String
  /-- The machine's type for it. -/
  machine : String
  /-- The instruction that takes it from memory, without the machine's type. -/
  load : String
  deriving DecidableEq, Repr

def NumberTy.ofTy? : Ty → Option NumberTy
  | .bool => some ⟨"bool", "i32", "load8_u"⟩
  | .char => some ⟨"char", "i32", "load"⟩
  | .f32 => some ⟨"f32", "f32", "load"⟩
  | .f64 => some ⟨"f64", "f64", "load"⟩
  | .int .s8 => some ⟨"s8", "i32", "load8_s"⟩
  | .int .u8 => some ⟨"u8", "i32", "load8_u"⟩
  | .int .s16 => some ⟨"s16", "i32", "load16_s"⟩
  | .int .u16 => some ⟨"u16", "i32", "load16_u"⟩
  | .int .s32 => some ⟨"s32", "i32", "load"⟩
  | .int .u32 => some ⟨"u32", "i32", "load"⟩
  | .int .s64 => some ⟨"s64", "i64", "load"⟩
  | .int .u64 => some ⟨"u64", "i64", "load"⟩
  | _ => none

/-- The `count` lowest bytes of a number, the lowest first. -/
def lowBytes : Nat → Nat → List UInt8
  | 0, _ => []
  | count + 1, n => n.toUInt8 :: lowBytes count (n / 256)

/-- The bytes that a width takes. -/
def size : Width → Nat
  | .s8 | .u8 => 1
  | .s16 | .u16 => 2
  | .s32 | .u32 => 4
  | .s64 | .u64 => 8

/-- A number as it stands in memory. -/
def bytes? : Datum → Option (List UInt8)
  | .bool b => some [b.toUInt8]
  | .int w n => some (lowBytes (size w) (n.val % Int.pow 2 (8 * size w)).toNat)
  | .f32 x => some (lowBytes 4 x.toBits.toNat)
  | .f64 x => some (lowBytes 8 x.toBits.toNat)
  | .char c => some (lowBytes 4 c.toNat)
  | _ => none

/-! ## Procedures -/

/-- What a procedure does. -/
inductive Routine where
  /-- Gives a number that stands in memory. -/
  | fixed (bytes : List UInt8)
  /-- Gives back the argument with that number. -/
  | echo (k : Nat)
  | add
  | nothing
  | counting
  | failing
  deriving DecidableEq, Repr

structure Procedure where
  name : String
  params : List (String × NumberTy)
  result : Option NumberTy
  routine : Routine
  deriving DecidableEq, Repr

/-- The routine that a description names, for a function with those types. -/
def routine? (params : List (String × Ty)) (result : Option Ty) : Json → Option Routine
  | .string "add" => if params.length = 2 then some .add else none
  | .string "nop" => if result.isNone then some .nothing else none
  | .string "trap" => some .failing
  | .string "count" => if result.isSome then some .counting else none
  | .object [("echo", k)] => do
    let k ← k.nat?
    if k < params.length then some (.echo k) else none
  | .object [("const", j)] => do
    let d ← ((← result).decodeWith Description.floatConstant? j).toOption
    (bytes? d).map .fixed
  | _ => none

/-- More arguments than this come through memory. -/
def mostArguments : Nat := 16

def procedure? (j : Json) : Option Procedure := do
  let name ← (← j.get? "name").string?
  let f ← j.get? "func"
  let signature ← Description.signature? [] f
  let params ← signature.params.mapM fun (name, ty) => (NumberTy.ofTy? ty).map (name, ·)
  let result ← match signature.result with
    | some ty => (NumberTy.ofTy? ty).map some
    | none => some none
  let routine ← routine? signature.params signature.result (← f.get? "do")
  if params.length ≤ mostArguments then some ⟨name, params, result, routine⟩ else none

/-! ## Memory -/

/-- The least multiple of `unit` that is not below `n`. -/
def roundUp (unit n : Nat) : Nat :=
  (n + unit - 1) / unit * unit

/-- The piece of memory before the first constant. -/
def reserved : List UInt8 := List.replicate 16 0

/-- Puts the constants behind what is in memory, and gives the address of each procedure's, which
is zero for those that have none. -/
def layOut (memory : List UInt8) : List Procedure → List Nat × List UInt8
  | [] => ([], memory)
  | p :: ps =>
    match p.routine with
    | .fixed bytes =>
      let address := roundUp bytes.length memory.length
      let gap := List.replicate (address - memory.length) 0
      let (addresses, memory) := layOut (memory ++ gap ++ bytes) ps
      (address :: addresses, memory)
    | _ =>
      let (addresses, memory) := layOut memory ps
      (0 :: addresses, memory)

/-- The unit in which memory is handed out first. -/
def heapUnit : Nat := 16

/-- The digits of a byte behind a backslash. -/
def escaped (b : UInt8) : String :=
  "\\" ++ String.ofList (Text.padZeros 2 (Text.hexDigits b.toNat))

/-! ## Text -/

/-- The words in a group with a head. -/
def group (head : String) (words : List String) : String :=
  "(" ++ head ++ " " ++ String.intercalate " " words ++ ")"

def constant (n : Nat) : String := group "i32.const" [toString n]

/-- The instructions of a procedure whose constant stands at `address`. -/
def instructions (p : Procedure) (address : Nat) : String :=
  match p.routine, p.result with
  | .fixed _, some ty => group (ty.machine ++ "." ++ ty.load) ["offset=0", constant address]
  | .echo k, _ => group "local.get" [toString k]
  | .add, _ => "(i32.add (local.get 0) (local.get 1))"
  | .counting, _ =>
    "(global.set $count (i32.add (global.get $count) (i32.const 1))) (global.get $count)"
  | .failing, _ => "unreachable"
  | _, _ => ""

/-- A group with one word, where there is a word. -/
def optional (head : String) : Option String → String
  | some word => group head [word]
  | none => ""

/-- The procedure with number `k`, and the one that takes back what it has handed out. -/
def procedureLines (heap k address : Nat) (p : Procedure) : List String :=
  let machine := p.result.map NumberTy.machine
  ["(func (export \"f" ++ toString k ++ "\") " ++ group "param" (p.params.map (·.2.machine)) ++
      " " ++ optional "result" machine ++ " (local i32)",
    instructions p address ++ ")",
    "(func (export \"p" ++ toString k ++ "\") " ++ optional "param" machine ++
      " (global.set $heap " ++ constant heap ++ "))"]

/-- The function with number `k` lifted out of the module, and its export. -/
def exportLines (k : Nat) (p : Procedure) : List String :=
  let params := p.params.map fun (name, ty) => group "param" ["\"" ++ name ++ "\"", ty.name]
  let result := p.result.toList.map fun ty => group "result" [ty.name]
  ["(func $f" ++ toString k ++ " " ++ String.intercalate " " (params ++ result) ++
      " (canon lift (core func $i \"f" ++ toString k ++ "\") (memory (core memory $i " ++
      "\"memory\")) (realloc (core func $i \"realloc\")) (post-return (core func $i \"p" ++
      toString k ++ "\"))))",
    "(export \"" ++ p.name ++ "\" (func $f" ++ toString k ++ "))"]

def lines (pages : Nat) (ps : List Procedure) : List String :=
  let (addresses, memory) := layOut reserved ps
  let heap := roundUp heapUnit memory.length
  let numbers := (List.range ps.length).map (· + 1)
  ["(component",
    "",
    "(core module $m (memory (export \"memory\") " ++ toString pages ++ ")",
    "(data (i32.const 0) \"" ++ String.join (memory.map escaped) ++ "\")",
    "(global $heap (mut i32) " ++ constant heap ++ ")",
    "(global $count (mut i32) (i32.const 0))",
    "(func $realloc (export \"realloc\") (param i32 i32) (param $a i32) (param $s i32) " ++
      "(result i32) (local $p i32)",
    "(local.set $p (i32.and (i32.add (global.get $heap) (i32.sub (local.get $a) " ++
      "(i32.const 1))) (i32.sub (i32.const 0) (local.get $a))))",
    "(global.set $heap (i32.add (local.get $p) (local.get $s))) (local.get $p))"] ++
  (numbers.zip (addresses.zip ps)).flatMap (fun (k, address, p) =>
    procedureLines heap k address p) ++
  [")", "(core instance $i (instantiate $m ))"] ++
  (numbers.zip ps).flatMap (fun (k, p) => exportLines k p) ++
  [")", ""]

/-- The text of a described component, if it is of the kind that is written out here. -/
def text? (j : Json) : Option String := do
  let procedures ← (← (← j.get? "exports").array?).mapM procedure?
  let c ← Description.component? j
  if c.imports.isEmpty && c.start.toBool then
    some (String.intercalate "\n" (lines c.pages procedures))
  else none

end ComponentHost.Assembly
