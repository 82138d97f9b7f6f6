/-
# `ComponentHost.Component.Sample` — components that are known by their text

Four small components to try things out with.  A sample has a text, which is what a
file with it holds, and the component that the text stands for.  The catalogue of the
samples leads from the one to the other.
-/
import ComponentHost.Component.Behaviour
import ComponentHost.Component.Catalogue

namespace ComponentHost

inductive Sample where
  /-- Adds two integers. -/
  | add
  /-- Turns a text around. -/
  | stringReverse
  /-- Has functions with the names of entry points. -/
  | entryPoints
  /-- Has a function that fails, and one whose result is an error. -/
  | failing
  deriving DecidableEq, Repr

namespace Sample

def all : List Sample := [add, stringReverse, entryPoints, failing]

def name : Sample → String
  | add => "add"
  | stringReverse => "string-reverse"
  | entryPoints => "entry-points"
  | failing => "failing"

/-! ## Texts -/

def lines : Sample → List String
  | add =>
    [";; example:add/add@0.1.0",
      ";;   add: func(a: s32, b: s32) -> s32",
      "(component",
      "\t(core module $m",
      "\t\t(func (export \"add\") (param i32 i32) (result i32)",
      "\t\t\tlocal.get 0",
      "\t\t\tlocal.get 1",
      "\t\t\ti32.add))",
      "\t(core instance $i (instantiate $m))",
      "\t(func $add (param \"a\" s32) (param \"b\" s32) (result s32) " ++
        "(canon lift (core func $i \"add\")))",
      "\t(instance $inst (export \"add\" (func $add)))",
      "\t(export \"example:add/add@0.1.0\" (instance $inst))",
      ")"]
  | stringReverse =>
    [";; example:string-reverse/reverse@0.1.0",
      ";;   reverse: func(s: string) -> string",
      "(component",
      "\t(core module $m",
      "\t\t(memory (export \"memory\") 1)",
      "\t\t(global $heap (mut i32) (i32.const 1024))",
      "",
      "\t\t;; Bump allocator; memory is never freed.",
      "\t\t(func $realloc (export \"cabi_realloc\") (param i32 i32) " ++
        "(param $align i32) (param $size i32) (result i32)",
      "\t\t\t(local $ptr i32)",
      "\t\t\tglobal.get $heap",
      "\t\t\tlocal.get $align",
      "\t\t\ti32.const 1",
      "\t\t\ti32.sub",
      "\t\t\ti32.add",
      "\t\t\tlocal.get $align",
      "\t\t\ti32.const 1",
      "\t\t\ti32.sub",
      "\t\t\ti32.const -1",
      "\t\t\ti32.xor",
      "\t\t\ti32.and",
      "\t\t\tlocal.set $ptr",
      "\t\t\tlocal.get $ptr",
      "\t\t\tlocal.get $size",
      "\t\t\ti32.add",
      "\t\t\tglobal.set $heap",
      "\t\t\tlocal.get $ptr)",
      "",
      "\t\t(func (export \"reverse\") (param $ptr i32) (param $len i32) (result i32)",
      "\t\t\t(local $out i32) (local $i i32) (local $ret i32)",
      "\t\t\ti32.const 0",
      "\t\t\ti32.const 0",
      "\t\t\ti32.const 1",
      "\t\t\tlocal.get $len",
      "\t\t\tcall $realloc",
      "\t\t\tlocal.set $out",
      "\t\t\t(block $done",
      "\t\t\t\t(loop $next",
      "\t\t\t\t\tlocal.get $i",
      "\t\t\t\t\tlocal.get $len",
      "\t\t\t\t\ti32.ge_u",
      "\t\t\t\t\tbr_if $done",
      "\t\t\t\t\tlocal.get $out",
      "\t\t\t\t\tlocal.get $len",
      "\t\t\t\t\ti32.add",
      "\t\t\t\t\ti32.const 1",
      "\t\t\t\t\ti32.sub",
      "\t\t\t\t\tlocal.get $i",
      "\t\t\t\t\ti32.sub",
      "\t\t\t\t\tlocal.get $ptr",
      "\t\t\t\t\tlocal.get $i",
      "\t\t\t\t\ti32.add",
      "\t\t\t\t\ti32.load8_u",
      "\t\t\t\t\ti32.store8",
      "\t\t\t\t\tlocal.get $i",
      "\t\t\t\t\ti32.const 1",
      "\t\t\t\t\ti32.add",
      "\t\t\t\t\tlocal.set $i",
      "\t\t\t\t\tbr $next))",
      "\t\t\ti32.const 0",
      "\t\t\ti32.const 0",
      "\t\t\ti32.const 4",
      "\t\t\ti32.const 8",
      "\t\t\tcall $realloc",
      "\t\t\tlocal.set $ret",
      "\t\t\tlocal.get $ret",
      "\t\t\tlocal.get $out",
      "\t\t\ti32.store",
      "\t\t\tlocal.get $ret",
      "\t\t\tlocal.get $len",
      "\t\t\ti32.store offset=4",
      "\t\t\tlocal.get $ret))",
      "\t(core instance $i (instantiate $m))",
      "\t(func $reverse (param \"s\" string) (result string)",
      "\t\t(canon lift (core func $i \"reverse\") (memory (core memory " ++
        "$i \"memory\")) (realloc (core func $i \"cabi_realloc\"))))",
      "\t(instance $inst (export \"reverse\" (func $reverse)))",
      "\t(export \"example:string-reverse/reverse@0.1.0\" (instance $inst))",
      ")"]
  | entryPoints =>
    [";; Top-level functions named like entry points.",
      ";;   run: func(x: s32) -> s32",
      ";;   main: func() -> s32",
      ";;   start: func() -> s32",
      "(component",
      "\t(core module $m",
      "\t\t(func (export \"run\") (param i32) (result i32) local.get 0)",
      "\t\t(func (export \"main\") (result i32) i32.const 2)",
      "\t\t(func (export \"start\") (result i32) i32.const 3))",
      "\t(core instance $i (instantiate $m))",
      "\t(func (export \"run\") (param \"x\" s32) (result s32) (canon " ++
        "lift (core func $i \"run\")))",
      "\t(func (export \"main\") (result s32) (canon lift (core func $i \"main\")))",
      "\t(func (export \"start\") (result s32) (canon lift (core func $i \"start\")))",
      ")"]
  | failing =>
    [";; example:failing/fail@0.1.0",
      ";;   trap: func()",
      ";;   checked: func() -> result<u32, u32>",
      "(component",
      "\t(core module $m",
      "\t\t(memory (export \"memory\") 1)",
      "\t\t;; result<u32, u32>: err(7)",
      "\t\t(data (i32.const 16) \"\\01\\00\\00\\00\\07\\00\\00\\00\")",
      "\t\t(func (export \"trap\") unreachable)",
      "\t\t(func (export \"checked\") (result i32) i32.const 16))",
      "\t(core instance $i (instantiate $m))",
      "\t(func $trap (canon lift (core func $i \"trap\")))",
      "\t(func $checked (result (result u32 (error u32))) (canon lift " ++
        "(core func $i \"checked\") (memory (core memory $i \"memory\"))))",
      "\t(instance $inst",
      "\t\t(export \"trap\" (func $trap))",
      "\t\t(export \"checked\" (func $checked)))",
      "\t(export \"example:failing/fail@0.1.0\" (instance $inst))",
      ")"]

/-- The bytes of the sample: its lines, each with its end. -/
def bytes (s : Sample) : ByteArray :=
  (String.join (s.lines.map (· ++ "\n"))).toUTF8

/-! ## Components -/

def function (params : List (String × Ty)) (result : Option Ty) (body : Body) : ExportItem :=
  .function ⟨params, result⟩ (some (Body.settled result body))

def exports : Sample → List (String × ExportItem)
  | add =>
    [("example:add/add@0.1.0", .nested
      [("add", function [("a", .int .s32), ("b", .int .s32)] (some (.int .s32)) Body.add)])]
  | stringReverse =>
    [("example:string-reverse/reverse@0.1.0", .nested
      [("reverse", function [("s", .string)] (some .string) Body.reverseBytes)])]
  | entryPoints =>
    [("run", function [("x", .int .s32)] (some (.int .s32)) (Body.echo 0)),
      ("main", function [] (some (.int .s32)) (Body.const (.int .s32 (Width.s32.wrap 2)))),
      ("start", function [] (some (.int .s32)) (Body.const (.int .s32 (Width.s32.wrap 3))))]
  | failing =>
    [("example:failing/fail@0.1.0", .nested
      [("trap", function [] none Body.trap),
        ("checked", function [] (some (.result (some (.int .u32)) (some (.int .u32))))
          (Body.const (.err (some (.int .u32 (Width.u32.wrap 7))))))])]

def pages : Sample → Nat
  | add | entryPoints => 0
  | stringReverse | failing => 1

def component (s : Sample) : Component :=
  { exports := s.exports, pages := s.pages, imports := [], start := .ok ⟨0, 0⟩ }

/-- All samples by their bytes. -/
def catalogue : Catalogue := all.map fun s => (s.bytes, s.component)

end Sample

end ComponentHost
