/-
# `ComponentHost.Transpiler.Bundled` — the transpiler that comes with the host

The bundled transpiler leaves the component whole.  It writes an entry source that
imports the component's bytes as one binary resource and exports everything from
it, and, if it is asked to, a file of declarations.
-/
import ComponentHost.Transpiler.Basic

namespace ComponentHost.Transpiler

def coreFile (o : TranspileOptions) : String := o.name ++ ".core" ++ binarySuffix

/-- The entry source: a comment, the import of the bytes, and the export of everything. -/
def bundledSource (o : TranspileOptions) : String :=
  "// Generated from " ++ o.name ++ "\nimport component from './" ++ coreFile o ++
    "';\nexport * from component;\n"

def declarations (exports : List (String × ExportKind)) : String :=
  String.join (exports.map fun e => "export declare const '" ++ e.1 ++ "': " ++ e.2.name ++ ";\n")

def bundledFiles (o : TranspileOptions) (bytes : ByteArray) (exports : List (String × ExportKind)) :
    FileSet :=
  let source := FileSet.empty.insert o.entryPoint (bundledSource o).toUTF8
  let files := source.insert (coreFile o) bytes
  if o.noTypescript then files
  else files.insert (o.name ++ ".d.ts") (declarations exports).toUTF8

def bundled (engine : Engine) : Transpiler where
  transpile _ bytes o :=
    match engine.compile bytes with
    | .error e => .error (.invalidComponent e)
    | .ok c =>
      let exports := c.exports.map fun e => (e.1, e.2.kind)
      .ok ⟨bundledFiles o bytes exports, exports⟩

def describeBundled : String := "WasmtimeTranspiler \x7b .. \x7d"

end ComponentHost.Transpiler
