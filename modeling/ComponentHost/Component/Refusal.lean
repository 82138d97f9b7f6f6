/-
# `ComponentHost.Component.Refusal` — what bytes are that no engine knows

Bytes come in two forms: binaries start with a magic number, and all others are texts.
Of either form a component without content is taken for what it is, and all else is
refused.  A binary and a text that holds a module of instructions are refused for
being no component.  Any other text is refused at some place in it, and the refusal
shows the line of that place if the text has no other.
-/
import ComponentHost.Component.Basic
import ComponentHost.Component.Binary
import ComponentHost.Component.Outline

namespace ComponentHost

/-! ## Errors -/

/-- Why bytes are no component. -/
inductive Refusal where
  | notText
  | binary
  /-- They are a module of instructions. -/
  | coreModule
  /-- They are a text of another kind, refused in the given line where that is known. -/
  | unreadable (line : Option String)
  deriving DecidableEq, Repr

def Refusal.error : Refusal → EngineError
  | notText => ⟨"input bytes aren't valid utf-8", []⟩
  | binary => ⟨"failed to parse WebAssembly module", []⟩
  | coreModule => ⟨"failed to parse WebAssembly module",
      ["expected a WebAssembly component but was given a WebAssembly module"]⟩
  | unreadable line => ⟨"expected a component", line.toList⟩

/-! ## Judgement -/

def Component.bare : Component :=
  { exports := [], pages := 0, imports := [], start := .ok ⟨0, 0⟩ }

/-- The line that a text is refused in, if it has one line only; any line of a longer text can be
the one. -/
def onlyLine? (text : String) : Option String :=
  if text.toList.contains '\n' then none else some text

def Refusal.judgeText (text : String) : Except Refusal Component :=
  let ls := (Outline.lexemes? text.toList).getD []
  if Outline.isComponent ls then .ok .bare
  else if Outline.isModule ls then .error .coreModule
  else .error (.unreadable (onlyLine? text))

/-- The component that bytes hold, or else why they hold none. -/
def Refusal.judge (bytes : ByteArray) : Except Refusal Component :=
  let content := bytes.data.toList
  if Binary.isBinary content then
    if Binary.isBare content then .ok .bare else .error .binary
  else
    match String.fromUTF8? bytes with
    | some text => judgeText text
    | none => .error .notText

/-- The engine that accepts what `known?` knows, and refuses all else but components without
content. -/
def Engine.knowing (known? : ByteArray → Option Component) : Engine :=
  ⟨fun bytes =>
    match known? bytes with
    | some c => .ok c
    | none => (Refusal.judge bytes).mapError Refusal.error⟩

end ComponentHost
