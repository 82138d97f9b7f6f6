/-
# `ComponentHost.Config.Basic` — what a host can be configured with

Two settings: the directory of the examples, and a limit to the memory of an
instance.  A setting that is not given keeps its default; a setting given twice, an
unknown one, and one of the wrong kind are errors.
-/
import ComponentHost.Config.Toml
import ComponentHost.Files.Path

namespace ComponentHost

/-- The configuration of a host. -/
structure Config where
  examplesDir : String := "public"
  maxMemoryBytes : Option Nat := none
  deriving DecidableEq, Repr

/-- Why there is no configuration. -/
inductive ConfigError where
  /-- The text is no configuration. -/
  | malformed
  | unreadable (error : IoError)
  deriving DecidableEq, Repr

def ConfigError.message : ConfigError → String
  | malformed => "TOML parse error"
  | unreadable error => "IO error: " ++ error.message

namespace Config

def set (c : Config) : String × Toml.Value → Option Config
  | ("examples_dir", .text s) => some { c with examplesDir := s }
  | ("max_memory_bytes", .integer n) =>
    if 0 ≤ n then some { c with maxMemoryBytes := some n.toNat } else none
  | _ => none

def ofText (text : String) : Except ConfigError Config :=
  match Toml.parse? text with
  | none => .error .malformed
  | some settings =>
    if !decide (settings.map (·.1)).Nodup then .error .malformed
    else match settings.foldlM set {} with
      | some c => .ok c
      | none => .error .malformed

def ofFile (outcome : Except IoError ByteArray) : Except ConfigError Config :=
  match outcome with
  | .error e => .error (.unreadable e)
  | .ok bytes =>
    match String.fromUTF8? bytes with
    | some text => ofText text
    | none => .error (.unreadable .notText)

end Config

end ComponentHost
