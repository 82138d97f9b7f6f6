/-
# `ComponentHost.Invocation.Error` — why a call gives no value

An answer to a call is a JSON value or an error.  The error keeps its cause apart
from its wording; `message` is the wording, and `Answer.display` is the line that
is shown for either outcome.
-/
import ComponentHost.Component.Basic
import ComponentHost.Interface.Encode
import ComponentHost.Json.Printer

namespace ComponentHost

/-- Why a call gives no value. -/
inductive InvocationError where
  /-- No export has that name. -/
  | unknownExport (name : String)
  /-- The instance is held by another call. -/
  | lockRejected
  /-- The export has a function type but cannot be entered. -/
  | invalidFunction (name : String)
  | argumentCount (expected found : Nat)
  | argumentType (index : Nat) (expected found : String)
  | unsupportedType (type : String)
  /-- The engine failed while the function ran. -/
  | runtimeException (error : EngineError)
  /-- The function itself reported a failure. -/
  | raised (text : String)
  deriving DecidableEq, Repr

namespace InvocationError

def message : InvocationError → String
  | unknownExport name => "Function not found: " ++ name
  | lockRejected => "Lock Rejected"
  | invalidFunction name => "Invalid Function: " ++ name
  | argumentCount expected found =>
    "Expected " ++ toString expected ++ " argument(s), found " ++ toString found
  | argumentType index expected found =>
    "Argument " ++ toString index ++ ": expected " ++ expected ++ ", found " ++ found
  | unsupportedType type => "Unsupported type: " ++ type
  | runtimeException error => "Runtime Exception: " ++ error.message
  | raised text => text

def ofDecode (index : Nat) : DecodeError → InvocationError
  | .mismatch expected found => argumentType index expected found
  | .unsupported type => unsupportedType type

/-- The error of a result that does not convert; no argument is at fault. -/
def ofEncode : DecodeError → InvocationError
  | .mismatch expected found => argumentType 0 expected found
  | .unsupported type => unsupportedType type

end InvocationError

/-- The outcome of a call. -/
abbrev Answer : Type := Except InvocationError Json

namespace Answer

def isSuccess : Answer → Bool
  | .ok _ => true
  | .error _ => false

def value? : Answer → Option Json
  | .ok j => some j
  | .error _ => none

def message? : Answer → Option String
  | .ok _ => none
  | .error e => some e.message

/-- The line that is shown for the outcome. -/
def display : Answer → String
  | .ok j => "Result: " ++ j.compress
  | .error e => "Error: " ++ e.message

end Answer

end ComponentHost
