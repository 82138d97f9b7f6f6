/-
# `ComponentHost.Invocation.HostFunction` — functions that the host itself provides

A host function answers without any component behind it.  It gives a fixed value,
its arguments, their number, how often it has been called, or an error.  The world
of host functions is the number of calls each has had.
-/
import ComponentHost.Invocation.Callable

namespace ComponentHost

inductive HostAnswer where
  | value (j : Json)
  | arguments
  | argumentCount
  /-- The number of the arguments and the arguments themselves. -/
  | countedArguments
  /-- How often it has been called, this call included. -/
  | callCount
  /-- It wants another number of arguments, whatever it is given. -/
  | wants (expected : Nat)
  | fails (error : InvocationError)

/-- A function that the host provides. -/
structure HostFunction where
  /-- Tells its calls from those of other functions. -/
  serial : Nat
  arity : Option Nat
  answer : HostAnswer

namespace HostFunction

/-- How often each host function has been called. -/
abbrev Calls : Type := Nat → Nat

/-- One call more of the function with that serial. -/
def Calls.record (serial : Nat) (calls : Calls) : Calls :=
  fun n => if n = serial then calls n + 1 else calls n

def call (f : HostFunction) (args : List Json) (calls : Calls) : Answer × Calls :=
  let calls := calls.record f.serial
  let answer : Answer := match f.answer with
    | .value j => .ok j
    | .arguments => .ok (.array args)
    | .argumentCount => .ok (Json.ofNat args.length)
    | .countedArguments => .ok (.array [Json.ofNat args.length, .array args])
    | .callCount => .ok (Json.ofNat (calls f.serial))
    | .wants expected => .error (.argumentCount expected args.length)
    | .fails e => .error e
  (answer, calls)

instance : Callable HostFunction Calls where
  arity := HostFunction.arity
  call := HostFunction.call

end HostFunction

end ComponentHost
