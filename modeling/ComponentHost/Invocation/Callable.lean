/-
# `ComponentHost.Invocation.Callable` — what can be called

Whatever stands in a namespace to be called answers a list of JSON arguments, and
may change the state of the world it lives in.  It may also know how many arguments
it takes.
-/
import ComponentHost.Invocation.Arguments
import ComponentHost.Invocation.Error

namespace ComponentHost

/-- Things of type `α` can be called in a world of type `σ`. -/
class Callable (α : Type) (σ : outParam Type) where
  /-- The number of arguments, if it is fixed. -/
  arity : α → Option Nat
  /-- The answer to a call, and the world after it. -/
  call : α → List Json → σ → Answer × σ

/-- Calls with the arguments that a text stands for. -/
def Callable.callText {α σ : Type} [Callable α σ] (f : α) (text : String) (world : σ) :
    Answer × σ :=
  Callable.call f (Arguments.parse text) world

end ComponentHost
