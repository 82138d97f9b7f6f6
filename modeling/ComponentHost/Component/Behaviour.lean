/-
# `ComponentHost.Component.Behaviour` — the bodies a described function can have

A described component names what each of its functions does.  These are the bodies
behind the names.  Every result is settled by the result type before it leaves.
-/
import ComponentHost.Component.Basic

namespace ComponentHost.Body

/-- The error of a body whose arguments are not what its description promised. -/
def trapError : EngineError := ⟨"wasm trap: wasm `unreachable` instruction executed", []⟩

/-- The body with its result settled by the result type. -/
def settled (result : Option Ty) (body : Body) : Body := fun args store =>
  match result, body args store with
  | some ty, .ok (some d, store) => .ok (some (d.settle ty), store)
  | _, answer => answer

/-- Gives back one of its arguments. -/
def echo (k : Nat) : Body := fun args store =>
  match args[k]? with
  | some d => .ok (some d, store)
  | none => .error trapError

/-- Always gives the same value. -/
def const (d : Datum) : Body := fun _ store => .ok (some d, store)

/-- Adds two integers of one type and wraps around at its ends. -/
def add : Body := fun args store =>
  match args with
  | [.int w a, .int v b] =>
    if w = v then .ok (some (.int w (w.wrap (a.val + b.val))), store) else .error trapError
  | _ => .error trapError

def nop : Body := fun _ store => .ok (none, store)

def trap : Body := fun _ _ => .error trapError

/-- Counts its calls, together with all counting functions of the instance. -/
def count : Body := fun _ store =>
  let n := store.counter + 1
  .ok (some (.int .u32 (Width.u32.wrap n)), { store with counter := n })

/-- Hands out a resource that has not been handed out before. -/
def own : Body := fun _ store =>
  .ok (some (.resource store.minted), { store with minted := store.minted + 1 })

/-- Gives a text with its bytes in reverse order; fails when those are no text. -/
def reverseBytes : Body := fun args store =>
  match args with
  | [.string s] =>
    match String.fromUTF8? ⟨s.toUTF8.data.reverse⟩ with
    | some t => .ok (some (.string t), store)
    | none => .error ⟨"invalid utf-8 sequence", []⟩
  | _ => .error trapError

end ComponentHost.Body
