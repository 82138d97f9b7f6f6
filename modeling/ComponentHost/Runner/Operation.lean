/-
# `ComponentHost.Runner.Operation` — histories of a runner

An operation is one thing that a user asks of a runner, together with what comes in
from outside while it is done.  A history is a list of operations.
-/
import ComponentHost.Runner.Basic

namespace ComponentHost

/-- One thing that is asked of a runner. -/
inductive Operation where
  | loadBytes (bytes : ByteArray) (filename : String)
  | loadFile (path : String) (outcome : Except IoError ByteArray)
  | loadDropped (path : String) (outcome : Except IoError ByteArray)
  | loadExample (e : Example) (outcome : Except IoError ByteArray)
  /-- Transpile; it takes `elapsed` hundredths of a second. -/
  | transpile (elapsed : Nat)
  | call (name text : String)
  | callWith (name : String) (args : List Json)
  | run
  | clearLog

inductive Reply where
  | load (outcome : Except IngestError Unit)
  | transpile (outcome : Except PipelineError Nat)
  | call (answer : Answer)
  | run (answer : Option Answer)
  | done

namespace Runner

def step (h : Host) (r : Runner) : Operation → Reply × Runner
  | .loadBytes bytes filename => (r.loadBytes bytes filename).map .load id
  | .loadFile path outcome => (r.loadFile path outcome).map .load id
  | .loadDropped path outcome => (r.loadDropped path outcome).map .load id
  | .loadExample e outcome => (r.loadExample e outcome).map .load id
  | .transpile elapsed => (r.transpile h elapsed).map .transpile id
  | .call name text => (r.call name text).map .call id
  | .callWith name args => (r.callWith name args).map .call id
  | .run => r.run.map .run id
  | .clearLog => (.done, r.clearLog)

def after (h : Host) (r : Runner) (ops : List Operation) : Runner :=
  ops.foldl (fun r op => (r.step h op).2) r

def replies (h : Host) : Runner → List Operation → List Reply
  | _, [] => []
  | r, op :: ops => (r.step h op).1 :: replies h (r.step h op).2 ops

/-- The runners that operations lead to from a new one. -/
def Reachable (h : Host) (r : Runner) : Prop :=
  ∃ first ops, r = (initial first).after h ops

end Runner

end ComponentHost
