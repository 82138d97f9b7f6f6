/-
# `ComponentHost.Proofs.Runner.Artifact` — the artifact is never lost

The state of a runner is taken apart and put together again by every load and every
transpilation, whatever it ends with.  Two facts about that.

    what is held after a run  =  what the last load that was taken was about
    a load that is refused changes the status and the log, and no reply from then on

The first says when a load was taken by its reply, so the right-hand side reads the
history alone.  The second compares two runs: replies are a function of the *course*
of a runner (its state, its table, its attempts), and a refused load leaves that.
-/
import ComponentHost.Proofs.Runner.Step

namespace ComponentHost

/-! ## What loads are about -/

/-- The bytes that a load is about and the name they go by, if they could be read. -/
def Operation.offers? : Operation → Option (ByteArray × String)
  | .loadBytes bytes filename => some (bytes, filename)
  | .loadFile path (.ok bytes) => some (bytes, Path.fileName path)
  | .loadDropped path (.ok bytes) => some (bytes, Path.fileName path)
  | .loadExample e (.ok bytes) => some (bytes, e.fileName)
  | _ => none

def Reply.isTaken : Reply → Bool
  | .load (.ok ()) => true
  | _ => false

/-- What the last load of a history that was taken was about. -/
def lastTaken (history : List (Operation × Reply)) : Option (ByteArray × String) :=
  (history.reverse.find? (·.2.isTaken)).bind (·.1.offers?)

theorem Artifact.ofBytes_eq_ok {bytes : ByteArray} {filename : String} {a : Artifact}
    (ha : Artifact.ofBytes bytes filename = .ok a) : a.bytes = bytes ∧ a.filename = filename := by
  rw [Artifact.ofBytes] at ha
  split at ha
  · cases ha
    exact ⟨rfl, rfl⟩
  · cases ha

theorem Operation.offers?_of_brings? {op : Operation} {a : Artifact}
    (hb : op.brings? = some (.ok a)) : op.offers? = some (a.bytes, a.filename) := by
  cases op with
  | loadBytes bytes filename =>
    obtain ⟨rfl, rfl⟩ := Artifact.ofBytes_eq_ok (Option.some.inj hb)
    rfl
  | loadFile path outcome =>
    cases outcome with
    | error e => cases hb
    | ok bytes =>
      obtain ⟨rfl, hname⟩ := Artifact.ofBytes_eq_ok (Option.some.inj hb)
      rw [hname]
      rfl
  | loadDropped path outcome =>
    have ha : Artifact.ofDropped path outcome = .ok a := Option.some.inj hb
    rw [Artifact.ofDropped] at ha
    split at ha
    · cases outcome with
      | error e => cases ha
      | ok bytes =>
        obtain ⟨rfl, hname⟩ := Artifact.ofBytes_eq_ok ha
        rw [hname]
        rfl
    · cases ha
  | loadExample e outcome =>
    cases outcome with
    | error err => cases hb
    | ok bytes =>
      obtain ⟨rfl, hname⟩ := Artifact.ofBytes_eq_ok (Option.some.inj hb)
      rw [hname]
      rfl
  | _ => cases hb

theorem Operation.isTaken_answered (op : Operation) (answer : Option Answer) :
    (op.answered answer).isTaken = false := by
  cases op <;> rfl

namespace Runner

/-! ## What is held -/

/-- The bytes of the component that is held, and their name. -/
def held? (r : Runner) : Option (ByteArray × String) :=
  r.artifact?.map fun a => (a.bytes, a.filename)

variable {h : Host} {r r' : Runner} {op : Operation} {reply : Reply}

/-- A move changes what is held only by taking a load. -/
theorem Move.held? (hmove : Move h r op reply r') :
    r'.held? = if reply.isTaken then op.offers? else r.held? := by
  cases hmove with
  | taken _ hb => exact (Operation.offers?_of_brings? hb).symm
  | ignored _ _ => rfl
  | refused _ _ _ => rfl
  | unready _ _ => rfl
  | failed _ ha _ _ _ => exact congrArg (Option.map _) ha.symm
  | @made elapsed a attempt m _ ha hatt hok _ =>
    have hartifact : m.artifact = a := by
      have hend := h.attempt_ending r.attempts a elapsed (r.state.release r.resources)
      rw [← hatt] at hend
      cases hend with
      | accepted _ _ _ =>
        cases hok
        rfl
      | _ => cases hok
    refine congrArg (Option.map _) ?_
    rw [ha, ← hartifact]
    rfl
  | entered _ hm _ =>
    rw [Operation.isTaken_answered]
    simp only [Runner.held?, artifact?, hm]
    rfl
  | noted _ _ _ =>
    rw [Operation.isTaken_answered]
    rfl
  | cleared => rfl

theorem held?_after (h : Host) :
    ∀ (r : Runner) (ops : List Operation),
      (r.after h ops).held? =
        (((ops.zip (replies h r ops)).reverse.find? (·.2.isTaken)).map (·.1.offers?)).getD r.held?
  | _, [] => rfl
  | r, op :: ops => by
      have hmove := (step_move h r op).held?
      rw [after_cons, held?_after h _ ops, replies, List.zip_cons_cons, List.reverse_cons,
        List.find?_append]
      -- the first operation counts only if no later load was taken
      cases (ops.zip (replies h (r.step h op).2 ops)).reverse.find? (·.2.isTaken) with
      | some x => rfl
      | none =>
        rw [hmove]
        cases ht : (r.step h op).1.isTaken with
        | true => simp [ht]
        | false => simp [ht]

/-! ## What replies depend on -/

/-- Two runners differ at most in what they show: their status and their log. -/
structure SameCourse (r r' : Runner) : Prop where
  state : r'.state = r.state
  resources : r'.resources = r.resources
  attempts : r'.attempts = r.attempts

def showing (r : Runner) (status : Status) (log : Log) : Runner :=
  { r with status, log }

theorem SameCourse.eq_showing (hs : SameCourse r r') : r' = r.showing r'.status r'.log := by
  obtain ⟨resources, state, status, log, attempts⟩ := r'
  obtain ⟨rfl, rfl, rfl⟩ := hs
  rfl

theorem finishLoad_showing (r : Runner) (status : Status) (log : Log)
    (outcome : Except IngestError Artifact) :
    ((r.showing status log).finishLoad outcome).1 = (r.finishLoad outcome).1 ∧
      SameCourse (r.finishLoad outcome).2 ((r.showing status log).finishLoad outcome).2 := by
  cases outcome <;> exact ⟨rfl, rfl, rfl, rfl⟩

theorem loadDropped_showing (r : Runner) (status : Status) (log : Log) (path : String)
    (outcome : Except IoError ByteArray) :
    ((r.showing status log).loadDropped path outcome).1 = (r.loadDropped path outcome).1 ∧
      SameCourse (r.loadDropped path outcome).2
        ((r.showing status log).loadDropped path outcome).2 := by
  delta loadDropped
  split
  · exact ⟨rfl, rfl, rfl, rfl⟩
  · exact finishLoad_showing (r.beginLoad path) _ _ _

theorem loadExample_showing (r : Runner) (status : Status) (log : Log) (e : Example)
    (outcome : Except IoError ByteArray) :
    ((r.showing status log).loadExample e outcome).1 = (r.loadExample e outcome).1 ∧
      SameCourse (r.loadExample e outcome).2 ((r.showing status log).loadExample e outcome).2 := by
  simp only [loadExample, finishLoad]
  cases Artifact.ofExample e outcome <;> exact ⟨rfl, rfl, rfl, rfl⟩

theorem transpile_showing (h : Host) (r : Runner) (status : Status) (log : Log) (elapsed : Nat) :
    ((r.showing status log).transpile h elapsed).1 = (r.transpile h elapsed).1 ∧
      SameCourse (r.transpile h elapsed).2 ((r.showing status log).transpile h elapsed).2 := by
  simp only [transpile, showing, write, State.beginTranspile]
  cases r.state.artifact? with
  | none => exact ⟨rfl, rfl, rfl, rfl⟩
  | some a =>
    simp only [finishTranspile]
    cases (h.attempt r.attempts a elapsed (r.state.release r.resources)).outcome <;>
      exact ⟨rfl, rfl, rfl, rfl⟩

theorem callWith_showing (r : Runner) (status : Status) (log : Log) (name : String)
    (args : List Json) :
    ((r.showing status log).callWith name args).1 = (r.callWith name args).1 ∧
      SameCourse (r.callWith name args).2 ((r.showing status log).callWith name args).2 := by
  have hfind : (r.showing status log).findExport name = r.findExport name := rfl
  simp only [callWith, hfind]
  simp only [showing]
  cases r.state.runnable? with
  | none => exact ⟨rfl, rfl, rfl, rfl⟩
  | some m =>
    cases r.findExport name with
    | none => exact ⟨rfl, rfl, rfl, rfl⟩
    | some x => exact ⟨rfl, rfl, rfl, rfl⟩

theorem run_showing (r : Runner) (status : Status) (log : Log) :
    (r.showing status log).run.1 = r.run.1 ∧
      SameCourse r.run.2 (r.showing status log).run.2 := by
  simp only [run, showing, write]
  cases r.state.runnable? with
  | none => exact ⟨rfl, rfl, rfl, rfl⟩
  | some m =>
    simp only
    cases m.module.graph.findEntryPoint m.root with
    | none => exact ⟨rfl, rfl, rfl, rfl⟩
    | some x => exact ⟨rfl, rfl, rfl, rfl⟩

/-- A reply, and the course after it, depend on the course before it only. -/
theorem SameCourse.step (hs : SameCourse r r') (h : Host) (op : Operation) :
    (r'.step h op).1 = (r.step h op).1 ∧ SameCourse (r.step h op).2 (r'.step h op).2 := by
  rw [hs.eq_showing]
  cases op <;> simp only [Runner.step, Prod.map_fst, Prod.map_snd, id]
  case loadBytes bytes filename =>
    exact (finishLoad_showing (r.beginLoad filename) _ _ _).imp_left (congrArg _)
  case loadFile path outcome =>
    exact (finishLoad_showing (r.beginLoad path) _ _ _).imp_left (congrArg _)
  case loadDropped path outcome =>
    exact (loadDropped_showing r _ _ path outcome).imp_left (congrArg _)
  case loadExample e outcome =>
    exact (loadExample_showing r _ _ e outcome).imp_left (congrArg _)
  case transpile elapsed => exact (transpile_showing h r _ _ elapsed).imp_left (congrArg _)
  case call name text => exact (callWith_showing r _ _ name _).imp_left (congrArg _)
  case callWith name args => exact (callWith_showing r _ _ name args).imp_left (congrArg _)
  case run => exact (run_showing r _ _).imp_left (congrArg _)
  case clearLog => exact ⟨trivial, rfl, rfl, rfl⟩

theorem SameCourse.replies (h : Host) :
    ∀ {r r' : Runner} (_ : SameCourse r r') (ops : List Operation),
      replies h r' ops = replies h r ops
  | _, _, _, [] => rfl
  | _, _, hs, op :: ops => by
      obtain ⟨hreply, hs⟩ := hs.step h op
      rw [Runner.replies, Runner.replies, hreply, hs.replies h ops]

/-! ## Refused loads -/

/-- A load that brings no artifact in changes the log and, but for a dropped file of the wrong
kind, the status; nothing else. -/
theorem Move.refused_load {e : IngestError} (hmove : Move h r op (.load (.error e)) r') :
    SameCourse r r' ∧
      ((∃ name, e = .unsupportedFile name) ∧ r'.status = r.status ∨
        (∀ name, e ≠ .unsupportedFile name) ∧ r'.status = .loadFailed) := by
  generalize hreply : Reply.load (.error e) = reply at hmove
  cases hmove with
  | ignored _ _ =>
    cases hreply
    exact ⟨⟨rfl, rfl, rfl⟩, .inl ⟨⟨_, rfl⟩, rfl⟩⟩
  | refused _ _ hne =>
    cases hreply
    exact ⟨⟨rfl, rfl, rfl⟩, .inr ⟨hne, rfl⟩⟩
  | entered _ _ _ => cases op <;> cases hreply
  | noted _ _ _ => cases op <;> cases hreply
  | _ => cases hreply

/-- **The artifact is the one that was last taken, and a refused load costs nothing.**  After any
operations the runner holds the bytes and the name of the last load that was answered with
success.  A load that is answered with an error leaves the state and the table as they are; it
sets the status to `loadFailed`, or leaves it when the file was of the wrong kind; and all later
operations are answered as they would have been without it. -/
theorem held_artifact_and_refused_loads (h : Host) (first : Nat) (ops : List Operation) :
    let r := (initial first).after h ops
    r.held? = lastTaken (ops.zip (replies h (initial first) ops)) ∧
      ∀ op e, (r.step h op).1 = .load (.error e) →
        let r' := (r.step h op).2
        r'.state = r.state ∧ r'.resources = r.resources ∧
          ((∃ name, e = .unsupportedFile name) ∧ r'.status = r.status ∨
            (∀ name, e ≠ .unsupportedFile name) ∧ r'.status = .loadFailed) ∧
          ∀ more, replies h r' more = replies h r more := by
  intro r
  refine ⟨?_, fun op e hreply => ?_⟩
  · have hheld := held?_after h (initial first) ops
    rw [lastTaken]
    change r.held? = _ at hheld
    rw [hheld]
    cases (ops.zip (replies h (initial first) ops)).reverse.find? (·.2.isTaken) with
    | some x => rfl
    | none => rfl
  · have hmove := step_move h r op
    rw [hreply] at hmove
    obtain ⟨hs, hstatus⟩ := hmove.refused_load
    exact ⟨hs.state, hs.resources, hstatus, fun more => hs.replies h more⟩

end Runner

end ComponentHost
