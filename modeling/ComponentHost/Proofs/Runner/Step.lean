/-
# `ComponentHost.Proofs.Runner.Step` — everything a step can do

What is said of every run is derived from two lists of cases, and no later proof opens
an operation again.

    attempt    refused | entryless | rejected | accepted      (`Host.attempt_ending`)
    step       taken | ignored | refused | unready | failed | made | entered | noted | cleared
                                                               (`Runner.step_move`)

Each case gives the whole state after it, with the guards under which it happens.
What is written to the log stays open here, except that it is written behind what
there was: `notes` is any list.
-/
import ComponentHost.Proofs.Resource.Table
import ComponentHost.Runner.Operation

namespace ComponentHost

/-! ## Attempts -/

/-- How an attempt ends, by the stage it ends in. -/
inductive Attempt.Ending (h : Host) (number : Nat) (a : Artifact) (elapsed : Nat)
    (table : ResourceTable) : Attempt → Prop
  /-- The transpiler gives an error. -/
  | refused {e : TranspileError} :
      h.transpiler.transpile number a.bytes {} = .error e →
      Ending h number a elapsed table ⟨.error (.transpile e), table, []⟩
  /-- The files hold no entry source. -/
  | entryless {t : Transpiled} {e : EntryError} :
      h.transpiler.transpile number a.bytes {} = .ok t →
      t.files.entrySource entryPointFile = .error e →
      Ending h number a elapsed table
        ⟨.error (.transpile (.entry e)), table, transpiledNotes elapsed t⟩
  /-- The linked source does not load; the handles made for it are revoked. -/
  | rejected {t : Transpiled} {source : String} {e : LoadError} :
      h.transpiler.transpile number a.bytes {} = .ok t →
      t.files.entrySource entryPointFile = .ok source →
      Module.load h.loader (t.files.link (table.createAll t.files.resources).1 source)
        (table.createAll t.files.resources).2 = .error e →
      Ending h number a elapsed table
        ⟨.error (.load e),
          ((table.createAll t.files.resources).2.revokeAll (table.createAll t.files.resources).1).2,
          transpiledNotes elapsed t ++ (handleNotes t.files.binaries ++ [loadingNote])⟩
  /-- The linked source loads, and the exports of the module are found. -/
  | accepted {t : Transpiled} {source : String} {m : Module} :
      h.transpiler.transpile number a.bytes {} = .ok t →
      t.files.entrySource entryPointFile = .ok source →
      Module.load h.loader (t.files.link (table.createAll t.files.resources).1 source)
        (table.createAll t.files.resources).2 = .ok m →
      Ending h number a elapsed table
        ⟨.ok (Runnable.discover a m (table.createAll t.files.resources).1),
          (table.createAll t.files.resources).2,
          transpiledNotes elapsed t ++ (handleNotes t.files.binaries ++ [loadingNote] ++
            rootNotes m ++
            exportNotes (Runnable.discover a m (table.createAll t.files.resources).1).exports)⟩

theorem Host.attempt_ending (h : Host) (number : Nat) (a : Artifact) (elapsed : Nat)
    (table : ResourceTable) :
    Attempt.Ending h number a elapsed table (h.attempt number a elapsed table) := by
  rw [Host.attempt]
  cases ht : h.transpiler.transpile number a.bytes {} with
  | error e => exact .refused ht
  | ok t =>
    simp only [build]
    cases hs : t.files.entrySource entryPointFile with
    | error e => exact .entryless ht hs
    | ok source =>
      simp only [buildFrom]
      cases hm : Module.load h.loader (t.files.link (table.createAll t.files.resources).1 source)
          (table.createAll t.files.resources).2 with
      | error e => exact .rejected ht hs hm
      | ok m => exact .accepted ht hs hm

/-! ## Loads -/

/-- What a load brings in; the other operations bring nothing. -/
def Operation.brings? : Operation → Option (Except IngestError Artifact)
  | .loadBytes bytes filename => some (Artifact.ofBytes bytes filename)
  | .loadFile path outcome => some (Artifact.ofFile path outcome)
  | .loadDropped path outcome => some (Artifact.ofDropped path outcome)
  | .loadExample e outcome => some (Artifact.ofExample e outcome)
  | _ => none

/-- The operation calls into the module there is: it calls an export, or runs the module. -/
def Operation.calls : Operation → Bool
  | .call .. | .callWith .. | .run => true
  | _ => false

theorem Artifact.ofBytes_ne_unsupportedFile {bytes : ByteArray} {filename name : String} :
    Artifact.ofBytes bytes filename ≠ .error (.unsupportedFile name) := by
  rw [Artifact.ofBytes]
  split <;> simp

theorem Artifact.ofFile_ne_unsupportedFile {path : String} {outcome : Except IoError ByteArray}
    {name : String} : Artifact.ofFile path outcome ≠ .error (.unsupportedFile name) := by
  cases outcome with
  | error e => simp [Artifact.ofFile]
  | ok bytes => exact Artifact.ofBytes_ne_unsupportedFile

theorem Artifact.ofExample_ne_unsupportedFile {e : Example} {outcome : Except IoError ByteArray}
    {name : String} : Artifact.ofExample e outcome ≠ .error (.unsupportedFile name) := by
  cases outcome with
  | error e => simp [Artifact.ofExample]
  | ok bytes => exact Artifact.ofBytes_ne_unsupportedFile

/-- What is answered to a call or a run, from the answer of the function that was entered. -/
def Operation.answered : Operation → Option Answer → Reply
  | .call name _, answer | .callWith name _, answer =>
    .call (answer.getD (.error (.unknownExport name)))
  | .run, answer => .run answer
  | _, _ => .done

namespace Runner

/-- The function that a call or a run enters, with the arguments it is given. -/
def target? (r : Runner) : Operation → Option (BoundFunction × List Json)
  | .call name text => (r.findExport name).map fun x => (x.target, Arguments.parse text)
  | .callWith name args => (r.findExport name).map fun x => (x.target, args)
  | .run => r.state.runnable?.bind fun m =>
      (m.module.graph.findEntryPoint m.root).map fun x => (x.2, [])
  | _ => none

/-! ## Steps -/

/-- What a step can do: the operation, what it answers, and the runner after it. -/
inductive Move (h : Host) (r : Runner) : Operation → Reply → Runner → Prop
  /-- A load takes an artifact in, in place of all there was. -/
  | taken {op : Operation} {a : Artifact} (notes : Log) :
      op.brings? = some (.ok a) →
      Move h r op (.load (.ok ()))
        { r.write notes with
          state := .loaded a
          resources := r.state.release r.resources
          status := .componentLoaded }
  /-- A dropped file has the wrong ending. -/
  | ignored {op : Operation} {name : String} (notes : Log) :
      op.brings? = some (.error (.unsupportedFile name)) →
      Move h r op (.load (.error (.unsupportedFile name))) (r.write notes)
  /-- A load brings no artifact in. -/
  | refused {op : Operation} {e : IngestError} (notes : Log) :
      op.brings? = some (.error e) →
      (∀ name, e ≠ .unsupportedFile name) →
      Move h r op (.load (.error e)) { r.write notes with status := .loadFailed }
  /-- There is nothing to transpile. -/
  | unready (elapsed : Nat) :
      r.artifact? = none →
      Move h r (.transpile elapsed) (.transpile (.error .noComponent))
        (r.write (failureNotes .noComponent))
  /-- An attempt fails. -/
  | failed {elapsed : Nat} {a : Artifact} {attempt : Attempt} {e : PipelineError} (notes : Log) :
      r.artifact? = some a →
      attempt = h.attempt r.attempts a elapsed (r.state.release r.resources) →
      attempt.outcome = .error e →
      notes = .info "Starting transpilation..." :: attempt.notes ++ failureNotes e →
      Move h r (.transpile elapsed) (.transpile (.error e))
        { r.write notes with
          state := .loaded a
          resources := attempt.resources
          status := .transpilationFailed
          attempts := r.attempts + 1 }
  /-- An attempt succeeds. -/
  | made {elapsed : Nat} {a : Artifact} {attempt : Attempt} {m : Runnable} (notes : Log) :
      r.artifact? = some a →
      attempt = h.attempt r.attempts a elapsed (r.state.release r.resources) →
      attempt.outcome = .ok m →
      notes = .info "Starting transpilation..." :: attempt.notes →
      Move h r (.transpile elapsed) (.transpile (.ok m.exports.length))
        { r.write notes with
          state := .runnable m
          resources := attempt.resources
          status := .transpilationComplete
          attempts := r.attempts + 1 }
  /-- A function of the module is entered. -/
  | entered {op : Operation} {m : Runnable} {f : BoundFunction} {args : List Json} (notes : Log) :
      r.state = .runnable m →
      r.target? op = some (f, args) →
      Move h r op (op.answered (some (m.enter f args).1))
        { r.write notes with state := .runnable (m.enter f args).2 }
  /-- A call or a run finds nothing to enter. -/
  | noted {op : Operation} (notes : Log) :
      op.calls = true →
      r.target? op = none →
      Move h r op (op.answered none) (r.write notes)
  /-- The log is emptied. -/
  | cleared : Move h r .clearLog .done r.clearLog

variable {h : Host} {r : Runner}

/-- What a load brings in is taken or refused; `notes` and `status` announce it. -/
theorem move_finishLoad {op : Operation} {outcome : Except IngestError Artifact}
    (hb : op.brings? = some outcome) (hne : ∀ name, outcome ≠ .error (.unsupportedFile name))
    (notes : Log) (status : Status) :
    Move h r op (.load (({ r.write notes with status } : Runner).finishLoad outcome).1)
      (({ r.write notes with status } : Runner).finishLoad outcome).2 := by
  cases outcome with
  | ok a =>
    simpa [finishLoad, write, State.load] using
      Move.taken (h := h) (r := r)
        (notes ++ [.success ("Component loaded successfully (" ++ a.kibibytes ++ " KB)")]) hb
  | error e =>
    simpa [finishLoad, write] using
      Move.refused (h := h) (r := r)
        (notes ++ [.error ("Error loading component: " ++ e.message)]) hb
        (fun name he => hne name (congrArg Except.error he))

theorem move_loadDropped (path : String) (outcome : Except IoError ByteArray) :
    Move h r (.loadDropped path outcome) (.load (r.loadDropped path outcome).1)
      (r.loadDropped path outcome).2 := by
  delta loadDropped
  split
  · rename_i name hb
    exact .ignored _ (by rw [Operation.brings?, hb])
  · rename_i hne
    exact move_finishLoad rfl (fun name hb => hne name hb)
      [.info ("Loading component: " ++ path)] .loadingComponent

theorem move_loadExample (e : Example) (outcome : Except IoError ByteArray) :
    Move h r (.loadExample e outcome) (.load (r.loadExample e outcome).1)
      (r.loadExample e outcome).2 := by
  have hb : (Operation.loadExample e outcome).brings? = some (Artifact.ofExample e outcome) := rfl
  rw [loadExample]
  cases ho : Artifact.ofExample e outcome with
  | ok a =>
    rw [ho] at hb
    simpa [beginLoad, finishLoad, write, State.load] using
      Move.taken (h := h) (r := r)
        [.info ("Loading example: " ++ e.fileName), .info ("Loading component: " ++ e.fileName),
          .success ("Component loaded successfully (" ++ a.kibibytes ++ " KB)")] hb
  | error err =>
    rw [ho] at hb
    simpa [beginLoad, finishLoad, write] using
      Move.refused (h := h) (r := r)
        [.info ("Loading example: " ++ e.fileName), .info ("Loading component: " ++ e.fileName),
          .error ("Error loading component: " ++ err.message),
          .info "Make sure the example file exists in the examples directory"] hb
        (fun name he => Artifact.ofExample_ne_unsupportedFile (he ▸ ho))

theorem move_transpile (elapsed : Nat) :
    Move h r (.transpile elapsed) (.transpile (r.transpile h elapsed).1)
      (r.transpile h elapsed).2 := by
  rw [transpile, State.beginTranspile]
  cases ha : r.state.artifact? with
  | none => exact .unready elapsed ha
  | some a =>
    simp only [finishTranspile]
    cases ho : (h.attempt r.attempts a elapsed (r.state.release r.resources)).outcome with
    | ok m =>
      simpa [write, ho] using
        Move.made (h := h) (r := r) _ ha rfl ho rfl
    | error e =>
      simpa [write, ho] using
        Move.failed (h := h) (r := r) _ ha rfl ho rfl

theorem move_callWith {op : Operation} (name : String) (args : List Json)
    (hc : op.calls = true)
    (ht : r.target? op = (r.findExport name).map fun x => (x.target, args))
    (hr : ∀ answer, op.answered answer = .call (answer.getD (.error (.unknownExport name)))) :
    Move h r op (.call (r.callWith name args).1) (r.callWith name args).2 := by
  rw [callWith]
  cases hm : r.state.runnable? with
  | none =>
    have hx : r.findExport name = none := by simp [findExport, exports, State.exports, hm]
    rw [hx] at ht
    simpa [hr] using Move.noted (h := h) (r := r) _ hc ht
  | some m =>
    cases hx : r.findExport name with
    | none =>
      rw [hx] at ht
      simpa [hr] using Move.noted (h := h) (r := r) _ hc ht
    | some x =>
      rw [hx] at ht
      have hs : r.state = .runnable m := by
        cases hs : r.state <;> simp_all [State.runnable?]
      simpa [enter, write, hr] using Move.entered (h := h) (r := r) _ hs ht

theorem move_run : Move h r .run (.run r.run.1) r.run.2 := by
  rw [run]
  cases hm : r.state.runnable? with
  | none =>
    have ht : r.target? .run = none := by simp [target?, hm]
    simpa [write, hm, Operation.answered] using Move.noted (h := h) (r := r) _ rfl ht
  | some m =>
    have hs : r.state = .runnable m := by
      cases hs : r.state <;> simp_all [State.runnable?]
    cases hx : m.module.graph.findEntryPoint m.root with
    | none =>
      have ht : r.target? .run = none := by simp [target?, hm, hx]
      simpa [write, hm, hx, Operation.answered] using Move.noted (h := h) (r := r) _ rfl ht
    | some x =>
      have ht : r.target? .run = some (x.2, []) := by simp [target?, hm, hx]
      simpa [write, hm, hx, enter, Operation.answered] using
        Move.entered (h := h) (r := r) _ hs ht

theorem step_move (h : Host) (r : Runner) (op : Operation) :
    Move h r op (r.step h op).1 (r.step h op).2 := by
  cases op <;> simp only [step, Prod.map_fst, Prod.map_snd, id]
  case loadBytes bytes filename =>
    exact move_finishLoad rfl (fun _ => Artifact.ofBytes_ne_unsupportedFile)
      [.info ("Loading component: " ++ filename)] .loadingComponent
  case loadFile path outcome =>
    exact move_finishLoad rfl (fun _ => Artifact.ofFile_ne_unsupportedFile)
      [.info ("Loading component: " ++ path)] .loadingComponent
  case loadDropped path outcome => exact move_loadDropped path outcome
  case loadExample e outcome => exact move_loadExample e outcome
  case transpile elapsed => exact move_transpile elapsed
  case call name text => exact move_callWith name (Arguments.parse text) rfl rfl (fun _ => rfl)
  case callWith name args => exact move_callWith name args rfl rfl (fun _ => rfl)
  case run => exact move_run
  case clearLog => exact .cleared

/-! ## Runs -/

@[simp]
theorem after_nil (h : Host) (r : Runner) : r.after h [] = r := rfl

@[simp]
theorem after_cons (h : Host) (r : Runner) (op : Operation) (ops : List Operation) :
    r.after h (op :: ops) = (r.step h op).2.after h ops := rfl

/-- What holds at first and is kept by every move holds after every run. -/
theorem after_induction {P : Runner → Prop} {r : Runner} (h : Host) (hr : P r)
    (hstep : ∀ {r r' : Runner} {op : Operation} {reply : Reply},
      P r → Move h r op reply r' → P r') :
    ∀ ops : List Operation, P (r.after h ops)
  | [] => hr
  | op :: ops => after_induction h (hstep hr (step_move h r op)) hstep ops

end Runner

end ComponentHost
