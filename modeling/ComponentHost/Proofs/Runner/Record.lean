/-
# `ComponentHost.Proofs.Runner.Record` — the log tells what happened

An operation writes behind what stands in the log.  What it writes is compared with its reply:

    reply                            level of error
    ---------------------------------------------------------------------------
    no failure                       no entry
    a failure                        some entry, and one with the message of the failure

A dropped file of another kind is turned away without a failure, and so is a run with nothing to
run.  Stages write as they go, whatever comes of the attempt, so each says nothing of an error
(`Log.Calm`); and each way out of an operation says its last word, which is an error if and only if
the reply is a failure (`Log.Tells`).
-/
import ComponentHost.Proofs.Runner.Step

namespace ComponentHost

/-- The failure that a reply reports, in words. -/
def Reply.failure? : Reply → Option String
  | .load (.error (.unsupportedFile _)) => none
  | .load (.error e) => some e.message
  | .transpile (.error e) => some e.message
  | .call (.error e) => some e.message
  | .run (some (.error e)) => some e.message
  | _ => none

namespace LogEntry

/-- The entry is an error, and the text is in its message. -/
def Reports (text : String) (e : LogEntry) : Prop :=
  e.level = .error ∧ text.toList <:+: e.message.toList

theorem reports_error (before text : String) : (error (before ++ text)).Reports text := by
  refine ⟨rfl, ?_⟩
  show text.toList <:+: (before ++ text).toList
  rw [String.toList_append]
  exact (List.suffix_append _ _).isInfix

end LogEntry

namespace Log

/-! ## Entries without an error -/

/-- No entry is an error. -/
def Calm (log : Log) : Prop := ∀ e ∈ log, e.level ≠ .error

variable {log log' : Log} {e : LogEntry} {level : LogLevel} {failure? : Option String}
  {text : String}

theorem calm_nil : Calm [] := fun _ he => absurd he List.not_mem_nil

theorem calm_cons (hl : level ≠ .error) (h : Calm log) : Calm (⟨level, text⟩ :: log) :=
  List.forall_mem_cons.mpr ⟨hl, h⟩

theorem Calm.append (h : Calm log) (h' : Calm log') : Calm (log ++ log') :=
  List.forall_mem_append.mpr ⟨h, h'⟩

theorem calm_singleton (hl : level ≠ .error) : Calm [⟨level, text⟩] := calm_cons hl calm_nil

theorem calm_ite {c : Prop} [Decidable c] (h : Calm log) (h' : Calm log') :
    Calm (if c then log else log') := by
  split
  · exact h
  · exact h'

/-! ## Entries that tell a failure, or that there is none -/

/-- There are entries, with an error among them if and only if there is a failure; then one of them
says which. -/
structure Tells (failure? : Option String) (log : Log) : Prop where
  ne_nil : log ≠ []
  error_iff : (∃ e ∈ log, e.level = .error) ↔ failure?.isSome = true
  said : ∀ text, failure? = some text → ∃ e ∈ log, e.Reports text

theorem Calm.tells (h : Calm log) (hne : log ≠ []) : Tells none log where
  ne_nil := hne
  error_iff := by
    refine ⟨?_, nofun⟩
    rintro ⟨e, he, herror⟩
    exact absurd herror (h e he)
  said := nofun

theorem tells_of_reports (he : e ∈ log) (hreports : e.Reports text) : Tells (some text) log where
  ne_nil := List.ne_nil_of_mem he
  error_iff := ⟨fun _ => rfl, fun _ => ⟨e, he, hreports.1⟩⟩
  said text' htext := by
    cases htext
    exact ⟨e, he, hreports⟩

theorem Tells.after (h : Tells failure? log) (hcalm : Calm log') :
    Tells failure? (log' ++ log) where
  ne_nil := List.append_ne_nil_of_right_ne_nil _ h.ne_nil
  error_iff := by
    rw [← h.error_iff]
    constructor
    · rintro ⟨e, he, herror⟩
      rcases List.mem_append.mp he with he | he
      · exact absurd herror (hcalm e he)
      · exact ⟨e, he, herror⟩
    · rintro ⟨e, he, herror⟩
      exact ⟨e, List.mem_append_right _ he, herror⟩
  said text htext := by
    obtain ⟨e, he, hreports⟩ := h.said text htext
    exact ⟨e, List.mem_append_right _ he, hreports⟩

end Log

/-! ## What the stages say -/

open Log

theorem calm_transpiledNotes (elapsed : Nat) (t : Transpiled) :
    Calm (transpiledNotes elapsed t) :=
  Calm.append (calm_cons (by decide) (calm_singleton (by decide)))
    (calm_ite calm_nil (calm_singleton (by decide)))

theorem calm_handleNotes (files : List (String × ByteArray)) : Calm (handleNotes files) := by
  intro e he
  obtain ⟨f, -, rfl⟩ := List.mem_map.mp he
  exact calm_singleton (by decide) _ List.mem_cons_self

theorem calm_rootNotes (m : Module) : Calm (rootNotes m) := by
  simp only [rootNotes]
  refine calm_ite (calm_singleton (by decide)) (calm_cons (by decide) ?_)
  exact calm_ite (calm_singleton (by decide)) calm_nil

theorem calm_exportNotes (exports : List (Export BoundFunction)) : Calm (exportNotes exports) :=
  calm_ite (calm_singleton (by decide)) (calm_cons (by decide) (calm_singleton (by decide)))

/-- No stage of an attempt says anything of an error, whatever the attempt ends with. -/
theorem Attempt.Ending.calm {h : Host} {number elapsed : Nat} {a : Artifact} {table : ResourceTable}
    {attempt : Attempt} (hend : Ending h number a elapsed table attempt) : Calm attempt.notes := by
  have hlinked : ∀ files, Calm (handleNotes files ++ [loadingNote]) := fun files =>
    (calm_handleNotes files).append (calm_singleton (by decide))
  cases hend with
  | refused _ => exact calm_nil
  | entryless _ _ => exact calm_transpiledNotes elapsed _
  | rejected _ _ _ => exact (calm_transpiledNotes elapsed _).append (hlinked _)
  | accepted _ _ _ =>
    exact (calm_transpiledNotes elapsed _).append
      (((hlinked _).append (calm_rootNotes _)).append (calm_exportNotes _))

namespace Runner

theorem tells_failureNotes (e : PipelineError) : Tells (some e.message) (failureNotes e) :=
  tells_of_reports List.mem_cons_self (LogEntry.reports_error "Transpilation failed: " e.message)

variable {h : Host} {r r₁ r' : Runner} {reply : Reply}

/-! ## What an operation says -/

/-- From `r` to `r'`, entries are written that tell what the reply reports. -/
def Records (r : Runner) (reply : Reply) (r' : Runner) : Prop :=
  ∃ new, r'.log = r.log ++ new ∧ Tells reply.failure? new

theorem Records.after (r₁ : Runner) {notes : Log} (hlog : r₁.log = r.log ++ notes)
    (hcalm : Calm notes) (hrecords : Records r₁ reply r') : Records r reply r' := by
  obtain ⟨new, hnew, htells⟩ := hrecords
  refine ⟨notes ++ new, ?_, htells.after hcalm⟩
  rw [hnew, hlog, List.append_assoc]

theorem records_of_calm (new : Log) (hlog : r'.log = r.log ++ new) (hcalm : Calm new)
    (hne : new ≠ []) (hnone : reply.failure? = none) : Records r reply r' :=
  ⟨new, hlog, hnone ▸ hcalm.tells hne⟩

theorem records_of_reports (new : Log) (hlog : r'.log = r.log ++ new) {e : LogEntry} (he : e ∈ new)
    {text : String} (hreports : e.Reports text) (hsome : reply.failure? = some text) :
    Records r reply r' :=
  ⟨new, hlog, hsome ▸ tells_of_reports he hreports⟩

theorem failure?_load_error {e : IngestError} (hne : ∀ name, e ≠ .unsupportedFile name) :
    (Reply.load (.error e)).failure? = some e.message := by
  cases e with
  | unsupportedFile name => exact absurd rfl (hne name)
  | _ => rfl

theorem records_finishLoad (r : Runner) {outcome : Except IngestError Artifact}
    (hne : ∀ name, outcome ≠ .error (.unsupportedFile name)) :
    Records r (.load (r.finishLoad outcome).1) (r.finishLoad outcome).2 := by
  cases outcome with
  | ok a => exact records_of_calm _ rfl (calm_singleton (by decide)) (List.cons_ne_nil _ _) rfl
  | error e =>
    refine records_of_reports _ rfl List.mem_cons_self (LogEntry.reports_error _ _) ?_
    exact failure?_load_error fun name he => hne name (congrArg Except.error he)

theorem records_load (r : Runner) (name : String) {outcome : Except IngestError Artifact}
    (hne : ∀ name, outcome ≠ .error (.unsupportedFile name)) :
    Records r (.load ((r.beginLoad name).finishLoad outcome).1)
      ((r.beginLoad name).finishLoad outcome).2 :=
  .after (r.beginLoad name) rfl (calm_singleton (by decide)) (records_finishLoad _ hne)

theorem records_loadDropped (r : Runner) (path : String) (outcome : Except IoError ByteArray) :
    Records r (.load (r.loadDropped path outcome).1) (r.loadDropped path outcome).2 := by
  delta loadDropped
  split
  · exact records_of_calm _ rfl (calm_singleton (by decide)) (List.cons_ne_nil _ _) rfl
  · rename_i hne
    exact records_load r path fun name hloaded => hne name hloaded

theorem records_loadExample (r : Runner) (e : Example) (outcome : Except IoError ByteArray) :
    Records r (.load (r.loadExample e outcome).1) (r.loadExample e outcome).2 := by
  have hannounced : Calm [LogEntry.info ("Loading example: " ++ e.fileName),
    .info ("Loading component: " ++ e.fileName)] :=
    calm_cons (by decide) (calm_singleton (by decide))
  rw [loadExample]
  cases ho : Artifact.ofExample e outcome with
  | ok a =>
    refine records_of_calm [.info ("Loading example: " ++ e.fileName),
      .info ("Loading component: " ++ e.fileName),
      .success ("Component loaded successfully (" ++ a.kibibytes ++ " KB)")] ?_
      (hannounced.append (calm_singleton (by decide))) (List.cons_ne_nil _ _) rfl
    simp [finishLoad, beginLoad, write]
  | error err =>
    have hne : ∀ name, err ≠ .unsupportedFile name := fun name herr =>
      Artifact.ofExample_ne_unsupportedFile (herr ▸ ho)
    -- the advice comes behind the error
    refine records_of_reports [.info ("Loading example: " ++ e.fileName),
      .info ("Loading component: " ++ e.fileName),
      .error ("Error loading component: " ++ err.message),
      .info "Make sure the example file exists in the examples directory"] ?_ ?_
      (LogEntry.reports_error "Error loading component: " err.message) (failure?_load_error hne)
    · simp [finishLoad, beginLoad, write]
    · exact List.mem_cons_of_mem _ (List.mem_cons_of_mem _ List.mem_cons_self)

theorem records_finishTranspile (r : Runner) (a : Artifact) {attempt : Attempt}
    (hcalm : Calm attempt.notes) {before : Log} (hlog : r₁.log = r.log ++ before)
    (hbefore : Calm before) (hne : before ≠ []) :
    Records r (.transpile (r₁.finishTranspile a attempt).1) (r₁.finishTranspile a attempt).2 := by
  obtain ⟨outcome, resources, notes⟩ := attempt
  cases outcome with
  | ok m =>
    refine records_of_calm _ ?_ (hbefore.append hcalm) (List.append_ne_nil_of_left_ne_nil hne _) rfl
    show r₁.log ++ notes = _
    rw [hlog, List.append_assoc]
  | error e =>
    refine ⟨before ++ notes ++ failureNotes e, ?_, (tells_failureNotes e).after
      (hbefore.append hcalm)⟩
    show r₁.log ++ notes ++ failureNotes e = _
    rw [hlog, List.append_assoc, List.append_assoc, List.append_assoc]

theorem records_transpile (h : Host) (r : Runner) (elapsed : Nat) :
    Records r (.transpile (r.transpile h elapsed).1) (r.transpile h elapsed).2 := by
  rw [transpile, State.beginTranspile]
  cases ha : r.state.artifact? with
  | none => exact ⟨_, rfl, tells_failureNotes .noComponent⟩
  | some a =>
    have hcalm := (h.attempt_ending r.attempts a elapsed (r.state.release r.resources)).calm
    exact records_finishTranspile r a hcalm rfl (calm_singleton (by decide)) (List.cons_ne_nil _ _)

theorem records_answerNote {name : String} {answer : Answer}
    (hlog : r'.log = r.log ++ [answerNote name answer]) : Records r (.call answer) r' := by
  cases answer with
  | ok j => exact records_of_calm _ hlog (calm_singleton (by decide)) (List.cons_ne_nil _ _) rfl
  | error e => exact records_of_reports _ hlog List.mem_cons_self (LogEntry.reports_error _ _) rfl

theorem calm_ambiguityNotes (r : Runner) (name path : String) :
    Calm (r.ambiguityNotes name path) :=
  calm_ite calm_nil (calm_ite calm_nil (calm_singleton (by decide)))

theorem records_callWith (r : Runner) (name : String) (args : List Json) :
    Records r (.call (r.callWith name args).1) (r.callWith name args).2 := by
  rw [callWith]
  split
  · rename_i m x _ _
    have hcalm : Calm (r.ambiguityNotes name x.path ++
        [.info ("Calling " ++ x.displayName ++ "(" ++ Arguments.format args ++ ")")]) :=
      (r.calm_ambiguityNotes name x.path).append (calm_singleton (by decide))
    exact .after (r.write _) rfl hcalm (records_answerNote rfl)
  · exact records_answerNote rfl

theorem records_run (r : Runner) : Records r (.run r.run.1) r.run.2 := by
  refine .after (r.write [.info "Attempting to run component..."]) rfl
    (calm_singleton (by decide)) ?_
  rw [run]
  split
  · exact records_of_calm _ rfl (calm_singleton (by decide)) (List.cons_ne_nil _ _) rfl
  · rename_i m _
    split
    · exact records_of_calm _ rfl (calm_singleton (by decide)) (List.cons_ne_nil _ _) rfl
    · rename_i name f _
      refine .after ((r.write [.info "Attempting to run component..."]).write
        [.info ("Found \"" ++ name ++ "\" export, executing...")]) rfl
        (calm_singleton (by decide)) ?_
      generalize hanswer : (m.enter f []).1 = answer
      simp only [enter, hanswer]
      cases answer with
      | ok j => exact records_of_calm _ rfl (calm_singleton (by decide)) (List.cons_ne_nil _ _) rfl
      | error e =>
        exact records_of_reports _ rfl List.mem_cons_self (LogEntry.reports_error _ _) rfl

/-- Every operation but the one that empties the log writes what its reply reports. -/
theorem step_records (h : Host) (r : Runner) {op : Operation} (hop : op ≠ .clearLog) :
    Records r (r.step h op).1 (r.step h op).2 := by
  cases op with simp only [step, Prod.map_fst, Prod.map_snd, id]
  | loadBytes bytes filename =>
    exact records_load r filename fun _ => Artifact.ofBytes_ne_unsupportedFile
  | loadFile path outcome => exact records_load r path fun _ => Artifact.ofFile_ne_unsupportedFile
  | loadDropped path outcome => exact records_loadDropped r path outcome
  | loadExample e outcome => exact records_loadExample r e outcome
  | transpile elapsed => exact records_transpile h r elapsed
  | call name text => exact records_callWith r name (Arguments.parse text)
  | callWith name args => exact records_callWith r name args
  | run => exact records_run r
  | clearLog => exact absurd rfl hop

/-- **The log is written behind, and tells the truth.**  Take any host and any runner.  An operation
that does not empty the log leaves it as it was, with at least one entry more behind.  One of the
new entries is an error if and only if the operation reports a failure, and then one of these errors
has the message of that failure in it.  Emptying the log leaves the notice of that, and changes
nothing else. -/
theorem log_tells (h : Host) (r : Runner) (op : Operation) :
    (op ≠ .clearLog → ∃ new : Log, new ≠ [] ∧ (r.step h op).2.log = r.log ++ new ∧
      ((∃ e ∈ new, e.level = .error) ↔ (r.step h op).1.failure?.isSome = true) ∧
        ∀ text, (r.step h op).1.failure? = some text →
          ∃ e ∈ new, e.level = .error ∧ text.toList <:+: e.message.toList) ∧
      r.step h .clearLog = (.done, { r with log := [.info "Output cleared"] }) := by
  refine ⟨?_, rfl⟩
  intro hop
  obtain ⟨new, hlog, htells⟩ := step_records h r hop
  exact ⟨new, htells.ne_nil, hlog, htells.error_iff, htells.said⟩

def strictHost : Host := .bundled ⟨fun _ => .error ⟨"magic header not detected", []⟩⟩ {}

/-- The error of a transpilation stands in the log, with advice behind it. -/
theorem log_tells_advice :
    let r := ((initial 0).step strictHost (.loadBytes ⟨#[0]⟩ "a.wasm")).2
    Operation.transpile 0 ≠ .clearLog ∧
      (r.step strictHost (.transpile 0)).1.failure? =
        some "Invalid WebAssembly component: magic header not detected" ∧
      ∃ new : Log, (r.step strictHost (.transpile 0)).2.log = r.log ++ new ∧ new.length = 3 ∧
        ∃ e ∈ new, e.level = .error ∧
          "Invalid WebAssembly component: magic header not detected".toList <:+:
            e.message.toList := by
  intro r
  have hfailure : (r.step strictHost (.transpile 0)).1.failure? =
      some "Invalid WebAssembly component: magic header not detected" := by decide +kernel
  have hlength : (r.step strictHost (.transpile 0)).2.log.length = r.log.length + 3 := by
    decide +kernel
  obtain ⟨hwritten, -⟩ := log_tells strictHost r (.transpile 0)
  obtain ⟨new, -, hlog, -, hsaid⟩ := hwritten nofun
  rw [hlog, List.length_append] at hlength
  exact ⟨nofun, hfailure, new, hlog, Nat.add_left_cancel hlength, hsaid _ hfailure⟩

/-! ## Runs -/

/-- **The log of a run tells of every failure in it.**  After operations that do not empty the log,
it is what it was with more behind.  An error is among that if and only if one of the replies is a
failure, and for each failure there is an error with its message in it. -/
theorem log_after_tells (h : Host) (r : Runner) {ops : List Operation}
    (hops : .clearLog ∉ ops) :
    ∃ new : Log, (r.after h ops).log = r.log ++ new ∧
      ((∃ e ∈ new, e.level = .error) ↔ ∃ reply ∈ r.replies h ops, reply.failure?.isSome = true) ∧
        ∀ reply ∈ r.replies h ops, ∀ text, reply.failure? = some text →
          ∃ e ∈ new, e.Reports text := by
  induction ops generalizing r with
  | nil =>
    refine ⟨[], (List.append_nil _).symm, ⟨?_, ?_⟩, ?_⟩
    · rintro ⟨e, he, -⟩
      exact absurd he List.not_mem_nil
    · rintro ⟨reply, hreply, -⟩
      exact absurd hreply List.not_mem_nil
    · intro reply hreply
      exact absurd hreply List.not_mem_nil
  | cons op ops ih =>
    rw [List.mem_cons, not_or] at hops
    obtain ⟨new, hlog, htells⟩ := step_records h r (Ne.symm hops.1)
    obtain ⟨more, hmore, hiff, hsaid⟩ := ih (r.step h op).2 hops.2
    refine ⟨new ++ more, ?_, ?_, ?_⟩
    · rw [after_cons, hmore, hlog, List.append_assoc]
    · simp only [replies, List.mem_append, List.mem_cons, or_and_right, exists_or, exists_eq_left,
        htells.error_iff, hiff]
    · intro reply hreply text htext
      rcases List.mem_cons.mp hreply with rfl | hreply
      · obtain ⟨e, he, hreports⟩ := htells.said text htext
        exact ⟨e, List.mem_append_left _ he, hreports⟩
      · obtain ⟨e, he, hreports⟩ := hsaid reply hreply text htext
        exact ⟨e, List.mem_append_right _ he, hreports⟩

end Runner

end ComponentHost
