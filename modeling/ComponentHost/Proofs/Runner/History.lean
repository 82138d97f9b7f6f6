/-
# `ComponentHost.Proofs.Runner.History` — a transpilation does not remember

Two runners of one host that hold the same artifact transpile it alike, whatever
happened to them before: earlier attempts that failed, modules that were called into,
loads that were refused.  What may differ is the time that is told, and the handles;
those are renamed, one by one, in the error and in the log.

    equal              count, status, phase, exports, every reply to calls from then on
    equal but for      a load error and the log: the locators of the handles drawn,
                       and the line that tells the time

The transpiler has to be steady, and its output must not spell out a locator: a source
that guesses one would be served by one run and not by another.
-/
import ComponentHost.Component.Behaviour
import ComponentHost.Proofs.Entry.Draft
import ComponentHost.Proofs.Runner.Handles
import ComponentHost.Proofs.Runner.Link

namespace ComponentHost

open Entry

/-! ## Renaming handles in texts -/

/-- The texts are equal but for locators of handles, which are paired by `σ`. -/
inductive Handle.Renamed (σ : List (Handle × Handle)) : List Char → List Char → Prop
  | nil : Renamed σ [] []
  | char (c : Char) {cs ds : List Char} : Renamed σ cs ds → Renamed σ (c :: cs) (c :: ds)
  | handle {H H' : Handle} {cs ds : List Char} : (H, H') ∈ σ → Renamed σ cs ds →
      Renamed σ (H.locator.toList ++ cs) (H'.locator.toList ++ ds)

/-- The errors are equal but for locators in the text of a bad line. -/
inductive PipelineError.Renamed (σ : List (Handle × Handle)) :
    PipelineError → PipelineError → Prop
  | same (e : PipelineError) : Renamed σ e e
  | malformed (line : Nat) {text text' : String} : Handle.Renamed σ text.toList text'.toList →
      Renamed σ (.load (.malformed line text)) (.load (.malformed line text'))

/-- The entries are equal but for locators, or both tell how long a transpilation took. -/
inductive LogEntry.Renamed (σ : List (Handle × Handle)) : LogEntry → LogEntry → Prop
  | text (level : LogLevel) {message message' : String} :
      Handle.Renamed σ message.toList message'.toList → Renamed σ ⟨level, message⟩ ⟨level, message'⟩
  | timed (elapsed elapsed' : Nat) :
      Renamed σ (.success ("Transpilation completed in " ++ Decimal.hundredths elapsed ++ "s"))
        (.success ("Transpilation completed in " ++ Decimal.hundredths elapsed' ++ "s"))

/-- The answers to a transpilation: the same count, or errors that are equal but for locators. -/
inductive Runner.SameAnswer (σ : List (Handle × Handle)) :
    Except PipelineError Nat → Except PipelineError Nat → Prop
  | ok (count : Nat) : SameAnswer σ (.ok count) (.ok count)
  | error {e e' : PipelineError} : e.Renamed σ e' → SameAnswer σ (.error e) (.error e')

section Renamed

variable {σ : List (Handle × Handle)}

theorem Handle.Renamed.prepend {cs ds : List Char} (h : Handle.Renamed σ cs ds) :
    ∀ before : List Char, Handle.Renamed σ (before ++ cs) (before ++ ds)
  | [] => h
  | c :: before => .char c (h.prepend before)

theorem Handle.Renamed.refl (cs : List Char) : Handle.Renamed σ cs cs := by
  have h := Handle.Renamed.prepend (σ := σ) .nil cs
  rwa [List.append_nil] at h

theorem LogEntry.Renamed.refl (e : LogEntry) : LogEntry.Renamed σ e e :=
  .text e.level (.refl _)

theorem LogEntry.Renamed.failure {message message' : String}
    (h : Handle.Renamed σ message.toList message'.toList) :
    LogEntry.Renamed σ (.error message) (.error message') := .text _ h

theorem Entry.fill_renamed {κ : Type} {v w : κ → Handle} (h : ∀ k, (v k, w k) ∈ σ) :
    ∀ E : List (Piece κ), Handle.Renamed σ (fill v E) (fill w E)
  | [] => .nil
  | .plain c :: E => .char c (fill_renamed h E)
  | .hole k :: E => by
      rw [fill_hole, fill_hole]
      exact .char _ (.handle (h k) (.char _ (fill_renamed h E)))

theorem LoadError.message_malformed (line : Nat) (text : String) :
    (LoadError.malformed line text).message =
      "Syntax error on line " ++ toString line ++ ": " ++ text := by
  delta LoadError.message
  dsimp only

theorem PipelineError.Renamed.notes {e e' : PipelineError} (h : e.Renamed σ e') :
    List.Forall₂ (LogEntry.Renamed σ) (Runner.failureNotes e) (Runner.failureNotes e') := by
  cases h with
  | same => exact List.forall₂_same.mpr fun x _ => .refl x
  | @malformed line text text' htext =>
    have hnotes : ∀ text, Runner.failureNotes (.load (.malformed line text)) =
        [.error ("Transpilation failed: " ++ (LoadError.malformed line text).message)] := by
      intro text
      simp [Runner.failureNotes, PipelineError.message, PipelineError.hint]
    rw [hnotes, hnotes]
    refine List.Forall₂.cons (LogEntry.Renamed.failure ?_) .nil
    simp only [LoadError.message_malformed, String.toList_append, List.append_assoc]
    exact (((htext.prepend _).prepend _).prepend _).prepend _

end Renamed

/-! ## Loading what was linked -/

section Load

variable {s : FileSet}

/-- Drafts evaluate alike in a fresh table, wherever its handles start. -/
theorem Entry.run_drafts (l : Loader) (first first' : Nat) :
    ∀ (ds : List (Draft (Fin s.binaries.length))) (linkage : Linkage), (∀ d ∈ ds, d.Absent) →
      l.run (fun _ locator => (s.table first).resolve locator) linkage
          (ds.map (Draft.fill (Handle.nth first))) =
        l.run (fun _ locator => (s.table first').resolve locator) linkage
          (ds.map (Draft.fill (Handle.nth first')))
  | [], _, _ => rfl
  | d :: ds, linkage, h => by
      have hstep : l.step (fun _ locator => (s.table first).resolve locator) linkage
            (d.fill (Handle.nth first)) =
          l.step (fun _ locator => (s.table first').resolve locator) linkage
            (d.fill (Handle.nth first')) := by
        cases d with
        | linked form binding k =>
          simp only [Draft.fill, Loader.step, FileSet.resolve_nth]
        | fixed st =>
          cases st with
          | bind form binding locator =>
            have hlocator : Handle.Absent locator.toList := h _ List.mem_cons_self
            simp only [Draft.fill, Loader.step, FileSet.resolve_absent hlocator]
          | exportAll binding => rfl
          | exportDefault binding => rfl
      rw [List.map_cons, List.map_cons, Loader.run, Loader.run, hstep]
      cases l.step (fun _ locator => (s.table first').resolve locator) linkage
          (d.fill (Handle.nth first')) with
      | error e => rfl
      | ok linkage' =>
        exact run_drafts l first first' ds linkage' fun d hd => h d (List.mem_cons_of_mem _ hd)

/-- How the linked source loads, with handles from two starts. -/
inductive SameLoad (σ : List (Handle × Handle)) :
    Except LoadError Module → Except LoadError Module → Prop
  | malformed (line : Nat) {text text' : String} : Handle.Renamed σ text.toList text'.toList →
      SameLoad σ (.error (.malformed line text)) (.error (.malformed line text'))
  | error (e : LoadError) : SameLoad σ (.error e) (.error e)
  | ok (graph : Graph BoundFunction) (instances : List Instance) (source source' : String) :
      SameLoad σ (.ok ⟨graph, instances, source⟩) (.ok ⟨graph, instances, source'⟩)

theorem zip_range_nth (first first' : Nat) {n : Nat} (k : Fin n) :
    (Handle.nth first k, Handle.nth first' k) ∈
      (Handle.range first n).zip (Handle.range first' n) := by
  refine List.mem_iff_getElem.mpr ⟨k, by simp, ?_⟩
  simp [Handle.range, Handle.nth]

theorem FileSet.load_link (s : FileSet) (l : Loader) {source : String}
    (h : Handle.Absent source.toList) (first first' : Nat) :
    SameLoad ((Handle.range first s.binaries.length).zip (Handle.range first' s.binaries.length))
      (Module.load l (s.link (Handle.range first s.binaries.length) source) (s.table first))
      (Module.load l (s.link (Handle.range first' s.binaries.length) source) (s.table first')) := by
  obtain ⟨E, hE, habsent⟩ := relinkText_fill (fun H => place_locator (s := s) H) source.toList
  have hlink : ∀ first, s.link (Handle.range first s.binaries.length) source =
      String.ofList (fill (Handle.nth first) E) := by
    intro first
    rw [← hE, ← toList_link, String.ofList_toList]
  rw [hlink, hlink, Module.load, Module.load]
  -- a line that cannot be read is told with the locators in it, so the errors differ in them
  rcases parse_fill E with ⟨ds, hds, hparse⟩ | ⟨line, F, hparse⟩
  · rw [hparse, hparse]
    simp only
    rw [run_drafts l first first' ds .initial (hds (habsent h))]
    cases l.run (fun _ locator => (s.table first').resolve locator) .initial
        (ds.map (Draft.fill (Handle.nth first'))) with
    | error e => exact .error e
    | ok linkage => exact .ok linkage.graph linkage.instances _ _
  · rw [hparse, hparse]
    refine .malformed line ?_
    rw [String.toList_ofList, String.toList_ofList]
    exact fill_renamed (zip_range_nth first first') F

end Load

/-! ## Attempts -/

/-- Two modules differ in their source and their handles only. -/
structure Runnable.Twin (m m' : Runnable) : Prop where
  graph : m.module.graph = m'.module.graph
  instances : m.module.instances = m'.module.instances
  root : m.root = m'.root
  exports : m.exports = m'.exports

/-- Two attempts end alike: both fail, or both make a module. -/
inductive Attempt.Twin (σ : List (Handle × Handle)) : Attempt → Attempt → Prop
  | failed {e e' : PipelineError} {notes notes' : Log} (table table' : ResourceTable) :
      e.Renamed σ e' → List.Forall₂ (LogEntry.Renamed σ) notes notes' →
      Twin σ ⟨.error e, table, notes⟩ ⟨.error e', table', notes'⟩
  | made {m m' : Runnable} {notes notes' : Log} (table table' : ResourceTable) :
      m.Twin m' → m.handles.length = m'.handles.length → m.handles.zip m'.handles = σ →
      List.Forall₂ (LogEntry.Renamed σ) notes notes' →
      Twin σ ⟨.ok m, table, notes⟩ ⟨.ok m', table', notes'⟩

/-- The output of the transpiler spells out no locator. -/
def Transpiler.Unaware (t : Transpiler) : Prop :=
  ∀ number bytes options out source, t.transpile number bytes options = .ok out →
    out.files.entrySource entryPointFile = .ok source → Handle.Absent source.toList

/-- The handles that an attempt draws in an empty table. -/
def Host.drawn (h : Host) (number : Nat) (a : Artifact) (first : Nat) : List Handle :=
  match h.transpiler.transpile number a.bytes {} with
  | .error _ => []
  | .ok t =>
    match t.files.entrySource entryPointFile with
    | .error _ => []
    | .ok _ => Handle.range first t.files.binaries.length

section Attempt

variable {σ : List (Handle × Handle)}

theorem forall₂_refl (notes : Log) : List.Forall₂ (LogEntry.Renamed σ) notes notes :=
  List.forall₂_same.mpr fun x _ => .refl x

theorem forall₂_append {notes notes' more more' : Log}
    (h : List.Forall₂ (LogEntry.Renamed σ) notes notes')
    (hmore : List.Forall₂ (LogEntry.Renamed σ) more more') :
    List.Forall₂ (LogEntry.Renamed σ) (notes ++ more) (notes' ++ more') :=
  List.rel_append h hmore

theorem transpiledNotes_renamed (elapsed elapsed' : Nat) (t : Transpiled) :
    List.Forall₂ (LogEntry.Renamed σ) (transpiledNotes elapsed t) (transpiledNotes elapsed' t) :=
  .cons (.timed elapsed elapsed') (forall₂_refl _)

/-- **Attempts at one artifact end alike**, whatever their number, their time and the handles that
were drawn before. -/
theorem Host.attempt_twin {h : Host} (hsteady : h.transpiler.Steady)
    (hunaware : h.transpiler.Unaware) (a : Artifact) (number number' elapsed elapsed' : Nat)
    (first first' : Nat) :
    Attempt.Twin ((h.drawn number a first).zip (h.drawn number' a first'))
      (h.attempt number a elapsed (.empty first))
      (h.attempt number' a elapsed' (.empty first')) := by
  rw [Host.attempt, Host.attempt, Host.drawn, Host.drawn, hsteady number number']
  cases ht : h.transpiler.transpile number' a.bytes {} with
  | error e => exact .failed _ _ (.same _) (forall₂_refl _)
  | ok t =>
    simp only [build]
    cases hs : t.files.entrySource entryPointFile with
    | error e => exact .failed _ _ (.same _) (transpiledNotes_renamed elapsed elapsed' t)
    | ok source =>
      have hload := t.files.load_link h.loader (hunaware _ _ _ _ _ ht hs) first first'
      simp only [buildFrom, FileSet.createAll_resources]
      generalize Module.load h.loader (t.files.link (Handle.range first _) source) _ = loaded
        at hload ⊢
      generalize Module.load h.loader (t.files.link (Handle.range first' _) source) _ = loaded'
        at hload ⊢
      have hnotes := transpiledNotes_renamed (σ := (Handle.range first t.files.binaries.length).zip
        (Handle.range first' t.files.binaries.length)) elapsed elapsed' t
      cases hload with
      | malformed line htext =>
        exact .failed _ _ (.malformed line htext) (forall₂_append hnotes (forall₂_refl _))
      | error e => exact .failed _ _ (.same _) (forall₂_append hnotes (forall₂_refl _))
      | ok graph instances source source' =>
        exact .made _ _ ⟨rfl, rfl, rfl, rfl⟩ (by simp [Runnable.discover]) rfl
          (forall₂_append hnotes (forall₂_refl _))

theorem Host.mem_zip_drawn {h : Host} (hsteady : h.transpiler.Steady) {a : Artifact}
    {number number' first first' : Nat} {p : Handle × Handle}
    (hp : p ∈ (h.drawn number a first).zip (h.drawn number' a first')) :
    ∃ i, p = (⟨first + i⟩, ⟨first' + i⟩) := by
  rw [Host.drawn, Host.drawn, hsteady number number'] at hp
  cases ht : h.transpiler.transpile number' a.bytes {} with
  | error e => simp [ht] at hp
  | ok t =>
    cases hs : t.files.entrySource entryPointFile with
    | error e => simp [ht, hs] at hp
    | ok source =>
      simp only [ht, hs] at hp
      obtain ⟨i, hi, rfl⟩ := List.mem_iff_getElem.mp hp
      exact ⟨i, by simp [Handle.range]⟩

end Attempt

/-! ## Calls -/

theorem Runnable.Twin.enter {m m' : Runnable} (hm : m.Twin m') (f : BoundFunction)
    (args : List Json) :
    (m.enter f args).1 = (m'.enter f args).1 ∧ (m.enter f args).2.Twin (m'.enter f args).2 := by
  simp only [Runnable.enter, hm.instances]
  exact ⟨trivial, hm.graph, rfl, hm.root, hm.exports⟩

theorem Operation.brings?_of_calls {op : Operation} (hc : op.calls = true) : op.brings? = none := by
  cases op <;> first | rfl | cases hc

namespace Runner

/-- Two runners have twin modules, or none. -/
def Twin (r r' : Runner) : Prop :=
  Option.Rel Runnable.Twin r.state.runnable? r'.state.runnable?

variable {h : Host} {r r' : Runner}

theorem Twin.exports (ht : Twin r r') : r.exports = r'.exports := by
  rw [Runner.exports, Runner.exports, State.exports, State.exports]
  rw [Twin] at ht
  generalize r.state.runnable? = o at ht ⊢
  generalize r'.state.runnable? = o' at ht ⊢
  cases ht with
  | none => rfl
  | some hm => exact hm.exports

theorem Twin.target? (ht : Twin r r') (op : Operation) : r.target? op = r'.target? op := by
  have hfind : ∀ name, r.findExport name = r'.findExport name := by
    intro name
    rw [findExport, findExport, ht.exports]
  cases op with
  | call name text => rw [Runner.target?, Runner.target?, hfind]
  | callWith name args => rw [Runner.target?, Runner.target?, hfind]
  | run =>
    rw [Runner.target?, Runner.target?]
    rw [Twin] at ht
    generalize r.state.runnable? = o at ht ⊢
    generalize r'.state.runnable? = o' at ht ⊢
    cases ht with
    | none => rfl
    | some hm => rw [Option.bind_some, Option.bind_some, hm.graph, hm.root]
  | _ => rfl

/-- What an operation does that calls: it enters a function of the module, or finds none. -/
theorem Move.of_calls {op : Operation} {reply : Reply} (hc : op.calls = true)
    (hmove : Move h r op reply r') :
    (∃ m f args, r.state.runnable? = some m ∧ r.target? op = some (f, args) ∧
        reply = op.answered (some (m.enter f args).1) ∧
        r'.state.runnable? = some (m.enter f args).2) ∨
      r.target? op = none ∧ reply = op.answered none ∧ r'.state = r.state := by
  cases hmove with
  | entered _ hs ht => exact .inl ⟨_, _, _, by rw [hs]; rfl, ht, rfl, rfl⟩
  | noted _ _ ht => exact .inr ⟨ht, rfl, rfl⟩
  | taken _ hb => cases hb.symm.trans (Operation.brings?_of_calls hc)
  | ignored _ hb => cases hb.symm.trans (Operation.brings?_of_calls hc)
  | refused _ hb _ => cases hb.symm.trans (Operation.brings?_of_calls hc)
  | _ => cases hc

theorem Twin.step (ht : Twin r r') {op : Operation} (hc : op.calls = true) :
    (r.step h op).1 = (r'.step h op).1 ∧ Twin (r.step h op).2 (r'.step h op).2 := by
  have htarget := ht.target? op
  rcases (step_move h r op).of_calls hc with ⟨m, f, args, hm, hf, hreply, hnext⟩ |
    ⟨hf, hreply, hstate⟩
  · rcases (step_move h r' op).of_calls hc with ⟨m', f', args', hm', hf', hreply', hnext'⟩ |
      ⟨hf', -, -⟩
    · obtain ⟨rfl, rfl⟩ := Prod.mk.inj (Option.some.inj (hf.symm.trans (htarget.trans hf')))
      rw [Twin, hm, hm'] at ht
      cases ht with
      | some hm =>
        obtain ⟨hanswer, htwin⟩ := hm.enter f args
        refine ⟨by rw [hreply, hreply', hanswer], ?_⟩
        rw [Twin, hnext, hnext']
        exact .some htwin
    · cases hf.symm.trans (htarget.trans hf')
  · rcases (step_move h r' op).of_calls hc with ⟨m', f', args', hm', hf', -, -⟩ |
      ⟨hf', hreply', hstate'⟩
    · cases hf.symm.trans (htarget.trans hf')
    · exact ⟨by rw [hreply, hreply'], by rwa [Twin, hstate, hstate']⟩

theorem Twin.replies :
    ∀ {r r' : Runner} (_ : Twin r r') (calls : List Operation),
      (∀ op ∈ calls, op.calls = true) → replies h r calls = replies h r' calls
  | _, _, _, [], _ => rfl
  | _, _, ht, op :: calls, hc => by
      obtain ⟨hreply, hnext⟩ := ht.step (h := h) (hc op List.mem_cons_self)
      rw [Runner.replies, Runner.replies, hreply,
        hnext.replies calls fun op hop => hc op (List.mem_cons_of_mem _ hop)]

/-! ## Transpilations -/

/-- Two transpilations, from the runners `r` and `r'`, have ended alike. -/
structure SameTranspilation (σ : List (Handle × Handle)) (r r' : Runner)
    (x x' : Except PipelineError Nat × Runner) : Prop where
  answer : SameAnswer σ x.1 x'.1
  log : ∃ notes notes', x.2.log = r.log ++ notes ∧ x'.2.log = r'.log ++ notes' ∧
    List.Forall₂ (LogEntry.Renamed σ) notes notes'
  status : x.2.status = x'.2.status
  phase : x.2.phase = x'.2.phase
  exports : x.2.exports = x'.2.exports
  /-- The handles that are alive after them are paired in file order. -/
  handles : x.2.state.handles.length = x'.2.state.handles.length ∧
    x.2.state.handles.zip x'.2.state.handles ⊆ σ

theorem finishTranspile_twin {σ : List (Handle × Handle)} {attempt attempt' : Attempt}
    (hatt : attempt.Twin σ attempt') (r r' : Runner) (a : Artifact) :
    SameTranspilation σ r r' (r.finishTranspile a attempt) (r'.finishTranspile a attempt') ∧
      Twin (r.finishTranspile a attempt).2 (r'.finishTranspile a attempt').2 := by
  cases hatt with
  | @failed e e' notes notes' table table' he hnotes =>
    refine ⟨⟨.error he, ?_, rfl, rfl, rfl, rfl, by simp [finishTranspile, State.handles,
      State.runnable?]⟩, .none⟩
    refine ⟨notes ++ failureNotes e, notes' ++ failureNotes e', ?_, ?_,
      forall₂_append hnotes he.notes⟩
    · simp [finishTranspile, write]
    · simp [finishTranspile, write]
  | @made m m' notes notes' table table' hm hlen hσ hnotes =>
    refine ⟨⟨?_, ⟨notes, notes', rfl, rfl, hnotes⟩, rfl, rfl, hm.exports, hlen, ?_⟩, .some hm⟩
    · simp only [finishTranspile, hm.exports]
      exact .ok _
    · exact hσ ▸ List.Subset.refl _

theorem transpile_eq (h : Host) {a : Artifact} (ha : r.artifact? = some a) (elapsed : Nat) :
    r.transpile h elapsed =
      ({ r.write [.info "Starting transpilation..."] with
          state := .transpiling a
          resources := r.state.release r.resources
          status := .transpiling } : Runner).finishTranspile a
        (h.attempt r.attempts a elapsed (r.state.release r.resources)) := by
  rw [artifact?] at ha
  simp only [transpile, State.beginTranspile, ha, write]

theorem Exact.draws_transpile (he : Exact h r) {a : Artifact} (ha : r.artifact? = some a)
    (elapsed : Nat) : r.draws h (.transpile elapsed) = h.drawn r.attempts a r.resources.next := by
  rw [draws, ha, Host.drawn]
  simp only
  cases h.transpiler.transpile r.attempts a.bytes {} with
  | error e => rfl
  | ok t =>
    simp only
    cases t.files.entrySource entryPointFile with
    | error e => rfl
    | ok source => simp only [he.release, FileSet.createAll_resources]

/-- **A transpilation does not remember.**  Two runners of one host, whose transpiler is steady and
spells out no locator, hold the same artifact after any two histories.  Then they transpile it
alike: they answer the same, say the same, and come to the same status, phase and exports, up to
the names of the handles they draw, which `σ` pairs one to one, and to the time they tell.  From
then on they answer all calls the same. -/
theorem transpile_of_same_artifact (h : Host) (hsteady : h.transpiler.Steady)
    (hunaware : h.transpiler.Unaware) (first first' : Nat) (ops ops' : List Operation)
    (elapsed elapsed' : Nat) (a : Artifact)
    (ha : ((initial first).after h ops).artifact? = some a)
    (ha' : ((initial first').after h ops').artifact? = some a) :
    let r := (initial first).after h ops
    let r' := (initial first').after h ops'
    let σ := (r.draws h (.transpile elapsed)).zip (r'.draws h (.transpile elapsed'))
    (∀ p ∈ σ, ∀ q ∈ σ, p.1 = q.1 ↔ p.2 = q.2) ∧
      SameTranspilation σ r r' (r.transpile h elapsed) (r'.transpile h elapsed') ∧
      ∀ calls, (∀ op ∈ calls, op.calls = true) →
        replies h (r.transpile h elapsed).2 calls =
          replies h (r'.transpile h elapsed').2 calls := by
  intro r r' σ
  have he : Exact h r := exact_after h first ops
  have he' : Exact h r' := exact_after h first' ops'
  have hσ : σ = (h.drawn r.attempts a r.resources.next).zip
      (h.drawn r'.attempts a r'.resources.next) := by
    rw [← he.draws_transpile ha elapsed, ← he'.draws_transpile ha' elapsed']
  have hatt := h.attempt_twin hsteady hunaware a r.attempts r'.attempts elapsed elapsed'
    r.resources.next r'.resources.next
  rw [← hσ, ← he.release, ← he'.release] at hatt
  rw [transpile_eq h ha, transpile_eq h ha']
  refine ⟨fun p hp q hq => ?_, ?_, fun calls hcalls => ?_⟩
  · rw [hσ] at hp hq
    obtain ⟨i, rfl⟩ := Host.mem_zip_drawn hsteady hp
    obtain ⟨j, rfl⟩ := Host.mem_zip_drawn hsteady hq
    simp
  · obtain ⟨hanswer, ⟨notes, notes', hlog, hlog', hnotes⟩, hstatus, hphase, hexports, hhandles⟩ :=
      (finishTranspile_twin hatt _ _ a).1
    refine ⟨hanswer, ⟨.info "Starting transpilation..." :: notes,
      .info "Starting transpilation..." :: notes', ?_, ?_, .cons (.refl _) hnotes⟩, hstatus, hphase,
      hexports, hhandles⟩
    · simpa [write] using hlog
    · simpa [write] using hlog'
  · exact (finishTranspile_twin hatt _ _ a).2.replies calls hcalls

/-- The answer of a transpiler that makes one module with one component. -/
def plainOutput : Transpiled where
  files := .ofList [(entryPointFile, "import a from './a.wasm';\nexport * from a;\n".toUTF8),
    ("a.wasm", ⟨#[1]⟩)]
  exports := []

/-- A host that takes all bytes for a component with a function that counts its calls. -/
def countingHost : Host where
  engine := ⟨fun _ =>
    .ok ⟨[("next", .function ⟨[], some (.int .u32)⟩ (some Body.count))], 0, [], .ok ⟨0, 0⟩⟩⟩
  transpiler := ⟨fun _ _ _ => .ok plainOutput⟩
  config := {}

theorem countingHost_unaware : countingHost.transpiler.Unaware := by
  intro number bytes options out source hout hsource
  have hplain : plainOutput.files.entrySource entryPointFile =
      .ok "import a from './a.wasm';\nexport * from a;\n" := rfl
  cases hout
  cases hplain.symm.trans hsource
  exact Handle.absent_of_not_mem (c := ':') (by decide) (by decide)

/-- An artifact is loaded and transpiled, and its function is called twice. -/
def countedOperations : List Operation :=
  [.loadBytes ⟨#[1]⟩ "a.wasm", .transpile 3, .call "next" "", .call "next" ""]

/-- What has been counted is forgotten with the next transpilation, as if it were the first. -/
theorem transpile_again :
    let r := (initial 0).after countingHost [.loadBytes ⟨#[1]⟩ "a.wasm"]
    let r' := (initial 7).after countingHost countedOperations
    (r'.call "next" "").1.display = "Result: 3" ∧
      ((r.transpile countingHost 1).2.call "next" "").1.display = "Result: 1" ∧
      ∀ calls, (∀ op ∈ calls, op.calls = true) →
        replies countingHost (r.transpile countingHost 1).2 calls =
          replies countingHost (r'.transpile countingHost 2).2 calls := by
  intro r r'
  have hheld : r'.artifact?.map (fun a => (a.bytes, a.filename)) =
      some (⟨#[1]⟩, "a.wasm") := by decide +kernel
  obtain ⟨⟨bytes, filename, _⟩, ha', heq⟩ := Option.map_eq_some_iff.mp hheld
  obtain ⟨rfl, rfl⟩ := Prod.mk.inj heq
  have hsame := transpile_of_same_artifact countingHost (fun _ _ _ _ => rfl) countingHost_unaware
    0 7 [.loadBytes ⟨#[1]⟩ "a.wasm"] countedOperations 1 2 ⟨⟨#[1]⟩, "a.wasm", by decide⟩ rfl ha'
  exact ⟨by decide +kernel, by decide +kernel, hsame.2.2⟩

end Runner

end ComponentHost
