/-
# `ComponentHost.Proofs.Runner.Coherence` — the status, the phase and the controls

The status and the phase are set apart from each other, on every way that a load or a
transpilation can go, and in between both have values that must not be seen from outside.
Between operations they go together:

    status                                  phase
    noComponent                             empty
    componentLoaded, transpilationFailed    loaded
    transpilationComplete                   runnable
    loadFailed                              empty, loaded or runnable

The controls follow from the phase, and they promise what they show: a transpilation is
refused for want of a component, and a run for want of a module, exactly when the
control for it is off.
-/
import ComponentHost.Proofs.Runner.Step

namespace ComponentHost

/-- The status and the phase can be seen together. -/
inductive Status.Fits : Status → Phase → Prop
  | noComponent : Fits .noComponent .empty
  | componentLoaded : Fits .componentLoaded .loaded
  | transpilationFailed : Fits .transpilationFailed .loaded
  | transpilationComplete : Fits .transpilationComplete .runnable
  | loadFailed {phase : Phase} : phase ≠ .transpiling → Fits .loadFailed phase

theorem Status.Fits.phase_ne {status : Status} {phase : Phase} (hf : status.Fits phase) :
    phase ≠ .transpiling := by
  cases hf with
  | loadFailed hne => exact hne
  | _ => exact nofun

theorem Status.Fits.kind_ne {status : Status} {phase : Phase} (hf : status.Fits phase) :
    status.kind ≠ .loading := by
  cases hf <;> exact nofun

theorem Status.Fits.phase_eq {status : Status} {phase : Phase} (hf : status.Fits phase) :
    (status = .noComponent → phase = .empty) ∧
      (status = .componentLoaded ∨ status = .transpilationFailed → phase = .loaded) ∧
      (status = .transpilationComplete → phase = .runnable) := by
  cases hf <;> simp

namespace Runner

variable {h : Host} {r r' : Runner} {op : Operation} {reply : Reply}

/-! ## The invariant -/

theorem fits_initial (first : Nat) : (initial first).status.Fits (initial first).phase :=
  .noComponent

theorem fits_move (hf : r.status.Fits r.phase) (hmove : Move h r op reply r') :
    r'.status.Fits r'.phase := by
  cases hmove with
  | taken _ _ => exact .componentLoaded
  | ignored _ _ => exact hf
  | refused _ _ _ => exact .loadFailed hf.phase_ne
  | unready _ _ => exact hf
  | failed _ _ _ _ _ => exact .transpilationFailed
  | made _ _ _ _ _ => exact .transpilationComplete
  | entered _ hs _ =>
    have hphase : r.phase = .runnable := congrArg State.phase hs
    rw [hphase] at hf
    exact hf
  | noted _ _ _ => exact hf
  | cleared => exact hf

theorem fits_after (h : Host) (first : Nat) (ops : List Operation) :
    ((initial first).after h ops).status.Fits ((initial first).after h ops).phase :=
  after_induction (P := fun r => r.status.Fits r.phase) h (fits_initial first) fits_move ops

/-! ## The controls -/

/-- Where a transpilation is no control, there is no component, but for a transpilation under
way. -/
theorem artifact?_eq_none_iff (hp : r.phase ≠ .transpiling) :
    r.artifact? = none ↔ r.controls.transpile = false := by
  rw [phase] at hp
  rw [artifact?, controls, phase]
  cases hs : r.state with
  | transpiling a =>
    rw [hs] at hp
    exact absurd rfl hp
  | _ => simp [State.artifact?, State.phase, Phase.controls]

theorem runnable?_eq_none_iff : r.state.runnable? = none ↔ r.controls.run = false := by
  rw [controls, phase]
  cases r.state <;> simp [State.runnable?, State.phase, Phase.controls]

theorem attempt_outcome_ne (h : Host) (number : Nat) (a : Artifact) (elapsed : Nat)
    (table : ResourceTable) : (h.attempt number a elapsed table).outcome ≠ .error .noComponent := by
  have hend := h.attempt_ending number a elapsed table
  generalize h.attempt number a elapsed table = attempt at hend ⊢
  cases hend <;> exact nofun

theorem transpile_of_artifact?_eq_none (ha : r.artifact? = none) (elapsed : Nat) :
    r.transpile h elapsed = (.error .noComponent, r.write (failureNotes .noComponent)) := by
  have ha : r.state.artifact? = none := ha
  rw [transpile, State.beginTranspile, ha]

theorem transpile_eq_noComponent_iff (elapsed : Nat) :
    (r.transpile h elapsed).1 = .error .noComponent ↔ r.artifact? = none := by
  have hmove := move_transpile (h := h) (r := r) elapsed
  generalize (r.transpile h elapsed).1 = answer at hmove ⊢
  generalize (r.transpile h elapsed).2 = r' at hmove
  cases hmove with
  | unready _ ha => exact ⟨fun _ => ha, fun _ => rfl⟩
  | @failed _ a attempt e _ ha hatt he _ =>
    constructor
    · intro heq
      cases heq
      rw [hatt] at he
      exact (attempt_outcome_ne _ _ _ _ _ he).elim
    · intro hnone
      cases ha.symm.trans hnone
  | made _ ha _ _ _ => exact ⟨nofun, fun hnone => nomatch ha.symm.trans hnone⟩

/-- A run without a module leaves its notes and nothing else; any other leaves other notes. -/
theorem run_stops_iff :
    r.run.1 = none ∧ r.run.2.log = r.log ++ [.info "Attempting to run component...",
        .warning "No component has been transpiled yet"] ↔ r.state.runnable? = none := by
  rw [run]
  cases hm : r.state.runnable? with
  | none => simp [write, hm]
  | some m =>
    simp only [write, hm]
    cases m.module.graph.findEntryPoint m.root with
    | none => simp [LogEntry.warning]
    | some x => simp

/-! ## Every run -/

/-- **What is shown goes together.**  After any operations, the phase is not the one of a
transpilation under way, and neither is the status of that kind; each status occurs in its own
phase only, but for a failed load, which can come up in whatever phase there is.  A transpilation is
refused for want of a component exactly when its control is off, and then changes the log only; a
run stops for want of a module exactly when its control is off. -/
theorem status_fits_phase (h : Host) (first : Nat) (ops : List Operation) :
    let r := (initial first).after h ops
    r.phase ≠ .transpiling ∧ r.status.kind ≠ .loading ∧
      (r.status = .noComponent → r.phase = .empty) ∧
      (r.status = .componentLoaded ∨ r.status = .transpilationFailed → r.phase = .loaded) ∧
      (r.status = .transpilationComplete → r.phase = .runnable) ∧
      (∃ op, (r.step h op).2.status = .loadFailed ∧ (r.step h op).2.phase = r.phase) ∧
      (∀ elapsed,
        ((r.transpile h elapsed).1 = .error .noComponent ↔ r.controls.transpile = false) ∧
        (r.controls.transpile = false →
          (r.transpile h elapsed).2 = r.write (failureNotes .noComponent))) ∧
      (r.run.1 = none ∧ r.run.2.log = r.log ++ [.info "Attempting to run component...",
          .warning "No component has been transpiled yet"] ↔ r.controls.run = false) := by
  intro r
  have hf : r.status.Fits r.phase := fits_after h first ops
  obtain ⟨hempty, hloaded, hrunnable⟩ := hf.phase_eq
  refine ⟨hf.phase_ne, hf.kind_ne, hempty, hloaded, hrunnable, ?_,
    fun elapsed => ⟨?_, fun hoff => ?_⟩, ?_⟩
  · exact ⟨.loadBytes .empty "", rfl, rfl⟩
  · rw [transpile_eq_noComponent_iff, artifact?_eq_none_iff hf.phase_ne]
  · rw [transpile_of_artifact?_eq_none ((artifact?_eq_none_iff hf.phase_ne).mpr hoff)]
  · rw [run_stops_iff, runnable?_eq_none_iff]

end Runner

end ComponentHost
