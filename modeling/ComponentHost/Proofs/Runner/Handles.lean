/-
# `ComponentHost.Proofs.Runner.Handles` — which handles are alive

Handles are drawn in the middle of an attempt.  What follows may still fail in four
ways, and the state that holds the handles can be left in two more.  All of it comes
down to one invariant of the runs from a new runner, `Runner.Exact`: the live handles
of the table are the handles of the state, all numbers drawn so far lie below `next`,
and the module there is was linked with the live handles, one for each binary file of
the last answer of the transpiler.

    Exact h (initial first)                                     (`exact_initial`)
    Exact h r,  r moves to r'   ⟹  Exact h r'                  (`Exact.move`)
    Exact h r,  r moves to r'   ⟹  a dead number stays dead     (`Dead.move`)
-/
import ComponentHost.Proofs.Entry.Step
import ComponentHost.Proofs.Runner.Step

namespace ComponentHost

theorem Module.source_load {l : Entry.Loader} {source : String} {table : ResourceTable} {m : Module}
    (hm : Module.load l source table = .ok m) : m.source = source := by
  obtain ⟨ss, hparse⟩ := exists_parse_of_load hm
  obtain ⟨k, -, rfl⟩ := exists_run_of_load hparse hm
  rfl

/-! ## The table after an attempt -/

section Attempt

variable {h : Host} {number elapsed next : Nat} {a : Artifact} {attempt : Attempt}

/-- An attempt that fails leaves an empty table empty, whichever stage it fails in. -/
theorem Attempt.Ending.resources_of_error
    (hend : Attempt.Ending h number a elapsed (.empty next) attempt) {e : PipelineError}
    (he : attempt.outcome = .error e) :
    ∃ count, attempt.resources = .empty (next + count) := by
  cases hend with
  | refused _ => exact ⟨0, rfl⟩
  | entryless _ _ => exact ⟨0, rfl⟩
  | rejected _ _ _ =>
    exact ⟨_, ResourceTable.revokeAll_createAll (by simp [ResourceTable.handles,
      ResourceTable.empty]) _⟩
  | accepted _ _ _ => cases he

theorem Attempt.Ending.runnable_of_ok
    (hend : Attempt.Ending h number a elapsed (.empty next) attempt) {m : Runnable}
    (ho : attempt.outcome = .ok m) :
    ∃ t source, h.transpiler.transpile number a.bytes {} = .ok t ∧
      t.files.entrySource entryPointFile = .ok source ∧
      m.artifact = a ∧
      m.module.source = t.files.link m.handles source ∧
      m.handles = ((ResourceTable.empty next).createAll t.files.resources).1 ∧
      attempt.resources = ((ResourceTable.empty next).createAll t.files.resources).2 := by
  cases hend with
  | refused _ => cases ho
  | entryless _ _ => cases ho
  | rejected _ _ _ => cases ho
  | @accepted t source m' ht hs hm =>
    cases ho
    exact ⟨t, source, ht, hs, rfl, Module.source_load hm, rfl, rfl⟩

/-- Once there is an entry source, each binary file uses up a number, however it goes on. -/
theorem Attempt.Ending.next_of_source {table : ResourceTable}
    (hend : Attempt.Ending h number a elapsed table attempt) {t : Transpiled} {source : String}
    (ht : h.transpiler.transpile number a.bytes {} = .ok t)
    (hs : t.files.entrySource entryPointFile = .ok source) :
    attempt.resources.next = table.next + t.files.resources.length := by
  cases hend with
  | refused ht' => cases ht.symm.trans ht'
  | entryless ht' hs' =>
    cases ht.symm.trans ht'
    cases hs.symm.trans hs'
  | rejected ht' _ _ =>
    cases ht.symm.trans ht'
    rw [ResourceTable.revokeAll_snd, ResourceTable.createAll_eq]
  | accepted ht' _ _ =>
    cases ht.symm.trans ht'
    rw [ResourceTable.createAll_eq]

end Attempt

namespace Runner

/-! ## Drawn handles -/

/-- The handles that an operation draws: one for each binary file, as soon as a transpilation has
an entry source, and however it goes on. -/
def draws (h : Host) (r : Runner) : Operation → List Handle
  | .transpile _ =>
    match r.artifact? with
    | none => []
    | some a =>
      match h.transpiler.transpile r.attempts a.bytes {} with
      | .error _ => []
      | .ok t =>
        match t.files.entrySource entryPointFile with
        | .error _ => []
        | .ok _ => ((r.state.release r.resources).createAll t.files.resources).1
  | _ => []

/-- The handles that operations draw, one after the other. -/
def drawn (h : Host) : Runner → List Operation → List Handle
  | _, [] => []
  | r, op :: ops => r.draws h op ++ drawn h (r.step h op).2 ops

/-! ## The invariant -/

/-- The module was made of the last answer of the transpiler, and each of its handles stands for
the binary file in its place. -/
def Linked (h : Host) (r : Runner) (m : Runnable) : Prop :=
  ∃ number t source, r.attempts = number + 1 ∧
    h.transpiler.transpile number m.artifact.bytes {} = .ok t ∧
    t.files.entrySource entryPointFile = .ok source ∧
    m.module.source = t.files.link m.handles source ∧
    m.handles.map (fun H => r.resources.resolve H.locator) = t.files.resources.map some

/-- What is true of the handles between any two operations. -/
structure Exact (h : Host) (r : Runner) : Prop where
  live : r.resources.handles = r.state.handles
  nodup : r.resources.handles.Nodup
  below : ∀ H ∈ r.resources.handles, H.serial < r.resources.next
  linked : ∀ m, r.state = .runnable m → Linked h r m

variable {h : Host} {r r' : Runner} {op : Operation} {reply : Reply}

theorem exact_initial (h : Host) (first : Nat) : Exact h (initial first) where
  live := rfl
  nodup := .nil
  below := fun _ hH => absurd hH List.not_mem_nil
  linked := fun _ hm => nomatch hm

theorem Exact.release (he : Exact h r) :
    r.state.release r.resources = .empty r.resources.next := by
  rw [State.release, ← he.live, ResourceTable.revokeAll_handles]

theorem exact_empty {r : Runner} {next : Nat} (hr : r.resources = .empty next)
    (hs : ∀ m, r.state ≠ .runnable m) : Exact h r where
  live := by
    rw [hr]
    cases hstate : r.state with
    | runnable m => exact absurd hstate (hs m)
    | _ => rfl
  nodup := by simp [hr, ResourceTable.handles, ResourceTable.empty]
  below := by simp [hr, ResourceTable.handles, ResourceTable.empty]
  linked := fun m hm => absurd hm (hs m)

theorem exact_made {r : Runner} {number next : Nat} {t : Transpiled} {source : String}
    {m : Runnable} (hs : r.state = .runnable m) (hn : r.attempts = number + 1)
    (ht : h.transpiler.transpile number m.artifact.bytes {} = .ok t)
    (hsource : t.files.entrySource entryPointFile = .ok source)
    (hm : m.module.source = t.files.link m.handles source)
    (hh : m.handles = ((ResourceTable.empty next).createAll t.files.resources).1)
    (hr : r.resources = ((ResourceTable.empty next).createAll t.files.resources).2) :
    Exact h r := by
  have hlive : r.resources.handles = m.handles := by
    rw [hr, hh, ResourceTable.handles_createAll]
    rfl
  have hrange : m.handles = Handle.range next t.files.resources.length := by
    rw [hh, ResourceTable.createAll_eq]
    rfl
  have hnodup : r.resources.handles.Nodup := by
    rw [hlive, hrange]
    exact Handle.nodup_range ..
  have hresolve : m.handles.map (fun H => r.resources.resolve H.locator) =
      t.files.resources.map some := by
    rw [← hlive, ResourceTable.map_resolve_handles hnodup, hr, ResourceTable.createAll_eq]
    -- the table was empty, so its entries are the new ones
    change (([] ++ (Handle.range next _).zip t.files.resources).map (some ∘ Prod.snd)) = _
    rw [List.nil_append, ← List.map_map, List.map_snd_zip (by simp)]
  refine ⟨by simp [hlive, hs, State.handles, State.runnable?], hnodup, ?_, ?_⟩
  · intro H hH
    rw [hlive, hrange, Handle.mem_range] at hH
    rw [hr, ResourceTable.createAll_eq]
    exact hH.2
  · intro m' hm'
    obtain rfl : m = m' := State.runnable.inj (hs.symm.trans hm')
    exact ⟨number, t, source, hn, ht, hsource, hm, hresolve⟩

theorem Exact.of_eq (he : Exact h r) (hs : r'.state = r.state) (hr : r'.resources = r.resources)
    (hn : r'.attempts = r.attempts) : Exact h r' := by
  refine ⟨by rw [hr, hs, he.live], hr ▸ he.nodup, hr ▸ he.below, fun m hm => ?_⟩
  have hlinked := he.linked m (hs ▸ hm)
  simpa only [Linked, hr, hn] using hlinked

theorem Exact.enter (he : Exact h r) {m : Runnable} (hm : r.state = .runnable m)
    (f : BoundFunction) (args : List Json) (hs : r'.state = .runnable (m.enter f args).2)
    (hr : r'.resources = r.resources) (hn : r'.attempts = r.attempts) : Exact h r' := by
  refine ⟨?_, hr ▸ he.nodup, hr ▸ he.below, fun m' hm' => ?_⟩
  · rw [hr, he.live, hm, hs]
    rfl
  · obtain rfl : (m.enter f args).2 = m' := State.runnable.inj (hs.symm.trans hm')
    have hlinked := he.linked m hm
    simp only [Linked, hr, hn] at hlinked ⊢
    exact hlinked

theorem Exact.move (he : Exact h r) (hmove : Move h r op reply r') : Exact h r' := by
  cases hmove with
  | taken _ _ => exact exact_empty he.release (fun m hm => nomatch hm)
  | ignored _ _ => exact he.of_eq rfl rfl rfl
  | refused _ _ _ => exact he.of_eq rfl rfl rfl
  | unready _ _ => exact he.of_eq rfl rfl rfl
  | @failed elapsed a attempt _ _ _ hatt herr _ =>
    have hend := h.attempt_ending r.attempts a elapsed (r.state.release r.resources)
    rw [← hatt, he.release] at hend
    obtain ⟨count, hr⟩ := hend.resources_of_error herr
    exact exact_empty hr (fun m hm => nomatch hm)
  | @made elapsed a attempt m _ _ hatt hok _ =>
    have hend := h.attempt_ending r.attempts a elapsed (r.state.release r.resources)
    rw [← hatt, he.release] at hend
    obtain ⟨t, source, ht, hs, rfl, hm, hh, hr⟩ := hend.runnable_of_ok hok
    exact exact_made rfl rfl ht hs hm hh hr
  | entered _ hm _ => exact he.enter hm _ _ rfl rfl rfl
  | noted _ _ _ => exact he.of_eq rfl rfl rfl
  | cleared => exact he.of_eq rfl rfl rfl

theorem exact_after (h : Host) (first : Nat) (ops : List Operation) :
    Exact h ((initial first).after h ops) :=
  after_induction h (exact_initial h first) Exact.move ops

/-! ## Dead handles -/

/-- The handle has been drawn and is not alive. -/
def Dead (H : Handle) (r : Runner) : Prop :=
  H.serial < r.resources.next ∧ H ∉ r.resources.handles

/-- The handles alive after a move were alive before it or have a new number. -/
theorem Exact.handles_move (he : Exact h r) (hmove : Move h r op reply r') :
    r.resources.next ≤ r'.resources.next ∧
      ∀ H ∈ r'.resources.handles, H ∈ r.resources.handles ∨ r.resources.next ≤ H.serial := by
  -- a table stays, or is emptied, or is filled with numbers from `next` on
  have hsame : ∀ r' : Runner, r'.resources = r.resources →
      r.resources.next ≤ r'.resources.next ∧
        ∀ H ∈ r'.resources.handles, H ∈ r.resources.handles ∨ r.resources.next ≤ H.serial := by
    intro r' hr
    rw [hr]
    exact ⟨Nat.le_refl _, fun H hH => .inl hH⟩
  have hempty : ∀ (r' : Runner) (count : Nat),
      r'.resources = .empty (r.resources.next + count) →
      r.resources.next ≤ r'.resources.next ∧
        ∀ H ∈ r'.resources.handles, H ∈ r.resources.handles ∨ r.resources.next ≤ H.serial := by
    intro r' count hr
    rw [hr]
    exact ⟨Nat.le_add_right .., fun H hH => absurd hH List.not_mem_nil⟩
  cases hmove with
  | taken _ _ => exact hempty _ 0 he.release
  | ignored _ _ => exact hsame _ rfl
  | refused _ _ _ => exact hsame _ rfl
  | unready _ _ => exact hsame _ rfl
  | @failed elapsed a attempt _ _ _ hatt herr _ =>
    have hend := h.attempt_ending r.attempts a elapsed (r.state.release r.resources)
    rw [← hatt, he.release] at hend
    obtain ⟨count, hr⟩ := hend.resources_of_error herr
    exact hempty _ count hr
  | @made elapsed a attempt m _ _ hatt hok _ =>
    have hend := h.attempt_ending r.attempts a elapsed (r.state.release r.resources)
    rw [← hatt, he.release] at hend
    obtain ⟨t, source, -, -, -, -, -, hr⟩ := hend.runnable_of_ok hok
    rw [hr, ResourceTable.handles_createAll, ResourceTable.createAll_eq]
    refine ⟨Nat.le_add_right .., fun H hH => .inr ?_⟩
    rcases List.mem_append.mp hH with hH | hH
    · exact absurd hH List.not_mem_nil
    · exact (Handle.mem_range.mp hH).1
  | entered _ _ _ => exact hsame _ rfl
  | noted _ _ _ => exact hsame _ rfl
  | cleared => exact hsame _ rfl

/-- A handle that is dead stays dead: its number is never drawn again. -/
theorem Dead.move {H : Handle} (he : Exact h r) (hd : Dead H r) (hmove : Move h r op reply r') :
    Dead H r' := by
  obtain ⟨hnext, hlive⟩ := he.handles_move hmove
  refine ⟨Nat.lt_of_lt_of_le hd.1 hnext, fun hH => ?_⟩
  rcases hlive H hH with hH | hle
  · exact hd.2 hH
  · exact absurd hd.1 (Nat.not_lt.mpr hle)

theorem Dead.after {H : Handle} (he : Exact h r) (hd : Dead H r) (ops : List Operation) :
    Dead H (r.after h ops) := by
  have hboth : Exact h (r.after h ops) ∧ Dead H (r.after h ops) :=
    after_induction (P := fun r => Exact h r ∧ Dead H r) h ⟨he, hd⟩
      (fun ⟨he, hd⟩ hmove => ⟨he.move hmove, hd.move he hmove⟩) ops
  exact hboth.2

theorem Exact.next_le_after (he : Exact h r) (ops : List Operation) :
    r.resources.next ≤ (r.after h ops).resources.next := by
  have hboth : Exact h (r.after h ops) ∧ r.resources.next ≤ (r.after h ops).resources.next :=
    after_induction (P := fun r' => Exact h r' ∧ r.resources.next ≤ r'.resources.next) h
      ⟨he, Nat.le_refl _⟩
      (fun ⟨he, hle⟩ hmove =>
        ⟨he.move hmove, Nat.le_trans hle (he.handles_move hmove).1⟩) ops
  exact hboth.2

theorem mem_draws {H : Handle} (hH : H ∈ r.draws h op) :
    ∃ elapsed a t source, op = .transpile elapsed ∧ r.artifact? = some a ∧
      h.transpiler.transpile r.attempts a.bytes {} = .ok t ∧
      t.files.entrySource entryPointFile = .ok source ∧
      H ∈ ((r.state.release r.resources).createAll t.files.resources).1 := by
  cases op with
  | transpile elapsed =>
    rw [draws] at hH
    cases ha : r.artifact? with
    | none => simp [ha] at hH
    | some a =>
      simp only [ha] at hH
      cases ht : h.transpiler.transpile r.attempts a.bytes {} with
      | error e => simp [ht] at hH
      | ok t =>
        simp only [ht] at hH
        cases hs : t.files.entrySource entryPointFile with
        | error e => simp [hs] at hH
        | ok source =>
          simp only [hs] at hH
          exact ⟨elapsed, a, t, source, rfl, rfl, ht, hs, hH⟩
  | _ => exact absurd hH List.not_mem_nil

/-- What an operation draws has its number used up after it, however the operation ends. -/
theorem serial_lt_of_draws {H : Handle} (hH : H ∈ r.draws h op)
    (hmove : Move h r op reply r') : H.serial < r'.resources.next := by
  obtain ⟨elapsed, a, t, source, rfl, ha, ht, hs, hH⟩ := mem_draws hH
  have hend := h.attempt_ending r.attempts a elapsed (r.state.release r.resources)
  have hnext := hend.next_of_source ht hs
  have hlt : H.serial <
      (h.attempt r.attempts a elapsed (r.state.release r.resources)).resources.next := by
    rw [hnext]
    rw [ResourceTable.createAll_eq] at hH
    exact (Handle.mem_range.mp hH).2
  cases hmove with
  | unready _ hnone => cases hnone.symm.trans ha
  | failed _ ha' hatt _ _ =>
    cases ha.symm.trans ha'
    rw [hatt]
    exact hlt
  | made _ ha' hatt _ _ =>
    cases ha.symm.trans ha'
    rw [hatt]
    exact hlt
  | taken _ hb => cases hb
  | ignored _ hb => cases hb
  | refused _ hb _ => cases hb
  | entered _ _ ht => cases ht
  | noted _ hc _ => cases hc

theorem Exact.serial_lt_of_drawn {H : Handle} :
    ∀ {r : Runner} (_ : Exact h r) (ops : List Operation), H ∈ r.drawn h ops →
      H.serial < (r.after h ops).resources.next
  | _, _, [], hH => absurd hH List.not_mem_nil
  | r, he, op :: ops, hH => by
      have hmove := step_move h r op
      rw [drawn, List.mem_append] at hH
      rcases hH with hH | hH
      · exact Nat.lt_of_lt_of_le (serial_lt_of_draws hH hmove)
          ((he.move hmove).next_le_after ops)
      · exact (he.move hmove).serial_lt_of_drawn ops hH

/-! ## Every run -/

/-- **The table holds the handles of the module there is, and no others.**  After any operations,
the live handles are those of the state, without repetition, and none outside the runnable phase;
each stands for the binary file in its place among the files the module was made of; and a handle
that was drawn before and is not among them stands for nothing from then on. -/
theorem live_handles_exact (h : Host) (first : Nat) (ops : List Operation) :
    let r := (initial first).after h ops
    r.resources.handles = r.state.handles ∧
      (r.phase ≠ .runnable → r.resources.size = 0) ∧
      r.state.handles.Nodup ∧
      (∀ m, r.state = .runnable m → Linked h r m) ∧
      ∀ H ∈ (initial first).drawn h ops, H ∉ r.state.handles →
        ∀ more, (r.after h more).resources.resolve H.locator = none := by
  intro r
  have he : Exact h r := exact_after h first ops
  refine ⟨he.live, fun hphase => ?_, he.live ▸ he.nodup, he.linked, fun H hH hdead more => ?_⟩
  · have hnone : r.state.handles = [] := by
      cases hs : r.state with
      | runnable m => exact absurd (congrArg State.phase hs) hphase
      | _ => rfl
    have hlen := congrArg List.length (he.live.trans hnone)
    rwa [ResourceTable.handles, List.length_map] at hlen
  · have hd : Dead H r := ⟨(exact_initial h first).serial_lt_of_drawn ops hH, he.live ▸ hdead⟩
    refine ResourceTable.resolve_eq_none_iff.mpr fun H' hH' hloc => ?_
    rw [Handle.locator_injective hloc] at hH'
    exact (hd.after he more).2 hH'

end Runner

end ComponentHost
