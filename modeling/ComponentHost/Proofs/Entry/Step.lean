/-
# `ComponentHost.Proofs.Entry.Step` — what evaluating a statement comes to

There are three ways for a statement to be evaluated (`Loader.Steps`):

    bind             the name is new, the locator stands for a resource, and its component
                     is instantiated: one more binding
    export all       the binding is there: the root takes over what stands in its namespace
    export default   the binding is there: the root takes the namespace itself

What each of the three keeps, a run keeps (`Loader.run_induction`), and a module is what a
run from an empty root has made (`Module.exists_run_of_load`).
-/
import ComponentHost.Entry.Module

namespace ComponentHost

namespace Entry

namespace Loader

/-- From `k`, the statement is evaluated, and that makes the other linkage. -/
inductive Steps (l : Loader) (resolve : ImportForm → String → Option Resource) (k : Linkage) :
    Statement → Linkage → Prop
  | bind {form : ImportForm} {binding locator : String} {r : Resource} {c : Component}
      {i : Instance} (hnew : k.bindings.lookup binding = none)
      (hr : resolve form locator = some r) (hi : l.instantiate r = .ok (c, i)) :
      Steps l resolve k (.bind form binding locator) (k.bind binding c i)
  | exportAll {binding : String} {id : NamespaceId} (hid : k.bindings.lookup binding = some id) :
      Steps l resolve k (.exportAll binding) (k.contribute (entities k.graph id))
  | exportDefault {binding : String} {id : NamespaceId}
      (hid : k.bindings.lookup binding = some id) :
      Steps l resolve k (.exportDefault binding) (k.contribute [("default", .nested id)])

variable (l : Loader) {resolve : ImportForm → String → Option Resource} {k k' : Linkage}
  {statement : Statement} {ss : List Statement}

theorem steps_of_step (h : l.step resolve k statement = .ok k') :
    l.Steps resolve k statement k' := by
  cases statement with
  | bind form binding locator =>
    rw [step] at h
    split at h
    · cases h
    · rename_i hnew
      rw [Option.not_isSome_iff_eq_none] at hnew
      split at h
      · cases h
      · rename_i r hr
        cases hi : l.instantiate r with
        | error e =>
          rw [hi] at h
          cases h
        | ok x =>
          rw [hi] at h
          cases h
          exact .bind hnew hr hi
  | exportAll binding =>
    rw [step] at h
    split at h
    · cases h
    · rename_i id hid
      cases h
      exact .exportAll hid
  | exportDefault binding =>
    rw [step] at h
    split at h
    · cases h
    · rename_i id hid
      cases h
      exact .exportDefault hid

theorem exists_steps_of_run (h : l.run resolve k (statement :: ss) = .ok k') :
    ∃ k₁, l.Steps resolve k statement k₁ ∧ l.run resolve k₁ ss = .ok k' := by
  rw [run] at h
  cases hstep : l.step resolve k statement with
  | error e =>
    rw [hstep] at h
    cases h
  | ok k₁ =>
    rw [hstep] at h
    exact ⟨k₁, l.steps_of_step hstep, h⟩

/-- What every step keeps holds after a run, if it held before. -/
theorem run_induction {P : Linkage → Prop}
    (hsteps : ∀ {k k' statement}, P k → l.Steps resolve k statement k' → P k') (hk : P k)
    (h : l.run resolve k ss = .ok k') : P k' := by
  induction ss generalizing k with
  | nil =>
    cases h
    exact hk
  | cons statement ss ih =>
    obtain ⟨k₁, hstep, hrun⟩ := l.exists_steps_of_run h
    exact ih (hsteps hk hstep) hrun

end Loader

end Entry

namespace Module

open Entry

variable {l : Loader} {table : ResourceTable} {source : String} {ss : List Statement} {m : Module}

theorem load_of_parse (l : Loader) (table : ResourceTable) (hparse : parse source = .ok ss) :
    load l source table = (l.run (fun _ locator => table.resolve locator) .initial ss).map
      fun k => ⟨k.graph, k.instances, source⟩ := by
  rw [load, hparse]
  simp only
  cases l.run (fun _ locator => table.resolve locator) .initial ss <;> rfl

theorem exists_parse_of_load (hload : load l source table = .ok m) :
    ∃ ss, parse source = .ok ss := by
  cases hparse : parse source with
  | error e =>
    rw [load, hparse] at hload
    cases hload
  | ok ss => exact ⟨ss, rfl⟩

theorem exists_run_of_load (hparse : parse source = .ok ss)
    (hload : load l source table = .ok m) :
    ∃ k, l.run (fun _ locator => table.resolve locator) .initial ss = .ok k ∧
      m = ⟨k.graph, k.instances, source⟩ := by
  rw [load_of_parse l table hparse] at hload
  cases hrun : l.run (fun _ locator => table.resolve locator) .initial ss with
  | error e =>
    rw [hrun] at hload
    cases hload
  | ok k =>
    rw [hrun] at hload
    exact ⟨k, rfl, (Except.ok.inj hload).symm⟩

end Module

end ComponentHost
