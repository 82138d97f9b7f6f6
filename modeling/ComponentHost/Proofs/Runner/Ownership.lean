/-
# `ComponentHost.Proofs.Runner.Ownership` — which instance a function belongs to

Statements put functions into the root of a module under many names: everything from a
binding, one more binding over it, a binding as a whole under `default`.  What they move
about are entities that mounting made, and these carry the number of their instance.  So
one invariant holds of the graph after any statements, whatever their mix and order:

    a function in place `k` is one of the component that the `k`-th binding names

and with it, that instance number `k` is the one that was made for this binding, also
where several bindings name one file.
-/
import ComponentHost.Proofs.Entry.Mount
import ComponentHost.Proofs.Runner.Meaning

namespace ComponentHost

open Entry

namespace Entry

namespace Loader

variable (l : Loader) {resolve : ImportForm → String → Option Resource}

/-- The function is one of the component that the binding in the place of its owner names; `i` is
the instance made for that binding. -/
def Owns (resolve : ImportForm → String → Option Resource) (binds : List Statement) (i : Instance)
    (f : BoundFunction) : Prop :=
  ∃ form binding locator r c, binds[f.owner]? = some (.bind form binding locator) ∧
    resolve form locator = some r ∧ l.instantiate r = .ok (c, i) ∧
    f ∈ functions f.owner [] c.exports

theorem Owns.append {binds : List Statement} {i : Instance} {f : BoundFunction}
    (h : l.Owns resolve binds i f) (more : List Statement) :
    l.Owns resolve (binds ++ more) i f := by
  obtain ⟨form, binding, locator, r, c, hbind, h⟩ := h
  obtain ⟨hlt, -⟩ := List.getElem?_eq_some_iff.mp hbind
  exact ⟨form, binding, locator, r, c, by rw [List.getElem?_append_left hlt, hbind], h⟩

/-- One statement after others, among which `binds` are those that bind. -/
theorem owns_step {k k' : Linkage} {statement : Statement} {binds : List Statement}
    (hlen : k.instances.length = binds.length)
    (hk : k.graph.Only fun f => ∃ i, l.Owns resolve binds i f)
    (h : l.Steps resolve k statement k') :
    k'.graph.Only fun f =>
      ∃ i, l.Owns resolve (binds ++ [statement].filter Statement.isBind) i f := by
  cases h with
  | @bind form binding locator r c i _ hr hi =>
    have hold : k.graph.Only fun f =>
        ∃ i, l.Owns resolve (binds ++ [.bind form binding locator]) i f := by
      refine hk.mono ?_
      rintro f ⟨i, hf⟩
      exact ⟨i, hf.append l _⟩
    have hnew : ∀ f ∈ functions k.instances.length [] c.exports,
        ∃ i, l.Owns resolve (binds ++ [.bind form binding locator]) i f := by
      intro f hf
      have howner : f.owner = k.instances.length := owner_of_mem_functions hf
      refine ⟨i, form, binding, locator, r, c, ?_, hr, hi, howner.symm ▸ hf⟩
      rw [howner, hlen, List.getElem?_concat_length]
    obtain ⟨hgraph, hmembers⟩ := only_mountItems k.instances.length [] c.exports k.graph hnew hold
    exact hgraph.add fun m hm => hmembers m (Namespace.mem_members_ofList hm)
  | @exportAll binding id _ =>
    rw [show [Statement.exportAll binding].filter Statement.isBind = [] from rfl, List.append_nil]
    exact Linkage.only_contribute hk (only_entities hk id)
  | @exportDefault binding _ _ =>
    rw [show [Statement.exportDefault binding].filter Statement.isBind = [] from rfl,
      List.append_nil]
    refine Linkage.only_contribute hk fun e he => ?_
    rw [List.mem_singleton.mp he]
    trivial

theorem length_step {k k' : Linkage} {statement : Statement}
    (h : l.Steps resolve k statement k') :
    k'.instances.length = k.instances.length + ([statement].filter Statement.isBind).length := by
  rcases l.instances_step h with ⟨hbind, hsame⟩ | ⟨hbind, i, -, hsame⟩
  · rw [hsame, List.filter_cons_of_neg (by simp [hbind])]
    rfl
  · rw [hsame, List.filter_cons_of_pos hbind, List.length_append]
    rfl

theorem owns_run {ss : List Statement} {k k' : Linkage} {binds : List Statement}
    (hlen : k.instances.length = binds.length)
    (hk : k.graph.Only fun f => ∃ i, l.Owns resolve binds i f)
    (h : l.run resolve k ss = .ok k') :
    k'.graph.Only fun f => ∃ i, l.Owns resolve (binds ++ ss.filter Statement.isBind) i f := by
  induction ss generalizing k binds with
  | nil =>
    cases h
    rwa [List.filter_nil, List.append_nil]
  | cons statement ss ih =>
    obtain ⟨k₁, hstep, hrun⟩ := l.exists_steps_of_run h
    have hlen₁ : k₁.instances.length =
        (binds ++ [statement].filter Statement.isBind).length := by
      rw [l.length_step hstep, hlen, List.length_append]
    have hrest := ih hlen₁ (l.owns_step hlen hk hstep) hrun
    rwa [List.append_assoc, ← List.filter_append] at hrest

end Loader

end Entry

namespace Module

theorem owns_of_load {l : Loader} {source : String} {table : ResourceTable} {m : Module}
    {statements : List Statement} (hparse : parse source = .ok statements)
    (hload : load l source table = .ok m) :
    m.instances.length = (statements.filter Statement.isBind).length ∧
      m.graph.Only fun f => ∃ i, m.instances[f.owner]? = some i ∧
        l.Owns (fun _ locator => table.resolve locator)
          (statements.filter Statement.isBind) i f := by
  obtain ⟨k, hrun, rfl⟩ := exists_run_of_load hparse hload
  obtain ⟨made, hmade, hall⟩ := l.instances_run hrun
  have hmade : k.instances = made := hmade
  refine ⟨by rw [hmade, hall.length_eq], ?_⟩
  have hnone : Linkage.initial.instances.length = ([] : List Statement).length := rfl
  have howns := l.owns_run hnone (only_initial _) hrun
  rw [List.nil_append] at howns
  refine howns.mono ?_
  rintro f ⟨i, form, binding, locator, r, c, hbind, hr, hi, hmem⟩
  -- the instance in the place of the statement is made of the same resource
  obtain ⟨hlt, hget⟩ := List.getElem?_eq_some_iff.mp hbind
  have hlt' : f.owner < made.length := hall.length_eq ▸ hlt
  have hmakes := hall.get hlt hlt'
  rw [List.get_eq_getElem, List.get_eq_getElem, hget] at hmakes
  obtain ⟨r', c', hr', hi'⟩ := hmakes
  cases hr.symm.trans hr'
  cases hi.symm.trans hi'
  exact ⟨made[f.owner], by rw [hmade, List.getElem?_eq_getElem hlt'], form, binding, locator, r, c,
    hbind, hr, hi, hmem⟩

end Module

end ComponentHost
