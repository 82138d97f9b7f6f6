/-
# `ComponentHost.Proofs.Entry.Naming` — where the keys of a module come from

Every key that stands anywhere in the graph of a module is the name of an export of one
of its components, or it is `default`.  So what holds of the names that an engine lets
through, and of `default`, holds of all keys (`Graph.Keyed`); above all that they are
not empty, which is what makes a dotted path of them readable.
-/
import ComponentHost.Proofs.Entry.Mount
import ComponentHost.Proofs.Entry.Step
import ComponentHost.Proofs.Namespace.Walk

namespace ComponentHost

/-! ## Names of exports -/

mutual

/-- The names of exports and of those below them. -/
def exportNames : List (String × ExportItem) → List String
  | [] => []
  | (name, item) :: rest => name :: (namesBelow item ++ exportNames rest)

def namesBelow : ExportItem → List String
  | .nested exports => exportNames exports
  | _ => []

end

/-- No component that the engine accepts has an export without a name, at any level. -/
def Engine.Names (e : Engine) : Prop :=
  ∀ bytes c, e.compile bytes = .ok c → "" ∉ exportNames c.exports

/-! ## Keys of a graph -/

namespace Graph

variable {α : Type} {P : String → Prop} {g : Graph α}

/-- All keys of the graph have `P`. -/
def Keyed (P : String → Prop) (g : Graph α) : Prop :=
  ∀ id, ∀ m ∈ g.members id, P m.1

theorem Keyed.add (h : g.Keyed P) {n : Namespace α} (hn : ∀ m ∈ n.members, P m.1) :
    (g.add n).2.Keyed P := by
  intro id m hm
  rcases Nat.lt_trichotomy id g.size with hlt | rfl | hgt
  · rw [(g.extends_add n).members hlt] at hm
    exact h id m hm
  · rw [members_add_self] at hm
    exact hn m hm
  · rw [members_of_size_le (by rw [size_add]; exact hgt)] at hm
    exact absurd hm List.not_mem_nil

theorem Keyed.insertAll (h : g.Keyed P) (id : NamespaceId) {ms : List (String × Member α)}
    (hms : ∀ m ∈ ms, P m.1) : (g.insertAll id ms).Keyed P := by
  intro id' m hm
  exact (mem_members_insertAll hm).elim (h id' m) (hms m)

theorem Keyed.keys_ne (h : g.Keyed (· ≠ "")) : ∀ id, ∀ key ∈ g.keys id, key ≠ "" := by
  intro id key hkey
  obtain ⟨m, hm, rfl⟩ := List.mem_map.mp hkey
  exact h id m hm

/-- Where nothing but plain entities stand, no namespace is made while a member is read. -/
theorem Only.steady {Q : α → Prop} (h : g.Only Q) : g.Steady := by
  intro id m hm made hmade
  obtain ⟨e, he, -⟩ := h id m hm
  cases he.symm.trans hmade

end Graph

namespace Entry

/-! ## Mounting -/

mutual

theorem keyed_mountItems {P : String → Prop} (owner : Nat) :
    ∀ (within : List String) (items : List (String × ExportItem)) (g : Graph BoundFunction),
      (∀ name ∈ exportNames items, P name) → g.Keyed P →
        (mountItems owner within items g).2.Keyed P ∧
          ∀ m ∈ (mountItems owner within items g).1, P m.1
  | _, [], g, _, hg => by
      rw [mountItems]
      exact ⟨hg, fun m hm => absurd hm List.not_mem_nil⟩
  | within, (name, item) :: rest, g, hP, hg => by
      rw [exportNames, List.forall_mem_cons, List.forall_mem_append] at hP
      have hgraph := keyed_mountItem owner within name item g hP.2.1 hg
      obtain ⟨hgraph, hmembers⟩ := keyed_mountItems owner within rest _ hP.2.2 hgraph
      rw [mountItems_cons]
      exact ⟨hgraph, List.forall_mem_cons.mpr ⟨hP.1, hmembers⟩⟩

theorem keyed_mountItem {P : String → Prop} (owner : Nat) :
    ∀ (within : List String) (name : String) (item : ExportItem) (g : Graph BoundFunction),
      (∀ name ∈ namesBelow item, P name) → g.Keyed P →
        (mountItem owner within name item g).2.Keyed P
  | within, name, .nested exports, g, hP, hg => by
      rw [namesBelow] at hP
      obtain ⟨hgraph, hmembers⟩ := keyed_mountItems owner (within ++ [name]) exports g hP hg
      rw [mountItem_nested]
      exact hgraph.add fun m hm => hmembers m (Namespace.mem_members_ofList hm)
  | _, _, .function _ _, g, _, hg | _, _, .type, g, _, hg | _, _, .resource, g, _, hg
  | _, _, .coreModule, g, _, hg | _, _, .component, g, _, hg => by
      rw [mountItem]
      exact hg

end

theorem keyed_initial (P : String → Prop) : Linkage.initial.graph.Keyed P := by
  intro id m hm
  obtain ⟨n, hn, hmem⟩ := Graph.exists_of_mem_members hm
  obtain rfl := List.mem_singleton.mp hn
  cases hmem

/-! ## Evaluating -/

namespace Loader

variable (l : Loader) {resolve : ImportForm → String → Option Resource} {P : String → Prop}

theorem keyed_contribute {k : Linkage} (hk : k.graph.Keyed P)
    {es : List (String × Entity BoundFunction)} (hes : ∀ e ∈ es, P e.1) :
    (k.contribute es).graph.Keyed P := by
  rw [Linkage.contribute, Graph.foldl_insert]
  refine hk.insertAll rootId fun m hm => ?_
  obtain ⟨e, he, rfl⟩ := List.mem_map.mp hm
  exact hes e he

/-- What holds of the names of components and of `default` holds of the keys after a statement. -/
theorem keyed_step (hdefault : P "default")
    (hnames : ∀ r c i, l.instantiate r = .ok (c, i) → ∀ name ∈ exportNames c.exports, P name)
    {k k' : Linkage} {statement : Statement} (hk : k.graph.Keyed P)
    (h : l.Steps resolve k statement k') : k'.graph.Keyed P := by
  cases h with
  | @bind _ _ _ r c i _ _ hi =>
    obtain ⟨hgraph, hmembers⟩ := keyed_mountItems k.instances.length [] c.exports k.graph
      (hnames r c i hi) hk
    exact hgraph.add fun m hm => hmembers m (Namespace.mem_members_ofList hm)
  | @exportAll _ id _ =>
    refine keyed_contribute hk fun e he => ?_
    obtain ⟨m, hm, hsome⟩ := List.mem_filterMap.mp he
    split at hsome
    · cases hsome
      exact hk id m hm
    · cases hsome
  | exportDefault _ =>
    refine keyed_contribute hk fun e he => ?_
    obtain rfl := List.mem_singleton.mp he
    exact hdefault

theorem compile_of_instantiate {r : Resource} {c : Component} {i : Instance}
    (h : l.instantiate r = .ok (c, i)) : l.engine.compile r.bytes = .ok c := by
  rw [instantiate] at h
  split at h
  · cases h
  · rename_i c' hc
    split at h
    · cases h
    · cases h
      exact hc

end Loader

end Entry

theorem Module.keyed_of_load {l : Entry.Loader} (hnames : l.engine.Names) {source : String}
    {table : ResourceTable} {m : Module} (hload : load l source table = .ok m) :
    m.graph.Keyed (· ≠ "") := by
  obtain ⟨ss, hparse⟩ := exists_parse_of_load hload
  obtain ⟨k, hrun, rfl⟩ := exists_run_of_load hparse hload
  have hcomponents : ∀ r c i, l.instantiate r = .ok (c, i) →
      ∀ name ∈ exportNames c.exports, name ≠ "" := by
    intro r c i hi name hname hempty
    exact hnames r.bytes c (l.compile_of_instantiate hi) (hempty ▸ hname)
  exact l.run_induction (l.keyed_step (by decide) hcomponents) (Entry.keyed_initial _) hrun

end ComponentHost
