/-
# `ComponentHost.Proofs.Runner.Exposure` — every function of a component is exposed

A component that goes through the bundled transpiler is linked by two statements: its
bytes are bound, and everything is exported from it.  The root of the module then has the
members that mounting the component makes (`Entry.spread`), and the walk from there finds
the functions of the component again.

With one exception.  Where nothing stands beside the member `default`, the exports are
looked for below that member and not in the root:

    sole export of the component      exports are looked for in      they are
    `default`, an instance            that instance                  its functions
    `default`, a function             that function                  none

So a component that exports one function, and calls it `default`, exposes nothing.
-/
import ComponentHost.Component.Behaviour
import ComponentHost.Proofs.Entry.Mount
import ComponentHost.Proofs.Runner.History
import ComponentHost.Proofs.Transpiler.Bundled

namespace ComponentHost

open Entry
open Transpiler (bundledFiles bundledSource coreFile coreTable)

/-! ## One component, all of it exported -/

namespace Entry

/-- The graph of a source that binds one component and exports everything from it. -/
def spread (c : Component) : Graph BoundFunction :=
  match mount 0 c.exports Linkage.initial.graph with
  | (id, g) => (Linkage.contribute ⟨g, [], []⟩ (entities g id)).graph

theorem spread_eq {c : Component} (hnames : DistinctNames c.exports) :
    spread c =
      let x := mountItems 0 [] c.exports Linkage.initial.graph
      (x.2.add (.ofList none x.1)).2.insertAll rootId x.1 := by
  have hkeys := keys_mountItems 0 [] c.exports Linkage.initial.graph
  obtain ⟨hgraph, hmembers⟩ := only_mountItems (P := fun _ => True) 0 [] c.exports
    Linkage.initial.graph (fun _ _ => trivial) (only_initial _)
  simp only [spread, mount, Linkage.contribute, Graph.foldl_insert]
  generalize mountItems 0 [] c.exports Linkage.initial.graph = x at hkeys hgraph hmembers
  have hlist : (Namespace.ofList none x.1).members = x.1 :=
    Namespace.members_ofList (hkeys ▸ hnames.nodup)
  show (x.2.add _).2.insertAll rootId
    ((entities (x.2.add (.ofList none x.1)).2 x.2.size).map fun e => (e.1, .entity e.2)) = _
  have honly : (x.2.add (.ofList none x.1)).2.Only fun _ => True :=
    hgraph.add fun m hm => hmembers m (Namespace.mem_members_ofList hm)
  rw [map_entities honly, Graph.members_add_self, hlist]

section Spread

variable {c : Component} (hnames : DistinctNames c.exports)
include hnames

theorem members_spread :
    (spread c).members rootId = (mountItems 0 [] c.exports Linkage.initial.graph).1 := by
  have hextends := extends_mountItems 0 [] c.exports Linkage.initial.graph
  have hkeys := keys_mountItems 0 [] c.exports Linkage.initial.graph
  rw [spread_eq hnames]
  generalize mountItems 0 [] c.exports Linkage.initial.graph = x at hextends hkeys
  have hroot : rootId < x.2.size := hextends.size_le
  have hroot' : rootId < (x.2.add (.ofList none x.1)).2.size := by
    rw [Graph.size_add]
    exact Nat.lt_succ_of_lt hroot
  have hempty : (x.2.add (.ofList none x.1)).2.members rootId = [] := by
    rw [(x.2.extends_add _).members hroot]
    exact hextends.members Nat.zero_lt_one
  have hnodup : (x.1.map (·.1)).Nodup := hkeys ▸ hnames.nodup
  rw [Graph.members_insertAll hroot' (by rwa [hempty, List.nil_append]), hempty, List.nil_append]

theorem keys_spread : (spread c).keys rootId = c.exports.map (·.1) := by
  rw [Graph.keys, members_spread hnames, keys_mountItems]

theorem ready_spread {t : Graph.Trail BoundFunction}
    (ht : ∀ id : Nat, id ∈ t.entered → id = rootId) {fuel : Nat} (hfuel : (spread c).size ≤ fuel) :
    Ready (spread c) Linkage.initial.graph
      (mountItems 0 [] c.exports Linkage.initial.graph).2 fuel t := by
  rw [spread_eq hnames] at hfuel ⊢
  rw [Graph.size_insertAll, Graph.size_add] at hfuel
  refine ⟨fun id hle hlt => ?_, fun id hid => ?_, by omega⟩
  · have hne : rootId ≠ id := Nat.ne_of_lt hle
    rw [Graph.members_insertAll_of_ne hne, (Graph.extends_add _ _).members hlt]
  · exact .inl (ht id hid ▸ Nat.zero_lt_one)

/-- The walk from the root finds the functions of the component. -/
theorem walk_spread :
    ((spread c).walk (.nested rootId) "").map (·.target) =
      (functions 0 [] c.exports).filter BoundFunction.isListed := by
  rw [Graph.walk, Graph.visit_of_not_mem List.not_mem_nil, members_spread hnames]
  exact (walk_mountItems 0 [] c.exports Linkage.initial.graph (spread c).size ""
    ⟨[], [rootId]⟩ (fun key hkey => absurd hkey List.not_mem_nil) hnames
    (ready_spread hnames (fun id hid => List.mem_singleton.mp hid) (Nat.le_refl _))).found

/-- Where the component is one instance, the walk from there finds its functions as well. -/
theorem walk_spread_instance {name : String} {exports : List (String × ExportItem)}
    (hc : c.exports = [(name, .nested exports)]) (hname : skippedKeys.contains name = false) :
    ((spread c).walk (mountItem 0 [] name (.nested exports) Linkage.initial.graph).1 "").map
        (·.target) = (functions 0 [] c.exports).filter BoundFunction.isListed := by
  have hready := ready_spread hnames (t := ⟨[], []⟩) (fun id hid => absurd hid List.not_mem_nil)
    (Nat.le_succ (spread c).size)
  rw [hc, DistinctNames, DistinctBelow] at hnames
  rw [hc, mountItems_cons, mountItem_nested, mountItems] at hready
  rw [mountItem_nested, hc, functions, functions, List.append_nil, functionsOf]
  -- the namespace of the instance was added last
  refine (hready.visit (extends_mountItems 0 _ exports _) fun fuel t hready => ?_).found
  rw [Namespace.members_ofList (keys_mountItems 0 _ exports _ ▸ hnames.2.1.nodup)]
  exact walk_mountItems 0 _ exports _ fuel "" t
    (fun key hkey => List.mem_singleton.mp hkey ▸ hname) hnames.2.1 hready

end Spread

end Entry

/-! ## The root of the exports -/

/-- The component exports one function and calls it `default`. -/
def Component.IsLoneDefault (c : Component) : Prop :=
  ∃ signature body, c.exports = [("default", .function signature body)]

theorem Component.IsLoneDefault.keys {c : Component} (h : c.IsLoneDefault) :
    c.exports.map (·.1) = ["default"] := by
  obtain ⟨signature, body, h⟩ := h
  rw [h]
  rfl

theorem Component.isLoneDefault_iff {c : Component} {item : ExportItem}
    (h : c.exports = [("default", item)]) : c.IsLoneDefault ↔ item.isFunction = true := by
  rw [IsLoneDefault, h]
  cases item <;> simp [ExportItem.isFunction]

theorem eq_default_of_nodup {items : List (String × ExportItem)}
    (hnodup : (items.map (·.1)).Nodup) (hdefault : (items.map (·.1)).any (· != "default") = false) :
    items = [] ∨ ∃ item, items = [("default", item)] := by
  have hkeys : ∀ e ∈ items, e.1 = "default" := by
    simpa using hdefault
  match items, hnodup, hkeys with
  | [], _, _ => exact .inl rfl
  | [(key, item)], _, hkeys =>
    obtain rfl : key = "default" := hkeys _ List.mem_cons_self
    exact .inr ⟨item, rfl⟩
  | e :: e' :: rest, hnodup, hkeys =>
    have heq : e.1 = e'.1 := by
      rw [hkeys e List.mem_cons_self, hkeys e' (List.mem_cons_of_mem _ List.mem_cons_self)]
    have hmem : e.1 ∈ (e' :: rest).map (·.1) := by
      rw [heq]
      exact List.mem_cons_self
    exact absurd hmem (List.nodup_cons.mp hnodup).1

namespace Module

variable {m : Module} {c : Component}

theorem exportRoot_of_any (h : (m.graph.keys rootId).any (· != "default") = true) :
    m.exportRoot = (.nested rootId, false) := by
  rw [exportRoot, if_pos h]
  rfl

/-- The member `default` of the root is the export root when nothing stands beside it. -/
theorem exportRoot_of_default {e : Entity BoundFunction}
    (h : m.graph.members rootId = [("default", .entity e)]) : m.exportRoot = (e, true) := by
  have hget : m.graph.get? rootId "default" = some (.entity e) := by
    rw [Graph.get?, Graph.lookup, h]
    rfl
  have hnone : ¬ (m.graph.keys rootId).any (· != "default") = true := by
    rw [Graph.keys, h]
    exact Bool.false_ne_true
  rw [exportRoot, if_neg hnone, hget]

theorem exportRoot_of_empty (h : m.graph.members rootId = []) :
    m.exportRoot = (.nested rootId, false) := by
  have hget : m.graph.get? rootId "default" = none := by
    rw [Graph.get?, Graph.lookup, h]
    exact Option.bind_eq_none_iff.mpr fun _ _ => rfl
  rw [exportRoot, Graph.keys, h, if_neg (by decide), hget]
  rfl

theorem walk_exportRoot (hm : m.graph = spread c) (hnames : DistinctNames c.exports) :
    (¬ c.IsLoneDefault →
      (m.graph.walk m.exportRoot.1 "").map (·.target) =
        (functions 0 [] c.exports).filter BoundFunction.isListed) ∧
      (c.IsLoneDefault → m.graph.walk m.exportRoot.1 "" = []) := by
  have hkeys : m.graph.keys rootId = c.exports.map (·.1) := hm ▸ keys_spread hnames
  have hmembers : m.graph.members rootId = (mountItems 0 [] c.exports Linkage.initial.graph).1 :=
    hm ▸ members_spread hnames
  cases hany : (m.graph.keys rootId).any (· != "default") with
  | true =>
    rw [exportRoot_of_any hany, hm]
    refine ⟨fun _ => walk_spread hnames, fun hlone => ?_⟩
    rw [hkeys, hlone.keys] at hany
    cases hany
  | false =>
    rw [hkeys] at hany
    rcases eq_default_of_nodup hnames.nodup hany with hnone | ⟨item, hitem⟩
    · have hroot : m.graph.members rootId = [] := by
        rw [hmembers, hnone, mountItems]
      rw [exportRoot_of_empty hroot, hm]
      refine ⟨fun _ => walk_spread hnames, fun hlone => ?_⟩
      have hkeys := hlone.keys
      rw [hnone] at hkeys
      cases hkeys
    · rw [hitem, mountItems_cons, mountItems] at hmembers
      rw [exportRoot_of_default hmembers, Component.isLoneDefault_iff hitem]
      cases item with
      | function signature body =>
        rw [mountItem]
        exact ⟨fun hnot => absurd rfl hnot, fun _ => rfl⟩
      | nested exports =>
        rw [hm]
        exact ⟨fun _ => walk_spread_instance hnames hitem (by decide),
          fun h => absurd h Bool.false_ne_true⟩
      | _ =>
        rw [mountItem, hitem, functions, functions, functionsOf]
        exact ⟨fun _ => rfl, fun h => absurd h Bool.false_ne_true⟩

end Module

/-! ## Loading what the bundled transpiler writes -/

theorem load_bundledFiles {bytes : ByteArray} (exports : List (String × ExportKind)) {l : Loader}
    {c : Component} {i : Instance} (hcompile : l.engine.compile bytes = .ok c)
    (hinstantiate : c.instantiate l.limit = .ok i) (first : Nat) :
    ∃ source, Module.load l ((bundledFiles {} bytes exports).link [⟨first⟩] (bundledSource {}))
      (coreTable {} bytes first) = .ok ⟨spread c, [i], source⟩ := by
  have hbind : l.instantiate ⟨coreFile {}, bytes⟩ = .ok (c, i) := by
    simp only [Loader.instantiate, hcompile, hinstantiate]
  refine ⟨(bundledFiles {} bytes exports).link [⟨first⟩] (bundledSource {}), ?_⟩
  rw [Module.load, Transpiler.parse_link_of_writable {} bytes exports (by decide)]
  simp only [Loader.run, Loader.step, Transpiler.resolve_coreTable, hbind]
  rfl

/-! ## What is exposed -/

section Exposure

variable {engine : Engine} {config : Config} {a : Artifact} {c : Component} {i : Instance}

theorem Host.attempt_bundled (hcompile : engine.compile a.bytes = .ok c)
    (hinstantiate : c.instantiate config.maxMemoryBytes = .ok i) (number elapsed next : Nat) :
    ∃ m handles, m.graph = spread c ∧
      ((Host.bundled engine config).attempt number a elapsed (.empty next)).outcome =
        .ok (Runnable.discover a m handles) := by
  let exports := c.exports.map fun e => (e.1, e.2.kind)
  obtain ⟨source, hload⟩ := load_bundledFiles exports
    (l := (Host.bundled engine config).loader) hcompile hinstantiate next
  have htranspile : (Host.bundled engine config).transpiler.transpile number a.bytes {} =
      .ok ⟨bundledFiles {} a.bytes exports, exports⟩ := by
    simp only [Host.bundled, Transpiler.bundled, hcompile, exports]
  have hentry : (bundledFiles {} a.bytes exports).entrySource entryPointFile =
      .ok (bundledSource {}) := Transpiler.entrySource_bundledFiles {} a.bytes exports
  refine ⟨⟨spread c, [i], source⟩, [⟨next⟩], rfl, ?_⟩
  rw [Host.attempt, htranspile]
  simp only [build, hentry, buildFrom, Transpiler.createAll_bundledFiles, hload]

namespace Runner

/-- **Every exported function is exposed, but for a lone `default`.**  A component that is accepted
and instantiated is transpiled with success, whatever happened before.  The exports are then its
functions, each once, depth first, with the number of its parameters; left out are those at or
below a key that is never followed.  Only of a component whose sole export is a function called
`default` there are no exports at all. -/
theorem exports_transpile (engine : Engine) (config : Config) (first : Nat) (ops : List Operation)
    (elapsed : Nat) {a : Artifact} {c : Component} {i : Instance}
    (ha : ((initial first).after (Host.bundled engine config) ops).artifact? = some a)
    (hcompile : engine.compile a.bytes = .ok c)
    (hinstantiate : c.instantiate config.maxMemoryBytes = .ok i)
    (hnames : DistinctNames c.exports) :
    let x := ((initial first).after (Host.bundled engine config) ops).transpile
      (Host.bundled engine config) elapsed
    x.1 = .ok x.2.exports.length ∧
      (¬ c.IsLoneDefault →
        x.2.exports.map (fun e => (e.target, Callable.arity e.target)) =
          ((functions 0 [] c.exports).filter BoundFunction.isListed).map
            fun f => (f, some f.signature.params.length)) ∧
      (c.IsLoneDefault → x.2.exports = []) := by
  intro x
  have he : Exact (Host.bundled engine config) _ :=
    exact_after (Host.bundled engine config) first ops
  obtain ⟨m, handles, hm, hattempt⟩ := Host.attempt_bundled hcompile hinstantiate
    ((initial first).after (Host.bundled engine config) ops).attempts elapsed
    ((initial first).after (Host.bundled engine config) ops).resources.next
  rw [← he.release] at hattempt
  have hx : x.1 = .ok (Runnable.discover a m handles).exports.length ∧
      x.2.state = .runnable (Runnable.discover a m handles) := by
    simp only [x, transpile_eq (Host.bundled engine config) ha, finishTranspile, hattempt]
    exact ⟨trivial, trivial⟩
  have hexports : x.2.exports = m.graph.walk m.exportRoot.1 "" := by
    rw [exports, hx.2]
    rfl
  obtain ⟨hlisted, hlone⟩ := Module.walk_exportRoot hm hnames
  refine ⟨?_, fun hnot => ?_, fun h => ?_⟩
  · rw [hx.1, hexports]
    rfl
  · rw [hexports, ← hlisted hnot, List.map_map]
    rfl
  · rw [hexports, hlone h]

/-- A host that takes all bytes for a component with these exports. -/
def exportingHost (items : List (String × ExportItem)) : Host :=
  .bundled ⟨fun _ => .ok ⟨items, 0, [], .ok ⟨0, 0⟩⟩⟩ {}

/-- Functions on two levels, some of them at or below keys that are never followed. -/
def mixedExports : List (String × ExportItem) :=
  [("default", .function ⟨[], none⟩ (some Body.nop)),
    ("api", .nested [("kind", .type), ("part", .component),
      ("flip", .function ⟨[("on", .bool)], some .bool⟩ none),
      ("constructor", .function ⟨[], none⟩ (some Body.nop))]),
    ("__proto__", .nested [("lost", .function ⟨[], none⟩ (some Body.nop))]),
    ("run", .function ⟨[], none⟩ (some Body.trap))]

def loneExports : List (String × ExportItem) :=
  [("default", .function ⟨[], none⟩ (some Body.nop))]

theorem exports_transpile_mixed_and_lone :
    let transpiled := fun items =>
      (((initial 0).after (exportingHost items) [.loadBytes ⟨#[1]⟩ "a.wasm"]).transpile
        (exportingHost items) 0).2.exports
    (transpiled mixedExports).map (fun e => (e.target.name, Callable.arity e.target)) =
        [("default", some 0), ("flip", some 1), ("run", some 0)] ∧
      transpiled loneExports = [] := by
  intro transpiled
  have hmixed := exports_transpile (exportingHost mixedExports).engine {} 0
    [.loadBytes ⟨#[1]⟩ "a.wasm"] 0 (a := ⟨⟨#[1]⟩, "a.wasm", by decide⟩) rfl rfl rfl
    (by simp [mixedExports, DistinctNames, DistinctBelow])
  have hlone := exports_transpile (exportingHost loneExports).engine {} 0
    [.loadBytes ⟨#[1]⟩ "a.wasm"] 0 (a := ⟨⟨#[1]⟩, "a.wasm", by decide⟩) rfl rfl rfl
    (by simp [loneExports, DistinctNames, DistinctBelow])
  refine ⟨?_, hlone.2.2 ⟨_, _, rfl⟩⟩
  have hnames := congrArg (List.map fun e => (e.1.name, e.2))
    (hmixed.2.1 fun ⟨_, _, h⟩ => nomatch h)
  rw [List.map_map] at hnames
  exact hnames.trans rfl

end Runner

end Exposure

end ComponentHost
