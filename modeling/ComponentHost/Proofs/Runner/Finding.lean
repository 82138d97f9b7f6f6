/-
# `ComponentHost.Proofs.Runner.Finding` — which export a path finds

A call by the path of an export enters the first export with that path.  After any
operations the module is one that was loaded, and the exports are what a walk from its
export root finds, so each stands for the keys that lead to it (`Discovered`).  Then

    one path for two exports   only if the way goes through `key` where a member
                               `key.rest` stands beside it

as with an interface of version `1.0.0-x` that holds an instance `g`, beside one of
version `1.0.0-x.g`.  In all other cases the path of an export finds that export.
-/
import ComponentHost.Component.Behaviour
import ComponentHost.Proofs.Entry.Naming
import ComponentHost.Proofs.Namespace.Path
import ComponentHost.Proofs.Runner.Ownership
import ComponentHost.Proofs.Runner.Step

namespace ComponentHost

open Entry

/-! ## Modules that were discovered -/

/-- The module was loaded by the host, up to what calls have changed in its instances, and its
exports were found from its export root. -/
structure Host.Discovered (h : Host) (m : Runnable) : Prop where
  loaded : ∃ source table instances,
    Module.load h.loader source table = .ok { m.module with instances }
  root : m.root = m.module.exportRoot.1
  exports : m.exports = m.module.graph.walk m.root ""

namespace Runner

variable {h : Host} {r r' : Runner} {op : Operation} {reply : Reply}

theorem discovered_move (hr : ∀ m, r.state = .runnable m → h.Discovered m)
    (hmove : Move h r op reply r') : ∀ m, r'.state = .runnable m → h.Discovered m := by
  intro m hm
  cases hmove with
  | taken _ _ => cases hm
  | ignored _ _ => exact hr m hm
  | refused _ _ _ => exact hr m hm
  | unready _ _ => exact hr m hm
  | failed _ _ _ _ _ => cases hm
  | @made elapsed a attempt m' notes _ hattempt ho _ =>
    obtain rfl := State.runnable.inj hm
    have hend := h.attempt_ending r.attempts a elapsed (r.state.release r.resources)
    rw [← hattempt] at hend
    cases hend with
    | refused _ => cases ho
    | entryless _ _ => cases ho
    | rejected _ _ _ => cases ho
    | accepted _ _ hload =>
      cases ho
      exact ⟨⟨_, _, _, hload⟩, rfl, rfl⟩
  | @entered _ m' f args _ hs _ =>
    obtain rfl := State.runnable.inj hm
    have hbefore := hr m' hs
    exact ⟨hbefore.loaded, hbefore.root, hbefore.exports⟩
  | noted _ _ _ => exact hr m hm
  | cleared => exact hr m hm

theorem discovered_after (h : Host) (first : Nat) (ops : List Operation) :
    ∀ m, ((initial first).after h ops).state = .runnable m → h.Discovered m :=
  after_induction (P := fun r => ∀ m, r.state = .runnable m → h.Discovered m) h
    (fun m hm => by cases hm) discovered_move ops

end Runner

/-! ## Exports and the callables that they stand for -/

theorem Module.steady_of_load {l : Loader} {source : String} {table : ResourceTable} {m : Module}
    (hload : load l source table = .ok m) : m.graph.Steady := by
  obtain ⟨ss, hparse⟩ := exists_parse_of_load hload
  exact (owns_of_load hparse hload).2.steady

theorem Host.Discovered.exists_sites {h : Host} (hnames : h.engine.Names) {m : Runnable}
    (hm : h.Discovered m) :
    m.exports = [] ∨ ∃ start, ∃ sites : List (Site BoundFunction), m.root = .nested start ∧
      m.exports = sites.map (Site.toExport []) ∧
        ∀ s ∈ sites, s.StandsBelow m.module.graph start := by
  obtain ⟨source, table, instances, hload⟩ := hm.loaded
  have hsteady : m.module.graph.Steady :=
    Module.steady_of_load (m := { m.module with instances }) hload
  have hkeyed : m.module.graph.Keyed (· ≠ "") :=
    Module.keyed_of_load (m := { m.module with instances }) hnames hload
  rw [hm.exports]
  cases m.root with
  | nested start =>
    obtain ⟨sites, hwalk, hstands, -⟩ := Graph.exists_sites hsteady hkeyed.keys_ne start
    exact .inr ⟨start, sites, rfl, hwalk, hstands⟩
  | _ => exact .inl rfl

namespace Runner

variable {h : Host} {r : Runner} {m : Runnable} {d : Export BoundFunction}

theorem exports_of_state (hm : r.state = .runnable m) : r.exports = m.exports := by
  rw [exports, State.exports, hm]
  rfl

theorem exists_findExport (hd : d ∈ r.exports) :
    ∃ d' ∈ r.exports, d'.path = d.path ∧ r.findExport d.path = some d' := by
  cases hfind : r.exports.find? (·.path == d.path) with
  | none =>
    have hne := List.find?_eq_none.mp hfind d hd
    rw [beq_self_eq_true] at hne
    exact absurd rfl hne
  | some d' =>
    refine ⟨d', List.mem_of_find?_eq_some hfind, ?_, ?_⟩
    · have hpath := List.find?_some hfind
      exact beq_iff_eq.mp hpath
    · rw [findExport, hfind]
      rfl

theorem callWith_of_findExport (hm : r.state = .runnable m) {name : String}
    (hfind : r.findExport name = some d) (args : List Json) :
    (r.callWith name args).1 = (m.enter d.target args).1 ∧
      (r.callWith name args).2.state = .runnable (m.enter d.target args).2 := by
  have hm : r.state.runnable? = some m := by rw [hm]; rfl
  simp [callWith, hm, hfind, enter, write]

/-- **The path of an export finds the export, unless keys with dots blur it.**  Take any host whose
engine accepts no component with an empty name, and any operations that end with a module.  The path
of an export finds that export, and a call by the path enters its function in the instances of the
module.  Or the path leads through a member of some namespace, beside which stands a member whose
key is that one, a dot and more; then what is found has the path as well. -/
theorem findExport_path (h : Host) (hnames : h.engine.Names) (first : Nat) (ops : List Operation)
    {m : Runnable} (hm : ((initial first).after h ops).state = .runnable m) :
    let r := (initial first).after h ops
    ∀ d ∈ r.exports,
      (r.findExport d.path = some d ∧ ∀ args,
        (r.callWith d.path args).1 = (m.enter d.target args).1 ∧
          (r.callWith d.path args).2.state = .runnable (m.enter d.target args).2) ∨
        ∃ d' ∈ r.exports, d'.path = d.path ∧ r.findExport d.path = some d' ∧
          ∃ start way key rest, m.root = .nested start ∧ m.module.graph.Blurs start way key ∧
            d.path = ".".intercalate (way.map (·.2) ++ [key]) ++ "." ++ rest := by
  intro r d hd
  have hexports : r.exports = m.exports := exports_of_state hm
  obtain ⟨d', hd', hpath, hfind⟩ := exists_findExport hd
  rcases (discovered_after h first ops m hm).exists_sites hnames with
    hnone | ⟨start, sites, hroot, hsites, hstands⟩
  · rw [hexports, hnone] at hd
    cases hd
  · rw [hexports, hsites] at hd hd'
    obtain ⟨s, hs, rfl⟩ := List.mem_map.mp hd
    obtain ⟨s', hs', rfl⟩ := List.mem_map.mp hd'
    rcases (hstands s hs).eq_or_blurs (hstands s' hs') hpath.symm with
      rfl | ⟨way, key, rest, hblurs, hrest⟩
    · exact .inl ⟨hfind, callWith_of_findExport hm hfind⟩
    · refine .inr ⟨_, ?_, hpath, hfind, start, way, key, rest, hroot, hblurs, hrest⟩
      rw [hexports, hsites]
      exact List.mem_map_of_mem hs'

/-- An instance in an interface, and beside it an interface with the name of both. -/
def blurredExports : List (String × ExportItem) :=
  [("a:b/c@1.0.0-x",
      .nested [("g", .nested [("f", .function ⟨[], some (.int .u32)⟩ (some Body.count))])]),
    ("a:b/c@1.0.0-x.g", .nested [("f", .function ⟨[], some (.int .u32)⟩ (some Body.count))])]

def blurredHost : Host :=
  .bundled ⟨fun _ => .ok ⟨blurredExports, 0, [], .ok ⟨0, 0⟩⟩⟩ {}

def blurredOperations : List Operation := [.loadBytes ⟨#[1]⟩ "a.wasm", .transpile 0]

/-- Both functions have one path, and the path finds the first of them. -/
theorem findExport_path_blurred :
    let r := (initial 0).after blurredHost blurredOperations
    blurredHost.engine.Names ∧ ∃ m d d', r.state = .runnable m ∧ r.exports = [d, d'] ∧
      d.path = "a:b/c@1.0.0-x.g.f" ∧ d'.path = d.path ∧ d.target.within ≠ d'.target.within ∧
        r.findExport d'.path = some d ∧ ∃ start way key, m.module.graph.Blurs start way key := by
  intro r
  have hnames : blurredHost.engine.Names := by
    intro bytes c hc
    cases hc
    simp [blurredExports, exportNames, namesBelow]
  have hexports : r.exports.map (fun d => (d.path, d.target.within)) =
      [("a:b/c@1.0.0-x.g.f", ["a:b/c@1.0.0-x", "g"]),
        ("a:b/c@1.0.0-x.g.f", ["a:b/c@1.0.0-x.g"])] := by decide +kernel
  obtain ⟨m, hm⟩ : ∃ m, r.state = .runnable m := by
    cases hs : r.state with
    | runnable m => exact ⟨m, rfl⟩
    | _ =>
      rw [exports, State.exports, hs] at hexports
      cases hexports
  obtain ⟨d, rest, hd, hfirst, hrest⟩ := List.map_eq_cons_iff.mp hexports
  obtain ⟨d', rest, rfl, hsecond, hnil⟩ := List.map_eq_cons_iff.mp hrest
  obtain rfl := List.map_eq_nil_iff.mp hnil
  obtain ⟨hpath, hwithin⟩ := Prod.mk.inj hfirst
  obtain ⟨hpath', hwithin'⟩ := Prod.mk.inj hsecond
  have hdiffer : d.target.within ≠ d'.target.within := by
    rw [hwithin, hwithin']
    decide
  have hfind : r.findExport d'.path = some d := by
    rw [findExport, hd, hpath', List.find?_cons_of_pos (by rw [hpath]; exact beq_self_eq_true _)]
    rfl
  refine ⟨hnames, m, d, d', hm, hd, hpath, hpath'.trans hpath.symm, hdiffer, hfind, ?_⟩
  have hsecond : d' ∈ r.exports := by
    rw [hd]
    exact List.mem_cons_of_mem _ List.mem_cons_self
  rcases findExport_path blurredHost hnames 0 blurredOperations hm d' hsecond with
    ⟨hfound, -⟩ | ⟨-, -, -, -, start, way, key, -, -, hblurs, -⟩
  · cases hfind.symm.trans hfound
    exact absurd rfl hdiffer
  · exact ⟨start, way, key, hblurs⟩

end Runner

end ComponentHost
