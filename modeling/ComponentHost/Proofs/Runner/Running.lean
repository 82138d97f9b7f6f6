/-
# `ComponentHost.Proofs.Runner.Running` — running a module is calling its entry function

A run looks for `run`, `main` and `start` in the namespace that the exports were found below, and
enters the callable it comes upon.  A call looks a path up in the list of exports.  No text is
shared between the two, and yet they agree (`Host.Discovered.exists_export_iff`):

    an export has the name for its path    iff    the namespace holds the callable under the name

From right to left, a walk lists the callables of the namespace it starts in.  From left to right,
a path without a dot is one key, because the keys on the way to a function are the instances it
lies in and its name, behind `default` at most (`Loader.Meaning.keys_below`), and none of them is
empty.  No namespace of a module has a parent, so nothing else is found by looking a name up.
-/
import ComponentHost.Proofs.Namespace.Lookup
import ComponentHost.Proofs.Runner.Placement

namespace ComponentHost

open Entry

/-! ## Modules without parents -/

namespace Entry

mutual

theorem parentless_mountItems (owner : Nat) :
    ∀ (within : List String) (items : List (String × ExportItem)) (g : Graph BoundFunction),
      g.Parentless → (mountItems owner within items g).2.Parentless
  | _, [], g, hg => by
      rw [mountItems]
      exact hg
  | within, (name, item) :: rest, g, hg => by
      rw [mountItems_cons]
      have hitem := parentless_mountItem owner within name item g hg
      exact parentless_mountItems owner within rest _ hitem

theorem parentless_mountItem (owner : Nat) :
    ∀ (within : List String) (name : String) (item : ExportItem) (g : Graph BoundFunction),
      g.Parentless → (mountItem owner within name item g).2.Parentless
  | _, _, .function _ _, g, hg | _, _, .type, g, hg | _, _, .resource, g, hg
  | _, _, .coreModule, g, hg | _, _, .component, g, hg => by
      rw [mountItem]
      exact hg
  | within, name, .nested exports, g, hg => by
      rw [mountItem_nested]
      exact (parentless_mountItems owner (within ++ [name]) exports g hg).add
        (Graph.parent_setAll (.empty none) _)

end

namespace Loader

variable (l : Loader) {resolve : ImportForm → String → Option Resource}

theorem parentless_contribute {k : Linkage} (hk : k.graph.Parentless)
    (es : List (String × Entity BoundFunction)) : (k.contribute es).graph.Parentless := by
  rw [Linkage.contribute, Graph.foldl_insert]
  exact hk.insertAll rootId _

theorem parentless_step {k k' : Linkage} {statement : Statement} (hk : k.graph.Parentless)
    (h : l.Steps resolve k statement k') : k'.graph.Parentless := by
  cases h with
  | @bind _ _ _ _ c _ _ _ _ =>
    exact (parentless_mountItems k.instances.length [] c.exports k.graph hk).add
      (Graph.parent_setAll (.empty none) _)
  | exportAll _ => exact parentless_contribute hk _
  | exportDefault _ => exact parentless_contribute hk _

end Loader

/-! ## Keys on the way to a function -/

/-- The keys from the root to a function are the instances it lies in and its name; or they stand
behind `default`. -/
theorem Loader.Meaning.keys_below {l : Loader} {table : ResourceTable} {ss : List Statement}
    {spaces : List Space} {m : Module} (h : l.Meaning table ss spaces m) {s : Site BoundFunction}
    (hs : s.StandsBelow m.graph rootId) :
    s.keys = s.target.within ++ [s.target.name] ∨
      s.keys = "default" :: (s.target.within ++ [s.target.name]) := by
  have hkeys : s.keys = s.way.map (·.2) ++ [s.key] := List.map_append
  obtain ⟨way, home, place, key, target⟩ := s
  obtain ⟨hleads, hholds⟩ := hs
  -- the function comes from where the rest of its way says
  have hfrom : ∀ {n : Nat} {keys : List String}, target.origin = (n, keys, key) →
      keys ++ [key] = target.within ++ [target.name] := by
    intro n keys horigin
    obtain ⟨-, hrest⟩ := Prod.mk.inj horigin
    obtain ⟨hwithin, hname⟩ := Prod.mk.inj hrest
    rw [show target.within = keys from hwithin, show target.name = key from hname]
  rw [hkeys]
  cases hleads with
  | here =>
    obtain ⟨n, space, hn, ⟨-, j, hj⟩ | ⟨-, -, he⟩⟩ := h.root_member hholds
    · exact .inl (hfrom ((h.shows n space hn).origin_of_leads (.here space.id) hj))
    · cases he
  | @into _ next _ i k way hmember hway =>
    obtain ⟨n, space, hn, ⟨-, j, hj⟩ | ⟨-, rfl, he⟩⟩ := h.root_member hmember
    · exact .inl (hfrom ((h.shows n space hn).origin_of_leads (.into hj hway) hholds))
    · cases he
      exact .inr (congrArg _ (hfrom ((h.shows n space hn).origin_of_leads hway hholds)))

end Entry

namespace Module

variable {l : Loader} {table : ResourceTable} {source : String} {m : Module}

theorem parentless_of_load (hload : load l source table = .ok m) : m.graph.Parentless := by
  obtain ⟨ss, hparse⟩ := exists_parse_of_load hload
  obtain ⟨k, hrun, rfl⟩ := exists_run_of_load hparse hload
  refine l.run_induction l.parentless_step ?_ hrun
  intro n hn
  obtain rfl := List.mem_singleton.mp hn
  rfl

/-- The keys from where exports are looked for to a function are among the instances it lies in, its
name, and `default`. -/
theorem keys_below_exportRoot (hload : load l source table = .ok m) {start : NamespaceId}
    (hroot : m.exportRoot.1 = .nested start) {s : Site BoundFunction}
    (hs : s.StandsBelow m.graph start) :
    ∀ key ∈ s.keys, key ∈ s.target.within ++ [s.target.name] ∨ key = "default" := by
  obtain ⟨ss, hparse⟩ := exists_parse_of_load hload
  obtain ⟨k, hrun, rfl⟩ := exists_run_of_load hparse hload
  obtain ⟨-, spaces, hspaces⟩ := Loader.evaluated_of_run hrun
  have h := hspaces.meaning source
  generalize (⟨k.graph, k.instances, source⟩ : Module) = m at *
  -- a site below the root, with the same keys and perhaps `default` before them
  obtain ⟨s', hs', htarget, hsubset⟩ : ∃ s' : Site BoundFunction,
      s'.StandsBelow m.graph rootId ∧ s'.target = s.target ∧ s.keys ⊆ s'.keys := by
    rcases m.exportRoot_eq_or with heq | ⟨i, hmember⟩
    · cases hroot.symm.trans heq
      exact ⟨s, hs, rfl, List.Subset.refl _⟩
    · rw [hroot] at hmember
      exact ⟨s.under i "default", ⟨.into hmember hs.leads, hs.holds⟩, rfl,
        List.subset_cons_self _ _⟩
  intro key hkey
  rcases h.keys_below hs' with hkeys | hkeys
  · rw [htarget] at hkeys
    exact .inl (hkeys ▸ hsubset hkey)
  · rw [htarget] at hkeys
    rcases List.mem_cons.mp (hkeys ▸ hsubset hkey) with hkey | hkey
    · exact .inr hkey
    · exact .inl hkey

end Module

/-! ## Entry functions and exports -/

namespace Host.Discovered

variable {h : Host} {m : Runnable} {name : String} {f : BoundFunction}

theorem parentless (hm : h.Discovered m) : m.module.graph.Parentless := by
  obtain ⟨source, table, instances, hload⟩ := hm.loaded
  exact Module.parentless_of_load (m := { m.module with instances }) hload

/-- An export has the name for its path if and only if the namespace holds its function under the
name, where exports are looked for. -/
theorem exists_export_iff (hm : h.Discovered m)
    (hnames : ∀ d ∈ m.exports, d.target.name ≠ "" ∧ "" ∉ d.target.within)
    (hdot : '.' ∉ name.toList) (hskip : name ∉ skippedKeys) :
    (∃ d ∈ m.exports, d.path = name ∧ d.target = f) ↔
      ∃ start i, m.root = .nested start ∧ m.module.graph.Holds start i name (.callable f) := by
  obtain ⟨source, table, instances, hload⟩ := hm.loaded
  have hsteady : m.module.graph.Steady :=
    Module.steady_of_load (m := { m.module with instances }) hload
  constructor
  · rintro ⟨d, hd, rfl, rfl⟩
    have hd' := hd
    rw [hm.exports] at hd'
    cases hroot : m.root with
    | nested start =>
      rw [hroot] at hd'
      obtain ⟨s, hs, rfl⟩ := Graph.exists_site_of_mem_walk hsteady hd'
      have hkeys := Module.keys_below_exportRoot (m := { m.module with instances }) hload
        (hm.root.symm.trans hroot) hs
      obtain ⟨hname, hwithin⟩ := hnames _ hd
      have hempty : "" ∉ s.keys := by
        intro hmem
        rcases hkeys "" hmem with hkey | hkey
        · rcases List.mem_append.mp hkey with hkey | hkey
          · exact hwithin hkey
          · exact hname (List.mem_singleton.mp hkey).symm
        · simp at hkey
      exact ⟨start, s.place, rfl, hs.holds_of_listed hempty hdot⟩
    | _ =>
      rw [hroot] at hd'
      cases hd'
  · rintro ⟨start, i, hroot, hholds⟩
    refine ⟨⟨name, displayName name, f⟩, ?_, rfl, rfl⟩
    rw [hm.exports, hroot]
    exact Graph.mem_walk_of_holds hsteady hholds

end Host.Discovered

theorem Callable.takesNothing_iff (f : BoundFunction) :
    Callable.takesNothing f = true ↔ Callable.arity f = some 0 := by
  have harity : Callable.arity f = some f.signature.params.length := rfl
  rw [Callable.takesNothing, harity]
  cases f.signature.params.length <;> simp

namespace Runner

/-- The list of exports has a function without arguments under the path. -/
def offers (r : Runner) (name : String) : Bool :=
  r.exports.any fun d => d.path == name && Callable.arity d.target == some 0

/-- The first entry name that the list of exports offers. -/
def firstOffered? (r : Runner) : Option String := entryPointNames.find? r.offers

/-- A run executes the entry function of that name: it says so, and then tells the answer. -/
structure Executes (r : Runner) (name : String) (answer : Answer) : Prop where
  answered : r.run.1 = some answer
  logged : r.run.2.log = r.log ++ [.info "Attempting to run component...",
    .info ("Found \"" ++ name ++ "\" export, executing..."), runNote name answer]

variable {h : Host} {r : Runner} {m : Runnable} {name : String} {f : BoundFunction}

theorem firstOffered?_of_exports (hnone : r.exports = []) : r.firstOffered? = none := by
  refine List.find?_eq_none.mpr fun n _ hoffers => ?_
  rw [offers, hnone] at hoffers
  cases hoffers

theorem plain_of_mem_entryPointNames (hname : name ∈ entryPointNames) :
    '.' ∉ name.toList ∧ name ∉ skippedKeys := by
  revert name
  decide

/-- What a run enters under a name is what a call by the name enters, and it is there if the list of
exports offers the name. -/
theorem entryPoint?_eq_some_iff (hs : r.state = .runnable m) (hm : h.Discovered m)
    (hnames : ∀ d ∈ r.exports, d.target.name ≠ "" ∧ "" ∉ d.target.within)
    (hname : name ∈ entryPointNames) {start : NamespaceId} (hroot : m.root = .nested start)
    {x : String × BoundFunction} :
    m.module.graph.entryPoint? start name = some x ↔ x.1 = name ∧ r.offers name = true ∧
      ∃ d, r.findExport name = some d ∧ d.target = x.2 := by
  obtain ⟨hdot, hskip⟩ := plain_of_mem_entryPointNames hname
  have hexports : r.exports = m.exports := exports_of_state hs
  rw [hexports] at hnames
  have hiff : ∀ f, (∃ d ∈ m.exports, d.path = name ∧ d.target = f) ↔
      ∃ i, m.module.graph.Holds start i name (.callable f) := by
    intro f
    rw [hm.exists_export_iff hnames hdot hskip]
    constructor
    · rintro ⟨start', i, hroot', hholds⟩
      cases hroot.symm.trans hroot'
      exact ⟨i, hholds⟩
    · rintro ⟨i, hholds⟩
      exact ⟨start, i, hroot, hholds⟩
  -- two exports with the name for a path have one function
  have hunique : ∀ {f f'}, (∃ d ∈ m.exports, d.path = name ∧ d.target = f) →
      (∃ d ∈ m.exports, d.path = name ∧ d.target = f') → f = f' := by
    intro f f' hf hf'
    obtain ⟨i, hi⟩ := (hiff f).mp hf
    obtain ⟨i', hi'⟩ := (hiff f').mp hf'
    obtain rfl := hi.place_unique hi'
    exact Entity.callable.inj (hi.unique hi').2
  have hfind : ∀ {d}, d ∈ m.exports → d.path = name →
      ∃ d' ∈ m.exports, d'.path = name ∧ r.findExport name = some d' := by
    rintro d hd rfl
    rw [← hexports] at hd ⊢
    exact exists_findExport hd
  rw [hm.parentless.entryPoint?_eq_some_iff hskip, ← hiff, Callable.takesNothing_iff, offers,
    hexports, List.any_eq_true]
  simp only [Bool.and_eq_true, beq_iff_eq]
  constructor
  · rintro ⟨hx, harity, d, hd, hpath, htarget⟩
    obtain ⟨d', hd', hpath', hfound⟩ := hfind hd hpath
    refine ⟨hx, ⟨d, hd, hpath, htarget ▸ harity⟩, d', hfound, ?_⟩
    exact hunique ⟨d', hd', hpath', rfl⟩ ⟨d, hd, hpath, htarget⟩
  · rintro ⟨hx, ⟨d, hd, hpath, harity⟩, d', hfound, htarget⟩
    obtain ⟨d'', hd'', hpath'', hfound''⟩ := hfind hd hpath
    cases hfound.symm.trans hfound''
    have hsame : d.target = x.2 := htarget ▸ hunique ⟨d, hd, hpath, rfl⟩ ⟨d', hd'', hpath'', rfl⟩
    exact ⟨hx, hsame ▸ harity, d, hd, hpath, hsame⟩

/-- A run enters the function that a call by the first name on offer enters. -/
theorem findEntryPoint_eq (hs : r.state = .runnable m) (hm : h.Discovered m)
    (hnames : ∀ d ∈ r.exports, d.target.name ≠ "" ∧ "" ∉ d.target.within) :
    (∀ name f, m.module.graph.findEntryPoint m.root = some (name, f) →
        r.firstOffered? = some name ∧ ∃ d, r.findExport name = some d ∧ d.target = f) ∧
      (m.module.graph.findEntryPoint m.root = none → r.firstOffered? = none) := by
  cases hroot : m.root with
  | nested start =>
    have hiff := fun {name} (hname : name ∈ entryPointNames) {x} =>
      entryPoint?_eq_some_iff (x := x) hs hm hnames hname hroot
    -- a name on offer has an entry function
    have hsome : ∀ name ∈ entryPointNames, r.offers name = true →
        m.module.graph.entryPoint? start name ≠ none := by
      intro name hname hoffers hnone
      obtain ⟨d, hd, hpath⟩ := List.any_eq_true.mp hoffers
      rw [Bool.and_eq_true, beq_iff_eq] at hpath
      obtain ⟨d', -, -, hfound⟩ := exists_findExport hd
      rw [hpath.1] at hfound
      have hx := (hiff hname (x := (name, d'.target))).mpr ⟨rfl, hoffers, d', hfound, rfl⟩
      rw [hnone] at hx
      cases hx
    constructor
    · intro name f hfind
      obtain ⟨before, name', after, hsplit, hname', hbefore⟩ := List.findSome?_eq_some_iff.mp hfind
      have hmem : name' ∈ entryPointNames := by
        rw [hsplit]
        exact List.mem_append_right _ List.mem_cons_self
      obtain ⟨rfl, hoffers, hfound⟩ := (hiff hmem).mp hname'
      refine ⟨List.find?_eq_some_iff_append.mpr ⟨hoffers, before, after, hsplit, ?_⟩, hfound⟩
      intro n hn
      rw [Bool.not_eq_true']
      refine Bool.eq_false_iff.mpr fun hoffers => ?_
      refine hsome n ?_ hoffers (hbefore n hn)
      rw [hsplit]
      exact List.mem_append_left _ hn
    · intro hnone
      refine List.find?_eq_none.mpr fun n hn hoffers => ?_
      exact hsome n hn hoffers (List.findSome?_eq_none_iff.mp hnone n hn)
  | _ =>
    refine ⟨nofun, fun _ => firstOffered?_of_exports ?_⟩
    rw [exports_of_state hs, hm.exports, hroot]
    rfl

/-! ## Runs and calls -/

theorem run_of_findEntryPoint (hs : r.state = .runnable m)
    (hfind : m.module.graph.findEntryPoint m.root = some (name, f)) :
    r.Executes name (m.enter f []).1 ∧ r.run.2.state = .runnable (m.enter f []).2 := by
  have hm : r.state.runnable? = some m := by rw [hs]; rfl
  refine ⟨⟨?_, ?_⟩, ?_⟩ <;> simp [run, hm, hfind, enter, write]

theorem run_of_findEntryPoint_none (hs : r.state = .runnable m)
    (hfind : m.module.graph.findEntryPoint m.root = none) :
    r.run.1 = none ∧ r.run.2.state = r.state := by
  have hm : r.state.runnable? = some m := by rw [hs]; rfl
  constructor <;> simp [run, hm, hfind, write]

theorem Executes.unique {name' : String} {answer answer' : Answer} (he : r.Executes name answer)
    (he' : r.Executes name' answer') : name = name' := by
  have hlog := List.append_cancel_left (he.logged.symm.trans he'.logged)
  obtain ⟨-, hlog⟩ := List.cons.inj hlog
  obtain ⟨hentry, -⟩ := List.cons.inj hlog
  have hmessage := congrArg (fun e => e.message.toList) hentry
  simp only [LogEntry.info, String.toList_append] at hmessage
  exact String.toList_injective
    (List.append_cancel_left (List.append_cancel_right hmessage))

/-- **Running a module is calling its entry function by name.**  Take any runner that operations
lead to and that has a module, whose exported functions, and the instances they lie in, all have
names.  A run executes the entry function `name` if and only if `name` is the first of `run`, `main`
and `start` that is the path of an export without arguments.  If there is none, the run gives no
answer and the module stays as it is.  If there is one, the run gives the answer of a call by that
name without arguments, and leaves the module as the call does, with each of its instances. -/
theorem run_eq_call (hr : Reachable h r) (hm : r.state = .runnable m)
    (hnames : ∀ d ∈ r.exports, d.target.name ≠ "" ∧ "" ∉ d.target.within) :
    (∀ name, (∃ answer, r.Executes name answer) ↔ r.firstOffered? = some name) ∧
      (r.firstOffered? = none → r.run.1 = none ∧ r.run.2.state = r.state) ∧
        ∀ name, r.firstOffered? = some name →
          r.run.1 = some (r.call name "").1 ∧ r.run.2.state = (r.call name "").2.state := by
  have hdiscovered : h.Discovered m := by
    obtain ⟨first, ops, rfl⟩ := hr
    exact discovered_after h first ops m hm
  obtain ⟨hsome, hnone⟩ := findEntryPoint_eq hm hdiscovered hnames
  cases hfind : m.module.graph.findEntryPoint m.root with
  | none =>
    have hfirst : r.firstOffered? = none := hnone hfind
    have hrun := run_of_findEntryPoint_none hm hfind
    refine ⟨fun name => ⟨?_, ?_⟩, fun _ => hrun, ?_⟩
    · rintro ⟨answer, hexecutes⟩
      cases hrun.1.symm.trans hexecutes.answered
    · intro hname
      cases hfirst.symm.trans hname
    · intro name hname
      cases hfirst.symm.trans hname
  | some x =>
    obtain ⟨entry, f⟩ := x
    obtain ⟨hfirst, d, hd, rfl⟩ := hsome entry f hfind
    obtain ⟨hexecutes, hstate⟩ := run_of_findEntryPoint hm hfind
    refine ⟨fun name => ⟨?_, ?_⟩, ?_, ?_⟩
    · rintro ⟨answer, hexecutes'⟩
      rw [hfirst, hexecutes.unique hexecutes']
    · intro hname
      cases hfirst.symm.trans hname
      exact ⟨_, hexecutes⟩
    · intro hname
      cases hfirst.symm.trans hname
    · intro name hname
      cases hfirst.symm.trans hname
      obtain ⟨hanswer, hafter⟩ := callWith_of_findExport hm hd (Arguments.parse "")
      refine ⟨?_, ?_⟩
      · rw [hexecutes.answered]
        exact congrArg some hanswer.symm
      · rw [hstate]
        exact hafter.symm

/-- Exports with a `run` that takes an argument, and a `main` in an instance before the other. -/
def crowdedExports : List (String × ExportItem) :=
  [("run", .function ⟨[("n", .int .u32)], some (.int .u32)⟩ (some (Body.echo 0))),
    ("tools", .nested [("main", .function ⟨[], none⟩ (some Body.trap))]),
    ("start", .function ⟨[], none⟩ (some Body.nop)),
    ("main", .function ⟨[], some (.int .u32)⟩ (some Body.count))]

def crowdedHost : Host :=
  .bundled ⟨fun _ => .ok ⟨crowdedExports, 0, [], .ok ⟨0, 0⟩⟩⟩ {}

def crowdedOperations : List Operation :=
  [.loadBytes ⟨#[1]⟩ "a.wasm", .transpile 0, .call "main" ""]

/-- It is run by the function `main` of the component itself. -/
theorem run_eq_call_crowded :
    let r := (initial 0).after crowdedHost crowdedOperations
    (∀ d ∈ r.exports, d.target.name ≠ "" ∧ "" ∉ d.target.within) ∧
      r.firstOffered? = some "main" ∧ (∃ answer, r.Executes "main" answer) ∧
        r.run.1 = some (r.call "main" "").1 ∧ r.run.2.state = (r.call "main" "").2.state := by
  intro r
  have hlisted : r.exports.map (fun d =>
      (d.path, d.target.within, d.target.name, d.target.signature.params.length)) =
        [("run", [], "run", 1), ("tools.main", ["tools"], "main", 0), ("start", [], "start", 0),
          ("main", [], "main", 0)] := by decide +kernel
  have hnames : ∀ d ∈ r.exports, d.target.name ≠ "" ∧ "" ∉ d.target.within := by
    intro d hd
    have hmem := List.mem_map_of_mem (f := fun d : Export BoundFunction =>
      (d.path, d.target.within, d.target.name, d.target.signature.params.length)) hd
    rw [hlisted] at hmem
    generalize d.target.name = name, d.target.within = within at hmem
    simp only [List.mem_cons, Prod.mk.injEq, List.not_mem_nil, or_false] at hmem
    rcases hmem with ⟨-, rfl, rfl, -⟩ | ⟨-, rfl, rfl, -⟩ | ⟨-, rfl, rfl, -⟩ | ⟨-, rfl, rfl, -⟩ <;>
      decide
  have hfirst : r.firstOffered? = some "main" := by
    have hoffers : r.offers = fun name => (r.exports.map fun d =>
        (d.path, d.target.within, d.target.name, d.target.signature.params.length)).any
          fun x => x.1 == name && some x.2.2.2 == some 0 := by
      funext name
      rw [List.any_map]
      rfl
    rw [firstOffered?, hoffers, hlisted]
    decide
  obtain ⟨m, hm⟩ : ∃ m, r.state = .runnable m := by
    cases hs : r.state with
    | runnable m => exact ⟨m, rfl⟩
    | _ =>
      have hnone : r.exports = [] := by
        rw [exports, State.exports, hs]
        rfl
      cases hfirst.symm.trans (firstOffered?_of_exports hnone)
  have hr : Reachable crowdedHost r := ⟨0, crowdedOperations, rfl⟩
  obtain ⟨hexecutes, -, hcall⟩ := run_eq_call hr hm hnames
  exact ⟨hnames, hfirst, (hexecutes "main").mpr hfirst, hcall "main" hfirst⟩

end Runner

end ComponentHost
