/-
# `ComponentHost.Proofs.Runner.Placement` — where the functions of a module stand

A function is known by where it comes from: the instance, the exported instances it lies
in, and its name (`BoundFunction.origin`).  It stands in the namespace of its component,
behind the keys of the instances it lies in.  A statement can bring it to the root in two
ways, and they differ in whether the namespace of the component is left behind:

    export everything   its members are set in the root as well     f   api.g
    export default      it is set in the root itself                default.f   default.api.g

What lies in an instance stands in the namespace of that instance whichever way leads
there, and a walk enters a namespace once; so `g` is listed once.  A function of the
component itself has two places when the component is exported both ways, and these are
all there are.
-/
import ComponentHost.Proofs.Entry.Naming
import ComponentHost.Proofs.Namespace.Path
import ComponentHost.Proofs.Runner.Evaluation
import ComponentHost.Proofs.Runner.Finding

namespace ComponentHost

open Entry

/-- Where a function comes from: its instance, the instances it lies in, and its name. -/
def BoundFunction.origin (f : BoundFunction) : Nat × List String × String :=
  (f.owner, f.within, f.name)

namespace Entry

/-! ## Below a namespace that shows exports -/

section Showing

variable {g : Graph BoundFunction} {owner : Nat}

theorem Shows.exists_item {key : String} {member : Member BoundFunction} :
    ∀ {within : List String} {items : List (String × ExportItem)}
      {ms : List (String × Member BoundFunction)}, Shows g owner within items ms →
      (key, member) ∈ ms → ∃ item e, member = .entity e ∧ ShowsItem g owner within key item e
  | _, _, _, .nil _, hmem => absurd hmem List.not_mem_nil
  | _, _, _, .cons hitem hitems, hmem => by
      rcases List.mem_cons.mp hmem with heq | hmem
      · cases heq
        exact ⟨_, _, rfl, hitem⟩
      · exact hitems.exists_item hmem

theorem ShowsIn.exists_item {within : List String} {exports : List (String × ExportItem)}
    {id : NamespaceId} (h : ShowsIn g owner within exports id) {i : Nat} {key : String}
    {e : Entity BoundFunction} (hholds : g.Holds id i key e) :
    ∃ item, ShowsItem g owner within key item e := by
  obtain ⟨-, member, hmember, hread⟩ := hholds
  cases h with
  | mk _ _ hshows hmembers =>
    have hmem := List.mem_of_getElem? hmember
    rw [hmembers] at hmem
    obtain ⟨item, e', rfl, hitem⟩ := hshows.exists_item (Namespace.mem_members_ofList hmem)
    cases hread
    exact ⟨item, hitem⟩

/-- The keys on the way to a function are the instances it lies in, and its own key is its name. -/
theorem ShowsIn.origin_of_leads {within : List String} {exports : List (String × ExportItem)}
    {id home : NamespaceId} (h : ShowsIn g owner within exports id) {way : List (Nat × String)}
    (hway : g.Leads id way home) {place : Nat} {key : String} {f : BoundFunction}
    (hf : g.Holds home place key (.callable f)) :
    f.origin = (owner, within ++ way.map (·.2), key) := by
  induction hway generalizing within exports with
  | here id =>
    obtain ⟨item, hitem⟩ := h.exists_item hf
    cases hitem
    rw [List.map_nil, List.append_nil]
    rfl
  | @into id next home i k way hmember _ ih =>
    obtain ⟨item, hitem⟩ := h.exists_item hmember
    cases hitem with
    | nested hin =>
      rw [ih hin hf, List.append_assoc]
      rfl

end Showing

/-! ## Members of the root -/

section Root

variable {l : Loader} {table : ResourceTable} {ss : List Statement} {spaces : List Space}
  {m : Module}

theorem exists_space_of_lookup {binding : String} {id : NamespaceId}
    (h : (bindingsOf spaces).lookup binding = some id) :
    ∃ (n : Nat) (space : Space),
      spaces[n]? = some space ∧ space.name = binding ∧ space.id = id := by
  obtain ⟨before, after, heq, -⟩ := List.lookup_eq_some_iff.mp h
  have hmem : (binding, id) ∈ bindingsOf spaces := by
    rw [heq]
    exact List.mem_append_right _ List.mem_cons_self
  obtain ⟨space, hspace, hpair⟩ := List.mem_map.mp hmem
  obtain ⟨n, hn⟩ := List.mem_iff_getElem?.mp hspace
  obtain ⟨hname, hid⟩ := Prod.mk.inj hpair
  exact ⟨n, space, hn, hname, hid⟩

/-- A member of the root is one of a component that is exported with all that it has, or it is the
namespace of a component that is exported as the default. -/
theorem Loader.Meaning.root_member (h : l.Meaning table ss spaces m) {i : Nat} {key : String}
    {e : Entity BoundFunction} (hholds : m.graph.Holds rootId i key e) :
    ∃ (n : Nat) (space : Space), spaces[n]? = some space ∧
      ((.exportAll space.name ∈ ss ∧ ∃ j, m.graph.Holds space.id j key e) ∨
        (.exportDefault space.name ∈ ss ∧ key = "default" ∧ e = .nested space.id)) := by
  obtain ⟨hkey, member, hmember, hread⟩ := hholds
  obtain ⟨before, s, after, e', rfl, rfl, he, -⟩ :=
    h.values key member (List.mem_of_getElem? hmember)
  obtain rfl : e' = e := Reading.entity.inj hread
  have hs : s ∈ before ++ s :: after := List.mem_append_right _ List.mem_cons_self
  cases s with
  | bind form binding locator => cases he
  | exportAll binding =>
    rw [contribution] at he
    cases hlookup : (bindingsOf spaces).lookup binding with
    | none =>
      rw [hlookup] at he
      cases he
    | some id =>
      rw [hlookup] at he
      obtain ⟨n, space, hn, rfl, rfl⟩ := exists_space_of_lookup hlookup
      obtain ⟨⟨key', member⟩, hmem, hsome⟩ := List.mem_filterMap.mp he
      cases member with
      | entity e' =>
        cases hsome
        obtain ⟨j, hj⟩ := List.mem_iff_getElem?.mp hmem
        exact ⟨n, space, hn, .inl ⟨hs, j, hkey, _, hj, rfl⟩⟩
      | getter e' => cases hsome
      | failing message => cases hsome
      | maker made => cases hsome
  | exportDefault binding =>
    rw [contribution] at he
    cases hlookup : (bindingsOf spaces).lookup binding with
    | none =>
      rw [hlookup] at he
      cases he
    | some id =>
      rw [hlookup] at he
      obtain ⟨n, space, hn, rfl, rfl⟩ := exists_space_of_lookup hlookup
      obtain ⟨hkey', he'⟩ := Prod.mk.inj (List.mem_singleton.mp he)
      exact ⟨n, space, hn, .inr ⟨hs, hkey', he'⟩⟩

/-! ## Where functions stand -/

/-- The site is in the namespace of a component, or below it, where the function comes from. -/
def InSpace (g : Graph BoundFunction) (spaces : List Space) (n : Nat) (way : List (Nat × String))
    (s : Site BoundFunction) : Prop :=
  ∃ space, spaces[n]? = some space ∧ g.Leads space.id way s.home ∧
    s.target.origin = (n, way.map (·.2), s.key)

/-- Sites of one function in the namespace of its component, or below it, are one place. -/
theorem InSpace.place_unique {g : Graph BoundFunction} {n n' : Nat} {way way' : List (Nat × String)}
    {s s' : Site BoundFunction} {start start' : NamespaceId} (h : InSpace g spaces n way s)
    (h' : InSpace g spaces n' way' s') (hs : s.StandsBelow g start) (hs' : s'.StandsBelow g start')
    (horigin : s.target.origin = s'.target.origin) : (s.home, s.place) = (s'.home, s'.place) := by
  obtain ⟨space, hspace, hway, hfrom⟩ := h
  obtain ⟨space', hspace', hway', hfrom'⟩ := h'
  rw [hfrom, hfrom', Prod.mk.injEq, Prod.mk.injEq] at horigin
  obtain ⟨rfl, hkeys, hkey⟩ := horigin
  cases hspace.symm.trans hspace'
  obtain ⟨-, hhome⟩ := hway.unique hway' hkeys
  exact hs.place_unique hs' hhome hkey

/-- A site below the root is in the namespace of a component, or below it; or it is a copy of a
function of the component itself, in the root.  In the namespace itself it is reached as the default
export. -/
theorem Loader.Meaning.inSpace_or_copied (h : l.Meaning table ss spaces m)
    {s : Site BoundFunction} (hs : s.StandsBelow m.graph rootId) :
    (∃ n way, InSpace m.graph spaces n way s ∧
      (way = [] → s.keys = ["default", s.key] ∧
        ∃ space, spaces[n]? = some space ∧ .exportDefault space.name ∈ ss)) ∨
      s.home = rootId ∧ s.keys = [s.key] ∧ ∃ n space, spaces[n]? = some space ∧
        .exportAll space.name ∈ ss ∧ s.target.origin = (n, [], s.key) := by
  obtain ⟨way, home, place, key, target⟩ := s
  obtain ⟨hleads, hholds⟩ := hs
  cases hleads with
  | here =>
    obtain ⟨n, space, hn, ⟨hall, j, hj⟩ | ⟨-, -, he⟩⟩ := h.root_member hholds
    · have horigin := (h.shows n space hn).origin_of_leads (.here space.id) hj
      exact .inr ⟨rfl, rfl, n, space, hn, hall, horigin⟩
    · cases he
  | @into _ next _ i k way hmember hway =>
    obtain ⟨n, space, hn, ⟨-, j, hj⟩ | ⟨hdefault, rfl, he⟩⟩ := h.root_member hmember
    · have hway := Graph.Leads.into hj hway
      have horigin := (h.shows n space hn).origin_of_leads hway hholds
      exact .inl ⟨n, (j, k) :: way, ⟨space, hn, hway, horigin⟩, nofun⟩
    · cases he
      have horigin := (h.shows n space hn).origin_of_leads hway hholds
      refine .inl ⟨n, way, ⟨space, hn, hway, horigin⟩, ?_⟩
      rintro rfl
      exact ⟨rfl, space, hn, hdefault⟩

theorem Loader.Meaning.inSpace_of_default (h : l.Meaning table ss spaces m) {i : Nat} {key : String}
    {start : NamespaceId} (hmember : m.graph.Holds rootId i key (.nested start))
    {s : Site BoundFunction} (hs : s.StandsBelow m.graph start) :
    ∃ n way, InSpace m.graph spaces n way s := by
  obtain ⟨n, space, hn, ⟨-, j, hj⟩ | ⟨-, -, he⟩⟩ := h.root_member hmember
  · have hway := Graph.Leads.into hj hs.leads
    exact ⟨n, _, space, hn, hway, (h.shows n space hn).origin_of_leads hway hs.holds⟩
  · cases he
    exact ⟨n, _, space, hn, hs.leads, (h.shows n space hn).origin_of_leads hs.leads hs.holds⟩

end Root

end Entry

namespace Module

theorem exportRoot_eq_or (m : Module) :
    m.exportRoot.1 = .nested rootId ∨
      ∃ i, m.graph.Holds rootId i "default" m.exportRoot.1 := by
  rw [exportRoot]
  split
  · exact .inl rfl
  · split
    · rename_i e hget
      refine .inr ?_
      rw [Graph.get?, Graph.lookup] at hget
      split at hget
      · rename_i member hlookup
        obtain ⟨before, after, heq, -⟩ := List.lookup_eq_some_iff.mp hlookup
        have hmem : ("default", member) ∈ m.graph.members rootId := by
          rw [heq]
          exact List.mem_append_right _ List.mem_cons_self
        obtain ⟨i, hi⟩ := List.mem_iff_getElem?.mp hmem
        exact ⟨i, by decide, member, hi, Option.some.inj hget⟩
      · obtain ⟨parent, -, hnone⟩ := Option.bind_eq_some_iff.mp hget
        cases hnone
    · exact .inl rfl

/-- The exports `d` and `d'` are one function of a component itself.  The component is exported with
all that it has, which makes `d`, and as the default, which makes `d'`. -/
def ExportedTwice (ss : List Statement) (d d' : Export BoundFunction) : Prop :=
  d.target.within = [] ∧ d.path = d.target.name ∧ d'.path = "default." ++ d.target.name ∧
    ∃ binding, (boundNames ss)[d.target.owner]? = some binding ∧ .exportAll binding ∈ ss ∧
      .exportDefault binding ∈ ss

section Exports

variable {l : Loader} {table : ResourceTable} {ss : List Statement} {spaces : List Space}
  {m : Module} {s s' : Site BoundFunction}

/-- A copy in the root and the place it was copied from make two exports of one function. -/
theorem exportedTwice_of_copied (h : l.Meaning table ss spaces m) {n n' : Nat}
    {way : List (Nat × String)} (hin : InSpace m.graph spaces n' way s')
    (hdefault : way = [] → s'.keys = ["default", s'.key] ∧
      ∃ space, spaces[n']? = some space ∧ .exportDefault space.name ∈ ss)
    (hkeys : s.keys = [s.key]) {space : Space} (hspace : spaces[n]? = some space)
    (hall : .exportAll space.name ∈ ss) (hfrom : s.target.origin = (n, [], s.key))
    (horigin : s.target.origin = s'.target.origin) :
    ExportedTwice ss (s.toExport []) (s'.toExport []) := by
  obtain ⟨-, -, -, hfrom'⟩ := hin
  rw [hfrom, hfrom', Prod.mk.injEq, Prod.mk.injEq] at horigin
  obtain ⟨rfl, hway, hkey⟩ := horigin
  obtain ⟨hkeys', space', hspace', hexported⟩ := hdefault (List.map_eq_nil_iff.mp hway.symm)
  cases hspace.symm.trans hspace'
  obtain ⟨howner, hrest⟩ := Prod.mk.inj hfrom
  obtain ⟨hwithin, hname⟩ := Prod.mk.inj hrest
  have hname : s.target.name = s.key := hname
  refine ⟨hwithin, ?_, ?_, space.name, ?_, hall, hexported⟩
  · rw [Site.toExport, List.nil_append, hkeys, String.intercalate_singleton, hname]
  · rw [Site.toExport, Site.toExport, List.nil_append, hkeys', ← hkey, hname,
      String.intercalate_cons_cons, String.intercalate_singleton]
    rfl
  · have howner : s.target.owner = n := howner
    rw [Site.toExport, howner, ← Loader.names_of_opens h.opened, List.getElem?_map, hspace]
    rfl

/-- **Each function is listed once, unless its component is exported both ways.**  Load any source,
with an engine that accepts no component with an empty name.  No two exports of the module are the
same function of the same instance, with one exception: a function of the component itself, whose
binding is exported with all that it has and as the default too.  It is listed under its name and
under its name behind `default`. -/
theorem exports_once (hnames : l.engine.Names) {source : String} (hparse : parse source = .ok ss)
    (hload : load l source table = .ok m) (a : Artifact) (handles : List Handle) :
    (Runnable.discover a m handles).exports.Pairwise fun d d' =>
      d.target.origin = d'.target.origin → ExportedTwice ss d d' ∨ ExportedTwice ss d' d := by
  obtain ⟨k, hrun, rfl⟩ := exists_run_of_load hparse hload
  obtain ⟨-, spaces, hspaces⟩ := Loader.evaluated_of_run hrun
  have h := hspaces.meaning source
  have hsteady := steady_of_load hload
  have hkeyed := keyed_of_load hnames hload
  generalize (⟨k.graph, k.instances, source⟩ : Module) = m at *
  show (m.graph.walk m.exportRoot.1 "").Pairwise _
  rcases m.exportRoot_eq_or with hroot | ⟨i, hmember⟩
  · rw [hroot]
    refine Graph.walk_pairwise hsteady hkeyed.keys_ne ?_
    intro s s' hs hs' hne horigin
    rcases h.inSpace_or_copied hs, h.inSpace_or_copied hs' with
      ⟨⟨n, way, hin, hdefault⟩ | ⟨hhome, hkeys, n, space, hspace, hall, hfrom⟩,
        ⟨n', way', hin', hdefault'⟩ | ⟨hhome', hkeys', n', space', hspace', hall', hfrom'⟩⟩
    · exact absurd (hin.place_unique hin' hs hs' horigin) hne
    · exact .inr (exportedTwice_of_copied h hin hdefault hkeys' hspace' hall' hfrom' horigin.symm)
    · exact .inl (exportedTwice_of_copied h hin' hdefault' hkeys hspace hall hfrom horigin)
    · -- two copies in the root have one key
      have horigin : s.target.origin = s'.target.origin := horigin
      rw [hfrom, hfrom'] at horigin
      rw [Prod.mk.injEq, Prod.mk.injEq] at horigin
      obtain ⟨-, -, hkey⟩ := horigin
      exact absurd (hs.place_unique hs' (hhome.trans hhome'.symm) hkey) hne
  · cases hentity : m.exportRoot.1 with
    | nested start =>
      rw [hentity] at hmember
      refine Graph.walk_pairwise hsteady hkeyed.keys_ne ?_
      intro s s' hs hs' hne horigin
      obtain ⟨n, way, hin⟩ := h.inSpace_of_default hmember hs
      obtain ⟨n', way', hin'⟩ := h.inSpace_of_default hmember hs'
      exact absurd (hin.place_unique hin' hs hs' horigin) hne
    | callable f => exact .nil
    | list items => exact .nil
    | data j => exact .nil

/-! ## A component that is exported both ways -/

/-- A function, and one in an instance. -/
def twiceExports : List (String × ExportItem) :=
  [("f", .function ⟨[], some (.int .u32)⟩ (some Body.count)),
    ("api", .nested [("g", .function ⟨[], some (.int .u32)⟩ (some Body.count))])]

def twiceLoader : Loader :=
  ⟨⟨fun _ => .ok ⟨twiceExports, 0, [], .ok ⟨0, 0⟩⟩⟩, none⟩

def twiceTable : ResourceTable :=
  ((ResourceTable.empty 0).createAll [⟨"a.wasm", ⟨#[1]⟩⟩]).2

/-- A source that exports one binding both ways. -/
def twiceSource : String :=
  "import a from '" ++ (Handle.mk 0).locator ++ "';\nexport * from a;\nexport default a;\n"

/-- The function `f` is listed at two paths, and `g` at one. -/
theorem exports_of_twice : ∃ m, load twiceLoader twiceSource twiceTable = .ok m ∧
    ∀ a handles, (Runnable.discover a m handles).exports.map (fun d => (d.path, d.target.origin)) =
      [("f", 0, [], "f"), ("api.g", 0, ["api"], "g"), ("default.f", 0, [], "f")] := by
  have hwalk : ((load twiceLoader twiceSource twiceTable).toOption.map fun m =>
      (m.graph.walk m.exportRoot.1 "").map fun d => (d.path, d.target.origin)) =
        some [("f", 0, [], "f"), ("api.g", 0, ["api"], "g"), ("default.f", 0, [], "f")] := by
    decide +kernel
  cases hload : load twiceLoader twiceSource twiceTable with
  | error e =>
    rw [hload] at hwalk
    cases hwalk
  | ok m =>
    rw [hload] at hwalk
    exact ⟨m, rfl, fun _ _ => Option.some.inj hwalk⟩

/-- Two exports of this module are one function of one instance. -/
theorem exports_not_once : ∃ m, load twiceLoader twiceSource twiceTable = .ok m ∧
    ∀ a handles, ¬ ((Runnable.discover a m handles).exports.map (·.target.origin)).Nodup := by
  obtain ⟨m, hload, hexports⟩ := exports_of_twice
  refine ⟨m, hload, ?_⟩
  intro a handles
  have horigins := congrArg (List.map (·.2)) (hexports a handles)
  rw [List.map_map] at horigins
  rw [show (fun d : Export BoundFunction => d.target.origin) =
    (·.2) ∘ fun d => (d.path, d.target.origin) from rfl, horigins]
  decide

/-- They are the two that a function of a component exported both ways has. -/
theorem exports_once_twice : twiceLoader.engine.Names ∧ ∃ ss m, parse twiceSource = .ok ss ∧
    load twiceLoader twiceSource twiceTable = .ok m ∧ ∀ a handles,
      (Runnable.discover a m handles).exports.Pairwise fun d d' =>
        d.target.origin = d'.target.origin → ExportedTwice ss d d' ∨ ExportedTwice ss d' d := by
  have hnames : twiceLoader.engine.Names := by
    intro bytes c hc
    cases hc
    simp [twiceExports, exportNames, namesBelow]
  obtain ⟨m, hload, -⟩ := exports_of_twice
  have hparse : parse twiceSource = .ok [.bind .static "a" (Handle.mk 0).locator,
    .exportAll "a", .exportDefault "a"] := by decide +kernel
  exact ⟨hnames, _, m, hparse, hload, exports_once hnames hparse hload⟩

end Exports

end Module

end ComponentHost
