/-
# `ComponentHost.Proofs.Runner.Evaluation` — what a source means

Evaluation goes through the statements of a source and changes three things as it goes:
the bindings, the instances, and the root, in which members are set over and over.  What
comes of it can be said without any of that:

    success     the statements are in order
    failure     with what is wrong with the first one that is not
    instances   one for each statement that binds, in order
    keys        those that statements contribute, in the order of their first coming up
    values      for each key, what the last statement contributes that has it

Contributions are read off the graph at the end, and they are the same as they were when
they were made: a statement sets members of the root and adds namespaces behind the
others, but it leaves the namespaces of earlier bindings alone.
-/
import ComponentHost.Component.Behaviour
import ComponentHost.Proofs.Entry.Order
import ComponentHost.Proofs.Entry.Showing
import ComponentHost.Proofs.Namespace.Setting
import ComponentHost.Proofs.Runner.Meaning

namespace ComponentHost

namespace Entry

/-! ## What is bound and what is contributed -/

/-- What a statement that binds makes: a name for a namespace that shows a component, and an
instance of the component. -/
structure Space where
  name : String
  id : NamespaceId
  component : Component
  running : Instance

/-- The bindings that spaces are. -/
def bindingsOf (spaces : List Space) : List (String × NamespaceId) :=
  spaces.map fun s => (s.name, s.id)

/-- The entities that a statement sets in the root, with their keys. -/
def contribution (g : Graph BoundFunction) (spaces : List Space) :
    Statement → List (String × Entity BoundFunction)
  | .bind _ _ _ => []
  | .exportAll binding => (((bindingsOf spaces).lookup binding).map (entities g)).getD []
  | .exportDefault binding =>
    (((bindingsOf spaces).lookup binding).map fun id => [("default", .nested id)]).getD []

namespace Loader

/-- The statement makes the space: its name, and an instance of the component that its locator
stands for. -/
def Opens (l : Loader) (table : ResourceTable) : Statement → Space → Prop
  | .bind _ binding locator, s =>
    s.name = binding ∧
      ∃ r, table.resolve locator = some r ∧ l.instantiate r = .ok (s.component, s.running)
  | _, _ => False

/-- What a linkage is after statements, which have made the spaces.  The root is said to be made in
one go, of all that has been contributed. -/
structure Evaluated (l : Loader) (table : ResourceTable) (ss : List Statement)
    (spaces : List Space) (k : Linkage) : Prop where
  size_pos : 0 < k.graph.size
  opened : List.Forall₂ (l.Opens table) (ss.filter Statement.isBind) spaces
  bindings : k.bindings = bindingsOf spaces
  instances : k.instances = spaces.map Space.running
  distinct : (spaces.map Space.id).Nodup
  shows : ∀ n s, spaces[n]? = some s → ShowsIn k.graph n [] s.component.exports s.id
  declared : ∀ s ∈ ss, ∀ binding, s.exports? = some binding → binding ∈ boundNames ss
  root : k.graph.members rootId =
    (Namespace.ofList none ((ss.flatMap (contribution k.graph spaces)).map
      fun e => (e.1, Member.entity e.2))).members

section Evaluated

variable {l : Loader} {table : ResourceTable} {ss : List Statement} {spaces : List Space}
  {k k' : Linkage} {s : Statement} {binding : String} {e : LoadError}

theorem names_of_opens (h : List.Forall₂ (l.Opens table) (ss.filter Statement.isBind) spaces) :
    spaces.map Space.name = boundNames ss := by
  induction ss generalizing spaces with
  | nil =>
    cases h
    rfl
  | cons statement ss ih =>
    cases statement with
    | bind form binding locator =>
      rw [List.filter_cons_of_pos rfl] at h
      cases h with
      | cons hopens h =>
        rw [List.map_cons, ih h, hopens.1]
        rfl
    | exportAll binding => exact ih h
    | exportDefault binding => exact ih h

theorem Evaluated.bounds (h : l.Evaluated table ss spaces k) {space : Space}
    (hspace : space ∈ spaces) : rootId < space.id ∧ space.id < k.graph.size := by
  obtain ⟨n, hn⟩ := List.mem_iff_getElem?.mp hspace
  cases h.shows n space hn with
  | mk hroot hsize _ _ => exact ⟨hroot, hsize⟩

theorem Evaluated.exists_lookup (h : l.Evaluated table ss spaces k)
    (hold : binding ∈ boundNames ss) :
    ∃ id, (bindingsOf spaces).lookup binding = some id ∧ rootId < id ∧ id < k.graph.size := by
  rw [← names_of_opens h.opened] at hold
  obtain ⟨space, hspace, rfl⟩ := List.mem_map.mp hold
  have hsome : ((bindingsOf spaces).lookup space.name).isSome = true :=
    List.lookup_isSome_iff.mpr ⟨_, List.mem_map_of_mem hspace, beq_self_eq_true _⟩
  obtain ⟨id, hid⟩ := Option.isSome_iff_exists.mp hsome
  refine ⟨id, hid, ?_⟩
  obtain ⟨before, after, heq, -⟩ := List.lookup_eq_some_iff.mp hid
  have hmem : (space.name, id) ∈ bindingsOf spaces := by
    rw [heq]
    exact List.mem_append_right _ List.mem_cons_self
  obtain ⟨space', hspace', hpair⟩ := List.mem_map.mp hmem
  obtain ⟨-, rfl⟩ := Prod.mk.inj hpair
  exact h.bounds hspace'

theorem Evaluated.lookup_eq_none (h : l.Evaluated table ss spaces k)
    (hnew : binding ∉ boundNames ss) : (bindingsOf spaces).lookup binding = none := by
  rw [List.lookup_eq_none_iff]
  intro p hp
  obtain ⟨space, hspace, rfl⟩ := List.mem_map.mp hp
  rw [bne_iff_ne]
  rintro rfl
  rw [← names_of_opens h.opened] at hnew
  exact hnew (List.mem_map_of_mem hspace)

/-! ## One statement -/

theorem Evaluated.step_bind (h : l.Evaluated table ss spaces k) (form : ImportForm)
    (binding locator : String) :
    l.step (fun _ locator => table.resolve locator) k (.bind form binding locator) =
      if binding ∈ boundNames ss then .error (.duplicate binding)
      else match table.resolve locator with
        | none => .error (.unresolved locator)
        | some r => (l.instantiate r).map fun (c, i) => k.bind binding c i := by
  rw [Loader.step, h.bindings]
  by_cases hold : binding ∈ boundNames ss
  · obtain ⟨id, hid, -⟩ := h.exists_lookup hold
    rw [if_pos hold, hid]
    rfl
  · rw [if_neg hold, h.lookup_eq_none hold]
    rfl

theorem Evaluated.step_exports (h : l.Evaluated table ss spaces k)
    (hexports : s.exports? = some binding) :
    l.step (fun _ locator => table.resolve locator) k s =
      if binding ∈ boundNames ss then .ok (k.contribute (contribution k.graph spaces s))
      else .error (.undefined binding) := by
  by_cases hold : binding ∈ boundNames ss
  · obtain ⟨id, hid, -⟩ := h.exists_lookup hold
    rw [if_pos hold]
    cases s with
    | bind form binding locator => cases hexports
    | exportAll binding =>
      cases hexports
      rw [Loader.step, h.bindings, contribution, hid]
      rfl
    | exportDefault binding =>
      cases hexports
      rw [Loader.step, h.bindings, contribution, hid]
      rfl
  · have hnone := h.lookup_eq_none hold
    rw [if_neg hold]
    cases s with
    | bind form binding locator => cases hexports
    | exportAll binding =>
      cases hexports
      rw [Loader.step, h.bindings, hnone]
    | exportDefault binding =>
      cases hexports
      rw [Loader.step, h.bindings, hnone]

theorem Evaluated.step_of_fault (h : l.Evaluated table ss spaces k)
    (hfault : l.Fault table ss s e) :
    l.step (fun _ locator => table.resolve locator) k s = .error e := by
  cases hfault with
  | duplicate hold => rw [h.step_bind, if_pos hold]
  | unresolved hnew hdead =>
    rw [h.step_bind, if_neg hnew, ResourceTable.resolve_eq_none_iff.mpr hdead]
  | instantiation hnew hr hi =>
    rw [h.step_bind, if_neg hnew, hr]
    simp only [hi]
    rfl
  | undefined hexports hnew => rw [h.step_exports hexports, if_neg hnew]

theorem Evaluated.fault_of_step (h : l.Evaluated table ss spaces k)
    (hstep : l.step (fun _ locator => table.resolve locator) k s = .error e) :
    l.Fault table ss s e := by
  rcases s.bind_or_exports with ⟨form, binding, locator, rfl⟩ | ⟨binding, hexports⟩
  · rw [h.step_bind] at hstep
    split at hstep
    · rename_i hold
      cases hstep
      exact .duplicate hold
    · rename_i hnew
      split at hstep
      · rename_i hr
        cases hstep
        exact .unresolved hnew (ResourceTable.resolve_eq_none_iff.mp hr)
      · rename_i r hr
        cases hi : l.instantiate r with
        | ok x =>
          rw [hi] at hstep
          cases hstep
        | error e' =>
          rw [hi] at hstep
          cases hstep
          obtain ⟨error, rfl⟩ := exists_of_instantiate_eq_error hi
          exact .instantiation hnew hr hi
  · rw [h.step_exports hexports] at hstep
    split at hstep
    · cases hstep
    · rename_i hnew
      cases hstep
      exact .undefined hexports hnew

/-- What a statement contributes stays the same, as long as its binding was there when it did. -/
theorem Evaluated.contribution_keep (h : l.Evaluated table ss spaces k)
    {g : Graph BoundFunction} (hg : Keeps k.graph g) (more : List Space)
    (hs : ∀ binding, s.exports? = some binding → binding ∈ boundNames ss) :
    contribution g (spaces ++ more) s = contribution k.graph spaces s := by
  have hmore : ∀ {binding id}, (bindingsOf spaces).lookup binding = some id →
      (bindingsOf (spaces ++ more)).lookup binding = some id := by
    intro binding id hid
    rw [bindingsOf, List.map_append, List.lookup_append]
    exact Option.or_eq_some_iff.mpr (.inl hid)
  cases s with
  | bind form binding locator => rfl
  | exportAll binding =>
    obtain ⟨id, hid, hroot, hsize⟩ := h.exists_lookup (hs binding rfl)
    rw [contribution, contribution, hid, hmore hid, Option.map_some, Option.map_some,
      hg.entities hroot hsize]
  | exportDefault binding =>
    obtain ⟨id, hid, -⟩ := h.exists_lookup (hs binding rfl)
    rw [contribution, contribution, hid, hmore hid]

theorem Evaluated.contributions_keep (h : l.Evaluated table ss spaces k)
    {g : Graph BoundFunction} (hg : Keeps k.graph g) (more : List Space) :
    ss.flatMap (contribution g (spaces ++ more)) = ss.flatMap (contribution k.graph spaces) := by
  refine List.flatMap_congr ?_
  intro s hs
  exact h.contribution_keep hg more (h.declared s hs)

theorem Evaluated.bind (h : l.Evaluated table ss spaces k) {form : ImportForm} {locator : String}
    {r : Resource} {c : Component} {i : Instance} (hr : table.resolve locator = some r)
    (hi : l.instantiate r = .ok (c, i)) :
    l.Evaluated table (ss ++ [.bind form binding locator])
      (spaces ++ [⟨binding, (mount k.instances.length c.exports k.graph).1, c, i⟩])
      (k.bind binding c i) := by
  have hextends := extends_mount k.instances.length c.exports k.graph
  have hkeeps := Keeps.of_extends hextends
  have hlength : k.instances.length = spaces.length := by
    rw [h.instances, List.length_map]
  constructor
  case size_pos => exact Nat.lt_of_lt_of_le h.size_pos hextends.size_le
  case opened =>
    rw [List.filter_append]
    exact List.rel_append h.opened (.cons ⟨rfl, r, hr, hi⟩ .nil)
  case bindings =>
    rw [Linkage.bind, h.bindings, bindingsOf, bindingsOf, List.map_append]
    rfl
  case instances =>
    rw [Linkage.bind, h.instances, List.map_append]
    rfl
  case distinct =>
    rw [List.map_append]
    refine List.nodup_append.mpr ⟨h.distinct, List.nodup_singleton _, ?_⟩
    intro id hid id' hid'
    obtain ⟨space, hspace, rfl⟩ := List.mem_map.mp hid
    obtain rfl := List.mem_singleton.mp hid'
    have hnew := size_le_mount k.instances.length c.exports k.graph
    exact Nat.ne_of_lt (Nat.lt_of_lt_of_le (h.bounds hspace).2 hnew)
  case shows =>
    intro n s hn
    rcases Nat.lt_or_ge n spaces.length with hlt | hge
    · rw [List.getElem?_append_left hlt] at hn
      exact (h.shows n s hn).keep hkeeps
    · rw [List.getElem?_append_right hge] at hn
      obtain ⟨hzero, rfl⟩ : n - spaces.length = 0 ∧ _ = s := by
        simpa [List.getElem?_singleton] using hn
      obtain rfl : n = k.instances.length := by omega
      exact showsIn_mount k.instances.length c.exports h.size_pos
  case declared =>
    refine declared_concat h.declared ?_
    intro _ hexports
    cases hexports
  case root =>
    have hbefore := h.contributions_keep (g := (k.bind binding c i).graph) hkeeps
      [⟨binding, (mount k.instances.length c.exports k.graph).1, c, i⟩]
    rw [List.flatMap_append, hbefore, List.flatMap_singleton, contribution, List.append_nil,
      ← h.root]
    exact hextends.members h.size_pos

theorem Evaluated.export (h : l.Evaluated table ss spaces k)
    (hexports : s.exports? = some binding) (hold : binding ∈ boundNames ss) :
    l.Evaluated table (ss ++ [s]) spaces (k.contribute (contribution k.graph spaces s)) := by
  have hbind : s.isBind = false := by
    cases s with
    | bind form binding locator => cases hexports
    | exportAll binding => rfl
    | exportDefault binding => rfl
  have hdeclared : ∀ binding', s.exports? = some binding' → binding' ∈ boundNames ss := by
    intro binding' hexports'
    cases hexports.symm.trans hexports'
    exact hold
  have hgraph : (k.contribute (contribution k.graph spaces s)).graph = k.graph.insertAll rootId
      ((contribution k.graph spaces s).map fun e => (e.1, .entity e.2)) := by
    rw [Linkage.contribute, Graph.foldl_insert]
  have hkeeps : Keeps k.graph (k.contribute (contribution k.graph spaces s)).graph := by
    rw [hgraph]
    exact keeps_insertAll k.graph _
  constructor
  case size_pos => exact Nat.lt_of_lt_of_le h.size_pos hkeeps.size_le
  case opened =>
    rw [List.filter_append, List.filter_cons_of_neg (by simp [hbind]), List.filter_nil,
      List.append_nil]
    exact h.opened
  case bindings => exact h.bindings
  case instances => exact h.instances
  case distinct => exact h.distinct
  case shows =>
    intro n s hn
    exact (h.shows n s hn).keep hkeeps
  case declared => exact declared_concat h.declared hdeclared
  case root =>
    have hbefore := h.contributions_keep hkeeps []
    have hlast := h.contribution_keep hkeeps [] hdeclared
    rw [List.append_nil] at hbefore hlast
    rw [List.flatMap_append, List.flatMap_singleton, hbefore, hlast, hgraph, List.map_append]
    exact Graph.members_insertAll_ofList h.size_pos h.root _

/-- A statement that is evaluated makes a space, or sets what it contributes. -/
theorem Evaluated.step (h : l.Evaluated table ss spaces k)
    (hstep : l.step (fun _ locator => table.resolve locator) k s = .ok k') :
    ∃ spaces', l.Evaluated table (ss ++ [s]) spaces' k' := by
  rcases s.bind_or_exports with ⟨form, binding, locator, rfl⟩ | ⟨binding, hexports⟩
  · rw [h.step_bind] at hstep
    split at hstep
    · cases hstep
    · split at hstep
      · cases hstep
      · rename_i r hr
        cases hi : l.instantiate r with
        | error e =>
          rw [hi] at hstep
          cases hstep
        | ok x =>
          rw [hi] at hstep
          cases hstep
          exact ⟨_, h.bind hr hi⟩
  · rw [h.step_exports hexports] at hstep
    split at hstep
    · rename_i hold
      cases hstep
      exact ⟨spaces, h.export hexports hold⟩
    · cases hstep

/-! ## All statements -/

theorem evaluated_initial (l : Loader) (table : ResourceTable) :
    l.Evaluated table [] [] .initial where
  size_pos := Nat.zero_lt_one
  opened := .nil
  bindings := rfl
  instances := rfl
  distinct := .nil
  shows := by
    intro n s hn
    cases hn
  declared := by
    intro s hs
    cases hs
  root := rfl

/-- Statements are evaluated if all but the last are, and then the last. -/
theorem run_concat (k : Linkage) (ss : List Statement) (s : Statement) :
    l.run (fun _ locator => table.resolve locator) k (ss ++ [s]) =
      (l.run (fun _ locator => table.resolve locator) k ss).bind fun k =>
        l.step (fun _ locator => table.resolve locator) k s := by
  rw [l.run_append]
  congr 1
  funext k
  rw [run]
  cases l.step (fun _ locator => table.resolve locator) k s <;> rfl

theorem evaluated_of_run
    (hrun : l.run (fun _ locator => table.resolve locator) .initial ss = .ok k) :
    l.Accepts table ss ∧ ∃ spaces, l.Evaluated table ss spaces k := by
  induction ss using List.reverseRecOn generalizing k with
  | nil =>
    cases hrun
    exact ⟨.nil l table, [], evaluated_initial l table⟩
  | append_singleton ss s ih =>
    rw [run_concat] at hrun
    cases hk : l.run (fun _ locator => table.resolve locator) .initial ss with
    | error e =>
      rw [hk] at hrun
      cases hrun
    | ok k₁ =>
      rw [hk] at hrun
      obtain ⟨haccepts, spaces, hspaces⟩ := ih hk
      refine ⟨haccepts.concat ?_, hspaces.step hrun⟩
      intro e hfault
      cases hrun.symm.trans (hspaces.step_of_fault hfault)

theorem exists_run_of_accepts (haccepts : l.Accepts table ss) :
    ∃ k, l.run (fun _ locator => table.resolve locator) .initial ss = .ok k := by
  induction ss using List.reverseRecOn with
  | nil => exact ⟨_, rfl⟩
  | append_singleton ss s ih =>
    obtain ⟨k, hk⟩ := ih haccepts.left
    obtain ⟨-, spaces, hspaces⟩ := evaluated_of_run hk
    rw [run_concat, hk]
    cases hstep : l.step (fun _ locator => table.resolve locator) k s with
    | ok k' => exact ⟨k', hstep⟩
    | error e => exact absurd (hspaces.fault_of_step hstep) (haccepts.not_fault e)

theorem run_eq_error_iff :
    l.run (fun _ locator => table.resolve locator) .initial ss = .error e ↔
      ∃ before s after, ss = before ++ s :: after ∧ l.Accepts table before ∧
        l.Fault table before s e := by
  constructor
  · intro hrun
    induction ss using List.reverseRecOn with
    | nil => cases hrun
    | append_singleton ss s ih =>
      rw [run_concat] at hrun
      cases hk : l.run (fun _ locator => table.resolve locator) .initial ss with
      | error e' =>
        rw [hk] at hrun
        cases hrun
        obtain ⟨before, s', after, rfl, haccepts, hfault⟩ := ih hk
        exact ⟨before, s', after ++ [s], List.append_assoc _ _ _, haccepts, hfault⟩
      | ok k =>
        rw [hk] at hrun
        obtain ⟨haccepts, spaces, hspaces⟩ := evaluated_of_run hk
        exact ⟨ss, s, [], rfl, haccepts, hspaces.fault_of_step hrun⟩
  · rintro ⟨before, s, after, rfl, haccepts, hfault⟩
    obtain ⟨k, hk⟩ := exists_run_of_accepts haccepts
    obtain ⟨-, spaces, hspaces⟩ := evaluated_of_run hk
    rw [l.run_append, hk]
    show l.run _ k (s :: after) = _
    rw [run, hspaces.step_of_fault hfault]

end Evaluated

end Loader

/-! ## The meaning of a source -/

/-- What stands in the root after all is what the last statement that has its key contributes. -/
theorem exists_last_of_mem_members {f : Statement → List (String × Entity BoundFunction)}
    {key : String} {m : Member BoundFunction} :
    ∀ {ss : List Statement},
      (key, m) ∈ (Namespace.ofList none ((ss.flatMap f).map
        fun e => (e.1, Member.entity e.2))).members →
      ∃ before s after e, ss = before ++ s :: after ∧ m = .entity e ∧ (key, e) ∈ f s ∧
        ∀ s' ∈ after, key ∉ (f s').map (·.1) := by
  intro ss
  induction ss using List.reverseRecOn with
  | nil =>
    intro h
    cases h
  | append_singleton ss s ih =>
    intro h
    rw [List.flatMap_append, List.flatMap_singleton, List.map_append] at h
    rcases Namespace.mem_members_setAll_of_last
      ((congrArg (_ ∈ ·.members) (Namespace.setAll_append _ _ _)).mp h) with h | ⟨h, hlater⟩
    · obtain ⟨e, he, heq⟩ := List.mem_map.mp h
      obtain ⟨rfl, rfl⟩ := Prod.mk.inj heq
      refine ⟨ss, s, [], e.2, rfl, rfl, he, ?_⟩
      intro s' hs'
      cases hs'
    · obtain ⟨before, s', after, e, rfl, rfl, he, hafter⟩ := ih h
      refine ⟨before, s', after ++ [s], e, List.append_assoc _ _ _, rfl, he, ?_⟩
      intro s'' hs''
      rcases List.mem_append.mp hs'' with hs'' | hs''
      · exact hafter s'' hs''
      · obtain rfl := List.mem_singleton.mp hs''
        rw [List.map_map] at hlater
        exact hlater

/-- What a module is that statements make by way of the spaces. -/
structure Loader.Meaning (l : Loader) (table : ResourceTable) (ss : List Statement)
    (spaces : List Space) (m : Module) : Prop where
  opened : List.Forall₂ (l.Opens table) (ss.filter Statement.isBind) spaces
  instances : m.instances = spaces.map Space.running
  distinct : (rootId :: spaces.map Space.id).Nodup
  shows : ∀ n s, spaces[n]? = some s → ShowsIn m.graph n [] s.component.exports s.id
  keys : m.graph.keys rootId = ((ss.flatMap (contribution m.graph spaces)).map (·.1)).eraseDups
  values : ∀ key member, (key, member) ∈ m.graph.members rootId →
    ∃ before s after e, ss = before ++ s :: after ∧ member = .entity e ∧
      (key, e) ∈ contribution m.graph spaces s ∧
      ∀ s' ∈ after, key ∉ (contribution m.graph spaces s').map (·.1)

theorem Loader.Evaluated.meaning {l : Loader} {table : ResourceTable} {ss : List Statement}
    {spaces : List Space} {k : Linkage} (h : l.Evaluated table ss spaces k) (source : String) :
    l.Meaning table ss spaces ⟨k.graph, k.instances, source⟩ := by
  constructor
  case opened => exact h.opened
  case instances => exact h.instances
  case distinct =>
    refine List.nodup_cons.mpr ⟨?_, h.distinct⟩
    intro hroot
    obtain ⟨space, hspace, hid⟩ := List.mem_map.mp hroot
    exact absurd hid (Nat.ne_of_gt (h.bounds hspace).1)
  case shows => exact h.shows
  case keys =>
    rw [Graph.keys, h.root, Namespace.keys_ofList, List.map_map]
    rfl
  case values =>
    intro key member hmem
    rw [h.root] at hmem
    exact exists_last_of_mem_members hmem

end Entry

namespace Module

open Entry

/-- **Loading a source is what its statements mean.**  A source that can be read makes a module if
and only if its statements are in order; else loading it fails with what is wrong with the first
that is not.  The module has an instance for each statement that binds.  Its root has the keys that
statements contribute, in the order of their first coming up, and for each key it has what the last
statement contributes that has the key; namespaces stand in it as themselves. -/
theorem load_meaning (l : Loader) (table : ResourceTable) {source : String} {ss : List Statement}
    (hparse : parse source = .ok ss) :
    ((∃ m, load l source table = .ok m) ↔ l.Accepts table ss) ∧
      (∀ e, load l source table = .error e ↔ ∃ before s after, ss = before ++ s :: after ∧
        l.Accepts table before ∧ l.Fault table before s e) ∧
      ∀ m, load l source table = .ok m →
        m.instances.length = (ss.filter Statement.isBind).length ∧
          ∃ spaces, l.Meaning table ss spaces m := by
  refine ⟨⟨?_, ?_⟩, ?_, ?_⟩
  · rintro ⟨m, hm⟩
    obtain ⟨k, hk, -⟩ := exists_run_of_load hparse hm
    exact (Loader.evaluated_of_run hk).1
  · intro haccepts
    obtain ⟨k, hk⟩ := Loader.exists_run_of_accepts haccepts
    rw [load_of_parse l table hparse, hk]
    exact ⟨_, rfl⟩
  · intro e
    rw [← Loader.run_eq_error_iff, load_of_parse l table hparse]
    cases l.run (fun _ locator => table.resolve locator) .initial ss <;> simp [Except.map]
  · intro m hm
    obtain ⟨k, hk, rfl⟩ := exists_run_of_load hparse hm
    obtain ⟨-, spaces, hspaces⟩ := Loader.evaluated_of_run hk
    have hmeaning := hspaces.meaning source
    refine ⟨?_, spaces, hmeaning⟩
    rw [hmeaning.opened.length_eq, hmeaning.instances, List.length_map]

/-- Exports that overlap, `default` among them. -/
def overlapComponents : Component × Component :=
  (⟨[("run", .function ⟨[], none⟩ (some Body.nop)),
      ("default", .function ⟨[], some (.int .u32)⟩ (some Body.count))], 0, [], .ok ⟨0, 0⟩⟩,
    ⟨[("tools", .nested [("run", .function ⟨[], none⟩ (some Body.nop))]),
      ("run", .function ⟨[], none⟩ (some Body.trap))], 0, [], .ok ⟨0, 0⟩⟩)

/-- A loader that tells the two components apart by the size of their bytes. -/
def overlapLoader : Loader :=
  ⟨⟨fun bytes => .ok (if bytes.size = 1 then overlapComponents.1 else overlapComponents.2)⟩, none⟩

def overlapTable : ResourceTable :=
  ((ResourceTable.empty 0).createAll [⟨"a.wasm", ⟨#[1]⟩⟩, ⟨"b.wasm", ⟨#[1, 2]⟩⟩]).2

/-- A source that sets `default` twice, and then sets `run` once more. -/
def overlapSource : String :=
  "import a from '" ++ (Handle.mk 0).locator ++ "';\nimport b from '" ++ (Handle.mk 1).locator ++
    "';\nexport * from a;\nexport default b;\nexport * from b;\n"

def overlapStatements : List Statement :=
  [.bind .static "a" (Handle.mk 0).locator, .bind .static "b" (Handle.mk 1).locator,
    .exportAll "a", .exportDefault "b", .exportAll "b"]

/-- Keys stay where they first came up. -/
theorem load_meaning_overlap :
    overlapLoader.Accepts overlapTable overlapStatements ∧
      ∃ m spaces, load overlapLoader overlapSource overlapTable = .ok m ∧
        overlapLoader.Meaning overlapTable overlapStatements spaces m ∧
        m.graph.keys rootId = ["run", "default", "tools"] := by
  have hparse : parse overlapSource = .ok overlapStatements := by decide +kernel
  have ha : overlapTable.resolve (Handle.mk 0).locator = some ⟨"a.wasm", ⟨#[1]⟩⟩ :=
    ResourceTable.resolve_locator (by decide) List.mem_cons_self
  have hb : overlapTable.resolve (Handle.mk 1).locator = some ⟨"b.wasm", ⟨#[1, 2]⟩⟩ :=
    ResourceTable.resolve_locator (by decide) (List.mem_cons_of_mem _ List.mem_cons_self)
  obtain ⟨m, hload, hkeys⟩ : ∃ m, load overlapLoader overlapSource overlapTable = .ok m ∧
      m.graph.keys rootId = ["run", "default", "tools"] := by
    rw [load, hparse]
    simp only [overlapStatements, Loader.run, Loader.step, ha, hb]
    exact ⟨_, rfl, rfl⟩
  obtain ⟨haccepts, -, hmeaning⟩ := load_meaning overlapLoader overlapTable hparse
  obtain ⟨-, spaces, hspaces⟩ := hmeaning m hload
  exact ⟨haccepts.mp ⟨m, hload⟩, m, spaces, hload, hspaces, hkeys⟩

end Module

end ComponentHost
