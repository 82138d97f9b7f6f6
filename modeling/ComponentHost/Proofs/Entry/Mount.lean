/-
# `ComponentHost.Proofs.Entry.Mount` — the functions of a component, mounted and found

A component is a tree of exports, and its functions, read depth first, are a list:
`functions`.  Mounting turns the tree into namespaces of a graph, one for each exported
instance, added behind those that are there.  Two facts about that:

    what is mounted    nothing but plain entities, whose callables are among `functions`
    what is walked     `functions`, each once and in that order, but for those at or
                       below a key that is never followed

The second needs the names to be distinct on each level, as they are in every component:
of two exports with one name a namespace keeps one.
-/
import ComponentHost.Entry.Module
import ComponentHost.Proofs.Namespace.Graph

namespace ComponentHost

/-- No key on the way to the function, its own name included, is one that is never followed. -/
def BoundFunction.isListed (f : BoundFunction) : Bool :=
  (f.within ++ [f.name]).all fun key => !skippedKeys.contains key

namespace Entry

/-! ## The functions among exports -/

mutual

/-- The functions among exports that lie in the instances `within`, depth first. -/
def functions (owner : Nat) (within : List String) :
    List (String × ExportItem) → List BoundFunction
  | [] => []
  | (name, item) :: rest => functionsOf owner within name item ++ functions owner within rest

/-- The functions that one export is or holds. -/
def functionsOf (owner : Nat) (within : List String) (name : String) :
    ExportItem → List BoundFunction
  | .function signature body => [⟨owner, within, name, signature, body⟩]
  | .nested exports => functions owner (within ++ [name]) exports
  | .type | .resource | .coreModule | .component => []

end

mutual

/-- On each level, the names of the exports are distinct. -/
def DistinctNames : List (String × ExportItem) → Prop
  | [] => True
  | (name, item) :: rest => name ∉ rest.map (·.1) ∧ DistinctBelow item ∧ DistinctNames rest

def DistinctBelow : ExportItem → Prop
  | .nested exports => DistinctNames exports
  | _ => True

end

theorem DistinctNames.nodup :
    ∀ {items : List (String × ExportItem)}, DistinctNames items → (items.map (·.1)).Nodup
  | [], _ => .nil
  | (name, item) :: rest, h => by
      rw [DistinctNames] at h
      exact List.nodup_cons.mpr ⟨h.1, DistinctNames.nodup h.2.2⟩

mutual

theorem owner_of_mem_functions {owner : Nat} {f : BoundFunction} :
    ∀ {within : List String} {items : List (String × ExportItem)},
      f ∈ functions owner within items → f.owner = owner
  | _, [], h => by
      rw [functions] at h
      cases h
  | _, (name, item) :: rest, h => by
      rw [functions, List.mem_append] at h
      exact h.elim owner_of_mem_functionsOf owner_of_mem_functions

theorem owner_of_mem_functionsOf {owner : Nat} {f : BoundFunction} :
    ∀ {within : List String} {name : String} {item : ExportItem},
      f ∈ functionsOf owner within name item → f.owner = owner
  | _, _, .function signature body, h => by
      rw [functionsOf, List.mem_singleton] at h
      rw [h]
  | _, _, .nested exports, h => by
      rw [functionsOf] at h
      exact owner_of_mem_functions h
  | _, _, .type, h | _, _, .resource, h | _, _, .coreModule, h | _, _, .component, h => by
      rw [functionsOf] at h
      cases h

end

mutual

theorem within_of_mem_functions {owner : Nat} {f : BoundFunction} :
    ∀ {within : List String} {items : List (String × ExportItem)},
      f ∈ functions owner within items → within <+: f.within
  | _, [], h => by
      rw [functions] at h
      cases h
  | _, (name, item) :: rest, h => by
      rw [functions, List.mem_append] at h
      rcases h with h | h
      · exact (within_of_mem_functionsOf h).1
      · exact within_of_mem_functions h

/-- The name of an export is on the way to all functions that it is or holds. -/
theorem within_of_mem_functionsOf {owner : Nat} {f : BoundFunction} :
    ∀ {within : List String} {name : String} {item : ExportItem},
      f ∈ functionsOf owner within name item → within <+: f.within ∧ name ∈ f.within ++ [f.name]
  | within, name, .function signature body, h => by
      rw [functionsOf, List.mem_singleton] at h
      rw [h]
      exact ⟨List.prefix_refl _, List.mem_append_right _ List.mem_cons_self⟩
  | within, name, .nested exports, h => by
      rw [functionsOf] at h
      have hwithin : within ++ [name] <+: f.within := within_of_mem_functions h
      refine ⟨(List.prefix_append _ _).trans hwithin, List.mem_append_left _ ?_⟩
      exact hwithin.subset (List.mem_append_right _ List.mem_cons_self)
  | _, _, .type, h | _, _, .resource, h | _, _, .coreModule, h | _, _, .component, h => by
      rw [functionsOf] at h
      cases h

end

/-- Nothing at or below a key that is never followed is listed. -/
theorem filter_isListed_of_skipped {name : String} (h : skippedKeys.contains name = true)
    (owner : Nat) (within : List String) (item : ExportItem) :
    (functionsOf owner within name item).filter BoundFunction.isListed = [] := by
  refine List.filter_eq_nil_iff.mpr fun f hf => ?_
  rw [BoundFunction.isListed, List.all_eq_true]
  intro hall
  have hname := hall name (within_of_mem_functionsOf hf).2
  rw [h] at hname
  cases hname

/-! ## Mounting -/

theorem mountItems_cons (owner : Nat) (within : List String) (name : String) (item : ExportItem)
    (rest : List (String × ExportItem)) (g : Graph BoundFunction) :
    mountItems owner within ((name, item) :: rest) g =
      ((name, .entity (mountItem owner within name item g).1) ::
          (mountItems owner within rest (mountItem owner within name item g).2).1,
        (mountItems owner within rest (mountItem owner within name item g).2).2) := by
  rw [mountItems]

theorem mountItem_nested (owner : Nat) (within : List String) (name : String)
    (exports : List (String × ExportItem)) (g : Graph BoundFunction) :
    mountItem owner within name (.nested exports) g =
      (.nested (mountItems owner (within ++ [name]) exports g).2.size,
        ((mountItems owner (within ++ [name]) exports g).2.add
          (.ofList none (mountItems owner (within ++ [name]) exports g).1)).2) := by
  rw [mountItem]
  rfl

theorem keys_mountItems (owner : Nat) (within : List String) :
    ∀ (items : List (String × ExportItem)) (g : Graph BoundFunction),
      (mountItems owner within items g).1.map (·.1) = items.map (·.1)
  | [], g => by
      rw [mountItems]
      rfl
  | (name, item) :: rest, g => by
      rw [mountItems_cons, List.map_cons, List.map_cons, keys_mountItems owner within rest]

mutual

theorem extends_mountItems (owner : Nat) :
    ∀ (within : List String) (items : List (String × ExportItem)) (g : Graph BoundFunction),
      g.Extends (mountItems owner within items g).2
  | _, [], g => by
      rw [mountItems]
      exact .refl g
  | within, (name, item) :: rest, g => by
      rw [mountItems_cons]
      exact (extends_mountItem owner within name item g).trans
        (extends_mountItems owner within rest _)

theorem extends_mountItem (owner : Nat) :
    ∀ (within : List String) (name : String) (item : ExportItem) (g : Graph BoundFunction),
      g.Extends (mountItem owner within name item g).2
  | _, _, .function _ _, g | _, _, .type, g | _, _, .resource, g | _, _, .coreModule, g
  | _, _, .component, g => by
      rw [mountItem]
      exact .refl g
  | within, name, .nested exports, g => by
      rw [mountItem_nested]
      exact (extends_mountItems owner (within ++ [name]) exports g).trans (Graph.extends_add _ _)

end

mutual

/-- Mounting puts no callables into a graph but the functions of the component. -/
theorem only_mountItems {P : BoundFunction → Prop} (owner : Nat) :
    ∀ (within : List String) (items : List (String × ExportItem)) (g : Graph BoundFunction),
      (∀ f ∈ functions owner within items, P f) → g.Only P →
        (mountItems owner within items g).2.Only P ∧
          ∀ m ∈ (mountItems owner within items g).1, m.2.Only P
  | _, [], g, _, hg => by
      rw [mountItems]
      exact ⟨hg, fun m hm => absurd hm List.not_mem_nil⟩
  | within, (name, item) :: rest, g, hP, hg => by
      rw [functions, List.forall_mem_append] at hP
      obtain ⟨hgraph, hentity⟩ := only_mountItem owner within name item g hP.1 hg
      obtain ⟨hgraph, hmembers⟩ := only_mountItems owner within rest _ hP.2 hgraph
      rw [mountItems_cons]
      exact ⟨hgraph, List.forall_mem_cons.mpr ⟨⟨_, rfl, hentity⟩, hmembers⟩⟩

theorem only_mountItem {P : BoundFunction → Prop} (owner : Nat) :
    ∀ (within : List String) (name : String) (item : ExportItem) (g : Graph BoundFunction),
      (∀ f ∈ functionsOf owner within name item, P f) → g.Only P →
        (mountItem owner within name item g).2.Only P ∧
          (mountItem owner within name item g).1.Only P
  | _, _, .function signature body, g, hP, hg => by
      rw [functionsOf] at hP
      rw [mountItem]
      exact ⟨hg, hP _ List.mem_cons_self⟩
  | within, name, .nested exports, g, hP, hg => by
      rw [functionsOf] at hP
      obtain ⟨hgraph, hmembers⟩ := only_mountItems owner (within ++ [name]) exports g hP hg
      rw [mountItem_nested]
      exact ⟨hgraph.add fun m hm => hmembers m (Namespace.mem_members_ofList hm), trivial⟩
  | _, _, .type, g, _, hg | _, _, .resource, g, _, hg | _, _, .coreModule, g, _, hg
  | _, _, .component, g, _, hg => by
      rw [mountItem]
      exact ⟨hg, trivial⟩

end

/-! ## Setting out and contributing -/

theorem only_initial (P : BoundFunction → Prop) : Linkage.initial.graph.Only P := by
  intro id m hm
  have hnone : Linkage.initial.graph.members id = [] := by
    cases id with
    | zero => rfl
    | succ id => exact Graph.members_of_size_le (Nat.le_add_left 1 id)
  rw [hnone] at hm
  cases hm

theorem map_entities {g : Graph BoundFunction} {P : BoundFunction → Prop} (hg : g.Only P)
    (id : NamespaceId) :
    (entities g id).map (fun e => (e.1, Member.entity e.2)) = g.members id := by
  have hms := hg id
  rw [entities]
  generalize g.members id = ms at hms
  induction ms with
  | nil => rfl
  | cons m ms ih =>
    obtain ⟨⟨e, he, -⟩, hrest⟩ := List.forall_mem_cons.mp hms
    obtain ⟨key, m⟩ := m
    obtain rfl : m = .entity e := he
    rw [List.filterMap_cons, List.map_cons, ih hrest]

theorem only_entities {g : Graph BoundFunction} {P : BoundFunction → Prop} (hg : g.Only P)
    (id : NamespaceId) : ∀ e ∈ entities g id, e.2.Only P := by
  intro e he
  obtain ⟨m, hm, hsome⟩ := List.mem_filterMap.mp he
  obtain ⟨e', he', honly⟩ := hg id m hm
  simp only [he'] at hsome
  cases hsome
  exact honly

theorem Linkage.only_contribute {s : Linkage} {P : BoundFunction → Prop} (hs : s.graph.Only P)
    {es : List (String × Entity BoundFunction)} (hes : ∀ e ∈ es, e.2.Only P) :
    (s.contribute es).graph.Only P := by
  rw [Linkage.contribute, Graph.foldl_insert]
  refine hs.insertAll rootId fun m hm => ?_
  obtain ⟨e, he, rfl⟩ := List.mem_map.mp hm
  exact ⟨e.2, rfl, hes e he⟩

/-! ## Walking what was mounted -/

/-- The trail `t'` goes on from `t`: it finds `fs`, in that order, and enters nothing but
namespaces from `lo` on and before `hi`. -/
structure Finds (fs : List BoundFunction) (lo hi : Nat) (t t' : Graph.Trail BoundFunction) :
    Prop where
  found : t'.found.map (·.target) = t.found.map (·.target) ++ fs
  entered : ∀ id : Nat, id ∈ t'.entered → id ∈ t.entered ∨ lo ≤ id ∧ id < hi

theorem Finds.nothing (lo hi : Nat) (t : Graph.Trail BoundFunction) : Finds [] lo hi t t :=
  ⟨(List.append_nil _).symm, fun _ hid => .inl hid⟩

theorem Finds.trans {fs fs' : List BoundFunction} {lo mid hi : Nat}
    {t t' t'' : Graph.Trail BoundFunction} (h : Finds fs lo mid t t')
    (h' : Finds fs' mid hi t' t'') (hlo : lo ≤ mid) (hhi : mid ≤ hi) :
    Finds (fs ++ fs') lo hi t t'' := by
  refine ⟨by rw [h'.found, h.found, List.append_assoc], fun id hid => ?_⟩
  rcases h'.entered id hid with hid | hid
  · exact (h.entered id hid).imp_right fun hid => ⟨hid.1, by omega⟩
  · exact .inr ⟨by omega, hid.2⟩

/-- A walk in `g` can go on into the namespaces that `g₁` has more than `g₀`: they stand in `g`,
none has been entered, and there is fuel for each. -/
structure Ready (g g₀ g₁ : Graph BoundFunction) (fuel : Nat) (t : Graph.Trail BoundFunction) :
    Prop where
  members : ∀ id : Nat, g₀.size ≤ id → id < g₁.size → g.members id = g₁.members id
  entered : ∀ id : Nat, id ∈ t.entered → id < g₀.size ∨ g₁.size ≤ id
  fuel : g₁.size ≤ g₀.size + fuel

section Ready

variable {g g₀ g₁ g₂ : Graph BoundFunction} {fuel : Nat} {t t' : Graph.Trail BoundFunction}

/-- The namespaces that were added first. -/
theorem Ready.first (h : Ready g g₀ g₂ fuel t) (h₁₂ : g₁.Extends g₂) : Ready g g₀ g₁ fuel t where
  members id hle hlt := by
    have := h₁₂.size_le
    rw [h.members id hle (by omega), h₁₂.members hlt]
  entered id hid := by
    have := h₁₂.size_le
    have := h.entered id hid
    omega
  fuel := by
    have := h₁₂.size_le
    have := h.fuel
    omega

/-- The others, once the walk has been through the first. -/
theorem Ready.rest (h : Ready g g₀ g₂ fuel t) {fs : List BoundFunction}
    (hfinds : Finds fs g₀.size g₁.size t t') (h₀₁ : g₀.Extends g₁) : Ready g g₁ g₂ fuel t' where
  members id hle hlt := by
    have := h₀₁.size_le
    exact h.members id (by omega) hlt
  entered id hid := by
    have := h₀₁.size_le
    rcases hfinds.entered id hid with hid | hid
    · have := h.entered id hid
      omega
    · exact .inl hid.2
  fuel := by
    have := h₀₁.size_le
    have := h.fuel
    omega

/-- The namespace that was added last: entering it finds what its members lead to. -/
theorem Ready.visit {n : Namespace BoundFunction} {fs : List BoundFunction} {path : String}
    (h : Ready g g₀ (g₁.add n).2 fuel t) (h₀₁ : g₀.Extends g₁)
    (hbelow : ∀ fuel t, Ready g g₀ g₁ fuel t →
      Finds fs g₀.size g₁.size t (Graph.walkMembers (g.visit fuel) path n.members t)) :
    Finds fs g₀.size (g₁.add n).2.size t (g.visit fuel g₁.size path t) := by
  obtain ⟨hmembers, hentered, hfuel⟩ := h
  have hlo := h₀₁.size_le
  rw [Graph.size_add] at hmembers hentered hfuel ⊢
  have hlast : g.members g₁.size = n.members := by
    rw [hmembers g₁.size hlo (by omega), Graph.members_add_self]
  have hnew : g₁.size ∉ t.entered := fun hid => by
    have := hentered _ hid
    omega
  -- entering takes one of the fuel, and leaves enough for the others
  obtain ⟨fuel, rfl⟩ : ∃ fuel', fuel = fuel' + 1 := ⟨fuel - 1, by omega⟩
  have hready : Ready g g₀ g₁ fuel { t with entered := g₁.size :: t.entered } := by
    refine ⟨fun id hle hlt => ?_, fun id hid => ?_, by omega⟩
    · rw [hmembers id hle (by omega), (g₁.extends_add n).members hlt]
    · rcases List.mem_cons.mp hid with rfl | hid
      · exact .inr (Nat.le_refl _)
      · have := hentered id hid
        omega
  rw [Graph.visit_of_not_mem hnew, hlast]
  have hfinds := hbelow fuel _ hready
  refine ⟨hfinds.found, fun id hid => ?_⟩
  rcases hfinds.entered id hid with hid | hid
  · rcases List.mem_cons.mp hid with rfl | hid
    · exact .inr ⟨hlo, Nat.lt_succ_self _⟩
    · exact .inl hid
  · exact .inr ⟨hid.1, by omega⟩

end Ready

mutual

/-- **What is mounted is found again.**  A walk through the members that mounting makes finds the
functions of the component in their order, but for those at or below a key that is never
followed. -/
theorem walk_mountItems {g : Graph BoundFunction} (owner : Nat) :
    ∀ (within : List String) (items : List (String × ExportItem)) (g₀ : Graph BoundFunction)
      (fuel : Nat) (path : String) (t : Graph.Trail BoundFunction),
      (∀ key ∈ within, skippedKeys.contains key = false) → DistinctNames items →
      Ready g g₀ (mountItems owner within items g₀).2 fuel t →
      Finds ((functions owner within items).filter BoundFunction.isListed) g₀.size
        (mountItems owner within items g₀).2.size t
        (Graph.walkMembers (g.visit fuel) path (mountItems owner within items g₀).1 t)
  | within, [], g₀, fuel, path, t, _, _, _ => by
      rw [mountItems, functions]
      exact Finds.nothing g₀.size g₀.size t
  | within, (name, item) :: rest, g₀, fuel, path, t, hwithin, hnames, hready => by
      rw [DistinctNames] at hnames
      rw [mountItems_cons] at hready ⊢
      rw [functions, List.filter_append, Graph.walkMembers_entity]
      have h₀₁ := extends_mountItem owner within name item g₀
      have h₁₂ := extends_mountItems owner within rest (mountItem owner within name item g₀).2
      have hhead : Finds ((functionsOf owner within name item).filter BoundFunction.isListed)
          g₀.size (mountItem owner within name item g₀).2.size t
          (Graph.walkEntities (g.visit fuel) path
            [(name, (mountItem owner within name item g₀).1)] t) := by
        cases hskip : skippedKeys.contains name with
        | true =>
          rw [filter_isListed_of_skipped hskip, Graph.walkEntities_of_skipped _ _ hskip]
          exact Finds.nothing _ _ t
        | false =>
          exact walk_mountItem owner within name item g₀ fuel path t hwithin hskip hnames.2.1
            (hready.first h₁₂)
      have hrest := walk_mountItems owner within rest _ fuel path _ hwithin hnames.2.2
        (hready.rest hhead h₀₁)
      exact hhead.trans hrest h₀₁.size_le h₁₂.size_le

theorem walk_mountItem {g : Graph BoundFunction} (owner : Nat) :
    ∀ (within : List String) (name : String) (item : ExportItem) (g₀ : Graph BoundFunction)
      (fuel : Nat) (path : String) (t : Graph.Trail BoundFunction),
      (∀ key ∈ within, skippedKeys.contains key = false) → skippedKeys.contains name = false →
      DistinctBelow item → Ready g g₀ (mountItem owner within name item g₀).2 fuel t →
      Finds ((functionsOf owner within name item).filter BoundFunction.isListed) g₀.size
        (mountItem owner within name item g₀).2.size t
        (Graph.walkEntities (g.visit fuel) path [(name, (mountItem owner within name item g₀).1)] t)
  | within, name, .function signature body, g₀, fuel, path, t, hwithin, hname, _, _ => by
      have hlisted : (⟨owner, within, name, signature, body⟩ : BoundFunction).isListed = true := by
        simp only [BoundFunction.isListed, List.all_append, List.all_eq_true, Bool.and_eq_true,
          List.all_cons, List.all_nil, hname]
        exact ⟨fun key hkey => by rw [hwithin key hkey]; rfl, rfl, trivial⟩
      rw [mountItem, functionsOf, List.filter_cons_of_pos hlisted]
      rw [Graph.walkEntities_callable _ _ hname]
      exact ⟨by simp, fun id hid => .inl hid⟩
  | within, name, .nested exports, g₀, fuel, path, t, hwithin, hname, hnames, hready => by
      rw [DistinctBelow] at hnames
      rw [mountItem_nested] at hready ⊢
      rw [functionsOf, Graph.walkEntities_nested _ _ hname]
      have hkeys := keys_mountItems owner (within ++ [name]) exports g₀
      have hwithin : ∀ key ∈ within ++ [name], skippedKeys.contains key = false := by
        intro key hkey
        rcases List.mem_append.mp hkey with hkey | hkey
        · exact hwithin key hkey
        · rw [List.mem_singleton.mp hkey, hname]
      refine hready.visit (extends_mountItems owner _ exports g₀) fun fuel' t' hready' => ?_
      rw [Namespace.members_ofList (hkeys ▸ hnames.nodup)]
      exact walk_mountItems owner (within ++ [name]) exports g₀ fuel' _ t' hwithin hnames hready'
  | _, _, .type, g₀, _, _, t, _, _, _, _ | _, _, .resource, g₀, _, _, t, _, _, _, _
  | _, _, .coreModule, g₀, _, _, t, _, _, _, _ | _, _, .component, g₀, _, _, t, _, _, _, _ => by
      rw [mountItem, functionsOf, kindData, Graph.walkEntities_data]
      exact Finds.nothing g₀.size g₀.size t

end

end Entry

end ComponentHost
