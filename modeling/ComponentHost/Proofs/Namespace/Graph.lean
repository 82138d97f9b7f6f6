/-
# `ComponentHost.Proofs.Namespace.Graph` — graphs by the members of their namespaces

All that is asked of a graph is asked of the members of its namespaces.  The two ways
to change one, in these terms:

    add n              one namespace more, with the members of `n`; the others as before
    insert id key m    the members of `id` with `m` set; the others as before

`Graph.Extends` is what any number of `add`s come to.  `Graph.Only P` says that nothing
but plain entities stand in a graph, and that its callables have `P`; whatever a walk
or the search for an entry function finds there has `P` too.
-/
import ComponentHost.Namespace.EntryPoint
import ComponentHost.Namespace.Walk

namespace ComponentHost

/-! ## Setting members -/

theorem setKey_of_not_mem {β : Type} {key : String} (value : β) :
    ∀ {l : List (String × β)}, key ∉ l.map (·.1) → setKey key value l = l ++ [(key, value)]
  | [], _ => rfl
  | (k, v) :: l, h => by
      rw [List.map_cons, List.mem_cons, not_or] at h
      rw [setKey, if_neg (Ne.symm h.1), setKey_of_not_mem value h.2, List.cons_append]

theorem mem_setKey {β : Type} {key : String} {value : β} {e : String × β} :
    ∀ {l : List (String × β)}, e ∈ setKey key value l → e = (key, value) ∨ e ∈ l
  | [], h => .inl (List.mem_singleton.mp h)
  | (k, v) :: l, h => by
      rw [setKey] at h
      split at h
      · exact (List.mem_cons.mp h).imp_right (List.mem_cons_of_mem _)
      · rcases List.mem_cons.mp h with rfl | h
        · exact .inr List.mem_cons_self
        · exact (mem_setKey h).imp_right (List.mem_cons_of_mem _)

namespace Namespace

variable {α : Type}

def setAll (n : Namespace α) (ms : List (String × Member α)) : Namespace α :=
  ms.foldl (fun n m => n.set m.1 m.2) n

theorem members_setAll :
    ∀ (ms : List (String × Member α)) (n : Namespace α),
      ((n.members ++ ms).map (·.1)).Nodup → (n.setAll ms).members = n.members ++ ms
  | [], n, _ => (List.append_nil _).symm
  | m :: ms, n, h => by
      have hnew : m.1 ∉ n.members.map (·.1) := by
        intro hmem
        rw [List.map_append, List.map_cons] at h
        exact (List.nodup_append.mp h).2.2 _ hmem _ List.mem_cons_self rfl
      have hset : (n.set m.1 m.2).members = n.members ++ [m] := setKey_of_not_mem m.2 hnew
      show ((n.set m.1 m.2).setAll ms).members = _
      rw [members_setAll ms _ (by simpa [hset] using h), hset, List.append_assoc]
      rfl

theorem mem_members_setAll {m : String × Member α} :
    ∀ (ms : List (String × Member α)) (n : Namespace α),
      m ∈ (n.setAll ms).members → m ∈ n.members ∨ m ∈ ms
  | [], _, h => .inl h
  | m' :: ms, n, h => by
      rcases mem_members_setAll ms (n.set m'.1 m'.2) h with h | h
      · rcases mem_setKey h with rfl | h
        · exact .inr List.mem_cons_self
        · exact .inl h
      · exact .inr (List.mem_cons_of_mem _ h)

theorem members_ofList {parent : Option NamespaceId} {ms : List (String × Member α)}
    (h : (ms.map (·.1)).Nodup) : (ofList parent ms).members = ms :=
  members_setAll ms (empty parent) h

theorem mem_members_ofList {parent : Option NamespaceId} {ms : List (String × Member α)}
    {m : String × Member α} (h : m ∈ (ofList parent ms).members) : m ∈ ms :=
  (mem_members_setAll ms (empty parent) h).resolve_left List.not_mem_nil

end Namespace

namespace Graph

variable {α : Type}

/-! ## Adding namespaces -/

@[simp]
theorem size_add (g : Graph α) (n : Namespace α) : (g.add n).2.size = g.size + 1 := by
  simp [add, size]

/-- The graph has the namespaces of `g`, and perhaps more behind them. -/
def Extends (g g' : Graph α) : Prop :=
  g.namespaces <+: g'.namespaces

theorem Extends.refl (g : Graph α) : g.Extends g := List.prefix_refl _

theorem Extends.trans {g g' g'' : Graph α} (h : g.Extends g') (h' : g'.Extends g'') :
    g.Extends g'' := List.IsPrefix.trans h h'

theorem extends_add (g : Graph α) (n : Namespace α) : g.Extends (g.add n).2 :=
  List.prefix_append _ _

theorem Extends.size_le {g g' : Graph α} (h : g.Extends g') : g.size ≤ g'.size :=
  List.IsPrefix.length_le h

theorem Extends.members {g g' : Graph α} (h : g.Extends g') {id : NamespaceId} (hid : id < g.size) :
    g'.members id = g.members id := by
  obtain ⟨more, hmore⟩ := h
  rw [Graph.members, Graph.members, ← hmore, List.getElem?_append_left hid]

theorem members_add_self (g : Graph α) (n : Namespace α) :
    (g.add n).2.members g.size = n.members := by
  simp [add, members, size]

theorem members_of_size_le {g : Graph α} {id : NamespaceId} (h : g.size ≤ id) :
    g.members id = [] := by
  rw [members, List.getElem?_eq_none h]
  rfl

/-! ## Setting members of a namespace -/

def insertAll (g : Graph α) (id : NamespaceId) (ms : List (String × Member α)) : Graph α :=
  ⟨g.namespaces.modify id (·.setAll ms)⟩

theorem foldl_insert (id : NamespaceId) :
    ∀ (es : List (String × Entity α)) (g : Graph α),
      es.foldl (fun g e => g.insert id e.1 (.entity e.2)) g =
        g.insertAll id (es.map fun e => (e.1, .entity e.2))
  | [], g => by
      rw [List.foldl_nil, List.map_nil, insertAll]
      exact congrArg Graph.mk (List.modify_id id g.namespaces).symm
  | e :: es, g => by
      rw [List.foldl_cons, foldl_insert id es, insertAll, insertAll, insert, List.modify_modify_eq]
      rfl

@[simp]
theorem size_insertAll (g : Graph α) (id : NamespaceId) (ms : List (String × Member α)) :
    (g.insertAll id ms).size = g.size := by
  simp [insertAll, size]

theorem members_insertAll_of_ne {g : Graph α} {id id' : NamespaceId} (h : id ≠ id')
    (ms : List (String × Member α)) : (g.insertAll id ms).members id' = g.members id' := by
  simp only [members, insertAll, List.getElem?_modify_ne _ _ h]

theorem members_insertAll_self (g : Graph α) (id : NamespaceId) (ms : List (String × Member α)) :
    (g.insertAll id ms).members id =
      (g.namespaces[id]?.map fun n => (n.setAll ms).members).getD [] := by
  simp only [members, insertAll, List.getElem?_modify_eq, Option.map_eq_map, Option.map_map,
    Function.comp_def]

theorem members_insertAll {g : Graph α} {id : NamespaceId} (hid : id < g.size)
    {ms : List (String × Member α)} (h : ((g.members id ++ ms).map (·.1)).Nodup) :
    (g.insertAll id ms).members id = g.members id ++ ms := by
  have hn : g.namespaces[id]? = some g.namespaces[id] := List.getElem?_eq_getElem hid
  rw [members, hn] at h
  rw [members_insertAll_self, members, hn]
  exact Namespace.members_setAll ms _ h

theorem mem_members_insertAll {g : Graph α} {id id' : NamespaceId} {ms : List (String × Member α)}
    {m : String × Member α} (h : m ∈ (g.insertAll id ms).members id') :
    m ∈ g.members id' ∨ m ∈ ms := by
  by_cases hne : id = id'
  · subst hne
    rw [members_insertAll_self] at h
    rw [members]
    cases hn : g.namespaces[id]? with
    | none =>
      rw [hn] at h
      exact .inl h
    | some n =>
      rw [hn] at h
      exact Namespace.mem_members_setAll ms n h
  · rw [members_insertAll_of_ne hne] at h
    exact .inl h

end Graph

/-! ## What stands in a graph -/

/-- If the entity is a callable, it has `P`. -/
def Entity.Only {α : Type} (P : α → Prop) : Entity α → Prop
  | .callable f => P f
  | _ => True

/-- The member is a plain entity, and if that is a callable, it has `P`. -/
def Member.Only {α : Type} (P : α → Prop) (m : Member α) : Prop :=
  ∃ e, m = .entity e ∧ e.Only P

namespace Graph

variable {α σ : Type} {P : α → Prop} {g : Graph α}

/-- Nothing but plain entities stand in the graph, and its callables have `P`. -/
def Only (P : α → Prop) (g : Graph α) : Prop :=
  ∀ id, ∀ m ∈ g.members id, m.2.Only P

theorem Only.mono {Q : α → Prop} (h : g.Only P) (hPQ : ∀ f, P f → Q f) : g.Only Q := by
  intro id m hm
  obtain ⟨e, he, honly⟩ := h id m hm
  refine ⟨e, he, ?_⟩
  cases e with
  | callable f => exact hPQ f honly
  | _ => trivial

theorem Only.add (h : g.Only P) {n : Namespace α} (hn : ∀ m ∈ n.members, m.2.Only P) :
    (g.add n).2.Only P := by
  intro id m hm
  rcases Nat.lt_trichotomy id g.size with hlt | rfl | hgt
  · rw [(g.extends_add n).members hlt] at hm
    exact h id m hm
  · rw [members_add_self] at hm
    exact hn m hm
  · rw [members_of_size_le (by rw [size_add]; exact hgt)] at hm
    exact absurd hm List.not_mem_nil

theorem Only.insertAll (h : g.Only P) (id : NamespaceId) {ms : List (String × Member α)}
    (hms : ∀ m ∈ ms, m.2.Only P) : (g.insertAll id ms).Only P := by
  intro id' m hm
  exact (mem_members_insertAll hm).elim (h id' m) (hms m)

/-! ## What is found in a graph -/

/-- All that a walk has found so far has `P`. -/
def Trail.Only (P : α → Prop) (t : Trail α) : Prop :=
  ∀ x ∈ t.found, P x.target

theorem walkMembers_entity (visit : NamespaceId → String → Trail α → Trail α) (path key : String)
    (e : Entity α) (ms : List (String × Member α)) (t : Trail α) :
    walkMembers visit path ((key, .entity e) :: ms) t =
      walkMembers visit path ms (walkEntities visit path [(key, e)] t) := rfl

theorem walkEntities_of_skipped (visit : NamespaceId → String → Trail α → Trail α) (path : String)
    {key : String} (h : skippedKeys.contains key = true) (e : Entity α) (t : Trail α) :
    walkEntities visit path [(key, e)] t = t :=
  if_pos h

theorem walkEntities_callable (visit : NamespaceId → String → Trail α → Trail α) (path : String)
    {key : String} (h : skippedKeys.contains key = false) (f : α) (t : Trail α) :
    walkEntities visit path [(key, .callable f)] t =
      { t with found := t.found ++ [⟨memberPath path key, displayName key, f⟩] } := by
  rw [walkEntities, h]
  rfl

theorem walkEntities_nested (visit : NamespaceId → String → Trail α → Trail α) (path : String)
    {key : String} (h : skippedKeys.contains key = false) (id : NamespaceId) (t : Trail α) :
    walkEntities visit path [(key, .nested id)] t = visit id (memberPath path key) t := by
  rw [walkEntities, h]
  rfl

theorem walkEntities_data (visit : NamespaceId → String → Trail α → Trail α) (path key : String)
    (j : Json) (t : Trail α) : walkEntities visit path [(key, .data j)] t = t :=
  ite_self t

theorem walkEntities_list (visit : NamespaceId → String → Trail α → Trail α) (path key : String)
    (items : List (Entity α)) (t : Trail α) :
    walkEntities visit path [(key, .list items)] t = t :=
  ite_self t

theorem visit_of_not_mem {t : Trail α} {id : NamespaceId} (h : id ∉ t.entered) (fuel : Nat)
    (path : String) :
    g.visit (fuel + 1) id path t =
      walkMembers (g.visit fuel) path (g.members id) { t with entered := id :: t.entered } := by
  rw [visit, if_neg (by simpa using h)]

theorem Only.walkEntities {visit : NamespaceId → String → Trail α → Trail α}
    (hvisit : ∀ id path t, t.Only P → (visit id path t).Only P) {path key : String} {e : Entity α}
    (he : e.Only P) {t : Trail α} (ht : t.Only P) :
    (walkEntities visit path [(key, e)] t).Only P := by
  cases hskip : skippedKeys.contains key with
  | true => rwa [walkEntities_of_skipped visit path hskip]
  | false =>
    cases e with
    | callable f =>
      rw [walkEntities_callable visit path hskip]
      intro x hx
      rcases List.mem_append.mp hx with hx | hx
      · exact ht x hx
      · rw [List.mem_singleton.mp hx]
        exact he
    | nested id =>
      rw [walkEntities_nested visit path hskip]
      exact hvisit id _ t ht
    | list items => rwa [walkEntities_list]
    | data j => rwa [walkEntities_data]

theorem Only.walkMembers {visit : NamespaceId → String → Trail α → Trail α}
    (hvisit : ∀ id path t, t.Only P → (visit id path t).Only P) (path : String) :
    ∀ (ms : List (String × Member α)) (t : Trail α),
      (∀ m ∈ ms, m.2.Only P) → t.Only P → (walkMembers visit path ms t).Only P
  | [], _, _, ht => ht
  | (key, m) :: ms, t, hms, ht => by
      obtain ⟨⟨e, he, honly⟩, hms⟩ := List.forall_mem_cons.mp hms
      rw [show m = .entity e from he, walkMembers_entity]
      exact Only.walkMembers hvisit path ms _ hms (Only.walkEntities hvisit honly ht)

theorem Only.visit (h : g.Only P) :
    ∀ (fuel : Nat) (id : NamespaceId) (path : String) (t : Trail α),
      t.Only P → (g.visit fuel id path t).Only P
  | 0, _, _, _, ht => ht
  | fuel + 1, id, path, t, ht => by
      rw [Graph.visit]
      split
      · exact ht
      · exact Only.walkMembers (h.visit fuel) path (g.members id) _ (h id) ht

theorem Only.walk (h : g.Only P) (root : Entity α) (base : String) :
    ∀ x ∈ g.walk root base, P x.target := by
  cases root with
  | nested id => exact h.visit (g.size + 1) id base ⟨[], []⟩ fun x hx => absurd hx List.not_mem_nil
  | _ => exact fun x hx => absurd hx List.not_mem_nil

theorem Only.lookup (h : g.Only P) {key : String} {f : α} :
    ∀ {generations : Nat} {id : NamespaceId},
      g.lookup key generations id = some (.entity (.callable f)) → P f
  | 0, _, hf => nomatch hf
  | generations + 1, id, hf => by
      rw [Graph.lookup] at hf
      cases hm : (g.members id).lookup key with
      | none =>
        rw [hm] at hf
        obtain ⟨parent, -, hf⟩ := Option.bind_eq_some_iff.mp hf
        exact h.lookup hf
      | some m =>
        obtain ⟨before, after, hmem, -⟩ := List.lookup_eq_some_iff.mp hm
        obtain ⟨e, rfl, he⟩ := h id (key, m) (by simp [hmem])
        rw [hm] at hf
        cases hf
        exact he

theorem Only.findEntryPoint [Callable α σ] (h : g.Only P) {root : Entity α} {x : String × α}
    (hx : g.findEntryPoint root = some x) : P x.2 := by
  cases root with
  | nested id =>
    obtain ⟨name, -, hname⟩ := List.exists_of_findSome?_eq_some hx
    rw [entryPoint?] at hname
    split at hname
    · rename_i f hget
      split at hname
      · cases hname
        exact h.lookup hget
      · cases hname
    · cases hname
  | _ => cases hx

end Graph

end ComponentHost
