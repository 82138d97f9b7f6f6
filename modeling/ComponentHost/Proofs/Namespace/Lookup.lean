/-
# `ComponentHost.Proofs.Namespace.Lookup` — a name looked up, and a path searched for

There are two ways from a name to a callable.  The name is looked up in a namespace, which reads
one member; or it is searched for among the exports that a walk from there lists, which compares
whole paths:

    looked up       a member of the namespace, or of one of its ancestors
    searched for    a callable of the namespace, or below it

They agree where no namespace has a parent, on names without a dot: a path has no dot in it if it
is a single key, as long as no key on the way is empty.  Nothing is asked here of the other keys of
the graph, and a walk may put an empty key into a path as well as any (`Site.listed`).
-/
import ComponentHost.Proofs.Namespace.Path

namespace ComponentHost

/-! ## Members under a name -/

theorem lookup_eq_some_iff_getElem? {β : Type} {key : String} {value : β} {l : List (String × β)}
    (hnodup : (l.map (·.1)).Nodup) :
    l.lookup key = some value ↔ ∃ i : Nat, l[i]? = some (key, value) := by
  rw [List.lookup_eq_some_iff]
  constructor
  · rintro ⟨before, after, rfl, -⟩
    exact List.mem_iff_getElem?.mp (List.mem_append_right _ List.mem_cons_self)
  · rintro ⟨i, hi⟩
    obtain ⟨before, after, rfl⟩ := List.append_of_mem (List.mem_of_getElem? hi)
    refine ⟨before, after, rfl, ?_⟩
    intro e he
    rw [List.map_append, List.map_cons] at hnodup
    have hne := (List.nodup_append.mp hnodup).2.2 _ (List.mem_map_of_mem he) _ List.mem_cons_self
    exact bne_iff_ne.mpr (Ne.symm hne)

namespace Graph

variable {α σ : Type} {g : Graph α}

/-! ## Graphs without parents -/

def Parentless (g : Graph α) : Prop := ∀ n ∈ g.namespaces, n.parent = none

theorem parent_setAll (n : Namespace α) (ms : List (String × Member α)) :
    (n.setAll ms).parent = n.parent := by
  induction ms generalizing n with
  | nil => rfl
  | cons m ms ih => exact ih (n.set m.1 m.2)

theorem Parentless.add (h : g.Parentless) {n : Namespace α} (hn : n.parent = none) :
    (g.add n).2.Parentless := by
  intro n' hn'
  rcases List.mem_append.mp hn' with hn' | hn'
  · exact h n' hn'
  · rw [List.mem_singleton.mp hn', hn]

theorem Parentless.insertAll (h : g.Parentless) (id : NamespaceId)
    (ms : List (String × Member α)) : (g.insertAll id ms).Parentless := by
  intro n hn
  obtain ⟨i, hi⟩ := List.mem_iff_getElem?.mp hn
  rw [Graph.insertAll, List.getElem?_modify] at hi
  obtain ⟨n', hn', rfl⟩ := Option.map_eq_some_iff.mp hi
  have hparent : n'.parent = none := h n' (List.mem_of_getElem? hn')
  show (if id = i then n'.setAll ms else n').parent = none
  split
  · rw [parent_setAll, hparent]
  · exact hparent

theorem Parentless.get? (h : g.Parentless) (id : NamespaceId) (key : String) :
    g.get? id key = ((g.members id).lookup key).map Member.read := by
  have hparent : g.parent? id = none := by
    rw [parent?]
    cases hn : g.namespaces[id]? with
    | none => rfl
    | some n => exact h n (List.mem_of_getElem? hn)
  rw [Graph.get?, lookup, hparent]
  cases (g.members id).lookup key <;> rfl

theorem Parentless.get?_eq_some_iff (h : g.Parentless) {id : NamespaceId} {key : String}
    (hkey : key ∉ skippedKeys) {e : Entity α} :
    g.get? id key = some (.entity e) ↔ ∃ i, g.Holds id i key e := by
  rw [h.get?, Option.map_eq_some_iff]
  constructor
  · rintro ⟨m, hm, hread⟩
    obtain ⟨i, hi⟩ := (lookup_eq_some_iff_getElem? (nodup_keys g id)).mp hm
    exact ⟨i, hkey, m, hi, hread⟩
  · rintro ⟨i, -, m, hi, hread⟩
    exact ⟨m, (lookup_eq_some_iff_getElem? (nodup_keys g id)).mpr ⟨i, hi⟩, hread⟩

/-- The entry function of a name is the callable that the namespace holds under it, if that takes no
arguments. -/
theorem Parentless.entryPoint?_eq_some_iff [Callable α σ] (h : g.Parentless) {id : NamespaceId}
    {name : String} (hname : name ∉ skippedKeys) {x : String × α} :
    g.entryPoint? id name = some x ↔ x.1 = name ∧ Callable.takesNothing x.2 = true ∧
      ∃ i, g.Holds id i name (.callable x.2) := by
  rw [← h.get?_eq_some_iff hname, entryPoint?]
  constructor
  · intro hx
    split at hx
    · rename_i f hget
      split at hx
      · rename_i htakes
        cases hx
        exact ⟨rfl, htakes, hget⟩
      · cases hx
    · cases hx
  · rintro ⟨rfl, htakes, hget⟩
    rw [hget]
    exact if_pos htakes

end Graph

/-! ## Paths of any keys -/

theorem foldl_memberPath {keys : List String} (hkeys : "" ∉ keys) (before : List String)
    (hbefore : "" ∉ before) :
    keys.foldl memberPath (".".intercalate before) = ".".intercalate (before ++ keys) := by
  induction keys generalizing before with
  | nil => rw [List.append_nil]; rfl
  | cons key keys ih =>
    rw [List.mem_cons, not_or] at hkeys
    have hne : ∀ k ∈ before, k ≠ "" := fun k hk hempty => hbefore (hempty ▸ hk)
    have hbefore' : "" ∉ before ++ [key] := by
      rw [List.mem_append, List.mem_singleton, not_or]
      exact ⟨hbefore, hkeys.1⟩
    rw [List.foldl_cons, memberPath_intercalate hne, ih hkeys.2 _ hbefore', List.append_assoc]
    rfl

theorem eq_singleton_of_not_mem_dot {keys : List String} (hnil : keys ≠ [])
    (hdot : '.' ∉ (".".intercalate keys).toList) : keys = [".".intercalate keys] := by
  obtain ⟨key, rest, rfl⟩ := List.exists_cons_of_ne_nil hnil
  cases rest with
  | nil => rw [String.intercalate_singleton]
  | cons key' rest =>
    rw [toList_intercalate_cons] at hdot
    exact absurd (List.mem_append_right _ List.mem_cons_self) hdot

namespace Site

variable {α : Type} {g : Graph α} {start : NamespaceId} {s : Site α}

/-- The export that a walk makes of it, whatever the keys are; `path` leads to where its way
starts. -/
def listed (path : String) (s : Site α) : Export α :=
  ⟨s.keys.foldl memberPath path, displayName s.key, s.target⟩

/-- A callable that is exported under a path without a dot stands under that name where the walk
starts. -/
theorem StandsBelow.holds_of_listed (h : s.StandsBelow g start) (hkeys : "" ∉ s.keys)
    (hdot : '.' ∉ (s.listed "").path.toList) :
    g.Holds start s.place (s.listed "").path (.callable s.target) := by
  have hpath : (s.listed "").path = ".".intercalate s.keys :=
    foldl_memberPath hkeys [] List.not_mem_nil
  have hsplit : s.keys = s.way.map (·.2) ++ [s.key] := List.map_append
  rw [hpath] at hdot ⊢
  have hone := eq_singleton_of_not_mem_dot (by simp [hsplit]) hdot
  obtain ⟨way, home, place, key, target⟩ := s
  obtain ⟨hleads, hholds⟩ := h
  rw [hsplit] at hone ⊢
  cases hleads with
  | here =>
    obtain ⟨hkey, -⟩ := List.cons.inj hone
    exact hkey ▸ hholds
  | into _ _ =>
    have hlength := congrArg List.length hone
    simp at hlength

end Site

/-! ## What a walk lists, whatever the keys are -/

namespace Graph

variable {α : Type} {g : Graph α} {start : NamespaceId} {path : String} {t t' t'' : Trail α}

/-- From `t` to `t'`, a walk below `start` lists sites below `start`. -/
def Lists (g : Graph α) (start : NamespaceId) (path : String) (t t' : Trail α) : Prop :=
  ∃ sites : List (Site α), t'.found = t.found ++ sites.map (Site.listed path) ∧
    ∀ s ∈ sites, s.StandsBelow g start

theorem Lists.refl (g : Graph α) (start : NamespaceId) (path : String) (t : Trail α) :
    g.Lists start path t t :=
  ⟨[], (List.append_nil _).symm, fun _ hs => absurd hs List.not_mem_nil⟩

theorem Lists.trans (h : g.Lists start path t t') (h' : g.Lists start path t' t'') :
    g.Lists start path t t'' := by
  obtain ⟨sites, hfound, hstands⟩ := h
  obtain ⟨sites', hfound', hstands'⟩ := h'
  refine ⟨sites ++ sites', ?_, List.forall_mem_append.mpr ⟨hstands, hstands'⟩⟩
  rw [hfound', hfound, List.map_append, List.append_assoc]

theorem Lists.through {id : NamespaceId} {i : Nat} {key : String}
    (h : g.Lists start (memberPath path key) t t') (hmember : g.Holds id i key (.nested start)) :
    g.Lists id path t t' := by
  obtain ⟨sites, hfound, hstands⟩ := h
  refine ⟨sites.map (Site.under i key), ?_, ?_⟩
  · rw [hfound, List.map_map]
    rfl
  · intro s hs
    obtain ⟨s', hs', rfl⟩ := List.mem_map.mp hs
    exact ⟨.into hmember (hstands s' hs').leads, (hstands s' hs').holds⟩

theorem Lists.subset (h : g.Lists start path t t') : t.found ⊆ t'.found := by
  obtain ⟨sites, hfound, -⟩ := h
  rw [hfound]
  exact List.subset_append_left _ _

section Members

variable {visit : NamespaceId → String → Trail α → Trail α} {id : NamespaceId}

/-- One member: a callable is listed, and a namespace is visited. -/
theorem lists_member (hsteady : g.Steady)
    (hvisit : ∀ next path t, g.Lists next path t (visit next path t)) {i : Nat}
    {m : String × Member α} (hm : (g.members id)[i]? = some m) (path : String) (t : Trail α) :
    g.Lists id path t (walkMembers visit path [m] t) := by
  obtain ⟨key, m⟩ := m
  rcases hsteady.read (List.mem_of_getElem? hm) with ⟨e, he⟩ | ⟨message, hfails⟩
  case inr =>
    rw [walkMembers_of_failure hfails]
    exact .refl g id path t
  case inl =>
    rw [walkMembers_of_read he]
    cases hskip : skippedKeys.contains key with
    | true =>
      rw [walkEntities_of_skipped _ _ hskip]
      exact .refl g id path t
    | false =>
      have hholds : g.Holds id i key e := by
        refine ⟨?_, m, hm, he⟩
        rw [← List.contains_iff_mem, hskip]
        exact Bool.false_ne_true
      cases e with
      | callable f =>
        rw [walkEntities_callable _ _ hskip]
        refine ⟨[⟨[], id, i, key, f⟩], rfl, ?_⟩
        intro s hs
        obtain rfl := List.mem_singleton.mp hs
        exact ⟨.here id, hholds⟩
      | nested next =>
        rw [walkEntities_nested _ _ hskip]
        exact (hvisit next _ t).through hholds
      | list items =>
        rw [walkEntities_list]
        exact .refl g id path t
      | data j =>
        rw [walkEntities_data]
        exact .refl g id path t

theorem lists_members (hsteady : g.Steady)
    (hvisit : ∀ next path t, g.Lists next path t (visit next path t)) (path : String)
    {ms : List (String × Member α)} (hms : ms ⊆ g.members id) (t : Trail α) :
    g.Lists id path t (walkMembers visit path ms t) := by
  induction ms generalizing t with
  | nil => exact .refl g id path t
  | cons m ms ih =>
    rw [List.cons_subset] at hms
    obtain ⟨i, hi⟩ := List.mem_iff_getElem?.mp hms.1
    rw [walkMembers_cons]
    exact (lists_member hsteady hvisit hi path t).trans (ih hms.2 _)

theorem mem_found_of_mem (hsteady : g.Steady)
    (hvisit : ∀ next path t, g.Lists next path t (visit next path t)) (path : String)
    {ms : List (String × Member α)} (hms : ms ⊆ g.members id) {key : String} {m : Member α} {f : α}
    (hm : (key, m) ∈ ms) (hkey : key ∉ skippedKeys) (hread : m.read = .entity (.callable f))
    (t : Trail α) :
    ⟨memberPath path key, displayName key, f⟩ ∈ (walkMembers visit path ms t).found := by
  induction ms generalizing t with
  | nil => exact absurd hm List.not_mem_nil
  | cons m' ms ih =>
    rw [List.cons_subset] at hms
    rw [walkMembers_cons]
    rcases List.mem_cons.mp hm with rfl | hm
    · have hskip : skippedKeys.contains key = false := by
        rw [← Bool.not_eq_true, List.contains_iff_mem]
        exact hkey
      refine (lists_members hsteady hvisit path hms.2 _).subset ?_
      rw [walkMembers_of_read hread, walkEntities_callable _ _ hskip]
      exact List.mem_append_right _ List.mem_cons_self
    · exact ih hms.2 hm _

end Members

theorem lists_visit (hsteady : g.Steady) (fuel : Nat) (id : NamespaceId) (path : String)
    (t : Trail α) : g.Lists id path t (g.visit fuel id path t) := by
  induction fuel generalizing id path t with
  | zero => exact .refl g id path t
  | succ fuel ih =>
    rw [Graph.visit]
    split
    · exact .refl g id path t
    · exact lists_members hsteady ih path (List.Subset.refl _) _

theorem exists_site_of_mem_walk (hsteady : g.Steady) {x : Export α}
    (hx : x ∈ g.walk (.nested start) "") :
    ∃ s : Site α, s.StandsBelow g start ∧ x = s.listed "" := by
  obtain ⟨sites, hfound, hstands⟩ := lists_visit hsteady (g.size + 1) start "" ⟨[], []⟩
  rw [walk, hfound] at hx
  obtain ⟨s, hs, rfl⟩ := List.mem_map.mp hx
  exact ⟨s, hstands s hs, rfl⟩

theorem mem_walk_of_holds (hsteady : g.Steady) {i : Nat} {key : String} {f : α}
    (h : g.Holds start i key (.callable f)) :
    ⟨key, displayName key, f⟩ ∈ g.walk (.nested start) "" := by
  obtain ⟨hkey, m, hm, hread⟩ := h
  rw [walk, visit_of_not_mem List.not_mem_nil]
  exact mem_found_of_mem hsteady (lists_visit hsteady g.size) "" (List.Subset.refl _)
    (List.mem_of_getElem? hm) hkey hread _

end Graph

end ComponentHost
