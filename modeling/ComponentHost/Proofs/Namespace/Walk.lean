/-
# `ComponentHost.Proofs.Namespace.Walk` — a walk finds what can be reached, and finds it once

A graph may lead to one namespace in many ways, and back to where it came from.  A walk
takes the first of these ways, in the order of the members, and no other.  What it finds
is said here without any walk:

    `Holds`    a member by its place, its key and what it reads as
    `Leads`    a way through namespaces, member after member
    `Site`     a callable, the namespace it stands in, and a way from there to here

A stretch of a walk is described by `Sweeps`, between the trail before it and the trail
after it.  The members it has to see to are those of the namespaces it enters, and some
of the one it is in.  It lists the callables among them, it enters the namespaces among
them or they have been entered before, and it sees to nothing else.  So when the walk is
over, the namespaces that were entered lead to no others, and all that can be reached is
among them.
-/
import ComponentHost.Proofs.Namespace.Graph

namespace ComponentHost

/-! ## Dotted paths -/

theorem memberPath_intercalate {keys : List String} (h : ∀ key ∈ keys, key ≠ "") (key : String) :
    memberPath (".".intercalate keys) key = ".".intercalate (keys ++ [key]) := by
  cases keys with
  | nil =>
    rw [String.intercalate_nil, List.nil_append, String.intercalate_singleton]
    exact if_pos rfl
  | cons k ks =>
    have hne : ".".intercalate (k :: ks) ≠ "" := by
      intro hempty
      have hk : k ≠ "" := h k List.mem_cons_self
      cases ks with
      | nil =>
        rw [String.intercalate_singleton] at hempty
        exact hk hempty
      | cons k' ks =>
        rw [String.intercalate_cons_cons] at hempty
        simp at hempty
    rw [memberPath, if_neg (by simpa using hne),
      String.intercalate_append_of_ne_nil (List.cons_ne_nil _ _) (List.cons_ne_nil _ _),
      String.intercalate_singleton]

namespace Graph

variable {α : Type}

/-! ## What can be reached -/

/-- No member makes a namespace each time it is read: an accessor gives one entity, or fails. -/
def Steady (g : Graph α) : Prop :=
  ∀ id, ∀ m ∈ g.members id, ∀ made, m.2 ≠ .maker made

/-- The `i`-th member of the namespace has the key, which is one that is followed, and reads as
`e`. -/
def Holds (g : Graph α) (id : NamespaceId) (i : Nat) (key : String) (e : Entity α) : Prop :=
  key ∉ skippedKeys ∧ ∃ m, (g.members id)[i]? = some (key, m) ∧ m.read = .entity e

/-- A way from one namespace to another: the places and the keys of the members that it goes
through. -/
inductive Leads (g : Graph α) : NamespaceId → List (Nat × String) → NamespaceId → Prop
  | here (id : NamespaceId) : Leads g id [] id
  | into {id next last : NamespaceId} {i : Nat} {key : String} {way : List (Nat × String)} :
      g.Holds id i key (.nested next) → Leads g next way last → Leads g id ((i, key) :: way) last

end Graph

/-- A callable in a namespace, and a way to that namespace. -/
structure Site (α : Type) where
  way : List (Nat × String)
  home : NamespaceId
  /-- The place of the member among those of its namespace. -/
  place : Nat
  key : String
  target : α

namespace Site

variable {α : Type}

/-- The way to the callable itself. -/
def route (s : Site α) : List (Nat × String) := s.way ++ [(s.place, s.key)]

/-- The places of the members on the way to the callable. -/
def places (s : Site α) : List Nat := s.route.map (·.1)

def keys (s : Site α) : List String := s.route.map (·.2)

/-- The export that a walk makes of it; `before` are the keys that lead to where its way starts. -/
def toExport (before : List String) (s : Site α) : Export α :=
  ⟨".".intercalate (before ++ s.keys), displayName s.key, s.target⟩

/-- The same callable, from one namespace further back. -/
def under (i : Nat) (key : String) (s : Site α) : Site α :=
  { s with way := (i, key) :: s.way }

theorem places_under (i : Nat) (key : String) (s : Site α) :
    (s.under i key).places = i :: s.places := rfl

theorem toExport_under (before : List String) (i : Nat) (key : String) (s : Site α) :
    (s.under i key).toExport before = s.toExport (before ++ [key]) := by
  have hkeys : before ++ (s.under i key).keys = before ++ [key] ++ s.keys :=
    List.append_cons before key s.keys
  rw [toExport, toExport, hkeys]
  rfl

/-- The callable stands where the site says, and the way leads there from `start`. -/
structure StandsBelow (g : Graph α) (start : NamespaceId) (s : Site α) : Prop where
  leads : g.Leads start s.way s.home
  holds : g.Holds s.home s.place s.key (.callable s.target)

end Site

namespace Graph

variable {α : Type} {g : Graph α}

theorem Holds.unique {id : NamespaceId} {i : Nat} {key key' : String} {e e' : Entity α}
    (h : g.Holds id i key e) (h' : g.Holds id i key' e') : key = key' ∧ e = e' := by
  obtain ⟨-, m, hm, he⟩ := h
  obtain ⟨-, m', hm', he'⟩ := h'
  cases hm.symm.trans hm'
  cases he.symm.trans he'
  exact ⟨rfl, rfl⟩

theorem nodup_keys (g : Graph α) (id : NamespaceId) : (g.keys id).Nodup := by
  rw [keys, members]
  cases g.namespaces[id]? with
  | none => exact List.nodup_nil
  | some n => exact n.distinct

theorem Holds.place_unique {id : NamespaceId} {i i' : Nat} {key : String} {e e' : Entity α}
    (h : g.Holds id i key e) (h' : g.Holds id i' key e') : i = i' := by
  obtain ⟨-, m, hm, -⟩ := h
  obtain ⟨-, m', hm', -⟩ := h'
  have hi : (g.keys id)[i]? = some key := by
    rw [keys, List.getElem?_map, hm]
    rfl
  have hi' : (g.keys id)[i']? = some key := by
    rw [keys, List.getElem?_map, hm']
    rfl
  obtain ⟨hlt, -⟩ := List.getElem?_eq_some_iff.mp hi
  exact (List.getElem?_inj hlt (nodup_keys g id)).mp (hi.trans hi'.symm)

/-! ## Stretches of a walk -/

/-- The namespace is entered between the two trails. -/
def Trail.Enters (t t' : Trail α) (id : NamespaceId) : Prop :=
  id ∈ t'.entered ∧ id ∉ t.entered

/-- The walk from `t` to `t'` sees to the members that are due: it lists the sites among them, in
order, and the namespaces among them have been entered when it is over. -/
structure Sweeps (g : Graph α) (start : NamespaceId) (before : List String)
    (due : NamespaceId → Nat → Prop) (sites : List (Site α)) (t t' : Trail α) : Prop where
  found : t'.found = t.found ++ sites.map (Site.toExport before)
  kept : ∀ id : NamespaceId, id ∈ t.entered → id ∈ t'.entered
  stands : ∀ s ∈ sites, s.StandsBelow g start ∧ due s.home s.place
  listed : ∀ id i key f, due id i → g.Holds id i key (.callable f) →
    ∃ s ∈ sites, s.home = id ∧ s.place = i
  followed : ∀ id i key next, due id i → g.Holds id i key (.nested next) → next ∈ t'.entered
  once : (sites.map fun s => (s.home, s.place)).Nodup
  ordered : (sites.map Site.places).Pairwise (· < ·)

namespace Sweeps

variable {start : NamespaceId} {before : List String} {due due' : NamespaceId → Nat → Prop}
  {sites sites' : List (Site α)} {t t' t'' : Trail α}

theorem congr (h : Sweeps g start before due sites t t') (hdue : ∀ id i, due id i ↔ due' id i) :
    Sweeps g start before due' sites t t' := by
  obtain rfl : due = due' := by
    funext id i
    exact propext (hdue id i)
  exact h

/-- Where nothing is due that could be listed or followed, nothing has to happen. -/
theorem nothing (hdue : ∀ id i key e, due id i → g.Holds id i key e →
    (∀ f, e ≠ .callable f) ∧ ∀ next, e ≠ .nested next) (t : Trail α) :
    Sweeps g start before due [] t t where
  found := (List.append_nil _).symm
  kept _ hid := hid
  stands _ hs := absurd hs List.not_mem_nil
  listed id i key f hd hh := absurd rfl ((hdue id i key _ hd hh).1 f)
  followed id i key next hd hh := absurd rfl ((hdue id i key _ hd hh).2 next)
  once := List.nodup_nil
  ordered := List.Pairwise.nil

/-- One stretch after another, with nothing due in both. -/
theorem append (h : Sweeps g start before due sites t t')
    (h' : Sweeps g start before due' sites' t' t'') (hdue : ∀ id i, due id i → ¬ due' id i)
    (hlt : ∀ s ∈ sites, ∀ s' ∈ sites', s.places < s'.places) :
    Sweeps g start before (fun id i => due id i ∨ due' id i) (sites ++ sites') t t'' where
  found := by rw [h'.found, h.found, List.map_append, List.append_assoc]
  kept id hid := h'.kept id (h.kept id hid)
  stands s hs := by
    rcases List.mem_append.mp hs with hs | hs
    · exact ⟨(h.stands s hs).1, .inl (h.stands s hs).2⟩
    · exact ⟨(h'.stands s hs).1, .inr (h'.stands s hs).2⟩
  listed id i key f hd hh := by
    rcases hd with hd | hd
    · obtain ⟨s, hs, hsite⟩ := h.listed id i key f hd hh
      exact ⟨s, List.mem_append_left _ hs, hsite⟩
    · obtain ⟨s, hs, hsite⟩ := h'.listed id i key f hd hh
      exact ⟨s, List.mem_append_right _ hs, hsite⟩
  followed id i key next hd hh := by
    rcases hd with hd | hd
    · exact h'.kept next (h.followed id i key next hd hh)
    · exact h'.followed id i key next hd hh
  once := by
    rw [List.map_append, List.nodup_append]
    refine ⟨h.once, h'.once, ?_⟩
    intro x hx y hy
    obtain ⟨s, hs, rfl⟩ := List.mem_map.mp hx
    obtain ⟨s', hs', rfl⟩ := List.mem_map.mp hy
    intro heq
    obtain ⟨hhome, hplace⟩ := Prod.mk.inj heq
    have hd : due s'.home s'.place := hhome ▸ hplace ▸ (h.stands s hs).2
    exact hdue _ _ hd (h'.stands s' hs').2
  ordered := by
    rw [List.map_append, List.pairwise_append]
    refine ⟨h.ordered, h'.ordered, ?_⟩
    intro x hx y hy
    obtain ⟨s, hs, rfl⟩ := List.mem_map.mp hx
    obtain ⟨s', hs', rfl⟩ := List.mem_map.mp hy
    exact hlt s hs s' hs'

theorem single {id : NamespaceId} {i : Nat} {key : String} {f : α}
    (hmember : g.Holds id i key (.callable f)) (t : Trail α) :
    Sweeps g id before (fun n j => n = id ∧ j = i) [⟨[], id, i, key, f⟩] t
      { t with found := t.found ++ [⟨".".intercalate (before ++ [key]), displayName key, f⟩] } where
  found := rfl
  kept _ hid := hid
  stands s hs := by
    obtain rfl := List.mem_singleton.mp hs
    exact ⟨⟨.here id, hmember⟩, rfl, rfl⟩
  listed n j key' f' hd _ := ⟨_, List.mem_cons_self, hd.1.symm, hd.2.symm⟩
  followed n j key' next hd hh := by
    obtain ⟨rfl, rfl⟩ := hd
    cases (hmember.unique hh).2
  once := List.pairwise_singleton _ _
  ordered := List.pairwise_singleton _ _

/-- A stretch below a member, seen from the namespace of that member, sees to the member too. -/
theorem through {id : NamespaceId} {i : Nat} {key : String}
    (h : Sweeps g start (before ++ [key]) due sites t t')
    (hmember : g.Holds id i key (.nested start)) (hentered : start ∈ t'.entered) :
    Sweeps g id before (fun n j => due n j ∨ n = id ∧ j = i) (sites.map (Site.under i key)) t t'
    where
  found := by
    rw [h.found, List.map_map]
    congr 1
    exact List.map_congr_left fun s _ => (s.toExport_under before i key).symm
  kept := h.kept
  stands s hs := by
    obtain ⟨s', hs', rfl⟩ := List.mem_map.mp hs
    obtain ⟨hstands, hd⟩ := h.stands s' hs'
    exact ⟨⟨.into hmember hstands.leads, hstands.holds⟩, .inl hd⟩
  listed n j key' f hd hh := by
    rcases hd with hd | ⟨rfl, rfl⟩
    · obtain ⟨s, hs, hsite⟩ := h.listed n j key' f hd hh
      exact ⟨s.under i key, List.mem_map_of_mem hs, hsite⟩
    · cases (hmember.unique hh).2
  followed n j key' next hd hh := by
    rcases hd with hd | ⟨rfl, rfl⟩
    · exact h.followed n j key' next hd hh
    · cases (hmember.unique hh).2
      exact hentered
  once := by
    rw [List.map_map]
    exact h.once
  ordered := by
    rw [List.map_map, List.pairwise_map]
    refine (List.pairwise_map.mp h.ordered).imp ?_
    intro s s' hlt
    exact List.cons_lt_cons_iff.mpr (.inr ⟨rfl, hlt⟩)

end Sweeps

/-! ## Fuel -/

/-- The namespaces of the graph that have not been entered. -/
def unentered (g : Graph α) (t : Trail α) : List NamespaceId :=
  (List.range g.size).filter (· ∉ t.entered)

theorem length_unentered_le {t t' : Trail α}
    (h : ∀ id : NamespaceId, id ∈ t.entered → id ∈ t'.entered) :
    (g.unentered t').length ≤ (g.unentered t).length := by
  rw [unentered, unentered, ← List.countP_eq_length_filter, ← List.countP_eq_length_filter]
  refine List.countP_mono_left ?_
  intro id _ hid
  simp only [decide_eq_true_eq] at hid ⊢
  exact fun hmem => hid (h id hmem)

theorem length_unentered_lt {t : Trail α} {id : NamespaceId} (hid : id < g.size)
    (hnew : id ∉ t.entered) :
    (g.unentered { t with entered := id :: t.entered }).length < (g.unentered t).length := by
  have hfilter : g.unentered { t with entered := id :: t.entered } =
      (g.unentered t).filter (· ≠ id) := by
    rw [unentered, unentered, List.filter_filter]
    refine List.filter_congr ?_
    intro n _
    simp
  rw [hfilter, List.length_filter_lt_length_iff_exists]
  refine ⟨id, ?_, by simp⟩
  simpa [unentered] using ⟨hid, hnew⟩

/-! ## The walk -/

theorem walkMembers_cons (visit : NamespaceId → String → Trail α → Trail α) (path : String)
    (m : String × Member α) (ms : List (String × Member α)) (t : Trail α) :
    walkMembers visit path (m :: ms) t =
      walkMembers visit path ms (walkMembers visit path [m] t) := by
  obtain ⟨key, m⟩ := m
  rw [walkMembers, walkMembers]
  cases m.read with
  | entity e => rfl
  | fresh members =>
    cases hskip : skippedKeys.contains key <;> rfl
  | failure message => rfl

theorem walkMembers_of_read {visit : NamespaceId → String → Trail α → Trail α} {path key : String}
    {m : Member α} {e : Entity α} (h : m.read = .entity e) (t : Trail α) :
    walkMembers visit path [(key, m)] t = walkEntities visit path [(key, e)] t := by
  rw [walkMembers, h]
  rfl

theorem walkMembers_of_failure {visit : NamespaceId → String → Trail α → Trail α}
    {path key message : String} {m : Member α} (h : m.read = .failure message) (t : Trail α) :
    walkMembers visit path [(key, m)] t = t := by
  rw [walkMembers, h]
  rfl

theorem Steady.read (h : g.Steady) {id : NamespaceId} {m : String × Member α}
    (hm : m ∈ g.members id) :
    (∃ e, m.2.read = .entity e) ∨ ∃ message, m.2.read = .failure message := by
  have hmaker := h id m hm
  cases hread : m.2 with
  | entity e => exact .inl ⟨e, rfl⟩
  | getter e => exact .inl ⟨e, rfl⟩
  | failing message => exact .inr ⟨message, rfl⟩
  | maker made => exact absurd hread (hmaker made)

/-- Entering a namespace below `start`, with so much fuel, sees to all that this makes it enter. -/
def Explores (g : Graph α) (fuel : Nat) : Prop :=
  ∀ (id : NamespaceId) (before : List String) (t : Trail α), (∀ key ∈ before, key ≠ "") →
    (g.unentered t).length < fuel →
    let t' := g.visit fuel id (".".intercalate before) t
    id ∈ t'.entered ∧ ∃ sites, Sweeps g id before (fun n _ => t.Enters t' n) sites t t'

section Members

variable {fuel : Nat} {id : NamespaceId} {before : List String}

theorem exists_sweeps_idle {t : Trail α} {i : Nat} (hnone : ∀ key e, g.Holds id i key e →
    (∀ f, e ≠ .callable f) ∧ ∀ next, e ≠ .nested next) :
    ∃ sites, Sweeps g id before (fun n j => t.Enters t n ∨ n = id ∧ j = i) sites t t ∧
      ∀ s ∈ sites, ∃ rest, s.places = i :: rest := by
  refine ⟨[], .nothing ?_ t, fun s hs => absurd hs List.not_mem_nil⟩
  intro n j key e hd hh
  obtain ⟨rfl, rfl⟩ := hd.resolve_left fun hn => hn.2 hn.1
  exact hnone key e hh

/-- One member: it is listed, or entered, or there is nothing to do about it. -/
theorem exists_sweeps_member (hsteady : g.Steady) (hvisit : Explores g fuel)
    (hbefore : ∀ key ∈ before, key ≠ "") {t : Trail α} (hfuel : (g.unentered t).length < fuel)
    {i : Nat} {key : String} {m : Member α} (hkey : key ≠ "")
    (hm : (g.members id)[i]? = some (key, m)) :
    let t' := walkMembers (g.visit fuel) (".".intercalate before) [(key, m)] t
    ∃ sites, Sweeps g id before (fun n j => t.Enters t' n ∨ n = id ∧ j = i) sites t t' ∧
      ∀ s ∈ sites, ∃ rest, s.places = i :: rest := by
  rcases hsteady.read (List.mem_of_getElem? hm) with ⟨e, he⟩ | ⟨message, hfails⟩
  case inr =>
    rw [walkMembers_of_failure hfails]
    refine exists_sweeps_idle ?_
    intro key' e ⟨_, m', hm', he⟩
    cases hm.symm.trans hm'
    cases hfails.symm.trans he
  case inl =>
    rw [walkMembers_of_read he]
    cases hskip : skippedKeys.contains key with
    | true =>
      rw [walkEntities_of_skipped _ _ hskip]
      refine exists_sweeps_idle ?_
      intro key' e' ⟨hnot, m', hm', _⟩
      cases hm.symm.trans hm'
      exact absurd (List.contains_iff_mem.mp hskip) hnot
    | false =>
      have hholds : g.Holds id i key e :=
        ⟨fun hmem => Bool.false_ne_true (hskip ▸ List.contains_iff_mem.mpr hmem), m, hm, he⟩
      cases e with
      | callable f =>
        rw [walkEntities_callable _ _ hskip, memberPath_intercalate hbefore]
        refine ⟨_, (Sweeps.single hholds t).congr ?_, ?_⟩
        · intro n j
          exact ⟨.inr, fun hd => hd.resolve_left fun hn => hn.2 hn.1⟩
        · intro s hs
          obtain rfl := List.mem_singleton.mp hs
          exact ⟨[], rfl⟩
      | nested next =>
        rw [walkEntities_nested _ _ hskip, memberPath_intercalate hbefore]
        have hkeys : ∀ k ∈ before ++ [key], k ≠ "" := by
          intro k hk
          rcases List.mem_append.mp hk with hk | hk
          · exact hbefore k hk
          · exact List.mem_singleton.mp hk ▸ hkey
        obtain ⟨hentered, sites, hsweeps⟩ := hvisit next (before ++ [key]) t hkeys hfuel
        refine ⟨_, hsweeps.through hholds hentered, ?_⟩
        intro s hs
        obtain ⟨s, -, rfl⟩ := List.mem_map.mp hs
        exact ⟨_, s.places_under i key⟩
      | list items =>
        rw [walkEntities_list]
        refine exists_sweeps_idle ?_
        intro key' e' hh
        obtain ⟨-, rfl⟩ := hholds.unique hh
        exact ⟨nofun, nofun⟩
      | data j =>
        rw [walkEntities_data]
        refine exists_sweeps_idle ?_
        intro key' e' hh
        obtain ⟨-, rfl⟩ := hholds.unique hh
        exact ⟨nofun, nofun⟩

theorem exists_sweeps_members (hsteady : g.Steady) (hkeys : ∀ id, ∀ key ∈ g.keys id, key ≠ "")
    (hvisit : Explores g fuel) (hbefore : ∀ key ∈ before, key ≠ "") :
    ∀ (ms : List (String × Member α)) (i : Nat) (t : Trail α),
      (∀ j, (g.members id)[i + j]? = ms[j]?) → id ∈ t.entered →
      (ms ≠ [] → (g.unentered t).length < fuel) →
      let t' := walkMembers (g.visit fuel) (".".intercalate before) ms t
      ∃ sites, Sweeps g id before (fun n j => t.Enters t' n ∨ n = id ∧ i ≤ j) sites t t' ∧
        ∀ s ∈ sites, ∃ j rest, i ≤ j ∧ s.places = j :: rest := by
  intro ms
  induction ms with
  | nil =>
    intro i t hms hid hfuel
    refine ⟨[], .nothing ?_ t, fun s hs => absurd hs List.not_mem_nil⟩
    intro n j key e hd ⟨_, m, hm, _⟩
    rcases hd with hd | ⟨rfl, hle⟩
    · exact absurd hd.1 hd.2
    · have hnone := hms (j - i)
      rw [Nat.add_sub_cancel' hle, hm] at hnone
      cases hnone
  | cons m ms ih =>
    intro i t hms hid hfuel
    have hfuel : (g.unentered t).length < fuel := hfuel (List.cons_ne_nil _ _)
    have hm : (g.members id)[i]? = some m := hms 0
    have hkey : m.1 ≠ "" := hkeys id m.1 (List.mem_map_of_mem (List.mem_of_getElem? hm))
    obtain ⟨first, hfirst, hplace⟩ :=
      exists_sweeps_member hsteady hvisit hbefore hfuel hkey hm
    rw [walkMembers_cons]
    generalize walkMembers (g.visit fuel) (".".intercalate before) [(m.1, m.2)] t = t₁ at hfirst
    have hnext : ∀ j, (g.members id)[i + 1 + j]? = ms[j]? := by
      intro j
      rw [Nat.add_assoc, Nat.add_comm 1 j]
      exact hms (j + 1)
    obtain ⟨rest, hrest, hplaces⟩ := ih (i + 1) t₁ hnext (hfirst.kept id hid)
      fun _ => Nat.lt_of_le_of_lt (length_unentered_le hfirst.kept) hfuel
    generalize walkMembers (g.visit fuel) (".".intercalate before) ms t₁ = t₂ at hrest
    refine ⟨first ++ rest, (hfirst.append hrest ?_ ?_).congr ?_, ?_⟩
    · rintro n j (hd | ⟨rfl, rfl⟩) (hd' | ⟨hn, hle⟩)
      · exact hd'.2 hd.1
      · exact hd.2 (hn ▸ hid)
      · exact hd'.2 (hfirst.kept n hid)
      · exact Nat.not_succ_le_self j hle
    · intro s hs s' hs'
      obtain ⟨r, hr⟩ := hplace s hs
      obtain ⟨j, r', hle, hr'⟩ := hplaces s' hs'
      rw [hr, hr']
      exact List.cons_lt_cons_iff.mpr (.inl hle)
    · intro n j
      have hkept := hfirst.kept n
      have hkept' := hrest.kept n
      simp only [Trail.Enters]
      grind
    · intro s hs
      rcases List.mem_append.mp hs with hs | hs
      · obtain ⟨r, hr⟩ := hplace s hs
        exact ⟨i, r, Nat.le_refl i, hr⟩
      · obtain ⟨j, r, hle, hr⟩ := hplaces s hs
        exact ⟨j, r, Nat.le_of_succ_le hle, hr⟩

end Members

/-- A walk is never deeper than there are namespaces, so it does not run out of fuel. -/
theorem explores (hsteady : g.Steady) (hkeys : ∀ id, ∀ key ∈ g.keys id, key ≠ "") (fuel : Nat) :
    Explores g fuel := by
  induction fuel with
  | zero =>
    intro id before t _ hfuel
    exact absurd hfuel (Nat.not_lt_zero _)
  | succ fuel ih =>
    intro id before t hbefore hfuel
    by_cases hid : id ∈ t.entered
    · have hvisit : g.visit (fuel + 1) id (".".intercalate before) t = t := by
        rw [visit, if_pos (by simpa using hid)]
      rw [hvisit]
      refine ⟨hid, [], .nothing ?_ t⟩
      intro n j key e hd
      exact absurd hd.1 hd.2
    · rw [visit_of_not_mem hid]
      have hleft : g.members id ≠ [] →
          (g.unentered { t with entered := id :: t.entered }).length < fuel := by
        intro hne
        have hlt : id < g.size := by
          refine Nat.lt_of_not_le ?_
          intro hle
          exact hne (members_of_size_le hle)
        have := length_unentered_lt (t := t) hlt hid
        omega
      obtain ⟨sites, hsweeps, -⟩ := exists_sweeps_members hsteady hkeys ih hbefore (g.members id) 0
        { t with entered := id :: t.entered } (fun j => by rw [Nat.zero_add]) List.mem_cons_self
        hleft
      generalize walkMembers (g.visit fuel) (".".intercalate before) (g.members id)
        { t with entered := id :: t.entered } = t' at hsweeps
      have hself : id ∈ t'.entered := hsweeps.kept id List.mem_cons_self
      have hdue : ∀ (n : NamespaceId) (j : Nat),
          Trail.Enters { t with entered := id :: t.entered } t' n ∨ n = id ∧ 0 ≤ j ↔
            t.Enters t' n := by
        intro n j
        simp only [Trail.Enters, List.mem_cons, not_or]
        grind
      have hsweeps := hsweeps.congr hdue
      refine ⟨hself, sites, hsweeps.found, ?_, hsweeps.stands, hsweeps.listed, hsweeps.followed,
        hsweeps.once, hsweeps.ordered⟩
      exact fun n hn => hsweeps.kept n (List.mem_cons_of_mem _ hn)

/-- What a walk has entered when it is over is all that can be reached from there. -/
theorem Leads.mem_entered {t : Trail α}
    (hclosed : ∀ id i key next, id ∈ t.entered → g.Holds id i key (.nested next) →
      next ∈ t.entered) {id last : NamespaceId} {way : List (Nat × String)}
    (h : g.Leads id way last) (hid : id ∈ t.entered) : last ∈ t.entered := by
  induction h with
  | here id => exact hid
  | into hmember _ ih => exact ih (hclosed _ _ _ _ hid hmember)

/-- **A walk finds what can be reached, each once, and in order.**  Take any graph whose keys are
not empty and whose accessors give one entity each or fail, and any of its namespaces.  The walk
from there finds sites: callables under keys that are followed, in namespaces to which the way of
the site leads.  Each callable of each namespace to which any way leads is among them, and no
member is there twice.  A site is exported under the keys on its way, with dots between them; and
the ways, as lists of places, come in lexicographic order. -/
theorem walk_eq_map_sites (hsteady : g.Steady) (hkeys : ∀ id, ∀ key ∈ g.keys id, key ≠ "")
    (root : NamespaceId) :
    ∃ sites : List (Site α),
      g.walk (.nested root) "" =
          sites.map (fun s => ⟨".".intercalate s.keys, displayName s.key, s.target⟩) ∧
        (∀ s ∈ sites, s.StandsBelow g root) ∧
        (∀ way id i key f, g.Leads root way id → g.Holds id i key (.callable f) →
          ∃ s ∈ sites, s.home = id ∧ s.key = key ∧ s.target = f) ∧
        (sites.map fun s => (s.home, s.key)).Nodup ∧
        (sites.map Site.places).Pairwise (· < ·) := by
  have hnone : ∀ id : NamespaceId, id ∉ (⟨[], []⟩ : Trail α).entered := fun _ => List.not_mem_nil
  have hfuel : (g.unentered ⟨[], []⟩).length < g.size + 1 := by
    have hle : (g.unentered ⟨[], []⟩).length ≤ (List.range g.size).length :=
      List.length_filter_le _ _
    rw [List.length_range] at hle
    exact Nat.lt_succ_of_le hle
  obtain ⟨hroot, sites, h⟩ := explores hsteady hkeys (g.size + 1) root [] ⟨[], []⟩
    (fun key hkey => absurd hkey List.not_mem_nil) hfuel
  rw [String.intercalate_nil] at hroot h
  rw [walk]
  generalize g.visit (g.size + 1) root "" ⟨[], []⟩ = t at hroot h
  have hclosed : ∀ id i key next, id ∈ t.entered → g.Holds id i key (.nested next) →
      next ∈ t.entered := by
    intro id i key next hid hmember
    exact h.followed id i key next ⟨hid, hnone id⟩ hmember
  refine ⟨sites, ?_, fun s hs => (h.stands s hs).1, ?_, ?_, h.ordered⟩
  · rw [h.found, List.nil_append]
    rfl
  · intro way id i key f hway hmember
    have hid : id ∈ t.entered := hway.mem_entered hclosed hroot
    obtain ⟨s, hs, rfl, rfl⟩ := h.listed id i key f ⟨hid, hnone id⟩ hmember
    obtain ⟨hkey, htarget⟩ := (h.stands s hs).1.holds.unique hmember
    exact ⟨s, hs, rfl, hkey, Entity.callable.inj htarget⟩
  · -- a key has one place in its namespace
    rw [List.Nodup, List.pairwise_map]
    refine (List.pairwise_map.mp h.once).imp_of_mem ?_
    intro s s' hs hs' hne heq
    obtain ⟨hhome, hkey⟩ := Prod.mk.inj heq
    have hmember := (h.stands s hs).1.holds
    rw [hhome, hkey] at hmember
    exact hne (Prod.ext hhome (hmember.place_unique (h.stands s' hs').1.holds))

theorem exists_of_mem_members {id : NamespaceId} {m : String × Member α} (h : m ∈ g.members id) :
    ∃ n ∈ g.namespaces, m ∈ n.members := by
  rw [members] at h
  cases hn : g.namespaces[id]? with
  | none =>
    rw [hn] at h
    exact absurd h List.not_mem_nil
  | some n =>
    rw [hn] at h
    exact ⟨n, List.mem_of_getElem? hn, h⟩

/-- Two namespaces that lead to each other and to themselves, one of them also by two names. -/
def tangle : Graph Nat :=
  ⟨[⟨[("f", .entity (.callable 1)), ("b", .getter (.nested 1)), ("broken", .failing "closed"),
        ("self", .entity (.nested 0)), ("again", .entity (.nested 1)),
        ("constructor", .entity (.callable 2))], none, by decide⟩,
      ⟨[("back", .entity (.nested 0)), ("list", .entity (.list [.callable 3])),
        ("api/g@1", .entity (.callable 4))], some 0, by decide⟩]⟩

/-- Both callables are found, and the second one by the first of its ways. -/
theorem walk_tangle :
    tangle.Steady ∧ (∀ id, ∀ key ∈ tangle.keys id, key ≠ "") ∧
      (tangle.walk (.nested 0) "").map (fun x => (x.path, x.displayName, x.target)) =
        [("f", "f", 1), ("b.api/g@1", "g", 4)] ∧
      ∃ sites : List (Site Nat),
        (tangle.walk (.nested 0) "").length = sites.length ∧
          ∀ way id i key f, tangle.Leads 0 way id → tangle.Holds id i key (.callable f) →
            ∃ s ∈ sites, s.home = id ∧ s.key = key ∧ s.target = f := by
  have hsteady : tangle.Steady := by
    intro id m hm made hmade
    obtain ⟨n, hn, hmem⟩ := exists_of_mem_members hm
    simp only [tangle, List.mem_cons, List.not_mem_nil, or_false] at hn
    rcases hn with rfl | rfl <;> simp only [List.mem_cons, List.not_mem_nil, or_false] at hmem
    · rcases hmem with rfl | rfl | rfl | rfl | rfl | rfl <;> cases hmade
    · rcases hmem with rfl | rfl | rfl <;> cases hmade
  have hkeys : ∀ id, ∀ key ∈ tangle.keys id, key ≠ "" := by
    intro id key hkey hempty
    obtain ⟨m, hm, rfl⟩ := List.mem_map.mp hkey
    obtain ⟨n, hn, hmem⟩ := exists_of_mem_members hm
    simp only [tangle, List.mem_cons, List.not_mem_nil, or_false] at hn
    rcases hn with rfl | rfl <;> simp only [List.mem_cons, List.not_mem_nil, or_false] at hmem
    · rcases hmem with rfl | rfl | rfl | rfl | rfl | rfl <;> simp at hempty
    · rcases hmem with rfl | rfl | rfl <;> simp at hempty
  obtain ⟨sites, hwalk, -, hall, -, -⟩ := walk_eq_map_sites hsteady hkeys 0
  refine ⟨hsteady, hkeys, by decide +kernel, sites, ?_, hall⟩
  rw [hwalk, List.length_map]

end Graph

end ComponentHost
