/-
# `ComponentHost.Proofs.Namespace.Path` — what a dotted path says

A namespace has one member with each key, so the keys on a way say where it leads, and
those on the way to a callable say which callable it is (`Site.StandsBelow.unique`).
Written with dots between them they say less, because a key may hold dots of its own:

    keys on the way     a   b      written    a.b
                        a.b                   a.b

When two callables have one path, their ways part in some namespace that has a member
`key` to go on through, and beside it a member `key.rest` (`Graph.Blurs`).
-/
import ComponentHost.Proofs.Namespace.Walk

namespace ComponentHost

/-! ## Keys with dots between them -/

def dotted (keys : List String) : List Char := keys.flatMap fun key => '.' :: key.toList

theorem toList_intercalate_cons (key : String) (keys : List String) :
    (".".intercalate (key :: keys)).toList = key.toList ++ dotted keys := by
  induction keys generalizing key with
  | nil => simp [dotted]
  | cons key' keys ih =>
    rw [String.intercalate_cons_cons, String.toList_append, String.toList_append, ih, dotted,
      dotted, List.flatMap_cons, List.append_assoc]
    rfl

/-- Different keys that are written alike are the same up to one place, and there the one goes on
behind a dot where the other one has the dot in it. -/
theorem exists_of_intercalate_eq {keys keys' : List String} (hne : keys ≠ keys')
    (hnil : keys ≠ []) (hnil' : keys' ≠ []) (h : ".".intercalate keys = ".".intercalate keys') :
    ∃ before key after key' after' rest, keys = before ++ key :: after ∧
      keys' = before ++ key' :: after' ∧
        (after ≠ [] ∧ key' = key ++ "." ++ rest ∨ after' ≠ [] ∧ key = key' ++ "." ++ rest) := by
  -- a key that is longer than another one starts with it and with the dot behind it
  have hlonger : ∀ {key key' : String} {a : List Char} {ks : List String} {r : List Char},
      key ≠ key' → key'.toList = key.toList ++ a → dotted ks = a ++ r →
      ks ≠ [] ∧ ∃ rest, key' = key ++ "." ++ rest := by
    intro key key' a ks r hkey ha hks
    cases a with
    | nil => exact absurd (String.toList_injective (by rw [ha, List.append_nil])) hkey
    | cons c a =>
      cases ks with
      | nil => cases hks
      | cons k ks =>
        obtain ⟨rfl, -⟩ := List.cons.inj hks
        refine ⟨List.cons_ne_nil _ _, String.ofList a, String.toList_injective ?_⟩
        simp [ha]
  induction keys generalizing keys' with
  | nil => exact absurd rfl hnil
  | cons key ks ih =>
    obtain ⟨key', ks', rfl⟩ := List.exists_cons_of_ne_nil hnil'
    have hlist := congrArg String.toList h
    rw [toList_intercalate_cons, toList_intercalate_cons] at hlist
    by_cases hkey : key = key'
    · subst hkey
      have hrest : dotted ks = dotted ks' := List.append_cancel_left hlist
      have hks : ks ≠ ks' := fun hks => hne (congrArg _ hks)
      cases ks with
      | nil =>
        obtain ⟨k', ks', rfl⟩ := List.exists_cons_of_ne_nil hks.symm
        cases hrest
      | cons k ks =>
        cases ks' with
        | nil => cases hrest
        | cons k' ks' =>
          have hsame : ".".intercalate (k :: ks) = ".".intercalate (k' :: ks') := by
            apply String.toList_injective
            rw [toList_intercalate_cons, toList_intercalate_cons]
            exact (List.cons.inj hrest).2
          obtain ⟨before, key₁, after, key₁', after', rest, hk, hk', hparts⟩ :=
            ih hks (List.cons_ne_nil _ _) (List.cons_ne_nil _ _) hsame
          exact ⟨key :: before, key₁, after, key₁', after', rest, congrArg _ hk, congrArg _ hk',
            hparts⟩
    · rcases List.append_eq_append_iff.mp hlist with ⟨a, ha, hks⟩ | ⟨a, ha, hks⟩
      · obtain ⟨hafter, rest, hrest⟩ := hlonger hkey ha hks
        exact ⟨[], key, ks, key', ks', rest, rfl, rfl, .inl ⟨hafter, hrest⟩⟩
      · obtain ⟨hafter, rest, hrest⟩ := hlonger (Ne.symm hkey) ha hks
        exact ⟨[], key, ks, key', ks', rest, rfl, rfl, .inr ⟨hafter, hrest⟩⟩

/-- A path that goes on behind a key starts with the keys up to there and a dot. -/
theorem exists_intercalate_append (before : List String) (key : String) {after : List String}
    (hafter : after ≠ []) :
    ∃ rest, ".".intercalate (before ++ key :: after) =
      ".".intercalate (before ++ [key]) ++ "." ++ rest := by
  refine ⟨".".intercalate after, ?_⟩
  rw [List.append_cons, String.intercalate_append_of_ne_nil (by simp) hafter]

/-! ## Ways and their keys -/

namespace Graph

variable {α : Type} {g : Graph α}

theorem Leads.unique {start last last' : NamespaceId} {way way' : List (Nat × String)}
    (h : g.Leads start way last) (h' : g.Leads start way' last')
    (hkeys : way.map (·.2) = way'.map (·.2)) : way = way' ∧ last = last' := by
  induction h generalizing way' with
  | here id =>
    cases h' with
    | here => exact ⟨rfl, rfl⟩
    | into _ _ => cases hkeys
  | into hmember _ ih =>
    cases h' with
    | here => cases hkeys
    | into hmember' h' =>
      obtain ⟨rfl, hrest⟩ := List.cons.inj hkeys
      obtain rfl := hmember.place_unique hmember'
      obtain ⟨-, hnext⟩ := hmember.unique hmember'
      cases hnext
      obtain ⟨rfl, rfl⟩ := ih h' hrest
      exact ⟨rfl, rfl⟩

/-- What a way to a callable goes through at one of its keys: a namespace, as long as keys
follow. -/
theorem Leads.exists_holds {start home : NamespaceId} {way : List (Nat × String)}
    (h : g.Leads start way home) {place : Nat} {last : String} {f : α}
    (hlast : g.Holds home place last (.callable f)) {before after : List String} {key : String}
    (hkeys : way.map (·.2) ++ [last] = before ++ key :: after) :
    ∃ way' id i e, way'.map (·.2) = before ∧ g.Leads start way' id ∧ g.Holds id i key e ∧
      (after ≠ [] → ∃ next, e = .nested next) := by
  induction h generalizing before with
  | here id =>
    cases before with
    | nil =>
      obtain ⟨rfl, rfl⟩ := List.cons.inj hkeys
      exact ⟨[], id, place, _, rfl, .here id, hlast, fun hne => absurd rfl hne⟩
    | cons k before => simp at hkeys
  | @into id next home i k way hmember _ ih =>
    cases before with
    | nil =>
      obtain ⟨rfl, -⟩ := List.cons.inj hkeys
      exact ⟨[], id, i, _, rfl, .here id, hmember, fun _ => ⟨next, rfl⟩⟩
    | cons k' before =>
      obtain ⟨rfl, hrest⟩ := List.cons.inj hkeys
      obtain ⟨way', id', i', e, rfl, hway, hholds, hnested⟩ := ih hlast hrest
      exact ⟨(i, k) :: way', id', i', e, rfl, .into hmember hway, hholds, hnested⟩

/-- The way ends in a namespace with a member `key` to go on through, and beside it a member whose
key is that one, a dot and more. -/
def Blurs (g : Graph α) (start : NamespaceId) (way : List (Nat × String)) (key : String) : Prop :=
  ∃ id i i' rest e next, g.Leads start way id ∧ g.Holds id i key (.nested next) ∧
    g.Holds id i' (key ++ "." ++ rest) e

end Graph

/-! ## Callables and their paths -/

namespace Site

variable {α : Type} {g : Graph α} {start : NamespaceId} {s s' : Site α}

theorem StandsBelow.unique (h : s.StandsBelow g start) (h' : s'.StandsBelow g start)
    (hkeys : s.keys = s'.keys) : s = s' := by
  have hsplit : ∀ s : Site α, s.keys = s.way.map (·.2) ++ [s.key] := fun s => List.map_append
  rw [hsplit, hsplit] at hkeys
  obtain ⟨hway, hkey⟩ := List.append_inj' hkeys rfl
  obtain ⟨way, home, place, key, target⟩ := s
  obtain ⟨way', home', place', key', target'⟩ := s'
  obtain ⟨rfl, rfl⟩ := h.leads.unique h'.leads hway
  obtain ⟨rfl, -⟩ := List.cons.inj hkey
  obtain rfl := h.holds.place_unique h'.holds
  obtain ⟨-, htarget⟩ := h.holds.unique h'.holds
  cases htarget
  rfl

theorem StandsBelow.place_unique {start' : NamespaceId} (h : s.StandsBelow g start)
    (h' : s'.StandsBelow g start') (hhome : s.home = s'.home) (hkey : s.key = s'.key) :
    (s.home, s.place) = (s'.home, s'.place) := by
  have hholds := h.holds
  rw [hhome, hkey] at hholds
  rw [hhome, hholds.place_unique h'.holds]

/-- Callables with one path are the same, or the path is blurred. -/
theorem StandsBelow.eq_or_blurs (h : s.StandsBelow g start) (h' : s'.StandsBelow g start)
    (hpath : ".".intercalate s.keys = ".".intercalate s'.keys) :
    s = s' ∨ ∃ way key rest, g.Blurs start way key ∧
      ".".intercalate s.keys = ".".intercalate (way.map (·.2) ++ [key]) ++ "." ++ rest := by
  by_cases hkeys : s.keys = s'.keys
  · exact .inl (h.unique h' hkeys)
  have hnil : ∀ s : Site α, s.keys ≠ [] := fun s => by simp [Site.keys, Site.route]
  have hsplit : ∀ s : Site α, s.keys = s.way.map (·.2) ++ [s.key] := fun s => List.map_append
  obtain ⟨before, key, after, key', after', rest, hk, hk', hparts⟩ :=
    exists_of_intercalate_eq hkeys (hnil s) (hnil s') hpath
  obtain ⟨way, id, i, e, rfl, hway, hholds, hnested⟩ :=
    h.leads.exists_holds h.holds ((hsplit s).symm.trans hk)
  obtain ⟨way', id', i', e', hbefore, hway', hholds', hnested'⟩ :=
    h'.leads.exists_holds h'.holds ((hsplit s').symm.trans hk')
  obtain ⟨rfl, rfl⟩ := hway'.unique hway hbefore
  rcases hparts with ⟨hafter, rfl⟩ | ⟨hafter, rfl⟩
  · obtain ⟨next, rfl⟩ := hnested hafter
    obtain ⟨more, hmore⟩ := exists_intercalate_append (way'.map (·.2)) key hafter
    exact .inr ⟨way', key, more, ⟨id', i, i', rest, e', next, hway', hholds, hholds'⟩, hk ▸ hmore⟩
  · obtain ⟨next, rfl⟩ := hnested' hafter
    obtain ⟨more, hmore⟩ := exists_intercalate_append (way'.map (·.2)) key' hafter
    refine .inr ⟨way', key', more, ⟨id', i', i, rest, e, next, hway', hholds', hholds⟩, ?_⟩
    rw [hpath, hk', hmore]

end Site

/-! ## What a walk lists -/

namespace Graph

variable {α : Type} {g : Graph α}

/-- A walk lists sites below the namespace it starts in, each place once. -/
theorem exists_sites (hsteady : g.Steady) (hkeys : ∀ id, ∀ key ∈ g.keys id, key ≠ "")
    (start : NamespaceId) :
    ∃ sites : List (Site α), g.walk (.nested start) "" = sites.map (Site.toExport []) ∧
      (∀ s ∈ sites, s.StandsBelow g start) ∧ (sites.map fun s => (s.home, s.place)).Nodup := by
  have hfuel : (g.unentered ⟨[], []⟩).length < g.size + 1 := by
    have hle : (g.unentered ⟨[], []⟩).length ≤ (List.range g.size).length :=
      List.length_filter_le _ _
    rw [List.length_range] at hle
    exact Nat.lt_succ_of_le hle
  obtain ⟨-, sites, h⟩ := explores hsteady hkeys (g.size + 1) start [] ⟨[], []⟩
    (fun key hkey => absurd hkey List.not_mem_nil) hfuel
  exact ⟨sites, h.found, fun s hs => (h.stands s hs).1, h.once⟩

theorem walk_pairwise (hsteady : g.Steady) (hkeys : ∀ id, ∀ key ∈ g.keys id, key ≠ "")
    {start : NamespaceId} {R : Export α → Export α → Prop}
    (h : ∀ s s' : Site α, s.StandsBelow g start → s'.StandsBelow g start →
      (s.home, s.place) ≠ (s'.home, s'.place) → R (s.toExport []) (s'.toExport [])) :
    (g.walk (.nested start) "").Pairwise R := by
  obtain ⟨sites, hsites, hstands, honce⟩ := exists_sites hsteady hkeys start
  rw [hsites, List.pairwise_map]
  refine (List.pairwise_map.mp honce).imp_of_mem ?_
  intro s s' hs hs' hne
  exact h s s' (hstands s hs) (hstands s' hs') hne

end Graph

end ComponentHost
