/-
# `ComponentHost.Proofs.Namespace.Setting` — what setting members in turn comes to

A namespace that is filled by setting one member after the other, with some keys set more
than once, is known by the list of what was set:

    keys       those of the list, each where it first comes up
    members    under each key the last one of the list
-/
import ComponentHost.Proofs.Namespace.Graph
import Mathlib.Data.List.Induction

namespace ComponentHost

/-! ## Setting one member -/

theorem keys_setKey {β : Type} (key : String) (value : β) : ∀ l : List (String × β),
    (setKey key value l).map (·.1) =
      if key ∈ l.map (·.1) then l.map (·.1) else l.map (·.1) ++ [key] := by
  intro l
  induction l with
  | nil => rfl
  | cons e l ih =>
    obtain ⟨k, v⟩ := e
    by_cases he : k = key
    · simp [setKey, he]
    · simp only [setKey, if_neg he, List.map_cons, ih, List.mem_cons, Ne.symm he, false_or]
      split <;> rfl

theorem mem_setKey_of_nodup {β : Type} {key : String} {value : β} {e : String × β} :
    ∀ {l : List (String × β)}, (l.map (·.1)).Nodup → e ∈ setKey key value l →
      e = (key, value) ∨ e ∈ l ∧ e.1 ≠ key := by
  intro l
  induction l with
  | nil =>
    intro _ h
    exact .inl (List.mem_singleton.mp h)
  | cons e' l ih =>
    intro hnodup h
    obtain ⟨k, v⟩ := e'
    obtain ⟨hk, hnodup⟩ := List.nodup_cons.mp hnodup
    rw [setKey] at h
    split at h
    · rename_i heq
      rcases List.mem_cons.mp h with rfl | h
      · exact .inl rfl
      · refine .inr ⟨List.mem_cons_of_mem _ h, ?_⟩
        intro he
        have hmem : e.1 ∈ l.map (·.1) := List.mem_map_of_mem h
        rw [he, ← heq] at hmem
        exact hk hmem
    · rename_i hne
      rcases List.mem_cons.mp h with rfl | h
      · exact .inr ⟨List.mem_cons_self, hne⟩
      · exact (ih hnodup h).imp_right fun h => ⟨List.mem_cons_of_mem _ h.1, h.2⟩

/-! ## Setting members in turn -/

namespace Namespace

variable {α : Type}

theorem mem_members_setAll_of_last {m : String × Member α} :
    ∀ {ms : List (String × Member α)} {n : Namespace α}, m ∈ (n.setAll ms).members →
      m ∈ ms ∨ m ∈ n.members ∧ m.1 ∉ ms.map (·.1) := by
  intro ms
  induction ms with
  | nil =>
    intro n h
    exact .inr ⟨h, List.not_mem_nil⟩
  | cons m' ms ih =>
    intro n h
    rcases ih (n := n.set m'.1 m'.2) h with h | ⟨h, hlater⟩
    · exact .inl (List.mem_cons_of_mem _ h)
    · rcases mem_setKey_of_nodup n.distinct h with rfl | ⟨h, hne⟩
      · exact .inl List.mem_cons_self
      · refine .inr ⟨h, ?_⟩
        rw [List.map_cons, List.mem_cons, not_or]
        exact ⟨hne, hlater⟩

theorem setAll_append (ms ms' : List (String × Member α)) (n : Namespace α) :
    n.setAll (ms ++ ms') = (n.setAll ms).setAll ms' := List.foldl_append

theorem members_setAll_congr {n n' : Namespace α} (h : n.members = n'.members)
    (ms : List (String × Member α)) : (n.setAll ms).members = (n'.setAll ms).members := by
  induction ms generalizing n n' with
  | nil => exact h
  | cons m ms ih => exact ih (congrArg (setKey m.1 m.2) h)

/-- The keys come in the order in which they first come up. -/
theorem keys_ofList (parent : Option NamespaceId) (ms : List (String × Member α)) :
    (ofList parent ms).members.map (·.1) = (ms.map (·.1)).eraseDups := by
  induction ms using List.reverseRecOn with
  | nil => rfl
  | append_singleton ms m ih =>
    have hset : (ofList parent (ms ++ [m])).members =
        setKey m.1 m.2 (ofList parent ms).members := by
      rw [ofList, List.foldl_append]
      rfl
    rw [hset, keys_setKey, ih, List.map_append, List.eraseDups_append]
    by_cases hmem : m.1 ∈ ms.map (·.1)
    · rw [if_pos (List.mem_eraseDups.mpr hmem)]
      simp [List.removeAll, hmem]
    · rw [if_neg fun h => hmem (List.mem_eraseDups.mp h)]
      simp [List.removeAll, hmem, List.eraseDups_cons]

end Namespace

theorem Graph.members_insertAll_ofList {α : Type} {g : Graph α} {id : NamespaceId}
    (hid : id < g.size) {parent : Option NamespaceId} {ms : List (String × Member α)}
    (h : g.members id = (Namespace.ofList parent ms).members) (ms' : List (String × Member α)) :
    (g.insertAll id ms').members id = (Namespace.ofList parent (ms ++ ms')).members := by
  have hn : g.namespaces[id]? = some g.namespaces[id] := List.getElem?_eq_getElem hid
  have hmembers : g.namespaces[id].members = (Namespace.ofList parent ms).members := by
    rw [members, hn] at h
    exact h
  rw [members_insertAll_self, hn]
  exact (Namespace.members_setAll_congr hmembers ms').trans
    (congrArg Namespace.members (Namespace.setAll_append ms ms' _).symm)

end ComponentHost
