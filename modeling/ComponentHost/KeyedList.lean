/-
# `ComponentHost.KeyedList` — lists of entries with a key each

Members of a namespace and generated files are kept in the order in which their
keys first came up.  Setting a key that is there changes its value and moves
nothing; a new key goes to the end.
-/

namespace ComponentHost

/-- The list with `key` set to `value`: in its place if the key is there, else at the end. -/
def setKey {β : Type} (key : String) (value : β) : List (String × β) → List (String × β)
  | [] => [(key, value)]
  | (k, v) :: rest => if k = key then (key, value) :: rest else (k, v) :: setKey key value rest

/-- Setting a key keeps the other keys, and adds at most that one. -/
theorem mem_keys_setKey {β : Type} {key k : String} {value : β} {l : List (String × β)}
    (h : k ∈ (setKey key value l).map (·.1)) : k = key ∨ k ∈ l.map (·.1) := by
  induction l with
  | nil => simpa [setKey] using h
  | cons e l ih =>
    obtain ⟨e, v⟩ := e
    by_cases he : e = key
    · rw [setKey, if_pos he, List.map_cons, List.mem_cons] at h
      exact h.imp_right (List.mem_cons_of_mem _)
    · rw [setKey, if_neg he, List.map_cons, List.mem_cons] at h
      rcases h with rfl | h
      · exact .inr List.mem_cons_self
      · exact (ih h).imp_right (List.mem_cons_of_mem _)

theorem nodup_keys_setKey {β : Type} (key : String) (value : β) {l : List (String × β)}
    (h : (l.map (·.1)).Nodup) : ((setKey key value l).map (·.1)).Nodup := by
  induction l with
  | nil => simp [setKey]
  | cons e l ih =>
    obtain ⟨k, v⟩ := e
    rw [List.map_cons, List.nodup_cons] at h
    by_cases he : k = key
    · subst he
      simpa [setKey] using h
    · simp only [setKey, he, if_false, List.map_cons, List.nodup_cons]
      refine ⟨fun hk => ?_, ih h.2⟩
      rcases mem_keys_setKey hk with rfl | hk
      · exact he rfl
      · exact h.1 hk

end ComponentHost
