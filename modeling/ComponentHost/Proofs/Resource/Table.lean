/-
# `ComponentHost.Proofs.Resource.Table` — what drawing and revoking do to a table

Handles are drawn in one run of numbers, so a table is described by its entries and
the next number.  The three operations in these terms:

    createAll rs    entries ++ new handles with rs, the numbers from `next` on are used up
    revokeAll hs    the entries whose handle is not in hs
    resolve         the resource behind a live handle, and nothing for any other text

Revoking what was just drawn, and revoking all there is, are the two cases that the
states of a runner need.
-/
import ComponentHost.Proofs.Resource.Locator
import ComponentHost.Resource.Table

namespace ComponentHost

/-! ## Runs of handles -/

def Handle.range (first count : Nat) : List Handle :=
  (List.range' first count).map Handle.mk

namespace Handle

@[simp]
theorem length_range (first count : Nat) : (range first count).length = count := by
  simp [range]

theorem mem_range {first count : Nat} {H : Handle} :
    H ∈ range first count ↔ first ≤ H.serial ∧ H.serial < first + count := by
  simp only [range, List.mem_map, List.mem_range'_1]
  constructor
  · rintro ⟨n, hn, rfl⟩
    exact hn
  · exact fun h => ⟨H.serial, h, rfl⟩

theorem nodup_range (first count : Nat) : (range first count).Nodup := by
  refine List.Nodup.map ?_ (List.nodup_range' ..)
  intro m n h
  exact congrArg Handle.serial h

end Handle

namespace ResourceTable

/-- The live handles, in the order of their creation. -/
def handles (t : ResourceTable) : List Handle :=
  t.entries.map (·.1)

/-! ## Creating -/

theorem createAll_eq :
    ∀ (t : ResourceTable) (rs : List Resource),
      t.createAll rs =
        (Handle.range t.next rs.length,
          ⟨t.entries ++ (Handle.range t.next rs.length).zip rs, t.next + rs.length⟩)
  | t, [] => by simp [createAll, Handle.range]
  | t, r :: rs => by
      simp [createAll, create, createAll_eq, Handle.range, List.range'_succ, Nat.add_comm 1,
        Nat.add_assoc]

theorem handles_createAll (t : ResourceTable) (rs : List Resource) :
    (t.createAll rs).2.handles = t.handles ++ (t.createAll rs).1 := by
  simp only [createAll_eq, handles, List.map_append]
  congr 1
  exact List.map_fst_zip (by simp)

/-! ## Revoking -/

theorem revokeAll_snd :
    ∀ (t : ResourceTable) (hs : List Handle),
      (t.revokeAll hs).2 = ⟨t.entries.filter (·.1 ∉ hs), t.next⟩
  | t, [] => by simp [revokeAll]
  | t, h :: hs => by
      simp only [revokeAll, revoke, revokeAll_snd, List.filter_filter, List.mem_cons, not_or]
      congr 2
      funext e
      by_cases he : e.1 = h <;> simp [he]

theorem revokeAll_handles (t : ResourceTable) : (t.revokeAll t.handles).2 = empty t.next := by
  rw [revokeAll_snd, empty]
  congr 1
  refine List.filter_eq_nil_iff.mpr fun e he => ?_
  have hlive : e.1 ∈ t.handles := List.mem_map_of_mem he
  simpa using hlive

/-- Revoking what was just drawn leaves what was there before; the numbers stay used up. -/
theorem revokeAll_createAll {t : ResourceTable} (ht : ∀ H ∈ t.handles, H.serial < t.next)
    (rs : List Resource) :
    ((t.createAll rs).2.revokeAll (t.createAll rs).1).2 = ⟨t.entries, t.next + rs.length⟩ := by
  simp only [revokeAll_snd, createAll_eq, List.filter_append]
  congr 1
  have hold : t.entries.filter (·.1 ∉ Handle.range t.next rs.length) = t.entries := by
    refine List.filter_eq_self.mpr fun e he => ?_
    have hlt := ht e.1 (List.mem_map_of_mem he)
    simp only [Handle.mem_range, decide_eq_true_eq]
    omega
  have hnew : ((Handle.range t.next rs.length).zip rs).filter
      (·.1 ∉ Handle.range t.next rs.length) = [] := by
    refine List.filter_eq_nil_iff.mpr fun e he => ?_
    simpa using (List.of_mem_zip (a := e.1) (b := e.2) he).1
  rw [hold, hnew, List.append_nil]

/-! ## Resolving -/

theorem resolve_eq_none_iff {t : ResourceTable} {text : String} :
    t.resolve text = none ↔ ∀ H ∈ t.handles, H.locator ≠ text := by
  simp [resolve, handles]

theorem resolve_locator {t : ResourceTable} (hn : t.handles.Nodup) {H : Handle} {r : Resource}
    (h : (H, r) ∈ t.entries) : t.resolve H.locator = some r := by
  rw [resolve]
  cases hf : t.entries.find? (fun e => e.1.locator == H.locator) with
  | none =>
      have := List.find?_eq_none.mp hf _ h
      simp at this
  | some e =>
      have hloc : e.1.locator = H.locator := by simpa using List.find?_some hf
      have hkey : e.1 = H := Handle.locator_injective hloc
      have hmem : e ∈ t.entries := List.mem_of_find?_eq_some hf
      have he : e = (H, r) := List.inj_on_of_nodup_map hn hmem h hkey
      rw [he]
      rfl

theorem map_resolve_handles {t : ResourceTable} (hn : t.handles.Nodup) :
    t.handles.map (fun H => t.resolve H.locator) = t.entries.map (fun e => some e.2) := by
  rw [handles, List.map_map]
  exact List.map_congr_left fun e he => resolve_locator hn he

end ResourceTable

end ComponentHost
