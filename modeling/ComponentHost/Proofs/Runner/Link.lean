/-
# `ComponentHost.Proofs.Runner.Link` — binary files, their handles and their locators

Linking against a fresh table gives the binary files of a set handles in a row.  The
place of a name among those files decides everything: which handle stands for it,
which resource the handle resolves to, and which locator relinking writes.

    name  ──place──▶  k  ──▶  handle `first + k`  ──resolve──▶  the k-th binary file

Names of binary files end in `.wasm`, so neither a locator nor a text that ends with
white space or a bracket is one.
-/
import ComponentHost.Proofs.Entry.Template
import ComponentHost.Proofs.Resource.Table
import ComponentHost.Runner.Build

namespace ComponentHost

open Entry (plainName relinkText targetOf OpenEnd)

def Handle.nth (first : Nat) {n : Nat} (k : Fin n) : Handle := ⟨first + k⟩

theorem Handle.range_succ (first n : Nat) :
    range first (n + 1) = ⟨first⟩ :: range (first + 1) n := by
  simp [range, List.range'_succ]

namespace FileSet

variable (s : FileSet)

/-- The place of a name among the binary files. -/
def place (name : List Char) : Option (Fin s.binaries.length) :=
  s.binaries.findFinIdx? (·.1 == String.ofList name)

def resource (k : Fin s.binaries.length) : Resource :=
  ⟨s.binaries[k].1, s.binaries[k].2⟩

theorem length_resources : s.resources.length = s.binaries.length := List.length_map _

variable {s}

theorem filename_of_place {name : List Char} {k : Fin s.binaries.length}
    (h : s.place name = some k) : (s.resource k).filename = String.ofList name := by
  have hp := (List.findFinIdx?_eq_some_iff.mp h).1
  exact eq_of_beq hp

theorem suffix_of_place {name : List Char} {k : Fin s.binaries.length}
    (h : s.place name = some k) : binarySuffix.toList <:+ name := by
  have hname := filename_of_place h
  have hbinary : isBinaryName s.binaries[k].1 = true :=
    (List.mem_filter.mp (List.getElem_mem (l := s.binaries) k.isLt)).2
  rw [show s.binaries[k].1 = String.ofList name from hname] at hbinary
  rw [isBinaryName, Text.endsWith, String.toList_ofList, List.isPrefixOf_iff_prefix,
    List.reverse_prefix] at hbinary
  exact hbinary

theorem place_locator (H : Handle) : s.place H.locator.toList = none := by
  cases h : s.place H.locator.toList with
  | none => rfl
  | some k =>
    have hw : 'w' ∈ H.locator.toList := (suffix_of_place h).subset (by decide)
    exact absurd hw (Entry.not_mem_locator (by decide))

theorem place_of_openEnd {name : List Char} (hopen : OpenEnd name) : s.place name = none := by
  cases h : s.place name with
  | none => rfl
  | some k =>
    obtain ⟨c, hc, hopen⟩ := hopen
    obtain ⟨before, rfl⟩ := suffix_of_place h
    have hlast : binarySuffix.toList.getLast? = some 'm' := by decide
    rw [List.getLast?_append, hlast] at hc
    cases hc
    exact absurd hopen (by decide)

/-! ## Locators and resources -/

theorem lookup_zip_range (name : String) :
    ∀ (files : List (String × ByteArray)) (first : Nat),
      ((files.map (·.1)).zip (Handle.range first files.length)).lookup name =
        (files.findFinIdx? (·.1 == name)).map (Handle.nth first)
  | [], _ => rfl
  | f :: files, first => by
      have hrange : Handle.range first (f :: files).length =
          ⟨first⟩ :: Handle.range (first + 1) files.length := Handle.range_succ ..
      rw [hrange, List.map_cons, List.zip_cons_cons, List.lookup_cons, List.findFinIdx?_cons]
      by_cases h : f.1 = name
      · simp [h, Handle.nth]
      · have hne : (name == f.1) = false := by simpa using Ne.symm h
        have hne' : (f.1 == name) = false := by simpa using h
        simp only [hne, hne', lookup_zip_range name files (first + 1)]
        cases files.findFinIdx? (·.1 == name) with
        | none => rfl
        | some k => simp [Handle.nth, Nat.add_assoc, Nat.add_comm 1]

theorem toList_link (s : FileSet) (first : Nat) (source : String) :
    (s.link (Handle.range first s.binaries.length) source).toList =
      relinkText (targetOf s.place (Handle.nth first)) source.toList := by
  rw [link, Entry.relink, String.toList_ofList]
  congr 1
  funext name
  rw [locatorOf, lookup_zip_range, targetOf, place, Option.map_map, Option.map_map]
  rfl

/-- The table with the binary files of the set in it, and no others. -/
def table (s : FileSet) (first : Nat) : ResourceTable :=
  ((ResourceTable.empty first).createAll s.resources).2

theorem createAll_resources (s : FileSet) (first : Nat) :
    (ResourceTable.empty first).createAll s.resources =
      (Handle.range first s.binaries.length, s.table first) := by
  rw [table, ResourceTable.createAll_eq, length_resources]
  rfl

theorem handles_table (s : FileSet) (first : Nat) :
    (s.table first).handles = Handle.range first s.binaries.length := by
  have h := ResourceTable.handles_createAll (.empty first) s.resources
  rw [createAll_resources] at h
  exact h

theorem resolve_nth (first : Nat) (k : Fin s.binaries.length) :
    (s.table first).resolve (Handle.nth first k).locator = some (s.resource k) := by
  have hnodup : (s.table first).handles.Nodup := by
    rw [handles_table]
    exact Handle.nodup_range ..
  refine ResourceTable.resolve_locator hnodup ?_
  rw [table, ResourceTable.createAll_eq, length_resources]
  refine List.mem_append_right _ (List.mem_iff_getElem.mpr ⟨k, ?_, ?_⟩)
  · simp [length_resources]
  · simp [Handle.range, Handle.nth, resources, resource, ResourceTable.empty]

theorem resolve_absent {first : Nat} {locator : String} (h : Handle.Absent locator.toList) :
    (s.table first).resolve locator = none := by
  refine ResourceTable.resolve_eq_none_iff.mpr fun H _ hH => ?_
  exact h.ne_locator H (congrArg String.toList hH)

end FileSet

end ComponentHost
