/-
# `ComponentHost.Proofs.Runner.Meaning` — relinking keeps the meaning of a source

A linked source is evaluated against a table of handles.  What it is linked from can be
evaluated as well, when its locators are looked up among the files of its set:

    static, deferred, relative location    the binary file of that name, without one `./`
    location that is not relative          no file

`FileSet.find` is that lookup, and knows nothing of handles, of references or of text.
Both evaluations end alike: with the same graph and the same instances, or with the
same error.
-/
import ComponentHost.Proofs.Entry.Pass
import ComponentHost.Proofs.Entry.Step
import ComponentHost.Proofs.Runner.Link

namespace ComponentHost

open Entry (plainName targetOf OpenEnd ImportForm Statement Line BindLine Loader Linkage Linked)

/-! ## Files by their names -/

def withoutDot : List Char → List Char
  | '.' :: '/' :: cs => cs
  | cs => cs

namespace FileSet

/-- The binary file that a locator names in a statement of the form. -/
def find (s : FileSet) : ImportForm → String → Option Resource
  | .location false, _ => none
  | _, locator => s.resources.find? (·.filename == String.ofList (withoutDot locator.toList))

variable {s : FileSet}

theorem find?_resources (name : List Char) :
    s.resources.find? (·.filename == String.ofList name) = (s.place name).map s.resource := by
  rw [resources, List.find?_map, List.find?_eq_map_findFinIdx?_getElem, Option.map_map]
  rfl

/-- It does not matter that the dot is kept where nothing else would be left. -/
theorem place_withoutDot (name : List Char) :
    s.place (withoutDot name) = s.place (plainName name) := by
  have hnone : ∀ {name : List Char}, ¬ binarySuffix.toList <:+ name → s.place name = none := by
    intro name hname
    cases h : s.place name with
    | none => rfl
    | some k => exact absurd (suffix_of_place h) hname
  unfold withoutDot
  split
  · rename_i cs
    cases cs with
    | nil =>
      show s.place [] = s.place ['.', '/']
      rw [hnone (by decide), hnone (by decide)]
    | cons c cs => rfl
  · rename_i hne
    unfold plainName
    split
    · rename_i c cs
      exact absurd rfl (hne (c :: cs))
    · rfl

/-- Statements of all forms but one name the file in the place of their name. -/
theorem find_eq {form : ImportForm} (hform : form ≠ .location false) (locator : List Char) :
    s.find form (String.ofList locator) = (s.place (plainName locator)).map s.resource := by
  have hfind : ∀ locator : String, s.find form locator =
      s.resources.find? (·.filename == String.ofList (withoutDot locator.toList)) := by
    intro locator
    rcases form with _ | _ | _ | _
    · rfl
    · rfl
    · exact absurd rfl hform
    · rfl
  rw [hfind, String.toList_ofList, find?_resources, place_withoutDot]

end FileSet

/-! ## Locators that are written -/

theorem Entry.OpenEnd.plainName {name : List Char} (h : OpenEnd name) :
    OpenEnd (Entry.plainName name) := by
  unfold Entry.plainName
  split
  · rename_i c cs
    obtain ⟨d, hd, hopen⟩ := h
    refine ⟨d, ?_, hopen⟩
    rwa [List.getLast?_cons_cons, List.getLast?_cons_cons] at hd
  · exact h

/-- Relinking to handles writes what can be read again and is the name of no file. -/
theorem FileSet.legible (s : FileSet) (first : Nat) :
    Entry.Legible (targetOf s.place (Handle.nth first)) := by
  have hwritten : ∀ {name locator}, targetOf s.place (Handle.nth first) name = some locator →
      ∃ H : Handle, locator = H.locator.toList := by
    intro name locator h
    obtain ⟨k, -, rfl⟩ := Option.map_eq_some_iff.mp h
    exact ⟨Handle.nth first k, rfl⟩
  constructor
  case target_of_openEnd =>
    intro name hopen
    rw [targetOf, place_of_openEnd hopen.plainName]
    rfl
  case quiet =>
    intro name locator h
    obtain ⟨H, rfl⟩ := hwritten h
    exact Entry.quiet_locator H
  case ne_nil =>
    intro name locator h
    obtain ⟨H, rfl⟩ := hwritten h
    obtain ⟨cs, hcs⟩ := Entry.locator_cons H
    rw [hcs]
    exact List.cons_ne_nil _ _
  case unbroken =>
    intro name locator h
    obtain ⟨H, rfl⟩ := hwritten h
    exact Entry.not_mem_locator (by decide)
  case not_openEnd =>
    intro name locator h
    obtain ⟨H, rfl⟩ := hwritten h
    exact Entry.not_openEnd_locator (List.nil_append _).symm
  case target_locator =>
    intro name locator h
    obtain ⟨H, rfl⟩ := hwritten h
    rw [Entry.plainName_locator, targetOf, place_locator]
    rfl

/-! ## Evaluating lines -/

namespace Entry

namespace Loader

variable (l : Loader) {resolve resolve' : ImportForm → String → Option Resource}

theorem run_append (k : Linkage) (ss ss' : List Statement) :
    l.run resolve k (ss ++ ss') = (l.run resolve k ss).bind fun k => l.run resolve k ss' := by
  induction ss generalizing k with
  | nil => rfl
  | cons statement ss ih =>
    rw [List.cons_append, run, run]
    cases l.step resolve k statement with
    | error e => rfl
    | ok k => exact ih k

theorem run_of_isBind {ss : List Statement} (h : ∀ statement ∈ ss, statement.isBind = false)
    (k : Linkage) : l.run resolve k ss = l.run resolve' k ss := by
  induction ss generalizing k with
  | nil => rfl
  | cons statement ss ih =>
    obtain ⟨hhead, htail⟩ := List.forall_mem_cons.mp h
    have hstep : l.step resolve k statement = l.step resolve' k statement := by
      cases statement with
      | bind form binding locator => cases hhead
      | exportAll binding => rfl
      | exportDefault binding => rfl
    rw [run, run, hstep]
    cases l.step resolve' k statement with
    | error e => rfl
    | ok k => exact ih htail k

theorem step_found {form : ImportForm} {binding locator : String} {r : Resource}
    (h : resolve form locator = some r) (k : Linkage) :
    l.step resolve k (.bind form binding locator) =
      if (k.bindings.lookup binding).isSome then .error (.duplicate binding)
      else (l.instantiate r).map fun (c, i) => k.bind binding c i := by
  rw [step, h]

/-- What comes behind a locator that stands for nothing is not evaluated. -/
theorem run_missed {form : ImportForm} {binding locator : String}
    (h : resolve form locator = none) (h' : resolve' form locator = none) (k : Linkage)
    (ss ss' : List Statement) :
    l.run resolve k (.bind form binding locator :: ss) =
      l.run resolve' k (.bind form binding locator :: ss') := by
  rw [run, run, step, step, h, h']
  cases (k.bindings.lookup binding).isSome <;> rfl

/-- What lines say before and after relinking comes to the same, when locators that are written are
looked up as the names they stand for, and the others stand for nothing. -/
theorem run_linked {target : List Char → Option (List Char)} (ht : Legible target)
    {ls ls' : List Line} (h : Linked (· ≠ .location false) target ls ls')
    (hfound : ∀ {form name locator}, form ≠ .location false →
      target (plainName name) = some locator → ∃ r, resolve form (String.ofList name) = some r ∧
        ∀ form', resolve' form' (String.ofList locator) = some r)
    (hmissed : ∀ b, .bind b ∈ ls →
      (b.form ≠ .location false → target (plainName b.locator) = none) →
        resolve b.form (String.ofList b.locator) = none ∧
          resolve' b.form (String.ofList b.locator) = none) (k : Linkage) :
    l.run resolve k (ls.flatMap Line.statements) =
      l.run resolve' k (ls'.flatMap Line.statements) := by
  induction h generalizing k with
  | nil => rfl
  | @plain p ls ls' _ ih =>
    have hplain : l.run resolve k p.statements = l.run resolve' k p.statements :=
      l.run_of_isBind p.binds_nothing k
    have hmissed := fun b hb => hmissed b (List.mem_cons_of_mem _ hb)
    rw [List.flatMap_cons, List.flatMap_cons, l.run_append, l.run_append, Line.statements,
      hplain]
    cases l.run resolve' k p.statements with
    | error e => rfl
    | ok k => exact ih hmissed k
  | kept b hb _ _ =>
    obtain ⟨hnone, hnone'⟩ := hmissed b List.mem_cons_self hb
    exact l.run_missed hnone hnone' k _ _
  | @found b b' ls ls' hform hname hlocator _ ih =>
    have hmissed := fun b hb => hmissed b (List.mem_cons_of_mem _ hb)
    -- the two statements differ in form and locator only, and both are looked up as `r`
    obtain ⟨r, hr, hr'⟩ := hfound hform hlocator
    show l.run resolve k (b.statement :: ls.flatMap Line.statements) =
      l.run resolve' k (b'.statement :: ls'.flatMap Line.statements)
    rw [BindParts.statement, BindParts.statement, run, run, l.step_found hr,
      l.step_found (hr' b'.form), hname]
    split
    · exact ih hmissed _
    · rfl
  | lost b hopen =>
    obtain ⟨hnone, hnone'⟩ := hmissed b List.mem_cons_self fun _ => ht.target_of_openEnd hopen
    exact l.run_missed hnone hnone' k _ _

/-- The instance is one of the component that the statement's locator is looked up as. -/
def Makes (resolve : ImportForm → String → Option Resource) : Statement → Instance → Prop
  | .bind form _ locator, i =>
    ∃ r c, resolve form locator = some r ∧ l.instantiate r = .ok (c, i)
  | _, _ => False

theorem instances_step {k k' : Linkage} {statement : Statement}
    (h : l.Steps resolve k statement k') :
    statement.isBind = false ∧ k'.instances = k.instances ∨
      statement.isBind = true ∧ ∃ i, l.Makes resolve statement i ∧
        k'.instances = k.instances ++ [i] := by
  cases h with
  | @bind _ _ _ r c i _ hr hi => exact .inr ⟨rfl, i, ⟨r, c, hr, hi⟩, rfl⟩
  | exportAll _ => exact .inl ⟨rfl, rfl⟩
  | exportDefault _ => exact .inl ⟨rfl, rfl⟩

theorem instances_run {k k' : Linkage} {ss : List Statement} (h : l.run resolve k ss = .ok k') :
    ∃ made, k'.instances = k.instances ++ made ∧
      List.Forall₂ (l.Makes resolve) (ss.filter Statement.isBind) made := by
  induction ss generalizing k with
  | nil =>
    cases h
    exact ⟨[], (List.append_nil _).symm, .nil⟩
  | cons statement ss ih =>
    obtain ⟨k₁, hstep, hrun⟩ := l.exists_steps_of_run h
    obtain ⟨made, hmade, hall⟩ := ih hrun
    rcases l.instances_step hstep with ⟨hbind, hsame⟩ | ⟨hbind, i, hi, hsame⟩
    · refine ⟨made, by rw [hmade, hsame], ?_⟩
      rwa [List.filter_cons_of_neg (by simp [hbind])]
    · refine ⟨i :: made, by simp [hmade, hsame], ?_⟩
      rw [List.filter_cons_of_pos hbind]
      exact .cons hi hall

end Loader

end Entry

/-! ## A linked source and the source it is linked from -/

namespace FileSet

/-- The instance is one of the component in the bytes of the binary file that the statement
names. -/
def Provides (s : FileSet) (l : Loader) : Statement → Instance → Prop
  | .bind form _ locator, i =>
    form ≠ .location false ∧
      ∃ bytes c, (String.ofList (withoutDot locator.toList), bytes) ∈ s.binaries ∧
        l.engine.compile bytes = .ok c ∧ c.instantiate l.limit = .ok i
  | _, _ => False

theorem mem_of_find {s : FileSet} {form : ImportForm} {locator : String} {r : Resource}
    (h : s.find form locator = some r) :
    form ≠ .location false ∧
      (String.ofList (withoutDot locator.toList), r.bytes) ∈ s.binaries := by
  have hform : form ≠ .location false := by
    rintro rfl
    cases h
  rw [← String.ofList_toList (s := locator), find_eq hform, ← place_withoutDot,
    ← find?_resources] at h
  refine ⟨hform, ?_⟩
  have hname : (r.filename == String.ofList (withoutDot locator.toList)) = true :=
    List.find?_some (p := fun r : Resource => r.filename == _) h
  obtain ⟨file, hmem, rfl⟩ := List.mem_map.mp (List.mem_of_find?_eq_some h)
  rwa [← eq_of_beq hname]

theorem provides_of_makes {s : FileSet} {l : Loader} {statement : Statement} {i : Instance}
    (h : l.Makes s.find statement i) : s.Provides l statement i := by
  cases statement with
  | bind form binding locator =>
    obtain ⟨r, c, hr, hinstantiate⟩ := h
    obtain ⟨hform, hmem⟩ := mem_of_find hr
    rw [Loader.instantiate] at hinstantiate
    split at hinstantiate
    · cases hinstantiate
    · rename_i c' hcompile
      split at hinstantiate
      · cases hinstantiate
      · rename_i i' hi
        cases hinstantiate
        exact ⟨hform, r.bytes, c, hmem, hcompile, hi⟩
  | exportAll binding => exact h
  | exportDefault binding => exact h

variable {s : FileSet} {first : Nat}

/-- A locator that is written resolves to the file that is found for the name it stands for. -/
theorem find_of_target {form : ImportForm} {name locator : List Char}
    (hform : form ≠ .location false)
    (h : targetOf s.place (Handle.nth first) (plainName name) = some locator) :
    ∃ r, s.find form (String.ofList name) = some r ∧
      (s.table first).resolve (String.ofList locator) = some r := by
  obtain ⟨k, hk, rfl⟩ := Option.map_eq_some_iff.mp h
  refine ⟨s.resource k, ?_, ?_⟩
  · rw [find_eq hform, hk]
    rfl
  · rw [String.ofList_toList, resolve_nth]

theorem find_eq_none {form : ImportForm} {name : List Char}
    (h : form ≠ .location false →
      targetOf s.place (Handle.nth first) (plainName name) = none) :
    s.find form (String.ofList name) = none := by
  by_cases hform : form = .location false
  · rw [hform]
    rfl
  · rw [find_eq hform, Option.map_eq_none_iff.mp (h hform)]
    rfl

/-- The statements of lines come to the same, looked up among the files, as those of the lines that
they are linked to, looked up in the table. -/
theorem run_find (l : Loader) {cs : List Char} {ls ls' : List Line}
    (hls : '\n' :: cs = Entry.unlines ls)
    (habsent : ∀ H ∈ Handle.range first s.binaries.length, ¬ H.locator.toList <:+: cs)
    (h : Linked (· ≠ .location false) (targetOf s.place (Handle.nth first)) ls ls') (k : Linkage) :
    l.run s.find k (ls.flatMap Line.statements) =
      l.run (fun _ locator => (s.table first).resolve locator) k (ls'.flatMap Line.statements) := by
  refine l.run_linked (s.legible first) h ?_ ?_ k
  · intro form name locator hform htarget
    obtain ⟨r, hr, hr'⟩ := find_of_target hform htarget
    exact ⟨r, hr, fun _ => hr'⟩
  · intro b hb hnone
    refine ⟨find_eq_none hnone, ?_⟩
    rw [ResourceTable.resolve_eq_none_iff, handles_table]
    intro H hH heq
    refine habsent H hH ?_
    rw [heq, String.toList_ofList]
    exact b.locator_part.trans (Entry.text_part hls hb)

/-- **Relinking keeps the meaning of a source.**  A source that is linked to fresh handles is
evaluated as it would be with its locators looked up among the files: with the same graph and the
same instances, or with the same error; and each binding is an instance of the component in the
file that its statement names. -/
theorem load_linked (s : FileSet) (l : Loader) {first : Nat} {handles : List Handle}
    {live : ResourceTable}
    (hfill : (ResourceTable.empty first).createAll s.resources = (handles, live))
    {source : String} {statements : List Statement} (hparse : Entry.parse source = .ok statements)
    (hcomments : ∀ line ∈ Text.splitAt '\n' source.toList,
      Entry.IsComment line → Entry.Quiet line)
    (habsent : ∀ H ∈ handles, ¬ H.locator.toList <:+: source.toList) :
    Module.load l (s.link handles source) live =
        (l.run s.find .initial statements).map
          (fun k => ⟨k.graph, k.instances, s.link handles source⟩) ∧
      ∀ m, Module.load l (s.link handles source) live = .ok m →
        List.Forall₂ (s.Provides l) (statements.filter Statement.isBind) m.instances := by
  rw [createAll_resources] at hfill
  obtain ⟨rfl, rfl⟩ := Prod.mk.inj hfill
  obtain ⟨ls, hls⟩ := Entry.unlines_of_parse hparse hcomments
  obtain ⟨ls', htext, hlinked⟩ := Entry.relinkText_lines (s.legible first) ls
  have hstatements : statements = ls.flatMap Line.statements := by
    have hsame := hparse.symm.trans (Entry.parse_of_unlines hls)
    cases hsame
    rfl
  -- the linked source is made of the lines that the passes leave
  have hlink : '\n' :: (s.link (Handle.range first s.binaries.length) source).toList =
      Entry.unlines ls' := by
    rw [toList_link, ← Entry.relinkText_break, hls, htext]
  have hrun := run_find l hls habsent hlinked .initial
  have hload : Module.load l (s.link (Handle.range first s.binaries.length) source)
      (s.table first) = (l.run s.find .initial statements).map fun k =>
        ⟨k.graph, k.instances, s.link (Handle.range first s.binaries.length) source⟩ := by
    rw [Module.load, Entry.parse_of_unlines hlink, hstatements, hrun]
    simp only
    cases l.run (fun _ locator => (s.table first).resolve locator) .initial
      (ls'.flatMap Line.statements) <;> rfl
  refine ⟨hload, ?_⟩
  intro m hm
  rw [hload] at hm
  cases hk : l.run s.find .initial statements with
  | error e =>
    rw [hk] at hm
    cases hm
  | ok k =>
    rw [hk] at hm
    cases hm
    obtain ⟨made, hmade, hall⟩ := l.instances_run hk
    show List.Forall₂ (s.Provides l) _ k.instances
    rw [hmade]
    exact hall.imp fun _ _ h => provides_of_makes h

def pairFiles : FileSet := .ofList [("a.wasm", ⟨#[1]⟩), ("b.wasm", ⟨#[2]⟩)]

def pairSource : String :=
  "// pair\nimport a from \"./a.wasm';\nconst b = await import( 'b.wasm' )\nexport * from b"

def plainLoader : Loader := ⟨⟨fun _ => .ok ⟨[], 0, [], .ok ⟨0, 0⟩⟩⟩, none⟩

theorem pairSource_absent (H : Handle) : ¬ H.locator.toList <:+: pairSource.toList :=
  Handle.absent_of_not_mem (c := ':') (by decide) (by decide) H

theorem load_linked_pair :
    let made := (ResourceTable.empty 5).createAll pairFiles.resources
    Module.load plainLoader (pairFiles.link made.1 pairSource) made.2 =
      (plainLoader.run pairFiles.find .initial
        [.bind .static "a" "./a.wasm", .bind .deferred "b" "b.wasm", .exportAll "b"]).map
        fun k => ⟨k.graph, k.instances, pairFiles.link made.1 pairSource⟩ := by
  intro made
  exact (load_linked pairFiles plainLoader rfl rfl (by decide)
    fun H _ => pairSource_absent H).1

end FileSet

end ComponentHost
