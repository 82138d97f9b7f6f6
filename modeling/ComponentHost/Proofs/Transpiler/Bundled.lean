/-
# `ComponentHost.Proofs.Transpiler.Bundled` — which names the bundled transpiler can take

The name in the options is written into the entry source as it is, in a comment and in a
reference:

    1    // Generated from NAME
    2    import component from './NAME.core.wasm';
    3    export * from component;

A name with a line break goes on to lines of its own behind the comment, and a name with a
quotation mark ends the reference early.  So it depends on the name what becomes of the source:

    the name                              linked to the handle    read as
    no mark, its further lines silent     yes                     the two statements
    no mark, a further line speaks        yes                     an error, or more statements
    a mark                                no                      an error, or a binding to `./…`

The name of a run is `component`, which is of the first kind.
-/
import ComponentHost.Proofs.Entry.Parse
import ComponentHost.Proofs.Entry.Pass
import ComponentHost.Proofs.Runner.Link

namespace ComponentHost

open Text (trim)

/-! ## A text with one reference -/

namespace Entry

variable {target : List Char → Option (List Char)}

theorem Shape.Sound.relink_eq_self {s : Shape} (hs : s.Sound)
    (htarget : ∀ L, Quiet L → target (plainName L) = none) (cs : List Char) :
    s.relink target cs = cs := by
  induction hn : cs.length using Nat.strongRecOn generalizing cs with
  | _ n ih =>
    subst hn
    cases cs with
    | nil => rfl
    | cons c cs =>
      cases hread : s.read (c :: cs) with
      | none => rw [Shape.relink_of_none hread, ih _ (Nat.lt_succ_self _) cs rfl]
      | some x =>
        obtain ⟨name, rest⟩ := x
        obtain ⟨A, q, L, q', C, hcut, -, -, hL, -, -, -, hafter, rfl⟩ := hs.read_eq_some hread
        obtain ⟨P, rfl, -, -⟩ := hs.after_taken hafter
        have hsplit : c :: cs = (A ++ q :: (L ++ q' :: P)) ++ rest := by
          rw [hcut]
          simp
        rw [hsplit] at hread ⊢
        have hlt : rest.length < (c :: cs).length := by
          rw [hsplit]
          simp
          omega
        rw [Shape.relink_of_some (by simp) hread, htarget L hL, ih _ hlt rest rfl]
        rfl

theorem relinkText_eq_self (htarget : ∀ L, Quiet L → target (plainName L) = none)
    (cs : List Char) : relinkText target cs = cs := by
  rw [relinkText, Shape.static_sound.relink_eq_self htarget,
    Shape.deferred_sound.relink_eq_self htarget, Shape.relative_sound.relink_eq_self htarget]

/-- A static import that stands alone is replaced, and the later passes leave it. -/
theorem relinkText_static {X L C : List Char} (hX : Quiet X) (hL : Quiet L) (hne : L ≠ [])
    (hC : Quiet C) {H : Handle} (htarget : target (plainName L) = some H.locator.toList) :
    relinkText target (X ++ ("from ".toList ++ '\'' :: (L ++ '\'' :: C))) =
      X ++ ("from ".toList ++ '\'' :: (H.locator.toList ++ '\'' :: C)) := by
  have hmark : isQuote '\'' = true := by decide
  have hfrom : Quiet "from ".toList := by decide
  have hbefore : eat Shape.static.before "from ".toList = some [] := by decide
  have hstatic : Shape.static.relink target (X ++ ("from ".toList ++ '\'' :: (L ++ '\'' :: C))) =
      X ++ ("from ".toList ++ '\'' :: (H.locator.toList ++ '\'' :: C)) := by
    have hsplit : "from ".toList ++ '\'' :: (L ++ '\'' :: C) =
        ("from ".toList ++ '\'' :: (L ++ ['\''])) ++ C := by simp
    have hread := Shape.static_sound.read_reference hfrom hmark hL hne hmark hbefore
      (rfl : eat Shape.static.after C = some C)
    rw [Shape.static_sound.relink_up_to hX hfrom hmark hbefore, hsplit,
      Shape.relink_of_some (by simp) (hsplit ▸ hread), htarget,
      Shape.static_sound.relink_of_quiet hC]
    simp [Shape.static]
  -- what is written is passed over: neither part in front of a mark ends the way it would have to
  have hpass : ∀ f : ImportForm, f ≠ .static → f.shape.relink target
      (X ++ ("from ".toList ++ '\'' :: (H.locator.toList ++ '\'' :: C))) =
        X ++ ("from ".toList ++ '\'' :: (H.locator.toList ++ '\'' :: C)) := by
    intro f hf
    have hfront : ∀ A₁ A₂, X ++ "from ".toList = A₁ ++ A₂ → eat f.shape.before A₂ ≠ some [] := by
      intro A₁ A₂ hA hA₂
      have hending := ImportForm.ending_unique (f := .static) hA hbefore hA₂
      cases f with
      | static => exact hf rfl
      | deferred => simp [ImportForm.ending] at hending
      | location b => simp [ImportForm.ending] at hending
    have hlocator : ∀ A₁ A₂, H.locator.toList = A₁ ++ A₂ → eat f.shape.before A₂ ≠ some [] :=
      fun A₁ A₂ hA hA₂ => not_openEnd_locator hA (f.shape_sound.openEnd hA₂)
    rw [← List.append_assoc, f.shape_sound.relink_past_quote (quiet_append.mpr ⟨hX, hfrom⟩) hmark
      hfront, f.shape_sound.relink_past_quote (quiet_locator H) hmark hlocator,
      f.shape_sound.relink_of_quiet hC]
  rw [relinkText, hstatic]
  have hdeferred := hpass .deferred (by decide)
  have hrelative := hpass (.location true) (by decide)
  simp only [ImportForm.shape] at hdeferred hrelative
  rw [hdeferred, hrelative]

end Entry

/-! ## Names that can be written -/

/-- The name can be written into the entry source: it holds no quotation mark, and on each of its
lines but the first it says nothing. -/
def TranspileOptions.Writable (o : TranspileOptions) : Prop :=
  Entry.Quiet o.name.toList ∧
    ∀ line ∈ (Text.splitAt '\n' o.name.toList).tail, Entry.Silent (trim line)

instance (o : TranspileOptions) : Decidable o.Writable :=
  have _silent : DecidablePred fun line => Entry.Silent (trim line) :=
    fun _ => decidable_of_iff _ Entry.silent_iff.symm
  inferInstanceAs (Decidable (_ ∧ ∀ _ ∈ _, _))

namespace Transpiler

open Entry

variable (o : TranspileOptions) (bytes : ByteArray) (exports : List (String × ExportKind))

/-! ## The files and the handle -/

theorem toList_coreFile : (coreFile o).toList = o.name.toList ++ ".core.wasm".toList := by
  simp [coreFile, binarySuffix]

theorem files_bundledFiles : (bundledFiles o bytes exports).files =
    [(o.entryPoint, (bundledSource o).toUTF8), (coreFile o, bytes)] ++
      if o.noTypescript then [] else [(o.name ++ ".d.ts", (declarations exports).toUTF8)] := by
  have hcore : o.entryPoint ≠ coreFile o := by
    rw [TranspileOptions.entryPoint, coreFile, String.append_assoc, Ne, String.append_right_inj]
    decide
  have htypes : o.entryPoint ≠ o.name ++ ".d.ts" ∧ coreFile o ≠ o.name ++ ".d.ts" := by
    rw [TranspileOptions.entryPoint, coreFile, String.append_assoc, Ne, String.append_right_inj, Ne,
      String.append_right_inj]
    decide
  cases hts : o.noTypescript <;>
    simp [bundledFiles, hts, FileSet.insert, FileSet.empty, setKey, hcore, htypes]

theorem binaries_bundledFiles :
    (bundledFiles o bytes exports).binaries = [(coreFile o, bytes)] := by
  have hsource : isBinaryName o.entryPoint = false := by
    simp [isBinaryName, Text.endsWith, TranspileOptions.entryPoint, binarySuffix, List.isPrefixOf]
  have hcore : isBinaryName (coreFile o) = true := by
    simp [isBinaryName, Text.endsWith, coreFile, binarySuffix]
  have htypes : isBinaryName (o.name ++ ".d.ts") = false := by
    simp [isBinaryName, Text.endsWith, binarySuffix, List.isPrefixOf]
  rw [FileSet.binaries, files_bundledFiles]
  cases o.noTypescript <;> simp [hsource, hcore, htypes]

theorem entrySource_bundledFiles :
    (bundledFiles o bytes exports).entrySource o.entryPoint = .ok (bundledSource o) := by
  have hget : (bundledFiles o bytes exports).get? o.entryPoint =
      some (bundledSource o).toUTF8 := by
    rw [FileSet.get?, files_bundledFiles, List.cons_append, List.lookup_cons_self]
  have hvalid : (bundledSource o).toUTF8.IsValidUTF8 := (bundledSource o).isValidUTF8
  simp only [FileSet.entrySource, hget, String.fromUTF8?, dif_pos hvalid]
  rfl

def coreTable (o : TranspileOptions) (bytes : ByteArray) (first : Nat) : ResourceTable :=
  ⟨[(⟨first⟩, ⟨coreFile o, bytes⟩)], first + 1⟩

theorem createAll_bundledFiles (first : Nat) :
    (ResourceTable.empty first).createAll (bundledFiles o bytes exports).resources =
      ([⟨first⟩], coreTable o bytes first) := by
  rw [FileSet.resources, binaries_bundledFiles]
  rfl

theorem resolve_coreTable (first : Nat) :
    (coreTable o bytes first).resolve (Handle.locator ⟨first⟩) = some ⟨coreFile o, bytes⟩ := by
  have hnodup : (coreTable o bytes first).handles.Nodup := List.nodup_singleton _
  exact ResourceTable.resolve_locator hnodup List.mem_cons_self

/-- The locator that a name in a reference is replaced by: that of the handle, for the file with the
bytes. -/
def coreTarget (o : TranspileOptions) (H : Handle) (name : List Char) : Option (List Char) :=
  if name = (coreFile o).toList then some H.locator.toList else none

theorem toList_link_bundledFiles (H : Handle) (source : String) :
    ((bundledFiles o bytes exports).link [H] source).toList =
      Entry.relinkText (coreTarget o H) source.toList := by
  rw [FileSet.link, binaries_bundledFiles, Entry.relink, String.toList_ofList]
  congr 1
  funext name
  rw [coreTarget, locatorOf, List.map_singleton, List.zip_cons_cons, List.zip_nil_left,
    List.lookup_cons, List.lookup_nil]
  by_cases h : name = (coreFile o).toList
  · simp [h]
  · have hne : (String.ofList name == coreFile o) = false := by
      rw [beq_eq_false_iff_ne]
      intro hname
      rw [← hname, String.toList_ofList] at h
      exact h rfl
    simp [h, hne]

/-- No reference has a name with a mark, so with a mark in the name of the file all references are
left as they are. -/
theorem link_bundledFiles_of_not_quiet (h : ¬ Quiet o.name.toList) (H : Handle) (source : String) :
    (bundledFiles o bytes exports).link [H] source = source := by
  have htarget : ∀ L, Quiet L → coreTarget o H (plainName L) = none := by
    intro L hL
    rw [coreTarget, if_neg]
    intro hname
    refine h fun c hc => ?_
    have hplain : Quiet (plainName L) := by
      unfold plainName
      split
      · exact (quiet_cons.mp (quiet_cons.mp hL).2).2
      · exact hL
    rw [hname, toList_coreFile] at hplain
    exact (quiet_append.mp hplain).1 c hc
  rw [String.ext_iff, toList_link_bundledFiles, relinkText_eq_self htarget]

/-! ## The lines of the source -/

/-- What stands in front of the import: a comment, which ends with the first line of the name, and
the further lines of the name. -/
def preamble (o : TranspileOptions) : List Char := "// Generated from ".toList ++ o.name.toList

theorem toList_bundledSource : (bundledSource o).toList =
    preamble o ++ '\n' :: ("import component ".toList ++ ("from ".toList ++ '\'' ::
      ("./".toList ++ (coreFile o).toList ++ '\'' :: ";\nexport * from component;\n".toList))) := by
  have hparts : ∀ a b c d e : String, (a ++ b ++ c ++ d ++ e).toList =
      a.toList ++ b.toList ++ c.toList ++ d.toList ++ e.toList := by simp
  have hassoc : ∀ A X F D L C : List Char, A ++ '\n' :: (X ++ (F ++ '\'' :: D)) ++ L ++ '\'' :: C =
      A ++ '\n' :: (X ++ (F ++ '\'' :: (D ++ L ++ '\'' :: C))) := by simp
  have hfront : "\nimport component from './".toList =
      '\n' :: ("import component ".toList ++ ("from ".toList ++ '\'' :: "./".toList)) := by simp
  have hback : "';\nexport * from component;\n".toList =
      '\'' :: ";\nexport * from component;\n".toList := by simp
  calc (bundledSource o).toList
    _ = preamble o ++ "\nimport component from './".toList ++ (coreFile o).toList ++
        "';\nexport * from component;\n".toList := hparts ..
    _ = preamble o ++ '\n' :: ("import component ".toList ++ ("from ".toList ++ '\'' ::
        "./".toList)) ++ (coreFile o).toList ++
        '\'' :: ";\nexport * from component;\n".toList :=
      congrArg₂ (preamble o ++ · ++ (coreFile o).toList ++ ·) hfront hback
    _ = _ := hassoc ..

/-- The first line is a comment whatever the name, so only the further ones may speak. -/
theorem silent_preamble_iff :
    (∀ line ∈ Text.splitAt '\n' (preamble o), Silent (trim line)) ↔
      ∀ line ∈ (Text.splitAt '\n' o.name.toList).tail, Silent (trim line) := by
  obtain ⟨l, lines, hl⟩ := List.exists_cons_of_ne_nil (Text.splitAt_ne_nil '\n' o.name.toList)
  obtain ⟨cs, hcs⟩ : ∃ cs, "// Generated from ".toList = '/' :: '/' :: cs := ⟨_, rfl⟩
  have hbreak : '\n' ∉ "// Generated from ".toList := by simp
  have hslashes : Silent (trim ('/' :: '/' :: cs ++ l)) := by
    have hend : Text.trimEnd ('/' :: (cs ++ l)) = '/' :: Text.trimEnd (cs ++ l) :=
      Text.trimEnd_append (by decide) [] _
    rw [List.cons_append, List.cons_append, Text.trim_cons (by decide), hend]
    exact .inr (List.prefix_append ['/', '/'] _)
  have hsplit : Text.splitAt '\n' (preamble o) = ('/' :: '/' :: cs ++ l) :: lines :=
    hcs ▸ Text.splitAt_append hbreak hl
  rw [hsplit, hl, List.forall_mem_cons, List.tail_cons]
  exact and_iff_right hslashes

def linkedImport (H : Handle) : (Statement.bind .static "component" H.locator).Layout where
  parts := ["import".toList, [' '], "component".toList, [' '], "from".toList, [' '], ['\''],
    H.locator.toList, ['\''], [';']]
  spells := by
    have hgap : (Symbol.gap).Spells [' '] :=
      ⟨List.cons_ne_nil _ _, List.forall_mem_singleton.mpr (by decide)⟩
    have hmark : Symbol.mark.Spells ['\''] := ⟨'\'', rfl, rfl⟩
    have hletters : "omponent".toList.all Text.isNamePart = true := rfl
    have hname : (Symbol.name "component".toList).Spells "component".toList :=
      ⟨rfl, rfl, List.all_eq_true.mp hletters⟩
    have hlocator : (Symbol.locator H.locator.toList).Spells H.locator.toList :=
      ⟨rfl, Handle.locator_ne_nil H, quiet_locator H⟩
    have hstop : Symbol.stop.Spells [';'] :=
      .inr ⟨[], rfl, fun c hc => absurd hc List.not_mem_nil⟩
    exact .cons rfl (.cons hgap (.cons hname (.cons hgap (.cons rfl (.cons hgap
      (.cons hmark (.cons hlocator (.cons hmark (.cons hstop .nil)))))))))
  unbroken := by
    have hbreak : '\n' ∉ H.locator.toList := not_mem_locator (by decide)
    simp [hbreak]

/-! ## What is read -/

theorem toList_link_of_quiet (h : Quiet o.name.toList) (H : Handle) :
    ((bundledFiles o bytes exports).link [H] (bundledSource o)).toList =
      preamble o ++ '\n' :: ((linkedImport H).text ++ '\n' ::
        ("export * from component;".toList ++ ['\n'])) := by
  have hcore : Quiet (coreFile o).toList := by
    rw [toList_coreFile]
    exact quiet_append.mpr ⟨h, by decide⟩
  have hfront : Quiet (preamble o ++ '\n' :: "import component ".toList) :=
    quiet_append.mpr ⟨quiet_append.mpr ⟨by decide, h⟩, by decide⟩
  have hname : plainName ("./".toList ++ (coreFile o).toList) = (coreFile o).toList := by
    rw [toList_coreFile]
    cases o.name.toList <;> rfl
  have htarget : coreTarget o H (plainName ("./".toList ++ (coreFile o).toList)) =
      some H.locator.toList := by
    rw [hname, coreTarget, if_pos rfl]
  have hrelinked := relinkText_static (C := ";\nexport * from component;\n".toList) hfront
    (quiet_append.mpr ⟨by decide, hcore⟩) (List.cons_ne_nil _ _) (by decide) htarget
  have hassoc : ∀ Y, preamble o ++ '\n' :: "import component ".toList ++ Y =
      preamble o ++ '\n' :: ("import component ".toList ++ Y) := by simp
  have hlines : "import component ".toList ++ ("from ".toList ++ '\'' ::
      (H.locator.toList ++ '\'' :: ";\nexport * from component;\n".toList)) =
      (linkedImport H).text ++ '\n' :: ("export * from component;".toList ++ ['\n']) := by
    simp [Statement.Layout.text, linkedImport]
  rw [hassoc, hassoc, hlines] at hrelinked
  rw [toList_link_bundledFiles, toList_bundledSource]
  exact hrelinked

/-- With a quiet name, what is read is whatever its further lines say, and then the two
statements. -/
theorem parse_link_of_quiet (h : Quiet o.name.toList) (H : Handle) :
    parse ((bundledFiles o bytes exports).link [H] (bundledSource o)) =
      (parseLines 1 (Text.splitAt '\n' (preamble o))).map
        (· ++ [.bind .static "component" H.locator, .exportAll "component"]) := by
  have himport : readLine (linkedImport H).text = some [.bind .static "component" H.locator] :=
    (readLine_eq_some_iff (linkedImport H).unbroken).mpr (linkedImport H).means
  have hexport : readLine "export * from component;".toList = some [.exportAll "component"] := rfl
  have hread : ∀ n, parseLines n [(linkedImport H).text, "export * from component;".toList, []] =
      .ok [.bind .static "component" H.locator, .exportAll "component"] := by
    intro n
    rw [parseLines_cons himport, parseLines_cons hexport]
    rfl
  have hunbroken : '\n' ∉ (linkedImport H).text := (linkedImport H).unbroken
  have hunbroken' : '\n' ∉ "export * from component;".toList := by simp
  rw [parse, toList_link_of_quiet o bytes exports h, Text.splitAt_append_mark,
    Text.splitAt_append_mark, Text.splitAt_append_mark, Text.splitAt_of_not_mem hunbroken,
    Text.splitAt_of_not_mem hunbroken']
  exact parseLines_append hread 1 _

theorem parse_link_of_writable (h : o.Writable) (H : Handle) :
    parse ((bundledFiles o bytes exports).link [H] (bundledSource o)) =
      .ok [.bind .static "component" H.locator, .exportAll "component"] := by
  rw [parse_link_of_quiet o bytes exports h.1,
    parseLines_eq_nil_iff.mpr ((silent_preamble_iff o).mpr h.2)]
  rfl

/-- The entry source as it is written is not read as a binding of a handle: the line with the import
binds what starts with a dot, if it can be read at all. -/
theorem parse_bundledSource_ne {form : ImportForm} {binding : String} (H : Handle) :
    parse (bundledSource o) ≠ .ok [.bind form binding H.locator, .exportAll binding] := by
  intro hparse
  obtain ⟨l, lines, hl⟩ := List.exists_cons_of_ne_nil (Text.splitAt_ne_nil '\n'
    ((coreFile o).toList ++ '\'' :: ";\nexport * from component;\n".toList))
  have hline : "import component from ".toList ++ '\'' :: '.' :: ('/' :: l) ∈
      linesOf (bundledSource o) := by
    have hfront : ∀ Y,
        "import component ".toList ++ ("from ".toList ++ '\'' :: ("./".toList ++ Y)) =
          ("import component from ".toList ++ ['\'', '.', '/']) ++ Y := by simp
    have hunbroken : '\n' ∉ "import component from ".toList ++ ['\'', '.', '/'] := by simp
    rw [linesOf, toList_bundledSource, Text.splitAt_append_mark, List.append_assoc, hfront,
      Text.splitAt_append hunbroken hl, List.append_assoc]
    exact List.mem_append_right _ List.mem_cons_self
  have hbreak := unbroken_of_mem_linesOf hline
  obtain ⟨sss, hmeans, hss⟩ := ((parse_eq_iff _).1 _).mp hparse
  obtain ⟨ss, hmem, hmeans⟩ := exists_of_forall₂ hmeans _ hline
  have hloud : ¬ Silent (trim ("import component from ".toList ++ '\'' :: '.' :: ('/' :: l))) :=
    not_silent_of_cons (by decide) (by decide)
  obtain ⟨form', binding', L, rfl⟩ := hmeans.exists_bind (by decide) rfl hbreak hloud
  -- the locator of a handle starts with a letter
  have hstatement : Statement.bind form' binding' (String.ofList ('.' :: L)) ∈ sss.flatten :=
    List.mem_flatten_of_mem hmem List.mem_cons_self
  rw [← hss] at hstatement
  simp only [List.mem_cons, List.not_mem_nil, or_false, reduceCtorEq, Statement.bind.injEq]
    at hstatement
  obtain ⟨cs, hcs⟩ := locator_cons H
  have hsame := congrArg String.toList hstatement.2.2
  rw [String.toList_ofList, hcs] at hsame
  cases hsame

theorem exists_parse_link_iff (H : Handle) :
    (∃ form binding, parse ((bundledFiles o bytes exports).link [H] (bundledSource o)) =
      .ok [.bind form binding H.locator, .exportAll binding]) ↔ o.Writable := by
  constructor
  · rintro ⟨form, binding, hparse⟩
    have hquiet : Quiet o.name.toList := by
      by_contra hmark
      rw [link_bundledFiles_of_not_quiet o bytes exports hmark] at hparse
      exact parse_bundledSource_ne o H hparse
    have hpreamble : parseLines 1 (Text.splitAt '\n' (preamble o)) = .ok [] := by
      rw [parse_link_of_quiet o bytes exports hquiet] at hparse
      cases hlines : parseLines 1 (Text.splitAt '\n' (preamble o)) with
      | error e =>
        rw [hlines] at hparse
        cases hparse
      | ok ss =>
        rw [hlines] at hparse
        have hnone : ss = [] := by simpa using congrArg List.length (Except.ok.inj hparse)
        rw [hnone]
    exact ⟨hquiet, (silent_preamble_iff o).mp (parseLines_eq_nil_iff.mp hpreamble)⟩
  · exact fun h => ⟨.static, "component", parse_link_of_writable o bytes exports h H⟩

/-- **The bundled transpiler's output links for the names that can be written.**  Whatever the
options, a component that is accepted is transpiled to an entry source, under its name, and one
binary resource, which are the bytes.  The resource gets a handle, and the handle resolves to it.
Relinked to the handle, the source is read as one binding of the handle and the export of
everything from that binding, just when the name can be written into it. -/
theorem parse_linked_bundled {engine : Engine} {bytes : ByteArray} {c : Component}
    (hcompile : engine.compile bytes = .ok c) (attempt : Nat) (o : TranspileOptions) (first : Nat) :
    ∃ t source H live, (bundled engine).transpile attempt bytes o = .ok t ∧
      t.files.entrySource o.entryPoint = .ok source ∧
      (ResourceTable.empty first).createAll t.files.resources = ([H], live) ∧
      live.resolve H.locator = some ⟨coreFile o, bytes⟩ ∧
      ((∃ form binding, parse (t.files.link [H] source) =
        .ok [.bind form binding H.locator, .exportAll binding]) ↔ o.Writable) := by
  let exports := c.exports.map fun e => (e.1, e.2.kind)
  have htranspile : (bundled engine).transpile attempt bytes o =
      .ok ⟨bundledFiles o bytes exports, exports⟩ := by
    simp only [bundled, hcompile, exports]
  exact ⟨_, _, ⟨first⟩, coreTable o bytes first, htranspile,
    entrySource_bundledFiles o bytes exports, createAll_bundledFiles o bytes exports first,
    resolve_coreTable o bytes first, exists_parse_link_iff o bytes exports ⟨first⟩⟩

def plainComponent : Component :=
  ⟨[("f", .function ⟨[], none⟩ none)], 0, [], .ok ⟨0, 0⟩⟩

/-- An engine that takes one byte for that component, and nothing else for any. -/
def byteEngine : Engine :=
  ⟨fun bytes => if bytes = ⟨#[1]⟩ then .ok plainComponent else .error ⟨"no component", []⟩⟩

/-- The name of a run can be written; a name with a mark and a name with a second line cannot. -/
theorem parse_linked_bundled_three_names :
    let linked := fun name => ∃ t source H live,
      (bundled byteEngine).transpile 0 ⟨#[1]⟩ { name := name } = .ok t ∧
      t.files.entrySource (name ++ ".js") = .ok source ∧
      (ResourceTable.empty 7).createAll t.files.resources = ([H], live) ∧
      live.resolve H.locator = some ⟨name ++ ".core" ++ ".wasm", ⟨#[1]⟩⟩ ∧
      ∃ form binding, parse (t.files.link [H] source) =
        .ok [.bind form binding H.locator, .exportAll binding]
    linked "component" ∧ ¬ linked "it's" ∧ ¬ linked "a\nb" := by
  intro linked
  have hcompile : byteEngine.compile ⟨#[1]⟩ = .ok plainComponent := by simp [byteEngine]
  have hlinked : ∀ name, linked name ↔ TranspileOptions.Writable { name := name } := by
    intro name
    obtain ⟨t, source, H, live, htranspile, hentry, hcreate, hlive, hread⟩ :=
      parse_linked_bundled hcompile 0 { name := name } 7
    constructor
    · rintro ⟨t', source', H', live', htranspile', hentry', hcreate', -, hread'⟩
      cases htranspile.symm.trans htranspile'
      cases hentry.symm.trans hentry'
      cases hcreate.symm.trans hcreate'
      exact hread.mp hread'
    · exact fun hname =>
        ⟨t, source, H, live, htranspile, hentry, hcreate, hlive, hread.mpr hname⟩
  rw [hlinked, hlinked, hlinked]
  exact ⟨by decide, by decide, by decide⟩

end Transpiler

end ComponentHost
