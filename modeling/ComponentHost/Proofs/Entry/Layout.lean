/-
# `ComponentHost.Proofs.Entry.Layout` — what is read is what is written

The grammar of the five statements, as the symbols each is written in:

    static       import _ NAME _ from _ ' LOCATOR ' stop
    deferred     const _ NAME . = . await _ import . ( . ' LOCATOR ' . ) stop
    location     const _ NAME . = . new _ URL . ( . ' LOCATOR ' [. , . import.meta.url] . ) stop
    everything   export _ * _ from _ NAME stop
    default      export _ default _ NAME stop

where `_` is white space and `.` is white space that may be missing.  A `Layout` of a
statement is one text for each symbol.  A reader takes symbols off the front of a text, so
for each of them there is one fact of the form

    the reader leaves `rest` of `cs`  ↔  `cs` goes on from its symbols to `rest`   (`Reads`)

and for a line these make up `statement?_iff`: it is read as a statement just when it is
the text of a layout of that statement.
-/
import ComponentHost.Proofs.Entry.Grammar

namespace ComponentHost

open Text (Blank Tight trim trimStart trimEnd)

namespace Entry

/-! ## The grammar -/

abbrev Symbol.word (w : String) : Symbol := .piece (kw w)

/-- White space that may be missing. -/
abbrev Symbol.space : Symbol := .piece .space

/-- White space that may not be missing. -/
abbrev Symbol.gap : Symbol := .piece .gap

/-- The symbols a statement is written in. -/
def Statement.symbols : Statement → List Symbol
  | .bind .static binding locator =>
    [.word "import", .gap, .name binding.toList, .gap, .word "from", .gap,
      .mark, .locator locator.toList, .mark, .stop]
  | .bind .deferred binding locator =>
    [.word "const", .gap, .name binding.toList, .space, .word "=", .space, .word "await", .gap,
      .word "import", .space, .word "(", .space,
      .mark, .locator locator.toList, .mark, .space, .word ")", .stop]
  | .bind (.location false) binding locator =>
    [.word "const", .gap, .name binding.toList, .space, .word "=", .space, .word "new", .gap,
      .word "URL", .space, .word "(", .space,
      .mark, .locator locator.toList, .mark, .space, .word ")", .stop]
  | .bind (.location true) binding locator =>
    [.word "const", .gap, .name binding.toList, .space, .word "=", .space, .word "new", .gap,
      .word "URL", .space, .word "(", .space,
      .mark, .locator locator.toList, .mark, .space, .word ",", .space, .word "import.meta.url",
      .space, .word ")", .stop]
  | .exportAll binding =>
    [.word "export", .gap, .word "*", .gap, .word "from", .gap, .name binding.toList, .stop]
  | .exportDefault binding =>
    [.word "export", .gap, .word "default", .gap, .name binding.toList, .stop]

/-- A way to write a statement on one line: a text for each of its symbols. -/
structure Statement.Layout (s : Statement) where
  parts : List (List Char)
  spells : List.Forall₂ Symbol.Spells s.symbols parts
  unbroken : '\n' ∉ parts.flatten

def Statement.Layout.text {s : Statement} (d : s.Layout) : List Char := d.parts.flatten

theorem apart_symbols (s : Statement) : apart s.symbols = true := by
  rcases s with ⟨_ | _ | _ | _, binding, locator⟩ | binding | binding <;> rfl

/-! ## Which statements can be written -/

/-- The statement binds or exports a name, and its locator can stand between marks on one line. -/
def Statement.Legible : Statement → Prop
  | .bind _ binding locator =>
    IsName binding.toList ∧ locator.toList ≠ [] ∧ Quiet locator.toList ∧ '\n' ∉ locator.toList
  | .exportAll binding | .exportDefault binding => IsName binding.toList

/-- A text that spells the symbol without a line break. -/
def Symbol.sample : Symbol → List Char
  | piece (.word w) => w
  | piece .space => []
  | piece .gap => [' ']
  | name n => n
  | mark => ['\'']
  | locator l => l
  | stop => []

/-- The symbol can be spelled without a line break. -/
def Symbol.Legible : Symbol → Prop
  | piece (.word w) => '\n' ∉ w
  | name n => IsName n
  | locator l => l ≠ [] ∧ Quiet l ∧ '\n' ∉ l
  | _ => True

theorem IsName.not_isBlank {n : List Char} (h : IsName n) : ∀ c ∈ n, Text.isBlank c = false := by
  intro c hc
  cases n with
  | nil => cases hc
  | cons d n =>
    rcases List.mem_cons.mp hc with rfl | hc
    · exact Text.not_isBlank_of_isNameStart h.1
    · cases hb : Text.isBlank c with
      | false => rfl
      | true => cases (h.2 c hc).symm.trans (Text.not_isNamePart_of_isBlank hb)

theorem Symbol.Legible.sample_spells {s : Symbol} (h : s.Legible) :
    s.Spells s.sample ∧ '\n' ∉ s.sample := by
  rcases s with (w | _ | _) | n | _ | l | _
  · exact ⟨rfl, h⟩
  · exact ⟨nofun, List.not_mem_nil⟩
  · exact ⟨⟨List.cons_ne_nil _ _, List.forall_mem_singleton.mpr (by decide)⟩, by decide⟩
  · exact ⟨⟨rfl, h⟩, fun hmem => by cases (h.not_isBlank _ hmem)⟩
  · exact ⟨⟨_, rfl, rfl⟩, by decide +revert⟩
  · exact ⟨⟨rfl, h.1, h.2.1⟩, h.2.2⟩
  · exact ⟨.inl rfl, List.not_mem_nil⟩

theorem Symbol.Spells.legible {s : Symbol} {p : List Char} (h : s.Spells p) (hp : '\n' ∉ p) :
    s.Legible := by
  rcases s with (w | _ | _) | n | _ | l | _
  · obtain rfl : p = w := h
    exact hp
  · trivial
  · trivial
  · exact h.2
  · trivial
  · obtain ⟨rfl, hne, hquiet⟩ := h
    exact ⟨hne, hquiet, hp⟩
  · trivial

theorem Symbol.legible_word {w : String} : (Symbol.word w).Legible ↔ '\n' ∉ w.toList := Iff.rfl

theorem Symbol.legible_name {n : List Char} : (Symbol.name n).Legible ↔ IsName n := Iff.rfl

theorem Symbol.legible_locator {l : List Char} :
    (Symbol.locator l).Legible ↔ l ≠ [] ∧ Quiet l ∧ '\n' ∉ l := Iff.rfl

theorem Symbol.legible_rest : Symbol.space.Legible ∧ Symbol.gap.Legible ∧ Symbol.mark.Legible ∧
    Symbol.stop.Legible := ⟨trivial, trivial, trivial, trivial⟩

theorem legible_iff (s : Statement) : s.Legible ↔ ∀ a ∈ s.symbols, a.Legible := by
  rcases s with ⟨_ | _ | _ | _, binding, locator⟩ | binding | binding <;>
    simp [Statement.Legible, Statement.symbols, Symbol.legible_word, Symbol.legible_name,
      Symbol.legible_locator, Symbol.legible_rest]

theorem exists_of_forall₂ {α β : Type} {R : α → β → Prop} {as : List α} {bs : List β}
    (h : List.Forall₂ R as bs) : ∀ a ∈ as, ∃ b ∈ bs, R a b := by
  induction h with
  | nil => exact fun a ha => absurd ha List.not_mem_nil
  | @cons a b as bs hab _ ih =>
    intro a' ha'
    rcases List.mem_cons.mp ha' with rfl | ha'
    · exact ⟨b, List.mem_cons_self, hab⟩
    · obtain ⟨b', hb', hab'⟩ := ih a' ha'
      exact ⟨b', List.mem_cons_of_mem _ hb', hab'⟩

theorem exists_layout_iff (s : Statement) : Nonempty s.Layout ↔ s.Legible := by
  rw [legible_iff]
  constructor
  · rintro ⟨d⟩ a ha
    obtain ⟨p, hp, hspells⟩ := exists_of_forall₂ d.spells a ha
    exact hspells.legible fun hmem => d.unbroken (List.mem_flatten_of_mem hp hmem)
  · intro hlegible
    refine ⟨⟨s.symbols.map Symbol.sample, ?_, ?_⟩⟩
    · rw [List.forall₂_map_right_iff, List.forall₂_same]
      exact fun a ha => (hlegible a ha).sample_spells.1
    · intro hmem
      obtain ⟨p, hp, hmem⟩ := List.mem_flatten.mp hmem
      obtain ⟨a, ha, rfl⟩ := List.mem_map.mp hp
      exact (hlegible a ha).sample_spells.2 hmem

/-! ## Readers and symbols -/

/-- The text goes on from texts of the symbols, each as long as it can be, to `rest`. -/
def Reads (ss : List Symbol) (cs rest : List Char) : Prop := ∃ ps, Takes ss cs ps rest

theorem reads_append {ss ss' : List Symbol} {cs rest : List Char} :
    Reads (ss ++ ss') cs rest ↔ ∃ mid, Reads ss cs mid ∧ Reads ss' mid rest := by
  constructor
  · rintro ⟨ps, h⟩
    obtain ⟨mid, ps₁, ps₂, -, h₁, h₂⟩ := takes_append.mp h
    exact ⟨mid, ⟨ps₁, h₁⟩, ps₂, h₂⟩
  · rintro ⟨mid, ⟨ps₁, h₁⟩, ps₂, h₂⟩
    exact ⟨_, takes_append.mpr ⟨mid, ps₁, ps₂, rfl, h₁, h₂⟩⟩

theorem reads_cons {s : Symbol} {ss : List Symbol} {cs rest : List Char} :
    Reads (s :: ss) cs rest ↔
      ∃ p cs', cs = p ++ cs' ∧ s.Spells p ∧ s.Ends cs' ∧ Reads ss cs' rest := by
  constructor
  · rintro ⟨ps, h⟩
    obtain ⟨p, cs', ps', hcs, -, hp, hends, h⟩ := takes_cons.mp h
    exact ⟨p, cs', hcs, hp, hends, ps', h⟩
  · rintro ⟨p, cs', rfl, hp, hends, ps', h⟩
    exact ⟨_, .cons hp hends h⟩

theorem reads_nil {cs rest : List Char} : Reads [] cs rest ↔ cs = rest := by
  constructor
  · rintro ⟨ps, h⟩
    exact (takes_nil.mp h).2
  · rintro rfl
    exact ⟨[], .nil cs⟩

theorem eat_iff {ts : List Token} {cs rest : List Char} :
    eat ts cs = some rest ↔ Reads (ts.map .piece) cs rest := by
  induction ts generalizing cs with
  | nil => rw [eat_nil, List.map_nil, reads_nil]
  | cons t ts ih =>
    rw [List.map_cons, reads_cons]
    cases t with
    | word w =>
      rw [eat_word]
      constructor
      · rintro ⟨cs', rfl, h⟩
        exact ⟨w, cs', rfl, rfl, Symbol.ends_of_true (fun _ => rfl) _, ih.mp h⟩
      · rintro ⟨p, cs', rfl, rfl, -, h⟩
        exact ⟨cs', rfl, ih.mpr h⟩
    | space =>
      rw [eat_space]
      constructor
      · rintro ⟨W, cs', rfl, hW, htight, h⟩
        exact ⟨W, cs', rfl, hW, Symbol.ends_space.mpr htight, ih.mp h⟩
      · rintro ⟨W, cs', rfl, hW, hends, h⟩
        exact ⟨W, cs', rfl, hW, Symbol.ends_space.mp hends, ih.mpr h⟩
    | gap =>
      rw [eat_gap]
      constructor
      · rintro ⟨W, cs', rfl, hne, hW, htight, h⟩
        exact ⟨W, cs', rfl, ⟨hne, hW⟩, Symbol.ends_gap.mpr htight, ih.mp h⟩
      · rintro ⟨W, cs', rfl, ⟨hne, hW⟩, hends, h⟩
        exact ⟨W, cs', rfl, hne, hW, Symbol.ends_gap.mp hends, ih.mpr h⟩

theorem readName_iff {n cs rest : List Char} :
    readName cs = some (n, rest) ↔ Reads [.name n] cs rest := by
  simp only [reads_cons, reads_nil]
  constructor
  · intro h
    obtain ⟨rfl, -, -, hstop, -⟩ := readName_taken h
    refine ⟨n, rest, rfl, ⟨rfl, ?_⟩, fun c hc => by simp [Symbol.stops, hstop c hc], rfl⟩
    cases hcs : n ++ rest with
    | nil => rw [hcs] at h; cases h
    | cons c cs =>
      rw [hcs, readName] at h
      split at h
      · rename_i hstart
        cases h
        exact ⟨hstart, fun d hd => List.all_eq_true.mp List.all_takeWhile d hd⟩
      · cases h
  · rintro ⟨p, _, rfl, ⟨rfl, hname⟩, hends, rfl⟩
    cases p with
    | nil => exact hname.elim
    | cons c p =>
      have hself : readName (c :: p) = some (c :: p, []) := by
        rw [readName, if_pos hname.1, List.takeWhile_eq_self_iff.mpr hname.2,
          List.dropWhile_eq_nil_iff.mpr hname.2]
      obtain ⟨-, -, -, -, hstable⟩ := readName_taken hself
      exact hstable _ fun d hd => by simpa [Symbol.stops] using hends d hd

def quoted (locator : List Char) : List Symbol := [.mark, .locator locator, .mark]

theorem readQuoted_iff {L cs rest : List Char} :
    readQuoted cs = some (L, rest) ↔ Reads (quoted L) cs rest := by
  rw [readQuoted_eq_some]
  simp only [quoted, reads_cons, reads_nil]
  constructor
  · rintro ⟨q, q', rfl, hq, hq', hL, hne⟩
    refine ⟨[q], _, rfl, ⟨q, rfl, hq⟩, Symbol.ends_of_true (fun _ => rfl) _, L, _, rfl,
      ⟨rfl, hne, hL⟩, ?_, [q'], rest, rfl, ⟨q', rfl, hq'⟩, Symbol.ends_of_true (fun _ => rfl) _,
      rfl⟩
    intro c hc
    cases hc
    exact hq'
  · rintro ⟨_, _, rfl, ⟨q, rfl, hq⟩, -, _, _, rfl, ⟨rfl, hne, hL⟩, -, _, _, rfl, ⟨q', rfl, hq'⟩, -,
      rfl⟩
    exact ⟨q, q', rfl, hq, hq', hL, hne⟩

theorem isEnd_iff {cs : List Char} (hcs : trimEnd cs = cs) :
    isEnd cs = true ↔ Reads [.stop] cs [] := by
  simp only [reads_cons, reads_nil]
  constructor
  · intro h
    obtain ⟨W, hW, hstart, -⟩ := Text.trimStart_eq_iff.mp (rfl : trimStart cs = trimStart cs)
    refine ⟨cs, [], (List.append_nil cs).symm, ?_, Symbol.ends_nil _, rfl⟩
    rw [isEnd] at h
    split at h
    · rename_i hnil
      rw [hnil, List.append_nil] at hstart
      rw [hstart, Text.trimEnd_blank hW] at hcs
      exact .inl (hstart.trans hcs.symm)
    · rename_i hone
      rw [hone] at hstart
      exact .inr ⟨W, hstart, hW⟩
    · cases h
  · rintro ⟨p, _, rfl, hp, -, rfl⟩
    rw [List.append_nil] at *
    rcases hp with rfl | ⟨W, rfl, hW⟩
    · rfl
    · rw [isEnd, Text.trimStart_eq_iff.mpr ⟨W, hW, rfl, Text.tight_cons.mpr (by decide)⟩]
      rfl

theorem Reads.trimEnd {ss : List Symbol} {cs rest : List Char} (h : Reads ss cs rest)
    (hcs : Text.trimEnd cs = cs) : Text.trimEnd rest = rest := by
  obtain ⟨ps, h⟩ := h
  exact Text.trimEnd_of_append (h.flatten_append.symm ▸ hcs)

/-! ## Statements that bind -/

/-- The symbols of a statement that binds, up to the locator, by the tables that say how it is
read. -/
def bindingSymbols (f : ImportForm) (n L : List Char) : List Symbol :=
  [kw f.keyword, Token.gap].map .piece ++ ([.name n] ++ (f.between.map .piece ++
    (f.shape.before.map .piece ++ quoted L)))

theorem symbols_bind (f : ImportForm) (binding locator : String) :
    (Statement.bind f binding locator).symbols =
      bindingSymbols f binding.toList locator.toList ++ (f.after.map .piece ++ [.stop]) := by
  rcases f with _ | _ | _ | _ <;> rfl

theorem readBinding_iff {f : ImportForm} {n L line cs : List Char} :
    readBinding f line = some (n, L, cs) ↔ Reads (bindingSymbols f n L) line cs := by
  simp only [bindingSymbols, reads_append, ← eat_iff, ← readName_iff, ← readQuoted_iff]
  constructor
  · intro h
    obtain ⟨⟨n', cs₃⟩, hhead, h⟩ := Option.bind_eq_some_iff.mp h
    obtain ⟨cs₄, h₄, h⟩ := Option.bind_eq_some_iff.mp h
    obtain ⟨⟨L', cs₅⟩, h₅, hpair⟩ := Option.map_eq_some_iff.mp h
    cases hpair
    obtain ⟨cs₁, h₁, hhead⟩ := Option.bind_eq_some_iff.mp hhead
    obtain ⟨⟨n', cs₂⟩, h₂, hhead⟩ := Option.bind_eq_some_iff.mp hhead
    obtain ⟨cs₃', h₃, hpair⟩ := Option.map_eq_some_iff.mp hhead
    cases hpair
    exact ⟨cs₁, h₁, cs₂, h₂, cs₃, h₃, cs₄, h₄, h₅⟩
  · rintro ⟨cs₁, h₁, cs₂, h₂, cs₃, h₃, cs₄, h₄, h₅⟩
    rw [readBinding, readHead, h₁, Option.bind_some, h₂, Option.bind_some, h₃, Option.map_some,
      Option.bind_some, h₄, Option.bind_some, h₅]
    rfl

theorem reads_bind_iff {f : ImportForm} {binding locator : String} {line : List Char}
    (hline : trimEnd line = line) :
    Reads (Statement.bind f binding locator).symbols line [] ↔
      ∃ cs rest, readBinding f line = some (binding.toList, locator.toList, cs) ∧
        eat f.after cs = some rest ∧ isEnd rest = true := by
  rw [symbols_bind, reads_append]
  constructor
  · rintro ⟨cs, hbinding, hclose⟩
    obtain ⟨rest, hafter, hstop⟩ := reads_append.mp hclose
    have hend := (isEnd_iff (hafter.trimEnd (hbinding.trimEnd hline))).mpr hstop
    exact ⟨cs, rest, readBinding_iff.mpr hbinding, eat_iff.mpr hafter, hend⟩
  · rintro ⟨cs, rest, hbinding, hafter, hend⟩
    have hbinding := readBinding_iff.mp hbinding
    have hafter := eat_iff.mp hafter
    have hstop := (isEnd_iff (hafter.trimEnd (hbinding.trimEnd hline))).mp hend
    exact ⟨cs, hbinding, reads_append.mpr ⟨rest, hafter, hstop⟩⟩

theorem reads_of_readBind {f : ImportForm} {line : List Char} {s : Statement}
    (hline : trimEnd line = line) (h : readBind f line = some s) : Reads s.symbols line [] := by
  obtain ⟨⟨n, L, cs⟩, hbinding, h⟩ := Option.bind_eq_some_iff.mp h
  obtain ⟨f', hclose, rfl⟩ := Option.map_eq_some_iff.mp h
  obtain ⟨rest, hafter, hend, hhead, hshape⟩ := readClose_taken hclose
  refine (reads_bind_iff hline).mpr ⟨cs, rest, ?_, hafter, hend⟩
  rw [readBinding, hhead, hshape, ← readBinding, hbinding, String.toList_ofList,
    String.toList_ofList]

theorem readBind_of_reads {f : ImportForm} {binding locator : String} {line : List Char}
    (hline : trimEnd line = line) (h : Reads (Statement.bind f binding locator).symbols line []) :
    readBind f line = some (.bind f binding locator) := by
  obtain ⟨cs, rest, hbinding, hafter, hend⟩ := (reads_bind_iff hline).mp h
  rw [readBind, hbinding, Option.bind_some, readClose_of hafter hend, Option.map_some,
    String.ofList_toList, String.ofList_toList]

/-! ## Statements that export -/

theorem readExport_iff (ts : List Token) (make : String → Statement) {line : List Char}
    {s : Statement} (hline : trimEnd line = line) :
    readExport ts make line = some s ↔
      ∃ binding : String, s = make binding ∧
        Reads (ts.map .piece ++ [.name binding.toList, .stop]) line [] := by
  have hsplit : ∀ n : List Char, [Symbol.name n, .stop] = [.name n] ++ [.stop] := fun _ => rfl
  simp only [hsplit, reads_append]
  constructor
  · intro h
    obtain ⟨cs, htokens, h⟩ := Option.bind_eq_some_iff.mp h
    obtain ⟨⟨n, rest⟩, hname, hfinish⟩ := Option.bind_eq_some_iff.mp h
    simp only [finish] at hfinish
    split at hfinish
    · rename_i hend
      cases hfinish
      have htokens := eat_iff.mp htokens
      have hname := readName_iff.mp hname
      refine ⟨String.ofList n, rfl, cs, htokens, rest, ?_, ?_⟩
      · rwa [String.toList_ofList]
      · exact (isEnd_iff (hname.trimEnd (htokens.trimEnd hline))).mp hend
    · cases hfinish
  · rintro ⟨binding, rfl, cs, htokens, rest, hname, hstop⟩
    have hend := (isEnd_iff (hname.trimEnd (htokens.trimEnd hline))).mpr hstop
    rw [readExport, eat_iff.mpr htokens, Option.bind_some, readName_iff.mpr hname,
      Option.bind_some, finish, if_pos hend, String.ofList_toList]

theorem readBind_of_export {ts : List Token} {f : ImportForm} {line rest : List Char}
    (h : eat (kw "export" :: ts) line = some rest) : readBind f line = none := by
  refine readBind_of_readHead ?_
  cases hhead : readHead f line with
  | none => rfl
  | some x =>
    obtain ⟨cs, rfl, -⟩ := eat_word.mp h
    obtain ⟨c, cs', hcs, hc⟩ := readHead_cons hhead
    obtain ⟨rfl, -⟩ := List.cons.inj hcs
    rcases hc with ⟨-, hc⟩ | ⟨-, hc⟩ <;> cases hc

theorem eat_exportAll_of_default {line rest : List Char}
    (h : eat exportDefaultTokens line = some rest) : eat exportAllTokens line = none := by
  have hdefault : eat exportDefaultTokens line =
      (eat [kw "export", .gap] line).bind (eat [kw "default", .gap]) :=
    eat_append_tokens [kw "export", .gap] [kw "default", .gap] line
  have hall : eat exportAllTokens line =
      (eat [kw "export", .gap] line).bind (eat [kw "*", .gap, kw "from", .gap]) :=
    eat_append_tokens [kw "export", .gap] [kw "*", .gap, kw "from", .gap] line
  rw [hdefault] at h
  obtain ⟨cs, hcs, h⟩ := Option.bind_eq_some_iff.mp h
  obtain ⟨cs', rfl, -⟩ := eat_word.mp h
  rw [hall, hcs]
  rfl

/-! ## Lines -/

/-- A line without white space at its end is read as a statement just when the symbols of the
statement are read from it. -/
theorem statement?_iff_reads {line : List Char} {s : Statement} (hline : trimEnd line = line) :
    statement? line = some s ↔ Reads s.symbols line [] := by
  constructor
  · intro h
    rw [statement?_eq true] at h
    simp only [Option.orElse_eq_orElse, Option.orElse_eq_or, Option.or_eq_some_iff] at h
    rcases h with h | ⟨-, h | ⟨-, h | ⟨-, h | ⟨-, h⟩⟩⟩⟩
    · exact reads_of_readBind hline h
    · exact reads_of_readBind hline h
    · exact reads_of_readBind hline h
    · obtain ⟨binding, rfl, hreads⟩ := (readExport_iff _ _ hline).mp h
      exact hreads
    · obtain ⟨binding, rfl, hreads⟩ := (readExport_iff _ _ hline).mp h
      exact hreads
  · intro h
    cases s with
    | bind f binding locator => exact statement?_of_readBind (readBind_of_reads hline h)
    | exportAll binding =>
      have hread := (readExport_iff exportAllTokens .exportAll hline).mpr ⟨binding, rfl, h⟩
      obtain ⟨cs, htokens, -⟩ := Option.bind_eq_some_iff.mp hread
      rw [statement?_eq true, readBind_of_export htokens, readBind_of_export htokens,
        readBind_of_export htokens, hread]
      rfl
    | exportDefault binding =>
      have hread := (readExport_iff exportDefaultTokens .exportDefault hline).mpr ⟨binding, rfl, h⟩
      obtain ⟨cs, htokens, -⟩ := Option.bind_eq_some_iff.mp hread
      have hall : readExport exportAllTokens .exportAll line = none := by
        rw [readExport, eat_exportAll_of_default htokens]
        rfl
      rw [statement?_eq true, readBind_of_export htokens, readBind_of_export htokens,
        readBind_of_export htokens, hall, hread]
      rfl

/-- What a statement is written in ends with a name, a mark or a bracket, and then the stop. -/
theorem exists_last_symbol (s : Statement) :
    ∃ t, s.symbols = s.symbols.dropLast.dropLast ++ [t, .stop] ∧
      ∀ p, t.Spells p → p ≠ [] ∧ trimEnd p = p := by
  have hname : ∀ n p, (Symbol.name n).Spells p → p ≠ [] ∧ trimEnd p = p := by
    rintro n p ⟨rfl, hname⟩
    refine ⟨?_, Text.trimEnd_of_no_blank hname.not_isBlank⟩
    rintro rfl
    exact hname.elim
  have hmark : ∀ p, Symbol.mark.Spells p → p ≠ [] ∧ trimEnd p = p := by
    rintro p ⟨q, rfl, hq⟩
    exact ⟨List.cons_ne_nil _ _,
      Text.trimEnd_of_no_blank (List.forall_mem_singleton.mpr (not_isBlank_of_isQuote hq))⟩
  have hbracket : ∀ p, (Symbol.word ")").Spells p → p ≠ [] ∧ trimEnd p = p := by
    rintro p rfl
    decide
  rcases s with ⟨_ | _ | _ | _, binding, locator⟩ | binding | binding
  · exact ⟨.mark, rfl, hmark⟩
  · exact ⟨.word ")", rfl, hbracket⟩
  · exact ⟨.word ")", rfl, hbracket⟩
  · exact ⟨.word ")", rfl, hbracket⟩
  · exact ⟨.name binding.toList, rfl, hname _⟩
  · exact ⟨.name binding.toList, rfl, hname _⟩

namespace Statement.Layout

variable {s s' : Statement}

theorem takes (d : s.Layout) : Takes s.symbols d.text d.parts [] :=
  takes_of_spells (apart_symbols s) d.spells

theorem trimEnd_text (d : s.Layout) : trimEnd d.text = d.text := by
  obtain ⟨t, hsymbols, hfirm⟩ := exists_last_symbol s
  have hreads : Reads s.symbols d.text [] := ⟨d.parts, d.takes⟩
  rw [hsymbols] at hreads
  obtain ⟨mid, ⟨ps, hps⟩, hmid⟩ := reads_append.mp hreads
  obtain ⟨p, cs, rfl, hp, -, hstop⟩ := reads_cons.mp hmid
  obtain ⟨q, rest, rfl, hq, -, hnil⟩ := reads_cons.mp hstop
  obtain rfl := reads_nil.mp hnil
  obtain ⟨hne, hend⟩ := hfirm p hp
  rw [← hps.flatten_append]
  rcases hq with rfl | ⟨W, rfl, -⟩
  · rw [List.append_nil, List.append_nil]
    exact Text.trimEnd_append_of hne hend _
  · have hassoc : ps.flatten ++ (p ++ (W ++ [';'] ++ [])) = ps.flatten ++ p ++ W ++ [';'] := by simp
    rw [hassoc]
    exact Text.trimEnd_append_of (List.cons_ne_nil _ _) rfl _

theorem text_cons (d : s.Layout) : ∃ c cs, d.text = c :: cs ∧ (c = 'i' ∨ c = 'c' ∨ c = 'e') := by
  have hword : ∀ {w : String} {ss : List Symbol}, s.symbols = .word w :: ss →
      ∃ cs, d.text = w.toList ++ cs := by
    intro w ss hsymbols
    have hreads : Reads (.word w :: ss) d.text [] := hsymbols ▸ ⟨d.parts, d.takes⟩
    obtain ⟨p, cs, htext, rfl, -⟩ := reads_cons.mp hreads
    exact ⟨cs, htext⟩
  rcases s with ⟨_ | _ | _ | _, binding, locator⟩ | binding | binding <;>
    obtain ⟨cs, htext⟩ := hword rfl <;> exact ⟨_, _, htext, by decide⟩

theorem tight_text (d : s.Layout) : Tight d.text ∧ d.text ≠ [] := by
  obtain ⟨c, cs, htext, hc⟩ := d.text_cons
  rw [htext]
  refine ⟨Text.tight_cons.mpr ?_, List.cons_ne_nil _ _⟩
  rcases hc with rfl | rfl | rfl <;> rfl

theorem statement?_text (d : s.Layout) : statement? d.text = some s :=
  (statement?_iff_reads d.trimEnd_text).mpr ⟨d.parts, d.takes⟩

theorem text_unique (d : s.Layout) (d' : s'.Layout) (h : d.text = d'.text) :
    s = s' ∧ d.parts = d'.parts := by
  have hsame := d.statement?_text
  rw [h, d'.statement?_text] at hsame
  cases hsame
  exact ⟨rfl, (d.takes.unique (h ▸ d'.takes)).1⟩

theorem not_silent_text (d : s.Layout) : isSilent d.text = false := by
  obtain ⟨c, cs, htext, hc⟩ := d.text_cons
  rw [htext]
  rcases hc with rfl | rfl | rfl <;> rfl

end Statement.Layout

/-- A line without white space at its end is read as a statement just when it is the text of a
layout of that statement. -/
theorem statement?_iff {line : List Char} {s : Statement} (hline : trimEnd line = line)
    (hbreak : '\n' ∉ line) : statement? line = some s ↔ ∃ d : s.Layout, d.text = line := by
  constructor
  · intro h
    obtain ⟨ps, hps⟩ := (statement?_iff_reads hline).mp h
    have hflat : ps.flatten = line := by
      rw [← hps.flatten_append, List.append_nil]
    exact ⟨⟨ps, hps.spells, hflat ▸ hbreak⟩, hflat⟩
  · rintro ⟨d, rfl⟩
    exact d.statement?_text

end Entry

end ComponentHost
