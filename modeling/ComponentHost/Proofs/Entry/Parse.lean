/-
# `ComponentHost.Proofs.Entry.Parse` — a source is read exactly by its grammar

A line means nothing when it is blank or a comment, and it means a statement when, without
its blank ends, it is the text of a layout of that statement (`Means`).  What reading a
source comes to is then described without the readers:

    the statements that its lines mean, in a row      if every line means something
    the number and the text of the first other line   if there is one

No line means two things, and no text is that of two layouts.  Rows are lines that are
written on purpose; a source written from rows is read back as the statements in them.
-/
import ComponentHost.Proofs.Entry.Layout
import ComponentHost.Proofs.Entry.Line

namespace ComponentHost

open Text (Blank trim trimEnd)

namespace Entry

/-! ## What a line means -/

/-- Nothing, or a comment. -/
def Silent (cs : List Char) : Prop := cs = [] ∨ "//".toList <+: cs

theorem silent_iff {cs : List Char} : Silent cs ↔ isSilent cs = true := by
  rw [isSilent, Bool.or_eq_true, List.isEmpty_iff, List.isPrefixOf_iff_prefix]
  rfl

/-- The line means these statements, which are one or none. -/
inductive Means (line : List Char) : List Statement → Prop
  | nothing : Silent (trim line) → Means line []
  | statement {s : Statement} (d : s.Layout) : trim line = d.text → Means line [s]

theorem mem_of_mem_trim {cs : List Char} {c : Char} (h : c ∈ trim cs) : c ∈ cs := by
  obtain ⟨V, W, -, -, hcs⟩ := exists_trim cs
  rw [hcs]
  exact List.mem_append_right _ (List.mem_append_left _ h)

theorem readLine_eq_some_iff {line : List Char} {ss : List Statement} (hbreak : '\n' ∉ line) :
    readLine line = some ss ↔ Means line ss := by
  have hstatement : ∀ s, statement? (trim line) = some s ↔ ∃ d : s.Layout, d.text = trim line :=
    fun s => statement?_iff (Text.trimEnd_trim line) fun hmem => hbreak (mem_of_mem_trim hmem)
  constructor
  · intro h
    rw [readLine] at h
    split at h
    · rename_i hsilent
      cases h
      exact .nothing (silent_iff.mpr hsilent)
    · obtain ⟨s, hs, rfl⟩ := Option.map_eq_some_iff.mp h
      obtain ⟨d, hd⟩ := (hstatement s).mp hs
      exact .statement d hd.symm
  · rintro (hsilent | ⟨d, hd⟩)
    · rw [readLine, if_pos (silent_iff.mp hsilent)]
    · rw [readLine, hd, d.not_silent_text, d.statement?_text]
      rfl

theorem Means.unique {line : List Char} {ss ss' : List Statement} (hbreak : '\n' ∉ line)
    (h : Means line ss) (h' : Means line ss') : ss = ss' := by
  have hsame := (readLine_eq_some_iff hbreak).mpr h
  rw [(readLine_eq_some_iff hbreak).mpr h'] at hsame
  exact (Option.some.inj hsame).symm

theorem Statement.Layout.means {s : Statement} (d : s.Layout) : Means d.text [s] := by
  have hblank : Blank [] := fun c hc => absurd hc List.not_mem_nil
  have htrim := Text.trim_of_tight hblank hblank d.tight_text.2 d.tight_text.1 d.trimEnd_text
  rw [List.nil_append, List.append_nil] at htrim
  exact .statement d htrim

theorem not_silent_of_cons {c : Char} {cs : List Char} (hblank : Text.isBlank c = false)
    (hslash : c ≠ '/') : ¬ Silent (trim (c :: cs)) := by
  rw [Text.trim_cons hblank]
  rintro (hnil | ⟨after, hslashes⟩)
  · cases hnil
  · exact hslash (List.cons.inj hslashes).1.symm

/-- A line that holds a mark and is no comment can only bind, and what it binds starts behind the
first mark. -/
theorem Means.exists_bind {A w : List Char} {q c : Char} {ss : List Statement}
    (h : Means (A ++ q :: c :: w) ss) (hA : Quiet A) (hq : isQuote q = true)
    (hbreak : '\n' ∉ A ++ q :: c :: w) (hloud : ¬ Silent (trim (A ++ q :: c :: w))) :
    ∃ form binding L, ss = [.bind form binding (String.ofList (c :: L))] := by
  have hreads := (readLine_eq_some_iff hbreak).mpr h
  obtain ⟨l, hl⟩ := exists_line hbreak (fun hcomment => absurd (.inr hcomment) hloud) hreads
  cases l with
  | plain p =>
    have htext : p.text = A ++ q :: c :: w := hl
    have hmark := p.quiet q (htext ▸ List.mem_append_right _ List.mem_cons_self)
    rw [hq] at hmark
    cases hmark
  | bind b =>
    obtain ⟨-, -, hlocator⟩ := cut_unique b.quiet_front hA b.mark_quote hq hl
    obtain ⟨d, L, hL⟩ := List.exists_cons_of_ne_nil b.locator_ne
    rw [hL] at hlocator
    obtain ⟨rfl, -⟩ := List.cons.inj hlocator
    have hsame := b.readLine_text
    rw [show b.text = _ from hl, hreads] at hsame
    refine ⟨b.form, String.ofList b.name, L, ?_⟩
    rw [Option.some.inj hsame, BindParts.statement, hL]

/-! ## What lines are read as -/

theorem parseLines_of_none {n : Nat} {line : List Char} (lines : List (List Char))
    (h : readLine line = none) :
    parseLines n (line :: lines) = .error (.malformed n (String.ofList (trim line))) := by
  rw [readLine] at h
  rw [parseLines]
  split at h
  · cases h
  · rename_i hloud
    rw [if_neg hloud, Option.map_eq_none_iff.mp h]

theorem parseLines_of_means {n : Nat} {lines : List (List Char)} {sss : List (List Statement)}
    (hlines : ∀ line ∈ lines, '\n' ∉ line) (h : List.Forall₂ Means lines sss) :
    parseLines n lines = .ok sss.flatten := by
  induction h generalizing n with
  | nil => rfl
  | cons hmeans _ ih =>
    obtain ⟨hbreak, hlines⟩ := List.forall_mem_cons.mp hlines
    rw [parseLines_cons ((readLine_eq_some_iff hbreak).mpr hmeans), ih hlines]
    rfl

/-- Lines that mean something are passed over on the way to the first that does not, which is the
error. -/
theorem parseLines_of_not_means {n : Nat} {before after : List (List Char)} {line : List Char}
    (hlines : ∀ l ∈ before ++ line :: after, '\n' ∉ l) (hbefore : ∀ l ∈ before, ∃ ss, Means l ss)
    (hline : ∀ ss, ¬ Means line ss) :
    parseLines n (before ++ line :: after) =
      .error (.malformed (n + before.length) (String.ofList (trim line))) := by
  induction before generalizing n with
  | nil =>
    have hbreak := hlines line (List.mem_append_right _ List.mem_cons_self)
    refine parseLines_of_none after ?_
    cases h : readLine line with
    | none => rfl
    | some ss => exact absurd ((readLine_eq_some_iff hbreak).mp h) (hline ss)
  | cons l before ih =>
    obtain ⟨⟨ss, hl⟩, hbefore⟩ := List.forall_mem_cons.mp hbefore
    obtain ⟨hbreak, hlines⟩ := List.forall_mem_cons.mp hlines
    rw [List.cons_append, parseLines_cons ((readLine_eq_some_iff hbreak).mpr hl),
      ih hlines hbefore, List.length_cons, Nat.add_right_comm, Nat.add_assoc]
    rfl

theorem parseLines_append {after : List (List Char)} {ss : List Statement}
    (hafter : ∀ n, parseLines n after = .ok ss) (n : Nat) (before : List (List Char)) :
    parseLines n (before ++ after) = (parseLines n before).map (· ++ ss) := by
  induction before generalizing n with
  | nil => exact hafter n
  | cons line before ih =>
    cases hline : readLine line with
    | none =>
      rw [List.cons_append, parseLines_of_none _ hline, parseLines_of_none _ hline]
      rfl
    | some ss₁ =>
      rw [List.cons_append, parseLines_cons hline, parseLines_cons hline, ih]
      cases parseLines (n + 1) before with
      | error e => rfl
      | ok ss₂ => exact congrArg Except.ok (List.append_assoc ss₁ ss₂ ss).symm

theorem parseLines_eq_nil_iff {n : Nat} {lines : List (List Char)} :
    parseLines n lines = .ok [] ↔ ∀ line ∈ lines, Silent (trim line) := by
  induction lines generalizing n with
  | nil => simp [parseLines]
  | cons line lines ih =>
    rw [List.forall_mem_cons, silent_iff, ← ih (n := n + 1)]
    cases hsilent : isSilent (trim line) with
    | true => simp [parseLines, hsilent]
    | false =>
      simp only [parseLines, hsilent, Bool.false_eq_true, false_and, if_false, iff_false]
      intro h
      cases hstatement : statement? (trim line) with
      | none =>
        rw [hstatement] at h
        cases h
      | some s =>
        rw [hstatement] at h
        cases hrest : parseLines (n + 1) lines <;> rw [hrest] at h <;> cases h

theorem means_or_first (lines : List (List Char)) :
    (∃ sss, List.Forall₂ Means lines sss) ∨
      ∃ before line after, lines = before ++ line :: after ∧ (∀ l ∈ before, ∃ ss, Means l ss) ∧
        ∀ ss, ¬ Means line ss := by
  induction lines with
  | nil => exact .inl ⟨[], .nil⟩
  | cons l lines ih =>
    by_cases hl : ∃ ss, Means l ss
    · obtain ⟨ss, hss⟩ := hl
      rcases ih with ⟨sss, hsss⟩ | ⟨before, line, after, rfl, hbefore, hline⟩
      · exact .inl ⟨ss :: sss, .cons hss hsss⟩
      · exact .inr ⟨l :: before, line, after, rfl,
          List.forall_mem_cons.mpr ⟨⟨ss, hss⟩, hbefore⟩, hline⟩
    · exact .inr ⟨[], l, lines, rfl, fun _ h => absurd h List.not_mem_nil,
        fun ss hss => hl ⟨ss, hss⟩⟩

/-! ## Rows -/

/-- A line that is written on purpose. -/
inductive Row where
  /-- A blank line or a comment. -/
  | silent (cs : List Char) (quiet : Silent (trim cs)) (unbroken : '\n' ∉ cs)
  /-- A statement in a layout, between blank ends. -/
  | statement {s : Statement} (d : s.Layout) (indent trail : List Char)
      (blank : Blank indent ∧ Blank trail) (unbroken : '\n' ∉ indent ++ d.text ++ trail)

namespace Row

def text : Row → List Char
  | silent cs _ _ => cs
  | statement d indent trail _ _ => indent ++ d.text ++ trail

def statements : Row → List Statement
  | silent .. => []
  | @statement s .. => [s]

theorem unbroken (r : Row) : '\n' ∉ r.text := by
  cases r with
  | silent _ _ h => exact h
  | statement _ _ _ _ h => exact h

theorem means (r : Row) : Means r.text r.statements := by
  cases r with
  | silent _ h _ => exact .nothing h
  | statement d indent trail h _ =>
    exact .statement d (Text.trim_of_tight h.1 h.2 d.tight_text.2 d.tight_text.1 d.trimEnd_text)

end Row

def render (rows : List Row) : String := String.ofList (Text.joinWith ['\n'] (rows.map Row.text))

theorem cons_joinWith (mark : Char) (l : List Char) (lines : List (List Char)) :
    mark :: Text.joinWith [mark] (l :: lines) = (l :: lines).flatMap (mark :: ·) := by
  induction lines generalizing l with
  | nil => simp [Text.joinWith]
  | cons l' lines ih =>
    rw [List.flatMap_cons, ← ih, Text.joinWith]
    · simp
    · exact List.cons_ne_nil _ _

theorem splitAt_render (r : Row) (rows : List Row) :
    Text.splitAt '\n' (render (r :: rows)).toList = (r :: rows).map Row.text := by
  have hunbroken : ∀ l ∈ (r :: rows).map Row.text, '\n' ∉ l := by
    intro l hl
    obtain ⟨row, -, rfl⟩ := List.mem_map.mp hl
    exact row.unbroken
  have hsplit := Text.splitAt_flatMap hunbroken
  rw [List.map_cons, ← cons_joinWith, Text.splitAt_mark] at hsplit
  rw [render, String.toList_ofList, List.map_cons, (List.cons.inj hsplit).2]

theorem parse_render (rows : List Row) :
    parse (render rows) = .ok (rows.flatMap Row.statements) := by
  cases rows with
  | nil => rfl
  | cons r rows =>
    have hunbroken : ∀ l ∈ (r :: rows).map Row.text, '\n' ∉ l := by
      intro l hl
      obtain ⟨row, -, rfl⟩ := List.mem_map.mp hl
      exact row.unbroken
    have hmeans :
        List.Forall₂ Means ((r :: rows).map Row.text) ((r :: rows).map Row.statements) := by
      rw [List.forall₂_map_left_iff, List.forall₂_map_right_iff, List.forall₂_same]
      exact fun row _ => row.means
    rw [parse, splitAt_render, parseLines_of_means hunbroken hmeans, List.flatMap_def]

/-! ## What a source is read as -/

def linesOf (source : String) : List (List Char) := Text.splitAt '\n' source.toList

theorem unbroken_of_mem_linesOf {source : String} {line : List Char} (h : line ∈ linesOf source) :
    '\n' ∉ line :=
  (Text.flatMap_splitAt '\n' source.toList).2 line h

/-- Reading a source gives a list of statements just when these are what its lines mean, and an
error just when it is that of the first line that means nothing. -/
theorem parse_eq_iff (source : String) :
    (∀ ss, parse source = .ok ss ↔
      ∃ sss, List.Forall₂ Means (linesOf source) sss ∧ ss = sss.flatten) ∧
    ∀ e, parse source = .error e ↔
      ∃ before line after, linesOf source = before ++ line :: after ∧
        (∀ l ∈ before, ∃ ss, Means l ss) ∧ (∀ ss, ¬ Means line ss) ∧
        e = .malformed (before.length + 1) (String.ofList (trim line)) := by
  have hok : ∀ {sss}, List.Forall₂ Means (linesOf source) sss → parse source = .ok sss.flatten :=
    parseLines_of_means fun _ => unbroken_of_mem_linesOf
  have herror : ∀ {before line after}, linesOf source = before ++ line :: after →
      (∀ l ∈ before, ∃ ss, Means l ss) → (∀ ss, ¬ Means line ss) →
      parse source = .error (.malformed (before.length + 1) (String.ofList (trim line))) := by
    intro before line after hlines hbefore hline
    have hunbroken : ∀ l ∈ before ++ line :: after, '\n' ∉ l :=
      fun l hl => unbroken_of_mem_linesOf (hlines.symm ▸ hl)
    rw [parse, ← linesOf, hlines, parseLines_of_not_means hunbroken hbefore hline, Nat.add_comm]
  refine ⟨fun ss => ⟨fun h => ?_, ?_⟩, fun e => ⟨fun h => ?_, ?_⟩⟩
  · rcases means_or_first (linesOf source) with ⟨sss, hsss⟩ | ⟨before, line, after, hl, hb, hn⟩
    · exact ⟨sss, hsss, Except.ok.inj (h.symm.trans (hok hsss))⟩
    · cases h.symm.trans (herror hl hb hn)
  · rintro ⟨sss, hsss, rfl⟩
    exact hok hsss
  · rcases means_or_first (linesOf source) with ⟨sss, hsss⟩ | ⟨before, line, after, hl, hb, hn⟩
    · cases h.symm.trans (hok hsss)
    · exact ⟨before, line, after, hl, hb, hn, Except.error.inj (h.symm.trans (herror hl hb hn))⟩
  · rintro ⟨before, line, after, hl, hb, hn, rfl⟩
    exact herror hl hb hn

theorem exists_parse_iff (source : String) :
    (∃ ss, parse source = .ok ss) ↔ ∀ line ∈ linesOf source, ∃ ss, Means line ss := by
  constructor
  · rintro ⟨ss, h⟩
    obtain ⟨sss, hsss, -⟩ := ((parse_eq_iff source).1 ss).mp h
    intro line hline
    obtain ⟨ss, -, hss⟩ := exists_of_forall₂ hsss line hline
    exact ⟨ss, hss⟩
  · intro h
    rcases means_or_first (linesOf source) with ⟨sss, hsss⟩ | ⟨before, line, after, hl, -, hn⟩
    · exact ⟨sss.flatten, ((parse_eq_iff source).1 _).mpr ⟨sss, hsss, rfl⟩⟩
    · obtain ⟨ss, hss⟩ := h line (hl ▸ List.mem_append_right _ List.mem_cons_self)
      exact absurd hss (hn ss)

/-- A source is read exactly by the grammar.  It can be read just when each of its lines means
something, and then as the statements that the lines mean, in a row; otherwise the error has the
number and the text of the first line that means nothing.  A text is that of one layout at most,
the layouts are those of the legible statements, and rows are read back as what is in them. -/
theorem parse_exact :
    (∀ source, (∃ ss, parse source = .ok ss) ↔ ∀ line ∈ linesOf source, ∃ ss, Means line ss) ∧
    (∀ source ss, parse source = .ok ss ↔
      ∃ sss, List.Forall₂ Means (linesOf source) sss ∧ ss = sss.flatten) ∧
    (∀ source e, parse source = .error e ↔
      ∃ before line after, linesOf source = before ++ line :: after ∧
        (∀ l ∈ before, ∃ ss, Means l ss) ∧ (∀ ss, ¬ Means line ss) ∧
        e = .malformed (before.length + 1) (String.ofList (trim line))) ∧
    (∀ (s s' : Statement) (d : s.Layout) (d' : s'.Layout), d.text = d'.text →
      s = s' ∧ d.parts = d'.parts) ∧
    (∀ (s : Statement) (d : s.Layout), ¬ Silent d.text) ∧
    (∀ s : Statement, Nonempty s.Layout ↔ s.Legible) ∧
    ∀ rows : List Row, parse (render rows) = .ok (rows.flatMap Row.statements) := by
  refine ⟨exists_parse_iff, fun source => (parse_eq_iff source).1,
    fun source => (parse_eq_iff source).2, fun _ _ d d' => d.text_unique d', fun s d hsilent => ?_,
    exists_layout_iff, parse_render⟩
  have hloud := d.not_silent_text
  rw [silent_iff.mp hsilent] at hloud
  cases hloud

example : parse "// first\n\u00A0import from\tfrom \"x'y'\n" =
    .error (.malformed 2 "import from\tfrom \"x'y'") := by decide +kernel

example : parse "// first\n\u00A0import from\tfrom \"x' ;\n\nexport * from from" =
    .ok [.bind .static "from" "x", .exportAll "from"] := by decide +kernel

end Entry

end ComponentHost
