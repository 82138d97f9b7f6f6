/-
# `ComponentHost.Proofs.Entry.Line` — the lines of a source that is read

A source that is read has lines of two kinds.  A line that binds holds two quotation
marks, and is cut by them and by the reference that they belong to:

    indent  head              opening  mark  locator  mark'  closing  rest
            const NAME = await import(  '    x.wasm    '     )        ;

A line of the other kind, which exports or says nothing, holds none.  Lines carry the
proofs that they are read as they should be, so a list of lines is a source that is
read:

    parseLines n (ls.map Line.text)  =  .ok (ls.flatMap Line.statements)

and every source that is read is such a list, once its comments hold no marks.  The
locator of a line may be exchanged for another one; that is what relinking does.
-/
import ComponentHost.Proofs.Entry.Statement

namespace ComponentHost.Entry

open Text (Blank Tight trim trimStart trimEnd)

/-! ## Reading one line -/

def readLine (line : List Char) : Option (List Statement) :=
  if isSilent (trim line) then some [] else (statement? (trim line)).map ([·])

theorem parseLines_cons {n : Nat} {line : List Char} {lines : List (List Char)}
    {ss : List Statement} (h : readLine line = some ss) :
    parseLines n (line :: lines) = (parseLines (n + 1) lines).map (ss ++ ·) := by
  rw [readLine] at h
  rw [parseLines]
  by_cases hs : isSilent (trim line) = true
  · rw [if_pos hs] at h
    cases h
    rw [if_pos hs]
    cases parseLines (n + 1) lines <;> rfl
  · rw [if_neg hs] at h
    obtain ⟨s, hstatement, hss⟩ := Option.map_eq_some_iff.mp h
    cases hss
    rw [if_neg hs, hstatement]
    rfl

theorem readLine_of_parseLines {n : Nat} {line : List Char} {lines : List (List Char)}
    {ss : List Statement} (h : parseLines n (line :: lines) = .ok ss) :
    ∃ ss₁ ss₂, readLine line = some ss₁ ∧ parseLines (n + 1) lines = .ok ss₂ := by
  rw [parseLines] at h
  rw [readLine]
  by_cases hs : isSilent (trim line) = true
  · rw [if_pos hs] at h ⊢
    exact ⟨[], ss, rfl, h⟩
  · rw [if_neg hs] at h ⊢
    cases hstatement : statement? (trim line) with
    | none =>
      rw [hstatement] at h
      cases h
    | some s =>
      rw [hstatement] at h
      cases hrest : parseLines (n + 1) lines with
      | error e =>
        rw [hrest] at h
        cases h
      | ok ss₂ => exact ⟨[s], ss₂, rfl, rfl⟩

/-! ## Lines that bind -/

/-- The parts of a line that binds. -/
structure BindParts where
  form : ImportForm
  name : List Char
  indent : List Char
  head : List Char
  opening : List Char
  mark : Char
  locator : List Char
  mark' : Char
  closing : List Char
  rest : List Char

namespace BindParts

/-- The parts behind the locator. -/
def tail (b : BindParts) : List Char := b.closing ++ b.rest

/-- The parts in front of the locator. -/
def front (b : BindParts) : List Char := b.indent ++ (b.head ++ b.opening)

def text (b : BindParts) : List Char :=
  b.front ++ b.mark :: (b.locator ++ b.mark' :: b.tail)

def statement (b : BindParts) : Statement :=
  .bind b.form (String.ofList b.name) (String.ofList b.locator)

end BindParts

/-- A line that binds. -/
structure BindLine extends BindParts where
  indent_blank : Blank indent
  /-- The head does not look at what follows it. -/
  head_reads : ∀ r, Tight r → readHead form (head ++ r) = some (name, r)
  opening_reads : eat form.shape.before opening = some []
  mark_quote : isQuote mark = true
  locator_quiet : Quiet locator
  locator_ne : locator ≠ []
  mark'_quote : isQuote mark' = true
  closing_reads : ∀ r, eat form.after (closing ++ r) = some r
  rest_ends : isEnd (trimEnd rest) = true
  unbroken : '\n' ∉ toBindParts.text

namespace BindLine

variable (b : BindLine)

theorem quiet_head : Quiet b.head := by
  obtain ⟨P, hP, hquiet, -⟩ := readHead_taken (b.head_reads [] Text.tight_nil)
  rwa [List.append_cancel_right hP]

theorem quiet_opening : Quiet b.opening := by
  obtain ⟨P, hP, hquiet, -⟩ := eat_taken b.form.shape_sound.before_quiet b.opening_reads
  rwa [hP, List.append_nil]

theorem quiet_front : Quiet b.front :=
  quiet_append.mpr ⟨quiet_of_blank b.indent_blank, quiet_append.mpr ⟨b.quiet_head, b.quiet_opening⟩⟩

/-- The text between the quoted text and the end is nothing, or ends with a bracket. -/
theorem closing_eq : (b.closing = [] ∨ ∃ Z, b.closing = Z ++ [')']) ∧ Quiet b.closing := by
  obtain ⟨K, hK, hlast, hquiet, -⟩ := b.form.after_taken (b.closing_reads [])
  rw [List.append_cancel_right hK]
  exact ⟨hlast, hquiet⟩

theorem quiet_tail : Quiet b.tail := by
  refine quiet_append.mpr ⟨b.closing_eq.2, ?_⟩
  obtain ⟨W, hW, hrest⟩ := Text.exists_trimEnd b.rest
  rw [hrest]
  exact quiet_append.mpr ⟨isEnd_eq_true b.rest_ends, quiet_of_blank hW⟩

theorem openEnd_front : OpenEnd b.front := by
  rw [BindParts.front, ← List.append_assoc]
  exact (b.form.shape_sound.openEnd b.opening_reads).prepend _

theorem locator_part : b.locator <:+: b.text :=
  ⟨b.front ++ [b.mark], b.mark' :: b.tail, by simp [BindParts.text]⟩

theorem head_front (B : List Char) :
    readHead b.form (b.head ++ (b.opening ++ B)) = some (b.name, b.opening ++ B) :=
  b.head_reads _ (b.form.shape_sound.before_tight b.opening_reads B)

theorem trim_text :
    trim b.text = b.head ++ (b.opening ++ b.mark :: (b.locator ++ b.mark' ::
      (b.closing ++ trimEnd b.rest))) := by
  have hstart : trimStart b.text =
      b.head ++ (b.opening ++ b.mark :: (b.locator ++ b.mark' :: b.tail)) := by
    refine Text.trimStart_eq_iff.mpr ⟨b.indent, b.indent_blank, by
      simp [BindParts.text, BindParts.front], ?_⟩
    obtain ⟨c, cs, hcs, hc⟩ :=
      readHead_cons (b.head_front (b.mark :: (b.locator ++ b.mark' :: b.tail)))
    rw [hcs]
    rcases hc with ⟨-, rfl⟩ | ⟨-, rfl⟩ <;> exact Text.tight_cons.mpr (by decide)
  have hmark : Text.isBlank b.mark' = false := not_isBlank_of_isQuote b.mark'_quote
  have htail : ∀ X, trimEnd (X ++ b.mark' :: b.tail) =
      X ++ b.mark' :: (b.closing ++ trimEnd b.rest) := by
    intro X
    rw [BindParts.tail]
    rcases b.closing_eq.1 with hnil | ⟨Z, hZ⟩
    · rw [hnil, List.nil_append, List.nil_append, Text.trimEnd_append hmark]
    · have hend := Text.trimEnd_append (c := ')') (by decide) (X ++ b.mark' :: Z) b.rest
      simpa [hZ] using hend
  have hcut := htail (b.head ++ (b.opening ++ b.mark :: b.locator))
  rw [trim, hstart]
  simpa using hcut

theorem readBind_text : readBind b.form (trim b.text) = some b.statement := by
  have hopening : ∀ B, eat b.form.shape.before (b.opening ++ b.mark :: B) = some (b.mark :: B) := by
    intro B
    rw [eat_append_quote b.form.shape_sound.before_quiet b.mark_quote, b.opening_reads]
    rfl
  have hquoted : ∀ C, readQuoted (b.mark :: (b.locator ++ b.mark' :: C)) = some (b.locator, C) := by
    intro C
    rw [readQuoted_closed b.mark_quote b.locator_quiet b.mark'_quote, if_neg b.locator_ne]
  have hclose := readClose_of (b.closing_reads (trimEnd b.rest)) b.rest_ends
  rw [b.trim_text, readBind, readBinding, b.head_front, Option.bind_some, hopening,
    Option.bind_some, hquoted, Option.map_some, Option.bind_some, hclose]
  rfl

theorem statement?_text : statement? (trim b.text) = some b.statement :=
  statement?_of_readBind b.readBind_text

theorem readLine_text : readLine b.text = some [b.statement] := by
  have hloud : isSilent (trim b.text) = false := by
    have hhead := b.head_front (b.mark :: (b.locator ++ b.mark' :: (b.closing ++ trimEnd b.rest)))
    rw [← b.trim_text] at hhead
    obtain ⟨c, cs, hcs, hc⟩ := readHead_cons hhead
    rw [hcs]
    rcases hc with ⟨-, rfl⟩ | ⟨-, rfl⟩ <;> rfl
  rw [readLine, hloud, b.statement?_text]
  rfl

/-- The line with another locator, written the way relinking writes it. -/
def linked {locator : List Char} (hquiet : Quiet locator) (hne : locator ≠ [])
    (hbreak : '\n' ∉ locator) : BindLine where
  toBindParts := { b.toBindParts with
    form := b.form.linked
    opening := b.form.shape.opening
    mark := '\''
    locator := locator
    mark' := '\''
    closing := b.form.shape.closing }
  indent_blank := b.indent_blank
  head_reads := by
    rw [ImportForm.readHead_linked]
    exact b.head_reads
  opening_reads := by
    rw [ImportForm.shape_linked]
    exact b.form.shape_sound.opening_before
  mark_quote := rfl
  locator_quiet := hquiet
  locator_ne := hne
  mark'_quote := rfl
  closing_reads := b.form.closing_reads
  rest_ends := b.rest_ends
  unbroken := by
    have hold := b.unbroken
    have hwritten : '\n' ∉ b.form.shape.opening ∧ '\n' ∉ b.form.shape.closing := by
      cases b.form <;> decide +revert
    simp only [BindParts.text, BindParts.front, BindParts.tail, List.mem_append, List.mem_cons,
      not_or] at hold ⊢
    exact ⟨⟨hold.1.1, hold.1.2.1, hwritten.1⟩, by decide, hbreak, by decide, hwritten.2,
      hold.2.2.2.2.2⟩

end BindLine

/-! ## Lines that hold no marks -/

def Statement.isBind : Statement → Bool
  | .bind .. => true
  | _ => false

/-- A line that exports or says nothing. -/
structure PlainLine where
  text : List Char
  statements : List Statement
  quiet : Quiet text
  unbroken : '\n' ∉ text
  reads : readLine text = some statements
  binds_nothing : ∀ s ∈ statements, s.isBind = false

/-! ## Lines -/

inductive Line where
  | plain (p : PlainLine)
  | bind (b : BindLine)

namespace Line

def text : Line → List Char
  | plain p => p.text
  | bind b => b.text

def statements : Line → List Statement
  | plain p => p.statements
  | bind b => [b.statement]

theorem unbroken (l : Line) : '\n' ∉ l.text := by
  cases l with
  | plain p => exact p.unbroken
  | bind b => exact b.unbroken

theorem reads (l : Line) : readLine l.text = some l.statements := by
  cases l with
  | plain p => exact p.reads
  | bind b => exact b.readLine_text

end Line

theorem parseLines_text (n : Nat) (ls : List Line) :
    parseLines n (ls.map Line.text) = .ok (ls.flatMap Line.statements) := by
  induction ls generalizing n with
  | nil => rfl
  | cons l ls ih =>
    rw [List.map_cons, parseLines_cons l.reads, ih]
    rfl

/-- The lines one after the other, each with a line break in front. -/
def unlines (ls : List Line) : List Char := ls.flatMap fun l => '\n' :: l.text

theorem unlines_cons (l : Line) (ls : List Line) :
    unlines (l :: ls) = '\n' :: (l.text ++ unlines ls) := rfl

theorem unlines_append (ls₁ ls₂ : List Line) :
    unlines (ls₁ ++ ls₂) = unlines ls₁ ++ unlines ls₂ := List.flatMap_append

theorem text_part {cs : List Char} {ls : List Line} (h : '\n' :: cs = unlines ls) {l : Line}
    (hl : l ∈ ls) : l.text <:+: cs := by
  obtain ⟨ls₁, ls₂, rfl⟩ := List.append_of_mem hl
  rw [unlines_append, unlines_cons] at h
  cases ls₁ with
  | nil =>
    obtain ⟨-, rfl⟩ := List.cons.inj h
    exact ⟨[], unlines ls₂, rfl⟩
  | cons l₁ ls₁ =>
    rw [unlines_cons] at h
    obtain ⟨-, rfl⟩ := List.cons.inj h
    exact ⟨l₁.text ++ unlines ls₁ ++ ['\n'], unlines ls₂, by simp⟩

theorem parse_of_unlines {source : String} {ls : List Line}
    (h : '\n' :: source.toList = unlines ls) : parse source = .ok (ls.flatMap Line.statements) := by
  have hlines : Text.splitAt '\n' source.toList = ls.map Line.text := by
    have hsplit : Text.splitAt '\n' ((ls.map Line.text).flatMap ('\n' :: ·)) =
        [] :: ls.map Line.text := by
      refine Text.splitAt_flatMap ?_
      intro text htext
      obtain ⟨l, -, rfl⟩ := List.mem_map.mp htext
      exact l.unbroken
    rw [List.flatMap_map, show ls.flatMap (fun l => '\n' :: l.text) = unlines ls from rfl, ← h,
      Text.splitAt_mark] at hsplit
    exact (List.cons.inj hsplit).2
  rw [parse, hlines, parseLines_text]

/-! ## What is read is made of lines -/

theorem exists_trim (cs : List Char) :
    ∃ V W, Blank V ∧ Blank W ∧ cs = V ++ (trim cs ++ W) := by
  obtain ⟨V, hV, hcs, -⟩ := Text.trimStart_eq_iff.mp (rfl : trimStart cs = trimStart cs)
  obtain ⟨W, hW, hstart⟩ := Text.exists_trimEnd (trimStart cs)
  refine ⟨V, W, hV, hW, ?_⟩
  rw [trim, ← hstart]
  exact hcs

/-- The end of a statement may have white space behind it, which is trimmed off. -/
theorem isEnd_trimEnd {cs W : List Char} (h : isEnd cs = true) (hW : Blank W) :
    isEnd (trimEnd (cs ++ W)) = true := by
  obtain ⟨V, hV, hcs, -⟩ := Text.trimStart_eq_iff.mp (rfl : trimStart cs = trimStart cs)
  rw [isEnd] at h
  rw [hcs]
  split at h
  · rename_i hnil
    have hblank : Blank (V ++ [] ++ W) := by
      intro c hc
      rw [List.append_nil] at hc
      exact (List.mem_append.mp hc).elim (hV c) (hW c)
    rw [hnil, Text.trimEnd_blank hblank]
    rfl
  · rename_i hone
    rw [hone, List.append_assoc, List.singleton_append, Text.trimEnd_append (by decide),
      Text.trimEnd_blank hW, isEnd,
      Text.trimStart_eq_iff.mpr ⟨V, hV, rfl, Text.tight_cons.mpr (by decide)⟩]
    rfl
  · cases h

theorem exists_bindLine {f : ImportForm} {line : List Char} {s : Statement}
    (hbreak : '\n' ∉ line) (h : readBind f (trim line) = some s) :
    ∃ b : BindLine, b.text = line := by
  rw [readBind, Option.bind_eq_some_iff] at h
  obtain ⟨⟨name, L, cs₃⟩, hbinding, hclose⟩ := h
  obtain ⟨f', hclose, -⟩ := Option.map_eq_some_iff.mp hclose
  rw [readBinding, Option.bind_eq_some_iff] at hbinding
  obtain ⟨⟨name', cs₁⟩, hhead, hbinding⟩ := hbinding
  obtain ⟨cs₂, hbefore, hquoted⟩ := Option.bind_eq_some_iff.mp hbinding
  obtain ⟨⟨L', cs₃'⟩, hquoted, hpair⟩ := Option.map_eq_some_iff.mp hquoted
  cases hpair
  obtain ⟨q, q', rfl, hq, hq', hL, hne⟩ := readQuoted_eq_some.mp hquoted
  obtain ⟨P, htrim, -, hreads⟩ := readHead_taken hhead
  obtain ⟨A, rfl, -, hstable⟩ := eat_taken f.shape_sound.before_quiet hbefore
  obtain ⟨rest, hafter, hend, hsame, hshape⟩ := readClose_taken hclose
  obtain ⟨K, rfl, -, -, hcloses⟩ := f'.after_taken hafter
  obtain ⟨V, W, hV, hW, hline⟩ := exists_trim line
  -- each part is what a pattern took, and the pattern takes the same in front of anything
  have hopening := hstable [] Text.tight_nil
  rw [List.append_nil] at hopening
  have htext : line = V ++ (P ++ A) ++ q :: (L ++ q' :: (K ++ (rest ++ W))) := by
    rw [hline, htrim]
    simp
  exact ⟨{ form := f', name := name', indent := V, head := P, opening := A, mark := q, locator := L,
           mark' := q', closing := K, rest := rest ++ W,
           indent_blank := hV
           head_reads := by rwa [hsame]
           opening_reads := by rwa [hshape]
           mark_quote := hq
           locator_quiet := hL
           locator_ne := hne
           mark'_quote := hq'
           closing_reads := hcloses
           rest_ends := isEnd_trimEnd hend hW
           unbroken := fun hmem => hbreak (htext ▸ hmem) }, htext.symm⟩

theorem readExport_quiet {ts : List Token} (hts : ∀ t ∈ ts, t.Quiet) {make : String → Statement}
    {cs : List Char} {s : Statement} (h : readExport ts make cs = some s) :
    Quiet cs ∧ ∃ binding, s = make binding := by
  rw [readExport, Option.bind_eq_some_iff] at h
  obtain ⟨cs₁, htokens, h⟩ := h
  obtain ⟨⟨name, rest⟩, hname, hfinish⟩ := Option.bind_eq_some_iff.mp h
  obtain ⟨P, rfl, hP, -⟩ := eat_taken hts htokens
  obtain ⟨rfl, -, hquiet, -⟩ := readName_taken hname
  simp only [finish] at hfinish
  split at hfinish
  · rename_i hend
    cases hfinish
    exact ⟨quiet_append.mpr ⟨hP, quiet_append.mpr ⟨hquiet, isEnd_eq_true hend⟩⟩, _, rfl⟩
  · cases hfinish

def IsComment (line : List Char) : Prop := "//".toList <+: trim line

instance (line : List Char) : Decidable (IsComment line) :=
  inferInstanceAs (Decidable ("//".toList <+: trim line))

theorem quiet_of_trim {line : List Char} (h : Quiet (trim line)) : Quiet line := by
  obtain ⟨V, W, hV, hW, hline⟩ := exists_trim line
  rw [hline]
  exact quiet_append.mpr ⟨quiet_of_blank hV, quiet_append.mpr ⟨h, quiet_of_blank hW⟩⟩

theorem exists_line {line : List Char} {ss : List Statement} (hbreak : '\n' ∉ line)
    (hcomment : IsComment line → Quiet line) (h : readLine line = some ss) :
    ∃ l : Line, l.text = line := by
  have hreads := h
  rw [readLine] at h
  split at h
  · rename_i hsilent
    have hquiet : Quiet line := by
      rw [isSilent, Bool.or_eq_true, List.isEmpty_iff, List.isPrefixOf_iff_prefix] at hsilent
      rcases hsilent with hnil | hslashes
      · exact quiet_of_trim (hnil ▸ quiet_nil)
      · exact hcomment hslashes
    cases h
    exact ⟨.plain ⟨line, [], hquiet, hbreak, hreads, fun _ hs => absurd hs List.not_mem_nil⟩, rfl⟩
  · obtain ⟨s, hstatement, rfl⟩ := Option.map_eq_some_iff.mp h
    have hexport : ∀ {ts make}, (∀ t ∈ ts, t.Quiet) →
        (∀ binding, (make binding).isBind = false) →
        readExport ts make (trim line) = some s → ∃ l : Line, l.text = line := by
      intro ts make hts hmake hread
      obtain ⟨hquiet, binding, rfl⟩ := readExport_quiet hts hread
      refine ⟨.plain ⟨line, [make binding], quiet_of_trim hquiet, hbreak, hreads, ?_⟩, rfl⟩
      intro s hs
      obtain rfl := List.mem_singleton.mp hs
      exact hmake binding
    have hbind : ∀ {f}, readBind f (trim line) = some s → ∃ l : Line, l.text = line := by
      intro f hread
      obtain ⟨b, hb⟩ := exists_bindLine hbreak hread
      exact ⟨.bind b, hb⟩
    rw [statement?_eq true] at hstatement
    simp only [Option.orElse_eq_orElse, Option.orElse_eq_or, Option.or_eq_some_iff] at hstatement
    rcases hstatement with h | ⟨-, h | ⟨-, h | ⟨-, h | ⟨-, h⟩⟩⟩⟩
    · exact hbind h
    · exact hbind h
    · exact hbind h
    · exact hexport (by decide) (fun _ => rfl) h
    · exact hexport (by decide) (fun _ => rfl) h

theorem exists_lines {n : Nat} {lines : List (List Char)} {ss : List Statement}
    (hlines : ∀ line ∈ lines, '\n' ∉ line ∧ (IsComment line → Quiet line))
    (h : parseLines n lines = .ok ss) : ∃ ls : List Line, ls.map Line.text = lines := by
  induction lines generalizing n ss with
  | nil => exact ⟨[], rfl⟩
  | cons line lines ih =>
    obtain ⟨⟨hbreak, hcomment⟩, htail⟩ := List.forall_mem_cons.mp hlines
    obtain ⟨ss₁, ss₂, hline, hrest⟩ := readLine_of_parseLines h
    obtain ⟨l, rfl⟩ := exists_line hbreak hcomment hline
    obtain ⟨ls, rfl⟩ := ih htail hrest
    exact ⟨l :: ls, rfl⟩

/-- A source that is read, and whose comments hold no marks, is made of lines. -/
theorem unlines_of_parse {source : String} {ss : List Statement} (h : parse source = .ok ss)
    (hcomments : ∀ line ∈ Text.splitAt '\n' source.toList, IsComment line → Quiet line) :
    ∃ ls : List Line, '\n' :: source.toList = unlines ls := by
  obtain ⟨hjoin, hunbroken⟩ := Text.flatMap_splitAt '\n' source.toList
  obtain ⟨ls, hls⟩ :=
    exists_lines (fun line hline => ⟨hunbroken line hline, hcomments line hline⟩) h
  refine ⟨ls, ?_⟩
  rw [← hjoin, ← hls, List.flatMap_map]
  rfl

end ComponentHost.Entry
