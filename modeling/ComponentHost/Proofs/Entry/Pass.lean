/-
# `ComponentHost.Proofs.Entry.Pass` — what one pass of relinking does to lines

A pass goes over the whole text and knows nothing of lines.  Its references can be found
in two places of a source that is read:

    from 'x.wasm'            where a statement has its reference
    'x from ' ... from 'y'   between two statements, where a locator ends the way the
                             text before a name ends

The first are replaced as they should be.  The second have names that end the way the
text before a name ends too, and there are no such files, so they stay as they are; but
the search goes on behind them, so the references up to there are missed.  No harm is
done: the locator in front of the first that is missed names no file, and nothing
behind it is evaluated.

So a pass makes lines of lines, and `Linked` says which of which.  Passes one after the
other do what one pass over all their references would do.
-/
import ComponentHost.Proofs.Entry.Line

namespace ComponentHost.Entry

namespace ImportForm

/-- The last two characters of the text before a name. -/
def ending : ImportForm → Option Char × Option Char
  | static => (some 'm', some 'o')
  | deferred => (some '(', some 't')
  | location _ => (some '(', some 'L')

theorem ending_before (f : ImportForm) {A : List Char} (h : eat f.shape.before A = some [])
    (X : List Char) : Shape.ending (X ++ A) = f.ending := by
  cases f with
  | static => exact Shape.ending_static h X
  | deferred => exact Shape.ending_deferred h X
  | location b => exact Shape.ending_relative h X

theorem ending_unique {f g : ImportForm} {X Y A B : List Char} (h : X ++ A = Y ++ B)
    (hA : eat f.shape.before A = some []) (hB : eat g.shape.before B = some []) :
    f.ending = g.ending := by
  rw [← f.ending_before hA X, ← g.ending_before hB Y, h]

theorem after_eq {f : ImportForm} (hf : f ≠ .location false) : f.after = f.shape.after := by
  rcases f with _ | _ | b
  · rfl
  · rfl
  · cases b with
    | true => rfl
    | false => exact absurd rfl hf

theorem eq_of_ending : ∀ {f g : ImportForm}, f.ending = g.ending → g ≠ .location false → f ≠ g →
    f = .location false ∧ g = .location true := by
  rintro (_ | _ | b) (_ | _ | c) <;> decide +revert

end ImportForm

/-! ## Statements and their references -/

variable {f : ImportForm} {target : List Char → Option (List Char)}

namespace BindLine

theorem read_of_ne (b : BindLine) (hf : f ≠ .location false) (hne : b.form ≠ f)
    {X X₂ : List Char} (hX : Quiet (X ++ X₂)) {V : List Char} (hfront : X ++ X₂ = V ++ b.opening)
    (U : List Char) :
    f.shape.read (X₂ ++ b.mark :: (b.locator ++ b.mark' :: (b.tail ++ U))) = none := by
  rw [f.shape_sound.read_cut (quiet_append.mp hX).2 b.mark_quote]
  split
  · rename_i hbefore
    -- the shape is the right one, so the statement must be a location that is not relative
    have hending := ImportForm.ending_unique hfront.symm b.opening_reads hbefore
    obtain ⟨hform, rfl⟩ := ImportForm.eq_of_ending hending hf hne
    have hreads := b.closing_reads (b.rest ++ U)
    rw [hform] at hreads
    rw [readQuoted_closed b.mark_quote b.locator_quiet b.mark'_quote, if_neg b.locator_ne,
      Option.bind_some, BindParts.tail, List.append_assoc]
    show Option.map _ (eat Shape.relative.after (b.closing ++ (b.rest ++ U))) = none
    rw [eat_relative_after hreads]
    rfl
  · rfl

theorem relink_of_ne (b : BindLine) (hf : f ≠ .location false) (hne : b.form ≠ f) {V : List Char}
    (hV : Quiet V) (U : List Char) :
    f.shape.relink target
        (V ++ (b.opening ++ b.mark :: (b.locator ++ b.mark' :: (b.tail ++ U)))) =
      V ++ (b.opening ++ b.mark ::
        f.shape.relink target (b.locator ++ b.mark' :: (b.tail ++ U))) := by
  have hquiet : Quiet (V ++ b.opening) := quiet_append.mpr ⟨hV, b.quiet_opening⟩
  rw [← List.append_assoc, Shape.relink_skip, Shape.relink_of_none
    (f.shape_sound.read_quote b.mark_quote _), List.append_assoc]
  intro X₁ X₂ hX _
  exact b.read_of_ne hf hne (hX ▸ hquiet) hX.symm U

/-- A statement of the form of the pass has its reference replaced, or it stays. -/
theorem relink_of_eq (b : BindLine) (hf : f ≠ .location false) (heq : b.form = f) {V : List Char}
    (hV : Quiet V) (U : List Char) :
    f.shape.relink target
        (V ++ (b.opening ++ b.mark :: (b.locator ++ b.mark' :: (b.tail ++ U)))) =
      V ++ (((target (plainName b.locator)).map fun locator =>
          f.shape.lead ++ locator ++ f.shape.tail).getD
            (b.opening ++ b.mark :: (b.locator ++ b.mark' :: b.closing)) ++
        f.shape.relink target (b.rest ++ U)) := by
  subst heq
  have hafter := b.closing_reads (b.rest ++ U)
  rw [ImportForm.after_eq hf] at hafter
  have hread := b.form.shape_sound.read_reference b.quiet_opening b.mark_quote b.locator_quiet
    b.locator_ne b.mark'_quote b.opening_reads hafter
  have hsplit : b.opening ++ b.mark :: (b.locator ++ b.mark' :: (b.tail ++ U)) =
      (b.opening ++ b.mark :: (b.locator ++ b.mark' :: b.closing)) ++ (b.rest ++ U) := by
    simp [BindParts.tail]
  rw [b.form.shape_sound.relink_up_to hV b.quiet_opening b.mark_quote b.opening_reads, hsplit,
    Shape.relink_of_some (by simp)]
  rw [← hsplit]
  simpa [BindParts.tail] using hread

end BindLine

/-! ## Where the next reference is -/

theorem cut_lines {ls : List Line} {T X B : List Char} {q : Char} (hT : Quiet T) (hX : Quiet X)
    (hq : isQuote q = true) (h : T ++ unlines ls = X ++ q :: B) :
    ∃ ls₁ b ls₂, ls = ls₁ ++ .bind b :: ls₂ ∧ X = T ++ unlines ls₁ ++ '\n' :: b.front ∧
      q = b.mark ∧ B = b.locator ++ b.mark' :: (b.tail ++ unlines ls₂) := by
  induction ls generalizing T with
  | nil =>
    have hquiet : Quiet (X ++ q :: B) := by
      rw [← h]
      simpa [unlines] using hT
    rw [(quiet_cons.mp (quiet_append.mp hquiet).2).1] at hq
    cases hq
  | cons l ls ih =>
    cases l with
    | plain p =>
      have hquiet : Quiet (T ++ '\n' :: p.text) :=
        quiet_append.mpr ⟨hT, quiet_cons.mpr ⟨rfl, p.quiet⟩⟩
      obtain ⟨ls₁, b, ls₂, rfl, rfl, rfl, rfl⟩ := ih hquiet (by
        rw [← h, unlines_cons]
        simp [Line.text])
      exact ⟨.plain p :: ls₁, b, ls₂, rfl, by simp [unlines_cons, Line.text], rfl, rfl⟩
    | bind b =>
      have hquiet : Quiet (T ++ '\n' :: b.front) :=
        quiet_append.mpr ⟨hT, quiet_cons.mpr ⟨rfl, b.quiet_front⟩⟩
      have hsplit : T ++ unlines (.bind b :: ls) =
          T ++ '\n' :: b.front ++ b.mark :: (b.locator ++ b.mark' :: (b.tail ++ unlines ls)) := by
        simp [unlines_cons, Line.text, BindParts.text]
      obtain ⟨rfl, rfl, rfl⟩ := cut_unique hX hquiet hq b.mark_quote (h.symm.trans hsplit)
      exact ⟨[], b, ls, rfl, by simp [unlines], rfl, rfl⟩

/-- Where a reference is read inside of a locator, it goes on to the next locator, and its name
ends the way the text before a name ends. -/
theorem exists_straddle {ls : List Line} {L T name rest : List Char} {q : Char} (hL : Quiet L)
    (hq : isQuote q = true) (hT : Quiet T)
    (h : f.shape.read (L ++ q :: (T ++ unlines ls)) = some (name, rest)) :
    OpenEnd L ∧ (∃ N, OpenEnd N ∧ name = plainName N) ∧
      ∃ ls₁ b ls₂ P R, ls = ls₁ ++ .bind b :: ls₂ ∧ b.locator = P ++ R ∧
        rest = R ++ b.mark' :: (b.tail ++ unlines ls₂) := by
  obtain ⟨A, q₁, N, q₂, C, hcut, hA, hq₁, hN, -, hq₂, hbefore, hafter, rfl⟩ :=
    f.shape_sound.read_eq_some h
  obtain ⟨rfl, rfl, hbehind⟩ := cut_unique hL hA hq hq₁ hcut
  obtain ⟨ls₁, b, ls₂, rfl, rfl, rfl, rfl⟩ := cut_lines hT hN hq₂ hbehind
  rw [eat_append_quote f.shape_sound.after_quiet b.mark'_quote, Option.map_eq_some_iff] at hafter
  obtain ⟨R, hR, rfl⟩ := hafter
  obtain ⟨P, hP, -⟩ := eat_taken f.shape_sound.after_quiet hR
  have hopen : OpenEnd (T ++ unlines ls₁ ++ '\n' :: b.front) := by
    rw [List.append_cons]
    exact b.openEnd_front.prepend _
  exact ⟨f.shape_sound.openEnd hbefore, ⟨_, hopen, rfl⟩, ls₁, b, ls₂, P, R, rfl, hP, rfl⟩

/-! ## One pass -/

/-- What a pass relies on: the texts that end the way the text before a name ends are no names of
files, and neither are the locators, which are texts that can be quoted and do not end so. -/
structure Legible (target : List Char → Option (List Char)) : Prop where
  target_of_openEnd : ∀ {name}, OpenEnd name → target (plainName name) = none
  quiet : ∀ {name locator}, target name = some locator → Quiet locator
  ne_nil : ∀ {name locator}, target name = some locator → locator ≠ []
  unbroken : ∀ {name locator}, target name = some locator → '\n' ∉ locator
  not_openEnd : ∀ {name locator}, target name = some locator → ¬ OpenEnd locator
  target_locator : ∀ {name locator}, target name = some locator → target (plainName locator) = none

/-- What passes do to lines, when `done` holds of the forms whose references they go over. -/
inductive Linked (done : ImportForm → Prop) (target : List Char → Option (List Char)) :
    List Line → List Line → Prop
  | nil : Linked done target [] []
  | plain (p : PlainLine) {ls ls' : List Line} (h : Linked done target ls ls') :
      Linked done target (.plain p :: ls) (.plain p :: ls')
  /-- A statement that has not had its turn, or whose file has no locator. -/
  | kept (b : BindLine) {ls ls' : List Line}
      (hb : done b.form → target (plainName b.locator) = none) (h : Linked done target ls ls') :
      Linked done target (.bind b :: ls) (.bind b :: ls')
  /-- A statement with the locator of its file. -/
  | found (b b' : BindLine) {ls ls' : List Line} (hform : b.form ≠ .location false)
      (hname : b'.name = b.name) (hlocator : target (plainName b.locator) = some b'.locator)
      (h : Linked done target ls ls') : Linked done target (.bind b :: ls) (.bind b' :: ls')
  /-- Nothing is known of what comes behind a locator that ends the way the text before a name
  ends. -/
  | lost (b : BindLine) {ls ls' : List Line} (hopen : OpenEnd b.locator) :
      Linked done target (.bind b :: ls) (.bind b :: ls')

theorem BindLine.text_linked (b : BindLine) {locator : List Char} (hquiet : Quiet locator)
    (hne : locator ≠ []) (hbreak : '\n' ∉ locator) :
    (b.linked hquiet hne hbreak).text =
      b.indent ++ (b.head ++ (b.form.shape.lead ++ locator ++ b.form.shape.tail ++ b.rest)) := by
  rw [b.form.shape_sound.lead_eq, b.form.shape_sound.tail_eq]
  simp [BindParts.text, BindParts.front, BindParts.tail, BindLine.linked]

mutual

/-- A pass over lines makes lines. -/
theorem relink_lines (ht : Legible target) (hf : f ≠ .location false) :
    ∀ (ls : List Line) {R : List Char}, Quiet R →
      ∃ ls', f.shape.relink target (R ++ unlines ls) = R ++ unlines ls' ∧
        Linked (· = f) target ls ls'
  | [], R, hR => by
      refine ⟨[], ?_, .nil⟩
      rw [unlines, List.flatMap_nil, List.append_nil]
      exact f.shape_sound.relink_of_quiet hR
  | .plain p :: ls, R, hR => by
      have hquiet : Quiet (R ++ '\n' :: p.text) :=
        quiet_append.mpr ⟨hR, quiet_cons.mpr ⟨rfl, p.quiet⟩⟩
      obtain ⟨ls', htext, hlinked⟩ := relink_lines ht hf ls hquiet
      refine ⟨.plain p :: ls', ?_, .plain p hlinked⟩
      simpa [unlines_cons, Line.text] using htext
  | .bind b :: ls, R, hR => by
      have hV : Quiet (R ++ '\n' :: (b.indent ++ b.head)) :=
        quiet_append.mpr ⟨hR, quiet_cons.mpr ⟨rfl,
          quiet_append.mpr ⟨quiet_of_blank b.indent_blank, b.quiet_head⟩⟩⟩
      have hsplit : R ++ unlines (.bind b :: ls) = R ++ '\n' :: (b.indent ++ b.head) ++
          (b.opening ++ b.mark :: (b.locator ++ b.mark' :: (b.tail ++ unlines ls))) := by
        simp [unlines_cons, Line.text, BindParts.text, BindParts.front]
      rw [hsplit]
      -- the mark is where the search stops being the same for all lines: it goes on behind the
      -- reference, or in the locator, whose end may look like the text before a name
      by_cases hb : b.form = f
      · obtain ⟨ls', htext, hlinked⟩ := relink_lines ht hf ls (quiet_append.mp b.quiet_tail).2
        rw [b.relink_of_eq hf hb hV, htext]
        cases hlocator : target (plainName b.locator) with
        | none =>
          refine ⟨.bind b :: ls', ?_, .kept b (fun _ => hlocator) hlinked⟩
          simp [unlines_cons, Line.text, BindParts.text, BindParts.front, BindParts.tail]
        | some locator =>
          have hform : b.form ≠ .location false := hb ▸ hf
          refine ⟨.bind (b.linked (ht.quiet hlocator) (ht.ne_nil hlocator)
            (ht.unbroken hlocator)) :: ls', ?_, .found b _ hform rfl hlocator hlinked⟩
          rw [unlines_cons, Line.text, b.text_linked, hb]
          simp
      · obtain ⟨ls', htext, hlinked⟩ :=
          relink_locator ht hf ls b.locator_quiet b.mark'_quote b.quiet_tail
        refine ⟨.bind b :: ls', ?_, ?_⟩
        · rw [b.relink_of_ne hf hb hV, htext]
          simp [unlines_cons, Line.text, BindParts.text, BindParts.front]
        · rcases hlinked with hlinked | hopen
          · exact .kept b (fun heq => absurd heq hb) hlinked
          · exact .lost b hopen
  termination_by ls => (ls.length, 0)

/-- So does a pass that is in the middle of a locator. -/
theorem relink_locator (ht : Legible target) (hf : f ≠ .location false) :
    ∀ (ls : List Line) {L : List Char}, Quiet L → ∀ {q : Char}, isQuote q = true →
      ∀ {T : List Char}, Quiet T →
        ∃ ls', f.shape.relink target (L ++ q :: (T ++ unlines ls)) = L ++ q :: (T ++ unlines ls') ∧
          (Linked (· = f) target ls ls' ∨ OpenEnd L)
  | ls, [], _, q, hq, T, hT => by
      obtain ⟨ls', htext, hlinked⟩ := relink_lines ht hf ls hT
      refine ⟨ls', ?_, .inl hlinked⟩
      rw [List.nil_append, Shape.relink_of_none (f.shape_sound.read_quote hq _), htext]
      rfl
  | ls, c :: L, hL, q, hq, T, hT => by
      cases hread : f.shape.read (c :: L ++ q :: (T ++ unlines ls)) with
      | none =>
        obtain ⟨ls', htext, hlinked⟩ := relink_locator ht hf ls (quiet_cons.mp hL).2 hq hT
        refine ⟨ls', ?_, hlinked.imp_right fun hopen => hopen.prepend [c]⟩
        rw [List.cons_append] at hread ⊢
        rw [Shape.relink_of_none hread, htext]
        rfl
      | some x =>
        obtain ⟨name, rest⟩ := x
        obtain ⟨hopen, ⟨N, hN, rfl⟩, ls₁, b, ls₂, P, R, rfl, hlocator, rfl⟩ :=
          exists_straddle hL hq hT hread
        -- what the search skips ends inside of a locator again, so this is a step to fewer lines
        obtain ⟨ls', htext, -⟩ := relink_locator ht hf ls₂
          (quiet_append.mp (hlocator ▸ b.locator_quiet)).2 b.mark'_quote b.quiet_tail
        have hsplit : ∀ ls, c :: L ++ q :: (T ++ unlines (ls₁ ++ .bind b :: ls)) =
            (c :: L ++ q :: (T ++ unlines ls₁ ++ '\n' :: (b.front ++ b.mark :: P))) ++
              (R ++ b.mark' :: (b.tail ++ unlines ls)) := by
          intro ls
          simp [unlines_append, unlines_cons, Line.text, BindParts.text, hlocator]
        refine ⟨ls₁ ++ .bind b :: ls', ?_, .inr hopen⟩
        rw [hsplit] at hread ⊢
        rw [Shape.relink_of_some (by simp) hread, ht.target_of_openEnd hN, htext, hsplit]
        rfl
  termination_by ls L => (ls.length, L.length + 1)

end

/-! ## All passes -/

variable {done done' : ImportForm → Prop}

theorem Linked.trans (ht : Legible target) :
    ∀ {ls₁ ls₂ ls₃ : List Line}, Linked done target ls₁ ls₂ → Linked done' target ls₂ ls₃ →
      Linked (fun f => done f ∨ done' f) target ls₁ ls₃
  | _, _, _, .nil, .nil => .nil
  | _, _, _, .plain p h, .plain _ h' => .plain p (h.trans ht h')
  | _, _, _, .kept b hb h, .kept _ hb' h' => .kept b (fun hf => hf.elim hb hb') (h.trans ht h')
  | _, _, _, .kept b _ h, .found _ b' hform hname hlocator h' =>
      .found b b' hform hname hlocator (h.trans ht h')
  | _, _, _, .kept b _ _, .lost _ hopen => .lost b hopen
  | _, _, _, .found b b' hform hname hlocator h, .kept _ _ h' =>
      .found b b' hform hname hlocator (h.trans ht h')
  | _, _, _, .found _ _ _ _ hlocator _, .found _ _ _ _ hlocator' _ => by
      -- what has been written already is the name of no file
      rw [ht.target_locator hlocator] at hlocator'
      cases hlocator'
  | _, _, _, .found _ _ _ _ hlocator _, .lost _ hopen => absurd hopen (ht.not_openEnd hlocator)
  | _, _, _, .lost b hopen, .kept _ _ _ => .lost b hopen
  | _, _, _, .lost _ hopen, .found _ _ _ _ hlocator _ => by
      rw [ht.target_of_openEnd hopen] at hlocator
      cases hlocator
  | _, _, _, .lost b hopen, .lost _ _ => .lost b hopen

theorem Linked.weaken (hdone : ∀ f, done' f → done f) {ls ls' : List Line}
    (h : Linked done target ls ls') : Linked done' target ls ls' := by
  induction h with
  | nil => exact .nil
  | plain p _ ih => exact .plain p ih
  | kept b hb _ ih => exact .kept b (fun hf => hb (hdone _ hf)) ih
  | found b b' hform hname hlocator _ ih => exact .found b b' hform hname hlocator ih
  | lost b hopen => exact .lost b hopen

theorem Shape.Sound.relink_break {s : Shape} (hs : s.Sound) (cs : List Char) :
    s.relink target ('\n' :: cs) = '\n' :: s.relink target cs := by
  have hread : s.read ('\n' :: cs) = none := by
    cases hread : s.read ('\n' :: cs) with
    | none => rfl
    | some x =>
      obtain ⟨A, _, _, _, _, hcs, -, -, -, -, -, hbefore, -⟩ := hs.read_eq_some hread
      obtain ⟨k, hblank, hkey⟩ := hs.key
      obtain ⟨A', rfl, -⟩ := hkey hbefore
      obtain ⟨rfl, -⟩ := List.cons.inj hcs
      exact absurd hblank (by decide)
  exact relink_of_none hread

theorem relinkText_break (cs : List Char) :
    relinkText target ('\n' :: cs) = '\n' :: relinkText target cs := by
  simp only [relinkText, Shape.static_sound.relink_break, Shape.deferred_sound.relink_break,
    Shape.relative_sound.relink_break]

/-- Relinking makes lines of lines, and passes over the references of all forms but one. -/
theorem relinkText_lines (ht : Legible target) (ls : List Line) :
    ∃ ls', relinkText target (unlines ls) = unlines ls' ∧
      Linked (· ≠ .location false) target ls ls' := by
  have hpass : ∀ {f : ImportForm}, f ≠ .location false → ∀ ls : List Line,
      ∃ ls', f.shape.relink target (unlines ls) = unlines ls' ∧ Linked (· = f) target ls ls' :=
    fun hf ls => relink_lines ht hf ls quiet_nil
  obtain ⟨ls₁, htext₁, h₁⟩ := hpass (f := .static) nofun ls
  obtain ⟨ls₂, htext₂, h₂⟩ := hpass (f := .deferred) nofun ls₁
  obtain ⟨ls₃, htext₃, h₃⟩ := hpass (f := .location true) nofun ls₂
  have hstatic : Shape.static.relink target (unlines ls) = unlines ls₁ := htext₁
  have hdeferred : Shape.deferred.relink target (unlines ls₁) = unlines ls₂ := htext₂
  refine ⟨ls₃, ?_, ((h₁.trans ht h₂).trans ht h₃).weaken ?_⟩
  · rw [relinkText, hstatic, hdeferred]
    exact htext₃
  · rintro (_ | _ | b) hf
    · exact .inl (.inl rfl)
    · exact .inl (.inr rfl)
    · cases b with
      | true => exact .inr rfl
      | false => exact absurd rfl hf

end ComponentHost.Entry
