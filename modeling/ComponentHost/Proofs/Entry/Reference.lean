/-
# `ComponentHost.Proofs.Entry.Reference` — where references are found

A shape is read at a place of a text.  Cut at its first quotation mark, the text is
`A ++ q :: B`; then the shape is read there only if its pieces before the name take
exactly `A`, and the rest is decided by `B`:

    s.read (A ++ q :: B)  =  the quoted text of q :: B, then s.after,   if eat s.before A = some []
                             none                                       otherwise

Relinking goes on one character where nothing is read, and behind the reference where
one is.  What the proofs need of the three shapes is collected in `Shape.Sound`; the
shapes differ in how the text before a name ends, so no place is one of two shapes.
-/
import ComponentHost.Entry.Reference
import ComponentHost.Proofs.Entry.Token

namespace ComponentHost.Entry

open Text (Blank Tight)

/-! ## What stands before a name -/

/-- The text ends with white space or an opening bracket. -/
def OpenEnd (cs : List Char) : Prop :=
  ∃ c, cs.getLast? = some c ∧ (Text.isBlank c = true ∨ c = '(')

theorem OpenEnd.prepend {cs : List Char} (h : OpenEnd cs) (ds : List Char) :
    OpenEnd (ds ++ cs) := by
  obtain ⟨c, hc, hopen⟩ := h
  exact ⟨c, by simp [List.getLast?_append, hc], hopen⟩

theorem openEnd_append_blank {W : List Char} (hne : W ≠ []) (hW : Blank W) (cs : List Char) :
    OpenEnd (cs ++ W) := by
  refine OpenEnd.prepend ⟨W.getLast hne, List.getLast?_eq_some_getLast hne, ?_⟩ cs
  exact .inl (hW _ (List.getLast_mem hne))

theorem openEnd_bracket {W : List Char} (hW : Blank W) (cs : List Char) :
    OpenEnd (cs ++ '(' :: W) := by
  cases W with
  | nil => exact OpenEnd.prepend ⟨'(', rfl, .inr rfl⟩ cs
  | cons c W =>
    rw [List.append_cons]
    exact openEnd_append_blank (by simp) hW _

namespace Shape

theorem before_static {A : List Char} (h : eat Shape.static.before A = some []) :
    ∃ W, W ≠ [] ∧ Blank W ∧ A = "from".toList ++ W := by
  simp only [Shape.static, kw, eat_word, eat_gap, eat_nil] at h
  obtain ⟨_, rfl, W, _, rfl, hne, hW, -, rfl⟩ := h
  exact ⟨W, hne, hW, by simp⟩

theorem before_deferred {A : List Char} (h : eat Shape.deferred.before A = some []) :
    ∃ V W, Blank V ∧ Blank W ∧ A = "import".toList ++ V ++ '(' :: W := by
  simp only [Shape.deferred, kw, eat_word, eat_space, eat_nil] at h
  obtain ⟨_, rfl, V, _, rfl, hV, -, _, rfl, W, _, rfl, hW, -, rfl⟩ := h
  exact ⟨V, W, hV, hW, by simp⟩

theorem before_relative {A : List Char} (h : eat Shape.relative.before A = some []) :
    ∃ U V W, Blank U ∧ Blank V ∧ Blank W ∧
      A = "new".toList ++ U ++ "URL".toList ++ V ++ '(' :: W := by
  simp only [Shape.relative, kw, eat_word, eat_gap, eat_space, eat_nil] at h
  obtain ⟨_, rfl, U, _, rfl, -, hU, -, _, rfl, V, _, rfl, hV, -, _, rfl, W, _, rfl, hW, -, rfl⟩ := h
  exact ⟨U, V, W, hU, hV, hW, by simp⟩

/-- What is written in front of the apostrophe that opens a locator. -/
def opening (s : Shape) : List Char := s.lead.dropLast

/-- What is written behind the apostrophe that closes a locator. -/
def closing (s : Shape) : List Char := s.tail.tail

/-- What all shapes have in common. -/
structure Sound (s : Shape) : Prop where
  lead_eq : s.lead = s.opening ++ ['\'']
  tail_eq : s.tail = '\'' :: s.closing
  opening_before : eat s.before s.opening = some []
  before_quiet : ∀ t ∈ s.before, t.Quiet
  after_quiet : ∀ t ∈ s.after, t.Quiet
  openEnd : ∀ {A}, eat s.before A = some [] → OpenEnd A
  /-- The text before a name starts with a character that is not blank and that it holds once. -/
  key : ∃ k, Text.isBlank k = false ∧
    ∀ {A}, eat s.before A = some [] → ∃ A', A = k :: A' ∧ k ∉ A'
  /-- The pieces after a name do not look at what follows them. -/
  after_taken : ∀ {cs rest}, eat s.after cs = some rest →
    ∃ P, cs = P ++ rest ∧ Quiet P ∧ ∀ rest', eat s.after (P ++ rest') = some rest'

theorem blank_not_mem {c : Char} (hc : Text.isBlank c = false) {W : List Char} (hW : Blank W) :
    c ∉ W := fun hmem => by simp [hW c hmem] at hc

/-- A pattern that ends with a word does not look at what follows it. -/
theorem eat_taken_word (ts : List Token) {c : Char} {w : List Char}
    (hts : ∀ t ∈ ts, t.Quiet) (hw : Quiet (c :: w)) (hc : Text.isBlank c = false)
    {cs rest : List Char} (h : eat (ts ++ [.word (c :: w)]) cs = some rest) :
    ∃ P, cs = P ++ rest ∧ Quiet P ∧
      ∀ rest', eat (ts ++ [.word (c :: w)]) (P ++ rest') = some rest' := by
  rw [eat_append_tokens, Option.bind_eq_some_iff] at h
  obtain ⟨cs', h, hword⟩ := h
  obtain ⟨P, rfl, hP, hstable⟩ := eat_taken hts h
  obtain ⟨_, rfl, hrest⟩ := eat_word.mp hword
  cases hrest
  refine ⟨P ++ c :: w, by simp, quiet_append.mpr ⟨hP, hw⟩, fun rest' => ?_⟩
  rw [List.append_assoc, eat_append_tokens, List.cons_append, hstable _ (Text.tight_cons.mpr hc)]
  exact eat_word.mpr ⟨rest', rfl, rfl⟩

theorem static_sound : Shape.static.Sound where
  lead_eq := by decide
  tail_eq := by decide
  opening_before := by decide
  before_quiet := by decide
  after_quiet := by decide
  openEnd := by
    intro A h
    obtain ⟨W, hne, hW, rfl⟩ := before_static h
    exact openEnd_append_blank hne hW _
  key := by
    refine ⟨'f', by decide, fun {A} h => ?_⟩
    obtain ⟨W, -, hW, rfl⟩ := before_static h
    have hword : 'f' ∉ "rom".toList := by decide
    have hblank : 'f' ∉ W := blank_not_mem (by decide) hW
    exact ⟨"rom".toList ++ W, rfl, by simp only [List.mem_append, hword, hblank, or_self,
      not_false_eq_true]⟩
  after_taken := by
    intro cs rest h
    cases h
    exact ⟨[], rfl, quiet_nil, fun _ => rfl⟩

theorem deferred_sound : Shape.deferred.Sound where
  lead_eq := by decide
  tail_eq := by decide
  opening_before := by decide
  before_quiet := by decide
  after_quiet := by decide
  openEnd := by
    intro A h
    obtain ⟨V, W, -, hW, rfl⟩ := before_deferred h
    exact openEnd_bracket hW _
  key := by
    refine ⟨'i', by decide, fun {A} h => ?_⟩
    obtain ⟨V, W, hV, hW, rfl⟩ := before_deferred h
    have hword : 'i' ∉ "mport".toList := by decide
    have hi : Text.isBlank 'i' = false := by decide
    refine ⟨"mport".toList ++ V ++ '(' :: W, rfl, ?_⟩
    simp only [List.mem_append, List.mem_cons, hword, blank_not_mem hi hV, blank_not_mem hi hW]
    decide
  after_taken := eat_taken_word [.space] (by decide) (by decide) (by decide)

theorem relative_sound : Shape.relative.Sound where
  lead_eq := by decide
  tail_eq := by decide
  opening_before := by decide
  before_quiet := by decide
  after_quiet := by decide
  openEnd := by
    intro A h
    obtain ⟨U, V, W, -, -, hW, rfl⟩ := before_relative h
    exact openEnd_bracket hW _
  key := by
    refine ⟨'n', by decide, fun {A} h => ?_⟩
    obtain ⟨U, V, W, hU, hV, hW, rfl⟩ := before_relative h
    have hnew : 'n' ∉ "ew".toList := by decide
    have hurl : 'n' ∉ "URL".toList := by decide
    have hn : Text.isBlank 'n' = false := by decide
    refine ⟨"ew".toList ++ U ++ "URL".toList ++ V ++ '(' :: W, rfl, ?_⟩
    simp only [List.mem_append, List.mem_cons, hnew, hurl, blank_not_mem hn hU,
      blank_not_mem hn hV, blank_not_mem hn hW]
    decide
  after_taken :=
    eat_taken_word [.space, kw ",", .space, kw "import.meta.url", .space]
      (by decide) (by decide) (by decide)

variable {s : Shape}

theorem Sound.before_ne_nil (hs : s.Sound) : eat s.before [] ≠ some [] := by
  intro h
  obtain ⟨k, -, hk⟩ := hs.key
  obtain ⟨A', hA, -⟩ := hk h
  cases hA

theorem Sound.before_unique (hs : s.Sound) {C B : List Char} (hCB : eat s.before (C ++ B) = some [])
    (hB : eat s.before B = some []) : C = [] := by
  obtain ⟨k, -, hk⟩ := hs.key
  obtain ⟨A', hA, hnot⟩ := hk hCB
  obtain ⟨B', rfl, -⟩ := hk hB
  cases C with
  | nil => rfl
  | cons c C =>
    obtain ⟨rfl, rfl⟩ := List.cons.inj hA
    simp at hnot

theorem Sound.before_tight (hs : s.Sound) {A : List Char} (h : eat s.before A = some [])
    (B : List Char) : Tight (A ++ B) := by
  obtain ⟨k, hblank, hk⟩ := hs.key
  obtain ⟨A', rfl, -⟩ := hk h
  exact Text.tight_cons.mpr hblank

/-! ## Shapes apart -/

/-- The last two characters that are not blank, the last one first, where white space may stand
between them only if the last one is taken away. -/
def ending (cs : List Char) : Option Char × Option Char :=
  ((Text.trimEnd cs).getLast?, (Text.trimEnd (Text.trimEnd cs).dropLast).getLast?)

theorem ending_eq {c d : Char} {X V W : List Char} (hc : Text.isBlank c = false)
    (hd : Text.isBlank d = false) (hV : Blank V) (hW : Blank W) :
    ending (X ++ c :: (V ++ d :: W)) = (some d, some c) := by
  have hlast : Text.trimEnd (X ++ c :: (V ++ d :: W)) = X ++ c :: V ++ [d] := by
    rw [Text.trimEnd_append hc, Text.trimEnd_append hd, Text.trimEnd_blank hW]
    simp
  rw [ending, hlast, List.dropLast_concat, Text.trimEnd_append hc, Text.trimEnd_blank hV,
    List.getLast?_concat, List.getLast?_concat]

theorem ending_static {A : List Char} (h : eat Shape.static.before A = some []) (X : List Char) :
    ending (X ++ A) = (some 'm', some 'o') := by
  obtain ⟨W, -, hW, rfl⟩ := before_static h
  have hsplit : X ++ ("from".toList ++ W) = (X ++ "fr".toList) ++ 'o' :: ([] ++ 'm' :: W) := by
    simp
  rw [hsplit]
  exact ending_eq (by decide) (by decide) nofun hW

theorem ending_deferred {A : List Char} (h : eat Shape.deferred.before A = some [])
    (X : List Char) : ending (X ++ A) = (some '(', some 't') := by
  obtain ⟨V, W, hV, hW, rfl⟩ := before_deferred h
  have hsplit : X ++ ("import".toList ++ V ++ '(' :: W) =
      (X ++ "impor".toList) ++ 't' :: (V ++ '(' :: W) := by
    simp
  rw [hsplit]
  exact ending_eq (by decide) (by decide) hV hW

theorem ending_relative {A : List Char} (h : eat Shape.relative.before A = some [])
    (X : List Char) : ending (X ++ A) = (some '(', some 'L') := by
  obtain ⟨U, V, W, -, hV, hW, rfl⟩ := before_relative h
  have hsplit : X ++ ("new".toList ++ U ++ "URL".toList ++ V ++ '(' :: W) =
      (X ++ "new".toList ++ U ++ "UR".toList) ++ 'L' :: (V ++ '(' :: W) := by
    simp
  rw [hsplit]
  exact ending_eq (by decide) (by decide) hV hW

/-! ## Reading a reference -/

theorem Sound.read_of_quiet (hs : s.Sound) {A : List Char} (hA : Quiet A) : s.read A = none := by
  rw [Shape.read]
  cases h : eat s.before A with
  | none => rfl
  | some B =>
    obtain ⟨P, rfl, -, -⟩ := eat_taken hs.before_quiet h
    simp [readQuoted_of_quiet (quiet_append.mp hA).2]

theorem Sound.read_cut (hs : s.Sound) {A B : List Char} {q : Char} (hA : Quiet A)
    (hq : isQuote q = true) :
    s.read (A ++ q :: B) =
      if eat s.before A = some [] then
        (readQuoted (q :: B)).bind fun x => (eat s.after x.2).map (plainName x.1, ·)
      else none := by
  rw [Shape.read, eat_append_quote hs.before_quiet hq]
  cases h : eat s.before A with
  | none => simp
  | some R =>
    cases R with
    | nil =>
      simp only [Option.map_some, List.nil_append, if_true, Option.bind_eq_bind, Option.bind_some]
      cases readQuoted (q :: B) with
      | none => rfl
      | some x =>
        simp only [Option.bind_some]
        cases eat s.after x.2 <;> rfl
    | cons c R =>
      obtain ⟨P, rfl, -, -⟩ := eat_taken hs.before_quiet h
      have hc : isQuote c = false := (quiet_cons.mp (quiet_append.mp hA).2).1
      simp [readQuoted, hc]

theorem Sound.read_eq_some (hs : s.Sound) {cs name rest : List Char}
    (h : s.read cs = some (name, rest)) :
    ∃ A q L q' C, cs = A ++ q :: (L ++ q' :: C) ∧ Quiet A ∧ isQuote q = true ∧ Quiet L ∧ L ≠ [] ∧
      isQuote q' = true ∧ eat s.before A = some [] ∧ eat s.after C = some rest ∧
      name = plainName L := by
  rcases quiet_or_cut cs with hcs | ⟨A, q, B, rfl, hA, hq⟩
  · rw [hs.read_of_quiet hcs] at h
    cases h
  · rw [hs.read_cut hA hq] at h
    split at h
    · rename_i hbefore
      obtain ⟨⟨L, C⟩, hquoted, h⟩ := Option.bind_eq_some_iff.mp h
      obtain ⟨rest', hafter, h⟩ := Option.map_eq_some_iff.mp h
      obtain ⟨q, q', hB, -, hq', hL, hne⟩ := readQuoted_eq_some.mp hquoted
      cases h
      cases hB
      exact ⟨A, q, L, q', C, rfl, hA, hq, hL, hne, hq', hbefore, hafter, rfl⟩
    · cases h

theorem Sound.read_reference (hs : s.Sound) {A L C rest : List Char} {q q' : Char} (hA : Quiet A)
    (hq : isQuote q = true) (hL : Quiet L) (hne : L ≠ []) (hq' : isQuote q' = true)
    (hbefore : eat s.before A = some []) (hafter : eat s.after C = some rest) :
    s.read (A ++ q :: (L ++ q' :: C)) = some (plainName L, rest) := by
  rw [hs.read_cut hA hq, if_pos hbefore, readQuoted_closed hq hL hq', if_neg hne]
  simp [hafter]

theorem Sound.read_quote (hs : s.Sound) {q : Char} (hq : isQuote q = true) (B : List Char) :
    s.read (q :: B) = none := by
  rw [← List.nil_append (q :: B), hs.read_cut quiet_nil hq, if_neg hs.before_ne_nil]

/-! ## Relinking, from left to right -/

variable {target : List Char → Option (List Char)}

theorem relink_nil : s.relink target [] = [] := rfl

theorem segmentsFrom_append (s : Shape) :
    ∀ P rest : List Char, s.segmentsFrom P.length (P ++ rest) = s.segmentsFrom 0 rest
  | [], _ => rfl
  | c :: P, rest => by
      rw [List.length_cons, List.cons_append, segmentsFrom, segmentsFrom_append s P rest]

theorem relink_of_none {c : Char} {cs : List Char} (h : s.read (c :: cs) = none) :
    s.relink target (c :: cs) = c :: s.relink target cs := by
  rw [relink, segments, segmentsFrom, h]
  rfl

theorem relink_of_some {P rest name : List Char} (hne : P ≠ [])
    (h : s.read (P ++ rest) = some (name, rest)) :
    s.relink target (P ++ rest) =
      ((target name).map fun locator => s.lead ++ locator ++ s.tail).getD P ++
        s.relink target rest := by
  cases P with
  | nil => exact absurd rfl hne
  | cons c P =>
    rw [List.cons_append] at h ⊢
    rw [relink, segments, segmentsFrom, h]
    have hskip : (P ++ rest).length - rest.length = P.length := by simp
    have htake : (c :: (P ++ rest)).take ((P ++ rest).length + 1 - rest.length) = c :: P := by
      rw [show (P ++ rest).length + 1 - rest.length = (c :: P).length by simp; omega,
        ← List.cons_append, List.take_left]
    simp only [hskip, htake, segmentsFrom_append, List.flatMap_cons, write]
    congr 1
    cases target name <;> rfl

theorem relink_skip {X T : List Char}
    (h : ∀ X₁ X₂, X = X₁ ++ X₂ → X₂ ≠ [] → s.read (X₂ ++ T) = none) :
    s.relink target (X ++ T) = X ++ s.relink target T := by
  induction X with
  | nil => rfl
  | cons c X ih =>
    have hread : s.read (c :: (X ++ T)) = none := h [] (c :: X) rfl (by simp)
    rw [List.cons_append, relink_of_none hread,
      ih fun X₁ X₂ hX hne => h (c :: X₁) X₂ (by simp [hX]) hne]
    rfl

theorem Sound.relink_of_quiet (hs : s.Sound) {A : List Char} (hA : Quiet A) :
    s.relink target A = A := by
  have hskip : s.relink target (A ++ []) = A ++ s.relink target [] := by
    refine relink_skip fun X₁ X₂ hX _ => ?_
    rw [List.append_nil]
    exact hs.read_of_quiet (quiet_append.mp (hX ▸ hA)).2
  simpa [relink_nil] using hskip

/-- A text in front of a quotation mark stays, and so does the mark, if no end of it is what
stands before a name. -/
theorem Sound.relink_past_quote (hs : s.Sound) {A B : List Char} {q : Char} (hA : Quiet A)
    (hq : isQuote q = true) (h : ∀ A₁ A₂, A = A₁ ++ A₂ → eat s.before A₂ ≠ some []) :
    s.relink target (A ++ q :: B) = A ++ q :: s.relink target B := by
  rw [relink_skip, relink_of_none (hs.read_quote hq B)]
  intro A₁ A₂ hA' _
  rw [hs.read_cut (quiet_append.mp (hA' ▸ hA)).2 hq, if_neg (h A₁ A₂ hA')]

theorem Sound.relink_up_to (hs : s.Sound) {X A B : List Char} {q : Char} (hX : Quiet X)
    (hA : Quiet A) (hq : isQuote q = true) (hbefore : eat s.before A = some []) :
    s.relink target (X ++ (A ++ q :: B)) = X ++ s.relink target (A ++ q :: B) := by
  refine relink_skip fun X₁ X₂ hX' hne => ?_
  have hquiet : Quiet (X₂ ++ A) := quiet_append.mpr ⟨(quiet_append.mp (hX' ▸ hX)).2, hA⟩
  rw [← List.append_assoc, hs.read_cut hquiet hq,
    if_neg fun h => hne (hs.before_unique h hbefore)]

end Shape

end ComponentHost.Entry
