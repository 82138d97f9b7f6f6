/-
# `ComponentHost.Proofs.Entry.Stretch` — a text as the stretches between its marks

A reference takes two quotation marks of a text, the next one after the other.  So cut
the text at all its marks; then references can be told from the stretches alone:

    stretches    …   X ++ A  |  L  |  P ++ R   …
                         ▲      ▲      ▲
                     s.before  name  s.after

A stretch can have three parts in references at once: it is the name of one, it ends
with what stands before the name of the next, and it starts with what stands after the
name of the one before.  A stretch that opens a reference opens one of one shape only,
and the closing bracket at the start of a stretch is no part of what it opens.
-/
import ComponentHost.Proofs.Entry.Pass

namespace ComponentHost.Entry

/-- The stretches of a text between its quotation marks. -/
def stretches (cs : List Char) : List (List Char) :=
  cs.splitOnP isQuote

theorem stretches_of_quiet {A : List Char} (hA : Quiet A) : stretches A = [A] :=
  List.splitOnP_eq_singleton hA

theorem stretches_cut {A : List Char} {q : Char} (hA : Quiet A) (hq : isQuote q = true)
    (B : List Char) : stretches (A ++ q :: B) = A :: stretches B :=
  List.splitOnP_append_cons_of_forall_mem hA q hq B

theorem exists_stretch (cs : List Char) : ∃ T S, stretches cs = T :: S :=
  List.exists_cons_of_ne_nil (List.splitOnP_ne_nil _ cs)

theorem stretches_prepend {P cs T : List Char} {S : List (List Char)} (hP : Quiet P)
    (h : stretches cs = T :: S) : stretches (P ++ cs) = (P ++ T) :: S := by
  rcases quiet_or_cut cs with hcs | ⟨A, q, B, rfl, hA, hq⟩
  · rw [stretches_of_quiet hcs] at h
    cases h
    exact stretches_of_quiet (quiet_append.mpr ⟨hP, hcs⟩)
  · rw [stretches_cut hA hq] at h
    cases h
    rw [← List.append_assoc]
    exact stretches_cut (quiet_append.mpr ⟨hP, hA⟩) hq B

theorem eq_of_stretches {cs T : List Char} {S : List (List Char)} (h : stretches cs = T :: S) :
    Quiet T ∧
      ((S = [] ∧ cs = T) ∨ ∃ q B, isQuote q = true ∧ cs = T ++ q :: B ∧ stretches B = S) := by
  rcases quiet_or_cut cs with hcs | ⟨A, q, B, rfl, hA, hq⟩
  · rw [stretches_of_quiet hcs] at h
    cases h
    exact ⟨hcs, .inl ⟨rfl, rfl⟩⟩
  · rw [stretches_cut hA hq] at h
    cases h
    exact ⟨hA, .inr ⟨q, B, hq, rfl, rfl⟩⟩

theorem cut_of_stretches {cs T U : List Char} {S : List (List Char)}
    (h : stretches cs = T :: U :: S) :
    ∃ q B, Quiet T ∧ isQuote q = true ∧ cs = T ++ q :: B ∧ stretches B = U :: S := by
  obtain ⟨hT, ⟨hnil, -⟩ | ⟨q, B, hq, hcs, hB⟩⟩ := eq_of_stretches h
  · cases hnil
  · exact ⟨q, B, hT, hq, hcs, hB⟩

/-- The stretches from one on are those of a text, in front of which stand as many marks as
stretches. -/
theorem exists_text_of_drop {cs T : List Char} {S : List (List Char)} {i : Nat}
    (h : (stretches cs).drop i = T :: S) :
    ∃ X B, cs = X ++ B ∧ X.countP isQuote = i ∧ stretches B = T :: S := by
  induction i generalizing cs with
  | zero => exact ⟨[], cs, rfl, rfl, h⟩
  | succ i ih =>
    obtain ⟨A, S', hcs⟩ := exists_stretch cs
    rw [hcs, List.drop_succ_cons] at h
    obtain ⟨hA, ⟨rfl, -⟩ | ⟨q, B, hq, rfl, rfl⟩⟩ := eq_of_stretches hcs
    · rw [List.drop_nil] at h
      cases h
    · obtain ⟨X, C, rfl, hcount, hC⟩ := ih h
      refine ⟨A ++ q :: X, C, by simp, ?_, hC⟩
      have hzero : A.countP isQuote = 0 :=
        List.countP_eq_zero.mpr fun c hc => by simp [hA c hc]
      rw [List.countP_append, List.countP_cons_of_pos hq, hzero, hcount, Nat.zero_add]

/-- The text is empty or ends with a closing bracket. -/
def Shut (P : List Char) : Prop := P = [] ∨ ∃ P', P = P' ++ [')']

namespace Shape

/-- The shapes of references, in the order in which they are relinked. -/
def all : List Shape := [.static, .deferred, .relative]

theorem relinkText_eq_foldl (target : List Char → Option (List Char)) (cs : List Char) :
    relinkText target cs = all.foldl (fun cs s => s.relink target cs) cs := rfl

/-- A stretch that ends with what stands before a name. -/
def Opens (s : Shape) (T : List Char) : Prop :=
  ∃ X A, T = X ++ A ∧ eat s.before A = some []

/-- A stretch that starts with what stands after a name. -/
def Closes (s : Shape) (U : List Char) : Prop :=
  ∃ R, eat s.after U = some R

/-- The first three of the stretches make a reference to what is quoted. -/
inductive Refers (s : Shape) : List (List Char) → List Char → Prop
  | mk {T L U : List Char} {S : List (List Char)} (opens : s.Opens T) (quoted : L ≠ [])
      (closes : s.Closes U) : s.Refers (T :: L :: U :: S) L

variable {s p : Shape} {S : List (List Char)} {L N P T U : List Char} {i j : Nat}

theorem Opens.prepend (h : s.Opens T) (P : List Char) : s.Opens (P ++ T) := by
  obtain ⟨X, A, rfl, hA⟩ := h
  exact ⟨P ++ X, A, by simp, hA⟩

theorem Sound.opening_quiet (hs : s.Sound) : Quiet s.opening := by
  obtain ⟨P, hP, hquiet, -⟩ := eat_taken hs.before_quiet hs.opening_before
  rw [hP, List.append_nil]
  exact hquiet

theorem Sound.openEnd_of_opens (hs : s.Sound) (h : s.Opens T) : OpenEnd T := by
  obtain ⟨X, A, rfl, hA⟩ := h
  exact (hs.openEnd hA).prepend X

theorem Sound.opens_opening (hs : s.Sound) (X : List Char) : s.Opens (X ++ s.opening) :=
  ⟨X, _, rfl, hs.opening_before⟩

theorem Refers.prepend (h : s.Refers ((T :: S).drop i) L) (P : List Char) :
    s.Refers (((P ++ T) :: S).drop i) L := by
  cases i with
  | zero =>
    cases h with
    | mk hopens hne hcloses => exact .mk (hopens.prepend P) hne hcloses
  | succ i => exact h

/-- The name of a reference is the stretch that opens the next one. -/
theorem Refers.opens_next (h : s.Refers (S.drop j) N) (hnext : p.Refers (S.drop (j + 1)) L) :
    p.Opens N := by
  rw [← List.drop_drop] at hnext
  generalize S.drop j = S at *
  cases h with
  | mk =>
    cases hnext with
    | mk hopens => exact hopens

/-! ## Texts and their stretches -/

theorem Sound.after_of_closes (hs : s.Sound) {B : List Char} (hB : stretches B = U :: S)
    (h : s.Closes U) : ∃ rest, eat s.after B = some rest ∧ rest.length ≤ B.length := by
  obtain ⟨R, hR⟩ := h
  obtain ⟨P, rfl, -, -⟩ := hs.after_taken hR
  obtain ⟨-, ⟨-, rfl⟩ | ⟨q, C, hq, rfl, -⟩⟩ := eq_of_stretches hB
  · exact ⟨R, hR, by simp⟩
  · refine ⟨R ++ q :: C, ?_, by simp⟩
    rw [eat_append_quote hs.after_quiet hq, hR]
    rfl

theorem Sound.exists_refers (hs : s.Sound) {T name rest : List Char}
    (h : s.read T = some (name, rest)) :
    ∀ X : List Char, ∃ L, name = plainName L ∧
      s.Refers ((stretches (X ++ T)).drop (X.countP isQuote)) L
  | [] => by
      obtain ⟨A, q, L, q', C, rfl, hA, hq, hL, hne, hq', hbefore, hafter, rfl⟩ := hs.read_eq_some h
      obtain ⟨P, rfl, hP, htaken⟩ := hs.after_taken hafter
      obtain ⟨R, S, hrest⟩ := exists_stretch rest
      refine ⟨L, rfl, ?_⟩
      rw [List.nil_append, stretches_cut hA hq, stretches_cut hL hq', stretches_prepend hP hrest]
      exact .mk ⟨[], A, rfl, hbefore⟩ hne ⟨R, htaken R⟩
  | c :: X => by
      obtain ⟨L, rfl, hrefers⟩ := hs.exists_refers h X
      refine ⟨L, rfl, ?_⟩
      cases hc : isQuote c with
      | true =>
        rw [List.countP_cons_of_pos hc, List.cons_append, ← List.nil_append (c :: (X ++ T)),
          stretches_cut quiet_nil hc]
        exact hrefers
      | false =>
        obtain ⟨T', S, hstretches⟩ := exists_stretch (X ++ T)
        rw [hstretches] at hrefers
        have hquiet : Quiet [c] := quiet_cons.mpr ⟨hc, quiet_nil⟩
        rw [List.countP_cons_of_neg (by simp [hc]), List.cons_append, ← List.singleton_append,
          stretches_prepend hquiet hstretches]
        exact hrefers.prepend [c]

/-- Two references in a row are read in the text, the second one within the first. -/
theorem Sound.exists_reads (hs : s.Sound) {cs : List Char}
    (h : s.Refers ((stretches cs).drop j) N) (hnext : s.Refers ((stretches cs).drop (j + 1)) L) :
    ∃ Y V T rest rest', cs = Y ++ V ++ T ∧ (Y ++ V).countP isQuote = j + 1 ∧ V ≠ [] ∧
      s.read T = some (plainName L, rest) ∧ s.read (V ++ T) = some (plainName N, rest') ∧
        rest'.length < T.length := by
  rw [← List.drop_drop] at hnext
  generalize hS : (stretches cs).drop j = S at h hnext
  cases h with
  | @mk T₀ N T₁ S hopens hne hcloses =>
    cases hnext with
    | @mk _ _ T₂ S hopens' hne' hcloses' =>
      obtain ⟨Y, cs, rfl, rfl, hcs⟩ := exists_text_of_drop hS
      obtain ⟨q, B, hT₀, hq, rfl, hB⟩ := cut_of_stretches hcs
      obtain ⟨q', C, hN, hq', rfl, hC⟩ := cut_of_stretches hB
      obtain ⟨q'', D, hL, hq'', rfl, hD⟩ := cut_of_stretches hC
      obtain ⟨rest, hrest, -⟩ := hs.after_of_closes hD hcloses'
      obtain ⟨rest', hrest', hlen⟩ := hs.after_of_closes hC hcloses
      obtain ⟨X, A, rfl, hA⟩ := hopens
      obtain ⟨X', A', rfl, hA'⟩ := hopens'
      obtain ⟨hX, hA₀⟩ := quiet_append.mp hT₀
      obtain ⟨hX', hA₁⟩ := quiet_append.mp hN
      refine ⟨Y ++ X, A ++ q :: X', A' ++ q' :: (L ++ q'' :: D), rest, rest', by simp, ?_,
        by simp, ?_, ?_, ?_⟩
      · have hzero : ∀ {A : List Char}, Quiet A → A.countP isQuote = 0 :=
          fun hA => List.countP_eq_zero.mpr fun c hc => by simp [hA c hc]
        simp only [List.countP_append, List.countP_cons_of_pos hq, hzero hX, hzero hA₀, hzero hX']
      · exact hs.read_reference hA₁ hq' hL hne' hq'' hA' hrest
      · have hread := hs.read_reference hA₀ hq hN hne hq' hA hrest'
        simpa using hread
      · rw [List.length_append, List.length_cons]
        omega

/-! ## Brackets -/

/-- No closing bracket stands before a name, and what stands after a name, if anything does, ends
with one. -/
structure Bracketed (s : Shape) : Prop extends s.Sound where
  before_open : ∀ {A}, eat s.before A = some [] → ')' ∉ A
  after_shut : ∀ {C rest}, eat s.after C = some rest → ∃ P, C = P ++ rest ∧ Shut P
  closing_shut : Shut s.closing
  closing_quiet : Quiet s.closing

theorem exists_bracket_of_eat (ts : List Token) (hts : ∀ t ∈ ts, t.Quiet) {cs rest : List Char}
    (h : eat (ts ++ [kw ")"]) cs = some rest) : ∃ P, cs = P ++ ')' :: rest := by
  rw [eat_append_tokens, Option.bind_eq_some_iff] at h
  obtain ⟨cs', hts', hword⟩ := h
  obtain ⟨P, rfl, -, -⟩ := eat_taken hts hts'
  obtain ⟨_, rfl, hrest⟩ := eat_word.mp hword
  cases hrest
  exact ⟨P, rfl⟩

theorem shut_of_eat (ts : List Token) (hts : ∀ t ∈ ts, t.Quiet) {cs rest : List Char}
    (h : eat (ts ++ [kw ")"]) cs = some rest) : ∃ P, cs = P ++ rest ∧ Shut P := by
  obtain ⟨P, rfl⟩ := exists_bracket_of_eat ts hts h
  exact ⟨P ++ [')'], List.append_cons .., .inr ⟨P, rfl⟩⟩

theorem static_bracketed : Shape.static.Bracketed where
  toSound := static_sound
  before_open := by
    intro A h
    obtain ⟨W, -, hW, rfl⟩ := before_static h
    have hblank : ')' ∉ W := blank_not_mem (by decide) hW
    simp [hblank]
  after_shut := by
    intro C rest h
    cases h
    exact ⟨[], rfl, .inl rfl⟩
  closing_shut := .inl (by decide)
  closing_quiet := by decide

theorem deferred_bracketed : Shape.deferred.Bracketed where
  toSound := deferred_sound
  before_open := by
    intro A h
    obtain ⟨V, W, hV, hW, rfl⟩ := before_deferred h
    have hblank : ∀ {W}, Text.Blank W → ')' ∉ W := blank_not_mem (by decide)
    simp [hblank hV, hblank hW]
  after_shut := shut_of_eat [.space] (by decide)
  closing_shut := .inr ⟨[], by decide⟩
  closing_quiet := by decide

theorem relative_bracketed : Shape.relative.Bracketed where
  toSound := relative_sound
  before_open := by
    intro A h
    obtain ⟨U, V, W, hU, hV, hW, rfl⟩ := before_relative h
    have hblank : ∀ {W}, Text.Blank W → ')' ∉ W := blank_not_mem (by decide)
    simp [hblank hU, hblank hV, hblank hW]
  after_shut := shut_of_eat [.space, kw ",", .space, kw "import.meta.url", .space] (by decide)
  closing_shut := .inr ⟨[], by decide⟩
  closing_quiet := by decide

theorem bracketed_of_mem (hs : s ∈ all) : s.Bracketed := by
  simp only [all, List.mem_cons, List.not_mem_nil, or_false] at hs
  rcases hs with rfl | rfl | rfl
  · exact static_bracketed
  · exact deferred_bracketed
  · exact relative_bracketed

theorem Bracketed.shut_of_after (hs : s.Bracketed) {R : List Char}
    (h : eat s.after (P ++ R) = some R) : Shut P := by
  obtain ⟨P', hP', hshut⟩ := hs.after_shut h
  rwa [List.append_cancel_right hP']

theorem eq_of_opens (hs : s ∈ all) (hp : p ∈ all) (h : s.Opens T) (h' : p.Opens T) : s = p := by
  have hform : ∀ s ∈ all, ∃ f : ImportForm, f ≠ .location false ∧ f.shape = s := by
    intro s hs
    simp only [all, List.mem_cons, List.not_mem_nil, or_false] at hs
    rcases hs with rfl | rfl | rfl
    · exact ⟨.static, by decide, rfl⟩
    · exact ⟨.deferred, by decide, rfl⟩
    · exact ⟨.location true, by decide, rfl⟩
  obtain ⟨f, hf, rfl⟩ := hform s hs
  obtain ⟨g, hg, rfl⟩ := hform p hp
  obtain ⟨X, A, rfl, hA⟩ := h
  obtain ⟨Y, B, hT, hB⟩ := h'
  have hending := ImportForm.ending_unique hT hA hB
  by_contra hne
  exact hf (ImportForm.eq_of_ending hending hg fun heq => hne (congrArg _ heq)).1

/-- What is taken after a name is no part of what opens the next reference. -/
theorem Bracketed.opens_of_prepend (hs : s.Bracketed) (hP : Shut P) (h : s.Opens (P ++ T)) :
    s.Opens T := by
  rcases hP with rfl | ⟨P, rfl⟩
  · exact h
  · obtain ⟨X, A, heq, hA⟩ := h
    rw [List.append_assoc, List.singleton_append] at heq
    rcases List.append_eq_append_iff.mp heq with ⟨Y, rfl, hT⟩ | ⟨Y, rfl, rfl⟩
    · cases Y with
      | nil =>
        rw [List.nil_append] at hT
        exact absurd (hT ▸ List.mem_cons_self) (hs.before_open hA)
      | cons c Y =>
        obtain ⟨-, rfl⟩ := List.cons.inj hT
        exact ⟨Y, A, rfl, hA⟩
    · have hmem : ')' ∈ Y ++ ')' :: T := List.mem_append_right _ List.mem_cons_self
      exact absurd hmem (hs.before_open hA)

theorem Bracketed.refers_of_prepend (hs : s.Bracketed) (hP : Shut P)
    (h : s.Refers (((P ++ T) :: S).drop i) L) : s.Refers ((T :: S).drop i) L := by
  cases i with
  | zero =>
    cases h with
    | mk hopens hne hcloses => exact .mk (hs.opens_of_prepend hP hopens) hne hcloses
  | succ i => exact h

/-- What is taken after a name does not depend on what opens the next reference. -/
theorem Bracketed.closes_of_opening (hs : s.Bracketed) (hp : p.Bracketed) {X : List Char}
    (h : s.Closes (X ++ p.opening)) (A : List Char) : s.Closes (X ++ A) := by
  obtain ⟨R, hR⟩ := h
  obtain ⟨P, hP, hshut⟩ := hs.after_shut hR
  obtain ⟨P', hP', -, htaken⟩ := hs.after_taken hR
  obtain rfl : P' = P := List.append_cancel_right (hP'.symm.trans hP)
  rcases List.append_eq_append_iff.mp hP with ⟨Y, rfl, hopening⟩ | ⟨Y, rfl, rfl⟩
  · rcases hshut with hnil | ⟨Q, hQ⟩
    · rw [List.append_eq_nil_iff.mp hnil |>.1]
      rw [hnil] at htaken
      exact ⟨_, htaken A⟩
    · cases Y using List.reverseRecOn with
      | nil =>
        rw [List.append_nil] at htaken
        exact ⟨A, htaken A⟩
      | append_singleton Y c =>
        rw [← List.append_assoc] at hQ
        obtain ⟨-, hc⟩ := List.append_inj' hQ rfl
        cases hc
        refine absurd ?_ (hp.before_open hp.opening_before)
        rw [hopening]
        simp
  · refine ⟨Y ++ A, ?_⟩
    rw [List.append_assoc]
    exact htaken _

end Shape

end ComponentHost.Entry
