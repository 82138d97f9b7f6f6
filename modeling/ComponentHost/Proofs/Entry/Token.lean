/-
# `ComponentHost.Proofs.Entry.Token` — what reading a piece takes from a text

Quotation marks are what the texts of an entry source are cut at.  A text without any
is *quiet*; every text is quiet, or a quiet text, a mark and the rest, in one way only.
No piece of a pattern holds a mark, so pieces are read within one quiet text:

    eat ts (A ++ q :: B)  =  eat ts A, with q :: B behind what is left

Two more facts serve both relinking and reading.  What a pattern takes is quiet, and
the pattern takes the same when something else follows that is *tight*, which means
that it does not start with white space.
-/
import ComponentHost.Entry.Token
import ComponentHost.Proofs.Text.Blank

namespace ComponentHost

namespace Entry

open Text (Blank Tight)

/-! ## Quiet texts -/

/-- The text holds no quotation mark. -/
def Quiet (cs : List Char) : Prop := ∀ c ∈ cs, isQuote c = false

instance (cs : List Char) : Decidable (Quiet cs) :=
  List.decidableBAll (isQuote · = false) cs

theorem isQuote_iff {c : Char} : isQuote c = true ↔ c = '\'' ∨ c = '"' := by
  simp [isQuote]

theorem not_isBlank_of_isQuote {q : Char} (hq : isQuote q = true) : Text.isBlank q = false := by
  rcases isQuote_iff.mp hq with rfl | rfl <;> decide

theorem not_isNamePart_of_isQuote {q : Char} (hq : isQuote q = true) :
    Text.isNamePart q = false := by
  rcases isQuote_iff.mp hq with rfl | rfl <;> decide

theorem not_isQuote_of_isNameStart {c : Char} (hc : Text.isNameStart c = true) :
    isQuote c = false := by
  cases hq : isQuote c with
  | false => rfl
  | true => rcases isQuote_iff.mp hq with rfl | rfl <;> exact absurd hc (by decide)

@[simp]
theorem quiet_nil : Quiet [] := nofun

@[simp]
theorem quiet_cons {c : Char} {cs : List Char} :
    Quiet (c :: cs) ↔ isQuote c = false ∧ Quiet cs := by
  simp [Quiet]

@[simp]
theorem quiet_append {cs ds : List Char} : Quiet (cs ++ ds) ↔ Quiet cs ∧ Quiet ds := by
  simp only [Quiet, List.mem_append]
  exact ⟨fun h => ⟨fun c hc => h c (.inl hc), fun c hc => h c (.inr hc)⟩,
    fun h c hc => hc.elim (h.1 c) (h.2 c)⟩

theorem quiet_of_blank {cs : List Char} (h : Blank cs) : Quiet cs := by
  intro c hc
  cases hq : isQuote c with
  | false => rfl
  | true => exact absurd (h c hc) (by simp [not_isBlank_of_isQuote hq])

theorem quiet_or_cut (cs : List Char) :
    Quiet cs ∨ ∃ A q B, cs = A ++ q :: B ∧ Quiet A ∧ isQuote q = true := by
  induction cs with
  | nil => exact .inl quiet_nil
  | cons c cs ih =>
    cases hc : isQuote c with
    | true => exact .inr ⟨[], c, cs, rfl, quiet_nil, hc⟩
    | false =>
      rcases ih with h | ⟨A, q, B, rfl, hA, hq⟩
      · exact .inl (quiet_cons.mpr ⟨hc, h⟩)
      · exact .inr ⟨c :: A, q, B, rfl, quiet_cons.mpr ⟨hc, hA⟩, hq⟩

theorem cut_unique :
    ∀ {A A' B B' : List Char} {q q' : Char}, Quiet A → Quiet A' → isQuote q = true →
      isQuote q' = true → A ++ q :: B = A' ++ q' :: B' → A = A' ∧ q = q' ∧ B = B'
  | [], [], _, _, _, _, _, _, _, _, h => by
      cases h
      exact ⟨rfl, rfl, rfl⟩
  | [], c :: A', _, _, q, q', _, hA', hq, _, h => by
      cases h
      exact absurd hq (by simp [(quiet_cons.mp hA').1])
  | c :: A, [], _, _, q, q', hA, _, _, hq', h => by
      cases h
      exact absurd hq' (by simp [(quiet_cons.mp hA).1])
  | c :: A, c' :: A', _, _, _, _, hA, hA', hq, hq', h => by
      obtain ⟨rfl, htail⟩ := List.cons.inj h
      have hrest := cut_unique (quiet_cons.mp hA).2 (quiet_cons.mp hA').2 hq hq' htail
      exact ⟨congrArg _ hrest.1, hrest.2⟩

/-! ## Pieces -/

def Token.Quiet : Token → Prop
  | .word w => Entry.Quiet w
  | _ => True

instance : DecidablePred Token.Quiet
  | .word w => inferInstanceAs (Decidable (Entry.Quiet w))
  | .space => .isTrue trivial
  | .gap => .isTrue trivial

theorem afterText_eq_some {w cs rest : List Char} :
    afterText w cs = some rest ↔ cs = w ++ rest := by
  induction w generalizing cs with
  | nil => simp [afterText]
  | cons c w ih =>
    cases cs with
    | nil => simp [afterText]
    | cons d cs =>
      by_cases h : c = d
      · simp [afterText, h, ih]
      · simp [afterText, h, Ne.symm h]

theorem eat_nil {cs rest : List Char} : eat [] cs = some rest ↔ cs = rest := by simp [eat]

theorem eat_word {w : List Char} {ts : List Token} {cs rest : List Char} :
    eat (.word w :: ts) cs = some rest ↔ ∃ cs', cs = w ++ cs' ∧ eat ts cs' = some rest := by
  simp [eat, Token.eat, Option.bind_eq_some_iff, afterText_eq_some]

theorem eat_space {ts : List Token} {cs rest : List Char} :
    eat (.space :: ts) cs = some rest ↔
      ∃ W cs', cs = W ++ cs' ∧ Blank W ∧ Tight cs' ∧ eat ts cs' = some rest := by
  simp only [eat, Token.eat, Option.bind_some]
  constructor
  · intro h
    obtain ⟨W, hW, hcs, htight⟩ := Text.trimStart_eq_iff.mp rfl
    exact ⟨W, _, hcs, hW, htight, h⟩
  · rintro ⟨W, cs', hcs, hW, htight, h⟩
    rwa [Text.trimStart_eq_iff.mpr ⟨W, hW, hcs, htight⟩]

theorem eat_gap {ts : List Token} {cs rest : List Char} :
    eat (.gap :: ts) cs = some rest ↔
      ∃ W cs', cs = W ++ cs' ∧ W ≠ [] ∧ Blank W ∧ Tight cs' ∧ eat ts cs' = some rest := by
  have hspace : eat (.gap :: ts) cs = some rest ↔
      (∀ h : cs = [], False) ∧ ¬ Tight cs ∧ eat (.space :: ts) cs = some rest := by
    cases cs with
    | nil => simp [eat, Token.eat]
    | cons c cs =>
      cases hc : Text.isBlank c <;>
        simp [eat, Token.eat, hc, Text.tight_cons, Text.trimStart]
  rw [hspace, eat_space]
  constructor
  · rintro ⟨-, hloose, W, cs', rfl, hW, htight, h⟩
    refine ⟨W, cs', rfl, ?_, hW, htight, h⟩
    rintro rfl
    exact hloose htight
  · rintro ⟨W, cs', rfl, hne, hW, htight, h⟩
    refine ⟨fun hnil => hne (List.append_eq_nil_iff.mp hnil).1, ?_, W, cs', rfl, hW, htight, h⟩
    cases W with
    | nil => exact absurd rfl hne
    | cons c W => simp [Text.tight_cons, hW c List.mem_cons_self]

theorem eat_append_tokens (ts us : List Token) (cs : List Char) :
    eat (ts ++ us) cs = (eat ts cs).bind (eat us) := by
  induction ts generalizing cs with
  | nil => rfl
  | cons t ts ih =>
    simp only [List.cons_append, eat]
    cases t.eat cs with
    | none => rfl
    | some cs => exact ih cs

/-! ## Patterns and quotation marks -/

theorem trimStart_append_quote {q : Char} (hq : isQuote q = true) (A B : List Char) :
    Text.trimStart (A ++ q :: B) = Text.trimStart A ++ q :: B := by
  induction A with
  | nil => simp [Text.trimStart, not_isBlank_of_isQuote hq]
  | cons c A ih =>
    cases hc : Text.isBlank c with
    | true => simpa [Text.trimStart, hc] using ih
    | false => simp [Text.trimStart, hc]

theorem afterText_append_quote {q : Char} (hq : isQuote q = true) (B : List Char) :
    ∀ {w : List Char} (A : List Char), Quiet w →
      afterText w (A ++ q :: B) = (afterText w A).map (· ++ q :: B)
  | [], A, _ => by simp [afterText]
  | c :: w, [], hw => by
      have hne : c ≠ q := by
        rintro rfl
        simp [(quiet_cons.mp hw).1] at hq
      simp [afterText, hne]
  | c :: w, d :: A, hw => by
      have ih := afterText_append_quote hq B A (quiet_cons.mp hw).2
      by_cases hcd : c = d
      · simpa [afterText, hcd] using ih
      · simp [afterText, hcd]

theorem Token.eat_append_quote {t : Token} (ht : t.Quiet) {q : Char} (hq : isQuote q = true)
    (A B : List Char) : t.eat (A ++ q :: B) = (t.eat A).map (· ++ q :: B) := by
  cases t with
  | word w => exact afterText_append_quote hq B A ht
  | space => simp [Token.eat, trimStart_append_quote hq]
  | gap =>
    cases A with
    | nil => simp [Token.eat, not_isBlank_of_isQuote hq]
    | cons c A =>
      cases hc : Text.isBlank c with
      | true => simpa [Token.eat, hc] using trimStart_append_quote hq A B
      | false => simp [Token.eat, hc]

theorem eat_append_quote {ts : List Token} (hts : ∀ t ∈ ts, t.Quiet) {q : Char}
    (hq : isQuote q = true) (A B : List Char) :
    eat ts (A ++ q :: B) = (eat ts A).map (· ++ q :: B) := by
  induction ts generalizing A with
  | nil => rfl
  | cons t ts ih =>
    obtain ⟨ht, hts⟩ := List.forall_mem_cons.mp hts
    rw [eat, eat, Token.eat_append_quote ht hq]
    cases t.eat A with
    | none => rfl
    | some A => exact ih hts A

/-- What a pattern takes is quiet, and it takes the same in front of anything tight. -/
theorem eat_taken {ts : List Token} (hts : ∀ t ∈ ts, t.Quiet) {cs rest : List Char}
    (h : eat ts cs = some rest) :
    ∃ P, cs = P ++ rest ∧ Quiet P ∧ ∀ rest', Tight rest' → eat ts (P ++ rest') = some rest' := by
  induction ts generalizing cs with
  | nil =>
    cases h
    exact ⟨[], rfl, quiet_nil, fun _ _ => rfl⟩
  | cons t ts ih =>
    obtain ⟨ht, hrest⟩ := List.forall_mem_cons.mp hts
    cases t with
    | word w =>
      obtain ⟨cs', rfl, htail⟩ := eat_word.mp h
      obtain ⟨P, rfl, hP, hstable⟩ := ih hrest htail
      refine ⟨w ++ P, by simp, quiet_append.mpr ⟨ht, hP⟩, fun rest' hrest' => ?_⟩
      exact eat_word.mpr ⟨P ++ rest', by simp, hstable rest' hrest'⟩
    | space =>
      obtain ⟨W, cs', rfl, hW, htight, htail⟩ := eat_space.mp h
      obtain ⟨P, rfl, hP, hstable⟩ := ih hrest htail
      refine ⟨W ++ P, by simp, quiet_append.mpr ⟨quiet_of_blank hW, hP⟩, fun rest' hrest' => ?_⟩
      refine eat_space.mpr ⟨W, P ++ rest', by simp, hW, ?_, hstable rest' hrest'⟩
      exact htight.swap hrest'
    | gap =>
      obtain ⟨W, cs', rfl, hne, hW, htight, htail⟩ := eat_gap.mp h
      obtain ⟨P, rfl, hP, hstable⟩ := ih hrest htail
      refine ⟨W ++ P, by simp, quiet_append.mpr ⟨quiet_of_blank hW, hP⟩, fun rest' hrest' => ?_⟩
      refine eat_gap.mpr ⟨W, P ++ rest', by simp, hne, hW, ?_, hstable rest' hrest'⟩
      exact htight.swap hrest'

/-! ## Names and quoted texts -/

/-- A name is what it takes, and it is the same in front of anything that does not go on with it. -/
theorem readName_taken {cs name rest : List Char} (h : readName cs = some (name, rest)) :
    cs = name ++ rest ∧ name ≠ [] ∧ Quiet name ∧ (∀ c ∈ rest.head?, Text.isNamePart c = false) ∧
      ∀ rest', (∀ c ∈ rest'.head?, Text.isNamePart c = false) →
        readName (name ++ rest') = some (name, rest') := by
  cases cs with
  | nil => cases h
  | cons c cs =>
    rw [readName] at h
    split at h
    · rename_i hc
      cases h
      have hpart : ∀ d ∈ cs.takeWhile Text.isNamePart, Text.isNamePart d = true :=
        fun d hd => List.all_eq_true.mp List.all_takeWhile d hd
      refine ⟨by simp, by simp, quiet_cons.mpr ⟨not_isQuote_of_isNameStart hc, fun d hd => ?_⟩,
        fun d hd => ?_, ?_⟩
      · cases hq : isQuote d with
        | false => rfl
        | true => exact absurd (hpart d hd) (by simp [not_isNamePart_of_isQuote hq])
      · have hhead := List.head?_dropWhile_not Text.isNamePart cs
        rwa [hd] at hhead
      · intro rest' hrest'
        have hstop : rest'.takeWhile Text.isNamePart = [] ∧
            rest'.dropWhile Text.isNamePart = rest' := by
          cases rest' with
          | nil => exact ⟨rfl, rfl⟩
          | cons d rest' => simp [hrest' d rfl]
        rw [List.cons_append, readName, if_pos hc, List.takeWhile_append_of_pos hpart,
          List.dropWhile_append_of_pos hpart, hstop.1, hstop.2, List.append_nil]
    · cases h

theorem readName_append_quote {q : Char} (hq : isQuote q = true) (A B : List Char) :
    readName (A ++ q :: B) = (readName A).map fun x => (x.1, x.2 ++ q :: B) := by
  have hpart : Text.isNamePart q = false := not_isNamePart_of_isQuote hq
  cases A with
  | nil =>
    have hstart : ¬ Text.isNameStart q = true := fun hs => by
      simp [not_isQuote_of_isNameStart hs] at hq
    simp [readName, hstart]
  | cons c A =>
    rw [List.cons_append, readName, readName]
    split
    · have htake : (A ++ q :: B).takeWhile Text.isNamePart = A.takeWhile Text.isNamePart := by
        rw [List.takeWhile_append]
        split
        · rename_i hlen
          rw [(List.takeWhile_prefix _).eq_of_length hlen]
          simp [hpart]
        · rfl
      have hdrop : (A ++ q :: B).dropWhile Text.isNamePart =
          A.dropWhile Text.isNamePart ++ q :: B := by
        rw [List.dropWhile_append]
        split
        · rename_i hnil
          simp [List.isEmpty_iff.mp hnil, hpart]
        · rfl
      rw [htake, hdrop]
      rfl
    · rfl

theorem readQuoted_of_quiet {cs : List Char} (h : Quiet cs) : readQuoted cs = none := by
  cases cs with
  | nil => rfl
  | cons c cs => simp [readQuoted, (quiet_cons.mp h).1]

theorem quiet_span {L : List Char} (hL : Quiet L) :
    L.takeWhile (!isQuote ·) = L ∧ L.dropWhile (!isQuote ·) = [] := by
  refine ⟨?_, ?_⟩
  · exact List.takeWhile_eq_self_iff.mpr fun c hc => by simp [hL c hc]
  · exact List.dropWhile_eq_nil_iff.mpr fun c hc => by simp [hL c hc]

theorem readQuoted_open {q : Char} {L : List Char} (hL : Quiet L) : readQuoted (q :: L) = none := by
  rw [readQuoted, (quiet_span hL).1, (quiet_span hL).2]
  cases L <;> simp

theorem readQuoted_closed {q q' : Char} {L : List Char} (hq : isQuote q = true) (hL : Quiet L)
    (hq' : isQuote q' = true) (C : List Char) :
    readQuoted (q :: (L ++ q' :: C)) = if L = [] then none else some (L, C) := by
  have htake : (L ++ q' :: C).takeWhile (!isQuote ·) = L := by
    rw [List.takeWhile_append_of_pos fun c hc => by simp [hL c hc]]
    simp [hq']
  have hdrop : (L ++ q' :: C).dropWhile (!isQuote ·) = q' :: C := by
    rw [List.dropWhile_append_of_pos fun c hc => by simp [hL c hc]]
    simp [hq']
  rw [readQuoted, if_pos hq, htake, hdrop]
  cases L <;> simp

theorem readQuoted_eq_some {cs L C : List Char} :
    readQuoted cs = some (L, C) ↔
      ∃ q q', cs = q :: (L ++ q' :: C) ∧ isQuote q = true ∧ isQuote q' = true ∧ Quiet L ∧
        L ≠ [] := by
  constructor
  · intro h
    cases cs with
    | nil => cases h
    | cons q cs =>
      have hq : isQuote q = true := by
        by_contra hq
        simp [readQuoted, hq] at h
      rcases quiet_or_cut cs with hcs | ⟨A, q', B, rfl, hA, hq'⟩
      · rw [readQuoted_open hcs] at h
        cases h
      · rw [readQuoted_closed hq hA hq'] at h
        split at h
        · cases h
        · rename_i hne
          cases h
          exact ⟨q, q', rfl, hq, hq', hA, hne⟩
  · rintro ⟨q, q', rfl, hq, hq', hL, hne⟩
    rw [readQuoted_closed hq hL hq', if_neg hne]

end Entry

end ComponentHost
