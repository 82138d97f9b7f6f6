/-
# `ComponentHost.Proofs.Entry.Template` — texts with places for handles

Relinking writes locators into a text, and it looks at the text it has written in the
passes that follow.  It never looks at the number of a handle, though.  To say so, a
text with places for handles is a list of pieces: characters, and holes, each of which
stands for a locator between apostrophes.  Filled with handles it is a text.

    for every source there is a list of pieces E such that, for all handles v,
      relinking the source to v   =   E filled with v                (`relinkText_fill`)

What a pass reads in `E` filled with `v` is the same for all `v`, because a locator
holds none of the characters that stand before a name.  What the pieces have in common
in all fillings, `common E`, holds no locator if the source holds none.
-/
import ComponentHost.Proofs.Entry.Statement
import ComponentHost.Proofs.Resource.Locator

namespace ComponentHost.Entry

open Text (Tight)

/-! ## Locators as text -/

theorem not_mem_locator {H : Handle} {c : Char} (hc : c ∉ Handle.locatorAlphabet) :
    c ∉ H.locator.toList := fun h => hc (Handle.mem_locatorAlphabet h)

/-- The character is no quotation mark, no white space and no bracket. -/
def isSolid (c : Char) : Bool :=
  !isQuote c && !Text.isBlank c && c != '(' && c != ')'

/-- All characters of the text are. -/
def Solid (cs : List Char) : Prop := ∀ c ∈ cs, isSolid c = true

theorem Solid.quiet {cs : List Char} (h : Solid cs) : Quiet cs := by
  intro c hc
  have hsolid := h c hc
  simp only [isSolid, Bool.and_eq_true, Bool.not_eq_true'] at hsolid
  exact hsolid.1.1.1

theorem Solid.not_openEnd {cs : List Char} (h : Solid cs) : ¬ OpenEnd cs := by
  rintro ⟨c, hc, hopen⟩
  have hsolid := h c (List.mem_of_getLast? hc)
  rcases hopen with hblank | rfl
  · simp [isSolid, hblank] at hsolid
  · simp [isSolid] at hsolid

theorem Solid.bracket_not_mem {cs : List Char} (h : Solid cs) : ')' ∉ cs := by
  intro hmem
  have hsolid := h _ hmem
  simp [isSolid] at hsolid

theorem solid_of_isLocatorText {text : String} (h : Handle.IsLocatorText text) :
    Solid text.toList := by
  obtain ⟨id, htext, hid⟩ := h
  have hall : (Handle.scheme.toList ++ "0123456789abcdefABCDEF-".toList).all isSolid = true := by
    decide
  intro c hc
  refine List.all_eq_true.mp hall c ?_
  rw [htext] at hc
  rcases List.mem_append.mp hc with hc | hc
  · exact List.mem_append_left _ hc
  · exact List.mem_append_right _ (hid hc)

/-- A text that starts with the scheme does not start with the mark of the working directory. -/
theorem plainName_of_isLocatorText {text : String} (h : Handle.IsLocatorText text) :
    plainName text.toList = text.toList := by
  obtain ⟨id, htext, -⟩ := h
  rw [htext]
  rfl

theorem solid_locator (H : Handle) : Solid H.locator.toList :=
  solid_of_isLocatorText H.isLocatorText_locator

theorem quiet_locator (H : Handle) : Quiet H.locator.toList :=
  (solid_locator H).quiet

theorem plainName_locator (H : Handle) : plainName H.locator.toList = H.locator.toList :=
  plainName_of_isLocatorText H.isLocatorText_locator

theorem locator_cons (H : Handle) :
    ∃ cs, H.locator.toList = 'b' :: cs := by
  rw [Handle.toList_locator]
  exact ⟨_, rfl⟩

/-- No end of a locator is what stands before a name. -/
theorem not_openEnd_locator {H : Handle} {A₁ A₂ : List Char} (h : H.locator.toList = A₁ ++ A₂) :
    ¬ OpenEnd A₂ := by
  have hsolid : Solid A₂ := fun c hc =>
    solid_locator H c (h ▸ List.mem_append_right A₁ hc)
  exact hsolid.not_openEnd

/-! ## Pieces -/

/-- A character, or a place for a handle. -/
inductive Piece (κ : Type) where
  | plain (c : Char)
  /-- A locator between apostrophes. -/
  | hole (k : κ)

section

variable {κ : Type}

/-- The piece with a text in the place of each locator. -/
def Piece.fill (f : κ → List Char) : Piece κ → List Char
  | plain c => [c]
  | hole k => '\'' :: (f k ++ ['\''])

/-- The pieces filled with handles. -/
def fill (v : κ → Handle) (E : List (Piece κ)) : List Char :=
  E.flatMap (Piece.fill fun k => (v k).locator.toList)

/-- The pieces filled with nothing. -/
def common (E : List (Piece κ)) : List Char :=
  E.flatMap (Piece.fill fun _ => [])

/-- The pieces of a text without places for handles. -/
def plain (cs : List Char) : List (Piece κ) :=
  cs.map .plain

@[simp]
theorem fill_append (v : κ → Handle) (E F : List (Piece κ)) :
    fill v (E ++ F) = fill v E ++ fill v F := List.flatMap_append

@[simp]
theorem common_append (E F : List (Piece κ)) : common (E ++ F) = common E ++ common F :=
  List.flatMap_append

@[simp]
theorem fill_nil (v : κ → Handle) : fill v [] = [] := rfl

@[simp]
theorem fill_char (v : κ → Handle) (c : Char) (E : List (Piece κ)) :
    fill v (.plain c :: E) = c :: fill v E := rfl

@[simp]
theorem fill_hole (v : κ → Handle) (k : κ) (E : List (Piece κ)) :
    fill v (.hole k :: E) = '\'' :: ((v k).locator.toList ++ '\'' :: fill v E) := by
  simp [fill, Piece.fill]

@[simp]
theorem common_char (c : Char) (E : List (Piece κ)) : common (.plain c :: E) = c :: common E := rfl

@[simp]
theorem common_hole (k : κ) (E : List (Piece κ)) :
    common (.hole k :: E) = '\'' :: '\'' :: common E := rfl

@[simp]
theorem fill_plain (v : κ → Handle) : ∀ cs : List Char, fill v (plain cs) = cs
  | [] => rfl
  | c :: cs => congrArg (c :: ·) (fill_plain v cs)

@[simp]
theorem common_plain : ∀ cs : List Char, common (plain (κ := κ) cs) = cs
  | [] => rfl
  | c :: cs => congrArg (c :: ·) (common_plain cs)

/-- Pieces are quiet, or they are cut at the first quotation mark, which is a character or belongs
to the first hole. -/
theorem pieces_cut (E : List (Piece κ)) :
    (∃ A, E = plain A ∧ Quiet A) ∨
      (∃ A q F, E = plain A ++ .plain q :: F ∧ Quiet A ∧ isQuote q = true) ∨
      ∃ A k F, E = plain A ++ .hole k :: F ∧ Quiet A := by
  induction E with
  | nil => exact .inl ⟨[], rfl, quiet_nil⟩
  | cons p E ih =>
    cases p with
    | hole k => exact .inr (.inr ⟨[], k, E, rfl, quiet_nil⟩)
    | plain c =>
      cases hc : isQuote c with
      | true => exact .inr (.inl ⟨[], c, E, rfl, quiet_nil, hc⟩)
      | false =>
        rcases ih with ⟨A, rfl, hA⟩ | ⟨A, q, F, rfl, hA, hq⟩ | ⟨A, k, F, rfl, hA⟩
        · exact .inl ⟨c :: A, rfl, quiet_cons.mpr ⟨hc, hA⟩⟩
        · exact .inr (.inl ⟨c :: A, q, F, rfl, quiet_cons.mpr ⟨hc, hA⟩, hq⟩)
        · exact .inr (.inr ⟨c :: A, k, F, rfl, quiet_cons.mpr ⟨hc, hA⟩⟩)

/-! ## Reading filled pieces -/

theorem eat_fill (ts : List Token) (hts : ∀ t ∈ ts, t.Quiet) (E : List (Piece κ)) :
    (∀ v, eat ts (fill v E) = none) ∨
      ∃ P F, E = plain P ++ F ∧ ∀ v, eat ts (fill v E) = some (fill v F) := by
  have hplain : ∀ A B : List Char, plain (κ := κ) (A ++ B) = plain A ++ plain B :=
    fun A B => List.map_append
  rcases pieces_cut E with ⟨A, rfl, -⟩ | ⟨A, q, F, rfl, -, hq⟩ | ⟨A, k, F, rfl, -⟩
  · cases h : eat ts A with
    | none => exact .inl fun v => by simpa using h
    | some R =>
      obtain ⟨P, rfl, -, -⟩ := eat_taken hts h
      exact .inr ⟨P, plain R, hplain P R, fun v => by simpa using h⟩
  · cases h : eat ts A with
    | none => exact .inl fun v => by simp [eat_append_quote hts hq, h]
    | some R =>
      obtain ⟨P, rfl, -, -⟩ := eat_taken hts h
      refine .inr ⟨P, plain R ++ .plain q :: F, by simp [hplain], fun v => ?_⟩
      simp only [fill_append, fill_plain, fill_char]
      rw [eat_append_quote hts hq, h]
      rfl
  · have hq : isQuote '\'' = true := by decide
    cases h : eat ts A with
    | none => exact .inl fun v => by simp [eat_append_quote hts hq, h]
    | some R =>
      obtain ⟨P, rfl, -, -⟩ := eat_taken hts h
      refine .inr ⟨P, plain R ++ .hole k :: F, by simp [hplain], fun v => ?_⟩
      simp only [fill_append, fill_plain, fill_hole]
      rw [eat_append_quote hts hq, h]
      rfl

/-- What stands between two quotation marks: a text of its own, or the locator of a handle. -/
inductive Slot (κ : Type) where
  | text (L : List Char)
  | handle (k : κ)

def Slot.fill (v : κ → Handle) : Slot κ → List Char
  | text L => L
  | handle k => (v k).locator.toList

/-- A text of its own in the slot holds no locator. -/
def Slot.Absent : Slot κ → Prop
  | text L => Handle.Absent L
  | handle _ => True

/-- How a quoted text is read in all fillings alike: there is none; there is one, and pieces follow
it; or the mark that closes it is the first of a hole. -/
inductive QuotedFill (E : List (Piece κ)) : Prop where
  | none : (∀ v, readQuoted (fill v E) = .none) → QuotedFill E
  | some {P F : List (Piece κ)} (x : Slot κ) : E = P ++ F → (Handle.Absent (common E) → x.Absent) →
      (∀ v, readQuoted (fill v E) = .some (x.fill v, fill v F)) → QuotedFill E
  | blocked {L : List Char} {k : κ} {F : List (Piece κ)} : .hole k ∈ E →
      (∀ v, readQuoted (fill v E) = .some (L, (v k).locator.toList ++ '\'' :: fill v F)) →
      QuotedFill E

theorem readQuoted_fill (E : List (Piece κ)) : QuotedFill E := by
  have hmark : isQuote '\'' = true := by decide
  cases E with
  | nil => exact .none fun _ => rfl
  | cons p E =>
    cases p with
    | hole k =>
      refine .some (P := [.hole k]) (.handle k) rfl (fun _ => trivial) fun v => ?_
      rw [fill_hole, readQuoted_closed hmark (quiet_locator _) hmark,
        if_neg (Handle.locator_ne_nil _)]
      rfl
    | plain q =>
      cases hq : isQuote q with
      | false => exact .none fun v => by simp [readQuoted, hq]
      | true =>
        rcases pieces_cut E with ⟨L, rfl, hL⟩ | ⟨L, q', F, rfl, hL, hq'⟩ | ⟨L, k, F, rfl, hL⟩
        · exact .none fun v => by
            rw [fill_char, fill_plain]
            exact readQuoted_open hL
        · by_cases hne : L = []
          · refine .none fun v => ?_
            rw [fill_char, fill_append, fill_plain, fill_char, readQuoted_closed hq hL hq',
              if_pos hne]
          · refine .some (P := .plain q :: (plain L ++ [.plain q'])) (F := F) (.text L) (by simp)
              ?_ ?_
            · intro habsent
              exact habsent.of_part ⟨[q], q' :: common F, by simp⟩
            · intro v
              rw [fill_char, fill_append, fill_plain, fill_char, readQuoted_closed hq hL hq',
                if_neg hne]
              rfl
        · by_cases hne : L = []
          · refine .none fun v => ?_
            rw [fill_char, fill_append, fill_plain, fill_hole, readQuoted_closed hq hL hmark,
              if_pos hne]
          · refine .blocked (L := L) (k := k) (F := F) (by simp) fun v => ?_
            rw [fill_char, fill_append, fill_plain, fill_hole, readQuoted_closed hq hL hmark,
              if_neg hne]

/-! ## Relinking filled pieces -/

/-- The shape does not go on in front of a locator. -/
def Shape.Stops (s : Shape) : Prop :=
  ∀ (H : Handle) (cs : List Char), eat s.after (H.locator.toList ++ cs) = none

theorem Shape.deferred_stops : Shape.deferred.Stops := by
  intro H cs
  obtain ⟨ds, hds⟩ := locator_cons H
  rw [hds]
  rfl

theorem Shape.relative_stops : Shape.relative.Stops := by
  intro H cs
  obtain ⟨ds, hds⟩ := locator_cons H
  rw [hds]
  rfl

/-- What all shapes write around a locator. -/
structure Shape.Writes (s : Shape) : Prop where
  /-- Up to its first character that no locator holds, it is what the reference starts with. -/
  opening_split : ∃ w c z, s.opening = w ++ c :: z ∧ c ∉ Handle.locatorAlphabet ∧ z.length < 22 ∧
    ∀ A, eat s.before A = some [] → w <+: A
  closing_short : s.closing = [] ∨ ∃ c ∉ Handle.locatorAlphabet, s.closing = [c]

theorem Shape.static_writes : Shape.static.Writes where
  opening_split := by
    refine ⟨"from".toList, ' ', [], by decide, by decide, by decide, fun A h => ?_⟩
    obtain ⟨W, -, -, rfl⟩ := before_static h
    exact List.prefix_append _ _
  closing_short := .inl (by decide)

theorem Shape.deferred_writes : Shape.deferred.Writes where
  opening_split :=
    ⟨[], 'i', "mport(".toList, by decide, by decide, by decide, fun _ _ => List.nil_prefix⟩
  closing_short := .inr ⟨')', by decide, by decide⟩

theorem Shape.relative_writes : Shape.relative.Writes where
  opening_split := by
    refine ⟨"ne".toList, 'w', " URL(".toList, by decide, by decide, by decide, fun A h => ?_⟩
    obtain ⟨U, V, W, -, -, -, rfl⟩ := before_relative h
    exact ⟨'w' :: (U ++ "URL".toList ++ V ++ '(' :: W), rfl⟩
  closing_short := .inr ⟨')', by decide, by decide⟩

/-- How a reference is read in all fillings alike: there is none, or there is one, and pieces follow
it. -/
inductive ReadFill (s : Shape) (E : List (Piece κ)) : Prop where
  | none : (∀ v, s.read (fill v E) = .none) → ReadFill s E
  | some {A : List Char} {P F : List (Piece κ)} (x : Slot κ) : E = plain A ++ P ++ F →
      eat s.before A = .some [] →
      (∀ v, s.read (fill v E) = .some (plainName (x.fill v), fill v F)) → ReadFill s E

theorem Shape.Sound.read_fill_quoted {s : Shape} (hs : s.Sound) {A : List Char}
    {E : List (Piece κ)} (hstop : (∀ k, .hole k ∉ E) ∨ s.Stops) (hA : Quiet A)
    (hbefore : eat s.before A = some [])
    (hE : ∀ v, ∃ q B, isQuote q = true ∧ fill v E = q :: B) : ReadFill s (plain A ++ E) := by
  have hread : ∀ v, s.read (fill v (plain A ++ E)) =
      (readQuoted (fill v E)).bind fun x => (eat s.after x.2).map (plainName x.1, ·) := by
    intro v
    obtain ⟨q, B, hq, hB⟩ := hE v
    rw [fill_append, fill_plain, hB, hs.read_cut hA hq, if_pos hbefore]
  cases readQuoted_fill E with
  | none hnone =>
    refine .none fun v => ?_
    rw [hread, hnone]
    rfl
  | @some P F x hPF _ hsome =>
    rcases eat_fill _ hs.after_quiet F with hnone | ⟨Q, G, rfl, htaken⟩
    · refine .none fun v => ?_
      rw [hread, hsome, Option.bind_some, hnone]
      rfl
    · refine .some (A := A) (P := P ++ plain Q) (F := G) x (by simp [hPF]) hbefore fun v => ?_
      rw [hread, hsome, Option.bind_some, htaken]
      rfl
  | blocked hhole hblocked =>
    rcases hstop with hnone | hstop
    · exact absurd hhole (hnone _)
    · refine .none fun v => ?_
      rw [hread, hblocked, Option.bind_some, hstop]
      rfl

theorem Shape.Sound.read_fill {s : Shape} (hs : s.Sound) {E : List (Piece κ)}
    (hstop : (∀ k, .hole k ∉ E) ∨ s.Stops) : ReadFill s E := by
  have hmark : isQuote '\'' = true := by decide
  rcases pieces_cut E with ⟨A, rfl, hA⟩ | ⟨A, q, F, rfl, hA, hq⟩ | ⟨A, k, F, rfl, hA⟩
  · exact .none fun v => by rw [fill_plain, hs.read_of_quiet hA]
  · by_cases hbefore : eat s.before A = some []
    · refine hs.read_fill_quoted ?_ hA hbefore fun v => ⟨q, fill v F, hq, rfl⟩
      exact hstop.imp_left fun h k hk => h k (List.mem_append_right _ hk)
    · exact .none fun v => by
        rw [fill_append, fill_plain, fill_char, hs.read_cut hA hq, if_neg hbefore]
  · by_cases hbefore : eat s.before A = some []
    · refine hs.read_fill_quoted ?_ hA hbefore fun v => ⟨'\'', _, hmark, fill_hole v k F⟩
      exact hstop.imp_left fun h k hk => h k (List.mem_append_right _ hk)
    · exact .none fun v => by
        rw [fill_append, fill_plain, fill_hole, hs.read_cut hA hmark, if_neg hbefore]

/-- The locators that relinking writes, when the file behind a name has a place and the places are
filled with handles. -/
def targetOf (index : List Char → Option κ) (v : κ → Handle) (name : List Char) :
    Option (List Char) :=
  (index name).map fun k => (v k).locator.toList

theorem Shape.Sound.relink_hole {s : Shape} (hs : s.Sound)
    (target : List Char → Option (List Char)) (v : κ → Handle) (k : κ) (E : List (Piece κ)) :
    s.relink target (fill v (.hole k :: E)) =
      '\'' :: ((v k).locator.toList ++ '\'' :: s.relink target (fill v E)) := by
  have hmark : isQuote '\'' = true := by decide
  rw [fill_hole, Shape.relink_of_none (hs.read_quote hmark _),
    hs.relink_past_quote (quiet_locator _) hmark]
  intro A₁ A₂ hA hbefore
  exact not_openEnd_locator hA (hs.openEnd hbefore)

/-- What is written in the place of a reference brings in no locator of its own. -/
theorem Shape.Writes.absent {s : Shape} (hw : s.Writes) {A X : List Char} {P F F' : List (Piece κ)}
    (hbefore : eat s.before A = some [])
    (hF : ∀ X, Handle.Absent (X ++ common F) → Handle.Absent (X ++ common F'))
    (h : Handle.Absent (X ++ common (plain A ++ P ++ F))) (k : κ) :
    Handle.Absent (X ++ common (plain s.opening ++ .hole k :: (plain s.closing ++ F'))) := by
  have hmark : '\'' ∉ Handle.locatorAlphabet := by decide
  simp only [common_append, common_plain, common_hole] at h ⊢
  have hrest : Handle.Absent (common F) :=
    h.of_part ⟨X ++ (A ++ common P), [], by simp⟩
  have hclosing : Handle.Absent (s.closing ++ common F') := by
    refine hF _ ?_
    rcases hw.closing_short with hnil | ⟨c, hc, hone⟩
    · rw [hnil]
      exact hrest
    · rw [hone]
      exact Handle.absent_nil.append hrest hc
  have hopening : Handle.Absent (X ++ s.opening) := by
    obtain ⟨w, c, z, hsplit, hc, hz, hw⟩ := hw.opening_split
    obtain ⟨A', rfl⟩ := hw A hbefore
    rw [hsplit, ← List.append_assoc]
    exact Handle.Absent.append (h.of_part ⟨[], A' ++ (common P ++ common F), by simp⟩)
      (Handle.absent_of_length hz) hc
  rw [← List.append_assoc]
  exact hopening.append (Handle.absent_nil.append hclosing hmark) hmark

/-- A pass makes filled pieces of filled pieces, whatever they are filled with, and what those have
in common holds no locator if there was none before. -/
def Shape.Refills (s : Shape) (index : List Char → Option κ) (E F : List (Piece κ)) : Prop :=
  (∀ v, s.relink (targetOf index v) (fill v E) = fill v F) ∧
    ∀ X, Handle.Absent (X ++ common E) → Handle.Absent (X ++ common F)

/-- A reference is replaced in all fillings, or it stays in all of them. -/
theorem Shape.Sound.refill_reference {s : Shape} (hs : s.Sound) (hw : s.Writes)
    {index : List Char → Option κ} (hindex : ∀ H : Handle, index H.locator.toList = none)
    {A : List Char} {P F F' : List (Piece κ)} (x : Slot κ) (hbefore : eat s.before A = some [])
    (hread : ∀ v, s.read (fill v (plain A ++ P ++ F)) =
      some (plainName (x.fill v), fill v F))
    (hF : s.Refills index F F') : ∃ G, s.Refills index (plain A ++ P ++ F) G := by
  have hne : A ≠ [] := by
    rintro rfl
    exact hs.before_ne_nil hbefore
  have hrelink : ∀ v, s.relink (targetOf index v) (fill v (plain A ++ P ++ F)) =
      ((targetOf index v (plainName (x.fill v))).map
          fun locator => s.lead ++ locator ++ s.tail).getD (fill v (plain A ++ P)) ++
        fill v F' := by
    intro v
    have hread := hread v
    rw [fill_append] at hread ⊢
    rw [Shape.relink_of_some (by simp [hne]) hread, hF.1]
  have hkept (hnone : ∀ v, targetOf index v (plainName (x.fill v)) = none) :
      s.Refills index (plain A ++ P ++ F) (plain A ++ P ++ F') := by
    constructor
    · intro v
      rw [hrelink, hnone, fill_append v (plain A ++ P) F']
      rfl
    · intro X h
      have hmore := hF.2 (X ++ common (plain A ++ P)) (by simpa using h)
      simpa using hmore
  cases x with
  | handle k =>
    -- a locator that an earlier pass has written is the name of no file
    refine ⟨_, hkept fun v => ?_⟩
    rw [Slot.fill, plainName_locator, targetOf, hindex]
    rfl
  | text L =>
    cases hL : index (plainName L) with
    | none =>
      refine ⟨_, hkept fun v => ?_⟩
      rw [Slot.fill, targetOf, hL]
      rfl
    | some k =>
      refine ⟨plain s.opening ++ .hole k :: (plain s.closing ++ F'), fun v => ?_,
        fun X h => hw.absent hbefore hF.2 h k⟩
      rw [hrelink, Slot.fill, targetOf, hL, hs.lead_eq, hs.tail_eq]
      simp

/-- **A pass treats all fillings alike.** -/
theorem Shape.Sound.relink_fill {s : Shape} (hs : s.Sound) (hw : s.Writes)
    {index : List Char → Option κ} (hindex : ∀ H : Handle, index H.locator.toList = none) :
    ∀ E : List (Piece κ), (∀ k, .hole k ∉ E) ∨ s.Stops → ∃ F, s.Refills index E F
  | [], _ => ⟨[], fun _ => rfl, fun _ h => h⟩
  | .hole k :: E, hstop => by
      have hstop : (∀ k, .hole k ∉ E) ∨ s.Stops :=
        hstop.imp_left fun h k hk => h k (List.mem_cons_of_mem _ hk)
      obtain ⟨F, hF, habsent⟩ := hs.relink_fill hw hindex E hstop
      refine ⟨.hole k :: F, fun v => by rw [hs.relink_hole, hF, fill_hole], fun X h => ?_⟩
      have hmore := habsent (X ++ ['\'', '\'']) (by simpa using h)
      simpa using hmore
  | .plain c :: E, hstop => by
      cases hs.read_fill hstop with
      | none hnone =>
        have hstop : (∀ k, .hole k ∉ E) ∨ s.Stops :=
          hstop.imp_left fun h k hk => h k (List.mem_cons_of_mem _ hk)
        obtain ⟨F, hF, habsent⟩ := hs.relink_fill hw hindex E hstop
        refine ⟨.plain c :: F, fun v => ?_, fun X h => ?_⟩
        · rw [fill_char, Shape.relink_of_none (by simpa using hnone v), hF, fill_char]
        · have hmore := habsent (X ++ [c]) (by simpa using h)
          simpa using hmore
      | @some A P F x hE hbefore hread =>
        -- the search goes on behind the reference, which is shorter
        have hlen : F.length < (.plain c :: E : List (Piece κ)).length := by
          have hA : 0 < A.length := by
            refine List.length_pos_iff.mpr ?_
            rintro rfl
            exact hs.before_ne_nil hbefore
          rw [hE]
          simp only [List.length_append, plain, List.length_map]
          omega
        rw [hE] at hstop hread ⊢
        obtain ⟨F', hF'⟩ := hs.relink_fill hw hindex F
          (hstop.imp_left fun h k hk => h k (List.mem_append_right _ hk))
        exact hs.refill_reference hw hindex x hbefore hread hF'
  termination_by E => E.length
  decreasing_by
    all_goals simp_all

/-- **Relinking treats all handles alike.** -/
theorem relinkText_fill {index : List Char → Option κ}
    (hindex : ∀ H : Handle, index H.locator.toList = none) (cs : List Char) :
    ∃ E : List (Piece κ), (∀ v, relinkText (targetOf index v) cs = fill v E) ∧
      (Handle.Absent cs → Handle.Absent (common E)) := by
  have hplain : ∀ k, Piece.hole k ∉ plain (κ := κ) cs := by simp [plain]
  obtain ⟨E₁, h₁, ha₁⟩ := Shape.static_sound.relink_fill Shape.static_writes hindex
    (plain cs) (.inl hplain)
  obtain ⟨E₂, h₂, ha₂⟩ := Shape.deferred_sound.relink_fill Shape.deferred_writes hindex
    E₁ (.inr Shape.deferred_stops)
  obtain ⟨E₃, h₃, ha₃⟩ := Shape.relative_sound.relink_fill Shape.relative_writes hindex
    E₂ (.inr Shape.relative_stops)
  refine ⟨E₃, fun v => ?_, fun h => ?_⟩
  · rw [relinkText, ← h₃, ← h₂, ← h₁, fill_plain]
  · exact ha₃ [] (ha₂ [] (ha₁ [] (by simpa using h)))

end

end ComponentHost.Entry
