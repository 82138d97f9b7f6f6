/-
# `ComponentHost.Proofs.Entry.Draft` — reading a source with places for handles

A source with places for handles is read as statements with places for handles,
`Draft`s, or its first bad line is one with places for handles.  The readers look at
what they read character by character, so each is followed through the filled pieces;
what it says is the same in all fillings:

    reads nothing in any of them, or reads the same draft in all of them

A draft that names its component by a text of its own names none by a locator, as long
as what the pieces have in common holds no locator.
-/
import ComponentHost.Proofs.Entry.Template

namespace ComponentHost.Entry

open Text (Tight Blank)

variable {κ : Type}

/-- A statement with a place for a handle, or without. -/
inductive Draft (κ : Type) where
  | fixed (s : Statement)
  | linked (form : ImportForm) (binding : String) (k : κ)

namespace Draft

/-- The statement that a draft is when it is filled with handles. -/
def fill (v : κ → Handle) : Draft κ → Statement
  | fixed s => s
  | linked form binding k => .bind form binding (v k).locator

/-- A statement without a place for a handle does not name a component by a locator. -/
def Absent : Draft κ → Prop
  | fixed (.bind _ _ locator) => Handle.Absent locator.toList
  | _ => True

end Draft

/-- A reader reads alike in all fillings. -/
def ReadsDraft (E : List (Piece κ)) (read : List Char → Option Statement) : Prop :=
  (∀ v, read (fill v E) = none) ∨
    ∃ d : Draft κ, (Handle.Absent (common E) → d.Absent) ∧ ∀ v, read (fill v E) = some (d.fill v)

/-! ## The ends of statements -/

theorem trimStart_fill (E : List (Piece κ)) :
    ∃ P F, E = plain P ++ F ∧ ∀ v, Text.trimStart (fill v E) = fill v F := by
  have hspace : ∀ cs, eat [.space] cs = some (Text.trimStart cs) := fun _ => rfl
  rcases eat_fill [.space] (by decide) E with hnone | ⟨P, F, hE, hF⟩
  · have h := hnone fun _ => ⟨0⟩
    rw [hspace] at h
    cases h
  · refine ⟨P, F, hE, fun v => ?_⟩
    have h := hF v
    rw [hspace] at h
    exact Option.some.inj h

theorem isEnd_fill (E : List (Piece κ)) : ∃ b, ∀ v, isEnd (fill v E) = b := by
  obtain ⟨P, F, -, hF⟩ := trimStart_fill E
  rcases F with _ | ⟨c | k, F⟩
  · exact ⟨true, fun v => by simp [isEnd, hF]⟩
  · rcases F with _ | ⟨d | k, F⟩
    · by_cases hc : c = ';'
      · exact ⟨true, fun v => by simp [isEnd, hF, hc]⟩
      · exact ⟨false, fun v => by simp [isEnd, hF, hc]⟩
    · exact ⟨false, fun v => by simp [isEnd, hF]⟩
    · exact ⟨false, fun v => by simp [isEnd, hF]⟩
  · exact ⟨false, fun v => by simp [isEnd, hF]⟩

theorem readBase_fill (E : List (Piece κ)) :
    (∀ v, readBase (fill v E) = none) ∨
      ∃ b F, ∀ v, readBase (fill v E) = some (b, fill v F) := by
  rcases eat_fill [.space, kw ",", .space, kw "import.meta.url", .space, kw ")"]
    (by decide) E with hnone | ⟨P, F, -, hF⟩
  · rcases eat_fill [.space, kw ")"] (by decide) E with hnone' | ⟨P, F, -, hF⟩
    · exact .inl fun v => by simp [readBase, hnone v, hnone' v]
    · exact .inr ⟨false, F, fun v => by simp [readBase, hnone v, hF v]⟩
  · exact .inr ⟨true, F, fun v => by simp [readBase, hF v]⟩

theorem readClose_fill (f : ImportForm) (E : List (Piece κ)) :
    ∃ o, ∀ v, readClose f (fill v E) = o := by
  cases f with
  | static =>
    obtain ⟨b, hb⟩ := isEnd_fill E
    exact ⟨_, fun v => by rw [readClose, hb]⟩
  | deferred =>
    rcases eat_fill _ Shape.deferred_sound.after_quiet E with hnone | ⟨P, F, -, hF⟩
    · exact ⟨none, fun v => by rw [readClose, hnone]; rfl⟩
    · obtain ⟨b, hb⟩ := isEnd_fill F
      exact ⟨_, fun v => by rw [readClose, hF, Option.bind_some, hb]⟩
  | location b =>
    rcases readBase_fill E with hnone | ⟨b, F, hF⟩
    · exact ⟨none, fun v => by rw [readClose, hnone]; rfl⟩
    · obtain ⟨b', hb'⟩ := isEnd_fill F
      refine ⟨if b' then some (.location b) else none, fun v => ?_⟩
      rw [readClose, hF, Option.bind_some, hb']

/-- No statement ends in front of a locator. -/
theorem readClose_locator (f : ImportForm) (H : Handle) (cs : List Char) :
    readClose f (H.locator.toList ++ cs) = none := by
  obtain ⟨ds, hds⟩ := locator_cons H
  rw [hds]
  cases f <;> rfl

/-! ## Statements -/

theorem readName_fill (E : List (Piece κ)) :
    (∀ v, readName (fill v E) = none) ∨
      ∃ name F, E = plain name ++ F ∧ ∀ v, readName (fill v E) = some (name, fill v F) := by
  have hplain : ∀ A B : List Char, plain (κ := κ) (A ++ B) = plain A ++ plain B :=
    fun A B => List.map_append
  have hmark : isQuote '\'' = true := by decide
  rcases pieces_cut E with ⟨A, rfl, -⟩ | ⟨A, q, F, rfl, -, hq⟩ | ⟨A, k, F, rfl, -⟩
  · cases h : readName A with
    | none => exact .inl fun v => by rw [fill_plain, h]
    | some x =>
      obtain ⟨name, R⟩ := x
      obtain ⟨rfl, -⟩ := readName_taken h
      exact .inr ⟨name, plain R, hplain .., fun v => by rw [fill_plain, h, fill_plain]⟩
  · cases h : readName A with
    | none => exact .inl fun v => by simp [readName_append_quote hq, h]
    | some x =>
      obtain ⟨name, R⟩ := x
      obtain ⟨rfl, -⟩ := readName_taken h
      refine .inr ⟨name, plain R ++ .plain q :: F, by simp [hplain], fun v => ?_⟩
      rw [fill_append, fill_plain, fill_char, readName_append_quote hq, h]
      simp
  · cases h : readName A with
    | none => exact .inl fun v => by simp [readName_append_quote hmark, h]
    | some x =>
      obtain ⟨name, R⟩ := x
      obtain ⟨rfl, -⟩ := readName_taken h
      refine .inr ⟨name, plain R ++ .hole k :: F, by simp [hplain], fun v => ?_⟩
      rw [fill_append, fill_plain, fill_hole, readName_append_quote hmark, h]
      simp

theorem readHead_fill (f : ImportForm) (E : List (Piece κ)) :
    (∀ v, readHead f (fill v E) = none) ∨
      ∃ P name F, E = plain P ++ F ∧ ∀ v, readHead f (fill v E) = some (name, fill v F) := by
  rcases eat_fill _ f.quiet_keyword E with hnone | ⟨P, F, rfl, hF⟩
  · exact .inl fun v => by rw [readHead, hnone]; rfl
  · rcases readName_fill F with hnone | ⟨name, G, rfl, hG⟩
    · exact .inl fun v => by rw [readHead, hF, Option.bind_some, hnone]; rfl
    · rcases eat_fill _ f.quiet_between G with hnone | ⟨Q, I, rfl, hI⟩
      · refine .inl fun v => ?_
        rw [readHead, hF, Option.bind_some, hG, Option.bind_some, hnone]
        rfl
      · refine .inr ⟨P ++ name ++ Q, name, I, by simp [plain], fun v => ?_⟩
        rw [readHead, hF, Option.bind_some, hG, Option.bind_some, hI]
        rfl

theorem readBind_fill (f : ImportForm) (E : List (Piece κ)) : ReadsDraft E (readBind f) := by
  rcases readHead_fill f E with hnone | ⟨P, name, F, rfl, hF⟩
  · exact .inl fun v => by rw [readBind, readBinding, hnone]; rfl
  rcases eat_fill _ f.shape_sound.before_quiet F with hnone | ⟨Q, G, rfl, hG⟩
  · exact .inl fun v => by rw [readBind, readBinding, hF, Option.bind_some, hnone]; rfl
  have hread : ∀ v, readBind f (fill v (plain P ++ (plain Q ++ G))) =
      (readQuoted (fill v G)).bind fun x => (readClose f x.2).map fun f =>
        .bind f (String.ofList name) (String.ofList x.1) := by
    intro v
    rw [readBind, readBinding, hF, Option.bind_some, hG, Option.bind_some, Option.bind_map]
    rfl
  cases readQuoted_fill G with
  | none hnone => exact .inl fun v => by rw [hread, hnone]; rfl
  | blocked _ hblocked =>
    exact .inl fun v => by rw [hread, hblocked, Option.bind_some, readClose_locator]; rfl
  | some x hG' habsent hsome =>
    rename_i R I
    obtain ⟨o, ho⟩ := readClose_fill f I
    cases o with
    | none => exact .inl fun v => by rw [hread, hsome, Option.bind_some, ho]; rfl
    | some f' =>
      cases x with
      | handle k =>
        refine .inr ⟨.linked f' (String.ofList name) k, fun _ => trivial, fun v => ?_⟩
        rw [hread, hsome, Option.bind_some, ho]
        simp [Slot.fill, Draft.fill]
      | text L =>
        refine .inr ⟨.fixed (.bind f' (String.ofList name) (String.ofList L)), fun h => ?_,
          fun v => ?_⟩
        · have hL : Handle.Absent L := habsent (h.of_part ⟨P ++ Q, [], by simp⟩)
          simpa [Draft.Absent] using hL
        · rw [hread, hsome, Option.bind_some, ho]
          rfl

theorem readExport_fill {ts : List Token} (hts : ∀ t ∈ ts, t.Quiet) {f : String → Statement}
    (hf : ∀ name, (Draft.fixed (κ := κ) (f name)).Absent) (E : List (Piece κ)) :
    ReadsDraft E (readExport ts f) := by
  rcases eat_fill _ hts E with hnone | ⟨P, F, rfl, hF⟩
  · exact .inl fun v => by rw [readExport, hnone]; rfl
  rcases readName_fill F with hnone | ⟨name, G, rfl, hG⟩
  · exact .inl fun v => by rw [readExport, hF, Option.bind_some, hnone]; rfl
  obtain ⟨b, hb⟩ := isEnd_fill G
  have hread : ∀ v, readExport ts f (fill v (plain P ++ (plain name ++ G))) =
      if b then some (f (String.ofList name)) else none := by
    intro v
    rw [readExport, hF, Option.bind_some, hG, Option.bind_some, finish, hb]
  cases b with
  | false => exact .inl hread
  | true => exact .inr ⟨.fixed (f (String.ofList name)), fun _ => hf _, hread⟩

theorem ReadsDraft.orElse {E : List (Piece κ)} {read more : List Char → Option Statement}
    (h : ReadsDraft E read) (hmore : ReadsDraft E more) :
    ReadsDraft E fun cs => read cs <|> more cs := by
  rcases h with hnone | ⟨d, hd, hsome⟩
  · rcases hmore with hnone' | ⟨d, hd, hsome⟩
    · exact .inl fun v => by simp [hnone v, hnone' v]
    · exact .inr ⟨d, hd, fun v => by simp [hnone v, hsome v]⟩
  · exact .inr ⟨d, hd, fun v => by simp [hsome v]⟩

theorem statement?_fill (E : List (Piece κ)) : ReadsDraft E statement? := by
  have hall : statement? = fun line => (readBind .static line <|> readBind .deferred line <|>
      readBind (.location true) line <|> readExport exportAllTokens .exportAll line <|>
        readExport exportDefaultTokens .exportDefault line) :=
    funext (statement?_eq true)
  rw [hall]
  have hexportAll : ReadsDraft E (readExport exportAllTokens .exportAll) :=
    readExport_fill (f := .exportAll) (by decide) (fun _ => trivial) E
  have hexportDefault : ReadsDraft E (readExport exportDefaultTokens .exportDefault) :=
    readExport_fill (f := .exportDefault) (by decide) (fun _ => trivial) E
  exact (readBind_fill .static E).orElse ((readBind_fill .deferred E).orElse
    ((readBind_fill (.location true) E).orElse (hexportAll.orElse hexportDefault)))

/-! ## Lines -/

theorem trimEnd_fill :
    ∀ E : List (Piece κ), ∃ F, (∀ v, Text.trimEnd (fill v E) = fill v F) ∧ common F <+: common E
  | [] => ⟨[], fun _ => rfl, List.prefix_rfl⟩
  | .plain c :: E => by
      obtain ⟨F, hF, hfront⟩ := trimEnd_fill E
      cases F with
      | nil =>
        cases hc : Text.isBlank c with
        | true => exact ⟨[], fun v => by simp [Text.trimEnd_cons, hF, hc], List.nil_prefix⟩
        | false =>
          refine ⟨[.plain c], fun v => by simp [Text.trimEnd_cons, hF, hc], ?_⟩
          exact List.cons_prefix_cons.mpr ⟨rfl, List.nil_prefix⟩
      | cons p F =>
        have hne : ∀ v : κ → Handle, fill v (p :: F) ≠ [] := by
          intro v
          cases p <;> simp
        refine ⟨.plain c :: p :: F, fun v => ?_, List.cons_prefix_cons.mpr ⟨rfl, hfront⟩⟩
        rw [fill_char, Text.trimEnd_cons, hF, if_neg fun h => hne v h.1]
        rfl
  | .hole k :: E => by
      obtain ⟨F, hF, hfront⟩ := trimEnd_fill E
      refine ⟨.hole k :: F, fun v => ?_, ?_⟩
      · have hblank : Text.isBlank '\'' = false := by decide
        rw [fill_hole, ← List.cons_append, Text.trimEnd_append hblank, hF]
        simp
      · exact List.cons_prefix_cons.mpr ⟨rfl, List.cons_prefix_cons.mpr ⟨rfl, hfront⟩⟩

theorem trim_fill (E : List (Piece κ)) :
    ∃ F, (∀ v, Text.trim (fill v E) = fill v F) ∧ common F <:+: common E := by
  obtain ⟨P, G, rfl, hG⟩ := trimStart_fill E
  obtain ⟨F, hF, hfront⟩ := trimEnd_fill G
  refine ⟨F, fun v => by rw [Text.trim, hG, hF], hfront.isInfix.trans ?_⟩
  exact ⟨P, [], by simp⟩

theorem isSilent_fill (E : List (Piece κ)) : ∃ b, ∀ v, isSilent (fill v E) = b := by
  cases E with
  | nil => exact ⟨true, fun _ => rfl⟩
  | cons p E =>
    have hne : ∀ v : κ → Handle, fill v (p :: E) ≠ [] := by
      intro v
      cases p <;> simp
    rcases eat_fill [kw "//"] (by decide) (p :: E) with hnone | ⟨P, F, -, hF⟩
    · refine ⟨false, fun v => ?_⟩
      rw [Bool.eq_false_iff, ne_eq, isSilent_iff, hnone]
      simp [hne v]
    · exact ⟨true, fun v => isSilent_iff.mpr (.inr ⟨_, hF v⟩)⟩

theorem splitAt_fill :
    ∀ E : List (Piece κ), ∃ (F : List (Piece κ)) (Fs : List (List (Piece κ))),
      (∀ v, Text.splitAt '\n' (fill v E) = fill v F :: Fs.map (fill v)) ∧
        common F <+: common E ∧ ∀ F' ∈ Fs, common F' <:+: common E
  | [] => ⟨[], [], fun _ => rfl, List.prefix_rfl, nofun⟩
  | .plain c :: E => by
      obtain ⟨F, Fs, hF, hfront, hpart⟩ := splitAt_fill E
      by_cases hc : c = '\n'
      · refine ⟨[], F :: Fs, fun v => by simp [Text.splitAt, hc, hF], List.nil_prefix, ?_⟩
        intro F' hF'
        rcases List.mem_cons.mp hF' with rfl | hF'
        · exact hfront.isInfix.trans ⟨[c], [], by simp⟩
        · exact (hpart F' hF').trans ⟨[c], [], by simp⟩
      · refine ⟨.plain c :: F, Fs, fun v => by simp [Text.splitAt, hc, hF],
          List.cons_prefix_cons.mpr ⟨rfl, hfront⟩, fun F' hF' => ?_⟩
        exact (hpart F' hF').trans ⟨[c], [], by simp⟩
  | .hole k :: E => by
      obtain ⟨F, Fs, hF, hfront, hpart⟩ := splitAt_fill E
      refine ⟨.hole k :: F, Fs, fun v => ?_,
        List.cons_prefix_cons.mpr ⟨rfl, List.cons_prefix_cons.mpr ⟨rfl, hfront⟩⟩, fun F' hF' => ?_⟩
      · have hmark : '\n' ∉ '\'' :: ((v k).locator.toList ++ ['\'']) := by
          have hloc : '\n' ∉ (v k).locator.toList := not_mem_locator (by decide)
          simp [hloc]
        have hsplit := Text.splitAt_append hmark (hF v)
        simpa using hsplit
      · exact (hpart F' hF').trans ⟨['\'', '\''], [], by simp⟩

/-! ## Sources -/

/-- How lines are read in all fillings alike: as drafts, or with an error in the same line. -/
inductive ParseFill (Es : List (List (Piece κ)))
    (parse : List (List Char) → Except LoadError (List Statement)) : Prop where
  | statements (ds : List (Draft κ)) :
      ((∀ E ∈ Es, Handle.Absent (common E)) → ∀ d ∈ ds, d.Absent) →
      (∀ v, parse (Es.map (fill v)) = .ok (ds.map (Draft.fill v))) → ParseFill Es parse
  | malformed (line : Nat) (F : List (Piece κ)) :
      (∀ v, parse (Es.map (fill v)) = .error (.malformed line (String.ofList (fill v F)))) →
      ParseFill Es parse

theorem parseLines_fill :
    ∀ (number : Nat) (Es : List (List (Piece κ))), ParseFill Es (parseLines number)
  | _, [] => .statements [] (fun _ => nofun) fun _ => rfl
  | number, E :: Es => by
      obtain ⟨F, hF, hpart⟩ := trim_fill E
      obtain ⟨b, hb⟩ := isSilent_fill F
      have hrest := parseLines_fill (number + 1) Es
      have hparse : ∀ v, parseLines number ((E :: Es).map (fill v)) =
          if b then parseLines (number + 1) (Es.map (fill v))
          else (statement? (fill v F)).elim
            (.error (.malformed number (String.ofList (fill v F))))
            fun s => (parseLines (number + 1) (Es.map (fill v))).map (s :: ·) := by
        intro v
        rw [← hb v, ← hF v, List.map_cons, parseLines]
        cases statement? (Text.trim (fill v E)) <;> rfl
      cases b with
      | true =>
        cases hrest with
        | statements ds habsent hds =>
          refine .statements ds
            (fun h => habsent fun E' hE' => h E' (List.mem_cons_of_mem _ hE')) ?_
          intro v
          rw [hparse, if_pos rfl, hds]
        | malformed line G hG =>
          exact .malformed line G fun v => by rw [hparse, if_pos rfl, hG]
      | false =>
        rcases statement?_fill F with hnone | ⟨d, hd, hsome⟩
        · refine .malformed number F fun v => ?_
          rw [hparse, hnone]
          rfl
        · cases hrest with
          | statements ds habsent hds =>
            refine .statements (d :: ds) (fun h d' hd' => ?_) fun v => ?_
            · rcases List.mem_cons.mp hd' with rfl | hd'
              · exact hd ((h E List.mem_cons_self).of_part hpart)
              · exact habsent (fun E' hE' => h E' (List.mem_cons_of_mem _ hE')) d' hd'
            · rw [hparse, hsome, hds]
              rfl
          | malformed line G hG =>
            refine .malformed line G fun v => ?_
            rw [hparse, hsome, hG]
            rfl

/-- **Reading treats all handles alike.**  A source with places for handles is read as the same
drafts, or has its first bad line in the same place, whatever handles it is filled with. -/
theorem parse_fill (E : List (Piece κ)) :
    (∃ ds : List (Draft κ), (Handle.Absent (common E) → ∀ d ∈ ds, d.Absent) ∧
        ∀ v, parse (String.ofList (fill v E)) = .ok (ds.map (Draft.fill v))) ∨
      ∃ line F, ∀ v, parse (String.ofList (fill v E)) =
        .error (.malformed line (String.ofList (fill v F))) := by
  obtain ⟨F, Fs, hF, hfront, hpart⟩ := splitAt_fill E
  have hparse : ∀ v, parse (String.ofList (fill v E)) = parseLines 1 ((F :: Fs).map (fill v)) := by
    intro v
    rw [parse, String.toList_ofList, hF, List.map_cons]
  cases parseLines_fill 1 (F :: Fs) with
  | statements ds habsent hds =>
    refine .inl ⟨ds, fun h => habsent fun F' hF' => ?_, fun v => by rw [hparse, hds]⟩
    rcases List.mem_cons.mp hF' with rfl | hF'
    · exact h.of_part hfront.isInfix
    · exact h.of_part (hpart F' hF')
  | malformed line G hG => exact .inr ⟨line, G, fun v => by rw [hparse, hG]⟩

end ComponentHost.Entry
