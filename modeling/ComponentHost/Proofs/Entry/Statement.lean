/-
# `ComponentHost.Proofs.Entry.Statement` — the statements that bind

The three statements that bind a name are read alike: a keyword and a name, some
pieces, then a reference, then the end of the statement.

    form       keyword   pieces between name and reference    reference
    static     import    gap                                  Shape.static
    deferred   const     = await                              Shape.deferred
    location   const     =                                    Shape.relative

So each of them is `readBinding` with what may follow the quoted text; relinking
and reading meet in the pieces that stand before that text, which are the same list.
-/
import ComponentHost.Entry.Statement
import ComponentHost.Proofs.Entry.Reference

namespace ComponentHost.Entry

open Text (Tight trimStart)

namespace ImportForm

/-- The shape of the reference in a statement of the form. -/
def shape : ImportForm → Shape
  | static => .static
  | deferred => .deferred
  | location _ => .relative

/-- What a statement of the form starts with. -/
def keyword : ImportForm → String
  | static => "import"
  | _ => "const"

/-- The pieces between the name and the reference. -/
def between : ImportForm → List Token
  | static => [.gap]
  | deferred => [.space, kw "=", .space, kw "await", .gap]
  | location _ => [.space, kw "=", .space]

theorem shape_sound (f : ImportForm) : f.shape.Sound := by
  cases f with
  | static => exact Shape.static_sound
  | deferred => exact Shape.deferred_sound
  | location b => exact Shape.relative_sound

theorem quiet_between (f : ImportForm) : ∀ t ∈ f.between, t.Quiet := by
  cases f <;> decide +revert

theorem quiet_keyword (f : ImportForm) : ∀ t ∈ [kw f.keyword, .gap], t.Quiet := by
  cases f <;> decide +revert

end ImportForm

/-! ## Up to the reference, and up to the quoted text -/

/-- The name that a statement binds, and what follows up to the reference. -/
def readHead (f : ImportForm) (cs : List Char) : Option (List Char × List Char) :=
  (eat [kw f.keyword, .gap] cs).bind fun cs =>
    (readName cs).bind fun x => (eat f.between x.2).map (x.1, ·)

/-- The name that a statement binds, the quoted text, and what follows that. -/
def readBinding (f : ImportForm) (cs : List Char) : Option (List Char × List Char × List Char) :=
  (readHead f cs).bind fun x =>
    (eat f.shape.before x.2).bind fun cs => (readQuoted cs).map (x.1, ·)

/-- The form of the statement, if what follows the quoted text ends one. -/
def readClose : ImportForm → List Char → Option ImportForm
  | .static, cs => if isEnd cs then some .static else none
  | .deferred, cs =>
    (eat Shape.deferred.after cs).bind fun cs => if isEnd cs then some .deferred else none
  | .location _, cs =>
    (readBase cs).bind fun x => if isEnd x.2 then some (.location x.1) else none

def readBind (f : ImportForm) (cs : List Char) : Option Statement :=
  (readBinding f cs).bind fun x =>
    (readClose f x.2.2).map fun f => .bind f (String.ofList x.1) (String.ofList x.2.1)

theorem finish_bind (f : ImportForm) (binding locator : String) (cs : List Char) :
    finish (.bind f binding locator) cs =
      (if isEnd cs then some f else none).map fun f => .bind f binding locator := by
  rw [finish]
  split <;> rfl

theorem readStatic_eq (cs : List Char) : readStatic cs = readBind .static cs := by
  have hmiddle : ∀ cs, eat [.gap, kw "from", .gap] cs =
      (eat ImportForm.static.between cs).bind (eat Shape.static.before) :=
    eat_append_tokens [.gap] [kw "from", .gap]
  simp [readStatic, readBind, readBinding, readHead, readClose, finish_bind, hmiddle,
    ImportForm.keyword, ImportForm.shape, Option.bind_assoc, Option.bind_map]

theorem readDeferred_eq (cs : List Char) : readDeferred cs = readBind .deferred cs := by
  have hmiddle : ∀ cs,
      eat [.space, kw "=", .space, kw "await", .gap, kw "import", .space, kw "(", .space] cs =
        (eat ImportForm.deferred.between cs).bind (eat Shape.deferred.before) :=
    eat_append_tokens [.space, kw "=", .space, kw "await", .gap]
      [kw "import", .space, kw "(", .space]
  simp [readDeferred, readBind, readBinding, readHead, readClose, finish_bind, hmiddle,
    ImportForm.keyword, ImportForm.shape, Shape.deferred, Option.bind_assoc, Option.bind_map,
    Option.map_bind]

theorem readLocation_eq (b : Bool) (cs : List Char) :
    readLocation cs = readBind (.location b) cs := by
  have hmiddle : ∀ cs,
      eat [.space, kw "=", .space, kw "new", .gap, kw "URL", .space, kw "(", .space] cs =
        (eat (ImportForm.location b).between cs).bind (eat Shape.relative.before) :=
    eat_append_tokens [.space, kw "=", .space] [kw "new", .gap, kw "URL", .space, kw "(", .space]
  simp [readLocation, readBind, readBinding, readHead, readClose, finish_bind, hmiddle,
    ImportForm.keyword, ImportForm.shape, Option.bind_assoc, Option.bind_map, Option.map_bind]

/-! ## Behind the quoted text -/

namespace ImportForm

def after : ImportForm → List Token
  | static => []
  | deferred => Shape.deferred.after
  | location true => Shape.relative.after
  | location false => [.space, kw ")"]

/-- The form of a statement once its reference is replaced. -/
def linked : ImportForm → ImportForm
  | location _ => location false
  | form => form

theorem readHead_linked (f : ImportForm) : readHead f.linked = readHead f := by cases f <;> rfl

theorem shape_linked (f : ImportForm) : f.linked.shape = f.shape := by cases f <;> rfl

theorem closing_reads (f : ImportForm) (r : List Char) :
    eat f.linked.after (f.shape.closing ++ r) = some r := by
  cases f <;> rfl

theorem after_taken (f : ImportForm) {cs rest : List Char} (h : eat f.after cs = some rest) :
    ∃ K, cs = K ++ rest ∧ (K = [] ∨ ∃ Z, K = Z ++ [')']) ∧ Quiet K ∧
      ∀ r, eat f.after (K ++ r) = some r := by
  have hbracket : ∀ ts : List Token, (∀ t ∈ ts, t.Quiet) →
      eat (ts ++ [kw ")"]) cs = some rest →
      ∃ K, cs = K ++ rest ∧ (K = [] ∨ ∃ Z, K = Z ++ [')']) ∧ Quiet K ∧
        ∀ r, eat (ts ++ [kw ")"]) (K ++ r) = some r := by
    intro ts hts h
    obtain ⟨K, rfl, hK, hstable⟩ := Shape.eat_taken_word ts hts (by decide) (by decide) h
    have hself := hstable []
    rw [List.append_nil, eat_append_tokens, Option.bind_eq_some_iff] at hself
    obtain ⟨cs', hcs', hword⟩ := hself
    obtain ⟨Z, hZ, -, -⟩ := eat_taken hts hcs'
    obtain ⟨_, rfl, hnil⟩ := eat_word.mp hword
    cases hnil
    exact ⟨K, rfl, .inr ⟨Z, hZ⟩, hK, hstable⟩
  rcases f with _ | _ | b
  · cases h
    exact ⟨[], rfl, .inl rfl, quiet_nil, fun _ => rfl⟩
  · exact hbracket [.space] (by decide) h
  · cases b with
    | false => exact hbracket [.space] (by decide) h
    | true =>
      exact hbracket [.space, kw ",", .space, kw "import.meta.url", .space] (by decide) h

end ImportForm

/-! ## What is read is taken -/

theorem readHead_cons {f : ImportForm} {cs : List Char} {x : List Char × List Char}
    (h : readHead f cs = some x) :
    ∃ c cs', cs = c :: cs' ∧ (f = .static ∧ c = 'i' ∨ f ≠ .static ∧ c = 'c') := by
  rw [readHead, Option.bind_eq_some_iff] at h
  obtain ⟨cs', hcs', -⟩ := h
  obtain ⟨tail, rfl, -⟩ := eat_word.mp hcs'
  cases f with
  | static => exact ⟨'i', "mport".toList ++ tail, rfl, .inl ⟨rfl, rfl⟩⟩
  | deferred => exact ⟨'c', "onst".toList ++ tail, rfl, .inr ⟨nofun, rfl⟩⟩
  | location b =>
    cases b <;> exact ⟨'c', "onst".toList ++ tail, rfl, .inr ⟨nofun, rfl⟩⟩

theorem readHead_static_of_ne {f : ImportForm} {cs : List Char} {x : List Char × List Char}
    (h : readHead f cs = some x) (hf : f ≠ .static) : readHead .static cs = none := by
  cases hstatic : readHead .static cs with
  | none => rfl
  | some y =>
    obtain ⟨c, cs', rfl, hc⟩ := readHead_cons h
    obtain ⟨d, ds', hcons, hd⟩ := readHead_cons hstatic
    obtain ⟨rfl, -⟩ := List.cons.inj hcons
    rcases hc with ⟨rfl, -⟩ | ⟨-, rfl⟩
    · exact absurd rfl hf
    · rcases hd with ⟨-, hne⟩ | ⟨hne, -⟩
      · cases hne
      · exact absurd rfl hne

theorem readHead_deferred_eq (b : Bool) (cs : List Char) :
    readHead .deferred cs =
      (readHead (.location b) cs).bind fun x => (eat [kw "await", .gap] x.2).map (x.1, ·) := by
  have hbetween : ∀ cs, eat ImportForm.deferred.between cs =
      (eat (ImportForm.location b).between cs).bind (eat [kw "await", .gap]) :=
    eat_append_tokens [.space, kw "=", .space] [kw "await", .gap]
  simp [readHead, hbetween, ImportForm.keyword, Option.bind_assoc, Option.bind_map,
    Option.map_bind]

theorem readBind_of_readHead {f : ImportForm} {cs : List Char} (h : readHead f cs = none) :
    readBind f cs = none := by
  rw [readBind, readBinding, h]
  rfl

theorem readHead_taken {f : ImportForm} {cs name rest : List Char}
    (h : readHead f cs = some (name, rest)) :
    ∃ P, cs = P ++ rest ∧ Quiet P ∧ ∀ r, Tight r → readHead f (P ++ r) = some (name, r) := by
  rw [readHead, Option.bind_eq_some_iff] at h
  obtain ⟨cs₁, hkeyword, h⟩ := h
  obtain ⟨⟨name', cs₂⟩, hname, h⟩ := Option.bind_eq_some_iff.mp h
  obtain ⟨cs₃, hbetween, hpair⟩ := Option.map_eq_some_iff.mp h
  obtain ⟨rfl, rfl⟩ := Prod.mk.inj hpair
  have htight : Tight cs₁ := by
    obtain ⟨_, rfl, hgap⟩ := eat_word.mp hkeyword
    obtain ⟨_, _, rfl, -, -, htight, hnil⟩ := eat_gap.mp hgap
    cases hnil
    exact htight
  obtain ⟨P₁, rfl, hP₁, hstable₁⟩ := eat_taken f.quiet_keyword hkeyword
  obtain ⟨rfl, hne, hquiet, hstop, hstable₂⟩ := readName_taken hname
  obtain ⟨P₃, rfl, hP₃, hstable₃⟩ := eat_taken f.quiet_between hbetween
  -- without anything after the name, a longer name would be read
  have hne₃ : P₃ ≠ [] := by
    rintro rfl
    have hnil := hstable₃ [] Text.tight_nil
    cases f <;> cases hnil
  refine ⟨P₁ ++ (name' ++ P₃), by simp, by simp [hP₁, hquiet, hP₃], fun r hr => ?_⟩
  obtain ⟨c, name, rfl⟩ := List.exists_cons_of_ne_nil hne
  obtain ⟨d, P₃, rfl⟩ := List.exists_cons_of_ne_nil hne₃
  have hkeyword := hstable₁ (c :: name ++ (d :: P₃ ++ r))
    (Text.tight_cons.mpr (Text.tight_cons.mp htight))
  have hname := hstable₂ (d :: P₃ ++ r) hstop
  rw [readHead, List.append_assoc, List.append_assoc, hkeyword, Option.bind_some, hname,
    Option.bind_some, hstable₃ r hr]
  rfl

theorem eat_space_eq (ts : List Token) (cs : List Char) :
    eat (.space :: ts) cs = eat ts (trimStart cs) := rfl

theorem eat_relative_after {cs rest : List Char} (h : eat [.space, kw ")"] cs = some rest) :
    eat Shape.relative.after cs = none := by
  rw [eat_space_eq] at h
  obtain ⟨cs', hcs, -⟩ := eat_word.mp h
  rw [Shape.relative, eat_space_eq, hcs]
  rfl

theorem readBase_eq (cs : List Char) :
    readBase cs =
      match eat Shape.relative.after cs with
      | some rest => some (true, rest)
      | none => (eat [.space, kw ")"] cs).map (false, ·) := rfl

theorem readClose_of {f : ImportForm} {cs rest : List Char} (h : eat f.after cs = some rest)
    (hend : isEnd rest = true) : readClose f cs = some f := by
  rcases f with _ | _ | b
  · cases h
    rw [readClose, if_pos hend]
  · rw [readClose, show eat Shape.deferred.after cs = some rest from h, Option.bind_some,
      if_pos hend]
  · cases b with
    | true =>
      have hbase : readBase cs = some (true, rest) := by
        rw [readBase_eq, show eat Shape.relative.after cs = some rest from h]
      rw [readClose, hbase, Option.bind_some, if_pos hend]
    | false =>
      have hbase : readBase cs = some (false, rest) := by
        rw [readBase_eq, eat_relative_after h, show eat [.space, kw ")"] cs = some rest from h]
        rfl
      rw [readClose, hbase, Option.bind_some, if_pos hend]

theorem readClose_taken {f f' : ImportForm} {cs : List Char} (h : readClose f cs = some f') :
    ∃ rest, eat f'.after cs = some rest ∧ isEnd rest = true ∧ readHead f' = readHead f ∧
      f'.shape = f.shape := by
  rcases f with _ | _ | b
  · rw [readClose] at h
    split at h
    · rename_i hend
      cases h
      exact ⟨cs, rfl, hend, rfl, rfl⟩
    · cases h
  · rw [readClose, Option.bind_eq_some_iff] at h
    obtain ⟨rest, hafter, h⟩ := h
    split at h
    · rename_i hend
      cases h
      exact ⟨rest, hafter, hend, rfl, rfl⟩
    · cases h
  · rw [readClose, Option.bind_eq_some_iff] at h
    obtain ⟨⟨b', rest⟩, hbase, h⟩ := h
    split at h
    · rename_i hend
      cases h
      refine ⟨rest, ?_, hend, rfl, rfl⟩
      rw [readBase_eq] at hbase
      split at hbase
      · rename_i hafter
        cases hbase
        exact hafter
      · obtain ⟨rest', hafter, hx⟩ := Option.map_eq_some_iff.mp hbase
        cases hx
        exact hafter
    · cases h

theorem isEnd_eq_true {cs : List Char} (h : isEnd cs = true) : Quiet cs := by
  obtain ⟨W, hW, hcs, -⟩ := Text.trimStart_eq_iff.mp (rfl : trimStart cs = trimStart cs)
  rw [isEnd] at h
  rw [hcs]
  refine quiet_append.mpr ⟨quiet_of_blank hW, ?_⟩
  split at h
  · rename_i hnil
    rw [hnil]
    exact quiet_nil
  · rename_i hone
    rw [hone]
    decide
  · cases h

/-! ## Exports -/

def exportAllTokens : List Token := [kw "export", .gap, kw "*", .gap, kw "from", .gap]

def exportDefaultTokens : List Token := [kw "export", .gap, kw "default", .gap]

def readExport (ts : List Token) (make : String → Statement) (cs : List Char) :
    Option Statement :=
  (eat ts cs).bind fun cs => (readName cs).bind fun x => finish (make (String.ofList x.1)) x.2

theorem readExportAll_eq : readExportAll = readExport exportAllTokens .exportAll := rfl

theorem readExportDefault_eq :
    readExportDefault = readExport exportDefaultTokens .exportDefault := rfl

theorem statement?_eq (b : Bool) (line : List Char) :
    statement? line = (readBind .static line <|> readBind .deferred line <|>
      readBind (.location b) line <|> readExport exportAllTokens .exportAll line <|>
        readExport exportDefaultTokens .exportDefault line) := by
  rw [statement?, readStatic_eq, readDeferred_eq, readLocation_eq b, readExportAll_eq,
    readExportDefault_eq]

theorem statement?_of_readBind {f : ImportForm} {line : List Char} {s : Statement}
    (h : readBind f line = some s) : statement? line = some s := by
  obtain ⟨y, hbinding, -⟩ := Option.bind_eq_some_iff.mp h
  obtain ⟨x, hhead, hbinding⟩ := Option.bind_eq_some_iff.mp hbinding
  obtain ⟨cs, hbefore, -⟩ := Option.bind_eq_some_iff.mp hbinding
  cases f with
  | static =>
    rw [statement?_eq true, h]
    rfl
  | deferred =>
    have hstatic : readBind .static line = none :=
      readBind_of_readHead (readHead_static_of_ne hhead (by simp))
    rw [statement?_eq true, hstatic, h]
    rfl
  | location relative =>
    have hstatic : readBind .static line = none :=
      readBind_of_readHead (readHead_static_of_ne hhead (by simp))
    -- both start with `const NAME =`, and only the word that follows tells them apart
    have hdeferred : readBind .deferred line = none := by
      obtain ⟨cs', hcs, -⟩ := eat_word.mp hbefore
      refine readBind_of_readHead ?_
      rw [readHead_deferred_eq relative, hhead, Option.bind_some, hcs]
      rfl
    rw [statement?_eq relative, hstatic, hdeferred, h]
    rfl

/-! ## Lines that say nothing -/

theorem isSilent_iff {line : List Char} :
    isSilent line = true ↔ line = [] ∨ ∃ rest, eat [kw "//"] line = some rest := by
  rw [isSilent, Bool.or_eq_true, List.isEmpty_iff, List.isPrefixOf_iff_prefix]
  refine or_congr Iff.rfl ?_
  constructor
  · rintro ⟨rest, rfl⟩
    exact ⟨rest, eat_word.mpr ⟨rest, rfl, rfl⟩⟩
  · rintro ⟨rest, h⟩
    obtain ⟨_, rfl, -⟩ := eat_word.mp h
    exact List.prefix_append _ _

end ComponentHost.Entry
