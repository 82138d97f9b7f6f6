/-
# `ComponentHost.Proofs.Entry.Grammar` — the grammar of a statement

A statement is written as a sequence of symbols, each of which is spelled by some texts:

    piece    a fixed word, white space that may be missing, or white space that may not
    name     the name of the binding
    mark     either quotation mark
    locator  the locator, which is not empty and holds no mark
    stop     nothing, or a semicolon that may have white space in front

The grammar knows nothing of how lines are read: a `Layout` of a statement is one text for
each of its symbols, whichever these are, and a line is a layout's if it is these texts in
a row.  It turns out that no line is that of two layouts.  The reason is that each text is
as long as it can be: what comes behind it cannot go on with it (`Takes`), because of what
the next symbols can start with (`Apart`).
-/
import ComponentHost.Proofs.Entry.Statement

namespace ComponentHost

open Text (Blank Tight)

/-! ## Runs of characters -/

namespace Text

/-- The code points of white space, one by one. -/
def blankCodes : List Nat :=
  [9, 10, 11, 12, 13, 32, 133, 160, 5760, 8192, 8193, 8194, 8195, 8196, 8197, 8198, 8199, 8200,
    8201, 8202, 8232, 8233, 8239, 8287, 12288]

/-- What holds of the code points of white space holds of white space. -/
theorem forall_blank {P : Char → Prop} (hall : ∀ n ∈ blankCodes, P (Char.ofNat n)) {c : Char}
    (h : isBlank c = true) : P c := by
  have hmem : c.toNat ∈ blankCodes := by
    simp [isBlank, inRanges, blankRanges] at h
    simp only [blankCodes, List.mem_cons, List.not_mem_nil, or_false]
    omega
  exact Char.ofNat_toNat c ▸ hall c.toNat hmem

theorem not_isNamePart_of_isBlank {c : Char} (h : isBlank c = true) : isNamePart c = false :=
  forall_blank (P := fun c => isNamePart c = false) (by decide +kernel) h

theorem not_isBlank_of_isNameStart {c : Char} (h : isNameStart c = true) : isBlank c = false := by
  cases hb : isBlank c with
  | false => rfl
  | true =>
    have hstart : isNameStart c = false :=
      forall_blank (P := fun c => isNameStart c = false) (by decide +kernel) hb
    cases h.symm.trans hstart

end Text

/-- A run of characters with a property ends where it has to. -/
theorem run_unique {P : Char → Bool} {p p' r r' : List Char} (hp : ∀ c ∈ p, P c = true)
    (hp' : ∀ c ∈ p', P c = true) (hr : ∀ c ∈ r.head?, P c = false)
    (hr' : ∀ c ∈ r'.head?, P c = false) (h : p ++ r = p' ++ r') : p = p' ∧ r = r' := by
  have htake : ∀ {p r : List Char}, (∀ c ∈ p, P c = true) → (∀ c ∈ r.head?, P c = false) →
      (p ++ r).takeWhile P = p := by
    intro p r hp hr
    rw [List.takeWhile_append_of_pos hp]
    cases r with
    | nil => simp
    | cons c r => simp [hr c rfl]
  have hsame : p = p' := by
    rw [← htake hp hr, h, htake hp' hr']
  subst hsame
  exact ⟨rfl, List.append_cancel_left h⟩

namespace Entry

/-! ## Symbols and what they are spelled by -/

/-- A text that spells a piece. -/
def Token.Spells : Token → List Char → Prop
  | .word w, cs => cs = w
  | .space, cs => Blank cs
  | .gap, cs => cs ≠ [] ∧ Blank cs

/-- The text starts as a name may, and goes on as a name may. -/
def IsName : List Char → Prop
  | [] => False
  | c :: cs => Text.isNameStart c = true ∧ ∀ d ∈ cs, Text.isNamePart d = true

inductive Symbol where
  | piece (t : Token)
  /-- This name. -/
  | name (cs : List Char)
  | mark
  /-- This locator. -/
  | locator (cs : List Char)
  | stop
  deriving DecidableEq, Repr

namespace Symbol

def Spells : Symbol → List Char → Prop
  | piece t, cs => t.Spells cs
  | name n, cs => cs = n ∧ IsName n
  | mark, cs => ∃ q, cs = [q] ∧ isQuote q = true
  | locator l, cs => cs = l ∧ l ≠ [] ∧ Quiet l
  | stop, cs => cs = [] ∨ ∃ W, cs = W ++ [';'] ∧ Blank W

/-- A character that cannot go on with a text of the symbol. -/
def stops : Symbol → Char → Bool
  | piece (.word _), _ | mark, _ => true
  | piece .space, c | piece .gap, c => !Text.isBlank c
  | name _, c => !Text.isNamePart c
  | locator _, c => isQuote c
  | stop, c => !Text.isBlank c && c != ';'

/-- A text does not go on with a text of the symbol. -/
def Ends (s : Symbol) (rest : List Char) : Prop := ∀ c ∈ rest.head?, s.stops c = true

theorem ends_nil (s : Symbol) : s.Ends [] := nofun

theorem ends_of_true {s : Symbol} (h : ∀ c, s.stops c = true) (rest : List Char) : s.Ends rest :=
  fun c _ => h c

theorem ends_space {rest : List Char} : (piece .space).Ends rest ↔ Tight rest := by
  simp [Ends, Tight, stops]

theorem ends_gap {rest : List Char} : (piece .gap).Ends rest ↔ Tight rest := by
  simp [Ends, Tight, stops]

/-- What is spelled with a semicolon is longer than what is spelled without. -/
theorem not_ends_stop {W rest : List Char} (hW : Blank W) : ¬ stop.Ends (W ++ ';' :: rest) := by
  intro h
  cases W with
  | nil => exact absurd (h ';' rfl) (by decide)
  | cons c W =>
    have hc := h c rfl
    rw [stops, hW c List.mem_cons_self] at hc
    cases hc

/-- A text that spells a symbol, with something behind it that does not go on with it, is the only
one. -/
theorem spells_unique {s : Symbol} {p p' r r' : List Char} (hp : s.Spells p) (hp' : s.Spells p')
    (hr : s.Ends r) (hr' : s.Ends r') (h : p ++ r = p' ++ r') : p = p' ∧ r = r' := by
  have hsame : p = p' → p = p' ∧ r = r' := by
    rintro rfl
    exact ⟨rfl, List.append_cancel_left h⟩
  have hblank : ∀ {r : List Char}, Tight r → ∀ c ∈ r.head?, Text.isBlank c = false := id
  cases s with
  | piece t =>
    cases t with
    | word w => exact hsame (hp.trans hp'.symm)
    | space => exact run_unique hp hp' (hblank (ends_space.mp hr)) (hblank (ends_space.mp hr')) h
    | gap => exact run_unique hp.2 hp'.2 (hblank (ends_gap.mp hr)) (hblank (ends_gap.mp hr')) h
  | name n => exact hsame (hp.1.trans hp'.1.symm)
  | mark =>
    obtain ⟨q, rfl, -⟩ := hp
    obtain ⟨q', rfl, -⟩ := hp'
    obtain ⟨rfl, rfl⟩ := List.cons.inj h
    exact ⟨rfl, rfl⟩
  | locator l => exact hsame (hp.1.trans hp'.1.symm)
  | stop =>
    rcases hp with rfl | ⟨W, rfl, hW⟩ <;> rcases hp' with rfl | ⟨W', rfl, hW'⟩
    · exact hsame rfl
    · rw [List.nil_append, List.append_assoc] at h
      exact absurd (h ▸ hr) (not_ends_stop hW')
    · rw [List.nil_append, List.append_assoc] at h
      exact absurd (h ▸ hr') (not_ends_stop hW)
    · have hsemicolon : ∀ rest : List Char, ∀ c ∈ (';' :: rest).head?, Text.isBlank c = false := by
        intro rest c hc
        cases hc
        decide
      rw [List.append_assoc, List.append_assoc] at h
      obtain ⟨rfl, -⟩ := run_unique hW hW' (hsemicolon r) (hsemicolon r') h
      exact hsame rfl

end Symbol

/-! ## Texts that are as long as they can be -/

/-- The texts `ps` spell the symbols, in a row in front of `rest`, each as long as it can be. -/
inductive Takes : List Symbol → List Char → List (List Char) → List Char → Prop
  | nil (rest : List Char) : Takes [] rest [] rest
  | cons {s : Symbol} {ss : List Symbol} {p cs : List Char} {ps : List (List Char)}
      {rest : List Char} : s.Spells p → s.Ends cs → Takes ss cs ps rest →
      Takes (s :: ss) (p ++ cs) (p :: ps) rest

section Takes

variable {ss ss' : List Symbol} {cs rest rest' : List Char} {ps ps' : List (List Char)}

theorem takes_nil : Takes [] cs ps rest ↔ ps = [] ∧ cs = rest := by
  constructor
  · intro h
    cases h
    exact ⟨rfl, rfl⟩
  · rintro ⟨rfl, rfl⟩
    exact .nil cs

theorem takes_cons {s : Symbol} : Takes (s :: ss) cs ps rest ↔
    ∃ p cs' ps', cs = p ++ cs' ∧ ps = p :: ps' ∧ s.Spells p ∧ s.Ends cs' ∧
      Takes ss cs' ps' rest := by
  constructor
  · intro h
    cases h with
    | cons hp hends h => exact ⟨_, _, _, rfl, rfl, hp, hends, h⟩
  · rintro ⟨p, cs', ps', rfl, rfl, hp, hends, h⟩
    exact .cons hp hends h

theorem Takes.flatten_append (h : Takes ss cs ps rest) : ps.flatten ++ rest = cs := by
  induction h with
  | nil rest => rfl
  | cons _ _ _ ih => rw [List.flatten_cons, List.append_assoc, ih]

theorem Takes.spells (h : Takes ss cs ps rest) : List.Forall₂ Symbol.Spells ss ps := by
  induction h with
  | nil rest => exact .nil
  | cons hp _ _ ih => exact .cons hp ih

theorem Takes.unique (h : Takes ss cs ps rest) (h' : Takes ss cs ps' rest') :
    ps = ps' ∧ rest = rest' := by
  induction h generalizing ps' with
  | nil rest =>
    cases h'
    exact ⟨rfl, rfl⟩
  | cons hp hends h ih =>
    obtain ⟨p', cs', ps', hcs, rfl, hp', hends', h'⟩ := takes_cons.mp h'
    obtain ⟨rfl, rfl⟩ := Symbol.spells_unique hp hp' hends hends' hcs
    obtain ⟨rfl, rfl⟩ := ih h'
    exact ⟨rfl, rfl⟩

theorem takes_append : Takes (ss ++ ss') cs ps rest ↔
    ∃ mid ps₁ ps₂, ps = ps₁ ++ ps₂ ∧ Takes ss cs ps₁ mid ∧ Takes ss' mid ps₂ rest := by
  constructor
  · intro h
    induction ss generalizing cs ps with
    | nil => exact ⟨cs, [], ps, rfl, .nil cs, h⟩
    | cons s ss ih =>
      obtain ⟨p, cs', ps', rfl, rfl, hp, hends, h⟩ := takes_cons.mp h
      obtain ⟨mid, ps₁, ps₂, rfl, h₁, h₂⟩ := ih h
      exact ⟨mid, p :: ps₁, ps₂, rfl, .cons hp hends h₁, h₂⟩
  · rintro ⟨mid, ps₁, ps₂, rfl, h₁, h₂⟩
    induction h₁ with
    | nil rest => exact h₂
    | cons hp hends _ ih => exact .cons hp hends (ih h₂)

end Takes

/-! ## Symbols that keep apart -/

/-- What a text that spells symbols can start with. -/
inductive Lead where
  | char (c : Char)
  | blank
  | namePart
  | quote
  | any
  deriving DecidableEq, Repr

namespace Lead

/-- The character is one of those. -/
def Covers : Lead → Char → Prop
  | char d, c => c = d
  | blank, c => Text.isBlank c = true
  | namePart, c => Text.isNameStart c = true
  | quote, c => isQuote c = true
  | any, _ => True

/-- No such character can go on with a text of the symbol. -/
def stops : Lead → Symbol → Bool
  | _, .piece (.word _) | _, .mark => true
  | char c, s => s.stops c
  | quote, _ => true
  | namePart, .piece _ => true
  | blank, .name _ => true
  | _, _ => false

theorem stops_sound {l : Lead} {s : Symbol} {c : Char} (h : l.stops s = true) (hc : l.Covers c) :
    s.stops c = true := by
  have hquote : isQuote c = true → s.stops c = true := by
    intro hq
    rcases isQuote_iff.mp hq with rfl | rfl <;> rcases s with (_ | _ | _) | _ | _ | _ | _ <;> rfl
  cases l with
  | char d =>
    obtain rfl : c = d := hc
    rcases s with (_ | _ | _) | _ | _ | _ | _ <;> exact h
  | blank =>
    rcases s with (_ | _ | _) | _ | _ | _ | _
    case name n =>
      rw [Symbol.stops, Text.not_isNamePart_of_isBlank hc]
      rfl
    case mark => rfl
    case piece.word w => rfl
    all_goals cases h
  | namePart =>
    have hblank := Text.not_isBlank_of_isNameStart hc
    rcases s with (_ | _ | _) | _ | _ | _ | _
    case piece.space => rw [Symbol.stops, hblank]; rfl
    case piece.gap => rw [Symbol.stops, hblank]; rfl
    case mark => rfl
    case piece.word w => rfl
    all_goals cases h
  | quote => exact hquote hc
  | any =>
    rcases s with (_ | _ | _) | _ | _ | _ | _
    case mark => rfl
    case piece.word w => rfl
    all_goals cases h

end Lead

/-- What the texts that spell the symbols can start with. -/
def leads : List Symbol → List Lead
  | [] => []
  | .piece (.word []) :: ss => leads ss
  | .piece (.word (c :: _)) :: _ => [.char c]
  | .piece .space :: ss => .blank :: leads ss
  | .piece .gap :: _ => [.blank]
  | .name _ :: _ => [.namePart]
  | .mark :: _ => [.quote]
  | .locator _ :: _ => [.any]
  | .stop :: ss => .blank :: .char ';' :: leads ss

/-- No text of a symbol can be gone on with by what can come behind it. -/
def apart : List Symbol → Bool
  | [] => true
  | s :: ss => (leads ss).all (·.stops s) && apart ss

theorem exists_lead {ss : List Symbol} {ps : List (List Char)}
    (h : List.Forall₂ Symbol.Spells ss ps) :
    ∀ c ∈ ps.flatten.head?, ∃ l ∈ leads ss, l.Covers c := by
  induction h with
  | nil => exact nofun
  | @cons s p ss ps hp _ ih =>
    intro c hc
    rw [List.flatten_cons] at hc
    rcases s with (w | _ | _) | n | _ | loc | _
    · obtain rfl : p = w := hp
      cases p with
      | nil => exact ih c hc
      | cons d p =>
        cases hc
        exact ⟨_, List.mem_cons_self, rfl⟩
    · cases p with
      | nil =>
        obtain ⟨l, hl, hcovers⟩ := ih c hc
        exact ⟨l, List.mem_cons_of_mem _ hl, hcovers⟩
      | cons d p =>
        cases hc
        exact ⟨_, List.mem_cons_self, hp _ List.mem_cons_self⟩
    · obtain ⟨d, p, rfl⟩ := List.exists_cons_of_ne_nil hp.1
      cases hc
      exact ⟨_, List.mem_cons_self, hp.2 _ List.mem_cons_self⟩
    · obtain ⟨rfl, hname⟩ := hp
      cases p with
      | nil => exact hname.elim
      | cons d p =>
        cases hc
        exact ⟨_, List.mem_cons_self, hname.1⟩
    · obtain ⟨q, rfl, hq⟩ := hp
      cases hc
      exact ⟨_, List.mem_cons_self, hq⟩
    · exact ⟨_, List.mem_cons_self, trivial⟩
    · rcases hp with rfl | ⟨W, rfl, hW⟩
      · obtain ⟨l, hl, hcovers⟩ := ih c hc
        exact ⟨l, List.mem_cons_of_mem _ (List.mem_cons_of_mem _ hl), hcovers⟩
      · cases W with
        | nil =>
          cases hc
          exact ⟨_, List.mem_cons_of_mem _ List.mem_cons_self, rfl⟩
        | cons d W =>
          cases hc
          exact ⟨_, List.mem_cons_self, hW _ List.mem_cons_self⟩

/-- Where symbols keep apart, all texts that spell them are as long as they can be. -/
theorem takes_of_spells {ss : List Symbol} {ps : List (List Char)} (hapart : apart ss = true)
    (h : List.Forall₂ Symbol.Spells ss ps) : Takes ss ps.flatten ps [] := by
  induction h with
  | nil => exact .nil []
  | @cons s p ss ps hp h ih =>
    obtain ⟨hleads, hrest⟩ := Bool.and_eq_true_iff.mp hapart
    refine .cons hp ?_ (ih hrest)
    intro c hc
    obtain ⟨l, hl, hcovers⟩ := exists_lead h c hc
    exact Lead.stops_sound (List.all_eq_true.mp hleads l hl) hcovers

end Entry

end ComponentHost
