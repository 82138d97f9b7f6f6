/-
# `ComponentHost.Proofs.Entry.Replacement` — relinking touches nothing but references

Three passes go over a text, and all but the first one read what the ones before have
written.  Still the result is the source with some of its own references replaced, as if
there had been one pass:

    source   …c c c│ r e f e r e n c e │c c c│ r e f │c…        c  a character that is kept
    result   …c c c│ from 'LOCATOR'    │c c c│ …     │c…

So cut the source into parts (`Part`), and a pass only ever makes more of the parts
replaced ones.  What has to be excluded is a reference that reaches into a replaced part,
or starts in one.  Two marks make a reference, the next one after the other; if one of
them is a mark of a replaced part, then

    the first is the opening one    the text before it opens a reference of another shape
    the first is the closing one    the text before it is a locator, which ends in no gap
    the second is the opening one   the text behind it is a locator, which holds no bracket

and if none is, what stands behind the second mark up to the closing bracket cannot go on
into the text that opens a replaced part, for there is no closing bracket in it.  The last
two reasons do not hold of static imports, which want nothing behind the name; but these
are relinked first, when no part has been replaced yet.
-/
import ComponentHost.Proofs.Entry.Layout
import ComponentHost.Proofs.Entry.Stretch
import ComponentHost.Proofs.Entry.Template

namespace ComponentHost.Entry

/-! ## References, and parts of a text -/

/-- The symbols that a reference to a quoted text is written in. -/
def Shape.symbols (s : Shape) (quote : List Char) : List Symbol :=
  s.before.map .piece ++ (quoted quote ++ s.after.map .piece)

/-- The text is a reference of the shape, with that name. -/
def Shape.Denotes (s : Shape) (text name : List Char) : Prop :=
  ∃ quote parts, List.Forall₂ Symbol.Spells (s.symbols quote) parts ∧ text = parts.flatten ∧
    name = plainName quote

/-- A part of a text, and what becomes of it. -/
inductive Part where
  /-- A character stays. -/
  | kept (c : Char)
  /-- A reference of the shape, to the name, gives way to one to the locator. -/
  | replaced (s : Shape) (text name locator : List Char)

namespace Part

/-- What stands there at first. -/
def source : Part → List Char
  | kept c => [c]
  | replaced _ text _ _ => text

/-- What stands there in the end. -/
def result : Part → List Char
  | kept c => [c]
  | replaced s _ _ locator => s.lead ++ locator ++ s.tail

/-- What is replaced is a reference of one of the shapes, by the locator of its name. -/
def Sound (ss : List Shape) (target : List Char → Option (List Char)) : Part → Prop
  | kept _ => True
  | replaced s text name locator => s ∈ ss ∧ s.Denotes text name ∧ target name = some locator

theorem Sound.mono {ss ss' : List Shape} {target : List Char → Option (List Char)}
    (hss : ss ⊆ ss') :
    ∀ {p : Part}, p.Sound ss target → p.Sound ss' target
  | kept _, _ => trivial
  | replaced _ _ _ _, ⟨hs, h⟩ => ⟨hss hs, h⟩

end Part

/-- The text that parts make at first. -/
def sourceOf (parts : List Part) : List Char := parts.flatMap Part.source

/-- The text that they make in the end. -/
def resultOf (parts : List Part) : List Char := parts.flatMap Part.result

/-- The characters of a text, all of them kept. -/
def keptAll (cs : List Char) : List Part := cs.map .kept

theorem sourceOf_append (ps ps' : List Part) : sourceOf (ps ++ ps') = sourceOf ps ++ sourceOf ps' :=
  List.flatMap_append

theorem resultOf_append (ps ps' : List Part) : resultOf (ps ++ ps') = resultOf ps ++ resultOf ps' :=
  List.flatMap_append

theorem sourceOf_keptAll (cs : List Char) : sourceOf (keptAll cs) = cs := by
  induction cs with
  | nil => rfl
  | cons c cs ih => exact congrArg (c :: ·) ih

theorem resultOf_keptAll (cs : List Char) : resultOf (keptAll cs) = cs := by
  induction cs with
  | nil => rfl
  | cons c cs ih => exact congrArg (c :: ·) ih

theorem exists_keptAll (parts : List Part) :
    ∃ X, parts = keptAll X ∨
      ∃ s text name locator rest, parts = keptAll X ++ .replaced s text name locator :: rest := by
  induction parts with
  | nil => exact ⟨[], .inl rfl⟩
  | cons p parts ih =>
    cases p with
    | kept c =>
      obtain ⟨X, rfl | ⟨s, text, name, locator, rest, rfl⟩⟩ := ih
      · exact ⟨c :: X, .inl rfl⟩
      · exact ⟨c :: X, .inr ⟨s, text, name, locator, rest, rfl⟩⟩
    | replaced s text name locator => exact ⟨[], .inr ⟨s, text, name, locator, parts, rfl⟩⟩

variable {s p : Shape} {target : List Char → Option (List Char)}

theorem spells_of_eat {ts : List Token} {cs : List Char} (h : eat ts cs = some []) :
    ∃ parts, List.Forall₂ Symbol.Spells (ts.map .piece) parts ∧ cs = parts.flatten := by
  obtain ⟨parts, htakes⟩ := eat_iff.mp h
  refine ⟨parts, htakes.spells, ?_⟩
  rw [← htakes.flatten_append, List.append_nil]

theorem Shape.denotes_of_eat {A L P : List Char} {q q' : Char} (hbefore : eat s.before A = some [])
    (hq : isQuote q = true) (hL : Quiet L) (hne : L ≠ []) (hq' : isQuote q' = true)
    (hafter : eat s.after P = some []) : s.Denotes (A ++ q :: (L ++ q' :: P)) (plainName L) := by
  obtain ⟨as, has, rfl⟩ := spells_of_eat hbefore
  obtain ⟨ps, hps, rfl⟩ := spells_of_eat hafter
  have hquoted : List.Forall₂ Symbol.Spells (quoted L) [[q], L, [q']] :=
    .cons ⟨q, rfl, hq⟩ (.cons ⟨rfl, hne, hL⟩ (.cons ⟨q', rfl, hq'⟩ .nil))
  exact ⟨L, as ++ ([[q], L, [q']] ++ ps), List.rel_append has (List.rel_append hquoted hps),
    by simp, rfl⟩

theorem Shape.Sound.exists_denotes (hs : s.Sound) {cs name rest : List Char}
    (h : s.read cs = some (name, rest)) : ∃ M, cs = M ++ rest ∧ M ≠ [] ∧ s.Denotes M name := by
  obtain ⟨A, q, L, q', C, rfl, -, hq, hL, hne, hq', hbefore, hafter, rfl⟩ := hs.read_eq_some h
  obtain ⟨P, rfl, -, htaken⟩ := hs.after_taken hafter
  exact ⟨A ++ q :: (L ++ q' :: P), by simp, by simp,
    denotes_of_eat hbefore hq hL hne hq' (by simpa using htaken [])⟩

/-! ## Replaced parts and references -/

/-- A bracket has to stand behind every name. -/
def Shape.Closed (s : Shape) : Prop :=
  ∀ {C rest}, eat s.after C = some rest → ∃ P, C = P ++ ')' :: rest

theorem Shape.Sound.replaced_eq (hp : p.Sound) (locator R : List Char) :
    p.lead ++ locator ++ p.tail ++ R =
      p.opening ++ '\'' :: (locator ++ '\'' :: (p.closing ++ R)) := by
  rw [hp.lead_eq, hp.tail_eq]
  simp

/-- Nothing is read from within a replaced part on. -/
theorem relink_replaced (hs : s.Bracketed) (hp : p.Bracketed) (hne : ∀ T, s.Opens T → ¬ p.Opens T)
    {locator : List Char} (hlocator : Solid locator) (R : List Char) :
    s.relink target (p.lead ++ locator ++ p.tail ++ R) =
      p.lead ++ locator ++ p.tail ++ s.relink target R := by
  have hmark : isQuote '\'' = true := by decide
  have hopening : ∀ A₁ A₂, p.opening = A₁ ++ A₂ → eat s.before A₂ ≠ some [] := by
    intro A₁ A₂ hA hbefore
    exact hne _ ⟨A₁, A₂, hA, hbefore⟩ (hp.opens_opening [])
  have hinside : ∀ A₁ A₂, locator = A₁ ++ A₂ → eat s.before A₂ ≠ some [] := by
    rintro A₁ A₂ rfl hbefore
    exact hlocator.not_openEnd ((hs.openEnd hbefore).prepend A₁)
  have hclosing : s.relink target (p.closing ++ R) = p.closing ++ s.relink target R := by
    refine Shape.relink_skip fun X₁ X₂ hX hnil => ?_
    have hshut : ')' ∈ X₂ := by
      rcases hp.closing_shut with hempty | ⟨P, hP⟩
      · exact absurd (List.append_eq_nil_iff.mp (hX.symm.trans hempty)).2 hnil
      · have hlast := congrArg List.getLast? (hX.symm.trans hP)
        rw [List.getLast?_append_of_ne_nil _ hnil, List.getLast?_concat] at hlast
        exact List.mem_of_getLast? hlast
    have hquiet : Quiet X₂ := (quiet_append.mp (hX ▸ hp.closing_quiet)).2
    rcases quiet_or_cut R with hR | ⟨B, q, C, rfl, hB, hq⟩
    · exact hs.read_of_quiet (quiet_append.mpr ⟨hquiet, hR⟩)
    · rw [← List.append_assoc, hs.read_cut (quiet_append.mpr ⟨hquiet, hB⟩) hq, if_neg]
      intro hbefore
      exact hs.before_open hbefore (List.mem_append_left _ hshut)
  rw [hp.replaced_eq, hp.replaced_eq, hs.relink_past_quote hp.opening_quiet hmark hopening,
    hs.relink_past_quote hlocator.quiet hmark hinside, hclosing]

/-- Where no bracket stands in front of a mark, a quiet text that ends with a bracket ends before
that. -/
theorem exists_shut_before {P X Y Z rest : List Char} {q : Char} (hP : Quiet P) (hY : ')' ∉ Y)
    (hq : isQuote q = true) (h : P ++ ')' :: rest = X ++ (Y ++ q :: Z)) :
    ∃ X', X = P ++ ')' :: X' ∧ rest = X' ++ (Y ++ q :: Z) := by
  have hne : q ≠ ')' := by
    rintro rfl
    cases hq
  -- a bracket in front of the rest is neither in `Y` nor the mark
  have hbefore : ∀ {P}, Quiet P → P ++ ')' :: rest ≠ Y ++ q :: Z := by
    intro P hP h
    rcases List.append_eq_append_iff.mp h with ⟨W, rfl, hW⟩ | ⟨W, rfl, hW⟩
    · cases W with
      | nil => exact hne (List.cons.inj hW).1.symm
      | cons c W =>
        obtain ⟨rfl, -⟩ := List.cons.inj hW
        exact hY (List.mem_append_right _ List.mem_cons_self)
    · cases W with
      | nil => exact hne (List.cons.inj hW).1
      | cons c W =>
        obtain ⟨rfl, -⟩ := List.cons.inj hW
        rw [(quiet_cons.mp (quiet_append.mp hP).2).1] at hq
        cases hq
  rcases List.append_eq_append_iff.mp h with ⟨W, rfl, hW⟩ | ⟨W, rfl, hW⟩
  · cases W with
    | nil => exact absurd hW (hbefore (P := []) quiet_nil)
    | cons c W =>
      obtain ⟨rfl, rfl⟩ := List.cons.inj hW
      exact ⟨W, rfl, rfl⟩
  · exact absurd hW.symm (hbefore (quiet_append.mp hP).2)

theorem exists_kept_of_read (hs : s.Bracketed) (hclosed : s.Closed) (hp : p.Bracketed)
    (hne : ∀ T, s.Opens T → ¬ p.Opens T) {locator : List Char} (hlocator : Solid locator)
    {X R name rest : List Char}
    (h : s.read (X ++ (p.lead ++ locator ++ p.tail ++ R)) = some (name, rest)) :
    ∃ M X', X = M ++ X' ∧ M ≠ [] ∧ s.Denotes M name ∧
      rest = X' ++ (p.lead ++ locator ++ p.tail ++ R) := by
  have hmark : isQuote '\'' = true := by decide
  obtain ⟨A, q, L, q', C, hcut, hA, hq, hL, hnil, hq', hbefore, hafter, rfl⟩ := hs.read_eq_some h
  obtain ⟨P, hC, hP, htaken⟩ := hs.after_taken hafter
  obtain ⟨P', rfl⟩ := hclosed hafter
  obtain rfl : P = P' ++ [')'] := List.append_cancel_right (hC.symm.trans (List.append_cons ..))
  have hP' : Quiet P' := (quiet_append.mp hP).1
  have hdenotes := Shape.denotes_of_eat hbefore hq hL hnil hq' (by simpa using htaken [])
  rw [hp.replaced_eq] at hcut ⊢
  -- where the two marks of the reference are, before the replaced part or in it
  rcases quiet_or_cut X with hX | ⟨X₁, q₁, X₂, rfl, hX₁, hq₁⟩
  · rw [← List.append_assoc] at hcut
    obtain ⟨rfl, -, -⟩ :=
      cut_unique (quiet_append.mpr ⟨hX, hp.opening_quiet⟩) hA hmark hq hcut
    exact absurd (hp.opens_opening X) (hne _ ⟨[], _, rfl, hbefore⟩)
  rw [List.append_assoc, List.cons_append] at hcut
  obtain ⟨rfl, rfl, hbehind⟩ := cut_unique hX₁ hA hq₁ hq hcut
  rcases quiet_or_cut X₂ with hX₂ | ⟨X₃, q₂, X₄, rfl, hX₃, hq₂⟩
  · rw [← List.append_assoc] at hbehind
    obtain ⟨-, -, hlocated⟩ :=
      cut_unique (quiet_append.mpr ⟨hX₂, hp.opening_quiet⟩) hL hmark hq' hbehind
    obtain ⟨X', hX', -⟩ := exists_shut_before (X := []) hP' hlocator.bracket_not_mem hmark
      hlocated.symm
    cases P' <;> cases hX'
  · rw [List.append_assoc, List.cons_append] at hbehind
    obtain ⟨rfl, rfl, hlocated⟩ := cut_unique hX₃ hL hq₂ hq' hbehind
    obtain ⟨X', rfl, rfl⟩ := exists_shut_before hP' (hp.before_open hp.opening_before) hmark
      hlocated.symm
    exact ⟨_, X', by simp, by simp, hdenotes, rfl⟩

/-! ## One pass -/

/-- What a pass relies on. -/
structure Passing (ss : List Shape) (s : Shape) : Prop where
  bracketed : s.Bracketed
  earlier : ∀ p ∈ ss, p.Bracketed
  apart : ∀ p ∈ ss, ∀ T, s.Opens T → ¬ p.Opens T
  closed : ss ≠ [] → s.Closed

/-- A reference that is read where parts start is one of the source: all of it is kept. -/
theorem Passing.exists_kept {ss : List Shape} (hs : Passing ss s)
    (htarget : ∀ {name locator}, target name = some locator → Solid locator) {parts : List Part}
    (hparts : ∀ x ∈ parts, x.Sound ss target) {name after : List Char}
    (h : s.read (resultOf parts) = some (name, after)) :
    ∃ M rest, parts = keptAll M ++ rest ∧ M ≠ [] ∧ s.Denotes M name ∧ after = resultOf rest := by
  obtain ⟨X, rfl | ⟨p, text, name', locator, rest, rfl⟩⟩ := exists_keptAll parts
  · rw [resultOf_keptAll] at h
    obtain ⟨M, rfl, hM, hdenotes⟩ := hs.bracketed.exists_denotes h
    refine ⟨M, keptAll after, List.map_append, hM, hdenotes, ?_⟩
    rw [resultOf_keptAll]
  · obtain ⟨hp, -, hlocator⟩ := hparts _ (List.mem_append_right _ List.mem_cons_self)
    rw [resultOf_append, resultOf_keptAll] at h
    obtain ⟨M, X', rfl, hM, hdenotes, rfl⟩ := exists_kept_of_read hs.bracketed
      (hs.closed (List.ne_nil_of_mem hp)) (hs.earlier p hp) (hs.apart p hp) (htarget hlocator) h
    refine ⟨M, keptAll X' ++ .replaced p text name' locator :: rest, ?_, hM, hdenotes, ?_⟩
    · rw [keptAll, List.map_append, List.append_assoc]
      rfl
    · rw [resultOf_append, resultOf_keptAll]
      rfl

theorem Passing.exists_parts {ss : List Shape} (hs : Passing ss s)
    (htarget : ∀ {name locator}, target name = some locator → Solid locator) (parts : List Part)
    (hparts : ∀ x ∈ parts, x.Sound ss target) :
    ∃ parts', sourceOf parts' = sourceOf parts ∧
      s.relink target (resultOf parts) = resultOf parts' ∧
        ∀ x ∈ parts', x.Sound (s :: ss) target := by
  induction hn : parts.length using Nat.strongRecOn generalizing parts with
  | _ n ih =>
    subst hn
    cases hread : s.read (resultOf parts) with
    | some x =>
      obtain ⟨name, after⟩ := x
      obtain ⟨M, rest, rfl, hM, hdenotes, rfl⟩ := hs.exists_kept htarget hparts hread
      have hlength : rest.length < (keptAll M ++ rest).length := by
        rw [List.length_append, keptAll, List.length_map]
        have := List.length_pos_iff.mpr hM
        omega
      obtain ⟨rest', hsource, hresult, hsound⟩ :=
        ih _ hlength rest (fun x hx => hparts x (List.mem_append_right _ hx)) rfl
      rw [resultOf_append, resultOf_keptAll] at hread ⊢
      rw [Shape.relink_of_some hM hread, hresult]
      cases hlocator : target name with
      | some locator =>
        refine ⟨.replaced s M name locator :: rest', ?_, rfl, ?_⟩
        · rw [sourceOf_append, sourceOf_keptAll, ← hsource]
          rfl
        · exact List.forall_mem_cons.mpr ⟨⟨List.mem_cons_self, hdenotes, hlocator⟩, hsound⟩
      | none =>
        refine ⟨keptAll M ++ rest', ?_, ?_, ?_⟩
        · rw [sourceOf_append, sourceOf_append, hsource]
        · rw [resultOf_append, resultOf_keptAll]
          rfl
        · refine List.forall_mem_append.mpr ⟨?_, hsound⟩
          intro x hx
          obtain ⟨c, -, rfl⟩ := List.mem_map.mp hx
          trivial
    | none =>
      cases parts with
      | nil => exact ⟨[], rfl, rfl, nofun⟩
      | cons x parts =>
        obtain ⟨hx, hrest⟩ := List.forall_mem_cons.mp hparts
        obtain ⟨parts', hsource, hresult, hsound⟩ := ih _ (Nat.lt_succ_self _) parts hrest rfl
        refine ⟨x :: parts', congrArg (x.source ++ ·) hsource, ?_, List.forall_mem_cons.mpr
          ⟨hx.mono (List.subset_cons_self _ _), hsound⟩⟩
        show s.relink target (x.result ++ resultOf parts) = x.result ++ resultOf parts'
        rw [← hresult]
        cases x with
        | kept c => exact Shape.relink_of_none hread
        | replaced p text name locator =>
          obtain ⟨hp, -, hlocator⟩ := hx
          exact relink_replaced hs.bracketed (hs.earlier p hp) (hs.apart p hp) (htarget hlocator) _

/-! ## All passes -/

theorem passing_static : Passing [] .static where
  bracketed := Shape.static_bracketed
  earlier := nofun
  apart := nofun
  closed h := absurd rfl h

theorem passing_of_closed {ss : List Shape} (hs : s ∈ Shape.all) (hss : ss ⊆ Shape.all)
    (hnew : s.lead ∉ ss.map Shape.lead) (hclosed : s.Closed) : Passing ss s where
  bracketed := Shape.bracketed_of_mem hs
  earlier _ hp := Shape.bracketed_of_mem (hss hp)
  apart p hp T hopens hopens' := by
    obtain rfl := Shape.eq_of_opens hs (hss hp) hopens hopens'
    exact hnew (List.mem_map_of_mem hp)
  closed _ := hclosed

theorem passing_deferred : Passing [.static] .deferred :=
  passing_of_closed (by simp [Shape.all]) (by simp [Shape.all]) (by decide)
    (Shape.exists_bracket_of_eat [.space] (by decide))

theorem passing_relative : Passing [.deferred, .static] .relative :=
  passing_of_closed (by simp [Shape.all]) (by simp [Shape.all]) (by decide)
    (Shape.exists_bracket_of_eat [.space, kw ",", .space, kw "import.meta.url", .space] (by decide))

theorem exists_relinkText_parts
    (htarget : ∀ {name locator}, target name = some locator → Solid locator) (cs : List Char) :
    ∃ parts, sourceOf parts = cs ∧ relinkText target cs = resultOf parts ∧
      ∀ x ∈ parts, x.Sound Shape.all target := by
  have hfirst : ∀ x ∈ keptAll cs, x.Sound [] target := by
    intro x hx
    obtain ⟨c, -, rfl⟩ := List.mem_map.mp hx
    trivial
  obtain ⟨ps₁, hsource₁, hresult₁, hsound₁⟩ := passing_static.exists_parts htarget _ hfirst
  obtain ⟨ps₂, hsource₂, hresult₂, hsound₂⟩ := passing_deferred.exists_parts htarget ps₁ hsound₁
  obtain ⟨ps₃, hsource₃, hresult₃, hsound₃⟩ := passing_relative.exists_parts htarget ps₂ hsound₂
  refine ⟨ps₃, ?_, ?_, ?_⟩
  · rw [hsource₃, hsource₂, hsource₁, sourceOf_keptAll]
  · rw [relinkText, ← hresult₃, ← hresult₂, ← hresult₁, resultOf_keptAll]
  · exact fun x hx => (hsound₃ x hx).mono (by simp [Shape.all])

/-- Texts have targets as strings do. -/
def charTarget (target : String → Option String) (name : List Char) : Option (List Char) :=
  (target (String.ofList name)).map String.toList

/-- **Relinking replaces references of the source, and nothing else.**  Take any names, and locators
in the form of those of handles.  The result of relinking a source is got by cutting the source into
parts.  Each part is a character, which stays; or it is a reference of one of the shapes to a name
that has a locator, and the text that is written for the shape and the locator stands in its place.
So a source that holds no reference to a name with a locator stays as it is. -/
theorem relink_parts (target : String → Option String)
    (hlocator : ∀ {name locator}, target name = some locator → Handle.IsLocatorText locator)
    (source : String) :
    (∃ parts : List Part, sourceOf parts = source.toList ∧
      resultOf parts = (relink target source).toList ∧
        ∀ x ∈ parts, x.Sound Shape.all (charTarget target)) ∧
      ((∀ s ∈ Shape.all, ∀ before text after name, source.toList = before ++ (text ++ after) →
        s.Denotes text name → target (String.ofList name) = none) →
        relink target source = source) := by
  have htarget : ∀ {name locator}, charTarget target name = some locator → Solid locator := by
    intro name locator h
    obtain ⟨text, htext, rfl⟩ := Option.map_eq_some_iff.mp h
    exact solid_of_isLocatorText (hlocator htext)
  obtain ⟨parts, hsource, hresult, hsound⟩ := exists_relinkText_parts htarget source.toList
  have htext : (relink target source).toList = resultOf parts := by
    rw [← hresult, relink, String.toList_ofList]
    rfl
  refine ⟨⟨parts, hsource, htext.symm, hsound⟩, ?_⟩
  intro hnone
  have hkept : ∀ x ∈ parts, x.result = x.source := by
    intro x hx
    cases x with
    | kept c => rfl
    | replaced s text name locator =>
      obtain ⟨hs, hdenotes, hname⟩ := hsound _ hx
      obtain ⟨ps, ps', rfl⟩ := List.append_of_mem hx
      have hcut : source.toList = sourceOf ps ++ (text ++ sourceOf ps') := by
        rw [← hsource, sourceOf_append]
        rfl
      have hlocated : (target (String.ofList name)).map String.toList = some locator := hname
      rw [hnone s hs _ _ _ _ hcut hdenotes] at hlocated
      cases hlocated
  refine String.toList_injective ?_
  rw [htext, ← hsource, resultOf, sourceOf]
  exact List.flatMap_congr hkept

def pairTarget (name : String) : Option String :=
  if name = "a.wasm" then some (Handle.mk 0).locator
  else if name = "b.wasm" then some (Handle.mk 1).locator
  else none

/-- A reference that would reach into another one, and one between marks of two kinds. -/
def straddledSource : String :=
  "import('from './a.wasm') new URL( \"b.wasm', import.meta.url )"

/-- The first one is not read, neither before nor after the one in it is replaced. -/
theorem relink_parts_straddled :
    (∀ {name locator}, pairTarget name = some locator → Handle.IsLocatorText locator) ∧
      relink pairTarget straddledSource = "import('from '" ++ (Handle.mk 0).locator ++
        "') new URL('" ++ (Handle.mk 1).locator ++ "')" ∧
      ∃ parts : List Part, sourceOf parts = straddledSource.toList ∧
        resultOf parts = (relink pairTarget straddledSource).toList ∧
          ∀ x ∈ parts, x.Sound Shape.all (charTarget pairTarget) := by
  have hlocator : ∀ {name locator}, pairTarget name = some locator →
      Handle.IsLocatorText locator := by
    intro name locator h
    rw [pairTarget] at h
    split at h
    · cases h
      exact Handle.isLocatorText_locator _
    · split at h
      · cases h
        exact Handle.isLocatorText_locator _
      · cases h
  exact ⟨hlocator, by decide +kernel, (relink_parts pairTarget hlocator straddledSource).1⟩

end ComponentHost.Entry
