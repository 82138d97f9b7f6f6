/-
# `ComponentHost.Proofs.Entry.Remainder` — references that relinking leaves behind

A pass finds references from left to right and goes on behind each, so of two references
in a row it does not find the second one if it has found the first:

    // taken from 'core, import a from './a.wasm';
              from 'core, import a from '               is found
                                   from './a.wasm'      is passed by

If the name of the first one has a locator, the second one is gone with it.  If it has
none, the second one stays as it is, and its name may well have a locator.  A pass makes
no other references, except that it writes what stands before a locator, which may be
the end of a name.  So these are all the references that can be left
(`relink_remainder`).
-/
import ComponentHost.Proofs.Entry.Stretch
import ComponentHost.Proofs.Entry.Template

namespace ComponentHost.Entry

/-! ## One pass over stretches -/

variable {target : List Char → Option (List Char)} {s p : Shape}

/-- What a pass over the references of a shape makes of the stretches of a text. -/
inductive Passed (s : Shape) (target : List Char → Option (List Char)) :
    List (List Char) → List (List Char) → Prop
  | last (T : List Char) : Passed s target [T] [T]
  /-- No reference starts in the stretch. -/
  | plain (T : List Char) {U U' : List Char} {S S' : List (List Char)}
      (hnone : ∀ L, ¬ s.Refers (T :: U :: S) L) (h : Passed s target (U :: S) (U' :: S')) :
      Passed s target (T :: U :: S) (T :: U' :: S')
  /-- A reference to a name without a locator. -/
  | kept {T L P R R' : List Char} {S S' : List (List Char)} (hopens : s.Opens T) (hL : L ≠ [])
      (hafter : eat s.after (P ++ R) = some R) (hname : target (plainName L) = none)
      (h : Passed s target (R :: S) (R' :: S')) :
      Passed s target (T :: L :: (P ++ R) :: S) (T :: L :: (P ++ R') :: S')
  /-- A reference to a name with a locator. -/
  | linked {X A L locator P R R' : List Char} {S S' : List (List Char)}
      (hbefore : eat s.before A = some []) (hL : L ≠ [])
      (hafter : eat s.after (P ++ R) = some R) (hname : target (plainName L) = some locator)
      (h : Passed s target (R :: S) (R' :: S')) :
      Passed s target ((X ++ A) :: L :: (P ++ R) :: S)
        ((X ++ s.opening) :: locator :: (s.closing ++ R') :: S')

/-- What relinking relies on: all locators have the form of a handle's, and none is a name. -/
structure Located (target : List Char → Option (List Char)) : Prop where
  locator : ∀ {name locator}, target name = some locator →
    Handle.IsLocatorText (String.ofList locator)
  unnamed : ∀ {name locator}, target name = some locator → target locator = none

theorem Located.solid (ht : Located target) {name locator : List Char}
    (h : target name = some locator) : Solid locator := by
  have hsolid := solid_of_isLocatorText (ht.locator h)
  rwa [String.toList_ofList] at hsolid

theorem Located.not_opens (ht : Located target) (hs : s.Sound) {name locator : List Char}
    (h : target name = some locator) : ¬ s.Opens locator := by
  have hclosed := (ht.solid h).not_openEnd
  exact fun hopens => hclosed (hs.openEnd_of_opens hopens)

theorem Located.ne_locator (ht : Located target) {L : List Char}
    (hL : target (plainName L) ≠ none) (name : List Char) : target name ≠ some L := by
  intro h
  have hplain := plainName_of_isLocatorText (ht.locator h)
  rw [String.toList_ofList] at hplain
  rw [hplain, ht.unnamed h] at hL
  exact hL rfl

/-- A pass goes over a reference, and on in what is left of the stretch behind it. -/
theorem Shape.Bracketed.passed_reference (hs : s.Bracketed) (ht : Located target)
    {X A L C rest : List Char} {q q' : Char} (hX : Quiet X) (hA : Quiet A) (hq : isQuote q = true)
    (hL : Quiet L) (hne : L ≠ []) (hq' : isQuote q' = true) (hbefore : eat s.before A = some [])
    (hafter : eat s.after C = some rest)
    (h : Passed s target (stretches rest) (stretches (s.relink target rest))) :
    Passed s target (stretches (X ++ A ++ q :: (L ++ q' :: C)))
      (stretches (s.relink target (X ++ A ++ q :: (L ++ q' :: C)))) := by
  obtain ⟨P, rfl, hP, htaken⟩ := hs.after_taken hafter
  obtain ⟨R, S, hR⟩ := exists_stretch rest
  obtain ⟨R', S', hR'⟩ := exists_stretch (s.relink target rest)
  rw [hR, hR'] at h
  have hT : Quiet (X ++ A) := quiet_append.mpr ⟨hX, hA⟩
  have hread := hs.read_reference hA hq hL hne hq' hbefore hafter
  have hsplit : A ++ q :: (L ++ q' :: (P ++ rest)) = (A ++ q :: (L ++ q' :: P)) ++ rest := by simp
  have hrelink : s.relink target (X ++ A ++ q :: (L ++ q' :: (P ++ rest))) =
      X ++ (((target (plainName L)).map fun locator => s.lead ++ locator ++ s.tail).getD
        (A ++ q :: (L ++ q' :: P)) ++ s.relink target rest) := by
    rw [List.append_assoc, hs.relink_up_to hX hA hq hbefore, hsplit,
      Shape.relink_of_some (by simp) (hsplit ▸ hread)]
  rw [hrelink, stretches_cut hT hq, stretches_cut hL hq', stretches_prepend hP hR]
  cases hname : target (plainName L) with
  | none =>
    have htext : X ++ (A ++ q :: (L ++ q' :: P) ++ s.relink target rest) =
        X ++ A ++ q :: (L ++ q' :: (P ++ s.relink target rest)) := by simp
    rw [Option.map_none, Option.getD_none, htext, stretches_cut hT hq, stretches_cut hL hq',
      stretches_prepend hP hR']
    exact .kept ⟨X, A, rfl, hbefore⟩ hne (htaken R) hname h
  | some locator =>
    have hmark : isQuote '\'' = true := by decide
    have htext : X ++ (s.lead ++ locator ++ s.tail ++ s.relink target rest) =
        X ++ s.opening ++ '\'' :: (locator ++ '\'' :: (s.closing ++ s.relink target rest)) := by
      rw [hs.lead_eq, hs.tail_eq]
      simp
    rw [Option.map_some, Option.getD_some, htext,
      stretches_cut (quiet_append.mpr ⟨hX, hs.opening_quiet⟩) hmark,
      stretches_cut (ht.solid hname).quiet hmark, stretches_prepend hs.closing_quiet hR']
    exact .linked hbefore hne (htaken R) hname h

/-- A pass goes over a stretch that no reference starts in. -/
theorem Shape.Bracketed.passed_plain (hs : s.Bracketed) {T B : List Char} {q : Char} (hT : Quiet T)
    (hq : isQuote q = true) (hnone : ∀ X A, T = X ++ A → s.read (A ++ q :: B) = none)
    (h : Passed s target (stretches B) (stretches (s.relink target B))) :
    Passed s target (stretches (T ++ q :: B)) (stretches (s.relink target (T ++ q :: B))) := by
  have hrelink : s.relink target (T ++ q :: B) = T ++ q :: s.relink target B := by
    rw [Shape.relink_skip fun X A hXA _ => hnone X A hXA, Shape.relink_of_none (hs.read_quote hq B)]
  obtain ⟨U, S, hU⟩ := exists_stretch B
  obtain ⟨U', S', hU'⟩ := exists_stretch (s.relink target B)
  rw [hrelink, stretches_cut hT hq, stretches_cut hT hq, hU, hU']
  rw [hU, hU'] at h
  refine .plain T ?_ h
  intro L hrefers
  cases hrefers with
  | @mk _ _ V S hopens hne hcloses =>
    obtain ⟨q', C, hL, hq', rfl, hC⟩ := cut_of_stretches hU
    obtain ⟨rest, hrest, -⟩ := hs.after_of_closes hC hcloses
    obtain ⟨X, A, rfl, hA⟩ := hopens
    have hread := hs.read_reference (quiet_append.mp hT).2 hq hL hne hq' hA hrest
    rw [hnone X A rfl] at hread
    cases hread

theorem Shape.Bracketed.passed (hs : s.Bracketed) (ht : Located target) (cs : List Char) :
    Passed s target (stretches cs) (stretches (s.relink target cs)) := by
  induction hn : cs.length using Nat.strongRecOn generalizing cs with
  | _ n ih =>
    subst hn
    rcases quiet_or_cut cs with hcs | ⟨T, q, B, rfl, hT, hq⟩
    · rw [hs.relink_of_quiet hcs, stretches_of_quiet hcs]
      exact .last cs
    by_cases hnone : ∀ X A, T = X ++ A → s.read (A ++ q :: B) = none
    · exact hs.passed_plain hT hq hnone (ih _ (by simp; omega) B rfl)
    · push Not at hnone
      obtain ⟨X, A, rfl, hread⟩ := hnone
      obtain ⟨⟨name, rest⟩, hread⟩ := Option.ne_none_iff_exists'.mp hread
      obtain ⟨A', q₁, L, q₂, C, hcut, hA', hq₁, hL, hne, hq₂, hbefore, hafter, -⟩ :=
        hs.read_eq_some hread
      obtain ⟨hX, hA⟩ := quiet_append.mp hT
      obtain ⟨rfl, rfl, rfl⟩ := cut_unique hA hA' hq hq₁ hcut
      obtain ⟨P, rfl, -, -⟩ := hs.after_taken hafter
      exact hs.passed_reference ht hX hA hq hL hne hq₂ hbefore hafter
        (ih _ (by simp; omega) rest rfl)

namespace Passed

variable {S S' : List (List Char)} {T T' U' L : List Char} {i : Nat}

/-- The first stretch stays, or it ends with what is written before a locator. -/
theorem head (h : Passed p target (T :: S) (T' :: S')) :
    T' = T ∨ ∃ X A, T = X ++ A ∧ T' = X ++ p.opening := by
  cases h with
  | last => exact .inl rfl
  | plain => exact .inl rfl
  | kept => exact .inl rfl
  | @linked X A => exact .inr ⟨X, A, rfl, rfl⟩

/-- So does the second one, if the first does not end so. -/
theorem second (h : Passed p target (T :: S) (T' :: U' :: S')) (hT : ¬ p.opening <:+ T') :
    ∃ U S₀, S = U :: S₀ ∧ (U' = U ∨ ∃ X A, U = X ++ A ∧ U' = X ++ p.opening) := by
  cases h with
  | @plain _ U _ S _ _ h => exact ⟨U, S, rfl, h.head⟩
  | kept => exact ⟨_, _, rfl, .inl rfl⟩
  | linked => exact absurd (List.suffix_append _ _) hT

theorem head_eq (h : Passed p target (T :: S) (T' :: S')) (hT : ¬ p.opening <:+ T') : T' = T := by
  rcases h.head with heq | ⟨X, A, -, rfl⟩
  · exact heq
  · exact absurd (List.suffix_append _ _) hT

/-- What stands after a name stood there before the pass. -/
theorem closes (hs : s.Bracketed) (hp : p.Bracketed) {P : List Char}
    (h : T' = T ∨ ∃ X A, T = X ++ A ∧ T' = X ++ p.opening) (hcloses : s.Closes (P ++ T')) :
    s.Closes (P ++ T) := by
  rcases h with rfl | ⟨X, A, rfl, rfl⟩
  · exact hcloses
  · rw [← List.append_assoc] at hcloses ⊢
    exact hs.closes_of_opening hp hcloses A

/-- The pass has written no reference, unless it is to a locator, or to a name that ends with what
is written before one. -/
theorem refers_of_refers (hs : s.Bracketed) (hp : p.Bracketed) (ht : Located target)
    (h : Passed p target S S') (href : s.Refers (S'.drop i) L) (hL : ¬ p.opening <:+ L)
    (hne : ∀ name, target name ≠ some L) : s.Refers (S.drop i) L := by
  induction h generalizing i with
  | last => exact href
  | plain T hnone h ih =>
    cases i with
    | zero =>
      cases href with
      | mk hopens hquoted hcloses =>
        obtain rfl := h.head_eq hL
        obtain ⟨V, S, rfl, hV⟩ := h.second hL
        exact .mk hopens hquoted (closes hs hp (P := []) hV hcloses)
    | succ i => exact ih href
  | @kept T N P R R' S S' hopens hN hafter hname h ih =>
    have hshut := hp.shut_of_after hafter
    match i with
    | 0 =>
      cases href with
      | mk hopens hquoted hcloses => exact .mk hopens hquoted (closes hs hp h.head hcloses)
    | 1 =>
      cases href with
      | mk hopens hquoted hcloses =>
        have hR' : ¬ p.opening <:+ R' := fun hsuffix => hL (hsuffix.trans (List.suffix_append _ _))
        obtain rfl := h.head_eq hR'
        obtain ⟨V, S, rfl, hV⟩ := h.second hR'
        exact .mk hopens hquoted (closes hs hp (P := []) hV hcloses)
    | i + 2 => exact (ih (hs.refers_of_prepend hshut href)).prepend P
  | @linked X A N locator P R R' S S' hbefore hN hafter hname h ih =>
    match i with
    | 0 =>
      cases href with
      | mk _ _ _ => exact absurd hname (hne _)
    | 1 =>
      cases href with
      | mk hopens _ _ => exact absurd hopens (ht.not_opens hs.toSound hname)
    | i + 2 => exact (ih (hs.refers_of_prepend hp.closing_shut href)).prepend P

/-- A reference that a pass of its shape leaves, with a name that has a locator, comes behind one to
a name without. -/
theorem exists_refers_before (hs : s.Bracketed) (ht : Located target) (h : Passed s target S S')
    (href : s.Refers (S.drop i) L) (href' : s.Refers (S'.drop i) L)
    (hL : target (plainName L) ≠ none) :
    ∃ j N, i = j + 1 ∧ s.Refers (S.drop j) N ∧ target (plainName N) = none := by
  induction h generalizing i with
  | last =>
    cases i with
    | zero => cases href
    | succ i =>
      rw [List.drop_succ_cons, List.drop_nil] at href
      cases href
  | plain T hnone h ih =>
    cases i with
    | zero => exact absurd href (hnone L)
    | succ i =>
      obtain ⟨j, N, rfl, hN, hname⟩ := ih href href'
      exact ⟨j + 1, N, rfl, hN, hname⟩
  | @kept T N P R R' S S' hopens hN hafter hname h ih =>
    have hshut := hs.shut_of_after hafter
    match i with
    | 0 =>
      cases href with
      | mk _ _ _ => exact absurd hname hL
    | 1 => exact ⟨0, N, rfl, .mk hopens hN ⟨R, hafter⟩, hname⟩
    | i + 2 =>
      obtain ⟨j, N, rfl, hN, hname⟩ :=
        ih (hs.refers_of_prepend hshut href) (hs.refers_of_prepend hshut href')
      exact ⟨j + 2, N, rfl, hN.prepend P, hname⟩
  | @linked X A N locator P R R' S S' hbefore hN hafter hname h ih =>
    have hshut := hs.shut_of_after hafter
    match i with
    | 0 =>
      cases href' with
      | mk _ _ _ => exact absurd hname (ht.ne_locator hL _)
    | 1 =>
      cases href' with
      | mk hopens _ _ => exact absurd hopens (ht.not_opens hs.toSound hname)
    | i + 2 =>
      obtain ⟨j, N, rfl, hN, hname⟩ :=
        ih (hs.refers_of_prepend hshut href) (hs.refers_of_prepend hs.closing_shut href')
      exact ⟨j + 2, N, rfl, hN.prepend P, hname⟩

end Passed

/-! ## All passes -/

/-- Two references in a row, the second of them to the name and the first to one without a
locator. -/
structure PassedBy (s : Shape) (target : List Char → Option (List Char)) (S : List (List Char))
    (i : Nat) (L : List Char) : Prop where
  refers : s.Refers (S.drop i) L
  before : ∃ j N, i = j + 1 ∧ s.Refers (S.drop j) N ∧ target (plainName N) = none

section Passes

variable {cs L : List Char} {i : Nat} {ps : List Shape}

theorem refers_of_relinked (ht : Located target) (hs : s.Bracketed) (hps : ps ⊆ Shape.all)
    (hopening : ∀ p ∈ Shape.all, ¬ p.opening <:+ L) (hL : target (plainName L) ≠ none)
    (href : s.Refers ((stretches (ps.foldl (fun cs p => p.relink target cs) cs)).drop i) L) :
    s.Refers ((stretches cs).drop i) L := by
  induction ps generalizing cs with
  | nil => exact href
  | cons p ps ih =>
    obtain ⟨hmem, hps⟩ := List.cons_subset.mp hps
    have hp := Shape.bracketed_of_mem hmem
    exact (hp.passed ht cs).refers_of_refers hs hp ht (ih hps href) (hopening p hmem)
      (ht.ne_locator hL)

/-- A reference that passes of all shapes leave was passed by from the start. -/
theorem passedBy_of_relinked (ht : Located target) (hps : ps ⊆ Shape.all) (hmem : s ∈ ps)
    (hopening : ∀ p ∈ Shape.all, ¬ p.opening <:+ L) (hL : target (plainName L) ≠ none)
    (href : s.Refers ((stretches (ps.foldl (fun cs p => p.relink target cs) cs)).drop i) L) :
    PassedBy s target (stretches cs) i L := by
  induction ps generalizing cs with
  | nil => cases hmem
  | cons p ps ih =>
    have hall := hps hmem
    have hs := Shape.bracketed_of_mem hall
    obtain ⟨hp, hrest⟩ := List.cons_subset.mp hps
    have hpass := (Shape.bracketed_of_mem hp).passed ht cs
    rw [List.foldl_cons] at href
    by_cases heq : s = p
    · subst heq
      have hafter := refers_of_relinked ht hs hrest hopening hL href
      have hbefore := hpass.refers_of_refers hs hs ht hafter (hopening s hp) (ht.ne_locator hL)
      exact ⟨hbefore, hpass.exists_refers_before hs ht hbefore hafter hL⟩
    · -- a pass of another shape takes neither of the two away
      obtain ⟨hafter, j, N, rfl, hN, hname⟩ :=
        ih hrest ((List.mem_cons.mp hmem).resolve_left heq) href
      have hopens := hN.opens_next hafter
      have hN' : ¬ p.opening <:+ N := by
        rintro ⟨Y, rfl⟩
        have hopens' := (Shape.bracketed_of_mem hp).opens_opening Y
        exact heq (Shape.eq_of_opens hall hp hopens hopens')
      refine ⟨?_, j, N, rfl, ?_, hname⟩
      · exact hpass.refers_of_refers hs (Shape.bracketed_of_mem hp) ht hafter (hopening p hp)
          (ht.ne_locator hL)
      · exact hpass.refers_of_refers hs (Shape.bracketed_of_mem hp) ht hN hN' fun name hlocator =>
          ht.not_opens hs.toSound hlocator hopens

end Passes

theorem suffix_plainName (hp : p ∈ Shape.all) {L : List Char} (h : p.opening <:+ L) :
    p.opening <:+ plainName L := by
  have hhead : ∀ p ∈ Shape.all, p.opening.head? ≠ some '.' ∧ p.opening.head? ≠ some '/' := by decide
  obtain ⟨hdot, hslash⟩ := hhead p hp
  unfold plainName
  split
  · rcases List.suffix_cons_iff.mp h with heq | h
    · rw [heq] at hdot
      exact absurd rfl hdot
    · rcases List.suffix_cons_iff.mp h with heq | h
      · rw [heq] at hslash
        exact absurd rfl hslash
      · exact h
  · exact h

/-- **What relinking leaves behind.**  Relink any source to locators that are no names of files
themselves.  If a reference is read in the result to a name that has a locator, then the name
ends with what is written before one; or the same reference stands in the source, behind as many
quotation marks, and a reference of its shape to a name without a locator goes on into it. -/
theorem relink_remainder (target : String → Option String)
    (hlocator : ∀ {name locator}, target name = some locator → Handle.IsLocatorText locator)
    (hunnamed : ∀ {name locator}, target name = some locator → target locator = none)
    (source : String) {s : Shape} (hs : s ∈ Shape.all) {X T name rest : List Char}
    (hresult : (relink target source).toList = X ++ T) (hread : s.read T = some (name, rest))
    (htarget : target (String.ofList name) ≠ none) :
    (∃ p ∈ Shape.all, p.opening <:+ name) ∨
      ∃ Y V T' name' rest' rest'', source.toList = Y ++ V ++ T' ∧
        (Y ++ V).countP isQuote = X.countP isQuote ∧ V ≠ [] ∧ s.read T' = some (name, rest') ∧
          s.read (V ++ T') = some (name', rest'') ∧ target (String.ofList name') = none ∧
            rest''.length < T'.length := by
  by_cases hopening : ∃ p ∈ Shape.all, p.opening <:+ name
  · exact .inl hopening
  refine .inr ?_
  push Not at hopening
  have ht : Located fun name => (target (String.ofList name)).map String.toList := by
    constructor
    · intro name locator h
      obtain ⟨text, htext, rfl⟩ := Option.map_eq_some_iff.mp h
      rw [String.ofList_toList]
      exact hlocator htext
    · intro name locator h
      obtain ⟨text, htext, rfl⟩ := Option.map_eq_some_iff.mp h
      rw [String.ofList_toList, hunnamed htext]
      rfl
  have hbracketed := Shape.bracketed_of_mem hs
  obtain ⟨L, rfl, href⟩ := hbracketed.exists_refers hread X
  rw [← hresult, relink, String.toList_ofList, Shape.relinkText_eq_foldl] at href
  obtain ⟨hrefers, j, N, hj, hN, hname⟩ := passedBy_of_relinked ht (List.Subset.refl _) hs
    (fun p hp h => hopening p hp (suffix_plainName hp h)) (by simpa using htarget) href
  rw [hj] at hrefers ⊢
  obtain ⟨Y, V, T', rest', rest'', hsource, hcount, hV, hread', hread'', hlen⟩ :=
    hbracketed.exists_reads hN hrefers
  refine ⟨Y, V, T', plainName N, rest', rest'', hsource, hcount, hV, hread', hread'', ?_, hlen⟩
  simpa using hname

def loneTarget (name : String) : Option String :=
  if name = "a.wasm" then some (Handle.mk 0).locator else none

/-- A comment that ends with an apostrophe and a word, and a reference behind it. -/
def quotedComment : String :=
  "// taken from 'core\nimport a from './a.wasm';\n"

/-- The comment takes the search past the reference. -/
theorem relink_remainder_quotedComment : relink loneTarget quotedComment = quotedComment ∧
    ∃ Y V T' name' rest' rest'', quotedComment.toList = Y ++ V ++ T' ∧
      Shape.static.read T' = some ("a.wasm".toList, rest') ∧
        Shape.static.read (V ++ T') = some (name', rest'') ∧
          loneTarget (String.ofList name') = none ∧ rest''.length < T'.length := by
  have hsame : relink loneTarget quotedComment = quotedComment := by decide +kernel
  refine ⟨hsame, ?_⟩
  have hresult : (relink loneTarget quotedComment).toList =
      "// taken from 'core\nimport a ".toList ++ "from './a.wasm';\n".toList := by
    rw [hsame]
    decide +kernel
  have hlocator : ∀ {name locator}, loneTarget name = some locator →
      locator = (Handle.mk 0).locator := by
    intro name locator h
    rw [loneTarget] at h
    split at h
    · exact (Option.some.inj h).symm
    · cases h
  have hunnamed : loneTarget (Handle.mk 0).locator = none := by decide +kernel
  have hread : Shape.static.read "from './a.wasm';\n".toList =
      some ("a.wasm".toList, ";\n".toList) := by decide +kernel
  have hopening : ∀ p ∈ Shape.all, ¬ p.opening <:+ "a.wasm".toList := by decide +kernel
  rcases relink_remainder loneTarget (fun h => hlocator h ▸ (Handle.mk 0).isLocatorText_locator)
    (fun h => by rw [hlocator h, hunnamed]) quotedComment List.mem_cons_self hresult hread
    (by decide +kernel) with
    ⟨p, hp, hsuffix⟩ | ⟨Y, V, T', name', rest', rest'', hsource, -, -, hread, hread', hname, hlen⟩
  · exact absurd hsuffix (hopening p hp)
  · exact ⟨Y, V, T', name', rest', rest'', hsource, hread, hread', hname, hlen⟩

end ComponentHost.Entry
