/-
# `ComponentHost.Proofs.Text.Blank` — what trimming and splitting leave

Trimming at the start takes a run of white space off; what is left is *tight*, which
means that it does not start with white space.  Trimming at the end, and splitting at a
mark, are described from the front of the text, the way everything else reads it.
-/
import ComponentHost.Text.Blank
import Mathlib

namespace ComponentHost.Text

/-! ## The start -/

def Blank (cs : List Char) : Prop := ∀ c ∈ cs, isBlank c = true

def Tight (cs : List Char) : Prop := ∀ c ∈ cs.head?, isBlank c = false

theorem tight_nil : Tight [] := nofun

theorem tight_cons {c : Char} {cs : List Char} : Tight (c :: cs) ↔ isBlank c = false := by
  simp [Tight]

theorem Tight.swap {P rest rest' : List Char} (h : Tight (P ++ rest)) (hrest' : Tight rest') :
    Tight (P ++ rest') := by
  cases P with
  | nil => exact hrest'
  | cons c P => exact tight_cons.mpr (tight_cons.mp h)

theorem trimStart_of_tight {cs : List Char} (h : Tight cs) : trimStart cs = cs := by
  cases cs with
  | nil => rfl
  | cons c cs => rw [trimStart, List.dropWhile_cons_of_neg (by simp [tight_cons.mp h])]

theorem tight_trimStart (cs : List Char) : Tight (trimStart cs) := by
  intro c hc
  have hhead := List.head?_dropWhile_not isBlank cs
  rw [← trimStart, hc] at hhead
  exact hhead

/-- Trimming takes a run of white space off, up to what is tight. -/
theorem trimStart_eq_iff {cs rest : List Char} :
    trimStart cs = rest ↔ ∃ W, Blank W ∧ cs = W ++ rest ∧ Tight rest := by
  constructor
  · rintro rfl
    refine ⟨cs.takeWhile isBlank, ?_, List.takeWhile_append_dropWhile.symm, tight_trimStart cs⟩
    exact fun c hc => List.all_eq_true.mp List.all_takeWhile c hc
  · rintro ⟨W, hW, rfl, hrest⟩
    rw [trimStart, List.dropWhile_append_of_pos hW]
    exact trimStart_of_tight hrest

/-! ## The end -/

theorem trimEnd_cons (c : Char) (cs : List Char) :
    trimEnd (c :: cs) =
      if trimEnd cs = [] ∧ isBlank c = true then [] else c :: trimEnd cs := by
  simp only [trimEnd, List.reverse_cons, List.reverse_eq_nil_iff, List.dropWhile_append,
    List.isEmpty_iff]
  by_cases h : cs.reverse.dropWhile isBlank = []
  · cases hc : isBlank c <;> simp [h, hc]
  · simp [h]

theorem trimEnd_append {c : Char} (hc : isBlank c = false) :
    ∀ A cs : List Char, trimEnd (A ++ c :: cs) = A ++ c :: trimEnd cs
  | [], cs => by simp [trimEnd_cons, hc]
  | d :: A, cs => by simp [trimEnd_cons, trimEnd_append hc A cs]

theorem trimEnd_blank {W : List Char} (hW : Blank W) : trimEnd W = [] := by
  induction W with
  | nil => rfl
  | cons c W ih =>
    obtain ⟨hc, hW⟩ := List.forall_mem_cons.mp hW
    rw [trimEnd_cons, if_pos ⟨ih hW, hc⟩]

theorem exists_trimEnd (cs : List Char) : ∃ W, Blank W ∧ cs = trimEnd cs ++ W := by
  induction cs with
  | nil => exact ⟨[], nofun, rfl⟩
  | cons c cs ih =>
    obtain ⟨W, hW, hcs⟩ := ih
    rw [trimEnd_cons]
    split
    · rename_i h
      refine ⟨c :: cs, fun d hd => ?_, rfl⟩
      rw [h.1, List.nil_append] at hcs
      rcases List.mem_cons.mp hd with rfl | hd
      · exact h.2
      · exact hW d (hcs ▸ hd)
    · exact ⟨W, hW, congrArg (c :: ·) hcs⟩

theorem trimEnd_of_append {A cs : List Char} (h : trimEnd (A ++ cs) = A ++ cs) :
    trimEnd cs = cs := by
  induction A with
  | nil => exact h
  | cons c A ih =>
    rw [List.cons_append, trimEnd_cons] at h
    split at h
    · cases h
    · exact ih (List.cons.inj h).2

theorem trimEnd_append_of {cs : List Char} (hne : cs ≠ []) (h : trimEnd cs = cs) (A : List Char) :
    trimEnd (A ++ cs) = A ++ cs := by
  induction A with
  | nil => exact h
  | cons c A ih =>
    have hfull : A ++ cs ≠ [] := by simp [hne]
    rw [List.cons_append, trimEnd_cons, ih, if_neg fun hnil => hfull hnil.1]

theorem trimEnd_of_no_blank {cs : List Char} (h : ∀ c ∈ cs, isBlank c = false) :
    trimEnd cs = cs := by
  induction cs with
  | nil => rfl
  | cons c cs ih =>
    obtain ⟨hc, hcs⟩ := List.forall_mem_cons.mp h
    rw [trimEnd_cons, ih hcs, if_neg fun hnil => by simp [hc] at hnil]

theorem trimEnd_append_blank {W : List Char} (hW : Blank W) (cs : List Char) :
    trimEnd (cs ++ W) = trimEnd cs := by
  induction cs with
  | nil => exact trimEnd_blank hW
  | cons c cs ih => rw [List.cons_append, trimEnd_cons, trimEnd_cons, ih]

theorem trim_of_tight {V cs W : List Char} (hV : Blank V) (hW : Blank W) (hne : cs ≠ [])
    (htight : Tight cs) (hend : trimEnd cs = cs) : trim (V ++ cs ++ W) = cs := by
  have hstart : trimStart (V ++ cs ++ W) = cs ++ W := by
    refine trimStart_eq_iff.mpr ⟨V, hV, List.append_assoc .., ?_⟩
    obtain ⟨c, cs, rfl⟩ := List.exists_cons_of_ne_nil hne
    exact tight_cons.mpr (tight_cons.mp htight)
  rw [trim, hstart, trimEnd_append_blank hW, hend]

theorem trim_cons {c : Char} (hc : isBlank c = false) (cs : List Char) :
    trim (c :: cs) = c :: trimEnd cs := by
  rw [trim, trimStart_of_tight (tight_cons.mpr hc)]
  exact trimEnd_append hc [] cs

theorem trimEnd_trim (cs : List Char) : trimEnd (trim cs) = trim cs := by
  obtain ⟨W, hW, hcs⟩ := exists_trimEnd (trimStart cs)
  have hsame := trimEnd_append_blank hW (trimEnd (trimStart cs))
  rw [← hcs] at hsame
  exact hsame.symm

/-! ## Pieces between marks -/

theorem splitAt_append {mark : Char} {cs line : List Char} {lines : List (List Char)} :
    ∀ {A : List Char}, mark ∉ A → splitAt mark cs = line :: lines →
      splitAt mark (A ++ cs) = (A ++ line) :: lines
  | [], _, h => h
  | c :: A, hA, h => by
      have hc : c ≠ mark := fun hc => hA (hc ▸ List.mem_cons_self)
      have hA : mark ∉ A := fun hmem => hA (List.mem_cons_of_mem _ hmem)
      rw [List.cons_append, splitAt, if_neg hc, splitAt_append hA h]
      rfl

theorem splitAt_mark (mark : Char) (cs : List Char) :
    splitAt mark (mark :: cs) = [] :: splitAt mark cs := by
  rw [splitAt, if_pos rfl]

theorem splitAt_flatMap {mark : Char} {lines : List (List Char)} (h : ∀ l ∈ lines, mark ∉ l) :
    splitAt mark (lines.flatMap (mark :: ·)) = [] :: lines := by
  induction lines with
  | nil => rfl
  | cons l lines ih =>
    obtain ⟨hl, hlines⟩ := List.forall_mem_cons.mp h
    rw [List.flatMap_cons, List.cons_append, splitAt_mark, splitAt_append hl (ih hlines),
      List.append_nil]

theorem flatMap_splitAt (mark : Char) (cs : List Char) :
    (splitAt mark cs).flatMap (mark :: ·) = mark :: cs ∧ ∀ l ∈ splitAt mark cs, mark ∉ l := by
  induction cs with
  | nil => simp [splitAt]
  | cons c cs ih =>
    by_cases hc : c = mark
    · subst hc
      rw [splitAt_mark]
      refine ⟨by rw [List.flatMap_cons, ih.1]; rfl, ?_⟩
      exact List.forall_mem_cons.mpr ⟨List.not_mem_nil, ih.2⟩
    · cases hs : splitAt mark cs with
      | nil => simp [hs] at ih
      | cons l lines =>
        rw [hs] at ih
        have hsplit : splitAt mark (c :: cs) = (c :: l) :: lines :=
          splitAt_append (A := [c]) (by simpa using Ne.symm hc) hs
        obtain ⟨hl, hlines⟩ := List.forall_mem_cons.mp ih.2
        rw [hsplit]
        refine ⟨?_, List.forall_mem_cons.mpr ⟨?_, hlines⟩⟩
        · have hjoin := ih.1
          rw [List.flatMap_cons, List.cons_append] at hjoin ⊢
          rw [List.cons_append, (List.cons.inj hjoin).2]
        · exact fun hmem => (List.mem_cons.mp hmem).elim (fun h => hc h.symm) hl

theorem splitAt_ne_nil (mark : Char) (cs : List Char) : splitAt mark cs ≠ [] := by
  intro hnil
  have hjoin := (flatMap_splitAt mark cs).1
  rw [hnil] at hjoin
  cases hjoin

theorem splitAt_of_not_mem {mark : Char} {cs : List Char} (h : mark ∉ cs) :
    splitAt mark cs = [cs] := by
  have hsplit := splitAt_append h (rfl : splitAt mark [] = [[]])
  rwa [List.append_nil] at hsplit

theorem splitAt_append_mark (mark : Char) (cs ds : List Char) :
    splitAt mark (cs ++ mark :: ds) = splitAt mark cs ++ splitAt mark ds := by
  induction cs with
  | nil => exact splitAt_mark mark ds
  | cons c cs ih =>
    by_cases hc : c = mark
    · subst hc
      rw [List.cons_append, splitAt_mark, ih, splitAt_mark, List.cons_append]
    · have hA : mark ∉ [c] := by simpa using Ne.symm hc
      obtain ⟨l, lines, hl⟩ := List.exists_cons_of_ne_nil (splitAt_ne_nil mark cs)
      have hcs := splitAt_append hA hl
      rw [hl] at ih
      have hboth := splitAt_append hA ih
      rw [List.singleton_append] at hcs hboth
      rw [List.cons_append, hboth, hcs]
      rfl

end ComponentHost.Text
