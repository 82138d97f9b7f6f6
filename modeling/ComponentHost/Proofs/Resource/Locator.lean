/-
# `ComponentHost.Proofs.Resource.Locator` — a locator belongs to one handle

Two facts about the text of a handle.

    H.locator = H'.locator  ⟹  H = H'              (`Handle.locator_injective`)
    c ∈ H.locator           ⟹  c ∈ locatorAlphabet   (`Handle.mem_locatorAlphabet`)

The first makes a lookup by text a lookup by handle.  The number is read back out of
the digits, so no bound on it is needed: past 30 digits a locator only gets longer.
The second is all that relinking and reading ever ask of an inserted locator: it holds
no quotation mark, no white space and no bracket.
-/
import ComponentHost.Resource.Handle
import Mathlib

namespace ComponentHost

/-! ## Reading a number back -/

namespace Text

def hexValue (c : Char) : Nat :=
  if c.isDigit then c.toNat - 48 else c.toNat - 87

def hexNumber (cs : List Char) : Nat :=
  cs.foldl (fun n c => 16 * n + hexValue c) 0

theorem hexValue_digitChar : ∀ d < 16, hexValue (Nat.digitChar d) = d := by decide

theorem hexNumber_hexDigits (n : Nat) : hexNumber (hexDigits n) = n := by
  induction n using Nat.strongRecOn with
  | _ n ih =>
    by_cases h : n < 16
    · simp [hexNumber, hexDigits, Nat.toDigits_of_lt_base h, hexValue_digitChar n h]
    · have hlow : hexValue (Nat.digitChar (n % 16)) = n % 16 :=
        hexValue_digitChar _ (Nat.mod_lt _ (by decide))
      have hhigh : hexNumber (Nat.toDigits 16 (n / 16)) = n / 16 := ih (n / 16) (by omega)
      rw [hexDigits, Nat.toDigits_of_base_le (by decide) (by omega), hexNumber,
        List.foldl_append]
      change 16 * hexNumber (Nat.toDigits 16 (n / 16)) + hexValue (Nat.digitChar (n % 16)) = n
      rw [hhigh, hlow]
      omega

theorem hexNumber_padZeros (width : Nat) (cs : List Char) :
    hexNumber (padZeros width cs) = hexNumber cs := by
  have hzeros : ∀ k, (List.replicate k '0').foldl (fun n c => 16 * n + hexValue c) 0 = 0 := by
    intro k
    induction k with
    | zero => rfl
    | succ k ih => simpa [List.replicate_succ, hexValue] using ih
  rw [hexNumber, padZeros, List.foldl_append, hzeros, hexNumber]

theorem length_padZeros (width : Nat) (cs : List Char) :
    width ≤ (padZeros width cs).length := by
  simp only [padZeros, List.length_append, List.length_replicate]
  omega

theorem mem_hexDigits {n : Nat} {c : Char} (h : c ∈ hexDigits n) :
    c ∈ "0123456789abcdef".toList := by
  induction n using Nat.strongRecOn with
  | _ n ih =>
    have hdigit : ∀ d < 16, Nat.digitChar d ∈ "0123456789abcdef".toList := by decide
    rw [hexDigits, Nat.toDigits_eq_if (by decide)] at h
    split at h
    · rename_i hn
      rw [List.mem_singleton.mp h]
      exact hdigit n hn
    · rename_i hn
      rcases List.mem_append.mp h with h | h
      · exact ih (n / 16) (by omega) h
      · rw [List.mem_singleton.mp h]
        exact hdigit _ (Nat.mod_lt _ (by decide))

end Text

/-! ## Locators -/

namespace Handle

/-- Groups that are all full give the characters back. -/
theorem grouped_injective :
    ∀ (groups : List (Nat × List Char)) {cs ds : List Char},
      (groups.map (·.1)).sum ≤ cs.length → (groups.map (·.1)).sum ≤ ds.length →
      grouped groups cs = grouped groups ds → cs = ds
  | [], _, _, _, _, h => h
  | (n, mark) :: groups, cs, ds, hc, hd, h => by
      simp only [List.map_cons, List.sum_cons] at hc hd
      simp only [grouped, List.append_assoc] at h
      have hlen : (cs.take n).length = (ds.take n).length := by
        simp only [List.length_take]
        omega
      obtain ⟨htake, hrest⟩ := List.append_inj h hlen
      have hdrop : cs.drop n = ds.drop n :=
        grouped_injective groups (by simp only [List.length_drop]; omega)
          (by simp only [List.length_drop]; omega) (List.append_cancel_left hrest)
      rw [← List.take_append_drop n cs, htake, hdrop, List.take_append_drop]

theorem identifier_injective {H H' : Handle} (h : H.identifier = H'.identifier) : H = H' := by
  have hsum : (groups.map (·.1)).sum ≤ 30 := by decide
  have hdigits := grouped_injective groups
    (Nat.le_trans hsum (Text.length_padZeros 30 (Text.hexDigits H.serial)))
    (Nat.le_trans hsum (Text.length_padZeros 30 (Text.hexDigits H'.serial))) h
  have hserial := congrArg Text.hexNumber hdigits
  simp only [Text.hexNumber_padZeros, Text.hexNumber_hexDigits] at hserial
  cases H
  cases H'
  exact congrArg Handle.mk hserial

theorem toList_locator (H : Handle) : H.locator.toList = scheme.toList ++ H.identifier := by
  simp [locator]

theorem locator_injective {H H' : Handle} (h : H.locator = H'.locator) : H = H' := by
  have htext := congrArg String.toList h
  rw [toList_locator, toList_locator] at htext
  exact identifier_injective (List.append_cancel_left htext)

theorem locator_ne_nil (H : Handle) : H.locator.toList ≠ [] := by
  rw [toList_locator]
  simp [scheme]

def locatorAlphabet : List Char :=
  scheme.toList ++ "0123456789abcdef".toList

theorem mem_grouped {c : Char} :
    ∀ {groups : List (Nat × List Char)} {cs : List Char}, c ∈ grouped groups cs →
      c ∈ cs ∨ ∃ g ∈ groups, c ∈ g.2
  | [], _, h => .inl h
  | (n, mark) :: groups, cs, h => by
      simp only [grouped, List.mem_append] at h
      rcases h with (h | h) | h
      · exact .inl (List.mem_of_mem_take h)
      · exact .inr ⟨_, List.mem_cons_self, h⟩
      · rcases mem_grouped h with h | ⟨g, hg, h⟩
        · exact .inl (List.mem_of_mem_drop h)
        · exact .inr ⟨g, List.mem_cons_of_mem _ hg, h⟩

theorem mem_locatorAlphabet {H : Handle} {c : Char} (h : c ∈ H.locator.toList) :
    c ∈ locatorAlphabet := by
  rw [toList_locator, List.mem_append] at h
  rcases h with h | h
  · exact List.mem_append_left _ h
  · rcases mem_grouped h with h | ⟨g, hg, hc⟩
    · rw [Text.padZeros, List.mem_append] at h
      rcases h with h | h
      · rw [List.eq_of_mem_replicate h]
        decide
      · exact List.mem_append_right _ (Text.mem_hexDigits h)
    · have hmarks : ∀ g ∈ groups, g.2 ⊆ locatorAlphabet := by decide
      exact hmarks g hg hc

/-! ## Texts in the form of locators -/

/-- The text is a scheme and an identifier, in the form of the locators of handles: hexadecimal
digits in groups, with dashes between them. -/
def IsLocatorText (text : String) : Prop :=
  ∃ id : List Char, text.toList = scheme.toList ++ id ∧
    id ⊆ "0123456789abcdefABCDEF-".toList

theorem isLocatorText_locator (H : Handle) : IsLocatorText H.locator := by
  refine ⟨H.identifier, H.toList_locator, ?_⟩
  have hdigits : "0123456789abcdef".toList ⊆ "0123456789abcdefABCDEF-".toList := by decide
  have hmarks : ∀ g ∈ groups, g.2 ⊆ "0123456789abcdefABCDEF-".toList := by decide
  intro c hc
  rcases mem_grouped hc with hc | ⟨g, hg, hc⟩
  · rw [Text.padZeros, List.mem_append] at hc
    rcases hc with hc | hc
    · rw [List.eq_of_mem_replicate hc]
      decide
    · exact hdigits (Text.mem_hexDigits hc)
  · exact hmarks g hg hc

/-! ## Texts without locators -/

/-- No locator of a handle stands anywhere in the text. -/
def Absent (cs : List Char) : Prop := ∀ H : Handle, ¬ H.locator.toList <:+: cs

theorem Absent.of_part {cs ds : List Char} (hd : Absent ds) (h : cs <:+: ds) : Absent cs :=
  fun H hH => hd H (hH.trans h)

theorem Absent.ne_locator {cs : List Char} (hc : Absent cs) (H : Handle) :
    H.locator.toList ≠ cs := by
  rintro rfl
  exact hc H (List.infix_refl _)

/-- A locator is longer than the scheme it starts with. -/
theorem absent_of_length {cs : List Char} (h : cs.length < 22) : Absent cs := by
  intro H hH
  have hle := hH.length_le
  have hscheme : scheme.toList.length = 22 := by decide
  rw [toList_locator, List.length_append, hscheme] at hle
  omega

theorem absent_nil : Absent [] := absent_of_length (by decide)

theorem absent_of_not_mem {cs : List Char} {c : Char} (hc : c ∈ scheme.toList) (h : c ∉ cs) :
    Absent cs := by
  intro H hH
  refine h (hH.subset ?_)
  rw [toList_locator]
  exact List.mem_append_left _ hc

/-- A character that no locator holds keeps what is in front of it apart from what follows. -/
theorem Absent.append {cs ds : List Char} {c : Char} (hcs : Absent cs) (hds : Absent ds)
    (hc : c ∉ locatorAlphabet) : Absent (cs ++ c :: ds) := by
  rintro H ⟨before, after, h⟩
  have hnot : c ∉ H.locator.toList := fun hmem => hc (mem_locatorAlphabet hmem)
  rw [List.append_assoc] at h
  rcases List.append_eq_append_iff.mp h with ⟨X, rfl, hX⟩ | ⟨X, rfl, hX⟩
  · rcases List.append_eq_append_iff.mp hX with ⟨Y, rfl, hY⟩ | ⟨Y, hY, hY'⟩
    · exact hcs H ⟨before, Y, by simp⟩
    · cases Y with
      | nil => exact hcs H ⟨before, [], by simp [hY]⟩
      | cons d Y =>
        cases hY'
        exact hnot (by simp [hY])
  · cases X with
    | nil =>
      cases hH : H.locator.toList with
      | nil => exact locator_ne_nil H hH
      | cons d L =>
        rw [hH] at hX hnot
        cases hX
        exact hnot List.mem_cons_self
    | cons d X =>
      obtain ⟨-, rfl⟩ := List.cons.inj hX
      exact hds H ⟨X, after, by simp⟩

end Handle

end ComponentHost
