/-
# `ComponentHost.Proofs.Json.Scalar` — strings and integers, written and read back

What is written for a string or for an integer is read back, with anything behind it that does not
belong to it:

    readString (renderString s ++ rest)  =  (s, rest)
    readNumber (renderInt n ++ rest)     =  (n, rest)      where no number goes on with `rest`

A string ends with its quotation mark, so it needs no condition.  An integer has no mark at its end:
a digit behind it would be one of its own, and with a point or an `e` behind it, it would be a float
(`Closes`).  The digits are taken in one by one; none is refused as long as the number has 64 bits
(`takeWhole_decimalDigits`).
-/
import ComponentHost.Json.Parser
import ComponentHost.Json.Printer
import Mathlib.Data.Nat.Digits.Defs

namespace ComponentHost.Json

open Text

/-! ## Strings -/

theorem padZeros_hexDigits : ∀ n < 32,
    padZeros 4 (hexDigits n) = ['0', '0', Nat.digitChar (n / 16), Nat.digitChar (n % 16)] ∧
      unit? '0' '0' (Nat.digitChar (n / 16)) (Nat.digitChar (n % 16)) = some n := by
  decide

theorem readText_escapeChar (c : Char) (rest : List Char) :
    readText (escapeChar c ++ rest) = (readText rest).map fun x => (c :: x.1, x.2) := by
  rw [escapeChar]
  -- the characters with a letter, one after the other
  iterate 7
    split
    · rename_i hc
      subst hc
      rfl
  split
  · rename_i hcontrol
    obtain ⟨hdigits, hunit⟩ := padZeros_hexDigits c.toNat hcontrol
    rw [hdigits]
    show readText ('\\' :: 'u' :: '0' :: '0' :: _ :: _ :: rest) = _
    have hlow : c.toNat < 0xD800 := Nat.lt_trans hcontrol (by decide)
    have hhigh : ¬ (0xD800 ≤ c.toNat) := Nat.not_le.mpr hlow
    have hlast : ¬ (0xDC00 ≤ c.toNat) := fun h => hhigh (Nat.le_trans (by decide) h)
    rw [readText, hunit]
    simp [hhigh, hlast, Char.ofNat_toNat]
  · rename_i hquote hslash _ _ _ _ _ hplain
    show readText (c :: rest) = _
    rw [readText]
    · simp [hslash, hplain]
    all_goals simp_all

theorem readText_flatMap (cs rest : List Char) :
    readText (cs.flatMap escapeChar ++ '"' :: rest) = some (cs, rest) := by
  induction cs with
  | nil => rfl
  | cons c cs ih =>
    rw [List.flatMap_cons, List.append_assoc, readText_escapeChar, ih]
    rfl

theorem readString_renderString (s : String) (rest : List Char) :
    readString (renderString s ++ rest) = some (s, rest) := by
  have htext : renderString s ++ rest = '"' :: (s.toList.flatMap escapeChar ++ '"' :: rest) := by
    simp [renderString]
  rw [htext, readString, readText_flatMap]
  simp

/-! ## Digits -/

theorem isDigit_of_mem_decimalDigits {n : Nat} {c : Char} (h : c ∈ decimalDigits n) :
    c.isDigit = true :=
  Nat.isDigit_of_mem_toDigits (by decide) (by decide) h

theorem digitValue_digitChar : ∀ d < 10, digitValue (Nat.digitChar d) = d := by decide

/-- The digits of a larger number are those of its tenth, and one more. -/
theorem decimalDigits_of_le {n : Nat} (h : 10 ≤ n) :
    decimalDigits n = decimalDigits (n / 10) ++ [Nat.digitChar (n % 10)] :=
  Nat.toDigits_of_base_le (by decide) h

theorem pushDigit_digitChar {n d : Nat} (hd : d < 10) (h : n * 10 + d < Nat.pow 2 64) :
    pushDigit n (Nat.digitChar d) = some (n * 10 + d) := by
  simp only [pushDigit, digitValue_digitChar d hd]
  rw [if_pos h]

theorem takeWhole_cons (s : Scaled) (c : Char) (cs : List Char) :
    takeWhole s (c :: cs) =
      match pushDigit s.significand c with
      | some n => takeWhole ⟨n, s.exponent⟩ cs
      | none => ⟨s.significand, s.exponent + 1 + cs.length⟩ := by
  -- the equations that `rw` would make of `takeWhole` compute the bound of 64 bits
  rfl

theorem takeWhole_decimalDigits {n : Nat} (hn : n < Nat.pow 2 64) (cs : List Char) :
    takeWhole ⟨0, 0⟩ (decimalDigits n ++ cs) = takeWhole ⟨n, 0⟩ cs := by
  induction n using Nat.strongRecOn generalizing cs with
  | _ n ih =>
    by_cases hsmall : n < 10
    · have hpush := pushDigit_digitChar (n := 0) hsmall (by rwa [Nat.zero_mul, Nat.zero_add])
      rw [Nat.zero_mul, Nat.zero_add] at hpush
      rw [decimalDigits, Nat.toDigits_of_lt_base hsmall, List.singleton_append,
        takeWhole_cons, hpush]
    · have hle : 10 ≤ n := Nat.le_of_not_lt hsmall
      have hwhole : n / 10 * 10 + n % 10 = n := Nat.div_add_mod' n 10
      have htenth : n / 10 < n := Nat.div_lt_self (Nat.lt_of_lt_of_le (by decide) hle) (by decide)
      have hpush := pushDigit_digitChar (n := n / 10) (Nat.mod_lt n (by decide)) (by rwa [hwhole])
      rw [hwhole] at hpush
      rw [decimalDigits_of_le hle, List.append_assoc, ih _ htenth (Nat.lt_trans htenth hn),
        List.singleton_append, takeWhole_cons, hpush]

/-- Only zero is written with a zero in front. -/
theorem eq_zero_of_head?_decimalDigits {n : Nat} (h : (decimalDigits n).head? = some '0') :
    n = 0 := by
  induction n using Nat.strongRecOn with
  | _ n ih =>
    by_cases hsmall : n < 10
    · rw [decimalDigits, Nat.toDigits_of_lt_base hsmall, List.head?_cons, Option.some.injEq] at h
      have hvalue := digitValue_digitChar n hsmall
      rw [h] at hvalue
      exact hvalue.symm
    · rw [decimalDigits_of_le (Nat.le_of_not_lt hsmall), List.head?_append] at h
      have htenth : n / 10 = 0 := by
        refine ih (n / 10) (by omega) ?_
        cases hdigits : decimalDigits (n / 10) with
        | nil => exact absurd hdigits Nat.toDigits_ne_nil
        | cons d ds =>
          rw [hdigits] at h
          exact h
      omega

/-! ## Integers -/

theorem natAbs_lt (n : Integer) : n.val.natAbs < Nat.pow 2 64 := by
  obtain ⟨n, hlow, hhigh⟩ := n
  rw [show Int.pow 2 63 = 9223372036854775808 from rfl] at hlow
  rw [show Int.pow 2 64 = 18446744073709551616 from rfl] at hhigh
  rw [show Nat.pow 2 64 = 18446744073709551616 from rfl]
  show n.natAbs < 18446744073709551616
  omega

/-- No number goes on with the text. -/
def Closes (rest : List Char) : Prop :=
  ∀ c ∈ rest.head?, c.isDigit = false ∧ c ≠ '.' ∧ c ≠ 'e' ∧ c ≠ 'E'

theorem closes_nil : Closes [] := nofun

theorem closes_cons {c : Char} (rest : List Char)
    (h : c.isDigit = false ∧ c ≠ '.' ∧ c ≠ 'e' ∧ c ≠ 'E') : Closes (c :: rest) := by
  intro c' hc'
  cases hc'
  exact h

section Closes

variable {rest : List Char}

theorem Closes.spanDigits (h : Closes rest) {digits : List Char}
    (hdigits : ∀ c ∈ digits, c.isDigit = true) : spanDigits (digits ++ rest) = (digits, rest) := by
  rw [Json.spanDigits, List.takeWhile_append_of_pos hdigits, List.dropWhile_append_of_pos hdigits]
  cases rest with
  | nil => rw [List.takeWhile_nil, List.dropWhile_nil, List.append_nil]
  | cons c rest =>
    obtain ⟨hc, -⟩ := h c rfl
    rw [List.takeWhile_cons_of_neg (by simp [hc]), List.dropWhile_cons_of_neg (by simp [hc]),
      List.append_nil]

theorem Closes.readFraction (h : Closes rest) : readFraction rest = some (none, rest) := by
  cases rest with
  | nil => rfl
  | cons c rest =>
    obtain ⟨-, hc, -⟩ := h c rfl
    rw [Json.readFraction]
    rintro _ ⟨rfl, rfl⟩
    exact hc rfl

theorem Closes.readExponent (h : Closes rest) : readExponent rest = some (none, rest) := by
  cases rest with
  | nil => rfl
  | cons c rest =>
    obtain ⟨-, -, hlower, hupper⟩ := h c rfl
    rw [Json.readExponent, if_neg (by simp [hlower, hupper])]

/-- Digits alone make an integer, which has 64 bits and is not zero with a sign. -/
theorem readUnsigned_decimalDigits (h : Closes rest) (negative : Bool) {n : Nat} {i : Integer}
    (hi : i.val = if negative then -(n : Int) else n) (hzero : negative = true → n ≠ 0) :
    readUnsigned negative (decimalDigits n ++ rest) = some (.integer i, rest) := by
  have hn : n < Nat.pow 2 64 := by
    have hlt := natAbs_lt i
    rw [hi] at hlt
    cases negative with
    | false => exact hlt
    | true => rwa [if_pos rfl, Int.natAbs_neg] at hlt
  have hwhole : takeWhole ⟨0, 0⟩ (decimalDigits n) = ⟨n, 0⟩ := by
    have htake := takeWhole_decimalDigits hn []
    rwa [List.append_nil] at htake
  have hnumber : wholeNumber negative (decimalDigits n) = some (.integer i) := by
    obtain ⟨i, hbounds⟩ := i
    obtain rfl : i = if negative then -(n : Int) else n := hi
    have hsign : (decide ((0 : Int) = 0) &&
        !(negative && (if negative then -(n : Int) else n) == 0)) = true := by
      cases negative with
      | false => rfl
      | true => simpa using hzero rfl
    rw [wholeNumber, hwhole]
    exact (dif_pos hbounds).trans (if_pos hsign)
  have hne : decimalDigits n ≠ [] := Nat.toDigits_ne_nil
  have hfront : ¬ ((decimalDigits n).head? = some '0' && (decimalDigits n).length ≠ 1) = true := by
    rw [Bool.and_eq_true, decide_eq_true_eq, decide_eq_true_eq]
    rintro ⟨hhead, hlength⟩
    rw [eq_zero_of_head?_decimalDigits hhead] at hlength
    exact hlength rfl
  rw [readUnsigned, h.spanDigits fun c hc => isDigit_of_mem_decimalDigits hc]
  cases hdigits : decimalDigits n with
  | nil => exact absurd hdigits hne
  | cons d ds =>
    rw [← hdigits]
    simp only [if_neg hfront, h.readFraction, h.readExponent, Option.bind_eq_bind,
      Option.bind_some, hnumber, Option.map_some]

theorem readNumber_renderInt (h : Closes rest) (n : Integer) :
    readNumber (renderInt n.val ++ rest) = some (.integer n, rest) := by
  rw [renderInt]
  split
  · rename_i hneg
    refine readUnsigned_decimalDigits h true (n := n.val.natAbs) ?_ ?_
    · show n.val = -(n.val.natAbs : Int)
      omega
    · intro _
      omega
  · rename_i hpos
    have hread := readUnsigned_decimalDigits h false (n := n.val.natAbs) (i := n)
      (by show n.val = (n.val.natAbs : Int); omega) nofun
    have hdigit := fun c => isDigit_of_mem_decimalDigits (n := n.val.natAbs) (c := c)
    cases hdigits : decimalDigits n.val.natAbs with
    | nil => exact absurd hdigits Nat.toDigits_ne_nil
    | cons d ds =>
      have hd : d.isDigit = true := hdigit d (hdigits ▸ List.mem_cons_self)
      rw [hdigits] at hread
      rw [List.cons_append, readNumber]
      · exact hread
      · rintro cs ⟨rfl, rfl⟩
        cases hd

end Closes

end ComponentHost.Json
