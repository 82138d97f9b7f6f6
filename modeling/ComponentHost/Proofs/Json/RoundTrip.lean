/-
# `ComponentHost.Proofs.Json.RoundTrip` — JSON text says which value it was written for

A value without floats is written as text that is read back as that value, whatever stands behind
it that no number goes on with (`Plain.readValue_render`):

    readValue depth (render j ++ rest)  =  (j, rest)      where `j` nests at most `depth` deep

The proof follows the value.  A list of items is read with the reader of its items, so it is enough
that this one reads each of them (`readItems_intercalate`); the same goes for members.  Fuel is the
length of the text, and each item takes at least one character.  What is written never starts with a
blank, nor with a closing bracket, so the reader does not take a list for an empty one (`openers`).

The members of an object are set one after the other when they are read.  With their keys in order
each goes behind those before it, and the object comes out as it was (`ofMembers_of_ordered`).
-/
import ComponentHost.Invocation.Arguments
import ComponentHost.Proofs.Json.Scalar

namespace ComponentHost

namespace Json

/-- The value has no floats in it, the members of its objects have their keys in order, and its
arrays and objects nest at most `depth` deep. -/
inductive Plain : Nat → Json → Prop
  | null (depth : Nat) : Plain depth .null
  | bool (depth : Nat) (b : Bool) : Plain depth (.bool b)
  | integer (depth : Nat) (n : Integer) : Plain depth (.integer n)
  | string (depth : Nat) (s : String) : Plain depth (.string s)
  | array {depth : Nat} {items : List Json} :
      (∀ j ∈ items, Plain depth j) → Plain (depth + 1) (.array items)
  | object {depth : Nat} {members : List (String × Json)} :
      (members.map (·.1)).Pairwise (· < ·) → (∀ m ∈ members, Plain depth m.2) →
      Plain (depth + 1) (.object members)

theorem Plain.succ {depth : Nat} {j : Json} (h : Plain depth j) : Plain (depth + 1) j := by
  induction h with
  | null depth => exact .null _
  | bool depth b => exact .bool _ b
  | integer depth n => exact .integer _ n
  | string depth s => exact .string _ s
  | array _ ih => exact .array ih
  | object hkeys _ ih => exact .object hkeys ih

/-! ## The first character of a value -/

/-- The characters that the text of a value can start with, floats apart. -/
def openers : List Char := "ntf\"[\x7b-0123456789".toList

theorem of_mem_openers (c : Char) (hc : c ∈ openers) :
    isJsonBlank c = false ∧ Text.isBlank c = false ∧ c ≠ ']' ∧ c ≠ '\x7d' := by
  have hall : openers.all (fun c => decide
      (isJsonBlank c = false ∧ Text.isBlank c = false ∧ c ≠ ']' ∧ c ≠ '\x7d')) = true := by decide
  exact of_decide_eq_true (List.all_eq_true.mp hall c hc)

theorem mem_openers_of_isDigit {c : Char} (h : c.isDigit = true) : c ∈ openers := by
  have hdigits : ∀ n < 10, Char.ofNat (48 + n) ∈ openers := by decide
  obtain ⟨hlow, hhigh⟩ : 48 ≤ c.toNat ∧ c.toNat ≤ 57 := by
    simpa [Char.isDigit, UInt32.le_iff_toNat_le] using h
  have hc := hdigits (c.toNat - 48) (by omega)
  rwa [Nat.add_sub_cancel' hlow, Char.ofNat_toNat] at hc

theorem exists_renderInt_cons (n : Int) :
    ∃ c cs, renderInt n = c :: cs ∧ (c = '-' ∨ c.isDigit = true) := by
  rw [renderInt]
  split
  · exact ⟨'-', _, rfl, .inl rfl⟩
  · have hdigit := fun c => isDigit_of_mem_decimalDigits (n := n.natAbs) (c := c)
    cases hdigits : Text.decimalDigits n.natAbs with
    | nil => exact absurd hdigits Nat.toDigits_ne_nil
    | cons d ds => exact ⟨d, ds, rfl, .inr (hdigit d (hdigits ▸ List.mem_cons_self))⟩

theorem Plain.exists_render_cons {depth : Nat} {j : Json} (h : Plain depth j) :
    ∃ c cs, render j = c :: cs ∧ c ∈ openers := by
  cases h with
  | null => exact ⟨'n', _, by rw [render]; rfl, by decide⟩
  | bool depth b =>
    cases b with
    | false => exact ⟨'f', _, by rw [render]; rfl, by decide⟩
    | true => exact ⟨'t', _, by rw [render]; rfl, by decide⟩
  | integer depth n =>
    obtain ⟨c, cs, hcs, hc⟩ := exists_renderInt_cons n.val
    refine ⟨c, cs, by rw [render, hcs], ?_⟩
    rcases hc with rfl | hc
    · decide
    · exact mem_openers_of_isDigit hc
  | string depth s => exact ⟨'"', _, by rw [render, renderString]; rfl, by decide⟩
  | array _ => exact ⟨'[', _, by rw [render]; rfl, by decide⟩
  | object _ _ => exact ⟨'\x7b', _, by rw [render]; rfl, by decide⟩

theorem skipBlanks_of_opener {c : Char} (hc : c ∈ openers) (cs : List Char) :
    skipBlanks (c :: cs) = c :: cs :=
  List.dropWhile_cons_of_neg (by rw [(of_mem_openers c hc).1]; exact Bool.false_ne_true)

theorem Plain.skipBlanks_render {depth : Nat} {j : Json} (h : Plain depth j) (gap : List Char)
    (hgap : ∀ c ∈ gap, isJsonBlank c = true) (rest : List Char) :
    skipBlanks (gap ++ (render j ++ rest)) = render j ++ rest := by
  obtain ⟨c, cs, hcs, hc⟩ := h.exists_render_cons
  rw [skipBlanks, List.dropWhile_append_of_pos hgap, hcs]
  exact skipBlanks_of_opener hc (cs ++ rest)

/-! ## Items -/

theorem renderItems_eq (items : List Json) :
    renderItems items = [','].intercalate (items.map render) := by
  induction items with
  | nil => rfl
  | cons j items ih =>
    cases items with
    | nil => simp [renderItems]
    | cons j' items =>
      rw [renderItems, ih, List.map_cons, List.map_cons, List.map_cons, List.intercalate_cons_cons,
        List.append_assoc]
      · rfl
      · exact List.cons_ne_nil _ _

theorem closes_mark {c : Char} (hc : c ∈ [',', ']', '\x7d']) (rest : List Char) :
    Closes (c :: rest) := by
  refine closes_cons rest ?_
  simp only [List.mem_cons, List.not_mem_nil, or_false] at hc
  rcases hc with rfl | rfl | rfl <;> decide

/-- The reader reads the value, whatever stands behind it that no number goes on with. -/
def ReadBy (value : List Char → Option (Json × List Char)) (j : Json) : Prop :=
  ∀ rest, Closes rest → value (render j ++ rest) = some (j, rest)

section Lists

variable {value : List Char → Option (Json × List Char)} {depth : Nat}

theorem readItems_last {fuel : Nat} {cs rest : List Char} {j : Json}
    (hj : value (skipBlanks cs) = some (j, ']' :: rest)) :
    readItems value (fuel + 1) cs = some ([j], rest) := by
  rw [readItems, hj]
  rfl

theorem readItems_next {fuel : Nat} {cs more rest : List Char} {j : Json} {items : List Json}
    (hj : value (skipBlanks cs) = some (j, ',' :: more))
    (hitems : readItems value fuel more = some (items, rest)) :
    readItems value (fuel + 1) cs = some (j :: items, rest) := by
  rw [readItems, hj]
  show (readItems value fuel more).map _ = _
  rw [hitems]
  rfl

/-- Items with commas between them, and perhaps blanks behind those, are read one after the other,
up to the closing bracket. -/
theorem readItems_intercalate (gap : List Char) (hgap : ∀ c ∈ gap, isJsonBlank c = true)
    (rest : List Char) {j : Json} {items : List Json} (hplain : ∀ j' ∈ j :: items, Plain depth j')
    (hread : ∀ j' ∈ j :: items, ReadBy value j') (fuel : Nat) (hfuel : items.length ≤ fuel)
    (before : List Char) (hbefore : ∀ c ∈ before, isJsonBlank c = true) :
    readItems value (fuel + 1)
        (before ++ ((',' :: gap).intercalate ((j :: items).map render) ++ ']' :: rest)) =
      some (j :: items, rest) := by
  induction items generalizing j fuel before with
  | nil =>
    have hj := hread j List.mem_cons_self (']' :: rest) (closes_mark (by decide) rest)
    refine readItems_last ?_
    rw [List.map_cons, List.map_nil, List.intercalate_singleton,
      (hplain j List.mem_cons_self).skipBlanks_render before hbefore, hj]
  | cons j' items ih =>
    obtain ⟨fuel, rfl⟩ := Nat.exists_eq_add_of_le' hfuel
    obtain ⟨hplain, hplains⟩ := List.forall_mem_cons.mp hplain
    obtain ⟨hj, hreads⟩ := List.forall_mem_cons.mp hread
    refine readItems_next ?_ (ih hplains hreads _ (Nat.le_add_left _ fuel) gap hgap)
    rw [List.map_cons, List.map_cons, List.intercalate_cons_cons, ← List.map_cons,
      List.append_assoc, List.append_assoc, hplain.skipBlanks_render before hbefore]
    exact hj _ (closes_mark (by decide) _)

/-! ## Members -/

theorem readMembers_last {fuel : Nat} {cs more rest : List Char} {key : String} {j : Json}
    (hkey : readString (skipBlanks cs) = some (key, ':' :: more))
    (hj : value (skipBlanks more) = some (j, '\x7d' :: rest)) :
    readMembers value (fuel + 1) cs = some ([(key, j)], rest) := by
  have hcolon : skipBlanks (':' :: more) = ':' :: more := rfl
  rw [readMembers, hkey]
  simp only [hcolon, hj]
  rfl

theorem readMembers_next {fuel : Nat} {cs more others rest : List Char} {key : String} {j : Json}
    {members : List (String × Json)}
    (hkey : readString (skipBlanks cs) = some (key, ':' :: more))
    (hj : value (skipBlanks more) = some (j, ',' :: others))
    (hmembers : readMembers value fuel others = some (members, rest)) :
    readMembers value (fuel + 1) cs = some ((key, j) :: members, rest) := by
  have hcolon : skipBlanks (':' :: more) = ':' :: more := rfl
  rw [readMembers, hkey]
  simp only [hcolon, hj]
  show (readMembers value fuel others).map _ = _
  rw [hmembers]
  rfl

theorem readString_skipBlanks (key : String) (rest : List Char) :
    readString (skipBlanks (renderString key ++ rest)) = some (key, rest) := by
  have hopens : skipBlanks (renderString key ++ rest) = renderString key ++ rest :=
    skipBlanks_of_opener (by decide) _
  rw [hopens, readString_renderString]

theorem readMembers_render (rest : List Char) {m : String × Json} {members : List (String × Json)}
    (hplain : ∀ m' ∈ m :: members, Plain depth m'.2)
    (hread : ∀ m' ∈ m :: members, ReadBy value m'.2) (fuel : Nat) (hfuel : members.length ≤ fuel) :
    readMembers value (fuel + 1) (renderMembers (m :: members) ++ '\x7d' :: rest) =
      some (m :: members, rest) := by
  induction members generalizing m fuel with
  | nil =>
    obtain ⟨key, j⟩ := m
    have hplain : Plain depth j := hplain (key, j) List.mem_cons_self
    have hj := hread (key, j) List.mem_cons_self ('\x7d' :: rest) (closes_mark (by decide) rest)
    rw [renderMembers, List.append_assoc]
    refine readMembers_last (readString_skipBlanks key _) ?_
    exact (congrArg value (hplain.skipBlanks_render [] nofun _)).trans hj
  | cons m' members ih =>
    obtain ⟨fuel, rfl⟩ := Nat.exists_eq_add_of_le' hfuel
    obtain ⟨key, j⟩ := m
    obtain ⟨hplain, hplains⟩ := List.forall_mem_cons.mp hplain
    obtain ⟨hj, hreads⟩ := List.forall_mem_cons.mp hread
    have hrest := ih hplains hreads _ (Nat.le_add_left _ fuel)
    rw [renderMembers, List.append_assoc, List.append_assoc]
    · refine readMembers_next (readString_skipBlanks key _) ?_ hrest
      exact (congrArg value (hplain.skipBlanks_render [] nofun _)).trans
        (hj _ (closes_mark (by decide) _))
    · exact List.cons_ne_nil _ _

theorem setMember_of_lt {key : String} {members : List (String × Json)}
    (h : ∀ m ∈ members, m.1 < key) (j : Json) :
    setMember key j members = members ++ [(key, j)] := by
  induction members with
  | nil => rfl
  | cons m members ih =>
    obtain ⟨hlt, hrest⟩ := List.forall_mem_cons.mp h
    have hne : key ≠ m.1 := by
      rintro rfl
      exact String.lt_irrefl _ hlt
    rw [setMember, if_neg hne, if_neg (String.lt_asymm hlt), ih hrest, List.cons_append]

/-- Members with their keys in order make the object that has them. -/
theorem ofMembers_of_ordered {members : List (String × Json)}
    (h : (members.map (·.1)).Pairwise (· < ·)) : ofMembers members = .object members := by
  have hset : ∀ before : List (String × Json),
      ((before ++ members).map (·.1)).Pairwise (· < ·) →
        members.foldl (fun set m => setMember m.1 m.2 set) before = before ++ members := by
    clear h
    induction members with
    | nil =>
      intro before _
      exact (List.append_nil _).symm
    | cons m members ih =>
      intro before h
      have hlt : ∀ m' ∈ before, m'.1 < m.1 := by
        intro m' hm'
        rw [List.map_append, List.map_cons] at h
        exact (List.pairwise_append.mp h).2.2 _ (List.mem_map_of_mem hm') _ List.mem_cons_self
      rw [List.append_cons] at h ⊢
      rw [List.foldl_cons, setMember_of_lt hlt]
      exact ih (before ++ [m]) h
  rw [ofMembers, hset [] h, List.nil_append]

end Lists

/-! ## Values -/

theorem length_le_intercalate (mark : Char) (gap : List Char) (pieces : List (List Char)) :
    pieces.length ≤ ((mark :: gap).intercalate pieces).length + 1 := by
  induction pieces with
  | nil => exact Nat.zero_le _
  | cons piece pieces ih =>
    cases pieces with
    | nil => exact Nat.le_add_left 1 _
    | cons piece' pieces =>
      rw [List.intercalate_cons_cons]
      simp only [List.length_append, List.length_cons] at ih ⊢
      omega

theorem exists_renderMembers_cons (m : String × Json) (members : List (String × Json)) :
    ∃ cs, renderMembers (m :: members) = '"' :: cs := by
  obtain ⟨key, j⟩ := m
  cases members with
  | nil =>
    rw [renderMembers, renderString]
    exact ⟨_, rfl⟩
  | cons m' members =>
    rw [renderMembers, renderString]
    · exact ⟨_, rfl⟩
    · exact List.cons_ne_nil _ _

theorem length_le_renderMembers (members : List (String × Json)) :
    members.length ≤ (renderMembers members).length := by
  induction members with
  | nil => exact Nat.zero_le _
  | cons m members ih =>
    obtain ⟨key, j⟩ := m
    cases members with
    | nil =>
      rw [renderMembers, renderString, List.cons_append, List.length_append, List.length_cons]
      exact Nat.le_add_left 1 _
    | cons m' members =>
      rw [renderMembers]
      · simp only [List.length_append, List.length_cons] at ih ⊢
        omega
      · exact List.cons_ne_nil _ _

/-- What starts with none of the other marks is read as a number. -/
theorem readValue_number (depth : Nat) {c : Char} (hc : c = '-' ∨ c.isDigit = true)
    (cs : List Char) : readValue depth (c :: cs) = readNumber (c :: cs) := by
  rw [readValue]
  all_goals
    rintro rfl
    revert hc
    decide

theorem readValue_bracket (depth : Nat) {c : Char} (hc : c ∈ openers) (cs : List Char) :
    readValue (depth + 1) ('[' :: c :: cs) =
      (readItems (readValue depth) (cs.length + 1) (c :: cs)).map fun x => (.array x.1, x.2) := by
  refine (readValue.eq_def (depth + 1) _).trans ?_
  simp only [skipBlanks_of_opener hc]
  split
  · rename_i heq
    obtain ⟨rfl, -⟩ := List.cons.inj heq
    exact absurd rfl (of_mem_openers _ hc).2.2.1
  · rfl

theorem readValue_brace (depth : Nat) (cs : List Char) :
    readValue (depth + 1) ('\x7b' :: '"' :: cs) =
      (readMembers (readValue depth) (cs.length + 1) ('"' :: cs)).map
        fun x => (ofMembers x.1, x.2) :=
  readValue.eq_def (depth + 1) _

theorem readValue_array {depth : Nat} (gap : List Char) (hgap : ∀ c ∈ gap, isJsonBlank c = true)
    {items : List Json} (hplain : ∀ j ∈ items, Plain depth j)
    (hread : ∀ j ∈ items, ReadBy (readValue depth) j) (rest : List Char) :
    readValue (depth + 1) ('[' :: ((',' :: gap).intercalate (items.map render) ++ ']' :: rest)) =
      some (.array items, rest) := by
  cases items with
  | nil => rfl
  | cons j items =>
    have hitems := fun fuel hfuel =>
      readItems_intercalate gap hgap rest hplain hread fuel hfuel [] nofun
    have hlength := length_le_intercalate ',' gap ((j :: items).map render)
    rw [List.length_map, List.length_cons] at hlength
    obtain ⟨c, cs, hcs, hc⟩ : ∃ c cs, (',' :: gap).intercalate ((j :: items).map render) = c :: cs ∧
        c ∈ openers := by
      obtain ⟨c, cs, hcs, hc⟩ := (hplain j List.mem_cons_self).exists_render_cons
      cases items with
      | nil =>
        rw [List.map_cons, List.map_nil, List.intercalate_singleton]
        exact ⟨c, cs, hcs, hc⟩
      | cons j' items =>
        rw [List.map_cons, List.map_cons, List.intercalate_cons_cons, hcs]
        exact ⟨c, _, rfl, hc⟩
    rw [hcs] at hitems hlength ⊢
    rw [List.length_cons] at hlength
    rw [List.cons_append, readValue_bracket depth hc]
    have hfuel : items.length ≤ (cs ++ ']' :: rest).length := by
      rw [List.length_append, List.length_cons]
      omega
    exact (congrArg (Option.map _) (hitems _ hfuel)).trans rfl

theorem readValue_object {depth : Nat} {members : List (String × Json)}
    (hkeys : (members.map (·.1)).Pairwise (· < ·)) (hplain : ∀ m ∈ members, Plain depth m.2)
    (hread : ∀ m ∈ members, ReadBy (readValue depth) m.2) (rest : List Char) :
    readValue (depth + 1) ('\x7b' :: (renderMembers members ++ '\x7d' :: rest)) =
      some (.object members, rest) := by
  cases members with
  | nil => rfl
  | cons m members =>
    have hmembers := readMembers_render rest hplain hread
    have hlength := length_le_renderMembers (m :: members)
    obtain ⟨cs, hcs⟩ := exists_renderMembers_cons m members
    rw [hcs] at hmembers hlength ⊢
    rw [List.cons_append, readValue_brace]
    have hfuel : members.length ≤ (cs ++ '\x7d' :: rest).length := by
      rw [List.length_cons, List.length_cons] at hlength
      rw [List.length_append, List.length_cons]
      omega
    rw [show readMembers (readValue depth) _ ('"' :: (cs ++ _)) = _ from hmembers _ hfuel]
    show some (ofMembers (m :: members), rest) = _
    rw [ofMembers_of_ordered hkeys]

/-- **The text of a value is read as that value.**  Take any value without floats, whose objects
have their keys in order, and that nests at most `depth` deep.  With anything behind it that no
number goes on with, its text is read back as the value, and what stands behind is left. -/
theorem Plain.readValue_render {depth : Nat} {j : Json} (h : Plain depth j) :
    ReadBy (readValue depth) j := by
  intro rest hrest
  induction h generalizing rest with
  | null depth =>
    rw [render]
    exact readValue.eq_def depth ('n' :: _)
  | bool depth b =>
    cases b with
    | false =>
      rw [render]
      exact readValue.eq_def depth ('f' :: _)
    | true =>
      rw [render]
      exact readValue.eq_def depth ('t' :: _)
  | integer depth n =>
    obtain ⟨c, cs, hcs, hc⟩ := exists_renderInt_cons n.val
    have hnumber := readNumber_renderInt hrest n
    rw [hcs] at hnumber
    rw [render, hcs, List.cons_append, readValue_number depth hc]
    exact hnumber
  | string depth s =>
    rw [render, renderString, List.cons_append, List.cons_append, List.append_assoc]
    refine (readValue.eq_def depth _).trans ?_
    show (readText _).map _ = _
    rw [List.singleton_append, readText_flatMap]
    show some (Json.string (String.ofList s.toList), rest) = _
    rw [String.ofList_toList]
  | array hplain ih =>
    rw [render, renderItems_eq, List.cons_append, List.cons_append, List.append_assoc]
    exact readValue_array [] (fun c hc => absurd hc List.not_mem_nil) hplain ih rest
  | object hkeys hplain ih =>
    rw [render, List.cons_append, List.cons_append, List.append_assoc]
    exact readValue_object hkeys hplain ih rest

theorem parse?_of_readValue {c : Char} (hc : c ∈ openers) {cs : List Char} {j : Json}
    (h : readValue depthLimit (c :: cs) = some (j, [])) :
    parse? (String.ofList (c :: cs)) = some j := by
  rw [parse?, String.toList_ofList, parseWithin, skipBlanks_of_opener hc, h]
  rfl

end Json

namespace Arguments

open Json

theorem toList_format (args : List Json) :
    (format args).toList = [',', ' '].intercalate (args.map render) := by
  rw [format, String.toList_intercalate, List.map_map]
  congr 1
  exact List.map_congr_left fun j _ => String.toList_ofList

theorem parse_of_opener {c : Char} (hc : c ∈ openers) (cs : List Char) :
    parse (String.ofList (c :: cs)) =
      match parse? (String.ofList (c :: cs)) with
      | some (.array items) => items
      | some j => [j]
      | none => [.string (String.ofList (c :: cs))] := by
  refine if_neg ?_
  rw [String.toList_ofList, List.all_cons, (of_mem_openers c hc).2.1, Bool.false_and]
  exact Bool.false_ne_true

/-- **Arguments as they are shown are read as the arguments.**  Take any arguments without floats,
with the keys of their objects in order, and with arrays and objects nested at most 126 deep.  In
brackets, the text that is shown for them is read as the arguments; and the text of one argument,
if that is no array, is read as this one argument. -/
theorem parse_format :
    (∀ args : List Json, (∀ j ∈ args, j.Plain 126) →
      parse ("[" ++ format args ++ "]") = args) ∧
      ∀ j : Json, j.Plain 126 → (∀ items, j ≠ .array items) → parse (format [j]) = [j] := by
  constructor
  · intro args hplain
    have htext : "[" ++ format args ++ "]" =
        String.ofList ('[' :: ([',', ' '].intercalate (args.map render) ++ [']'])) := by
      apply String.toList_injective
      simp [toList_format]
    have hopens : '[' ∈ openers := by decide
    have hread := readValue_array [' '] (List.forall_mem_singleton.mpr rfl) hplain
      (fun j hj => (hplain j hj).readValue_render) []
    rw [htext, parse_of_opener hopens, parse?_of_readValue hopens hread]
  · intro j hplain harray
    obtain ⟨c, cs, hcs, hc⟩ := hplain.exists_render_cons
    have htext : format [j] = String.ofList (c :: cs) := by
      apply String.toList_injective
      rw [toList_format, List.map_singleton, List.intercalate_singleton, hcs, String.toList_ofList]
    have hread := hplain.succ.readValue_render [] closes_nil
    rw [List.append_nil, hcs] at hread
    rw [htext, parse_of_opener hc, parse?_of_readValue hc hread]
    cases j with
    | array items => exact absurd rfl (harray items)
    | _ => rfl

/-- Arguments with the largest and the smallest integer, with characters that are escaped, and with
objects. -/
def trickyArguments : List Json :=
  [.integer ⟨18446744073709551615, by decide⟩, .string "\"\\\u0007\n é",
    .array [.integer ⟨-9223372036854775808, by decide⟩, .array [], .integer ⟨0, by decide⟩],
    .object [("", .null), ("a", .bool true), ("é", .object [])]]

theorem parse_format_tricky :
    (∀ j ∈ trickyArguments, j.Plain 126) ∧
      parse ("[" ++ format trickyArguments ++ "]") = trickyArguments ∧
        parse (format [.object [("a", .bool true)]]) = [.object [("a", .bool true)]] := by
  have hplain : ∀ j ∈ trickyArguments, j.Plain 126 := by
    refine List.forall_mem_cons.mpr ⟨.integer _ _, List.forall_mem_cons.mpr ⟨.string _ _, ?_⟩⟩
    refine List.forall_mem_cons.mpr ⟨.array ?_, List.forall_mem_singleton.mpr (.object ?_ ?_)⟩
    · exact List.forall_mem_cons.mpr ⟨.integer _ _, List.forall_mem_cons.mpr ⟨.array nofun,
        List.forall_mem_singleton.mpr (.integer _ _)⟩⟩
    · decide
    · exact List.forall_mem_cons.mpr ⟨.null _, List.forall_mem_cons.mpr ⟨.bool _ true,
        List.forall_mem_singleton.mpr (.object .nil nofun)⟩⟩
  have hobject : Plain 126 (.object [("a", .bool true)]) := by
    refine .object (List.pairwise_singleton _ _) ?_
    intro m hm
    obtain rfl := List.mem_singleton.mp hm
    exact .bool _ true
  exact ⟨hplain, parse_format.1 _ hplain, parse_format.2 _ hobject nofun⟩

end Arguments

end ComponentHost
