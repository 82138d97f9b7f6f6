/-
# `ComponentHost.Proofs.Interface.Decoding` — what decoding can do, type by type

At each type the decoder does one of a few things: it finds the JSON it wants and has the
value at once; or it asks for what the types right below this one decode; or it refuses,
because another kind of JSON was wanted or because JSON knows nothing of the type.
`Decodes` has one constructor for each, and `decodes` says that there is no more to it:

    Decodes number ty j (ty.decodeWith number j)

The types below are smaller (`child_wf`).  So what is proved of decoding elsewhere is
proved by induction along `Child` and by cases on `Decodes`, and never opens the decoder.
-/
import ComponentHost.Interface.Encode
import Mathlib

namespace ComponentHost

/-! ## Steps that can fail -/

theorem mapM_eq_ok {ε α β : Type} {f : α → Except ε β} :
    ∀ {as : List α} {bs : List β},
      as.mapM f = .ok bs ↔ List.Forall₂ (fun a b => f a = .ok b) as bs
  | [], bs => by
      rw [List.mapM_nil, List.forall₂_nil_left_iff]
      exact ⟨fun h => (Except.ok.inj h).symm, fun h => h ▸ rfl⟩
  | a :: as, bs => by
      rw [List.mapM_cons, List.forall₂_cons_left_iff]
      constructor
      · intro h
        cases ha : f a with
        | error e =>
          rw [ha] at h
          cases h
        | ok b =>
          cases has : as.mapM f with
          | error e =>
            rw [ha, has] at h
            cases h
          | ok bs' =>
            rw [ha, has] at h
            cases h
            exact ⟨b, bs', rfl, mapM_eq_ok.mp has, rfl⟩
      · rintro ⟨b, bs', hb, hbs, rfl⟩
        rw [hb, mapM_eq_ok.mpr hbs]
        rfl

/-- What every step makes of its item, all of them make of the items in a row. -/
theorem forall₂_of_mapM {ε α β : Type} {f : α → Except ε β} {R : α → β → Prop} {as : List α}
    {bs : List β} (hf : ∀ a ∈ as, ∀ b, f a = .ok b → R a b) (h : as.mapM f = .ok bs) :
    List.Forall₂ R as bs :=
  ((List.forall₂_and_left as bs).mpr ⟨hf, mapM_eq_ok.mp h⟩).imp fun _ _ hab => hab.1 _ hab.2

theorem forall_of_forall₂ {α β : Type} {p : β → Prop} {as : List α} {bs : List β}
    (h : List.Forall₂ (fun _ b => p b) as bs) : ∀ b ∈ bs, p b := by
  intro b hb
  obtain ⟨i, hi, rfl⟩ := List.mem_iff_getElem.mp hb
  exact h.get (h.length_eq ▸ hi) hi

theorem mem_of_lookup {β : Type} {key : String} {b : β} {entries : List (String × β)}
    (h : entries.lookup key = some b) : (key, b) ∈ entries := by
  obtain ⟨before, behind, rfl, -⟩ := List.lookup_eq_some_iff.mp h
  exact List.mem_append_right before List.mem_cons_self

namespace Ty

variable {ε α β : Type} {e : ε}

theorem map_eq_ok {f : α → β} {x : Except ε α} {b : β} (h : x.map f = .ok b) :
    ∃ a, x = .ok a ∧ f a = b := by
  cases x with
  | error e => cases h
  | ok a => exact ⟨a, rfl, Except.ok.inj h⟩

theorem map_eq_error {f : α → β} {x : Except ε α} (h : x.map f = .error e) : x = .error e := by
  cases x with
  | error e' => exact congrArg Except.error (Except.error.inj h)
  | ok a => cases h

theorem bind_eq_error {f : α → Except ε β} {x : Except ε α} (h : (x >>= f) = .error e) :
    x = .error e ∨ ∃ a, x = .ok a ∧ f a = .error e := by
  cases x with
  | error e' => exact .inl (congrArg Except.error (Except.error.inj h))
  | ok a => exact .inr ⟨a, rfl, h⟩

end Ty

/-! ## JSON by its kind -/

namespace Json

/-- The JSON is a tag, and `value` is what goes with it: nothing with a bare string, the member
`val`, if there is one, with an object. -/
inductive Tagged : Json → String → Option Json → Prop
  | bare (tag : String) : Tagged (.string tag) tag none
  | members {members : List (String × Json)} {tag : String} :
      members.lookup "tag" = some (.string tag) →
      Tagged (.object members) tag (members.lookup "val")

theorem eq_bool {j : Json} {b : Bool} (h : j.bool? = some b) : j = .bool b := by
  cases j with
  | bool b' => exact congrArg Json.bool (Option.some.inj h)
  | _ => cases h

theorem eq_string {j : Json} {s : String} (h : j.string? = some s) : j = .string s := by
  cases j with
  | string s' => exact congrArg Json.string (Option.some.inj h)
  | _ => cases h

theorem exists_integer {j : Json} {n : Int} (h : j.integer? = some n) :
    ∃ k : Json.Integer, j = .integer k ∧ k.val = n := by
  cases j with
  | integer k => exact ⟨k, rfl, Option.some.inj h⟩
  | _ => cases h

end Json

namespace Ty

theorem tagged_of_tagged? {j : Json} {tag : String} {value : Option Json}
    (h : tagged? j = some (tag, value)) : j.Tagged tag value := by
  cases j with
  | string s =>
    cases h
    exact .bare tag
  | object members =>
    rw [tagged?] at h
    obtain ⟨j, hj, h⟩ := Option.bind_eq_some_iff.mp h
    obtain ⟨s, hs, h⟩ := Option.bind_eq_some_iff.mp h
    cases h
    exact .members (hj.trans (congrArg some (Json.eq_string hs)))
  | _ => cases h

theorem toList_of_onlyChar? {s : String} {c : Char} (h : onlyChar? s = some c) :
    s.toList = [c] := by
  rw [onlyChar?] at h
  split at h
  · rename_i c' hs
    rw [hs, Option.some.inj h]
  · cases h

/-! ## Types right below a type -/

/-- The first type stands right below the second one. -/
inductive Child : Ty → Ty → Prop
  | list (item : Ty) : Child item (.list item)
  | record {field : String × Ty} {fields : List (String × Ty)} : field ∈ fields →
      Child field.2 (.record fields)
  | tuple {item : Ty} {items : List Ty} : item ∈ items → Child item (.tuple items)
  | variant {name : String} {payload : Ty} {cases : List (String × Option Ty)} :
      (name, some payload) ∈ cases → Child payload (.variant cases)
  | option (payload : Ty) : Child payload (.option payload)
  | ok {payload : Ty} {ok err : Option Ty} : ok = some payload → Child payload (.result ok err)
  | err {payload : Ty} {ok err : Option Ty} : err = some payload → Child payload (.result ok err)

theorem Child.sizeOf_lt {p ty : Ty} (h : Child p ty) : sizeOf p < sizeOf ty := by
  cases h with
  | list | option => simp
  | ok h | err h =>
    subst h
    simp only [result.sizeOf_spec, Option.some.sizeOf_spec]
    omega
  | @record field fields hmem =>
    have hlt := List.sizeOf_lt_of_mem hmem
    have hfield : sizeOf field.2 < sizeOf field := by
      cases field
      simp
    simp only [record.sizeOf_spec]
    omega
  | tuple hmem =>
    have hlt := List.sizeOf_lt_of_mem hmem
    simp only [tuple.sizeOf_spec]
    omega
  | variant hmem =>
    have hlt := List.sizeOf_lt_of_mem hmem
    simp only [Prod.mk.sizeOf_spec, Option.some.sizeOf_spec] at hlt
    simp only [variant.sizeOf_spec]
    omega

theorem child_wf : WellFounded Child :=
  Subrelation.wf Child.sizeOf_lt (measure sizeOf).wf

variable {number : Json → Option Float}

theorem decodeCase_eq (tag : String) (payload : Option Json) (whole : Json) :
    ∀ cases : List (String × Option Ty),
      decodeCase number cases tag payload whole =
        match cases.lookup tag with
        | some ty => decodePayload number "variant payload" ty payload whole
        | none => mismatch "variant" whole
  | [] => by rw [decodeCase, List.lookup_nil]
  | (name, ty) :: cases => by
      rw [decodeCase, List.lookup_cons]
      by_cases h : name = tag
      · simp [h]
      · have hne : (tag == name) = false := by simpa using Ne.symm h
        rw [if_neg h, hne, decodeCase_eq tag payload whole cases]

theorem decodeFields_eq_mapM (members : List (String × Json)) :
    ∀ fields : List (String × Ty),
      decodeFields number fields members =
        fields.mapM fun f =>
          (decodeWith number f.2 ((members.lookup f.1).getD .null)).map (f.1, ·)
  | [] => by
      rw [decodeFields]
      rfl
  | (name, ty) :: fields => by
      rw [decodeFields, List.mapM_cons, decodeFields_eq_mapM members fields]
      cases decodeWith number ty ((members.lookup name).getD .null) <;> rfl

theorem decodeItems_eq_mapM :
    ∀ (types : List Ty) (js : List Json),
      decodeItems number types js = (types.zip js).mapM fun x => decodeWith number x.1 x.2
  | ty :: types, j :: js => by
      rw [decodeItems, List.zip_cons_cons, List.mapM_cons, decodeItems_eq_mapM types js]
  | [], js => by
      rw [decodeItems, List.zip_nil_left]
      · rfl
      · intro _ _ _ _ h
        cases h
  | ty :: types, [] => by
      rw [decodeItems, List.zip_nil_right]
      · rfl
      · intro _ _ _ _ _ h
        cases h

theorem decodeWith_option {ty : Ty} {j : Json} (h : j ≠ .null) :
    decodeWith number (.option ty) j = (decodeWith number ty j).map fun d => .option (some d) := by
  cases j with
  | null => exact absurd rfl h
  | _ => rw [decodeWith]; exact fun h => nomatch h

/-- Decoding the JSON by the type ends as given. -/
inductive Decodes (number : Json → Option Float) : Ty → Json → Except DecodeError Datum → Prop
  /-- Something else was wanted. -/
  | misfit (ty : Ty) (expected : String) (j : Json) :
      Decodes number ty j (.error (.mismatch expected j.kind))
  | bool (b : Bool) : Decodes number .bool (.bool b) (.ok (.bool b))
  | int {w : Width} {k : Json.Integer} (h : w.low ≤ k.val ∧ k.val ≤ w.high) :
      Decodes number (.int w) (.integer k) (.ok (.int w ⟨k.val, h⟩))
  | f32 {j : Json} {x : Float} (h : number j = some x) :
      Decodes number .f32 j (.ok (.f32 x.toFloat32))
  | f64 {j : Json} {x : Float} (h : number j = some x) : Decodes number .f64 j (.ok (.f64 x))
  | char {s : String} {c : Char} (h : s.toList = [c]) :
      Decodes number .char (.string s) (.ok (.char c))
  | string (s : String) : Decodes number .string (.string s) (.ok (.string s))
  | list {item : Ty} {js : List Json} {r : Except DecodeError Datum}
      (h : (js.mapM (decodeWith number item)).map .list = r) :
      Decodes number (.list item) (.array js) r
  | record {fields : List (String × Ty)} {members : List (String × Json)}
      {r : Except DecodeError Datum}
      (h : (fields.mapM fun f =>
        (decodeWith number f.2 ((members.lookup f.1).getD .null)).map (f.1, ·)).map .record = r) :
      Decodes number (.record fields) (.object members) r
  | tuple {types : List Ty} {js : List Json} {r : Except DecodeError Datum}
      (hlen : js.length = types.length)
      (h : ((types.zip js).mapM fun x => decodeWith number x.1 x.2).map .tuple = r) :
      Decodes number (.tuple types) (.array js) r
  | variant {cases : List (String × Option Ty)} {j : Json} {tag : String} {value : Option Json}
      {ty : Option Ty} {r : Except DecodeError Datum} (htag : j.Tagged tag value)
      (hcase : cases.lookup tag = some ty)
      (h : (decodePayload number "variant payload" ty value j).map (.variant tag) = r) :
      Decodes number (.variant cases) j r
  | enum {name : String} {names : List String} (h : name ∈ names) :
      Decodes number (.enum names) (.string name) (.ok (.enum name))
  | nothing (ty : Ty) : Decodes number (.option ty) .null (.ok (.option none))
  | something {ty : Ty} {j : Json} {r : Except DecodeError Datum} (hj : j ≠ .null)
      (h : (decodeWith number ty j).map (fun d => .option (some d)) = r) :
      Decodes number (.option ty) j r
  | ok {okTy errTy : Option Ty} {j : Json} {value : Option Json} {r : Except DecodeError Datum}
      (htag : j.Tagged "ok" value)
      (h : (decodePayload number "result payload" okTy value j).map .ok = r) :
      Decodes number (.result okTy errTy) j r
  | err {okTy errTy : Option Ty} {j : Json} {value : Option Json} {r : Except DecodeError Datum}
      (htag : j.Tagged "err" value)
      (h : (decodePayload number "result payload" errTy value j).map .err = r) :
      Decodes number (.result okTy errTy) j r
  | flags {names set : List String} {j : Json} (hset : flagNames? j = some set)
      (h : set ⊆ names) : Decodes number (.flags names) j (.ok (.flags set))
  | own (resource : String) (j : Json) :
      Decodes number (.own resource) j (.error (.unsupported "resource"))
  | borrow (resource : String) (j : Json) :
      Decodes number (.borrow resource) j (.error (.unsupported "resource"))
  | async (kind : AsyncKind) (text : String) (j : Json) :
      Decodes number (.async kind text) j (.error (.unsupported text))

/-- There is no other way for decoding to end. -/
theorem decodes (ty : Ty) (j : Json) : Decodes number ty j (decodeWith number ty j) := by
  cases ty with
  | bool =>
    rw [decodeWith]
    split
    · rename_i b hb
      exact Json.eq_bool hb ▸ .bool b
    · exact .misfit _ _ _
  | int w =>
    rw [decodeWith]
    split
    · rename_i n hn
      obtain ⟨k, rfl, rfl⟩ := Json.exists_integer hn
      split
      · rename_i hbounds
        exact .int hbounds
      · exact .misfit _ _ _
    · exact .misfit _ _ _
  | f32 =>
    rw [decodeWith]
    split
    · rename_i x hx
      exact .f32 hx
    · exact .misfit _ _ _
  | f64 =>
    rw [decodeWith]
    split
    · rename_i x hx
      exact .f64 hx
    · exact .misfit _ _ _
  | char =>
    rw [decodeWith]
    split
    · rename_i c hc
      obtain ⟨s, hs, hc⟩ := Option.bind_eq_some_iff.mp hc
      exact Json.eq_string hs ▸ .char (toList_of_onlyChar? hc)
    · exact .misfit _ _ _
  | string =>
    rw [decodeWith]
    split
    · rename_i s hs
      exact Json.eq_string hs ▸ .string s
    · exact .misfit _ _ _
  | list item =>
    cases j with
    | array js =>
      rw [decodeWith]
      exact .list rfl
    | _ =>
      rw [decodeWith]
      · exact .misfit _ _ _
      · intro js h
        cases h
  | record fields =>
    cases j with
    | object members =>
      rw [decodeWith, decodeFields_eq_mapM]
      exact .record rfl
    | _ =>
      rw [decodeWith]
      · exact .misfit _ _ _
      · intro members h
        cases h
  | tuple types =>
    cases j with
    | array js =>
      rw [decodeWith, decodeItems_eq_mapM]
      split
      · rename_i hlen
        exact .tuple hlen rfl
      · exact .misfit _ _ _
    | _ =>
      rw [decodeWith]
      · exact .misfit _ _ _
      · intro js h
        cases h
  | variant cases =>
    rw [decodeWith]
    split
    · rename_i tag value htag
      rw [decodeCase_eq]
      split
      · rename_i ty hcase
        exact .variant (tagged_of_tagged? htag) hcase rfl
      · exact .misfit _ _ _
    · exact .misfit _ _ _
  | enum names =>
    rw [decodeWith]
    split
    · rename_i name hname
      split
      · rename_i hmem
        exact Json.eq_string hname ▸ .enum (List.contains_iff_mem.mp hmem)
      · exact .misfit _ _ _
    · exact .misfit _ _ _
  | option ty =>
    by_cases hj : j = .null
    · subst hj
      rw [decodeWith]
      exact .nothing ty
    · rw [decodeWith_option hj]
      exact .something hj rfl
  | result okTy errTy =>
    rw [decodeWith]
    split
    · rename_i tag value htag
      split
      · rename_i hok
        exact .ok (hok ▸ tagged_of_tagged? htag) rfl
      · split
        · rename_i herr
          exact .err (herr ▸ tagged_of_tagged? htag) rfl
        · exact .misfit _ _ _
    · exact .misfit _ _ _
  | flags names =>
    rw [decodeWith]
    split
    · rename_i set hset
      split
      · exact .misfit _ _ _
      · rename_i hfind
        refine .flags hset fun name hname => ?_
        simpa using List.find?_eq_none.mp hfind name hname
    · exact .misfit _ _ _
  | own resource =>
    rw [decodeWith]
    exact .own resource j
  | borrow resource =>
    rw [decodeWith]
    exact .borrow resource j
  | async kind text =>
    rw [decodeWith]
    exact .async kind text j

theorem decodes_of_eq {ty : Ty} {j : Json} {r : Except DecodeError Datum}
    (h : decodeWith number ty j = r) : Decodes number ty j r :=
  h ▸ decodes ty j

/-! ## Payloads -/

section Payload

variable {expected : String} {ty : Option Ty} {value : Option Json} {whole : Json}

theorem decodePayload_eq_ok {payload : Option Datum}
    (h : decodePayload number expected ty value whole = .ok payload) :
    ty = none ∧ payload = none ∨
      ∃ t j d, ty = some t ∧ value = some j ∧ payload = some d ∧ decodeWith number t j = .ok d := by
  cases ty with
  | none =>
    rw [decodePayload] at h
    exact .inl ⟨rfl, (Except.ok.inj h).symm⟩
  | some t =>
    cases value with
    | none =>
      rw [decodePayload] at h
      cases h
    | some j =>
      rw [decodePayload] at h
      obtain ⟨d, hd, rfl⟩ := map_eq_ok h
      exact .inr ⟨t, j, d, rfl, rfl, rfl, hd⟩

end Payload

end Ty

end ComponentHost
