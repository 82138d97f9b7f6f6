/-
# `ComponentHost.Proofs.Interface.Typing` — which values a type has

`d.HasType ty` says that the value belongs to the type.  It follows the shape of values
and knows nothing of JSON.  Two facts about what is decoded from JSON:

    ty.decode j = .ok d   ⟹   d.HasType ty
    ty.decode j = .ok d   ⟹   d.Definite

A value is definite when no option in it holds an option that holds nothing.  JSON has
one null only, so `some none` cannot be told from `none` in it, and the decoder never
makes the former.
-/
import ComponentHost.Proofs.Interface.Decoding

namespace ComponentHost

/-! ## Values and types -/

namespace Datum

mutual

/-- The value is one of the type. -/
inductive HasType : Datum → Ty → Prop
  | bool (b : Bool) : HasType (.bool b) .bool
  | int {w : Width} (n : w.Carrier) : HasType (.int w n) (.int w)
  | f32 (x : Float32) : HasType (.f32 x) .f32
  | f64 (x : Float) : HasType (.f64 x) .f64
  | char (c : Char) : HasType (.char c) .char
  | string (s : String) : HasType (.string s) .string
  | list {items : List Datum} {item : Ty} : (∀ d ∈ items, HasType d item) →
      HasType (.list items) (.list item)
  | record {fields : List (String × Datum)} {types : List (String × Ty)} :
      FieldsHaveType fields types → HasType (.record fields) (.record types)
  | tuple {items : List Datum} {types : List Ty} :
      ItemsHaveType items types → HasType (.tuple items) (.tuple types)
  | variant {label : String} {payload : Option Datum} {ty : Option Ty}
      {cases : List (String × Option Ty)} : cases.lookup label = some ty →
      PayloadHasType payload ty → HasType (.variant label payload) (.variant cases)
  | enum {name : String} {names : List String} : name ∈ names → HasType (.enum name) (.enum names)
  | option {payload : Option Datum} {ty : Ty} : (∀ d ∈ payload, HasType d ty) →
      HasType (.option payload) (.option ty)
  | ok {payload : Option Datum} {okTy errTy : Option Ty} : PayloadHasType payload okTy →
      HasType (.ok payload) (.result okTy errTy)
  | err {payload : Option Datum} {okTy errTy : Option Ty} : PayloadHasType payload errTy →
      HasType (.err payload) (.result okTy errTy)
  | flags {set names : List String} : set ⊆ names → HasType (.flags set) (.flags names)
  | own (serial : Nat) (resource : String) : HasType (.resource serial) (.own resource)
  | borrow (serial : Nat) (resource : String) : HasType (.resource serial) (.borrow resource)
  | async (kind : AsyncKind) (text type : String) : HasType (.async kind text) (.async kind type)

/-- The fields are those of a record, each with its name and its type, in their order. -/
inductive FieldsHaveType : List (String × Datum) → List (String × Ty) → Prop
  | nil : FieldsHaveType [] []
  | cons {name : String} {d : Datum} {ty : Ty} {fields : List (String × Datum)}
      {types : List (String × Ty)} : HasType d ty → FieldsHaveType fields types →
      FieldsHaveType ((name, d) :: fields) ((name, ty) :: types)

/-- The items are those of a tuple, each of its type. -/
inductive ItemsHaveType : List Datum → List Ty → Prop
  | nil : ItemsHaveType [] []
  | cons {d : Datum} {ty : Ty} {items : List Datum} {types : List Ty} : HasType d ty →
      ItemsHaveType items types → ItemsHaveType (d :: items) (ty :: types)

/-- There is a payload exactly when there is a type for it, and it is of that type. -/
inductive PayloadHasType : Option Datum → Option Ty → Prop
  | none : PayloadHasType none none
  | some {d : Datum} {ty : Ty} : HasType d ty → PayloadHasType (some d) (some ty)

end

mutual

/-- No option in the value holds an option that holds nothing. -/
def Definite : Datum → Prop
  | .list items | .tuple items => ItemsDefinite items
  | .record fields => FieldsDefinite fields
  | .option payload => payload ≠ some (.option none) ∧ PayloadDefinite payload
  | .variant _ payload | .ok payload | .err payload => PayloadDefinite payload
  | .bool _ | .int .. | .f32 _ | .f64 _ | .char _ | .string _ | .enum _ | .flags _
  | .resource _ | .async .. => True

def ItemsDefinite : List Datum → Prop
  | [] => True
  | d :: items => d.Definite ∧ ItemsDefinite items

def FieldsDefinite : List (String × Datum) → Prop
  | [] => True
  | (_, d) :: fields => d.Definite ∧ FieldsDefinite fields

def PayloadDefinite : Option Datum → Prop
  | none => True
  | some d => d.Definite

end

theorem itemsDefinite_iff : ∀ {items : List Datum},
    ItemsDefinite items ↔ ∀ d ∈ items, d.Definite
  | [] => by simp [ItemsDefinite]
  | d :: items => by
      rw [ItemsDefinite, itemsDefinite_iff, List.forall_mem_cons]

theorem fieldsDefinite_iff : ∀ {fields : List (String × Datum)},
    FieldsDefinite fields ↔ ∀ f ∈ fields, f.2.Definite
  | [] => by simp [FieldsDefinite]
  | (name, d) :: fields => by
      rw [FieldsDefinite, fieldsDefinite_iff, List.forall_mem_cons]

theorem fieldsHaveType_of_forall₂ {fields : List (String × Datum)} {types : List (String × Ty)}
    (h : List.Forall₂ (fun t f => f.1 = t.1 ∧ f.2.HasType t.2) types fields) :
    FieldsHaveType fields types := by
  induction h with
  | nil => exact .nil
  | @cons t f _ _ htype _ ih =>
    obtain ⟨name, ty⟩ := t
    obtain ⟨_, d⟩ := f
    obtain ⟨rfl, htype⟩ := htype
    exact .cons htype ih

theorem itemsHaveType_of_forall₂ {items : List Datum} {types : List Ty}
    (h : List.Forall₂ (fun ty d => d.HasType ty) types items) : ItemsHaveType items types := by
  induction h with
  | nil => exact .nil
  | cons htype _ ih => exact .cons htype ih

end Datum

/-! ## What decoding makes -/

namespace Ty

variable {number : Json → Option Float}

theorem ne_none_of_decodeWith {ty : Ty} {j : Json} {d : Datum} (hj : j ≠ .null)
    (h : decodeWith number ty j = .ok d) (hd : d.HasType ty) : d ≠ .option none := by
  rintro rfl
  cases hd with
  | option _ =>
    rw [decodeWith_option hj] at h
    obtain ⟨d, -, hd⟩ := map_eq_ok h
    cases hd

/-- The type decodes to definite values of the type only. -/
def DecodesTyped (number : Json → Option Float) (ty : Ty) : Prop :=
  ∀ j d, decodeWith number ty j = .ok d → d.HasType ty ∧ d.Definite

theorem typed_of_decodePayload {expected : String} {ty : Option Ty} {value : Option Json}
    {whole : Json} {payload : Option Datum} (hty : ∀ t, ty = some t → DecodesTyped number t)
    (h : decodePayload number expected ty value whole = .ok payload) :
    Datum.PayloadHasType payload ty ∧ Datum.PayloadDefinite payload := by
  rcases decodePayload_eq_ok h with ⟨rfl, rfl⟩ | ⟨t, j, d, rfl, rfl, rfl, hd⟩
  · exact ⟨.none, trivial⟩
  · obtain ⟨htype, hdefinite⟩ := hty t rfl j d hd
    exact ⟨.some htype, hdefinite⟩

theorem typed_of_decodeFields {types : List (String × Ty)} {members : List (String × Json)}
    {fields : List (String × Datum)} (htypes : ∀ t ∈ types, DecodesTyped number t.2)
    (h : (types.mapM fun t =>
      (decodeWith number t.2 ((members.lookup t.1).getD .null)).map (t.1, ·)) = .ok fields) :
    Datum.FieldsHaveType fields types ∧ Datum.FieldsDefinite fields := by
  have hall : List.Forall₂ (fun t f => (f.1 = t.1 ∧ f.2.HasType t.2) ∧ f.2.Definite)
      types fields := by
    refine forall₂_of_mapM (fun t ht f hf => ?_) h
    obtain ⟨d, hd, rfl⟩ := map_eq_ok hf
    obtain ⟨htype, hdefinite⟩ := htypes t ht _ d hd
    exact ⟨⟨rfl, htype⟩, hdefinite⟩
  exact ⟨Datum.fieldsHaveType_of_forall₂ (hall.imp fun _ _ h => h.1),
    Datum.fieldsDefinite_iff.mpr (forall_of_forall₂ (hall.imp fun _ _ h => h.2))⟩

theorem typed_of_decodeItems {types : List Ty} {js : List Json} {items : List Datum}
    (htypes : ∀ ty ∈ types, DecodesTyped number ty) (hlen : js.length = types.length)
    (h : ((types.zip js).mapM fun x => decodeWith number x.1 x.2) = .ok items) :
    Datum.ItemsHaveType items types ∧ Datum.ItemsDefinite items := by
  have hall : List.Forall₂ (fun x d => d.HasType x.1 ∧ d.Definite) (types.zip js) items :=
    forall₂_of_mapM (fun x hx => htypes x.1 (List.of_mem_zip hx).1 x.2) h
  have hzip : (types.zip js).map (·.1) = types := List.map_fst_zip (Nat.le_of_eq hlen.symm)
  have hitems : List.Forall₂ (fun ty d => d.HasType ty) ((types.zip js).map (·.1)) items :=
    List.forall₂_map_left_iff.mpr (hall.imp fun _ _ h => h.1)
  exact ⟨Datum.itemsHaveType_of_forall₂ (hzip ▸ hitems),
    Datum.itemsDefinite_iff.mpr (forall_of_forall₂ (hall.imp fun _ _ h => h.2))⟩

theorem typed_of_decodeWith (ty : Ty) {j : Json} {d : Datum} (h : decodeWith number ty j = .ok d) :
    d.HasType ty ∧ d.Definite := by
  induction ty using child_wf.induction generalizing j d with
  | _ ty ih =>
    have hbelow : ∀ t, Child t ty → DecodesTyped number t := fun t ht j d h => ih t ht h
    cases decodes_of_eq h with
    | bool b => exact ⟨.bool b, trivial⟩
    | int => exact ⟨.int _, trivial⟩
    | f32 => exact ⟨.f32 _, trivial⟩
    | f64 => exact ⟨.f64 _, trivial⟩
    | char => exact ⟨.char _, trivial⟩
    | string s => exact ⟨.string s, trivial⟩
    | @list item js _ h =>
      obtain ⟨items, hitems, rfl⟩ := map_eq_ok h
      have hall : ∀ d ∈ items, d.HasType item ∧ d.Definite :=
        forall_of_forall₂ ((mapM_eq_ok.mp hitems).imp (hbelow item (.list item)))
      exact ⟨.list fun d hd => (hall d hd).1,
        Datum.itemsDefinite_iff.mpr fun d hd => (hall d hd).2⟩
    | record h =>
      obtain ⟨fields, hfields, rfl⟩ := map_eq_ok h
      obtain ⟨htypes, hdefinite⟩ :=
        typed_of_decodeFields (fun t ht => hbelow t.2 (.record ht)) hfields
      exact ⟨.record htypes, hdefinite⟩
    | tuple hlen h =>
      obtain ⟨items, hitems, rfl⟩ := map_eq_ok h
      obtain ⟨htypes, hdefinite⟩ :=
        typed_of_decodeItems (fun t ht => hbelow t (.tuple ht)) hlen hitems
      exact ⟨.tuple htypes, hdefinite⟩
    | variant _ hcase h =>
      obtain ⟨payload, hpayload, rfl⟩ := map_eq_ok h
      obtain ⟨htype, hdefinite⟩ := typed_of_decodePayload
        (fun t ht => hbelow t (.variant (mem_of_lookup (ht ▸ hcase)))) hpayload
      exact ⟨.variant hcase htype, hdefinite⟩
    | enum hname => exact ⟨.enum hname, trivial⟩
    | nothing ty => exact ⟨.option fun d hd => (Option.not_mem_none d hd).elim, nofun, trivial⟩
    | @something ty _ _ hj h =>
      obtain ⟨d, hd, rfl⟩ := map_eq_ok h
      obtain ⟨htype, hdefinite⟩ := hbelow ty (.option ty) _ d hd
      refine ⟨.option fun d' hd' => Option.some.inj hd' ▸ htype, fun hnone => ?_, hdefinite⟩
      exact ne_none_of_decodeWith hj hd htype (Option.some.inj hnone)
    | ok _ h =>
      obtain ⟨payload, hpayload, rfl⟩ := map_eq_ok h
      obtain ⟨htype, hdefinite⟩ :=
        typed_of_decodePayload (fun t ht => hbelow t (.ok ht)) hpayload
      exact ⟨.ok htype, hdefinite⟩
    | err _ h =>
      obtain ⟨payload, hpayload, rfl⟩ := map_eq_ok h
      obtain ⟨htype, hdefinite⟩ :=
        typed_of_decodePayload (fun t ht => hbelow t (.err ht)) hpayload
      exact ⟨.err htype, hdefinite⟩
    | flags _ hset => exact ⟨.flags hset, trivial⟩

end Ty

end ComponentHost
