/-
# `ComponentHost.Proofs.Interface.RoundTrip` — values that JSON carries exactly

A value goes over into JSON without its type, and is read back by its type.  For types
without floats, resources and the like nothing is lost on the way, however deep they are nested:

    d.HasType ty,  ty.Plain,  d.Definite   ⟹   d.encode = .ok j  and  ty.decode j = .ok d

The reader takes more than the writer makes: bare tags, missing fields, flags as an
object.  What it makes of those is definite and of the type, so it too goes over and
comes back.  Definiteness is what cannot be dropped: `some none` is written as null, and
null is read as `none`.
-/
import ComponentHost.Entry.Module
import ComponentHost.Proofs.Interface.Typing

namespace ComponentHost

/-! ## Members of objects -/

namespace Json

theorem lookup_setMember (key k : String) (value : Json) :
    ∀ members : List (String × Json),
      (setMember key value members).lookup k = if k = key then some value else members.lookup k
  | [] => by
      rw [setMember, List.lookup_cons, List.lookup_nil]
      by_cases h : k = key
      · simp [h]
      · simp [h, beq_eq_false_iff_ne.mpr h]
  | (k', v) :: rest => by
      have ih := lookup_setMember key k value rest
      rw [setMember]
      by_cases h : k = key
      · subst h
        rw [if_pos rfl] at ih ⊢
        by_cases hk : k = k'
        · simp [hk]
        · rw [if_neg hk]
          split
          · simp
          · simp [List.lookup_cons, beq_eq_false_iff_ne.mpr hk, ih]
      · have hne : (k == key) = false := beq_eq_false_iff_ne.mpr h
        rw [if_neg h] at ih ⊢
        split
        · rename_i hkey
          subst hkey
          simp [List.lookup_cons, hne]
        · split
          · simp [List.lookup_cons, hne]
          · simp [List.lookup_cons, ih]

/-- Members in the order in which they are set; `set` holds those before them. -/
theorem lookup_foldl_setMember {k : String} :
    ∀ {members : List (String × Json)} (set : List (String × Json)), k ∉ members.map (·.1) →
      (members.foldl (fun set m => setMember m.1 m.2 set) set).lookup k = set.lookup k
  | [], _, _ => rfl
  | (key, value) :: members, set, h => by
      rw [List.map_cons, List.mem_cons, not_or] at h
      rw [List.foldl_cons, lookup_foldl_setMember _ h.2, lookup_setMember, if_neg h.1]

theorem lookup_foldl_of_mem {k : String} {j : Json} :
    ∀ {members : List (String × Json)} (set : List (String × Json)),
      (members.map (·.1)).Nodup → (k, j) ∈ members →
      (members.foldl (fun set m => setMember m.1 m.2 set) set).lookup k = some j
  | (key, value) :: members, set, hnodup, hmem => by
      rw [List.map_cons, List.nodup_cons] at hnodup
      rw [List.foldl_cons]
      rcases List.mem_cons.mp hmem with heq | hmem
      · obtain ⟨rfl, rfl⟩ := Prod.mk.inj heq
        rw [lookup_foldl_setMember _ hnodup.1, lookup_setMember, if_pos rfl]
      · exact lookup_foldl_of_mem _ hnodup.2 hmem

end Json

/-! ## Plain types -/

namespace Ty

mutual

/-- There are no floats and no resources in the type and nothing else that stays with the engine,
and the fields of each record in it have names of their own. -/
def Plain : Ty → Prop
  | .bool | .int _ | .char | .string | .enum _ | .flags _ => True
  | .f32 | .f64 | .own _ | .borrow _ | .async .. => False
  | .list item => item.Plain
  | .record fields => (fields.map (·.1)).Nodup ∧ FieldsPlain fields
  | .tuple items => ItemsPlain items
  | .variant cases => CasesPlain cases
  | .option payload => payload.Plain
  | .result ok err => PayloadPlain ok ∧ PayloadPlain err

def FieldsPlain : List (String × Ty) → Prop
  | [] => True
  | (_, ty) :: fields => ty.Plain ∧ FieldsPlain fields

def ItemsPlain : List Ty → Prop
  | [] => True
  | ty :: items => ty.Plain ∧ ItemsPlain items

def CasesPlain : List (String × Option Ty) → Prop
  | [] => True
  | (_, ty) :: cases => PayloadPlain ty ∧ CasesPlain cases

def PayloadPlain : Option Ty → Prop
  | none => True
  | some ty => ty.Plain

end

theorem CasesPlain.lookup {label : String} {ty : Option Ty} :
    ∀ {cases : List (String × Option Ty)}, CasesPlain cases → cases.lookup label = some ty →
      PayloadPlain ty
  | (name, ty') :: cases, h, hlookup => by
      rw [List.lookup_cons] at hlookup
      split at hlookup
      · exact Option.some.inj hlookup ▸ h.1
      · exact h.2.lookup hlookup

theorem tagged?_tagJson (tag : String) (payload : Option Json) :
    tagged? (Datum.tagJson tag payload) = some (tag, payload) := by
  cases payload with
  | none => rfl
  | some j =>
    simp only [Datum.tagJson, Json.ofMembers, tagged?, List.foldl_cons, List.foldl_nil,
      Json.lookup_setMember]
    rfl

theorem flagNames?_strings : ∀ names : List String,
    flagNames? (.array (names.map .string)) = some names
  | [] => rfl
  | name :: names => by
      have ih : (names.map Json.string).mapM Json.string? = some names := flagNames?_strings names
      rw [flagNames?, List.map_cons, List.mapM_cons, ih]
      rfl

end Ty

/-! ## There and back -/

namespace Datum

/-- The value goes over into `j`, and `j` is read as the value. -/
structure Carried (number : Json → Option Float) (ty : Ty) (d : Datum) (j : Json) : Prop where
  encoded : d.encode = .ok j
  decoded : ty.decodeWith number j = .ok d
  /-- Null stands for nothing else than an option without a payload. -/
  null : j = .null → d = .option none

variable {number : Json → Option Float}

theorem exists_carried {ty : Ty} : ∀ {items : List Datum},
    (∀ d ∈ items, ∃ j, Carried number ty d j) →
      ∃ js, encodeItems items = .ok js ∧ js.mapM (ty.decodeWith number) = .ok items
  | [], _ => ⟨[], rfl, rfl⟩
  | d :: items, h => by
      obtain ⟨⟨j, hj⟩, hrest⟩ := List.forall_mem_cons.mp h
      obtain ⟨js, hencode, hdecode⟩ := exists_carried hrest
      refine ⟨j :: js, ?_, ?_⟩
      · rw [encodeItems, hj.encoded, hencode]
        rfl
      · rw [List.mapM_cons, hj.decoded, hdecode]
        rfl

mutual

theorem HasType.carried : ∀ {d : Datum} {ty : Ty}, d.HasType ty → ty.Plain → d.Definite →
    ∃ j, Carried number ty d j
  | _, _, .bool b, _, _ => ⟨.bool b, rfl, rfl, nofun⟩
  | _, _, .int n, _, _ => by
      refine ⟨intJson _ n, rfl, ?_, nofun⟩
      rw [Ty.decodeWith]
      exact dif_pos n.property
  | _, _, .char c, _, _ => by
      refine ⟨.string (String.ofList [c]), rfl, ?_, nofun⟩
      simp [Ty.decodeWith, Json.string?, Ty.onlyChar?]
  | _, _, .string s, _, _ => ⟨.string s, rfl, rfl, nofun⟩
  | _, _, .list h, hplain, hd => by
      obtain ⟨js, hencode, hdecode⟩ := exists_carried fun d hmem =>
        (h d hmem).carried hplain (itemsDefinite_iff.mp hd d hmem)
      refine ⟨.array js, ?_, ?_, nofun⟩
      · rw [encode, hencode]
        rfl
      · rw [Ty.decodeWith, hdecode]
        rfl
  | _, _, .record h, hplain, hd => by
      obtain ⟨members, hencode, hkeys, hdecode⟩ := h.carried hplain.2 hd
      refine ⟨Json.ofMembers members, ?_, ?_, nofun⟩
      · rw [encode, hencode]
        rfl
      · rw [Json.ofMembers, Ty.decodeWith, hdecode]
        · rfl
        · exact fun m hm => Json.lookup_foldl_of_mem _ (hkeys ▸ hplain.1) hm
  | _, _, .tuple h, hplain, hd => by
      obtain ⟨js, hencode, hlen, hdecode⟩ := h.carried hplain hd
      refine ⟨.array js, ?_, ?_, nofun⟩
      · rw [encode, hencode]
        rfl
      · rw [Ty.decodeWith, if_pos hlen, hdecode]
        rfl
  | .variant label _, _, .variant hlookup h, hplain, hd => by
      obtain ⟨payload, hencode, hdecode⟩ := h.carried (Ty.CasesPlain.lookup hplain hlookup) hd
      refine ⟨tagJson label payload, ?_, ?_, by cases payload <;> exact nofun⟩
      · rw [encode, hencode]
        rfl
      · rw [Ty.decodeWith, Ty.tagged?_tagJson]
        simp only [Ty.decodeCase_eq, hlookup, hdecode]
        rfl
  | .enum name, _, .enum h, _, _ => by
      refine ⟨.string name, rfl, ?_, nofun⟩
      rw [Ty.decodeWith]
      exact if_pos (List.contains_iff_mem.mpr h)
  | .option none, _, .option _, _, _ => ⟨.null, rfl, by rw [Ty.decodeWith], fun _ => rfl⟩
  | .option (some d), _, .option h, hplain, hd => by
      obtain ⟨j, hj⟩ := (h d rfl).carried hplain hd.2
      have hne : j ≠ .null := fun hnull => hd.1 (congrArg some (hj.null hnull))
      refine ⟨j, ?_, ?_, fun hnull => absurd hnull hne⟩
      · rw [encode, encodePayload, hj.encoded]
        rfl
      · rw [Ty.decodeWith_option hne, hj.decoded]
        rfl
  | _, _, .ok h, hplain, hd => by
      obtain ⟨payload, hencode, hdecode⟩ := h.carried hplain.1 hd
      refine ⟨tagJson "ok" payload, ?_, ?_, by cases payload <;> exact nofun⟩
      · rw [encode, hencode]
        rfl
      · rw [Ty.decodeWith, Ty.tagged?_tagJson]
        simp only [if_true, hdecode]
        rfl
  | _, _, .err h, hplain, hd => by
      obtain ⟨payload, hencode, hdecode⟩ := h.carried hplain.2 hd
      refine ⟨tagJson "err" payload, ?_, ?_, by cases payload <;> exact nofun⟩
      · rw [encode, hencode]
        rfl
      · rw [Ty.decodeWith, Ty.tagged?_tagJson]
        simp only [if_true, hdecode]
        rfl
  | .flags set, _, .flags h, _, _ => by
      refine ⟨.array (set.map .string), rfl, ?_, nofun⟩
      have hfind : set.find? (!(_ : List String).contains ·) = none :=
        List.find?_eq_none.mpr fun name hname => by simpa using h hname
      rw [Ty.decodeWith, Ty.flagNames?_strings]
      simp only [hfind]

theorem FieldsHaveType.carried : ∀ {fields : List (String × Datum)} {types : List (String × Ty)},
    FieldsHaveType fields types → Ty.FieldsPlain types → FieldsDefinite fields →
      ∃ members, encodeFields fields = .ok members ∧ members.map (·.1) = types.map (·.1) ∧
        ∀ set : List (String × Json), (∀ m ∈ members, set.lookup m.1 = some m.2) →
          Ty.decodeFields number types set = .ok fields
  | _, _, .nil, _, _ => ⟨[], rfl, rfl, fun _ _ => rfl⟩
  | (name, _) :: _, _, .cons h hs, hplain, hd => by
      obtain ⟨j, hj⟩ := h.carried hplain.1 hd.1
      obtain ⟨members, hencode, hkeys, hdecode⟩ := hs.carried hplain.2 hd.2
      refine ⟨(name, j) :: members, ?_, congrArg (name :: ·) hkeys, fun set hset => ?_⟩
      · rw [encodeFields, hj.encoded, hencode]
        rfl
      · obtain ⟨hfirst, hrest⟩ := List.forall_mem_cons.mp hset
        rw [Ty.decodeFields, hfirst, Option.getD_some, hj.decoded, hdecode set hrest]
        rfl

theorem ItemsHaveType.carried : ∀ {items : List Datum} {types : List Ty},
    ItemsHaveType items types → Ty.ItemsPlain types → ItemsDefinite items →
      ∃ js, encodeItems items = .ok js ∧ js.length = types.length ∧
        Ty.decodeItems number types js = .ok items
  | _, _, .nil, _, _ => ⟨[], rfl, rfl, rfl⟩
  | _, _, .cons h hs, hplain, hd => by
      obtain ⟨j, hj⟩ := h.carried hplain.1 hd.1
      obtain ⟨js, hencode, hlen, hdecode⟩ := hs.carried hplain.2 hd.2
      refine ⟨j :: js, ?_, congrArg Nat.succ hlen, ?_⟩
      · rw [encodeItems, hj.encoded, hencode]
        rfl
      · rw [Ty.decodeItems, hj.decoded, hdecode]
        rfl

theorem PayloadHasType.carried : ∀ {payload : Option Datum} {ty : Option Ty},
    PayloadHasType payload ty → Ty.PayloadPlain ty → PayloadDefinite payload →
      ∃ j, encodePayload payload = .ok j ∧ ∀ expected whole,
        Ty.decodePayload number expected ty j whole = .ok payload
  | _, _, .none, _, _ => ⟨none, rfl, fun _ _ => by rw [Ty.decodePayload]⟩
  | _, _, .some h, hplain, hd => by
      obtain ⟨j, hj⟩ := h.carried hplain hd
      refine ⟨some j, ?_, fun expected whole => ?_⟩
      · rw [encodePayload, hj.encoded]
        rfl
      · rw [Ty.decodePayload, hj.decoded]
        rfl

end

end Datum

/-! ## Arguments and results -/

namespace BoundFunction

theorem convertFrom_single {index : Nat} {ty : Ty} {j : Json} {d : Datum} :
    convertFrom index [ty] [j] = .ok [d] ↔ ty.decode j = .ok d := by
  rw [convertFrom]
  cases ty.decode j with
  | error e => exact ⟨nofun, nofun⟩
  | ok d' =>
    constructor
    · intro h
      cases h
      rfl
    · intro h
      cases h
      rfl

/-- **Results can be given back as arguments.**  At a plain type, a definite value of the type goes
over into JSON, and that JSON is converted to the value, whichever argument it is.  Whatever is
converted at all is converted to a definite value of the type, which therefore goes over and comes
back too. -/
theorem convert_encode {ty : Ty} (hplain : ty.Plain) :
    (∀ d : Datum, d.HasType ty → d.Definite →
      ∃ j, d.encode = .ok j ∧ ∀ index, convertFrom index [ty] [j] = .ok [d]) ∧
    ∀ index j d, convertFrom index [ty] [j] = .ok [d] →
      d.HasType ty ∧ d.Definite ∧
        ∃ j', d.encode = .ok j' ∧ ∀ index', convertFrom index' [ty] [j'] = .ok [d] := by
  have hback : ∀ d : Datum, d.HasType ty → d.Definite →
      ∃ j, d.encode = .ok j ∧ ∀ index, convertFrom index [ty] [j] = .ok [d] := by
    intro d htype hdefinite
    obtain ⟨j, hj⟩ := htype.carried hplain hdefinite
    exact ⟨j, hj.encoded, fun index => convertFrom_single.mpr hj.decoded⟩
  refine ⟨hback, fun index j d h => ?_⟩
  obtain ⟨htype, hdefinite⟩ := Ty.typed_of_decodeWith ty (convertFrom_single.mp h)
  exact ⟨htype, hdefinite, hback d htype hdefinite⟩

/-- A type in which null, tags and arrays meet. -/
def reportTy : Ty :=
  .record
    [("sum", .option (.list (.int .u64))),
      ("end", .result (some (.option .bool)) (some (.flags ["r", "w"])))]

def report : Datum :=
  .record
    [("sum", .option (some (.list [.int .u64 ⟨2 ^ 64 - 1, by decide⟩]))),
      ("end", .ok (some (.option none)))]

theorem convert_encode_report :
    reportTy.Plain ∧ report.HasType reportTy ∧ report.Definite ∧
      ∃ j, report.encode = .ok j ∧ ∀ index, convertFrom index [reportTy] [j] = .ok [report] := by
  have hplain : reportTy.Plain := by
    simp [reportTy, Ty.Plain, Ty.FieldsPlain, Ty.PayloadPlain]
  have htype : report.HasType reportTy := by
    have hnothing : (Datum.option none).HasType (.option .bool) :=
      .option fun d hd => absurd hd (Option.not_mem_none d)
    refine .record (.cons (.option fun d hd => ?_) (.cons (.ok (.some hnothing)) .nil))
    obtain rfl := Option.some.inj hd
    exact .list fun d hd => List.mem_singleton.mp hd ▸ .int _
  have hdefinite : report.Definite := by
    simp [report, Datum.Definite, Datum.FieldsDefinite, Datum.PayloadDefinite,
      Datum.ItemsDefinite]
  exact ⟨hplain, htype, hdefinite, (convert_encode hplain).1 report htype hdefinite⟩

end BoundFunction

end ComponentHost
