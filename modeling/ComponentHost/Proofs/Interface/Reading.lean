/-
# `ComponentHost.Proofs.Interface.Reading` — what a decoded value has to do with its JSON

A decoder that gives some value of the type, whatever the JSON says, is well typed too.
So that a value is of its type is one half of what is asked; the other half is that it
says what the JSON says.  `d.ReadFrom j` is that, and follows the shape of the value:

    integer              the JSON integer of the same value
    list, tuple          an array, item by item
    record               an object, each field its member, or null where there is none
    variant, result      the tag, bare or as a member, with the payload from `val`
    option               null, or what the payload is read from
    flags                an array of their names, or an object in which they are true

Where nothing is decoded the error says which argument it is about, or that the type
has a resource in it, or something else that stays with the engine, of which JSON knows
nothing.
-/
import ComponentHost.Entry.Module
import ComponentHost.Proofs.Interface.Typing

namespace ComponentHost

/-! ## Values and what they are read from -/

namespace Datum

mutual

/-- The value says what the JSON says. -/
inductive ReadFrom : Datum → Json → Prop
  | bool (b : Bool) : ReadFrom (.bool b) (.bool b)
  | int {w : Width} {n : w.Carrier} {k : Json.Integer} : n.val = k.val →
      ReadFrom (.int w n) (.integer k)
  | f32 {j : Json} {x : Float} : j.float? = some x → ReadFrom (.f32 x.toFloat32) j
  | f64 {j : Json} {x : Float} : j.float? = some x → ReadFrom (.f64 x) j
  | char {s : String} {c : Char} : s.toList = [c] → ReadFrom (.char c) (.string s)
  | string (s : String) : ReadFrom (.string s) (.string s)
  | list {items : List Datum} {js : List Json} : ItemsReadFrom items js →
      ReadFrom (.list items) (.array js)
  | record {fields : List (String × Datum)} {members : List (String × Json)} :
      FieldsReadFrom fields members → ReadFrom (.record fields) (.object members)
  | tuple {items : List Datum} {js : List Json} : ItemsReadFrom items js →
      ReadFrom (.tuple items) (.array js)
  | variant {label : String} {payload : Option Datum} {j : Json} {value : Option Json} :
      j.Tagged label value → PayloadReadFrom payload value → ReadFrom (.variant label payload) j
  | enum (name : String) : ReadFrom (.enum name) (.string name)
  | nothing : ReadFrom (.option none) .null
  | something {d : Datum} {j : Json} : j ≠ .null → ReadFrom d j → ReadFrom (.option (some d)) j
  | ok {payload : Option Datum} {j : Json} {value : Option Json} :
      j.Tagged "ok" value → PayloadReadFrom payload value → ReadFrom (.ok payload) j
  | err {payload : Option Datum} {j : Json} {value : Option Json} :
      j.Tagged "err" value → PayloadReadFrom payload value → ReadFrom (.err payload) j
  | listed (names : List String) : ReadFrom (.flags names) (.array (names.map .string))
  | marked (members : List (String × Json)) :
      ReadFrom (.flags ((members.filter fun m => m.2.bool? == some true).map (·.1)))
        (.object members)

/-- The items are read from those of an array, one from each. -/
inductive ItemsReadFrom : List Datum → List Json → Prop
  | nil : ItemsReadFrom [] []
  | cons {d : Datum} {j : Json} {items : List Datum} {js : List Json} : ReadFrom d j →
      ItemsReadFrom items js → ItemsReadFrom (d :: items) (j :: js)

/-- Each field is read from the member with its name, or from null where there is none. -/
inductive FieldsReadFrom : List (String × Datum) → List (String × Json) → Prop
  | nil (members : List (String × Json)) : FieldsReadFrom [] members
  | cons {name : String} {d : Datum} {fields : List (String × Datum)}
      {members : List (String × Json)} : ReadFrom d ((members.lookup name).getD .null) →
      FieldsReadFrom fields members → FieldsReadFrom ((name, d) :: fields) members

/-- A payload is read from what goes with the tag.  Where there is none, nobody looks. -/
inductive PayloadReadFrom : Option Datum → Option Json → Prop
  | none (value : Option Json) : PayloadReadFrom none value
  | some {d : Datum} {j : Json} : ReadFrom d j → PayloadReadFrom (some d) (some j)

end

end Datum

namespace Ty

end Ty

/-! ## Arguments -/

namespace BoundFunction

/-- An error context has no form in JSON, but an option of one has where there is none. -/
example : convertFrom 0 [.option (.async .errorContext "ErrorContext")] [.bool true] =
    .error (.unsupportedType "ErrorContext") ∧
      convertFrom 0 [.option (.async .errorContext "ErrorContext")] [.null] =
        .ok [.option none] := ⟨rfl, rfl⟩

/-- Inside a list, too, the argument at fault is the one that is converted. -/
example : convertFrom 2 [.list (.int .u8)] [.array [.integer ⟨255, by decide⟩,
    .integer ⟨256, by decide⟩]] = .error (.argumentType 2 "u8" "number") := rfl

end BoundFunction

end ComponentHost
