/-
# `ComponentHost.Interface.Ty` — the types of an interface

The types that parameters and results of a component's functions can have.  The
eight integer types are one constructor with a width; a width knows its bounds.
Futures, streams and error contexts stay with the engine; of such a type nothing is
known here but what it is and the text that the engine has for it.
-/

namespace ComponentHost

/-! ## Integer widths -/

inductive Width where
  | s8 | s16 | s32 | s64 | u8 | u16 | u32 | u64
  deriving DecidableEq, Repr

namespace Width

def name : Width → String
  | s8 => "s8"
  | s16 => "s16"
  | s32 => "s32"
  | s64 => "s64"
  | u8 => "u8"
  | u16 => "u16"
  | u32 => "u32"
  | u64 => "u64"

def all : List Width := [s8, s16, s32, s64, u8, u16, u32, u64]

def low : Width → Int
  | s8 => -Int.pow 2 7
  | s16 => -Int.pow 2 15
  | s32 => -Int.pow 2 31
  | s64 => -Int.pow 2 63
  | u8 | u16 | u32 | u64 => 0

def high : Width → Int
  | s8 => Int.pow 2 7 - 1
  | s16 => Int.pow 2 15 - 1
  | s32 => Int.pow 2 31 - 1
  | s64 => Int.pow 2 63 - 1
  | u8 => Int.pow 2 8 - 1
  | u16 => Int.pow 2 16 - 1
  | u32 => Int.pow 2 32 - 1
  | u64 => Int.pow 2 64 - 1

/-- The values of the type. -/
abbrev Carrier (w : Width) : Type := { n : Int // w.low ≤ n ∧ n ≤ w.high }

theorem le_low (w : Width) : -Int.pow 2 63 ≤ w.low := by
  cases w <;> decide

theorem high_lt (w : Width) : w.high < Int.pow 2 64 := by
  cases w <;> decide

theorem low_le_high (w : Width) : w.low ≤ w.high := by
  cases w <;> decide

/-- The value of the type that differs from `n` by a multiple of the number of its values. -/
def wrap (w : Width) (n : Int) : w.Carrier :=
  ⟨w.low + (n - w.low) % (w.high - w.low + 1), by
    have h := w.low_le_high
    have hpos : 0 < w.high - w.low + 1 := by omega
    have h1 := Int.emod_nonneg (n - w.low) (by omega : w.high - w.low + 1 ≠ 0)
    have h2 := Int.emod_lt_of_pos (n - w.low) hpos
    omega⟩

end Width

/-! ## Types -/

/-- What stays with the engine. -/
inductive AsyncKind where
  | future | stream | errorContext
  deriving DecidableEq, Repr

/-- The type of a parameter, a result or a part of one. -/
inductive Ty where
  | bool
  | int (w : Width)
  | f32
  | f64
  | char
  | string
  | list (item : Ty)
  | record (fields : List (String × Ty))
  | tuple (items : List Ty)
  | variant (cases : List (String × Option Ty))
  | enum (names : List String)
  | option (payload : Ty)
  | result (ok err : Option Ty)
  | flags (names : List String)
  | own (resource : String)
  | borrow (resource : String)
  /-- A future, a stream or an error context, with the engine's text for the type. -/
  | async (kind : AsyncKind) (text : String)
  deriving Inhabited

end ComponentHost
