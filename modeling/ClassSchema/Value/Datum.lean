import ClassSchema.Value.Basic
/-!
# Data as a source gives them

A `Datum` is what a text says before anyone asks for it. Besides values it holds what no value can:
floats that are not finite, and scalars that are well written but stand for nothing. `Datum.value?`
gives the value of a datum that can be read throughout and does not nest too deep.
-/
namespace ClassSchema

/-- A float that is no finite number. -/
inductive NotFinite where
  | infinite (negative : Bool)
  | undefined
deriving DecidableEq, Repr, Inhabited

inductive Datum where
  | null
  | bool (b : Bool)
  | number (n : Number)
  | notFinite (x : NotFinite)
  | string (s : String)
  /-- A scalar or table that is well written but stands for nothing. -/
  | unreadable
  | list (items : List Datum)
  | table (fields : Dict Datum)
deriving Repr, Inhabited

namespace Datum

/-- How deep lists and tables may nest in text. -/
def greatestDepth : Nat := 127

mutual

/-- The value of a datum, with `other` for floats that are not finite. What cannot be read is null. -/
def toValue (other : Value) : Datum → Value
  | .null | .unreadable => .null
  | .bool b => .bool b
  | .number n => .number n
  | .notFinite _ => other
  | .string s => .string s
  | .list items => .list (itemValues other items)
  | .table ⟨entries⟩ => .table ⟨entryValues other entries⟩

def itemValues (other : Value) : List Datum → List Value
  | [] => []
  | d :: ds => d.toValue other :: itemValues other ds

def entryValues (other : Value) : List (String × Datum) → List (String × Value)
  | [] => []
  | (key, d) :: es => (key, d.toValue other) :: entryValues other es

end

mutual

/-- Whether a datum can be read throughout and nests at most so many levels. -/
def fits : Nat → Datum → Bool
  | _, .unreadable => false
  | depth, .list items =>
    match depth with
    | 0 => false
    | depth + 1 => itemsFit depth items
  | depth, .table ⟨entries⟩ =>
    match depth with
    | 0 => false
    | depth + 1 => entriesFit depth entries
  | _, _ => true

def itemsFit (depth : Nat) : List Datum → Bool
  | [] => true
  | d :: ds => d.fits depth && itemsFit depth ds

def entriesFit (depth : Nat) : List (String × Datum) → Bool
  | [] => true
  | (_, d) :: es => d.fits depth && entriesFit depth es

end

/-- The value of a datum that can be read and is not nested too deep. -/
def value? (d : Datum) : Option Value :=
  if d.fits greatestDepth then some (d.toValue .null) else none

end Datum
end ClassSchema
