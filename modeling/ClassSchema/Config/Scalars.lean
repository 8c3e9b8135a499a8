import ClassSchema.Value.Shape
/-!
# Scalars of configuration

Files and variables spell scalars in many ways. Where a text is asked for, any scalar is written out;
where a truth value is asked for, numbers and some words are understood. A record may be given as a
list, of which only as many items count as the record has fields.
-/
namespace ClassSchema.Config

/-- How a float that is not finite is written out. -/
def notFiniteText : NotFinite → String
  | .infinite false => "inf"
  | .infinite true => "-inf"
  | .undefined => "NaN"

/-- A scalar as text. -/
def textOf? : Datum → Option String
  | .string s => some s
  | .bool true => some "true"
  | .bool false => some "false"
  | .number (.integer i) => some (Number.integer i).text
  | .number (.float x) => some (String.ofList x.plainNumeral)
  | .notFinite x => some (notFiniteText x)
  | _ => none

def flagWords : List (String × Bool) :=
  [("1", true), ("true", true), ("on", true), ("yes", true),
    ("0", false), ("false", false), ("off", false), ("no", false)]

/-- A scalar as a truth value: any number but zero is true, and some words are understood. -/
def flagOf? : Datum → Option Bool
  | .bool b => some b
  | .number (.integer i) => some (i ≠ 0)
  | .number (.float x) => some (!x.isZero)
  | .notFinite _ => some true
  | .string s => Dict.lookup s.toLower flagWords
  | _ => none

/-- A scalar where a shape asks for one. -/
def settleScalar (s : Shape) (d : Datum) : Datum :=
  match s with
  | .text => (textOf? d).elim d .string
  | .flag => (flagOf? d).elim d .bool
  | _ => d

/-- Whether a list may have an item at a place. -/
def hasItem (s : Shape) (index : Nat) : Bool :=
  match s with
  | .record fields => index < fields.length
  | _ => true

mutual

/-- Brings a datum into the form that a shape asks for, as far as it can be. -/
def settle (whole s : Shape) : Datum → Datum
  | .list items => .list (settleItems whole (Shape.within whole s) 0 items)
  | .table ⟨entries⟩ => .table ⟨settleEntries whole (Shape.within whole s) entries⟩
  | d => settleScalar (Shape.within whole s) d

def settleItems (whole s : Shape) (index : Nat) : List Datum → List Datum
  | [] => []
  | d :: ds =>
    if hasItem s index then settle whole (s.item index) d :: settleItems whole s (index + 1) ds
    else []

def settleEntries (whole s : Shape) : List (String × Datum) → List (String × Datum)
  | [] => []
  | (name, d) :: es =>
    match s.member? name with
    | some inner => (name, settle whole inner d) :: settleEntries whole s es
    | none => settleEntries whole s es

end

end ClassSchema.Config
