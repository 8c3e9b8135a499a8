import ClassSchema.Value.Reader
/-!
# Shapes of data

A `Shape` says what is asked for at each place of a datum. What a record does not ask for is passed
over: it need not be readable, and it may nest as deep as it likes.
-/
namespace ClassSchema

inductive Shape where
  | any
  | text
  | flag
  | list (item : Shape)
  /-- A table of things of one shape. -/
  | table (item : Shape)
  /-- A table of named fields, or the list of them in order. -/
  | record (fields : List (String × Shape))
  /-- The shape that this is part of, over again. -/
  | again
deriving Repr, Inhabited

namespace Shape

/-- What a part of a shape stands for. -/
def within (whole s : Shape) : Shape :=
  match s with
  | .again => whole
  | s => s

/-- The shape of a member of a table; none if it is not asked for. -/
def member? (s : Shape) (name : String) : Option Shape :=
  match s with
  | .record fields => Dict.lookup name fields
  | .table item => some item
  | _ => some .any

/-- The shape of an item of a list. -/
def item (s : Shape) (index : Nat) : Shape :=
  match s with
  | .list item => item
  | .record fields => (fields[index]?).elim .any (·.2)
  | _ => .any

mutual

/-- Takes out of a datum what a shape does not ask for. -/
def prune (whole s : Shape) : Datum → Datum
  | .list items => .list (pruneItems whole (within whole s) 0 items)
  | .table ⟨entries⟩ => .table ⟨pruneEntries whole (within whole s) entries⟩
  | d => d

def pruneItems (whole s : Shape) (index : Nat) : List Datum → List Datum
  | [] => []
  | d :: ds => prune whole (s.item index) d :: pruneItems whole s (index + 1) ds

def pruneEntries (whole s : Shape) : List (String × Datum) → List (String × Datum)
  | [] => []
  | (name, d) :: es =>
    match s.member? name with
    | some inner => (name, prune whole inner d) :: pruneEntries whole s es
    | none => pruneEntries whole s es

end

/-- The value of what a shape asks for in a text. -/
def ofText? (s : Shape) (text : String) : Option Value := do
  (s.prune s (← Datum.ofText? text)).value?

end Shape
end ClassSchema
