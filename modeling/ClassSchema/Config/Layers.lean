import ClassSchema.Text.Lower
import ClassSchema.Value.Reader
/-!
# Layers of configuration

Configuration comes from several sources, later ones over earlier ones. Tables merge name by name, all
else is replaced, and every name is put in lower case, save those of tables inside lists. A name on
top may be a path, which leads through tables by their names and through lists by their places.
-/
namespace ClassSchema.Config

/-- A step of a path: to a name, or to a place, counted from the end if it is negative. -/
inductive Step where
  | name (key : String)
  | place (index : Int)
deriving DecidableEq, Repr

/-- The table that a datum is, or an empty one in its place. -/
def tableOf : Datum → Dict Datum
  | .table fields => fields
  | _ => .empty

/-- The list that a datum is, or an empty one in its place. -/
def listOf : Datum → List Datum
  | .list items => items
  | _ => []

mutual

/-- Puts a datum under a name of a table. -/
def put (root : Datum) (key : String) : Datum → Datum
  | .table ⟨entries⟩ =>
    let name := lowered key
    let old := ((tableOf root).get? name).getD (.table .empty)
    .table ((tableOf root).insert name (putEach old entries))
  | d => .table ((tableOf root).insert (lowered key) d)

/-- Puts entries into a table one after the other; without any the old datum stays. -/
def putEach (root : Datum) : List (String × Datum) → Datum
  | [] => root
  | (key, d) :: rest => putEach (put root key d) rest

end

/-- The place that a step leads to in a list of some length. -/
def placeIn (length : Nat) (index : Int) : Nat :=
  if 0 ≤ index then index.toNat else length - index.natAbs

/-- Puts a datum at a place of a list, after nulls where the list was too short. -/
def putItem (items : List Datum) (place : Nat) (d : Datum) : List Datum :=
  (items ++ List.replicate (place + 1 - items.length) Datum.null).set place d

/-- Puts a datum at a path; what is on its way becomes a table or a list as its steps need it. -/
def putAt (d : Datum) : List Step → Datum → Datum
  | [], root => root
  | [.name key], root => put root key d
  | .name key :: rest, root =>
    let name := lowered key
    let old := ((tableOf root).get? name).getD .null
    .table ((tableOf root).insert name (putAt d rest old))
  | .place index :: rest, root =>
    let items := listOf root
    let place := placeIn items.length index
    let inner := if rest.isEmpty then d else putAt d rest (items[place]?.getD .null)
    .list (putItem items place inner)

def isPathChar (c : Char) : Bool := c.isAlphanum || c = ' ' || c = '_' || c = '-'

/-- Blanks that may stand around the number of a place. -/
def isPlaceSpace (c : Char) : Bool := c = ' ' || c = '\t' || c = '\n' || c = '\r'

/-- The number of a place, as the text between the brackets gives it. -/
def placeNumber? (s : List Char) : Option Int := do
  let s := s.dropWhile isPlaceSpace
  let (minus, s) := match s with
    | '-' :: s => (true, s)
    | s => (false, s)
  let digits := s.takeWhile Char.isDigit
  if digits.isEmpty || !(s.dropWhile Char.isDigit).all isPlaceSpace then failure
  let n : Int := digitsValue digits
  let index := if minus then -n else n
  if Number.isSignedWord index then return index else none

/-- The steps after the first name. -/
def readSteps : Nat → List Char → Option (List Step)
  | _, [] => some []
  | 0, _ => none
  | fuel + 1, '.' :: s => do
    let name := s.takeWhile isPathChar
    if name.isEmpty then failure
    return .name (String.ofList name) :: (← readSteps fuel (s.dropWhile isPathChar))
  | fuel + 1, '[' :: s => do
    let index ← placeNumber? (s.takeWhile (· ≠ ']'))
    match s.dropWhile (· ≠ ']') with
    | _ :: s => return .place index :: (← readSteps fuel s)
    | [] => none
  | _ + 1, _ => none

/-- The steps that a name stands for; one that is no path stands for itself. -/
def pathOf (key : String) : List Step :=
  let s := key.toList
  let first := s.takeWhile isPathChar
  match if first.isEmpty then none else readSteps s.length (s.dropWhile isPathChar) with
  | some rest => .name (String.ofList first) :: rest
  | none => [.name key]

/-- Lays a source over what earlier sources gave. -/
def layOver (root : Datum) (source : List (String × Datum)) : Datum :=
  source.foldl (fun root e => putAt e.2 (pathOf e.1) root) root

end ClassSchema.Config
