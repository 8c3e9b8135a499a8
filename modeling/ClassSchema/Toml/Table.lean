import ClassSchema.Value.Datum
/-!
# TOML tables

A document is put together from headers and pairs. A table may come about by its own header, on the
way to a deeper one, or on the way of a dotted key; what it came about by decides how it may still
grow. No key is given twice.
-/
namespace ClassSchema.Toml

/-- How a table came about. -/
inductive Origin where
  /-- On the way of a header to a deeper table. -/
  | implied
  /-- By a header of its own. -/
  | opened
  /-- On the way of a dotted key. -/
  | dotted
deriving DecidableEq, Repr

inductive Node where
  /-- A value that does not grow any more. -/
  | value (v : Datum)
  | table (origin : Origin) (entries : Dict Node)
  /-- A list of tables of which the last one still grows. -/
  | tables (before : List Datum) (last : Dict Node)
deriving Repr

mutual

def Node.toDatum : Node → Datum
  | .value v => v
  | .table _ ⟨entries⟩ => .table ⟨entryData entries⟩
  | .tables before ⟨entries⟩ => .list (before ++ [.table ⟨entryData entries⟩])

def entryData : List (String × Node) → List (String × Datum)
  | [] => []
  | (key, n) :: es => (key, n.toDatum) :: entryData es

end

/-- Changes the table that the parts of a header lead to, making the tables on its way. -/
def alter (f : Dict Node → Option (Dict Node)) : List String → Dict Node → Option (Dict Node)
  | [], d => f d
  | key :: rest, d =>
    match d.get? key with
    | none => (alter f rest .empty).map fun inner => d.insert key (.table .implied inner)
    | some (.table origin inner) =>
      (alter f rest inner).map fun inner => d.insert key (.table origin inner)
    | some (.tables before last) =>
      (alter f rest last).map fun last => d.insert key (.tables before last)
    | some (.value _) => none

/-- Opens a table that no header has opened and no dotted key has made. -/
def openTable (key : String) (d : Dict Node) : Option (Dict Node) :=
  match d.get? key with
  | none => some (d.insert key (.table .opened .empty))
  | some (.table .implied inner) => some (d.insert key (.table .opened inner))
  | _ => none

/-- Adds another table to a list of tables. -/
def addTable (key : String) (d : Dict Node) : Option (Dict Node) :=
  match d.get? key with
  | none => some (d.insert key (.tables [] .empty))
  | some (.tables before last) =>
    some (d.insert key (.tables (before ++ [.table ⟨entryData last.entries⟩]) .empty))
  | _ => none

/-- Puts a value under a dotted key that is new; `mayGrow` says whether the table it starts from may
get entries of its own. -/
def putPair (v : Datum) : Bool → List String → Dict Node → Option (Dict Node)
  | _, [], _ => none
  | mayGrow, [key], d =>
    if mayGrow && !d.contains key then some (d.insert key (.value v)) else none
  | _, key :: rest, d =>
    match d.get? key with
    | none => (putPair v true rest .empty).map fun inner => d.insert key (.table .dotted inner)
    | some (.table .opened _) => none
    | some (.table origin inner) =>
      (putPair v (origin = .dotted) rest inner).map fun inner => d.insert key (.table origin inner)
    | some (.tables before last) =>
      (putPair v false rest last).map fun last => d.insert key (.tables before last)
    | some (.value _) => none

/-- A line of a document that says something. -/
inductive Statement where
  | header (path : List String)
  | listHeader (path : List String)
  | pair (path : List String) (v : Datum)
deriving Repr

/-- Puts statements together; `current` is the path of the last header. -/
def build (root : Dict Node) (current : List String) : List Statement → Option (Dict Node)
  | [] => some root
  | .header path :: rest =>
    match path.getLast? with
    | none => none
    | some key =>
      match alter (openTable key) path.dropLast root with
      | none => none
      | some root => build root path rest
  | .listHeader path :: rest =>
    match path.getLast? with
    | none => none
    | some key =>
      match alter (addTable key) path.dropLast root with
      | none => none
      | some root => build root path rest
  | .pair path v :: rest =>
    match alter (putPair v true path) current root with
    | none => none
    | some root => build root current rest

/-- A table given within braces, whose keys may be dotted. -/
def inlineTable : List (List String × Datum) → Dict Node → Option (Dict Node)
  | [], d => some d
  | (path, v) :: rest, d => (putPair v true path d).bind (inlineTable rest)

end ClassSchema.Toml
