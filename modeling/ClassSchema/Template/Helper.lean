import ClassSchema.Template.Scope
import ClassSchema.Value.Order
/-!
# Helpers of templates

What the helpers do with the values they are given: some choose a part of a block, some go through the
items of a value, and some have an answer to write. `effect?` is what a helper does at a block, `value?`
its answer in a line; both are none where the helper refuses its parameters.
-/
namespace ClassSchema.Template

/-- A number that counts as something: not zero, and not too small to be written in full precision. -/
def countsAsSome : Number → Bool
  | .integer i => i ≠ 0
  | .float x => Binary64.leastFull ≤ x.significand

/-- Whether a value counts as true. -/
def isTruthy : Value → Bool
  | .null => false
  | .bool b => b
  | .number n => countsAsSome n
  | .string s => s ≠ ""
  | .list items => !items.isEmpty
  | .table fields => !fields.isEmpty

inductive Comparison where
  | equal
  | unequal
  | greater
  | atLeast
  | less
  | atMost
deriving DecidableEq, Repr

/-- Whether two values compare in a way; values without an order are only equal or unequal. -/
def Comparison.holds (c : Comparison) (v w : Value) : Bool :=
  match c with
  | .equal => v.same w
  | .unequal => !v.same w
  | .greater => v.order? w = some .gt
  | .atLeast => v.order? w = some .gt || v.order? w = some .eq
  | .less => v.order? w = some .lt
  | .atMost => v.order? w = some .lt || v.order? w = some .eq

/-- Helpers that tell whether something holds. -/
inductive Test where
  | compares (c : Comparison)
  | all
  | any
  | negation
deriving DecidableEq, Repr

/-- Whether a test holds of its parameters, if they are enough. -/
def Test.holds? (t : Test) (params : List Value) : Option Bool :=
  match t, params with
  | .all, vs => some (vs.all isTruthy)
  | .any, vs => some (vs.any isTruthy)
  | .negation, v :: _ => some (!isTruthy v)
  | .compares c, v :: w :: _ => some (c.holds v w)
  | _, _ => none

inductive Helper where
  | choice (whenTrue : Bool)
  | each
  | within
  | raw
  | log
  | lookup
  | len
  | test (t : Test)
deriving DecidableEq, Repr

namespace Helper

def comparison (c : Comparison) : Helper := .test (.compares c)

def named : List (String × Helper) :=
  [("if", .choice true), ("unless", .choice false), ("each", .each), ("with", .within),
    ("raw", .raw), ("log", .log), ("lookup", .lookup), ("len", .len), ("eq", comparison .equal),
    ("ne", comparison .unequal), ("gt", comparison .greater), ("gte", comparison .atLeast),
    ("lt", comparison .less), ("lte", comparison .atMost), ("and", .test .all),
    ("or", .test .any), ("not", .test .negation)]

def ofName? (name : String) : Option Helper := Dict.lookup name named

end Helper

/-- What a helper does at a block. -/
inductive Effect where
  | write (v : Value)
  /-- Renders one part of the block where it stands. -/
  | choose (first : Bool)
  /-- Renders the first part once in each frame. -/
  | enter (frames : List Frame)

/-- What an item is told about its place among `count` items. -/
def placeOf (index count : Nat) : Dict Value :=
  .ofList [("index", .integer index), ("first", .bool (index = 0)),
    ("last", .bool (index + 1 = count))]

/-- What the names of a block stand for at an item and its key. -/
def namesFor (names : List String) (item key : Value) : List (String × Value) :=
  match names with
  | [] => []
  | [name] => [(name, item)]
  | name :: keyName :: _ => [(keyName, key), (name, item)]

/-- The frames of the items that `each` goes through. -/
def itemFrames (names : List String) : Value → List Frame
  | .list items =>
    items.zipIdx.map fun e =>
      ⟨e.1, placeOf e.2 items.length, namesFor names e.1 (.integer e.2)⟩
  | .table fields =>
    fields.entries.zipIdx.map fun e =>
      ⟨e.1.2, (placeOf e.2 fields.size).insert "key" (.string e.1.1),
        namesFor names e.1.2 (.string e.1.1)⟩
  | _ => []

/-- A value by a name, if the block has just one. -/
def soleName (names : List String) (item : Value) : List (String × Value) :=
  match names with
  | [name] => [(name, item)]
  | _ => []

/-- A part of a value: an item of a list by its place, or a member of a table. -/
def part : Value → Value → Value
  | .list items, .number (.integer i) => if 0 ≤ i then .ofOption items[i.toNat]? else .null
  | .table fields, .string name => .ofOption (fields.get? name)
  | _, _ => .null

def sizeOf : Value → Nat
  | .list items => items.length
  | .table fields => fields.size
  | .string s => s.utf8ByteSize
  | _ => 0

def logLevels : List String := ["error", "warn", "info", "debug", "trace"]

/-- Whether the options of a log name no level or a known one. -/
def isLogged (options : List (String × Value)) : Bool :=
  match Dict.lookup "level" options with
  | some (.string level) => logLevels.contains level.toLower
  | _ => true

/-- Whether a value counts for a choice, which may count zero in. -/
def counts (options : List (String × Value)) (v : Value) : Bool :=
  match Dict.lookup "includeZero" options, v with
  | some (.bool true), .number _ => true
  | _, v => isTruthy v

namespace Helper

/-- What a helper does at a block with names. -/
def effect? (h : Helper) (names : List String) (params : List Value)
    (options : List (String × Value)) : Option Effect :=
  match h, params with
  | .choice whenTrue, v :: _ => some (.choose (counts options v == whenTrue))
  | .each, v :: _ =>
    match itemFrames names v with
    | [] => some (.choose false)
    | frames => some (.enter frames)
  | .within, v :: _ =>
    if isTruthy v then some (.enter [⟨v, .empty, soleName names v⟩]) else some (.choose false)
  | .raw, _ => some (.choose true)
  | .log, _ => if isLogged options then some (.write .null) else none
  | .lookup, v :: key :: _ => some (.write (part v key))
  | .len, v :: _ => some (.write (.integer (sizeOf v)))
  | .test t, vs => (t.holds? vs).map .choose
  | _, _ => none

/-- The answer of a helper in a line. Those that are for blocks answer with an empty text. -/
def value? (h : Helper) (params : List Value) (options : List (String × Value)) : Option Value :=
  match h with
  | .test t => (t.holds? params).map .bool
  | h =>
    (h.effect? [] params options).map fun
      | .write v => v
      | _ => .string ""

end Helper

end ClassSchema.Template
