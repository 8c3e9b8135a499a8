import ClassSchema.Dict
import ClassSchema.Decimal.Shortest
/-!
# Structured values

Settings, payloads, resolver sources and template scopes are all `Value`s: scalars, lists and tables
of named values. An integer is never equal to a float; the two float zeros are equal.
-/
namespace ClassSchema

inductive Number where
  | integer (i : Int)
  | float (x : Binary64)
deriving DecidableEq, Repr, Inhabited

inductive Value where
  | null
  | bool (b : Bool)
  | number (n : Number)
  | string (s : String)
  | list (items : List Value)
  | table (fields : Dict Value)
deriving Repr, Inhabited

namespace Number

/-- Whether an integer is one of 64 bits with a sign. -/
def isSignedWord (i : Int) : Bool := -0x8000000000000000 ≤ i ∧ i < 0x8000000000000000

/-- Numbers of the same sort compare by value. -/
def same : Number → Number → Bool
  | .integer a, .integer b => a = b
  | .float x, .float y => x.same y
  | _, _ => false

end Number

namespace Value

def integer (i : Int) : Value := .number (.integer i)

def strings (l : List String) : Value := .list (l.map .string)

def ofPairs (pairs : List (String × Value)) : Value := .table (.ofList pairs)

def string? : Value → Option String
  | .string s => some s
  | _ => none

def list? : Value → Option (List Value)
  | .list items => some items
  | _ => none

def table? : Value → Option (Dict Value)
  | .table fields => some fields
  | _ => none

def isNull : Value → Bool
  | .null => true
  | _ => false

def isTable : Value → Bool
  | .table _ => true
  | _ => false

/-- The member `key` of a table. -/
def member? (v : Value) (key : String) : Option Value :=
  v.table?.bind (·.get? key)

/-- An absent value reads as null. -/
def ofOption (v : Option Value) : Value := v.getD .null

def ofString? (s : Option String) : Value := .ofOption (s.map .string)

mutual

/-- Equality of values as data: numbers as `Number.same`, all else by parts. -/
def same : Value → Value → Bool
  | .null, .null => true
  | .bool a, .bool b => a = b
  | .number m, .number n => m.same n
  | .string s, .string t => s = t
  | .list xs, .list ys => sameItems xs ys
  | .table ⟨es⟩, .table ⟨fs⟩ => sameEntries es fs
  | _, _ => false

def sameItems : List Value → List Value → Bool
  | [], [] => true
  | v :: vs, w :: ws => v.same w && sameItems vs ws
  | _, _ => false

def sameEntries : List (String × Value) → List (String × Value) → Bool
  | [], [] => true
  | (k, v) :: es, (l, w) :: fs => decide (k = l) && v.same w && sameEntries es fs
  | _, _ => false

end

mutual

/-- Puts every table in name order, the last of several entries of one name winning. -/
def ordered : Value → Value
  | .list items => .list (orderedItems items)
  | .table ⟨entries⟩ => .table (.ofList (orderedEntries entries))
  | v => v

def orderedItems : List Value → List Value
  | [] => []
  | v :: vs => v.ordered :: orderedItems vs

def orderedEntries : List (String × Value) → List (String × Value)
  | [] => []
  | (k, v) :: es => (k, v.ordered) :: orderedEntries es

end

mutual

/-- Deep merge: tables merge name by name, everything else is replaced by what comes in. -/
def merge : Value → Value → Value
  | .table d, .table ⟨incoming⟩ => .table (mergeEntries d incoming)
  | _, incoming => incoming

/-- The entries of a table after the incoming ones, each merged into what its name holds. -/
def mergeEntries : Dict Value → List (String × Value) → Dict Value
  | d, [] => d
  | d, (key, v) :: rest =>
    mergeEntries (d.insert key (match d.get? key with
      | some old => merge old v
      | none => v)) rest

end

/-- What a message calls a value of this sort. -/
def sortName : Value → String
  | .null => "null"
  | .bool _ => "boolean"
  | .number _ => "number"
  | .string _ => "string"
  | .list _ => "list"
  | .table _ => "object"

end Value

/-- The deep merge of two tables. -/
def Dict.deepMerge (d incoming : Dict Value) : Dict Value := Value.mergeEntries d incoming.entries

end ClassSchema
