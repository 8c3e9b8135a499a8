import ClassSchema.Value.Shape
/-!
# Decoding values

Decoders turn a value into typed data or refuse it. A record is a table of named fields, unknown ones
being ignored, or the list of its fields in order, from which trailing fields may be missing. A field
given twice is refused.
-/
namespace ClassSchema

namespace Value

def asString : Value → Option String := string?

def asBool : Value → Option Bool
  | .bool b => some b
  | _ => none

/-- An integer of 64 bits with a sign. -/
def asSigned : Value → Option Int
  | .number (.integer i) => if Number.isSignedWord i then some i else none
  | _ => none

/-- Any value at all, tables put in order. -/
def asAny (v : Value) : Option Value := some v.ordered

/-- A table of any values, put in order. -/
def asTable (v : Value) : Option (Dict Value) := v.ordered.table?

/-- A value where null stands for nothing. -/
def orNull (decode : Value → Option α) : Value → Option (Option α)
  | .null => some none
  | v => (decode v).map some

/-- Decodes every item of a list. -/
def decodeAll (decode : Value → Option α) : List Value → Option (List α)
  | [] => some []
  | v :: vs => do return (← decode v) :: (← decodeAll decode vs)

def asList (decode : Value → Option α) (v : Value) : Option (List α) :=
  v.list?.bind (decodeAll decode)

def decodeEntries (decode : Value → Option α) :
    List (String × Value) → Option (List (String × α))
  | [] => some []
  | (k, v) :: es => do return (k, ← decode v) :: (← decodeEntries decode es)

/-- A table whose entries all decode, the last of one name winning. -/
def asDict (decode : Value → Option α) (v : Value) : Option (Dict α) := do
  let fields ← v.table?
  return .ofList (← decodeEntries decode fields.entries)

/-- One of several words, written as text or as the only name of a table that gives it nothing. -/
def asWord (isNothing : Value → Bool) (words : List (String × α)) : Value → Option α
  | .string s => Dict.lookup s words
  | .table ⟨[(s, v)]⟩ => if isNothing v then Dict.lookup s words else none
  | _ => none

/-- The fields of a record that are given. -/
def record? (names : List String) : Value → Option (Dict Value)
  | .table ⟨entries⟩ =>
    let known := entries.filter fun e => names.contains e.1
    if (known.map (·.1)).Nodup then some ⟨known⟩ else none
  | .list items => if items.length ≤ names.length then some ⟨names.zip items⟩ else none
  | _ => none

end Value

namespace Dict

/-- A field that must be given. -/
def required (d : Dict Value) (name : String) (decode : Value → Option α) : Option α :=
  (d.get? name).bind decode

/-- A field with a default, which null does not stand for. -/
def defaulted (d : Dict Value) (name : String) (decode : Value → Option α) (default : α) :
    Option α :=
  match d.get? name with
  | none => some default
  | some v => decode v

/-- A field that may be missing or null. -/
def optional (d : Dict Value) (name : String) (decode : Value → Option α) : Option (Option α) :=
  d.defaulted name (Value.orNull decode) none

end Dict
end ClassSchema
