import ClassSchema.Value.Decoder
/-!
# Class descriptors

A descriptor declares a class, or a marker that classes can carry: its parent, its markers and its
fields. A field is given by its type alone or in full.
-/
namespace ClassSchema

inductive ClassKind where
  | ordinary
  | marker
deriving DecidableEq, Repr

/-- What a message calls a descriptor of this kind. -/
def ClassKind.title : ClassKind → String
  | .ordinary => "Class"
  | .marker => "Marker"

def ClassKind.word : ClassKind → String
  | .ordinary => "class"
  | .marker => "marker"

def ClassKind.decode (isNothing : Value → Bool) : Value → Option ClassKind :=
  Value.asWord isNothing [("class", .ordinary), ("marker", .marker)]

/-- A field in full: its type with description, arguments and an explicit resolver. -/
structure FieldDeclaration where
  type : String
  description : Option String
  args : Dict String
  resolver : Option String
deriving DecidableEq, Repr

inductive FieldSpec where
  | short (type : String)
  | full (declaration : FieldDeclaration)
deriving DecidableEq, Repr

namespace FieldSpec

def type : FieldSpec → String
  | .short t => t
  | .full f => f.type

def description : FieldSpec → Option String
  | .short _ => none
  | .full f => f.description

def args : FieldSpec → Dict String
  | .short _ => .empty
  | .full f => f.args

def resolver : FieldSpec → Option String
  | .short _ => none
  | .full f => f.resolver

def decode (v : Value) : Option FieldSpec :=
  match v with
  | .string t => some (.short t)
  | v => do
    let fields ← v.record? ["type", "description", "args", "resolver"]
    return .full
      { type := ← fields.required "type" Value.asString
        description := ← fields.optional "description" Value.asString
        args := ← fields.defaulted "args" (Value.asDict Value.asString) .empty
        resolver := ← fields.optional "resolver" Value.asString }

end FieldSpec

structure Descriptor where
  name : String
  kind : ClassKind
  parent : Option String
  markers : List String
  isAbstract : Bool
  description : Option String
  fields : Dict FieldSpec
  /-- The file that declares the class. -/
  path : String
deriving DecidableEq, Repr

/-- What the text of a descriptor is asked for. -/
def Descriptor.shape : Shape :=
  .record [("class", .any), ("kind", .any), ("extends", .any), ("markers", .any),
    ("abstract", .any), ("description", .any), ("fields", .any)]

/-- Reads a descriptor that `path` declares; `isNothing` tells what a kind may be given in a table. -/
def Descriptor.decode (isNothing : Value → Bool) (path : String) (v : Value) : Option Descriptor := do
  let fields ← v.record?
    ["class", "kind", "extends", "markers", "abstract", "description", "fields"]
  return {
    name := ← fields.required "class" Value.asString
    kind := ← fields.defaulted "kind" (ClassKind.decode isNothing) .ordinary
    parent := ← fields.optional "extends" Value.asString
    markers := ← fields.defaulted "markers" (Value.asList Value.asString) []
    isAbstract := ← fields.defaulted "abstract" Value.asBool false
    description := ← fields.optional "description" Value.asString
    fields := ← fields.defaulted "fields" (Value.asDict FieldSpec.decode) .empty
    path }

end ClassSchema
