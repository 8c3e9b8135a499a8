import ClassSchema.Fault
import ClassSchema.Name
import ClassSchema.Schema.Definition
import ClassSchema.TypeRef
/-!
# Schemas

A schema holds definitions under their names, which are unique across all kinds. `Schema.validate`
checks that every type reference leads to a definition of a fitting kind.
-/
namespace ClassSchema

def queryType : String := "Query"

def mutationType : String := "Mutation"

/-- The scalars that need no definition. -/
def builtinScalars : List String := ["String", "Int", "Float", "Boolean", "ID"]

/-- Refuses what is no GraphQL name; `key` is the setting that gave it. -/
def checkName (key name : String) : Except Fault Unit :=
  if isGraphName name then .ok () else .error (.config key s!"'{name}' is not a valid GraphQL name")

structure Schema where
  name : String
  definitions : Dict Definition
deriving Repr

namespace Schema

def new (name : String) : Schema := ⟨name, .empty⟩

def get? (s : Schema) (name : String) : Option Definition := s.definitions.get? name

def object? (s : Schema) (name : String) : Option ObjectType :=
  match s.get? name with
  | some (.object o) => some o
  | _ => none

def hasInput (s : Schema) (name : String) : Bool :=
  match s.get? name with
  | some (.input _) => true
  | _ => false

def hasInterface (s : Schema) (name : String) : Bool :=
  match s.get? name with
  | some (.interface _) => true
  | _ => false

def put (s : Schema) (name : String) (d : Definition) : Schema :=
  { s with definitions := s.definitions.insert name d }

/-- Adds a definition under a name that is new. -/
def add (s : Schema) (d : Definition) : Except Fault Schema :=
  match checkName s!"{d.kind.settingsSection}.{d.name}" d.name with
  | .error e => .error e
  | .ok () =>
    if s.definitions.contains d.name || builtinScalars.contains d.name then
      .error (.duplicateType d.name)
    else .ok (s.put d.name d)

/-- The root type of a name, made empty if there is no definition of that name. -/
def root (s : Schema) (name : String) : Except Fault ObjectType :=
  match s.get? name with
  | none => .ok (.new name)
  | some (.object o) => .ok o
  | some _ => .error (.duplicateType name)

/-- A name that a field of an object or interface may have as its type. -/
def isKnown (s : Schema) (name : String) : Bool :=
  builtinScalars.contains name || s.definitions.contains name

/-- A scalar or an enum. -/
def isLeaf (s : Schema) (name : String) : Bool :=
  builtinScalars.contains name ||
    match s.get? name with
    | some (.scalar _) | some (.enum _) => true
    | _ => false

/-- A name that an argument or an input field may have as its type. -/
def isInputType (s : Schema) (name : String) : Bool := s.isLeaf name || s.hasInput name

/-- A reference from a field of a type, refused unless it is `fitting`. -/
def checkTarget (type field target : String) (fitting : Bool) : Except Fault Unit :=
  if fitting then .ok () else .error (.unknownType type field target)

def checkArgument (s : Schema) (type : String) (f : Field) (a : Argument) : Except Fault Unit :=
  let target := baseType a.type
  checkTarget type s!"{f.name}({a.name})" target (s.isInputType target)

def checkField (s : Schema) (type : String) (f : Field) : Except Fault Unit :=
  let target := baseType f.type
  match checkTarget type f.name target (s.isKnown target) with
  | .error e => .error e
  | .ok () => checkEach (s.checkArgument type f) f.args

def checkInputField (s : Schema) (type : String) (f : InputField) : Except Fault Unit :=
  let target := baseType f.type
  checkTarget type f.name target (s.isInputType target)

def checkInterface (s : Schema) (type interface : String) : Except Fault Unit :=
  checkTarget type "implements" interface (s.hasInterface interface)

def checkMember (s : Schema) (type member : String) : Except Fault Unit :=
  checkTarget type "members" member (s.object? member).isSome

def checkDefinition (s : Schema) : Definition → Except Fault Unit
  | .object o =>
    match checkEach (s.checkField o.name) o.fields.values with
    | .error e => .error e
    | .ok () => checkEach (s.checkInterface o.name) o.interfaces
  | .interface i => checkEach (s.checkField i.name) i.fields.values
  | .input i => checkEach (s.checkInputField i.name) i.fields.values
  | .union u => checkEach (s.checkMember u.name) u.members
  | .enum _ | .scalar _ => .ok ()

/-- Checks every reference of every definition, in name order. -/
def validate (s : Schema) : Except Fault Unit :=
  checkEach s.checkDefinition s.definitions.values

end Schema
end ClassSchema
