import ClassSchema.Resolver.Plan
import ClassSchema.Signature
/-!
# Definitions

The named things a schema is made of: object types, inputs, interfaces, unions, enums and scalars. A
definition is plain data with a value form, over which its signature is taken; parts that are absent
or empty are left out of that form.
-/
namespace ClassSchema

structure Argument where
  name : String
  type : String
deriving DecidableEq, Repr

/-- A field of an object or interface; only those of objects are bound to a resolver plan. -/
structure Field where
  name : String
  type : String
  description : Option String
  args : List Argument
  resolver : Option Plan
deriving Repr

structure ObjectType where
  name : String
  description : Option String
  interfaces : List String
  fields : Dict Field
deriving Repr

structure InputField where
  name : String
  type : String
  description : Option String
  default : Option Value
deriving Repr

structure InputType where
  name : String
  description : Option String
  fields : Dict InputField
deriving Repr

structure InterfaceType where
  name : String
  description : Option String
  fields : Dict Field
deriving Repr

structure UnionType where
  name : String
  description : Option String
  members : List String
deriving DecidableEq, Repr

structure EnumValue where
  name : String
  description : Option String
deriving DecidableEq, Repr

structure EnumType where
  name : String
  description : Option String
  values : List EnumValue
deriving DecidableEq, Repr

structure ScalarType where
  name : String
  description : Option String
deriving DecidableEq, Repr

/-- What a definition is; it also names the template that renders it. -/
inductive Kind where
  | type
  | input
  | interface
  | union
  | enum
  | scalar
deriving DecidableEq, Repr

namespace Kind

def word : Kind → String
  | .type => "type"
  | .input => "input"
  | .interface => "interface"
  | .union => "union"
  | .enum => "enum"
  | .scalar => "scalar"

/-- The settings section that declares definitions of a kind. -/
def settingsSection : Kind → String
  | .type => "types"
  | .input => "inputs"
  | .interface => "interfaces"
  | .union => "unions"
  | .enum => "enums"
  | .scalar => "scalars"

def decode : Value → Option Kind :=
  Value.asWord Value.isNull
    ([.type, .input, .interface, .union, .enum, .scalar].map fun k : Kind => (k.word, k))

end Kind

inductive Definition where
  | object (o : ObjectType)
  | input (i : InputType)
  | interface (i : InterfaceType)
  | union (u : UnionType)
  | enum (e : EnumType)
  | scalar (s : ScalarType)
deriving Repr

/-- An entry of a value form that is left out when there is nothing to say. -/
def entryIfSome (name : String) : Option Value → List (String × Value)
  | none => []
  | some v => [(name, v)]

/-- A list entry of a value form that is left out when it is empty. -/
def entryIfAny (name : String) : List Value → List (String × Value)
  | [] => []
  | items => [(name, .list items)]

def descriptionEntry (description : Option String) : List (String × Value) :=
  entryIfSome "description" (description.map .string)

def Argument.value (a : Argument) : Value :=
  .ofPairs [("name", .string a.name), ("type", .string a.type)]

def Argument.decode (v : Value) : Option Argument := do
  let fields ← v.record? ["name", "type"]
  return ⟨← fields.required "name" Value.asString, ← fields.required "type" Value.asString⟩

namespace Field

def new (name type : String) : Field := ⟨name, type, none, [], none⟩

def withArg (f : Field) (name type : String) : Field := { f with args := f.args ++ [⟨name, type⟩] }

def withResolver (f : Field) (p : Plan) : Field := { f with resolver := some p }

def value (f : Field) : Value :=
  .ofPairs ([("name", .string f.name), ("type", .string f.type)] ++
    descriptionEntry f.description ++ entryIfAny "args" (f.args.map Argument.value) ++
    entryIfSome "resolver" (f.resolver.map Plan.value))

def decode (v : Value) : Option Field := do
  let fields ← v.record? ["name", "type", "description", "args", "resolver"]
  return {
    name := ← fields.required "name" Value.asString
    type := ← fields.required "type" Value.asString
    description := ← fields.optional "description" Value.asString
    args := ← fields.defaulted "args" (Value.asList Argument.decode) []
    resolver := ← fields.optional "resolver" Plan.decode }

end Field

namespace ObjectType

def new (name : String) : ObjectType := ⟨name, none, [], .empty⟩

/-- Adds a field, in place of one of the same name. -/
def addField (o : ObjectType) (f : Field) : ObjectType :=
  { o with fields := o.fields.insert f.name f }

def value (o : ObjectType) : Value :=
  .ofPairs ([("name", .string o.name)] ++ descriptionEntry o.description ++
    entryIfAny "interfaces" (o.interfaces.map .string) ++
    [("fields", .table (o.fields.map Field.value))])

def decode (v : Value) : Option ObjectType := do
  let fields ← v.record? ["name", "description", "interfaces", "fields"]
  return {
    name := ← fields.required "name" Value.asString
    description := ← fields.optional "description" Value.asString
    interfaces := ← fields.defaulted "interfaces" (Value.asList Value.asString) []
    fields := ← fields.required "fields" (Value.asDict Field.decode) }

end ObjectType

namespace InputField

def value (f : InputField) : Value :=
  .ofPairs ([("name", .string f.name), ("type", .string f.type)] ++
    descriptionEntry f.description ++ entryIfSome "default" f.default)

def decode (v : Value) : Option InputField := do
  let fields ← v.record? ["name", "type", "description", "default"]
  return {
    name := ← fields.required "name" Value.asString
    type := ← fields.required "type" Value.asString
    description := ← fields.optional "description" Value.asString
    default := ← fields.optional "default" Value.asAny }

end InputField

namespace InputType

def value (i : InputType) : Value :=
  .ofPairs ([("name", .string i.name)] ++ descriptionEntry i.description ++
    [("fields", .table (i.fields.map InputField.value))])

def decode (v : Value) : Option InputType := do
  let fields ← v.record? ["name", "description", "fields"]
  return {
    name := ← fields.required "name" Value.asString
    description := ← fields.optional "description" Value.asString
    fields := ← fields.required "fields" (Value.asDict InputField.decode) }

end InputType

namespace InterfaceType

def value (i : InterfaceType) : Value :=
  .ofPairs ([("name", .string i.name)] ++ descriptionEntry i.description ++
    [("fields", .table (i.fields.map Field.value))])

def decode (v : Value) : Option InterfaceType := do
  let fields ← v.record? ["name", "description", "fields"]
  return {
    name := ← fields.required "name" Value.asString
    description := ← fields.optional "description" Value.asString
    fields := ← fields.required "fields" (Value.asDict Field.decode) }

end InterfaceType

namespace UnionType

def value (u : UnionType) : Value :=
  .ofPairs ([("name", .string u.name)] ++ descriptionEntry u.description ++
    [("members", .strings u.members)])

def decode (v : Value) : Option UnionType := do
  let fields ← v.record? ["name", "description", "members"]
  return {
    name := ← fields.required "name" Value.asString
    description := ← fields.optional "description" Value.asString
    members := ← fields.required "members" (Value.asList Value.asString) }

end UnionType

namespace EnumValue

def value (e : EnumValue) : Value :=
  .ofPairs ([("name", .string e.name)] ++ descriptionEntry e.description)

def decode (v : Value) : Option EnumValue := do
  let fields ← v.record? ["name", "description"]
  return ⟨← fields.required "name" Value.asString, ← fields.optional "description" Value.asString⟩

end EnumValue

namespace EnumType

def value (e : EnumType) : Value :=
  .ofPairs ([("name", .string e.name)] ++ descriptionEntry e.description ++
    [("values", .list (e.values.map EnumValue.value))])

def decode (v : Value) : Option EnumType := do
  let fields ← v.record? ["name", "description", "values"]
  return {
    name := ← fields.required "name" Value.asString
    description := ← fields.optional "description" Value.asString
    values := ← fields.required "values" (Value.asList EnumValue.decode) }

end EnumType

namespace ScalarType

def value (s : ScalarType) : Value :=
  .ofPairs ([("name", .string s.name)] ++ descriptionEntry s.description)

def decode (v : Value) : Option ScalarType := do
  let fields ← v.record? ["name", "description"]
  return ⟨← fields.required "name" Value.asString, ← fields.optional "description" Value.asString⟩

end ScalarType

namespace Definition

def name : Definition → String
  | .object o => o.name
  | .input i => i.name
  | .interface i => i.name
  | .union u => u.name
  | .enum e => e.name
  | .scalar s => s.name

def kind : Definition → Kind
  | .object _ => .type
  | .input _ => .input
  | .interface _ => .interface
  | .union _ => .union
  | .enum _ => .enum
  | .scalar _ => .scalar

def value : Definition → Value
  | .object o => o.value
  | .input i => i.value
  | .interface i => i.value
  | .union u => u.value
  | .enum e => e.value
  | .scalar s => s.value

/-- Reads a definition of a given kind. -/
def decode (kind : Kind) (v : Value) : Option Definition :=
  match kind with
  | .type => (ObjectType.decode v).map .object
  | .input => (InputType.decode v).map .input
  | .interface => (InterfaceType.decode v).map .interface
  | .union => (UnionType.decode v).map .union
  | .enum => (EnumType.decode v).map .enum
  | .scalar => (ScalarType.decode v).map .scalar

/-- What a signature is taken over: the kind and the value form together. -/
def signedValue (d : Definition) : Value :=
  .ofPairs [("kind", .string d.kind.word), ("definition", d.value)]

def signature (d : Definition) : String := Signature.of d.signedValue

end Definition
end ClassSchema
