import ClassSchema.Resolver.Discovery
import ClassSchema.Selection.Pipeline
import ClassSchema.Settings.Tree
/-!
# Sections of the settings

Typed forms of what settings say about models, bulk loads and declared types. A model selects its
fields by a wildcard, by name, or by name with settings; field settings wrap the field's primary in
a chain with a static context.
-/
namespace ClassSchema

/-- Settings of one output field. -/
structure FieldSettings where
  type : Option String := none
  description : Option String := none
  args : Dict String := .empty
  resolver : Option Value := none
  middleware : List Value := []
  afterware : List Value := []
  context : Dict Value := .empty

namespace FieldSettings

instance : Inhabited FieldSettings := ⟨{}⟩

def decode (v : Value) : Option FieldSettings := do
  let fields ← v.record?
    ["type", "description", "args", "resolver", "middleware", "afterware", "context"]
  return {
    type := ← fields.optional "type" Value.asString
    description := ← fields.optional "description" Value.asString
    args := ← fields.defaulted "args" (Value.asDict Value.asString) .empty
    resolver := ← fields.optional "resolver" Value.asAny
    middleware := ← fields.defaulted "middleware" (Value.asList Value.asAny) []
    afterware := ← fields.defaulted "afterware" (Value.asList Value.asAny) []
    context := ← fields.defaulted "context" Value.asTable .empty }

/-- The reference that the settings name, if any. -/
def explicitResolver (s : FieldSettings) : Except Fault (Option Reference) :=
  match s.resolver with
  | none => .ok none
  | some v =>
    match Reference.ofValue v with
    | .error e => .error e
    | .ok r => .ok (some r)

/-- One entry of a chain: a bare reference, or a table that spells out a plan. -/
def chainStep (v : Value) : Except Fault Plan :=
  if v.isTable then
    match Plan.decode v with
    | none => .error .json
    | some p => p.withContextTable p.context
  else
    match Reference.ofValue v with
    | .error e => .error e
    | .ok r => .ok (.new r)

/-- The plan of a field with the given primary. -/
def plan (s : FieldSettings) (primary : Reference) : Except Fault Plan :=
  match (Plan.new primary).withContextTable s.context with
  | .error e => .error e
  | .ok root =>
    match traverse chainStep s.middleware with
    | .error e => .error e
    | .ok middleware =>
      match traverse chainStep s.afterware with
      | .error e => .error e
      | .ok afterware => .ok { root with middleware, afterware }

end FieldSettings

/-- The name that stands for all fields. -/
def allFields : String := "*"

/-- Which model fields become schema fields. -/
inductive FieldSelection where
  | wildcard (text : String)
  | names (names : List String)
  /-- Fields with settings; the name for all fields also brings every other one. -/
  | configured (fields : Dict FieldSettings)

namespace FieldSelection

def decode (v : Value) : Option FieldSelection :=
  match v with
  | .string s => some (.wildcard s)
  | v =>
    match Value.asList Value.asString v with
    | some listed => some (.names listed)
    | none => (Value.asDict FieldSettings.decode v).map .configured

/-- Fields without settings of their own. -/
def unconfigured (names : List String) : Dict FieldSettings :=
  .ofList (names.map fun n => (n, {}))

/-- The selected fields with their settings; `key` names the setting in a message. -/
def resolve (modelFields : List String) (key : String) :
    FieldSelection → Except Fault (Dict FieldSettings)
  | .wildcard s =>
    if s = allFields then .ok (unconfigured modelFields)
    else .error (.config key s!"expected \"*\", a list of names, or a map; found \"{s}\"")
  | .names listed => .ok (unconfigured listed)
  | .configured fields =>
    let base := if fields.contains allFields then unconfigured modelFields else .empty
    .ok (base.overlay (fields.erase allFields))

end FieldSelection

/-- Generated root operations. -/
inductive Operation where
  /-- A filtered and paged list. -/
  | read
  /-- The first item that the arguments match. -/
  | readOne
deriving DecidableEq, Repr

def Operation.decode : Value → Option Operation :=
  Value.asWord Value.isNull [("read", .read), ("readOne", .readOne)]

/-- Settings of one modelled class. -/
structure ModelSettings where
  fields : FieldSelection := .wildcard allFields
  excludeFields : List String := []
  operations : List Operation := []
  typeName : Option String := none
  description : Option String := none
  interfaces : List String := []

def ModelSettings.decode (v : Value) : Option ModelSettings := do
  let fields ← v.record?
    ["fields", "exclude_fields", "operations", "type_name", "description", "interfaces"]
  let names := Value.asList Value.asString
  return {
    fields := ← fields.defaulted "fields" FieldSelection.decode (.wildcard allFields)
    excludeFields := ← fields.defaulted "exclude_fields" names []
    operations := ← fields.defaulted "operations" (Value.asList Operation.decode) []
    typeName := ← fields.optional "type_name" Value.asString
    description := ← fields.optional "description" Value.asString
    interfaces := ← fields.defaulted "interfaces" names [] }

/-- A block of loaders, and the model settings of every class it selects. -/
structure BulkLoadBlock where
  load : List LoaderEntry
  apply : Dict Value

def BulkLoadBlock.decode (v : Value) : Option BulkLoadBlock := do
  let fields ← v.record? ["load", "apply"]
  return {
    load := ← fields.defaulted "load" (Value.asList LoaderEntry.decode) []
    apply := ← fields.defaulted "apply" Value.asTable .empty }

structure TypeSettings where
  description : Option String
  interfaces : List String
  fields : Dict FieldSettings

def TypeSettings.decode (v : Value) : Option TypeSettings := do
  let fields ← v.record? ["description", "interfaces", "fields"]
  return {
    description := ← fields.optional "description" Value.asString
    interfaces := ← fields.defaulted "interfaces" (Value.asList Value.asString) []
    fields := ← fields.defaulted "fields" (Value.asDict FieldSettings.decode) .empty }

structure InterfaceSettings where
  description : Option String
  fields : Dict FieldSettings

def InterfaceSettings.decode (v : Value) : Option InterfaceSettings := do
  let fields ← v.record? ["description", "fields"]
  return {
    description := ← fields.optional "description" Value.asString
    fields := ← fields.defaulted "fields" (Value.asDict FieldSettings.decode) .empty }

structure InputFieldSettings where
  type : String
  description : Option String
  default : Option Value

def InputFieldSettings.decode (v : Value) : Option InputFieldSettings := do
  let fields ← v.record? ["type", "description", "default"]
  return {
    type := ← fields.required "type" Value.asString
    description := ← fields.optional "description" Value.asString
    default := ← fields.optional "default" Value.asAny }

structure InputSettings where
  description : Option String
  fields : Dict InputFieldSettings

def InputSettings.decode (v : Value) : Option InputSettings := do
  let fields ← v.record? ["description", "fields"]
  return {
    description := ← fields.optional "description" Value.asString
    fields := ← fields.defaulted "fields" (Value.asDict InputFieldSettings.decode) .empty }

structure UnionSettings where
  description : Option String
  types : List String

def UnionSettings.decode (v : Value) : Option UnionSettings := do
  let fields ← v.record? ["description", "types"]
  return {
    description := ← fields.optional "description" Value.asString
    types := ← fields.defaulted "types" (Value.asList Value.asString) [] }

/-- The values of an enum: plain names, or names with descriptions. -/
inductive EnumValueList where
  | names (names : List String)
  | described (descriptions : Dict String)

def EnumValueList.decode (v : Value) : Option EnumValueList :=
  match Value.asList Value.asString v with
  | some listed => some (.names listed)
  | none => (Value.asDict Value.asString v).map .described

structure EnumSettings where
  description : Option String
  values : EnumValueList

def EnumSettings.decode (v : Value) : Option EnumSettings := do
  let fields ← v.record? ["description", "values"]
  return {
    description := ← fields.optional "description" Value.asString
    values := ← fields.defaulted "values" EnumValueList.decode (.names []) }

structure ScalarSettings where
  description : Option String

def ScalarSettings.decode (v : Value) : Option ScalarSettings := do
  let fields ← v.record? ["description"]
  return { description := ← fields.optional "description" Value.asString }

end ClassSchema
