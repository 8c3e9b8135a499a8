import ClassSchema.Build.Model
import ClassSchema.Settings.Sections
/-!
# Fields of a schema

Every output field is bound to a primary: the explicit one, else what was decided for its type and
name before, else what discovery finds, which becomes a decision. Model types take their fields from a
model and its settings; declared fields need a type of their own.
-/
namespace ClassSchema

/-- Decided primaries by type and field, the latest first. -/
abbrev Decisions := List ((String × String) × Reference)

namespace Decisions

def get? (d : Decisions) (type field : String) : Option Reference :=
  (d.find? fun e => e.1 = (type, field)).map (·.2)

def record (d : Decisions) (type field : String) (r : Reference) : Decisions :=
  ((type, field), r) :: d

end Decisions

/-- How a build finds its resolvers. -/
structure Bindings where
  registry : Registry
  strategy : Strategy
  providers : List Provider
  default : Option Reference

/-- Work that may record decisions and may fail; what it recorded before stays. -/
abbrev Deciding := EStateM Fault Decisions

namespace Deciding

def ofExcept : Except Fault α → Deciding α
  | .ok a => pure a
  | .error e => throw e

/-- Works through a list up to the first fault. -/
def each (f : α → Deciding β) : List α → Deciding (List β)
  | [] => pure []
  | x :: xs => do
    let y ← f x
    let ys ← each f xs
    return y :: ys

end Deciding

namespace Bindings

variable (b : Bindings)

/-- The primary of a field. -/
def primary (type field : String) (model : Option Model) (explicit : Option Reference) :
    Deciding Reference := do
  match explicit with
  | some r => return r
  | none =>
    match (← get).get? type field with
    | some r => return r
    | none =>
      let site : FieldSite := ⟨type, field, model.map (·.identifier)⟩
      let found ← Deciding.ofExcept
        (discover b.strategy b.providers site (model.bind (·.defaultResolver)) b.default)
      modify (·.record type field found)
      return found

/-- A plan whose references can all be bound. -/
def bindable (p : Plan) : Except Fault Plan :=
  match p.bind b.registry with
  | .error e => .error e
  | .ok _ => .ok p

/-- The plan of a field around its primary. -/
def plan (s : FieldSettings) (primary : Reference) : Except Fault Plan :=
  match s.plan primary with
  | .error e => .error e
  | .ok p => b.bindable p

end Bindings

def toArguments (args : Dict String) : List Argument := args.entries.map fun e => ⟨e.1, e.2⟩

/-- The type a declared field must give. -/
def requiredType (type field : String) (s : FieldSettings) : Except Fault String :=
  match s.type with
  | some t => .ok t
  | none => .error (.config s!"{type}.{field}" "declared fields need a 'type'")

/-- A field of a declared type or root. -/
def declaredField (b : Bindings) (type name : String) (s : FieldSettings) : Deciding Field := do
  let fieldType ← Deciding.ofExcept (requiredType type name s)
  let explicit ← Deciding.ofExcept s.explicitResolver
  let primary ← b.primary type name none explicit
  let plan ← Deciding.ofExcept (b.plan s primary)
  return ⟨name, fieldType, s.description, toArguments s.args, some plan⟩

/-- A field of an interface, which is never resolved itself. -/
def interfaceField (type : String) (e : String × FieldSettings) : Except Fault (String × Field) :=
  match requiredType type e.1 e.2 with
  | .error e => .error e
  | .ok fieldType => .ok (e.1, ⟨e.1, fieldType, e.2.description, toArguments e.2.args, none⟩)

namespace Model

/-- The type of a field of a model, if the field is there to stay: one that refers to a class without
a type in this schema is left out. -/
def fieldType (m : Model) (exposed : Dict String) (name : String) (s : FieldSettings) :
    Except Fault (Option String) :=
  match s.type, m.fields.get? name with
  | some t, _ => .ok (some t)
  | none, some f =>
    match f.target with
    | some target => .ok (if exposed.contains target then some f.type else none)
    | none => .ok (some f.type)
  | none, none =>
    .error (.config s!"models.{m.className}.fields"
      s!"'{m.className}' has no field '{name}'{hint (suggest? name m.fields.keys)}")

/-- One selected field, if it is there to stay. -/
def field (b : Bindings) (m : Model) (exposed : Dict String) (name : String) (s : FieldSettings) :
    Deciding (Option Field) := do
  match ← Deciding.ofExcept (m.fieldType exposed name s) with
  | none => return none
  | some type =>
    let own := m.fields.get? name
    let explicit ← Deciding.ofExcept s.explicitResolver
    let primary ← b.primary m.typeName name (some m)
      (explicit.or (own.bind (·.resolver)))
    let plan ← Deciding.ofExcept (b.plan s primary)
    let ownArgs : Dict String := (own.map ModelField.args).getD .empty
    let args := toArguments (ownArgs.overlay s.args)
    return some ⟨name, type, s.description.or (own.bind (·.description)), args, some plan⟩

/-- The object type of a model. -/
def objectType (b : Bindings) (m : Model) (s : ModelSettings) (exposed : Dict String) :
    Deciding ObjectType := do
  let selected ← Deciding.ofExcept
    (s.fields.resolve m.fields.keys s!"models.{m.className}.fields")
  let kept := selected.entries.filter fun e => !s.excludeFields.contains e.1
  let fields ← Deciding.each (fun e => m.field b exposed e.1 e.2) kept
  return {
    name := m.typeName
    description := s.description.or m.description
    interfaces := s.interfaces
    fields := .ofList ((fields.filterMap id).map fun f => (f.name, f)) }

end Model

namespace Operation

/-- The name under which a source holds the items of a type. -/
def collectionName (typeName : String) : String := camelCase (plural typeName)

/-- The plan that reads the items of a type, keeps those that the arguments match, and ends in
`last`. -/
def plan (typeName last : String) : Except Fault Plan :=
  match (Plan.new (Builtin.reference "read")).withContext "collection"
      (.string (collectionName typeName)) with
  | .error e => .error e
  | .ok p =>
    .ok ((p.after (.new (Builtin.reference "filterByArgs"))).after (.new (Builtin.reference last)))

/-- The query field of an operation, still without its plan. -/
def queryField (typeName : String) : Operation → Field
  | .read =>
    ((Field.new ("read" ++ plural typeName) s!"[{typeName}]").withArg "offset" "Int").withArg
      "limit" "Int"
  | .readOne => (Field.new ("readOne" ++ typeName) typeName).withArg "id" "ID"

/-- The step that ends an operation's plan. -/
def lastStep : Operation → String
  | .read => "paginate"
  | .readOne => "first"

/-- The query field of an operation. -/
def field (b : Bindings) (typeName : String) (op : Operation) : Except Fault Field :=
  match plan typeName op.lastStep with
  | .error e => .error e
  | .ok p =>
    match b.bindable p with
    | .error e => .error e
    | .ok p => .ok ((op.queryField typeName).withResolver p)

/-- Adds the query field of an operation, whose name must be new among the query's fields. -/
def addTo (b : Bindings) (m : Model) (op : Operation) (s : Schema) : Except Fault Schema :=
  match op.field b m.typeName with
  | .error e => .error e
  | .ok f =>
    match s.root queryType with
    | .error e => .error e
    | .ok query =>
      if query.fields.contains f.name then
        .error (.config s!"models.{m.className}.operations"
          s!"query field '{f.name}' is generated twice")
      else .ok (s.put queryType (.object (query.addField f)))

/-- Adds the operations of a model, each once, lists before single items. -/
def addAll (b : Bindings) (m : Model) (ops : List Operation) (s : Schema) : Except Fault Schema :=
  ([.read, .readOne].filter ops.contains).foldlM (fun s op => op.addTo b m s) s

end Operation
end ClassSchema
