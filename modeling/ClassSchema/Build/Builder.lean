import ClassSchema.Build.BulkLoad
import ClassSchema.Build.Fields
/-!
# Building a schema

A build checks the resolver settings, runs the bulk loads, models every class that is exposed, and
turns each model into an object type with its operations; then come the declared definitions, and at
last the whole schema is validated. What a build leaves in its context stays there when it fails.
-/
namespace ClassSchema

/-- Settings of one schema, with the models and decisions made from them so far. -/
structure Context where
  name : String
  settings : Settings
  models : Dict Model
  decisions : Decisions

def Context.ofSettings (name : String) (settings : Settings) : Context := ⟨name, settings, .empty, []⟩

/-- What builds draw on. -/
structure Builder where
  index : Index
  scene : LoaderScene
  registry : Registry
  makers : List ModelMaker

namespace Builder

variable (b : Builder)

/-- The default resolver must be a primary. -/
def checkDefault (default : Option Reference) : Except Fault Unit :=
  match default with
  | none => .ok ()
  | some r =>
    match b.registry.primary r with
    | .error e => .error (.config "defaultResolver" e.message)
    | .ok _ => .ok ()

def bindings (settings : Settings) : Except Fault Bindings := do
  let strategy ← b.registry.strategy (← settings.resolverStrategy)
  let providers ← b.registry.providersInOrder (← settings.resolverProviders)
  let default ← settings.defaultResolver
  b.checkDefault default
  return ⟨b.registry, strategy, providers, default⟩

def makeModel (settings : Settings) (className : String) : Except Fault Model :=
  match b.makers.find? (·.appliesTo className) with
  | some maker => maker.make className settings
  | none => .error (.config s!"models.{className}" "no model creator applies to this class")

/-- The models of classes in order, made where they are missing. A failure leaves those made before. -/
def modelAll (settings : Settings) :
    List String → Dict Model → Except Fault (List Model) × Dict Model
  | [], known => (.ok [], known)
  | className :: rest, known =>
    match known.get? className with
    | some m =>
      match modelAll settings rest known with
      | (.error e, known) => (.error e, known)
      | (.ok ms, known) => (.ok (m :: ms), known)
    | none =>
      match b.makeModel settings className with
      | .error e => (.error e, known)
      | .ok m =>
        match modelAll settings rest (known.insert className m) with
        | (.error e, known) => (.error e, known)
        | (.ok ms, known) => (.ok (m :: ms), known)

/-- The type names of all modelled classes. -/
def exposedTypes (models : List Model) : Dict String :=
  .ofList (models.map fun m => (m.className, m.typeName))

def modelSettings (settings : Settings) (className : String) : Except Fault ModelSettings :=
  match settings.getAs ModelSettings.decode (.ofSegments ["models", className]) with
  | .error e => .error e
  | .ok found => .ok (found.getD {})

/-- Adds the type and the operations of one model. -/
def addModel (bindings : Bindings) (settings : Settings) (exposed : Dict String) (s : Schema)
    (m : Model) : Deciding Schema := do
  let own ← Deciding.ofExcept (modelSettings settings m.className)
  let object ← m.objectType bindings own exposed
  let s ← Deciding.ofExcept (s.add (.object object))
  Deciding.ofExcept (Operation.addAll bindings m own.operations s)

/-- A section of definitions by name. -/
def declared (settings : Settings) (decode : Value → Option α) (name : String) :
    Except Fault (List (String × α)) :=
  match settings.sectionOr (Value.asDict decode) name .empty with
  | .error e => .error e
  | .ok found => .ok found.entries

def scalarType (e : String × ScalarSettings) : Definition := .scalar ⟨e.1, e.2.description⟩

def enumValues : EnumValueList → List EnumValue
  | .names listed => listed.map fun n => ⟨n, none⟩
  | .described descriptions => descriptions.entries.map fun e => ⟨e.1, some e.2⟩

def enumType (e : String × EnumSettings) : Definition :=
  .enum ⟨e.1, e.2.description, enumValues e.2.values⟩

def inputField (e : String × InputFieldSettings) : String × InputField :=
  (e.1, ⟨e.1, e.2.type, e.2.description, e.2.default⟩)

def inputType (e : String × InputSettings) : Definition :=
  .input ⟨e.1, e.2.description, ⟨e.2.fields.entries.map inputField⟩⟩

def unionType (e : String × UnionSettings) : Definition :=
  .union ⟨e.1, e.2.description, e.2.types⟩

def interfaceType (e : String × InterfaceSettings) : Except Fault Definition :=
  match traverse (interfaceField e.1) e.2.fields.entries with
  | .error e => .error e
  | .ok fields => .ok (.interface ⟨e.1, e.2.description, ⟨fields⟩⟩)

def addInterface (s : Schema) (e : String × InterfaceSettings) : Except Fault Schema :=
  match interfaceType e with
  | .error e => .error e
  | .ok d => s.add d

def declaredType (bindings : Bindings) (e : String × TypeSettings) : Deciding ObjectType := do
  let fields ← Deciding.each (fun f => declaredField bindings e.1 f.1 f.2) e.2.fields.entries
  return ⟨e.1, e.2.description, e.2.interfaces, .ofList (fields.map fun f => (f.name, f))⟩

def addType (bindings : Bindings) (s : Schema) (e : String × TypeSettings) : Deciding Schema := do
  Deciding.ofExcept (s.add (.object (← declaredType bindings e)))

/-- Adds a declared field to a root type, in place of a generated one of that name. -/
def addRootField (bindings : Bindings) (root : String) (s : Schema) (e : String × FieldSettings) :
    Deciding Schema := do
  let field ← declaredField bindings root e.1 e.2
  let object ← Deciding.ofExcept (s.root root)
  return s.put root (.object (object.addField field))

/-- Adds scalars, enums, inputs, unions and interfaces. -/
def addPlain (settings : Settings) (s : Schema) : Except Fault Schema := do
  let s ← (← declared settings ScalarSettings.decode "scalars").foldlM
    (fun s e => s.add (scalarType e)) s
  let s ← (← declared settings EnumSettings.decode "enums").foldlM (fun s e => s.add (enumType e)) s
  let s ← (← declared settings InputSettings.decode "inputs").foldlM
    (fun s e => s.add (inputType e)) s
  let s ← (← declared settings UnionSettings.decode "unions").foldlM
    (fun s e => s.add (unionType e)) s
  (← declared settings InterfaceSettings.decode "interfaces").foldlM addInterface s

/-- Adds declared types, then the declared fields of the two roots. -/
def addResolved (bindings : Bindings) (settings : Settings) (s : Schema) : Deciding Schema := do
  let s ← (← Deciding.ofExcept (declared settings TypeSettings.decode "types")).foldlM
    (addType bindings) s
  let s ← (← Deciding.ofExcept (declared settings FieldSettings.decode "queries")).foldlM
    (addRootField bindings queryType) s
  (← Deciding.ofExcept (declared settings FieldSettings.decode "mutations")).foldlM
    (addRootField bindings mutationType) s

/-- The schema of models and settings. -/
def assemble (bindings : Bindings) (name : String) (settings : Settings) (models : List Model) :
    Deciding Schema := do
  let s ← models.foldlM (addModel bindings settings (exposedTypes models)) (Schema.new name)
  let s ← Deciding.ofExcept (addPlain settings s)
  let s ← addResolved bindings settings s
  Deciding.ofExcept s.validate
  return s

/-- Builds the schema of a context, and gives the context as it is afterwards. -/
def build (ctx : Context) : Except Fault Schema × Context :=
  match b.bindings ctx.settings with
  | .error e => (.error e, ctx)
  | .ok bindings =>
    match BulkLoad.apply b.scene b.index ctx.settings with
    | (.error e, settings) => (.error e, { ctx with settings })
    | (.ok classes, settings) =>
      match b.modelAll settings classes ctx.models with
      | (.error e, models) => (.error e, { ctx with settings, models })
      | (.ok made, models) =>
        match assemble bindings ctx.name settings made ctx.decisions with
        | .error e decisions => (.error e, { ctx with settings, models, decisions })
        | .ok s decisions => (.ok s, { ctx with settings, models, decisions })

end Builder
end ClassSchema
