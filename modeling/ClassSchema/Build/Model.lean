import ClassSchema.Class.Index
import ClassSchema.Schema.Basic
import ClassSchema.Settings.Defaults
/-!
# Models

A model is what a schema sees of one class: its type name, its fields with references to classes
turned into references to their types, and a default resolver. Entity models are made from class
descriptors and the settings.
-/
namespace ClassSchema

structure ModelField where
  type : String
  /-- The class that the field refers to, if its type is one. -/
  target : Option String
  description : Option String
  args : Dict String
  /-- The resolver that the class declares. -/
  resolver : Option Reference
deriving DecidableEq, Repr

structure Model where
  className : String
  /-- The kind of model, as discovery knows it. -/
  identifier : String
  typeName : String
  description : Option String
  fields : Dict ModelField
  /-- What resolves a field when discovery finds nothing. -/
  defaultResolver : Option Reference
deriving DecidableEq, Repr

/-- Makes models of the classes it applies to. -/
structure ModelMaker where
  appliesTo : String → Bool
  make : String → Settings → Except Fault Model

namespace Entity

def identifier : String := "Entity"

/-- The type name that settings give a class, if they do. -/
def namedType (settings : Settings) (className : String) : Except Fault (Option String) :=
  settings.getAs Value.asString (.ofSegments ["models", className, "type_name"])

/-- The prefix of type names that are made from class names. -/
def typePrefix (settings : Settings) : String :=
  (((settings.modelConfig identifier).bind (·.get? "type_prefix")).bind Value.string?).getD ""

/-- The type name of a class: the one that settings give, else the prefix and the short name. -/
def typeName (settings : Settings) (className : String) : Except Fault String :=
  match namedType settings className with
  | .error e => .error e
  | .ok (some name) =>
    match checkName s!"models.{className}.type_name" name with
    | .error e => .error e
    | .ok () => .ok name
  | .ok none =>
    let name := typePrefix settings ++ shortName className
    match checkName s!"models.{className}" name with
    | .error e => .error e
    | .ok () => .ok name

/-- The type of a field and the class it refers to. -/
def fieldType (ix : Index) (settings : Settings) (declared : String) :
    Except Fault (String × Option String) :=
  let base := baseType declared
  if ix.hasClass base then
    match typeName settings base with
    | .error e => .error e
    | .ok name => .ok (rebase declared name, some base)
  else .ok (trimmed declared, none)

def declaredResolver (spec : FieldSpec) : Except Fault (Option Reference) :=
  match spec.resolver with
  | none => .ok none
  | some text =>
    match Reference.parse text with
    | .error e => .error e
    | .ok r => .ok (some r)

def modelField (ix : Index) (settings : Settings) (e : String × FieldSpec) :
    Except Fault (String × ModelField) :=
  match fieldType ix settings e.2.type with
  | .error e => .error e
  | .ok (type, target) =>
    match declaredResolver e.2 with
    | .error e => .error e
    | .ok resolver => .ok (e.1, ⟨type, target, e.2.description, e.2.args, resolver⟩)

/-- The default resolver that the settings give to entity models. -/
def defaultResolver (settings : Settings) : Except Fault (Option Reference) :=
  match (settings.modelConfig identifier).bind (·.get? "default_resolver") with
  | none => .ok none
  | some v =>
    match Reference.ofValue v with
    | .error e => .error e
    | .ok r => .ok (some r)

def model (ix : Index) (className : String) (settings : Settings) : Except Fault Model :=
  match traverse (modelField ix settings) (ix.fieldsOf className).entries with
  | .error e => .error e
  | .ok fields =>
    match defaultResolver settings with
    | .error e => .error e
    | .ok default =>
      match typeName settings className with
      | .error e => .error e
      | .ok name =>
        .ok {
          className
          identifier
          typeName := name
          description := (ix.descriptor className).bind (·.description)
          fields := ⟨fields⟩
          defaultResolver := default }

/-- Models every class of an index. -/
def maker (ix : Index) : ModelMaker := ⟨ix.hasClass, model ix⟩

end Entity
end ClassSchema
