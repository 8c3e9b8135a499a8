import ClassSchema.Files.Path
import ClassSchema.Resolver.Discovery
import ClassSchema.Value.Decoder
/-!
# Configuration

Where a project keeps its classes, the sources of its schemas, its output, and what holds for all of
its schemas. Relative paths start at the root of the project, which itself starts at the working
directory.
-/
namespace ClassSchema

structure OutputConfig where
  /-- The folder that generated schemas are stored in. -/
  path : String := "generated/graphql"
  /-- The file of remembered signatures. -/
  cache : String := ".graphql-cache/signatures.json"
  /-- A folder with templates that replace the built-in ones. -/
  templates : Option String := none
  /-- Whether a schema that is missing or stale is built when it is asked for. -/
  autoBuild : Bool := true
deriving DecidableEq, Repr

structure Config where
  root : String := "."
  classPaths : List String := ["models"]
  output : OutputConfig := {}
  resolvers : List String := []
  resolverStrategy : String := Convention.strategyName
  defaultResolver : String := "Builtin::resolve"
  modelConfig : Dict (Dict Value) := .empty
  /-- The folders of settings of each schema. -/
  schemas : Dict (List String) := .empty
deriving Repr

namespace Config

/-- What a configuration is asked for. -/
def shape : Shape :=
  .record [
    ("project", .record [("root", .text), ("class_paths", .list .text)]),
    ("output", .record [("path", .text), ("cache", .text), ("templates", .text),
      ("auto_build", .flag)]),
    ("resolvers", .list .text),
    ("resolver_strategy", .text),
    ("default_resolver", .text),
    ("model_config", .any),
    ("schemas", .table (.record [("src", .list .text)]))]

def decodeProject (v : Value) : Option (String × List String) := do
  let fields ← v.record? ["root", "class_paths"]
  return (← fields.defaulted "root" Value.asString ".",
    ← fields.defaulted "class_paths" (Value.asList Value.asString) ["models"])

def decodeOutput (v : Value) : Option OutputConfig := do
  let fields ← v.record? ["path", "cache", "templates", "auto_build"]
  let default : OutputConfig := {}
  return {
    path := ← fields.defaulted "path" Value.asString default.path
    cache := ← fields.defaulted "cache" Value.asString default.cache
    templates := ← fields.optional "templates" Value.asString
    autoBuild := ← fields.defaulted "auto_build" Value.asBool default.autoBuild }

def decodeSource (v : Value) : Option (List String) := do
  let fields ← v.record? ["src"]
  fields.defaulted "src" (Value.asList Value.asString) []

def decode (v : Value) : Option Config := do
  let fields ← v.record? ["project", "output", "resolvers", "resolver_strategy",
    "default_resolver", "model_config", "schemas"]
  let default : Config := {}
  let (root, classPaths) ← fields.defaulted "project" decodeProject
    (default.root, default.classPaths)
  return {
    root, classPaths
    output := ← fields.defaulted "output" decodeOutput default.output
    resolvers := ← fields.defaulted "resolvers" (Value.asList Value.asString) []
    resolverStrategy := ← fields.defaulted "resolver_strategy" Value.asString
      default.resolverStrategy
    defaultResolver := ← fields.defaulted "default_resolver" Value.asString
      default.defaultResolver
    modelConfig := ← fields.defaulted "model_config" (Value.asDict Value.asTable) .empty
    schemas := ← fields.defaulted "schemas" (Value.asDict decodeSource) .empty }

/-- The configuration as a value. -/
def value (c : Config) : Value :=
  .ofPairs [
    ("project", .ofPairs [("root", .string c.root), ("class_paths", .strings c.classPaths)]),
    ("output", .ofPairs [("path", .string c.output.path), ("cache", .string c.output.cache),
      ("templates", .ofString? c.output.templates), ("auto_build", .bool c.output.autoBuild)]),
    ("resolvers", .strings c.resolvers),
    ("resolver_strategy", .string c.resolverStrategy),
    ("default_resolver", .string c.defaultResolver),
    ("model_config", .table (c.modelConfig.map .table)),
    ("schemas", .table (c.schemas.map fun src => .ofPairs [("src", .strings src)]))]

/-- The paths of a configuration, given the working directory. -/
structure Located where
  config : Config
  workingDirectory : String

namespace Located

def root (l : Located) : String := Path.join l.workingDirectory l.config.root

def resolve (l : Located) (path : String) : String := Path.join l.root path

def classPaths (l : Located) : List String := l.config.classPaths.map l.resolve

def outputPath (l : Located) : String := l.resolve l.config.output.path

def cachePath (l : Located) : String := l.resolve l.config.output.cache

def templatesPath (l : Located) : Option String := l.config.output.templates.map l.resolve

/-- The folders of settings of a schema. -/
def schemaSources (l : Located) (name : String) : Option (List String) :=
  (l.config.schemas.get? name).map (·.map l.resolve)

end Located
end Config
end ClassSchema
