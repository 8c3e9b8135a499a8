import ClassSchema.Build.Builder
import ClassSchema.Class.Load
import ClassSchema.Config.Basic
import ClassSchema.Serve.Service
import ClassSchema.Store.Persist
/-!
# Projects

A project ties classes, configuration, resolvers and templates together. The settings of a schema are
the defaults of the configuration with the fragments of its folders laid over them; from them it is
compiled, and what is compiled is stored.
-/
namespace ClassSchema

structure Project where
  located : Config.Located
  index : Index
  registry : Registry
  templates : TemplateLibrary

namespace Project

def isTemplate (path : String) : Bool := Path.extension? path = some "hbs"

/-- Registers the templates of a folder over those there are. -/
def registerAll : List (String × String) → TemplateLibrary → Except Fault TemplateLibrary
  | [], l => .ok l
  | (path, source) :: rest, l =>
    match l.register ((Path.stem? path).getD "") source with
    | .error e => .error e
    | .ok l => registerAll rest l

/-- The built-in templates, and those of a folder in their place. -/
def loadTemplates (t : FileTree) (folder : Option String) : Except Fault TemplateLibrary :=
  match folder with
  | none => .ok .builtin
  | some folder =>
    if t.hasFolder folder then
      registerAll ((t.filesBelow folder).filter fun f => isTemplate f.1) .builtin
    else .error (.config "output.templates" s!"template directory {folder} does not exist")

/-- Opens a project, with the cache of its store. -/
def openIn (t : FileTree) (located : Config.Located) (registry : Registry) :
    Except Fault (Project × SignatureCache) := do
  let index ← Index.load t located.classPaths
  let templates ← loadTemplates t located.templatesPath
  let cache ← SignatureCache.openAt t located.cachePath
  return (⟨located, index, registry, templates⟩, cache)

variable (p : Project)

def config : Config := p.located.config

def store : Store := ⟨p.located.outputPath, p.templates.encoder⟩

/-- The stem of the fragments that hold settings of all sections. -/
def rootStem : String := "schema"

/-- The value of a fragment, for files that are fragments by their extension. -/
def readFragment (file : String × String) : Except Fault (Option (String × Value)) :=
  let stem := (Path.stem? file.1).getD ""
  match Path.extension? file.1 with
  | some "toml" =>
    match Toml.read file.2 with
    | .error e => .error e
    | .ok v => .ok (some (stem, v))
  | some "json" =>
    match Value.ofText? file.2 with
    | none => .error .json
    | some v => .ok (some (stem, v.ordered))
  | _ => .ok none

/-- The files that stand in a folder itself. -/
def filesIn (t : FileTree) (folder : String) : List (String × String) :=
  match t.lookAt? folder with
  | some below =>
    below.entries.entries.filterMap fun e => e.2.text?.map fun text => (Path.join folder e.1, text)
  | none => []

/-- The fragments of a folder in the order in which they are laid over each other: those for all
sections first. -/
def fragments (t : FileTree) (folder : String) : Except Fault (List (String × Value)) :=
  match traverse readFragment (filesIn t folder) with
  | .error e => .error e
  | .ok found =>
    let all := found.filterMap id
    .ok (all.filter (·.1 = rootStem) ++ all.filter (·.1 ≠ rootStem))

/-- Lays a fragment over the settings: at the root, or at the path of its stem. -/
def layFragment (settings : Settings) (fragment : String × Value) : Except Fault Settings :=
  if fragment.1 = rootStem then
    match fragment.2 with
    | .table d => .ok (settings.deepMerge d)
    | _ => .ok settings
  else settings.merge (.ofDots fragment.1) fragment.2

def layFolder (t : FileTree) (name : String) (settings : Settings) (folder : String) :
    Except Fault Settings :=
  if t.hasFolder folder then
    match fragments t folder with
    | .error e => .error e
    | .ok found => found.foldlM layFragment settings
  else .error (.config s!"schemas.{name}.src" s!"{folder} is not a directory")

/-- What the configuration says for all schemas. -/
def defaults : Settings :=
  .ofList [
    ("resolvers", .strings p.config.resolvers),
    ("resolverStrategy", .string p.config.resolverStrategy),
    ("defaultResolver", .string p.config.defaultResolver),
    ("modelConfig", .table (p.config.modelConfig.map .table))]

def unknownSchema (name : String) : Fault :=
  .config s!"schemas.{name}" s!"unknown schema{hint (suggest? name p.config.schemas.keys)}"

/-- The settings of a schema. -/
def context (t : FileTree) (name : String) : Except Fault Context :=
  match p.located.schemaSources name with
  | none => .error (p.unknownSchema name)
  | some folders =>
    match folders.foldlM (layFolder t name) p.defaults with
    | .error e => .error e
    | .ok settings => .ok (.ofSettings name settings)

def builder (t : FileTree) : Builder where
  index := p.index
  scene := ⟨.builtin, p.located.root, t⟩
  registry := p.registry
  makers := [Entity.maker p.index]

/-- The classes that each bulk-load block of a schema selects. -/
def select (t : FileTree) (name : String) : Except Fault (Dict Collection) :=
  match p.context t name with
  | .error e => .error e
  | .ok ctx => BulkLoad.select (p.builder t).scene p.index ctx.settings

def compile (t : FileTree) (name : String) : Except Fault Schema :=
  match p.context t name with
  | .error e => .error e
  | .ok ctx => ((p.builder t).build ctx).1

/-- Compiles a schema and stores it. -/
def build (name : String) : Storing PersistReport := fun s =>
  match p.compile s.tree name with
  | .error e => .error e s
  | .ok schema => p.store.persist schema s

/-- Builds schemas in order, up to the first fault. -/
def buildEach : List String → Storing (List (String × PersistReport))
  | [] => pure []
  | name :: rest => do
    let report ← p.build name
    return (name, report) :: (← buildEach rest)

/-- Builds every schema of the configuration. -/
def buildAll : Storing (List (String × PersistReport)) := p.buildEach p.config.schemas.keys

def clear (name : String) : Storing Unit := p.store.clear name

/-- A service for a schema with a rebuild of one's own. -/
def serviceWith (name : String) (rebuild : Option (Storing Unit)) : Service :=
  ⟨p.store.root, name, p.registry, rebuild⟩

/-- Builds a schema without giving a report. -/
def rebuild (name : String) : Storing Unit := do
  discard (p.build name)

/-- A service for a schema, which rebuilds it if the configuration allows that. -/
def service (name : String) : Service :=
  p.serviceWith name (if p.config.output.autoBuild then some (p.rebuild name) else none)

end Project
end ClassSchema
