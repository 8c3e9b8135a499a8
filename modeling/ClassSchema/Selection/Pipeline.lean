import ClassSchema.Selection.Loader
/-!
# Loader pipelines

A pipeline runs loaders one after the other over an initial collection. Whatever a loader returns, no
class gets in that was not there before.
-/
namespace ClassSchema

/-- One loader as settings name it. -/
structure LoaderEntry where
  loader : String
  patterns : Patterns
deriving DecidableEq, Repr

def LoaderEntry.decode (v : Value) : Option LoaderEntry := do
  let fields ← v.record? ["loader", "include", "exclude"]
  let names := Value.asList Value.asString
  return {
    loader := ← fields.required "loader" Value.asString
    patterns := {
      includes := ← fields.defaulted "include" names []
      excludes := ← fields.defaulted "exclude" names [] } }

/-- The known loaders, each made from its options. -/
structure LoaderTable where
  makers : Dict (LoaderOptions → Except Fault Loader)

namespace LoaderTable

def builtin : LoaderTable :=
  ⟨.ofList [
    (Loader.Inheritance.id, fun o => .ok (Loader.byAncestor o.patterns)),
    (Loader.Marker.id, fun o => .ok (Loader.byMarker o.patterns)),
    (Loader.Namespace.id, fun o => Loader.byName o.patterns),
    (Loader.FilePath.id, Loader.byFile)]⟩

def register (t : LoaderTable) (id : String) (make : LoaderOptions → Except Fault Loader) :
    LoaderTable :=
  ⟨t.makers.insert id make⟩

def make (t : LoaderTable) (base : String) (files : FileTree) (entry : LoaderEntry) :
    Except Fault Loader :=
  match t.makers.get? entry.loader with
  | some f => f ⟨entry.patterns, base, files⟩
  | none => .error (.unknownLoader entry.loader (suggest? entry.loader t.makers.keys))

end LoaderTable

structure Pipeline where
  initial : Collection
  loaders : List Loader

namespace Pipeline

def ofEntries (t : LoaderTable) (base : String) (files : FileTree) (initial : Collection)
    (entries : List LoaderEntry) : Except Fault Pipeline :=
  match traverse (t.make base files) entries with
  | .error e => .error e
  | .ok loaders => .ok ⟨initial, loaders⟩

/-- Checks the targets of every loader. -/
def validate (p : Pipeline) (ix : Index) : Except Fault Unit :=
  checkEach (fun l => l.validate ix) p.loaders

/-- One loader's stage; classes that were not in its input are dropped. -/
def stage (ix : Index) (l : Loader) (current : Collection) : Except Fault Collection :=
  match l.collect current ix with
  | .error e => .error e
  | .ok next => .ok (if next.isWithin current then next else next.restrictTo current)

def run (ix : Index) : List Loader → Collection → Except Fault Collection
  | [], current => .ok current
  | l :: rest, current =>
    match stage ix l current with
    | .error e => .error e
    | .ok next => run ix rest next

def process (p : Pipeline) (ix : Index) : Except Fault Collection := run ix p.loaders p.initial

end Pipeline
end ClassSchema
