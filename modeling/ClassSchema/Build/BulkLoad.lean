import ClassSchema.Build.Model
import ClassSchema.Settings.Sections
/-!
# Bulk loads

The blocks of the section `bulkLoad` select classes by loader pipelines and lay settings over the
models of what they select. All blocks are checked before any of them runs; settings that name a class
themselves are laid over those of the blocks.
-/
namespace ClassSchema

/-- What loaders work on besides the classes themselves. -/
structure LoaderScene where
  table : LoaderTable
  /-- The folder that relative file patterns start from. -/
  base : String
  files : FileTree

/-- A block that has run: its name, the settings it applies and the classes it selected. -/
structure BlockRun where
  name : String
  apply : Dict Value
  selected : Collection

namespace BulkLoad

/-- A block's pipeline over all classes, its targets checked. -/
def prepare (scene : LoaderScene) (ix : Index) (block : String × BulkLoadBlock) :
    Except Fault (String × Dict Value × Pipeline) :=
  match Pipeline.ofEntries scene.table scene.base scene.files ix.collection block.2.load with
  | .error e => .error e
  | .ok p =>
    match p.validate ix with
    | .error e => .error e
    | .ok () => .ok (block.1, block.2.apply, p)

def runPrepared (ix : Index) (block : String × Dict Value × Pipeline) : Except Fault BlockRun :=
  match block.2.2.process ix with
  | .error e => .error e
  | .ok selected => .ok ⟨block.1, block.2.1, selected⟩

/-- Runs all blocks, in name order, after all of them are checked. -/
def run (scene : LoaderScene) (ix : Index) (settings : Settings) : Except Fault (List BlockRun) :=
  match settings.sectionOr (Value.asDict BulkLoadBlock.decode) "bulkLoad" .empty with
  | .error e => .error e
  | .ok blocks =>
    match traverse (prepare scene ix) blocks.entries with
    | .error e => .error e
    | .ok prepared => traverse (runPrepared ix) prepared

/-- The classes that each block selects. -/
def select (scene : LoaderScene) (ix : Index) (settings : Settings) :
    Except Fault (Dict Collection) :=
  match run scene ix settings with
  | .error e => .error e
  | .ok runs => .ok (.ofList (runs.map fun r => (r.name, r.selected)))

/-- Settings to be laid over the model of one class. -/
abbrev Layer := String × Value

def modelPath (className : String) : SettingsPath := .ofSegments ["models", className]

/-- Lays settings over models one after the other. A failure leaves what was laid before it. -/
def layOver : List Layer → Settings → Except Fault Unit × Settings
  | [], settings => (.ok (), settings)
  | (className, v) :: rest, settings =>
    match settings.merge (modelPath className) v with
    | .error e => (.error e, settings)
    | .ok settings => layOver rest settings

/-- The settings of blocks for their classes, block by block, then those of the classes themselves. -/
def layers (runs : List BlockRun) (explicit : Dict Value) : List Layer :=
  runs.flatMap (fun r => r.selected.keys.map fun name => (name, .table r.apply)) ++ explicit.entries

/-- The classes to be modelled, each once and in name order. -/
def modelled (runs : List BlockRun) (explicit : Dict Value) : List String :=
  let selected := runs.flatMap fun r => r.selected.keys
  (Dict.ofList ((explicit.keys ++ selected).map fun name => (name, ()))).keys

/-- A class that settings name must be known. -/
def checkClass (ix : Index) (className : String) : Except Fault Unit :=
  if ix.hasClass className then .ok ()
  else .error (.unknownClass className (suggest? className ix.knownNames))

/-- Runs the blocks and lays all model settings in place. -/
def apply (scene : LoaderScene) (ix : Index) (settings : Settings) :
    Except Fault (List String) × Settings :=
  match settings.sectionOr Value.asTable "models" .empty with
  | .error e => (.error e, settings)
  | .ok explicit =>
    match checkEach (checkClass ix) explicit.keys with
    | .error e => (.error e, settings)
    | .ok () =>
      match run scene ix settings with
      | .error e => (.error e, settings)
      | .ok runs =>
        match layOver (layers runs explicit) settings with
        | (.error e, settings) => (.error e, settings)
        | (.ok (), settings) => (.ok (modelled runs explicit), settings)

end BulkLoad
end ClassSchema
