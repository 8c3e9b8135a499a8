import ClassSchema.Config.Basic
import ClassSchema.Config.Layers
import ClassSchema.Config.Scalars
import ClassSchema.Config.Variables
import ClassSchema.Files.Disk
import ClassSchema.Toml.Reader
/-!
# Loading configuration

The configuration is read from files at known places, a file of the user, a file that is asked for,
and the environment, each source over those before it.
-/
namespace ClassSchema.Config

/-- What configuration is loaded from. -/
structure Surroundings where
  workingDirectory : String
  files : FileTree
  environment : List (String × String)
  /-- The folder for configuration of the user, if there is one. -/
  userFolder : Option String

/-- Places that are tried in every project. -/
def usualPlaces : List String :=
  ["schema-compiler.toml", ".schema-compiler.toml", "config/schema-compiler.toml"]

/-- The file of the user below the folder for configuration. -/
def userPlace : String := "schema-compiler/schema-compiler.toml"

inductive Format where
  | toml
  | json
deriving DecidableEq, Repr

def Format.ofExtension? (e : Option String) : Option Format :=
  if e = some "toml" then some .toml else if e = some "json" then some .json else none

/-- Numbers of JSON beyond 64 bits with a sign are floats. -/
def signedNumber : Number → Datum
  | .integer i =>
    if Number.isSignedWord i then .number (.integer i)
    else
      match Binary64.nearest? (i < 0) i.natAbs 1 with
      | some x => .number (.float x)
      | none => .notFinite (.infinite (i < 0))
  | .float x => .number (.float x)

mutual

/-- A value as a source gives it. -/
def givenValue : Value → Datum
  | .null => .null
  | .bool b => .bool b
  | .number n => signedNumber n
  | .string s => .string s
  | .list items => .list (givenItems items)
  | .table ⟨entries⟩ => .table ⟨givenEntries entries⟩

def givenItems : List Value → List Datum
  | [] => []
  | v :: vs => givenValue v :: givenItems vs

def givenEntries : List (String × Value) → List (String × Datum)
  | [] => []
  | (key, v) :: es => (key, givenValue v) :: givenEntries es

end

/-- The table that a file of configuration holds. -/
def readSource (format : Format) (text : String) : Option (List (String × Datum)) :=
  match format with
  | .toml => (Toml.ofText? text).map (·.entries)
  | .json => do return givenEntries (← (← Value.ofText? text).ordered.table?).entries

/-- The file that a name stands for: the one of that name, or with an extension added. A file of that
name with another extension is a fault. -/
def findFile (s : Surroundings) (name : String) : Except Fault (Option (String × Format)) :=
  let path := Path.join s.workingDirectory name
  if s.files.hasFile path then
    match Format.ofExtension? (Path.extension? path) with
    | some format => .ok (some (path, format))
    | none => .error .configSource
  else .ok (([("toml", .toml), ("json", .json)] : List (String × Format)).findSome? fun e =>
    (Path.addExtension? path e.1).bind fun longer =>
      if s.files.hasFile longer then some (longer, e.2) else none)

/-- What a file gives; nothing if it is missing and need not be there. -/
def fileSource (s : Surroundings) (isRequired : Bool) (name : String) :
    Except Fault (List (String × Datum)) :=
  match findFile s name with
  | .error e => if isRequired then .error e else .ok []
  | .ok none => if isRequired then .error .configSource else .ok []
  | .ok (some (path, format)) =>
    match s.files.readText path with
    | .error _ => .error .configSource
    | .ok text =>
      match readSource format text with
      | some source => .ok source
      | none => .error .configSource

/-- The user's file, if there is one. -/
def userSource (s : Surroundings) : Except Fault (List (String × Datum)) :=
  match s.userFolder with
  | none => .ok []
  | some folder =>
    let path := Path.join folder userPlace
    if s.files.has path then fileSource s false path else .ok []

def askedSource (s : Surroundings) (asked : Option String) : Except Fault (List (String × Datum)) :=
  match asked with
  | none => .ok []
  | some name => fileSource s true name

/-- All sources in order. -/
def sources (s : Surroundings) (asked : Option String) :
    Except Fault (List (List (String × Datum))) := do
  let usual ← traverse (fileSource s false) usualPlaces
  let user ← userSource s
  let extra ← askedSource s asked
  return usual ++ [user, extra, ofVariables s.environment]

/-- Loads the configuration, with the file that is asked for. -/
def load (s : Surroundings) (asked : Option String) : Except Fault Config :=
  match sources s asked with
  | .error e => .error e
  | .ok layers =>
    let given := settle shape shape (layers.foldl layOver (.table .empty))
    match decode (given.toValue .null) with
    | some c => .ok c
    | none => .error .configSource

end ClassSchema.Config
