import ClassSchema.Fault
import ClassSchema.Files.Path
import ClassSchema.Text.Quoted
import ClassSchema.Value.Decoder
/-!
# Settings trees

Settings are a nested table addressed by paths. A path is written with dots, or given as a list of
segments so that names with dots stay within reach. `set` makes the tables it needs on the way and
refuses to go through anything else; `merge` lays a value over what is there.
-/
namespace ClassSchema

/-- A path as it was given: its segments, and how a message shows it. -/
structure SettingsPath where
  segments : List String
  shown : String
deriving DecidableEq, Repr

namespace SettingsPath

def ofDots (s : String) : SettingsPath :=
  ⟨(Path.splitAt '.' s.toList).map String.ofList, s⟩

def ofSegments (segments : List String) : SettingsPath := ⟨segments, shownNames segments⟩

/-- A path has at least one segment, and none is empty. -/
def IsWellFormed (p : SettingsPath) : Prop := p.segments ≠ [] ∧ ∀ s ∈ p.segments, s ≠ ""

instance (p : SettingsPath) : Decidable p.IsWellFormed :=
  inferInstanceAs (Decidable (p.segments ≠ [] ∧ ∀ s ∈ p.segments, s ≠ ""))

def check (p : SettingsPath) : Except Fault Unit :=
  if p.IsWellFormed then .ok () else .error (.malformedPath p.shown)

/-- The segments with dots between them. -/
def dotted (p : SettingsPath) : String := String.intercalate "." p.segments

end SettingsPath

abbrev Settings := Dict Value

namespace Settings

/-- The value at a list of segments, every one but the last naming a table. -/
def valueAt (d : Settings) : List String → Option Value
  | [] => none
  | [key] => d.get? key
  | key :: rest =>
    match d.get? key with
    | some (.table inner) => valueAt inner rest
    | _ => none

def get (d : Settings) (p : SettingsPath) : Except Fault (Option Value) :=
  match p.check with
  | .error e => .error e
  | .ok () => .ok (valueAt d p.segments)

/-- Walks to a list of segments and puts a value there, in place: the tables that are missing are made on
the way, and what was made stays where the walk cannot go on. `shown` names the whole path in a message. -/
def writeAt (shown : String) (d : Settings) (v : Value) : List String → Except Fault Unit × Settings
  | [] => (.ok (), d)
  | [key] => (.ok (), d.insert key v)
  | key :: rest =>
    let into (inner : Settings) : Except Fault Unit × Settings :=
      let (outcome, inner) := writeAt shown inner v rest
      (outcome, d.insert key (.table inner))
    match d.get? key with
    | none => into .empty
    | some (.table inner) => into inner
    | some _ => (.error (.pathConflict shown key), d)

/-- Writes a value at a path, and gives the tree as it is left. -/
def write (d : Settings) (p : SettingsPath) (v : Value) : Except Fault Unit × Settings :=
  match p.check with
  | .error e => (.error e, d)
  | .ok () => writeAt p.dotted d v p.segments

/-- Deep-merges a value into what stands at a path, and gives the tree as it is left. -/
def writeMerged (d : Settings) (p : SettingsPath) (v : Value) : Except Fault Unit × Settings :=
  match get d p with
  | .error e => (.error e, d)
  | .ok none => write d p v
  | .ok (some old) => write d p (old.merge v)

/-- The tree that is left, if the change went through. -/
def changed : Except Fault Unit × Settings → Except Fault Settings
  | (.ok (), d) => .ok d
  | (.error e, _) => .error e

/-- The tree with a value at a path. -/
def set (d : Settings) (p : SettingsPath) (v : Value) : Except Fault Settings :=
  changed (write d p v)

/-- The tree with a value merged in at a path. -/
def merge (d : Settings) (p : SettingsPath) (v : Value) : Except Fault Settings :=
  changed (writeMerged d p v)

/-- Decodes the value at a path; a missing one is `none`. -/
def getAs (d : Settings) (decode : Value → Option α) (p : SettingsPath) :
    Except Fault (Option α) :=
  match get d p with
  | .error e => .error e
  | .ok none => .ok none
  | .ok (some v) =>
    match decode v with
    | some a => .ok (some a)
    | none => .error (.settingShape p.dotted)

/-- A top-level section; a missing one reads as `default`. -/
def sectionOr (d : Settings) (decode : Value → Option α) (name : String) (default : α) :
    Except Fault α :=
  match getAs d decode (.ofSegments [name]) with
  | .error e => .error e
  | .ok found => .ok (found.getD default)

end Settings
end ClassSchema
