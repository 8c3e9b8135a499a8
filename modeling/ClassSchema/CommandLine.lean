import ClassSchema.Config.Load
import ClassSchema.Project
/-!
# Command line

The commands build schemas, clear them, show an artifact, or list the classes that bulk loads select.
A run takes files in and gives files, texts and an exit code back.
-/
namespace ClassSchema.CommandLine

inductive Command where
  | build (schemas : List String) (clearFirst : Bool)
  | clear (schema : String)
  | show_ (schema artifact : String)
  | classes (schema : Option String)
deriving DecidableEq, Repr

/-- A command with the configuration file it asks for. -/
structure Invocation where
  config : Option String
  command : Command
deriving DecidableEq, Repr

/-- Arguments taken apart: options with their values, flags, and the others in order. -/
structure Arguments where
  values : List (String × String)
  flags : List String
  others : List String
deriving DecidableEq, Repr

/-- The options that a command knows, by their long names; one with a value may have a short name. -/
structure Options where
  valued : List (String × Char)
  flags : List String

/-- A long option cut at its equals sign. -/
def splitLong (s : List Char) : String × Option String :=
  (String.ofList (s.takeWhile (· ≠ '=')),
    match s.dropWhile (· ≠ '=') with
    | [] => none
    | _ :: v => some (String.ofList v))

/-- Whether an argument looks like an option. -/
def isOption (arg : String) : Bool :=
  match arg.toList with
  | '-' :: _ :: _ => true
  | _ => false

def Arguments.withValue (name value : String) (a : Arguments) : Arguments :=
  { a with values := (name, value) :: a.values }

/-- A value for an option: the one attached to it, or the next argument. -/
def takeValue (attached : Option String) (rest : List String) : Option (String × List String) :=
  match attached, rest with
  | some v, rest => some (v, rest)
  | none, v :: rest => if isOption v then none else some (v, rest)
  | none, [] => none

/-- The long name and attached value of an option that takes one. -/
def valuedOption (o : Options) (arg : List Char) : Option (String × Option String) :=
  match arg with
  | '-' :: '-' :: s =>
    let (name, value) := splitLong s
    if (o.valued.map (·.1)).contains name then some (name, value) else none
  | '-' :: c :: s =>
    match o.valued.find? (·.2 = c) with
    | none => none
    | some (name, _) =>
      some (name, match s with
        | [] => none
        | '=' :: v => some (String.ofList v)
        | v => some (String.ofList v))
  | _ => none

def flagOption (o : Options) (arg : List Char) : Option String :=
  match arg with
  | '-' :: '-' :: s => if o.flags.contains (String.ofList s) then some (String.ofList s) else none
  | _ => none

/-- Takes arguments apart; with `upToFirst` the first that is no option ends it. -/
def takeApart (o : Options) (upToFirst : Bool) : Nat → List String → Option Arguments
  | 0, _ => none
  | _, [] => some ⟨[], [], []⟩
  | fuel + 1, arg :: rest =>
    if arg = "--" then (if upToFirst then none else some ⟨[], [], rest⟩)
    else if isOption arg then
      match valuedOption o arg.toList, flagOption o arg.toList with
      | some (name, attached), _ => do
        let (value, rest) ← takeValue attached rest
        return (← takeApart o upToFirst fuel rest).withValue name value
      | none, some flag => do
        let a ← takeApart o upToFirst fuel rest
        return { a with flags := flag :: a.flags }
      | none, none => none
    else if upToFirst then some ⟨[], [], arg :: rest⟩
    else do
      let a ← takeApart o upToFirst fuel rest
      return { a with others := arg :: a.others }

def Arguments.all (a : Arguments) (name : String) : List String :=
  (a.values.filter (·.1 = name)).map (·.2)

/-- The value of an option that may be given once. -/
def Arguments.atMostOne (a : Arguments) (name : String) : Option (Option String) :=
  match a.all name with
  | [] => some none
  | [v] => some (some v)
  | _ => none

/-- The value of an option that must be given once. -/
def Arguments.one (a : Arguments) (name : String) : Option String := (a.atMostOne name).join

def schemaOption : String × Char := ("schema", 's')

def readCommand (name : String) (rest : List String) : Option Command := do
  if name = "build" then
    let a ← takeApart ⟨[schemaOption], ["clear"]⟩ false (rest.length + 1) rest
    if a.others.isEmpty && a.flags.length ≤ 1 then
      return .build (a.all "schema") (!a.flags.isEmpty)
    else none
  else
    let a ← takeApart ⟨[schemaOption], []⟩ false (rest.length + 1) rest
    if name = "clear" then
      if a.others.isEmpty then return .clear (← a.one "schema") else none
    else if name = "show" then
      match a.others with
      | [artifact] => return .show_ (← a.one "schema") artifact
      | _ => none
    else if name = "classes" then
      if a.others.isEmpty then return .classes (← a.atMostOne "schema") else none
    else none

/-- Reads the arguments of a run; the name of a configuration file must not be empty. -/
def read (args : List String) : Option Invocation := do
  let a ← takeApart ⟨[("config", 'c')], []⟩ true (args.length + 1) args
  let config ← a.atMostOne "config"
  match a.others with
  | [] => none
  | name :: rest => if config = some "" then none else return ⟨config, ← readCommand name rest⟩

/-- What a run has come to. -/
structure Run where
  store : StoreState
  stdout : String

/-- A step of a run; a failure is told by its text. What was done and said before it stays. -/
abbrev Running := EStateM String Run

def say (line : String) : Running Unit :=
  modify fun r => { r with stdout := r.stdout ++ line ++ "\n" }

/-- Work on files and cache as a step of a run; the context goes before the text of a fault. -/
def working (context : String) (work : Storing α) : Running α := fun r =>
  match work r.store with
  | .ok a store => .ok a { r with store }
  | .error e store => .error (context ++ e.message) { r with store }

def sayEach (f : α → String) : List α → Running Unit
  | [] => pure ()
  | x :: xs => do
    say (f x)
    sayEach f xs

def sayReport (e : String × PersistReport) : Running Unit := do
  let (name, report) := e
  say s!"📦 {name}"
  say s!"   Directory: {report.directory}"
  let kept := s!"{report.unchanged.length} unchanged, {report.deleted.length} deleted"
  say s!"   ✅ {report.written.length} written, {kept}"
  sayEach (fun n => s!"   └─ wrote {n}") report.written
  sayEach (fun n => s!"   └─ deleted {n}") report.deleted

def sayReports : List (String × PersistReport) → Running Unit
  | [] => pure ()
  | e :: es => do
    sayReport e
    sayReports es

def clearOne (p : Project) (name : String) : Running Unit := do
  working "" (p.clear name)
  say s!"🧹 Cleared schema '{name}'"

def clearEach (p : Project) : List String → Running Unit
  | [] => pure ()
  | name :: names => do
    clearOne p name
    clearEach p names

def buildEach (p : Project) : List String → Running (List (String × PersistReport))
  | [] => pure []
  | name :: names => do
    say s!"🔨 Building schema '{name}'"
    let report ← working s!"failed to build schema '{name}': " (p.build name)
    return (name, report) :: (← buildEach p names)

def buildAll (p : Project) : Running (List (String × PersistReport)) := do
  say s!"🔨 Building {p.config.schemas.size} schemas"
  working "failed to build schemas: " p.buildAll

def build (p : Project) (schemas : List String) (clearFirst : Bool) : Running Unit := do
  let names := if schemas.isEmpty then p.config.schemas.keys else schemas
  if names.isEmpty then throw "no schemas configured"
  if clearFirst then clearEach p names
  let reports ← if schemas.isEmpty then buildAll p else buildEach p names
  sayReports reports

def sayBlocks : List (String × Collection) → Running Unit
  | [] => pure ()
  | (block, classes) :: rest => do
    say s!"   {block} ({classes.size} classes)"
    sayEach (fun n => s!"   └─ {n}") classes.keys
    sayBlocks rest

def listClasses (p : Project) : List String → Running Unit
  | [] => pure ()
  | name :: names => do
    say s!"📂 {name}"
    let blocks ← working "" (fun s => match p.select s.tree name with
      | .ok blocks => .ok blocks s
      | .error e => .error e s)
    if blocks.isEmpty then say "   (no bulk-load blocks)"
    sayBlocks blocks.entries
    listClasses p names

/-- An artifact of a schema, built first if need be. -/
def fetch (p : Project) (schema artifact : String) : Storing Artifact := fun s =>
  match (p.service schema).artifact artifact ⟨s, none, 0⟩ with
  | .ok a s => .ok a s.store
  | .error e s => .error e s.store

def perform (p : Project) : Command → Running Unit
  | .build schemas clearFirst => build p schemas clearFirst
  | .clear schema => clearOne p schema
  | .show_ schema artifact => do
    let a ← working s!"failed to load '{artifact}' from schema '{schema}': "
      (fetch p schema artifact)
    modify fun r => { r with stdout := r.stdout ++ a.source }
  | .classes (some schema) => listClasses p [schema]
  | .classes none => listClasses p p.config.schemas.keys

/-- What a run leaves behind. -/
structure Result where
  code : Nat
  stdout : String
  stderr : String
  files : FileTree

def usage : String :=
  "Usage: schema-build [-c CONFIG] COMMAND\n\nCommands:\n" ++
    "  build [-s SCHEMA]... [--clear]\n  clear -s SCHEMA\n  show -s SCHEMA ARTIFACT\n" ++
    "  classes [-s SCHEMA]\n"

/-- Runs the program. -/
def run (s : Config.Surroundings) (args : List String) : Result :=
  match read args with
  | none => ⟨2, "", usage, s.files⟩
  | some i =>
    let failed (text stdout : String) (files : FileTree) : Result :=
      ⟨1, stdout, s!"Error: {text}\n", files⟩
    match Config.load s i.config with
    | .error e => failed s!"failed to load configuration: {e.message}" "" s.files
    | .ok config =>
      match Project.openIn s.files ⟨config, s.workingDirectory⟩ Registry.withBuiltins with
      | .error e => failed e.message "" s.files
      | .ok (p, cache) =>
        match perform p i.command ⟨⟨s.files, cache⟩, ""⟩ with
        | .ok () r => ⟨0, r.stdout, "", r.store.tree⟩
        | .error text r => failed text r.stdout r.store.tree

end ClassSchema.CommandLine
