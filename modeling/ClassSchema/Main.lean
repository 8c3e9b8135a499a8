import ClassSchema.CommandLine
import ClassSchema.Files.Changes
/-!
# The program

Reads the files of the working directory, and those outside it that the configuration points to, runs
the command line on them, and carries out what has changed.
-/
namespace ClassSchema.Program

/-- Everything at a path; what cannot be read as text is left out. -/
partial def readAt (path : String) : IO (Option FileTree) := do
  let located := (← IO.currentDir) / path
  if ← located.isDir then
    let mut entries : Dict FileTree := .empty
    for entry in ← located.readDir do
      if let some t ← readAt (Path.join path entry.fileName) then
        entries := entries.insert entry.fileName t
    return some (.folder entries)
  else if ← located.pathExists then
    try return some (.file (← IO.FS.readFile located)) catch _ => return none
  else return none

/-- Adds what stands at an absolute path, unless the tree has it already. -/
def withPath (t : FileTree) (path : String) : IO FileTree := do
  if t.has path then return t
  match ← readAt path with
  | none => return t
  | some below =>
    match t.makeFolders (Path.parent path) with
    | .error _ => return t
    | .ok t => return (t.slot? path).elim t (t.put · below)

def withPaths (t : FileTree) : List String → IO FileTree
  | [] => return t
  | path :: paths => do withPaths (← withPath t path) paths

/-- The environment, as the system lists it. -/
def readEnvironment : IO (List (String × String)) := do
  let listed ← try IO.FS.readFile "/proc/self/environ" catch _ => pure ""
  let lines := (Path.splitAt (Char.ofNat 0) listed.toList)
  return lines.filterMap fun l =>
    match l.dropWhile (· ≠ '=') with
    | [] => none
    | _ :: v => some (String.ofList (l.takeWhile (· ≠ '=')), String.ofList v)

/-- The folder for configuration of the user. -/
def userFolder (environment : List (String × String)) : Option String :=
  match Dict.lookup "XDG_CONFIG_HOME" environment with
  | some folder => some folder
  | none => (Dict.lookup "HOME" environment).map (Path.join · ".config")

/-- Paths that a configuration points to. -/
def pointedTo (l : Config.Located) : List String :=
  l.classPaths ++ [l.root, l.outputPath, l.cachePath] ++ l.templatesPath.toList ++
    (l.config.schemas.keys.flatMap fun n => (l.schemaSources n).getD [])

/-- All that a run may look at. -/
def gather (here : String) (args : List String) : IO Config.Surroundings := do
  let environment ← readEnvironment
  let user := userFolder environment
  let asked := (CommandLine.read args).bind (·.config)
  let files ← withPaths .emptyFolder
    ([here] ++ (asked.map (Path.join here)).toList ++
      (user.map (Path.join · Config.userPlace)).toList)
  let s : Config.Surroundings := ⟨here, files, environment, user⟩
  match Config.load s asked with
  | .error _ => return s
  | .ok config => return { s with files := ← withPaths files (pointedTo ⟨config, here⟩) }

/-- Carries out one change. -/
def carryOut (change : Change) : IO Unit := do
  match change with
  | .removeFile place => IO.FS.removeFile (Path.ofComponents place)
  | .removeFolder place => IO.FS.removeDir (Path.ofComponents place)
  | .makeFolder place => IO.FS.createDirAll (Path.ofComponents place)
  | .writeFile place text => IO.FS.writeFile (Path.ofComponents place) text

end ClassSchema.Program

def main (args : List String) : IO UInt32 := do
  let s ← ClassSchema.Program.gather (← IO.currentDir).toString args
  let result := ClassSchema.CommandLine.run s args
  for change in s.files.changes result.files do ClassSchema.Program.carryOut change
  (← IO.getStdout).putStr result.stdout
  (← IO.getStderr).putStr result.stderr
  return result.code.toUInt32
