import ClassSchema.Artifact.Manifest
import ClassSchema.Artifact.Scope
import ClassSchema.Store.Cache
import ClassSchema.Template.Library
/-!
# Storing generated schemas

A schema is stored as a folder of artifacts below the root of the store. The new folder is staged next
to the old one, from a copy of it, artifacts whose signature is remembered being kept as they are; then
it is swapped in, the new signatures are remembered, and artifacts that the schema no longer has are
deleted. A staging folder does not outlast a fault.
-/
namespace ClassSchema

structure Store where
  /-- The path of the folder that holds the schema folders. -/
  root : String
  encoder : Encoder

structure PersistReport where
  written : List String
  unchanged : List String
  deleted : List String
  directory : String
deriving DecidableEq, Repr

/-- Files that every schema folder has, unless something of that name is there. -/
def sentinels : List (String × String) :=
  [("_manifest_exclude", ""), (".gitattributes", "* linguist-generated=true\n")]

/-- What becomes of one definition: kept, or written with a new text. -/
structure Outcome where
  definition : Definition
  /-- The new text of an artifact that is written. -/
  text : Option String

namespace Outcome

def name (o : Outcome) : String := o.definition.name

def isWritten (o : Outcome) : Bool := o.text.isSome

end Outcome

namespace Store

variable (store : Store)

/-- The path of a schema's folder. -/
def schemaPath (name : String) : String := Path.join store.root name

/-- The path of a hidden folder of a schema. Only the first dot is added to the name, so a name with slashes
leads to other folders. -/
def hiddenPath (name ending : String) : String := Path.join store.root ("." ++ name ++ ending)

/-- The path an old folder has while the new one is swapped in. -/
def backupPath (name : String) : String := store.hiddenPath name "-previous"

/-- Whether an artifact can be kept: its signature is remembered and its file is there. -/
def isCurrent (schema : String) (cache : SignatureCache) (entries : Dict FileTree)
    (d : Definition) : Bool :=
  Signature.isRemembered d.signature (cache.get? (SignatureCache.keyOf schema d.name)) &&
    (entries.get? (Artifact.fileName d.name)).any FileTree.isFile

/-- Keeps or renders one artifact; a folder in its place is a fault. -/
def outcome (s : Schema) (cache : SignatureCache) (entries : Dict FileTree) (d : Definition) :
    Except Fault Outcome :=
  if isCurrent s.name cache entries d then .ok ⟨d, none⟩
  else
    match store.encoder d.kind.word (Artifact.scope s d) with
    | .error e => .error e
    | .ok text =>
      if (entries.get? (Artifact.fileName d.name)).any FileTree.isFolder then .error .io
      else .ok ⟨d, some text⟩

def manifest (s : Schema) : Manifest :=
  s.definitions.values.foldl (fun m d => m.insert d.name d.kind d.signature) (.new s.name)

/-- The entries of the folder at a place. -/
def entriesAt (t : FileTree) (place : List String) : Dict FileTree :=
  ((t.at? place).map FileTree.entries).getD .empty

/-- How the path of a staging folder ends, given the entries of the folder that it is made in: longer than the
names of all these, and than the paths of the other folders of the schema. -/
def stagingEnding (name : String) (entries : Dict FileTree) : String :=
  let longest := (store.schemaPath name).length + (store.backupPath name).length +
    (entries.keys.map String.length).foldr Nat.add 0
  "-staging-" ++ String.ofList (List.replicate longest 'x')

/-- The path of a staging folder that is not there yet. -/
@[irreducible] def stagingPath (t : FileTree) (name : String) : String :=
  let beside := ((t.slot? (store.hiddenPath name "-staging-")).map List.dropLast).getD []
  store.hiddenPath name (store.stagingEnding name (entriesAt t beside))

/-- Makes an empty staging folder, and gives its path and its place. -/
def makeStaging (name : String) : Storing (String × List String) := fun s =>
  let path := store.stagingPath s.tree name
  match s.tree.slot? path with
  | none => .error .io s
  | some place => .ok (path, place) { s with tree := s.tree.put place .emptyFolder }

/-- Copies the live folder of a schema, if there is one, into a staging folder. A folder that the copy itself
is in cannot be copied to the end. -/
def copyLive (name : String) (folder : List String) : Storing Unit := fun s =>
  match s.tree.locate? (store.schemaPath name) with
  | none => .ok () s
  | some live =>
    match s.tree.at? live with
    | some (.folder es) =>
      if live.isPrefixOf folder then .error .io s
      else .ok () { s with tree := s.tree.put folder (.folder es) }
    | _ => .ok () s

/-- Writes a file into a folder. -/
def writeInto (folder : List String) (file text : String) : Storing Unit := fun s =>
  .ok () { s with tree := s.tree.put (folder ++ [file]) (.file text) }

def stageSentinel (folder : List String) (f : String × String) : Storing Unit := fun s =>
  if (entriesAt s.tree folder).contains f.1 then .ok () s else writeInto folder f.1 f.2 s

/-- Keeps an artifact of the staging folder, or writes it. -/
def stageArtifact (schema : Schema) (folder : List String) (d : Definition) : Storing Outcome :=
  fun s =>
    match store.outcome schema s.cache (entriesAt s.tree folder) d with
    | .error e => .error e s
    | .ok o =>
      match o.text with
      | none => .ok o s
      | some text =>
        .ok o { s with tree := s.tree.put (folder ++ [Artifact.fileName o.name]) (.file text) }

/-- Writes the manifest; a folder in its place is a fault. -/
def stageManifest (schema : Schema) (folder : List String) : Storing Unit := fun s =>
  if ((entriesAt s.tree folder).get? Manifest.fileName).any FileTree.isFolder then .error .io s
  else writeInto folder Manifest.fileName (manifest schema).text s

/-- Makes the staging folder what the schema needs, one file after the other. -/
def fill (schema : Schema) (folder : List String) : Storing (List Outcome) := do
  Storing.each (stageSentinel folder) sentinels
  let outcomes ← Storing.collect (store.stageArtifact schema folder) schema.definitions.values
  stageManifest schema folder
  return outcomes

/-- Takes away the folder that a path leads to, with all that it holds. -/
def removeAll (path : String) : Storing Unit := fun s =>
  match s.tree.removeFolder path with
  | (.ok (), tree) => .ok () { s with tree }
  | (.error e, tree) => .error e { s with tree }

/-- Moves something to another path; `move` says in a fault what could not be moved where. -/
def moveTo (schema move source target : String) : Storing Unit := fun s =>
  match s.tree.rename source target with
  | some tree => .ok () { s with tree }
  | none => .error (.staging schema s!"could not move {move}: {Fault.detail}") s

/-- Takes away what an earlier run may have left behind. -/
def clearBackup (name : String) : Storing Unit := fun s =>
  if s.tree.has (store.backupPath name) then removeAll (store.backupPath name) s else .ok () s

/-- Moves the staged folder to the place of the live one. What is there is moved aside first, moved back if
the staged folder cannot take its place, and taken away if it could. -/
def exchange (name staging : String) : Storing Unit := fun s =>
  let live := store.schemaPath name
  let enter := moveTo name "staged schema into place" staging live
  if s.tree.has live then
    (do
      moveTo name s!"{live} aside" live (store.backupPath name)
      enter.orUndo (moveTo name "back" (store.backupPath name) live)
      removeAll (store.backupPath name)) s
  else enter s

def swap (name staging : String) : Storing Unit := do
  store.clearBackup name
  store.exchange name staging

/-- Remembers the signatures of what was written. -/
def remember (schema : String) (outcomes : List Outcome) : Storing Unit :=
  Storing.each (fun o => SignatureCache.put (SignatureCache.keyOf schema o.name) o.definition.signature)
    (outcomes.filter Outcome.isWritten)

/-- The name of an artifact by its file: all closing extensions are dropped. -/
def artifactName (file : String) : String :=
  let ending := ("." ++ Artifact.extension).toList.reverse
  let rec strip : Nat → List Char → List Char
    | 0, s => s
    | n + 1, s => if ending.isPrefixOf s then strip n (s.drop ending.length) else s
  String.ofList (strip file.length file.toList.reverse).reverse

/-- Whether an entry of a schema folder looks like an artifact that the schema does not have. -/
def isStale (current : List String) (file : String) : Bool :=
  Path.extension? file = some Artifact.extension && !current.contains file

/-- Deletes one stale file and forgets its signature. -/
def deleteStale (schema : String) (folder : List String) (file : String) : Storing Unit := fun s =>
  match (entriesAt s.tree folder).get? file with
  | some (.file _) =>
    SignatureCache.delete (SignatureCache.keyOf schema (artifactName file))
      { s with tree := s.tree.remove (folder ++ [file]) }
  | _ => .error .io s

/-- Deletes the stale files of a schema folder, and gives the names of their artifacts. -/
def reconcile (s : Schema) (folder : List String) : Storing (List String) := do
  let current := s.definitions.values.map fun d => Artifact.fileName d.name
  let stale := (entriesAt (← get).tree folder).keys.filter (isStale current)
  Storing.each (deleteStale s.name folder) stale
  return (stale.map artifactName).mergeSort

/-- Makes the root folder, if it is missing. -/
def openRoot : Storing Unit := fun s =>
  match s.tree.makeAlong (Path.pieces store.root) [] with
  | .error tree => .error .io { s with tree }
  | .ok tree => .ok () { s with tree }

/-- Stages the new folder of a schema, and swaps it in. Nothing stays of a staging folder that cannot be. -/
def stage (schema : Schema) : Storing (List Outcome) := do
  let (staging, folder) ← store.makeStaging schema.name
  Storing.orUndo
    (do
      store.copyLive schema.name folder
      let outcomes ← store.fill schema folder
      store.swap schema.name staging
      return outcomes)
    (removeAll staging)

/-- The place that the path of a schema's folder leads to. -/
def findLive (name : String) : Storing (List String) := fun s =>
  match s.tree.locate? (store.schemaPath name) with
  | none => .error .io s
  | some place => .ok place s

/-- Stores a schema. -/
def persist (schema : Schema) : Storing PersistReport := do
  store.openRoot
  let outcomes ← store.stage schema
  remember schema.name outcomes
  let live ← store.findLive schema.name
  let deleted ← reconcile schema live
  return {
    written := (outcomes.filter Outcome.isWritten).map Outcome.name
    unchanged := (outcomes.filter (!·.isWritten)).map Outcome.name
    deleted
    directory := store.schemaPath schema.name }

/-- Takes a schema's folder away, if there is one. -/
def removeFolder (name : String) : Storing Unit := fun s =>
  if s.tree.hasFolder (store.schemaPath name) then removeAll (store.schemaPath name) s else .ok () s

/-- Removes the folder of a schema, and every cache entry whose key begins with its name. -/
def clear (name : String) : Storing Unit := do
  store.removeFolder name
  let start := SignatureCache.keyOf name ""
  let keys := (← get).cache.entries.keys.filter fun k => start.toList.isPrefixOf k.toList
  Storing.each SignatureCache.delete keys

end Store
end ClassSchema
