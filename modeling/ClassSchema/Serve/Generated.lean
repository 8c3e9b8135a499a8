import ClassSchema.Artifact.Directive
import ClassSchema.Artifact.Manifest
import ClassSchema.Files.Disk
/-!
# Generated schemas

A stored schema is opened by its manifest; artifacts are read when they are first asked for, and kept.
Their resolver plans are bound against a registry on request.
-/
namespace ClassSchema

structure Artifact where
  name : String
  kind : Kind
  source : String
  resolvers : Dict Plan

structure GeneratedSchema where
  name : String
  directory : String
  manifest : Manifest
  /-- Artifacts that have been read. -/
  loaded : Dict Artifact

namespace GeneratedSchema

/-- Opens a stored schema below a root folder. A missing manifest, or one of another schema, means
that it is not built. -/
def openAt (t : FileTree) (root name : String) : Except Fault GeneratedSchema :=
  let directory := Path.join root name
  let path := Path.join directory Manifest.fileName
  if !t.hasFile path then .error (.notBuilt name)
  else
    match t.readText path with
    | .error e => .error e
    | .ok text =>
      match Manifest.ofText text with
      | .error e => .error e
      | .ok manifest =>
        if manifest.schema = name then .ok ⟨name, directory, manifest, .empty⟩
        else .error (.notBuilt name)

variable (g : GeneratedSchema)

/-- Reads an artifact from its file. -/
def readArtifact (t : FileTree) (name : String) : Except Fault Artifact :=
  match g.manifest.artifacts.get? name with
  | none => .error (.artifactMissing g.name name)
  | some entry =>
    let path := Path.join g.directory entry.file
    if !t.hasFile path then .error (.artifactMissing g.name name)
    else
      match t.readText path with
      | .error e => .error e
      | .ok source =>
        match Artifact.resolversIn source with
        | .error e => .error e
        | .ok resolvers => .ok ⟨name, entry.kind, source, resolvers⟩

/-- An artifact, and the schema that keeps it from now on. -/
def artifact (t : FileTree) (name : String) : Except Fault Artifact × GeneratedSchema :=
  match g.loaded.get? name with
  | some a => (.ok a, g)
  | none =>
    match g.readArtifact t name with
    | .error e => (.error e, g)
    | .ok a => (.ok a, { g with loaded := g.loaded.insert name a })

/-- The plan of a field of an artifact. -/
def planOf (a : Artifact) (field : String) : Except Fault Plan :=
  match a.resolvers.get? field with
  | some p => .ok p
  | none => .error (.unresolvedField a.name field)

/-- The bound resolver of a field. -/
def resolver (registry : Registry) (t : FileTree) (type field : String) :
    Except Fault Chain × GeneratedSchema :=
  match g.artifact t type with
  | (.error e, g) => (.error e, g)
  | (.ok a, g) =>
    match planOf a field with
    | .error e => (.error e, g)
    | .ok p => (p.bind registry, g)

end GeneratedSchema
end ClassSchema
