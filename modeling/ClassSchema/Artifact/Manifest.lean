import ClassSchema.Fault
import ClassSchema.Schema.Definition
/-!
# Manifests

The manifest of a generated schema lists its artifacts with kind, file and signature. It is kept as a
file beside them.
-/
namespace ClassSchema

structure ManifestEntry where
  kind : Kind
  file : String
  signature : String
deriving DecidableEq, Repr

structure Manifest where
  schema : String
  artifacts : Dict ManifestEntry
deriving DecidableEq, Repr

namespace Artifact

/-- The extension of artifact files. -/
def extension : String := "graphql"

def fileName (name : String) : String := name ++ "." ++ extension

end Artifact

def ManifestEntry.value (e : ManifestEntry) : Value :=
  .table ⟨[("kind", .string e.kind.word), ("file", .string e.file),
    ("signature", .string e.signature)]⟩

def ManifestEntry.decode (v : Value) : Option ManifestEntry := do
  let fields ← v.record? ["kind", "file", "signature"]
  return {
    kind := ← fields.required "kind" Kind.decode
    file := ← fields.required "file" Value.asString
    signature := ← fields.required "signature" Value.asString }

namespace Manifest

def fileName : String := "__registry.json"

def new (schema : String) : Manifest := ⟨schema, .empty⟩

def insert (m : Manifest) (name : String) (kind : Kind) (signature : String) : Manifest :=
  { m with artifacts := m.artifacts.insert name ⟨kind, Artifact.fileName name, signature⟩ }

def value (m : Manifest) : Value :=
  .table ⟨[("schema", .string m.schema),
    ("artifacts", .table (m.artifacts.map ManifestEntry.value))]⟩

def text (m : Manifest) : String := m.value.prettyText

/-- What the text of a manifest is asked for. -/
def shape : Shape :=
  .record [("schema", .any),
    ("artifacts", .table (.record [("kind", .any), ("file", .any), ("signature", .any)]))]

def decode (v : Value) : Option Manifest := do
  let fields ← v.record? ["schema", "artifacts"]
  return {
    schema := ← fields.required "schema" Value.asString
    artifacts := ← fields.required "artifacts" (Value.asDict ManifestEntry.decode) }

def ofText (s : String) : Except Fault Manifest :=
  match (shape.ofText? s).bind decode with
  | some m => .ok m
  | none => .error .json

end Manifest
end ClassSchema
