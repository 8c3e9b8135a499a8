import ClassSchema.Proofs.Schema.WellFormed
import ClassSchema.Store.Persist

/-!
# The manifest of a schema

The manifest lists the definitions of a schema under their names.
-/

namespace ClassSchema.Store

variable {schema : Schema}

/-- What the manifest says of a definition. -/
def entryOf (d : Definition) : ManifestEntry := ⟨d.kind, Artifact.fileName d.name, d.signature⟩

theorem manifest_eq (schema : Schema) : manifest schema =
    ⟨schema.name, .ofList (schema.definitions.values.map fun d => (d.name, entryOf d))⟩ := by
  have hfold (ds : List Definition) (m : Manifest) :
      ds.foldl (fun m d => m.insert d.name d.kind d.signature) m =
        ⟨m.schema, m.artifacts.insertAll (ds.map fun d => (d.name, entryOf d))⟩ := by
    induction ds generalizing m with
    | nil => rfl
    | cons d ds ih =>
      rw [List.foldl_cons, ih]
      rfl
  exact hfold _ _

theorem sorted_manifest (schema : Schema) : (manifest schema).artifacts.Sorted := by
  rw [manifest_eq]
  exact Dict.sorted_ofList _

theorem schema_manifest (schema : Schema) : (manifest schema).schema = schema.name := by
  rw [manifest_eq]

/-- Every definition is listed, and nothing else is. -/
theorem get?_manifest (h : schema.Named) (artifact : String) :
    (manifest schema).artifacts.get? artifact = (schema.get? artifact).map entryOf := by
  have hpairs : schema.definitions.values.map (fun d => (d.name, entryOf d)) =
      schema.definitions.entries.map fun e => (e.1, entryOf e.2) := by
    rw [Dict.values, List.map_map]
    apply List.map_congr_left
    intro e he
    have hget : schema.get? e.1 = some e.2 := (h.sorted.get?_eq_some_iff e.1 e.2).mpr he
    simp [(h.named e.1 e.2 hget).1]
  rw [manifest_eq, hpairs]
  show (Dict.ofList _).get? artifact = _
  rw [Dict.get?_ofList_map, h.sorted.ofList_entries]
  rfl

end ClassSchema.Store
