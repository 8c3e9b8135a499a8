import ClassSchema.Artifact.Manifest
import ClassSchema.Proofs.Dict
import ClassSchema.Proofs.Value.Prune
import ClassSchema.Proofs.Value.ReadBack

/-!
# Reading manifests back

A manifest is read back from its text.
-/

namespace ClassSchema

open Datum (ofValue ofItems ofMembers)

theorem Kind.decode_word (k : Kind) : Kind.decode (.string k.word) = some k := by
  cases k <;> rfl

theorem ManifestEntry.decode_value (e : ManifestEntry) : ManifestEntry.decode e.value = some e := by
  obtain ⟨kind, file, signature⟩ := e
  simp [ManifestEntry.decode, ManifestEntry.value, Value.record?, Dict.required, Dict.get?,
    Dict.lookup, Kind.decode_word, Value.asString, Value.string?]

namespace Manifest

theorem decodeEntries_value (es : List (String × ManifestEntry)) :
    Value.decodeEntries ManifestEntry.decode (es.map fun e => (e.1, e.2.value)) = some es := by
  induction es with
  | nil => rfl
  | cons e es ih => simp [Value.decodeEntries, ManifestEntry.decode_value, ih]

theorem decode_value {m : Manifest} (h : m.artifacts.Sorted) : decode m.value = some m := by
  have hentries : Value.asDict ManifestEntry.decode (.table (m.artifacts.map ManifestEntry.value)) =
      some m.artifacts := by
    have hdecode := decodeEntries_value m.artifacts.entries
    simp only [Value.asDict, Value.table?, Dict.map, Option.bind_eq_bind, Option.bind_some, hdecode]
    exact congrArg some h.ofList_entries
  simp [decode, value, Value.record?, Dict.required, Dict.get?, Dict.lookup, Value.asString,
    Value.string?, hentries]

/-- What the text of an entry is asked for. -/
private def entryShape : Shape := .record [("kind", .any), ("file", .any), ("signature", .any)]

private theorem prune_entry (whole : Shape) (e : ManifestEntry) :
    Shape.prune whole entryShape (ofValue e.value) = ofValue e.value := by
  simp [entryShape, ManifestEntry.value, ofValue, ofMembers, Shape.prune, Shape.within,
    Shape.pruneEntries, Shape.member?, Dict.lookup]

private theorem exists_entry {m : Manifest} {e : String × Value}
    (he : e ∈ (m.artifacts.map ManifestEntry.value).entries) :
    ∃ f : ManifestEntry, e.2 = f.value := by
  obtain ⟨f, -, rfl⟩ := List.mem_map.mp he
  exact ⟨f.2, rfl⟩

private theorem prune_value (m : Manifest) :
    Shape.prune shape shape (ofValue m.value) = ofValue m.value := by
  have hentry : ∀ e ∈ (m.artifacts.map ManifestEntry.value).entries,
      Shape.prune shape entryShape (ofValue e.2) = ofValue e.2 := by
    intro e he
    obtain ⟨f, hf⟩ := exists_entry he
    rw [hf, prune_entry]
  have hentries := Shape.pruneEntries_table shape entryShape hentry
  have hschema : shape.member? "schema" = some .any := rfl
  have hartifacts : shape.member? "artifacts" = some (.table entryShape) := rfl
  have hwithin : Shape.within shape shape = shape := rfl
  have htable : Shape.within shape (.table entryShape) = .table entryShape := rfl
  rw [value]
  generalize m.artifacts.map ManifestEntry.value = d at hentries ⊢
  simp only [ofValue, ofMembers, Shape.prune, hwithin, Shape.pruneEntries, hschema, hartifacts,
    htable, hentries]

private theorem numbers_value (m : Manifest) : m.value.numbers = [] := by
  have hentry : ∀ e ∈ (m.artifacts.map ManifestEntry.value).entries, e.2.numbers = [] := by
    intro e he
    obtain ⟨f, hf⟩ := exists_entry he
    rw [hf]
    rfl
  have hentries := Value.entryNumbers_eq_nil hentry
  rw [value]
  generalize m.artifacts.map ManifestEntry.value = d at hentries ⊢
  simp [Value.numbers, Value.entryNumbers, hentries]

private theorem nesting_value (m : Manifest) : m.value.nesting ≤ Datum.greatestDepth := by
  have hentry : ∀ e ∈ (m.artifacts.map ManifestEntry.value).entries, e.2.nesting ≤ 1 := by
    intro e he
    obtain ⟨f, hf⟩ := exists_entry he
    rw [hf]
    simp [ManifestEntry.value, Value.nesting, Value.entryNesting]
  have hentries := Value.entryNesting_le hentry
  rw [value]
  generalize m.artifacts.map ManifestEntry.value = d at hentries ⊢
  simp only [Value.nesting, Value.entryNesting, Datum.greatestDepth]
  omega

/-- A manifest is read back from its text. -/
theorem ofText_text {m : Manifest} (h : m.artifacts.Sorted) : ofText m.text = .ok m := by
  have hnumbers : ∀ n ∈ m.value.numbers, n.ReadsBack := by simp [numbers_value]
  have hread := Datum.ofText?_prettyText hnumbers
  rw [ofText, Shape.ofText?, text, hread]
  simp [prune_value, Datum.value?_ofValue (nesting_value m), decode_value h]

end Manifest

end ClassSchema
