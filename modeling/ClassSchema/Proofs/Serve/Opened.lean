import ClassSchema.Proofs.Artifact.ManifestText
import ClassSchema.Proofs.Artifact.Plans
import ClassSchema.Proofs.Store.Clear
import ClassSchema.Serve.Generated

/-!
# Opening what is stored

A schema is opened by the manifest in its folder, and its artifacts are read from the files there. Which
of them have been read before makes no difference.
-/

namespace ClassSchema

open ClassSchema.Path

namespace Path

variable {path file : String}

theorem exists_pieces_join_plain (path : String) (hfile : isPlainName file = true) : ∃ lead,
    pieces (join path file) = lead ++ [file] ∧ arrival lead [] = arrival (pieces path) [] ∧
      ∀ p, p ∈ walk lead [] ↔ p ∈ walk (pieces path) [] := by
  obtain ⟨lead, hlead, harrival, hwalk⟩ := exists_pieces_join path
  refine ⟨lead, ?_, harrival, hwalk⟩
  rw [hlead file (isAbsolute_of_plain hfile), pieces_of_not_mem (isPlainName_iff.mp hfile).2]

theorem arrival_join (path : String) (hfile : isPlainName file = true) :
    arrival (pieces (join path file)) [] = arrival (pieces path) [] ++ [file] := by
  obtain ⟨lead, hpieces, harrival, -⟩ := exists_pieces_join_plain path hfile
  rw [hpieces, arrival_append, harrival]
  exact step_of_proper (isPlainName_iff.mp hfile).1 _

end Path

namespace FileTree

variable {t : FileTree} {path file : String}

theorem lookAt?_join (hfile : isPlainName file = true)
    (h : ∀ p ∈ walk (pieces path) [], t.kindAt p = some true) :
    t.lookAt? (join path file) = t.at? (arrival (pieces path) [] ++ [file]) := by
  obtain ⟨lead, hpieces, harrival, hwalk⟩ := exists_pieces_join_plain path hfile
  rw [lookAt?_of_walk hpieces (isPlainName_iff.mp hfile).1 fun p hp => h p ((hwalk p).mp hp), harrival]

end FileTree

namespace Store

open FileTree

variable {store : Store} {t : FileTree} {name file : String}

theorem isPlainName_fileName {name : String} (h : isGraphName name = true) :
    isPlainName (Artifact.fileName name) = true :=
  isPlainName_iff.mpr ⟨⟨Artifact.fileName_ne (by decide), Artifact.fileName_ne (by decide),
    Artifact.fileName_ne (by decide)⟩, Artifact.slash_not_mem_fileName h⟩

theorem lookAt?_live (hlocated : store.Located name t)
    (hlive : t.kindAt (store.livePlace name) ≠ some false) (hfile : isPlainName file = true) :
    t.lookAt? (join (store.schemaPath name) file) =
      (entriesAt t (store.livePlace name)).get? file := by
  rw [get?_entriesAt]
  by_cases hfolder : t.kindAt (store.livePlace name) = some true
  · refine lookAt?_join hfile fun p hp => ?_
    rcases (mem_walk_iff hlocated.named).mp hp with hp | rfl
    · exact (hlocated.folders p hp).1
    · exact hfolder
  · have hnone : t.at? (store.livePlace name) = none := by
      rw [← kindAt_eq_none_iff]
      cases hkind : t.kindAt (store.livePlace name) with
      | none => rfl
      | some b => cases b <;> simp_all
    have hentry : t.at? (store.livePlace name ++ [file]) = none := by
      rw [at?_append, hnone, Option.bind_none]
    rw [hentry]
    refine lookAt?_of_none ?_
    rw [arrival_join _ hfile]
    exact hentry

end Store

namespace GeneratedSchema

variable {g : GeneratedSchema} {t : FileTree}

theorem openAt_of_manifest {root : String} {m : Manifest} (hm : m.artifacts.Sorted)
    (h : t.lookAt? (join (join root m.schema) Manifest.fileName) = some (.file m.text)) :
    openAt t root m.schema = .ok ⟨m.schema, join root m.schema, m, .empty⟩ := by
  obtain ⟨hfile, hread⟩ := FileTree.hasFile_of_lookAt h
  simp [openAt, hfile, hread, Manifest.ofText_text hm]

theorem readArtifact_of_file {name source : String} {entry : ManifestEntry}
    (hentry : g.manifest.artifacts.get? name = some entry)
    (h : t.lookAt? (join g.directory entry.file) = some (.file source)) :
    g.readArtifact t name = match Artifact.resolversIn source with
      | .error e => .error e
      | .ok resolvers => .ok ⟨name, entry.kind, source, resolvers⟩ := by
  obtain ⟨hfile, hread⟩ := FileTree.hasFile_of_lookAt h
  simp only [readArtifact, hentry, hfile, hread]
  cases Artifact.resolversIn source <;> rfl

/-! ### Artifacts that have been read -/

/-- What is kept is what would be read. -/
def Faithful (g : GeneratedSchema) (t : FileTree) : Prop :=
  ∀ name a, g.loaded.get? name = some a → g.readArtifact t name = .ok a

theorem faithful_unread (name directory : String) (m : Manifest) (t : FileTree) :
    Faithful ⟨name, directory, m, .empty⟩ t := by
  intro asked a ha
  cases ha

theorem artifact_fst (h : g.Faithful t) (name : String) :
    (g.artifact t name).1 = g.readArtifact t name := by
  rw [artifact]
  split
  · next a ha => exact (h name a ha).symm
  · split
    · next e he => exact he.symm
    · next a ha => exact ha.symm

theorem readArtifact_artifact (g : GeneratedSchema) (t : FileTree) (asked name : String) :
    (g.artifact t asked).2.readArtifact t name = g.readArtifact t name := by
  rw [artifact]
  split
  · rfl
  · split
    · rfl
    · rfl

theorem Faithful.artifact (h : g.Faithful t) (asked : String) : (g.artifact t asked).2.Faithful t := by
  intro name a ha
  rw [readArtifact_artifact]
  rw [GeneratedSchema.artifact] at ha
  split at ha
  · exact h name a ha
  · split at ha
    · exact h name a ha
    · next b hb =>
      rw [Dict.get?_insert] at ha
      split at ha
      · next hname =>
        rw [hname, hb, Option.some.inj ha]
      · exact h name a ha

/-- The schema after artifacts have been asked for. -/
def after (g : GeneratedSchema) (t : FileTree) (asked : List String) : GeneratedSchema :=
  asked.foldl (fun g name => (g.artifact t name).2) g

theorem artifact_after (h : g.Faithful t) (asked : List String) (name : String) :
    ((g.after t asked).artifact t name).1 = g.readArtifact t name := by
  induction asked generalizing g with
  | nil => exact artifact_fst h name
  | cons first asked ih =>
    have hfirst := ih (h.artifact first)
    rw [readArtifact_artifact] at hfirst
    exact hfirst

/-- Whatever was asked for before, the artifact of a definition has the plans of the definition, and no
others. -/
def Serves (g : GeneratedSchema) (t : FileTree) (d : Definition) : Prop :=
  ∀ asked, ∃ a, ((g.after t asked).artifact t d.name).1 = .ok a ∧ a.kind = d.kind ∧
    ∀ field, a.resolvers.get? field = d.plan? field

/-- A definition is served exactly if its plans are read from the text of its artifact. -/
theorem serves_iff {d : Definition} {source : String} {entry : ManifestEntry} (h : g.Faithful t)
    (hentry : g.manifest.artifacts.get? d.name = some entry) (hkind : entry.kind = d.kind)
    (hsource : t.lookAt? (join g.directory entry.file) = some (.file source)) :
    g.Serves t d ↔ d.ReadFrom source := by
  have hread := readArtifact_of_file hentry hsource
  simp only [Serves, artifact_after h, hread, Definition.ReadFrom]
  cases Artifact.resolversIn source with
  | error e => simp
  | ok plans => simp [hkind]

end GeneratedSchema

end ClassSchema
