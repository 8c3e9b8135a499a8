import ClassSchema.Proofs.Store.Manifest
import ClassSchema.Proofs.Store.Ready
import ClassSchema.Proofs.Store.Untouched

/-!
# Whole runs of the store

Schemas of one name are stored and cleared in any order, and some cannot be rendered. After every call
the manifest, the artifacts and the cache are those of the schema that was stored last, or all are gone.
-/

namespace ClassSchema

namespace Store

open FileTree

/-- The states that calls lead to, with the schema that was stored last and is not cleared since. -/
inductive Reached (store : Store) (name : String) (start : StoreState) :
    Option Schema → StoreState → Prop
  | start : Reached store name start none start
  | stored {last schema s s' report} : Reached store name start last s → schema.Named →
      schema.name = name → store.persist schema s = .ok report s' →
      Reached store name start (some schema) s'
  | refused {last schema d s s' e} : Reached store name start last s → schema.Named →
      schema.name = name → d ∈ schema.definitions.values → store.Unrenderable schema s d →
      store.persist schema s = .error e s' → Reached store name start last s'
  | cleared {last s s'} : Reached store name start last s → store.clear name s = .ok () s' →
      Reached store name start none s'

/-- Manifest, artifacts and cache of a schema that is stored. -/
structure Holds (store : Store) (name : String) (schema : Schema) (s : StoreState) : Prop where
  manifest : (entriesAt s.tree (store.livePlace name)).get? Manifest.fileName =
    some (.file (Store.manifest schema).text)
  artifacts : ∀ file, Path.extension? file = some Artifact.extension →
    ((entriesAt s.tree (store.livePlace name)).get? file ≠ none ↔ ∃ artifact,
      file = Artifact.fileName artifact ∧ ((Store.manifest schema).artifacts.get? artifact).isSome)
  texts : ∀ artifact, ((Store.manifest schema).artifacts.get? artifact).isSome → ∃ text,
    (entriesAt s.tree (store.livePlace name)).get? (Artifact.fileName artifact) = some (.file text)
  signatures : ∀ artifact, s.cache.get? (SignatureCache.keyOf name artifact) =
    ((Store.manifest schema).artifacts.get? artifact).map ManifestEntry.signature

variable {store : Store} {schema : Schema} {name : String} {last : Option Schema}
  {start s s' : StoreState}

theorem InStep.holds (h : store.InStep name (some schema) s) (hschema : schema.Named) :
    store.Holds name schema s := by
  have hlisted (artifact : String) : ((Store.manifest schema).artifacts.get? artifact).isSome ↔
      (lastDefinition (some schema) artifact).isSome := by
    rw [get?_manifest hschema, Option.isSome_map]
    rfl
  have htexts : ∀ artifact, ((Store.manifest schema).artifacts.get? artifact).isSome → ∃ text,
      (entriesAt s.tree (store.livePlace name)).get? (Artifact.fileName artifact) =
        some (.file text) := by
    intro artifact hartifact
    obtain ⟨d, hd⟩ := Option.isSome_iff_exists.mp ((hlisted artifact).mp hartifact)
    exact h.stored artifact d hd
  refine ⟨h.manifest schema rfl, fun file hextension => ⟨fun hfile => ?_, ?_⟩, htexts, ?_⟩
  · obtain ⟨artifact, hname, hsome⟩ := h.exists_of_extension hextension hfile
    exact ⟨artifact, hname, (hlisted artifact).mpr hsome⟩
  · rintro ⟨artifact, rfl, hartifact⟩
    obtain ⟨text, htext⟩ := htexts artifact hartifact
    rw [htext]
    simp
  · intro artifact
    rw [h.remembered, get?_manifest hschema, Option.map_map]
    rfl

theorem InStep.kindAt_live (h : store.InStep name (some schema) s) :
    s.tree.kindAt (store.livePlace name) = some true := by
  have hmanifest := h.manifest schema rfl
  rw [get?_entriesAt] at hmanifest
  have hpresent : s.tree.kindAt (store.livePlace name ++ [Manifest.fileName]) ≠ none := by
    rw [ne_eq, kindAt_eq_none_iff, hmanifest]
    simp
  have hparent := kindAt_dropLast (by simp) hpresent
  rwa [List.dropLast_concat] at hparent

theorem contentAt_of_untouched {place : List String} (h : store.Untouched s s')
    (havoid : Path.Avoids store.root place) (below : List String) :
    s'.tree.contentAt (place ++ below) = s.tree.contentAt (place ++ below) := by
  rcases h.tree (place ++ below) with hsame | ⟨hwalk, -⟩
  · exact hsame
  · exact absurd (List.prefix_append _ _) (havoid _ hwalk)

theorem InStep.of_untouched (hs : store.InStep name last s) (h : store.Untouched s s')
    (havoid : Path.Avoids store.root (store.livePlace name)) : store.InStep name last s' := by
  have hcontent (file : String) : s'.tree.contentAt (store.livePlace name ++ [file]) =
      s.tree.contentAt (store.livePlace name ++ [file]) := contentAt_of_untouched h havoid [file]
  have hfile {file text : String}
      (hget : (entriesAt s.tree (store.livePlace name)).get? file = some (.file text)) :
      (entriesAt s'.tree (store.livePlace name)).get? file = some (.file text) := by
    rw [get?_entriesAt] at hget ⊢
    rw [← contentAt_eq_file_iff, hcontent, contentAt_of_file hget]
  refine ⟨fun artifact => ?_, fun hlast => ?_, fun schema hlast => hfile (hs.manifest schema hlast),
    fun artifact d hd => ?_, fun file hget => hs.listed file ?_⟩
  · rw [h.cache]
    exact hs.remembered artifact
  · have hlive := contentAt_of_untouched h havoid []
    rw [List.append_nil] at hlive
    rw [← contentAt_eq_none_iff, hlive, contentAt_eq_none_iff]
    exact hs.absent hlast
  · obtain ⟨text, htext⟩ := hs.stored artifact d hd
    exact ⟨text, hfile htext⟩
  · rw [get?_entriesAt] at hget ⊢
    rwa [ne_eq, ← contentAt_eq_none_iff, hcontent, contentAt_eq_none_iff] at hget

theorem Located.of_untouched (hs : store.Located name s.tree) (h : store.Untouched s s') :
    store.Located name s'.tree := by
  refine ⟨hs.named, fun p hp => ⟨?_, (hs.folders p hp).2⟩⟩
  have hfolder := (hs.folders p hp).1
  rcases h.tree p with hsame | ⟨-, hnone, -⟩
  · rw [kindAt_eq_of_contentAt hsame, hfolder]
  · rw [kindAt, contentAt_eq_none_iff.mp hnone] at hfolder
    cases hfolder

/-- What every call keeps. -/
structure Kept (store : Store) (name : String) (start : StoreState) (last : Option Schema)
    (s : StoreState) : Prop where
  inStep : store.InStep name last s
  path : s.cache.path = start.cache.path
  located : last ≠ none → store.Located name s.tree
  named : ∀ t ∈ last, t.Named

theorem Kept.stored {report : PersistReport} (h : store.Kept schema.name start last s)
    (hschema : schema.Named) (hapart : store.Apart schema.name start)
    (hpersist : store.persist schema s = .ok report s') :
    store.Kept schema.name start (some schema) s' := by
  obtain ⟨draft, heffect⟩ := persist_effect hschema (hapart.of_path h.path) hpersist
  obtain ⟨st, -⟩ := (persist_ok_iff hschema).mp hpersist
  refine ⟨h.inStep.persist hschema h.named heffect, heffect.path.trans h.path, fun _ => st.located, ?_⟩
  rintro _ ⟨⟩
  exact hschema

theorem Kept.refused {d : Definition} {e : Fault} (h : store.Kept schema.name start last s)
    (hschema : schema.Named) (hapart : store.Apart schema.name start)
    (hmem : d ∈ schema.definitions.values) (hd : store.Unrenderable schema s d)
    (hpersist : store.persist schema s = .error e s') :
    store.Kept schema.name start last s' := by
  obtain ⟨e', s'', hpersist', huntouched⟩ := persist_untouched hschema hmem hd
  rw [hpersist] at hpersist'
  obtain ⟨rfl, rfl⟩ := EStateM.Result.error.inj hpersist'
  refine ⟨h.inStep.of_untouched huntouched hapart.root, ?_, fun hlast => ?_, h.named⟩
  · rw [huntouched.cache, h.path]
  · exact (h.located hlast).of_untouched huntouched

theorem Kept.cleared (h : store.Kept name start last s) (hapart : store.Apart name start)
    (hclear : store.clear name s = .ok () s') : store.Kept name start none s' := by
  have hlive : s.tree.at? (store.livePlace name) = none ∨
      s.tree.kindAt (store.livePlace name) = some true ∧ store.Located name s.tree := by
    cases last with
    | none => exact .inl (h.inStep.absent rfl)
    | some schema => exact .inr ⟨h.inStep.kindAt_live, h.located (by simp)⟩
  obtain ⟨hpath, hempty⟩ := clear_ok (hapart.of_path h.path).cache hlive hclear
  refine ⟨hempty.inStep, hpath.trans h.path, fun hnone => absurd rfl hnone, fun t ht => ?_⟩
  cases ht

/-- In every state that calls lead to, cache and folder are in step with the schema that was stored last, and
its folder, if there is one, is found by its path. -/
theorem Reached.kept (hempty : store.Empty name start) (hapart : store.Apart name start)
    (h : store.Reached name start last s) : store.Kept name start last s := by
  induction h with
  | start => exact ⟨hempty.inStep, rfl, fun hnone => absurd rfl hnone, fun t ht => by cases ht⟩
  | stored _ hschema hname hpersist ih =>
    subst hname
    exact ih.stored hschema hapart hpersist
  | refused _ hschema hname hmem hd hpersist ih =>
    subst hname
    exact ih.refused hschema hapart hmem hd hpersist
  | cleared _ hclear ih => exact ih.cleared hapart hclear

/-- After any row of calls, of which some may have failed since an artifact could not be rendered, the
schema that was stored last is held, or nothing is if there is none. -/
theorem Reached.holds_or_empty (hempty : store.Empty name start) (hapart : store.Apart name start)
    (h : store.Reached name start last s) :
    match last with
    | some schema => store.Holds name schema s
    | none => store.Empty name s := by
  have hkept := h.kept hempty hapart
  cases last with
  | some schema => exact hkept.inStep.holds (hkept.named schema rfl)
  | none => exact ⟨hkept.inStep.absent rfl, hkept.inStep.remembered⟩

section Example

def colored : Schema := (Schema.new "default").put "Color" (.enum ⟨"Color", none, [⟨"RED", none⟩]⟩)

/-- The scalar cannot be rendered where the template for scalars is missing. -/
def dated : Schema := colored.put "Date" (.scalar ⟨"Date", none⟩)

/-- The state after the first schema was stored where there was nothing. -/
def afterColored : StoreState :=
  match Project.scalarless.store.persist colored ⟨.emptyFolder, .inMemory⟩ with
  | .ok _ s => s
  | .error _ s => s

private theorem named_colored : colored.Named :=
  (Schema.named_new "default").put (d := .enum ⟨"Color", none, [⟨"RED", none⟩]⟩) (by decide)

private theorem straight_scalarless : Project.scalarless.store.Straight := by
  unfold Straight
  decide +kernel

private theorem apart_scalarless : Project.scalarless.store.Apart "default" blank :=
  (secluded_blank (by decide) straight_scalarless).toApart

private theorem empty_scalarless : Project.scalarless.store.Empty "default" blank := empty_blank (by decide)

private theorem persist_colored : ∃ report,
    Project.scalarless.store.persist colored blank = .ok report afterColored := by
  have hrender : ∀ d ∈ colored.definitions.values,
      ∃ text, Project.scalarless.store.encoder d.kind.word (Artifact.scope colored d) = .ok text := by
    intro d hd
    have hword : d.kind.word = "enum" := by
      rw [List.mem_singleton.mp hd]
      rfl
    have htemplate : Project.scalarless.templates.templates.get? d.kind.word =
        TemplateLibrary.builtin.templates.get? d.kind.word := by
      rw [hword]
      rfl
    exact ⟨_, (Artifact.encoder_congr htemplate _).trans (Artifact.encoder_builtin colored d)⟩
  obtain ⟨report, s, hpersist⟩ := (empty_scalarless.inStep.exists_persist_iff named_colored apart_scalarless
    (ready_blank (by decide) straight_scalarless)).mpr fun d hd => .inr (hrender d hd)
  refine ⟨report, ?_⟩
  have hafter : afterColored = s := by
    rw [afterColored, ← blank, hpersist]
  rw [hafter, hpersist]

private theorem unrenderable_afterColored :
    Project.scalarless.store.Unrenderable dated afterColored (.scalar ⟨"Date", none⟩) := by
  obtain ⟨report, hstored⟩ := persist_colored
  obtain ⟨draft, heffect⟩ := persist_effect named_colored apart_scalarless hstored
  have hstep := empty_scalarless.inStep.persist named_colored (by simp) heffect
  refine ⟨Bool.eq_false_iff.mpr fun hcurrent => ?_, ?_⟩
  · obtain ⟨e, he, -⟩ := hstep.isCurrent_iff.mp hcurrent
    cases he
  · have hmissing : Project.scalarless.templates.templates.get? "scalar" = none := rfl
    refine ⟨.template "scalar" "no such template", ?_⟩
    show Project.scalarless.templates.encoder "scalar" (Artifact.scope dated (.scalar ⟨"Date", none⟩)) = _
    rw [TemplateLibrary.encoder, hmissing]

/-- A schema that cannot be rendered does not disturb the one before it. -/
theorem holds_colored : ∃ report e s,
    Project.scalarless.store.persist colored ⟨.emptyFolder, .inMemory⟩ = .ok report afterColored ∧
    Project.scalarless.store.persist dated afterColored = .error e s ∧
    Project.scalarless.store.Holds "default" colored s := by
  obtain ⟨report, hstored⟩ := persist_colored
  have hnamed : dated.Named := named_colored.put (d := .scalar ⟨"Date", none⟩) (by decide)
  have hmem : .scalar ⟨"Date", none⟩ ∈ dated.definitions.values :=
    hnamed.mem_values_iff.mpr rfl
  obtain ⟨e, s, hrefused, -⟩ := persist_untouched hnamed hmem unrenderable_afterColored
  have hreached : Project.scalarless.store.Reached "default" ⟨.emptyFolder, .inMemory⟩
      (some colored) s :=
    .refused (.stored .start named_colored rfl hstored) hnamed rfl hmem unrenderable_afterColored
      hrefused
  exact ⟨report, e, s, hstored, hrefused, Reached.holds_or_empty empty_scalarless apart_scalarless hreached⟩

end Example

end Store

end ClassSchema
