import ClassSchema.Proofs.Serve.Opened
import ClassSchema.Proofs.Store.Mending

/-!
# What is built is what is served

A schema that was built and stored is opened again, with the artifacts that it has. A definition is
served with its own plans exactly if these are what is read from its text, and they are if the definition
is legible. A description is free text, in which something that looks like a field with a plan is found
as one.
-/

namespace ClassSchema

namespace Store

open FileTree ClassSchema.Path

variable {store : Store} {schema : Schema} {s s' : StoreState} {report : PersistReport}
  {draft : Draft} {d : Definition}

theorem lookAt?_persist (hschema : schema.Named) (hapart : store.Apart schema.name s)
    (h : store.persist schema s = .ok report s') {file : String} (hfile : isPlainName file = true) :
    s'.tree.lookAt? (join (store.schemaPath schema.name) file) =
      (entriesAt s'.tree (store.livePlace schema.name)).get? file := by
  obtain ⟨st, -⟩ := (persist_ok_iff hschema).mp h
  obtain ⟨es, hes, -⟩ := (st.effect hschema hapart).folder
  refine lookAt?_live st.located ?_ hfile
  rw [kindAt, hes]
  simp [isFolder]

end Store

namespace Builder

variable {b : Builder} {ctx : Context} {store : Store} {schema : Schema} {report : PersistReport}
  {s s' : StoreState}

/-- What is built and stored can be opened, and is served just as far as its texts can be read. -/
theorem openAt_of_build (hbuild : (b.build ctx).1 = .ok schema)
    (hencoder : store.encoder = TemplateLibrary.builtin.encoder)
    (hapart : store.Apart schema.name s)
    (hnew : ∀ d ∈ schema.definitions.values, Store.isCurrent schema.name s.cache
      (Store.entriesAt s.tree (store.livePlace schema.name)) d = false)
    (hpersist : store.persist schema s = .ok report s') :
    ∃ g, GeneratedSchema.openAt s'.tree store.root schema.name = .ok g ∧
      (∀ name, (g.manifest.artifacts.get? name).isSome ↔ (schema.get? name).isSome) ∧
      ∀ d ∈ schema.definitions.values,
        g.Serves s'.tree d ↔ d.ReadFrom (String.ofList (Artifact.builtinText schema d)) := by
  obtain ⟨models, hassembled⟩ := exists_assembled hbuild
  have hschema := hassembled.toNamed
  obtain ⟨draft, heffect⟩ := Store.persist_effect hschema hapart hpersist
  have hmanifest : s'.tree.lookAt? (Path.join (Path.join store.root (Store.manifest schema).schema)
      Manifest.fileName) = some (.file (Store.manifest schema).text) := by
    rw [Store.schema_manifest, ← Store.schemaPath,
      Store.lookAt?_persist hschema hapart hpersist (by decide), heffect.manifest]
  have hopen := GeneratedSchema.openAt_of_manifest (Store.sorted_manifest schema) hmanifest
  rw [Store.schema_manifest] at hopen
  refine ⟨_, hopen, fun name => ?_, fun d hd => ?_⟩
  · rw [Store.get?_manifest hschema, Option.isSome_map]
  · have hget := hschema.mem_values_iff.mp hd
    have hgraph := (hschema.named d.name d hget).2
    have hentry : (Store.manifest schema).artifacts.get? d.name = some (Store.entryOf d) := by
      rw [Store.get?_manifest hschema, hget, Option.map_some]
    obtain ⟨text, hrender, hfile⟩ := heffect.get?_rendered hschema hd (hnew d hd)
    rw [hencoder, Artifact.encoder_builtin] at hrender
    obtain rfl := Except.ok.inj hrender
    have hsource := Store.lookAt?_persist hschema hapart hpersist (Store.isPlainName_fileName hgraph)
    rw [hfile] at hsource
    -- Nothing is loaded yet, so the artifact is what is read from the file.
    have hfaithful := GeneratedSchema.faithful_unread schema.name (store.schemaPath schema.name)
      (Store.manifest schema) s'.tree
    exact GeneratedSchema.serves_iff hfaithful hentry rfl hsource

theorem readFrom_of_build {d : Definition} (hbuild : (b.build ctx).1 = .ok schema)
    (hd : d ∈ schema.definitions.values) (hlegible : d.Legible schema) :
    d.ReadFrom (String.ofList (Artifact.builtinText schema d)) := by
  obtain ⟨models, hassembled⟩ := exists_assembled hbuild
  have hget := hassembled.toNamed.mem_values_iff.mp hd
  have hgraph := (hassembled.named d.name d hget).2
  exact Artifact.readFrom_of_legible hlegible hgraph (hassembled.bound d.name d hget)

/-- Every artifact of a schema that was built and stored is served just with the plans of its
definition, if this is legible, and exactly if these are what its text gives. -/
theorem build_serves (b : Builder) (ctx : Context) (store : Store) (schema : Schema)
    (report : PersistReport) (s s' : StoreState) (hbuild : (b.build ctx).1 = .ok schema)
    (hencoder : store.encoder = TemplateLibrary.builtin.encoder)
    (hapart : store.Apart schema.name s)
    (hnew : ∀ d ∈ schema.definitions.values, Store.isCurrent schema.name s.cache
      (Store.entriesAt s.tree (store.livePlace schema.name)) d = false)
    (hpersist : store.persist schema s = .ok report s') :
    ∃ g, GeneratedSchema.openAt s'.tree store.root schema.name = .ok g ∧
      (∀ name, (g.manifest.artifacts.get? name).isSome ↔ (schema.get? name).isSome) ∧
      ∀ d ∈ schema.definitions.values,
        (d.Legible schema → g.Serves s'.tree d) ∧
          (g.Serves s'.tree d ↔ d.ReadFrom (String.ofList (Artifact.builtinText schema d))) := by
  obtain ⟨g, hopen, hartifacts, hserves⟩ := openAt_of_build hbuild hencoder hapart hnew hpersist
  refine ⟨g, hopen, hartifacts, fun d hd => ⟨fun hlegible => ?_, hserves d hd⟩⟩
  exact (hserves d hd).mpr (readFrom_of_build hbuild hd hlegible)

section Example

open Store (builtinStore blank)

/-- A field without arguments and description, bound to one function alone. -/
def isBare (f : Field) : Bool :=
  f.name ≠ "" && f.name.toList.all isWordChar && f.args.isEmpty && f.description.isNone &&
    f.type.toList.all (fun c => c ≠ '@' && c ≠ '\n') &&
    f.resolver.all fun p => decide p.reference.WellFormed && p.steps.isEmpty && p.context.entries.isEmpty

private theorem legible_of_isBare {o : ObjectType} (hdescription : o.description = none)
    (hinterfaces : o.interfaces = []) (h : o.fields.values.all isBare = true) : o.Legible := by
  simp only [List.all_eq_true, isBare, Bool.and_eq_true, decide_eq_true_eq, List.isEmpty_iff,
    Option.isNone_iff_eq_none, Option.all_eq_true] at h
  refine ⟨by simp [hdescription], by simp [hinterfaces], fun f hf => ?_, fun f hf p hp => ?_⟩
  · obtain ⟨⟨⟨⟨⟨hname, hword⟩, hargs⟩, hnone⟩, hinline⟩, -⟩ := h f hf
    refine ⟨hname, hword, by simp [hargs], fun c hc => ?_, by simp [hnone]⟩
    exact hinline c ((List.dropWhile_suffix _).subset hc)
  · obtain ⟨-, hplan⟩ := h f hf
    obtain ⟨⟨hreference, hsteps⟩, hcontext⟩ := hplan p hp
    obtain ⟨hbefore, hafter⟩ := List.append_eq_nil_iff.mp hsteps
    obtain ⟨reference, middleware, afterware, ⟨entries⟩⟩ := p
    subst hbefore hafter hcontext
    exact Plan.restorable_new hreference

private theorem exists_persist (ctx : Context) (check : Schema → Bool)
    (h : (match (libraryBuilder.build ctx).1 with
      | .ok schema => Path.isPlainName schema.name && check schema
      | .error _ => false) = true) :
    ∃ schema report s, (libraryBuilder.build ctx).1 = .ok schema ∧
      builtinStore.persist schema blank = .ok report s ∧ builtinStore.Apart schema.name blank ∧
        check schema = true := by
  split at h
  · next schema hbuild =>
    obtain ⟨hplain, hcheck⟩ := Bool.and_eq_true_iff.mp h
    obtain ⟨models, hassembled⟩ := exists_assembled hbuild
    obtain ⟨report, s, hpersist⟩ := Store.exists_persist_blank hassembled.toNamed hplain
    exact ⟨schema, report, s, hbuild, hpersist,
      (Store.secluded_blank hplain Store.straight_builtinStore).toApart, hcheck⟩
  · cases h

private theorem mem_of_get? {b : Builder} {ctx : Context} {schema : Schema} {d : Definition}
    {name : String} (hbuild : (b.build ctx).1 = .ok schema) (h : schema.get? name = some d) :
    d ∈ schema.definitions.values := by
  obtain ⟨models, hassembled⟩ := exists_assembled hbuild
  exact (hassembled.toNamed.sorted.mem_values_iff d).mpr ⟨name, h⟩

/-- Whether the statistics are an object type with one bare field. -/
def hasBarePages (schema : Schema) : Bool :=
  match schema.get? "Stats" with
  | some (.object o) => o.fields.keys = ["pages"] && o.description = none &&
      o.interfaces.isEmpty && o.fields.values.all isBare
  | _ => false

/-- An object type of the library is served with the plan of its field. -/
theorem build_serves_library : ∃ schema report s g o,
    (libraryBuilder.build libraryContext).1 = .ok schema ∧
    builtinStore.persist schema blank = .ok report s ∧
    GeneratedSchema.openAt s.tree builtinStore.root schema.name = .ok g ∧
    schema.get? "Stats" = some (.object o) ∧ o.fields.keys = ["pages"] ∧
    g.Serves s.tree (.object o) := by
  obtain ⟨schema, report, s, hbuild, hpersist, hapart, hcheck⟩ := exists_persist libraryContext
    hasBarePages (by decide +kernel)
  rw [hasBarePages] at hcheck
  split at hcheck
  · next o hstats =>
    simp only [Bool.and_eq_true, decide_eq_true_eq, List.isEmpty_iff] at hcheck
    obtain ⟨⟨⟨hkeys, hdescription⟩, hinterfaces⟩, hbare⟩ := hcheck
    obtain ⟨g, hopen, -, hserves⟩ := build_serves libraryBuilder libraryContext builtinStore schema
      report blank s hbuild rfl hapart (fun d _ => rfl) hpersist
    have hlegible := legible_of_isBare hdescription hinterfaces hbare
    exact ⟨schema, report, s, g, o, hbuild, hpersist, hopen, hstats, hkeys,
      (hserves _ (mem_of_get? hbuild hstats)).1 hlegible⟩
  · cases hcheck

/-- A scalar whose description has a line that looks like a field with a plan. -/
def exemplaryContext : Context :=
  let description := "x: y @resolver(encoded: \"\x7b\\\"ref\\\":\\\"Builtin::resolve\\\"\x7d\")"
  .ofSettings "default" (.ofList [("scalars", .table (.ofList [("Date", .table (.ofList
    [("description", .string description)]))]))])

/-- Whether the date is a scalar whose text has a plan for a field. -/
def hasDateWithPlan (schema : Schema) : Bool :=
  match schema.get? "Date" with
  | some (.scalar t) =>
    match Artifact.resolversIn (String.ofList (Artifact.builtinText schema (.scalar t))) with
    | .ok plans => (plans.get? "x").isSome
    | .error _ => false
  | _ => false

/-- The scalar is served with a plan for the field in its description. -/
theorem not_serves_exemplary : ∃ schema report s g d,
    (libraryBuilder.build exemplaryContext).1 = .ok schema ∧
    builtinStore.persist schema blank = .ok report s ∧
    GeneratedSchema.openAt s.tree builtinStore.root schema.name = .ok g ∧
    schema.get? "Date" = some d ∧ d.kind = .scalar ∧ ¬ g.Serves s.tree d := by
  obtain ⟨schema, report, s, hbuild, hpersist, hapart, hcheck⟩ := exists_persist exemplaryContext
    hasDateWithPlan (by decide +kernel)
  obtain ⟨g, hopen, -, hserves⟩ := openAt_of_build hbuild rfl hapart (fun d _ => rfl) hpersist
  rw [hasDateWithPlan] at hcheck
  split at hcheck
  · next t hdate =>
    refine ⟨schema, report, s, g, .scalar t, hbuild, hpersist, hopen, hdate, rfl, ?_⟩
    rw [hserves _ (mem_of_get? hbuild hdate)]
    rintro ⟨plans, hplans, hget⟩
    rw [hplans] at hcheck
    dsimp only at hcheck
    rw [hget "x"] at hcheck
    cases hcheck
  · cases hcheck

end Example

end Builder

end ClassSchema
