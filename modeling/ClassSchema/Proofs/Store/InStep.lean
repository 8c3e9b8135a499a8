import ClassSchema.Proofs.Store.Persist

/-!
# Cache, folder and manifest in step

What the cache remembers, the files of the live folder, and the manifest in it all speak of one schema: the
last that was stored. Storing another schema brings all three over to that one.
-/

namespace ClassSchema

namespace Store

/-- The paths of the store do not lead through the live folder. -/
structure Apart (store : Store) (name : String) (s : StoreState) : Prop where
  root : Path.Avoids store.root (store.livePlace name)
  cache : s.cache.Avoids (store.livePlace name)

/-- Nothing was ever stored under a name. -/
structure Empty (store : Store) (name : String) (s : StoreState) : Prop where
  folder : s.tree.at? (store.livePlace name) = none
  cache : ∀ artifact, s.cache.get? (SignatureCache.keyOf name artifact) = none

/-- The definition of a name in the schema that was stored last, if one is stored. -/
def lastDefinition (last : Option Schema) (artifact : String) : Option Definition :=
  last.bind (·.get? artifact)

/-- Cache and live folder are those of the schema that was stored last. -/
structure InStep (store : Store) (name : String) (last : Option Schema) (s : StoreState) : Prop where
  remembered : ∀ artifact, s.cache.get? (SignatureCache.keyOf name artifact) =
    (lastDefinition last artifact).map Definition.signature
  absent : last = none → s.tree.at? (store.livePlace name) = none
  manifest : ∀ schema, last = some schema →
    (entriesAt s.tree (store.livePlace name)).get? Manifest.fileName =
      some (.file (manifest schema).text)
  stored : ∀ artifact d, lastDefinition last artifact = some d → ∃ text,
    (entriesAt s.tree (store.livePlace name)).get? (Artifact.fileName artifact) = some (.file text)
  listed : ∀ file, (entriesAt s.tree (store.livePlace name)).get? file ≠ none →
    (file = Manifest.fileName ∨ ∃ f ∈ sentinels, file = f.1) ∨
      ∃ artifact, file = Artifact.fileName artifact ∧ (lastDefinition last artifact).isSome

variable {store : Store} {schema : Schema} {name : String} {last : Option Schema}
  {s s' : StoreState} {report : PersistReport}

theorem Empty.inStep (h : store.Empty name s) : store.InStep name none s where
  remembered := h.cache
  absent := fun _ => h.folder
  manifest := by
    intro schema hschema
    cases hschema
  stored := by
    intro artifact d hd
    cases hd
  listed := by
    intro file hfile
    rw [entriesAt, h.folder] at hfile
    exact absurd rfl hfile

theorem Apart.of_path (h : store.Apart name s) (hpath : s'.cache.path = s.cache.path) :
    store.Apart name s' where
  root := h.root
  cache := h.cache.of_path hpath

/-- What the folder and the cache are after one schema was stored, in terms of the draft. -/
structure Effect (store : Store) (schema : Schema) (s s' : StoreState) (draft : Draft) : Prop where
  path : s'.cache.path = s.cache.path
  draft_ok : store.draft schema s.cache (entriesAt s.tree (store.livePlace schema.name)) = .ok draft
  folder : ∃ es, s'.tree.at? (store.livePlace schema.name) = some (.folder es) ∧
    ∀ file, es.get? file = if file ∈ staleFiles schema draft.entries then none else draft.entries.get? file
  cache : ∀ artifact, s'.cache.get? (SignatureCache.keyOf schema.name artifact) =
    if SignatureCache.keyOf schema.name artifact ∈ (staleFiles schema draft.entries).map
      (fun file => SignatureCache.keyOf schema.name (artifactName file)) then none
    else ((draft.outcomes.find? fun o => o.isWritten && o.name = artifact).map
      (·.definition.signature)).or (s.cache.get? (SignatureCache.keyOf schema.name artifact))

theorem Stages.opened_ok (hapart : store.Apart schema.name s) (st : Stages store schema s s') :
    st.opened.cache = s.cache ∧
      st.opened.tree.at? (store.livePlace schema.name) = s.tree.at? (store.livePlace schema.name) := by
  obtain ⟨hcache, hmake⟩ := Store.openRoot_ok st.openRoot_ok
  rw [← FileTree.grown_of_ok hmake]
  exact ⟨hcache, FileTree.at?_grown hapart.root⟩

theorem Stages.draft_live (hapart : store.Apart schema.name s) (st : Stages store schema s s') :
    store.draft schema s.cache (entriesAt s.tree (store.livePlace schema.name)) = .ok st.draft := by
  obtain ⟨hcache, hlive⟩ := st.opened_ok hapart
  have hdraft := st.draft_ok
  rwa [hcache, entriesAt, hlive] at hdraft

theorem Stages.remembered_ok (hapart : store.Apart schema.name s) (st : Stages store schema s s') :
    st.swapped.cache = s.cache ∧ st.remembered.cache.path = s.cache.path ∧
      st.remembered.tree.at? (store.livePlace schema.name) = some (.folder st.draft.entries) := by
  have hcache : st.swapped.cache = s.cache := st.cache_ok.trans (st.opened_ok hapart).1
  have havoid : st.swapped.cache.Avoids (store.livePlace schema.name) := by
    rw [hcache]
    exact hapart.cache
  have hsame := sameAt_remember havoid st.remember_ok
  exact ⟨hcache, hsame.path.trans (congrArg _ hcache), hsame.tree.trans st.swap_ok.live⟩

theorem Stages.effect (hschema : schema.Named) (hapart : store.Apart schema.name s)
    (st : Stages store schema s s') : Effect store schema s s' st.draft := by
  obtain ⟨hswapped, hpath, hdrafted⟩ := st.remembered_ok hapart
  have hdraft := st.draft_live hapart
  obtain ⟨hpath', hfolder, hforgotten⟩ :=
    Store.reconcile_ok (hapart.cache.of_path hpath) hdrafted st.reconcile_ok
  refine ⟨hpath'.trans hpath, hdraft, hfolder, fun artifact => ?_⟩
  rw [hforgotten, get?_remember (outcomes_names_nodup hschema hdraft) st.remember_ok, hswapped]

theorem persist_effect (hschema : schema.Named) (hapart : store.Apart schema.name s)
    (h : store.persist schema s = .ok report s') : ∃ draft, Effect store schema s s' draft := by
  obtain ⟨st, -⟩ := (persist_ok_iff hschema).mp h
  exact ⟨st.draft, st.effect hschema hapart⟩

theorem InStep.exists_of_extension (hs : store.InStep name last s) {file : String}
    (hextension : Path.extension? file = some Artifact.extension)
    (hfile : (entriesAt s.tree (store.livePlace name)).get? file ≠ none) :
    ∃ artifact, file = Artifact.fileName artifact ∧ (lastDefinition last artifact).isSome := by
  obtain ⟨hmanifest, hsentinels⟩ := Artifact.ne_of_extension hextension
  rcases hs.listed file hfile with (heq | ⟨f, hf, heq⟩) | hartifact
  · exact absurd heq hmanifest
  · exact absurd heq (hsentinels f hf)
  · exact hartifact

section Step

variable {draft : Draft} {d : Definition}

theorem mem_staleFiles_iff {es : Dict FileTree} {file : String} :
    file ∈ staleFiles schema es ↔ es.get? file ≠ none ∧
      Path.extension? file = some Artifact.extension ∧
        ∀ d ∈ schema.definitions.values, Artifact.fileName d.name ≠ file := by
  rw [staleFiles, List.mem_filter, Dict.mem_keys_iff, isStale]
  simp

theorem mem_staleFiles_draft_iff {cache : SignatureCache} {live : Dict FileTree}
    (hdraft : store.draft schema cache live = .ok draft) (file : String) :
    file ∈ staleFiles schema draft.entries ↔ file ∈ staleFiles schema live := by
  rw [mem_staleFiles_iff, mem_staleFiles_iff]
  apply and_congr_left
  intro hstale
  rw [get?_draft_of_ne hdraft (Artifact.ne_of_extension hstale.1) hstale.2]

theorem Effect.get?_entries (h : Effect store schema s s' draft) (file : String) :
    (entriesAt s'.tree (store.livePlace schema.name)).get? file =
      if file ∈ staleFiles schema draft.entries then none else draft.entries.get? file := by
  obtain ⟨es, hes, hget⟩ := h.folder
  rw [entriesAt_of_folder hes, hget]

theorem Effect.manifest (h : Effect store schema s s' draft) :
    (entriesAt s'.tree (store.livePlace schema.name)).get? Manifest.fileName =
      some (.file (manifest schema).text) := by
  rw [h.get?_entries, if_neg, get?_draft_manifest h.draft_ok]
  intro hstale
  exact (Artifact.ne_of_extension (mem_staleFiles_iff.mp hstale).2.1).1 rfl

theorem Effect.get?_sentinel (h : Effect store schema s s' draft) {f : String × String}
    (hf : f ∈ sentinels) :
    (entriesAt s'.tree (store.livePlace schema.name)).get? f.1 =
      ((entriesAt s.tree (store.livePlace schema.name)).get? f.1).or (some (.file f.2)) := by
  rw [h.get?_entries, if_neg, get?_draft_sentinel h.draft_ok hf]
  intro hstale
  exact (Artifact.ne_of_extension (mem_staleFiles_iff.mp hstale).2.1).2 f hf rfl

theorem Effect.get?_fileName (h : Effect store schema s s' draft) (hd : d ∈ schema.definitions.values) :
    (entriesAt s'.tree (store.livePlace schema.name)).get? (Artifact.fileName d.name) =
      draft.entries.get? (Artifact.fileName d.name) := by
  rw [h.get?_entries, if_neg]
  intro hstale
  exact (mem_staleFiles_iff.mp hstale).2.2 d hd rfl

theorem Effect.get?_current (h : Effect store schema s s' draft) (hschema : schema.Named)
    (hd : d ∈ schema.definitions.values) (hcurrent : isCurrent schema.name s.cache
      (entriesAt s.tree (store.livePlace schema.name)) d = true) :
    (entriesAt s'.tree (store.livePlace schema.name)).get? (Artifact.fileName d.name) =
      (entriesAt s.tree (store.livePlace schema.name)).get? (Artifact.fileName d.name) := by
  rw [h.get?_fileName hd, get?_draft_current hschema h.draft_ok hd hcurrent]

theorem Effect.get?_rendered (h : Effect store schema s s' draft) (hschema : schema.Named)
    (hd : d ∈ schema.definitions.values) (hcurrent : isCurrent schema.name s.cache
      (entriesAt s.tree (store.livePlace schema.name)) d = false) :
    ∃ text, store.encoder d.kind.word (Artifact.scope schema d) = .ok text ∧
      (entriesAt s'.tree (store.livePlace schema.name)).get? (Artifact.fileName d.name) =
        some (.file text) := by
  rw [h.get?_fileName hd]
  exact get?_draft_rendered hschema h.draft_ok hd hcurrent

theorem lastDefinition_named (hlast : ∀ t ∈ last, t.Named) {artifact : String}
    (h : lastDefinition last artifact = some d) : d.name = artifact ∧ isGraphName artifact = true := by
  obtain ⟨t, ht, hd⟩ := Option.bind_eq_some_iff.mp h
  exact (hlast t ht).named artifact d hd

/-- What is stale is what the schema before had and this one does not have. -/
theorem InStep.stale (hs : store.InStep schema.name last s)
    (hdraft : store.draft schema s.cache (entriesAt s.tree (store.livePlace schema.name)) = .ok draft)
    {file : String} (h : file ∈ staleFiles schema draft.entries) :
    ∃ artifact, file = Artifact.fileName artifact ∧ (lastDefinition last artifact).isSome := by
  obtain ⟨hget, hextension, hother⟩ := mem_staleFiles_iff.mp h
  rw [get?_draft_of_ne hdraft (Artifact.ne_of_extension hextension) hother] at hget
  exact hs.exists_of_extension hextension hget

theorem get?_eq_none_iff (hschema : schema.Named) (artifact : String) :
    schema.get? artifact = none ↔
      ∀ d ∈ schema.definitions.values, Artifact.fileName d.name ≠ Artifact.fileName artifact := by
  constructor
  · intro h d hd hfile
    rw [hschema.mem_values_iff, Artifact.fileName_inj hfile, h] at hd
    cases hd
  · intro h
    cases hget : schema.get? artifact with
    | none => rfl
    | some d =>
      have hname := (hschema.named artifact d hget).1
      refine absurd (congrArg Artifact.fileName hname) (h d ?_)
      rw [hschema.mem_values_iff, hname, hget]

theorem InStep.forgotten_iff (hs : store.InStep schema.name last s)
    (hschema : schema.Named) (hlast : ∀ t ∈ last, t.Named)
    (hdraft : store.draft schema s.cache (entriesAt s.tree (store.livePlace schema.name)) = .ok draft)
    (artifact : String) :
    SignatureCache.keyOf schema.name artifact ∈ (staleFiles schema draft.entries).map
        (fun file => SignatureCache.keyOf schema.name (artifactName file)) ↔
      (lastDefinition last artifact).isSome ∧ schema.get? artifact = none := by
  constructor
  · intro h
    obtain ⟨file, hfile, hkey⟩ := List.mem_map.mp h
    obtain ⟨other, rfl, hother⟩ := hs.stale hdraft hfile
    obtain ⟨d, hd⟩ := Option.isSome_iff_exists.mp hother
    have hsame : other = artifact := by
      rw [Artifact.artifactName_fileName (lastDefinition_named hlast hd).2] at hkey
      exact keyOf_inj hkey
    subst hsame
    exact ⟨hother, (get?_eq_none_iff hschema other).mpr (mem_staleFiles_iff.mp hfile).2.2⟩
  · rintro ⟨hsome, hnone⟩
    obtain ⟨d, hd⟩ := Option.isSome_iff_exists.mp hsome
    have hgraph := (lastDefinition_named hlast hd).2
    obtain ⟨text, hfile⟩ := hs.stored artifact d hd
    have hextension := Artifact.extension?_fileName hgraph
    have hother := (get?_eq_none_iff hschema artifact).mp hnone
    -- The file is there, since the draft keeps what it has no definition for.
    refine List.mem_map.mpr ⟨Artifact.fileName artifact, mem_staleFiles_iff.mpr ⟨?_, hextension, hother⟩,
      by rw [Artifact.artifactName_fileName hgraph]⟩
    rw [get?_draft_of_ne hdraft (Artifact.ne_of_extension hextension) hother, hfile]
    simp

/-- An artifact is kept where the schema before has its name and signature. -/
theorem InStep.isCurrent_iff (hs : store.InStep schema.name last s) :
    isCurrent schema.name s.cache (entriesAt s.tree (store.livePlace schema.name)) d = true ↔
      ∃ e, lastDefinition last d.name = some e ∧ e.signature = d.signature := by
  rw [isCurrent, Signature.isRemembered, Bool.and_eq_true, decide_eq_true_iff, hs.remembered,
    Option.map_eq_some_iff]
  constructor
  · rintro ⟨he, -⟩
    exact he
  · rintro ⟨e, he, hsignature⟩
    obtain ⟨text, hfile⟩ := hs.stored _ e he
    exact ⟨⟨e, he, hsignature⟩, by rw [hfile]; rfl⟩

theorem find?_written (hschema : schema.Named)
    (hdraft : store.draft schema s.cache (entriesAt s.tree (store.livePlace schema.name)) = .ok draft)
    {artifact : String} (hd : schema.get? artifact = some d) :
    (draft.outcomes.find? fun o => o.isWritten && o.name = artifact).map (·.definition.signature) =
      if isCurrent schema.name s.cache (entriesAt s.tree (store.livePlace schema.name)) d then none
      else some d.signature := by
  have hdefinition : ∀ o ∈ draft.outcomes, o.name = artifact → o.definition = d := by
    intro o ho hname
    have hget : schema.get? artifact = some o.definition := by
      rw [← hname]
      exact hschema.mem_values_iff.mp (definition_mem hdraft ho)
    exact Option.some.inj (hget.symm.trans hd)
  have hname := (hschema.named artifact d hd).1
  have hmem : d ∈ schema.definitions.values := by rw [hschema.mem_values_iff, hname, hd]
  split
  · next hcurrent =>
    rw [Option.map_eq_none_iff, List.find?_eq_none]
    intro o ho hmatch
    obtain ⟨hwritten, honame⟩ := Bool.and_eq_true_iff.mp hmatch
    rw [isWritten_eq hdraft ho, hdefinition o ho (of_decide_eq_true honame), hcurrent] at hwritten
    cases hwritten
  · next hstale =>
    obtain ⟨o, ho, rfl⟩ := exists_outcome hdraft hmem
    cases hfind : draft.outcomes.find? (fun o => o.isWritten && o.name = artifact) with
    | none =>
      have hwritten : o.isWritten = true := by
        rw [isWritten_eq hdraft ho]
        simpa using hstale
      exact absurd (Bool.and_eq_true_iff.mpr ⟨hwritten, decide_eq_true hname⟩)
        (List.find?_eq_none.mp hfind o ho)
    | some p =>
      have hmatch := List.find?_some hfind
      have hpname := of_decide_eq_true (Bool.and_eq_true_iff.mp hmatch).2
      rw [Option.map_some, hdefinition p (List.mem_of_find?_eq_some hfind) hpname]

private theorem find?_unknown (hschema : schema.Named)
    (hdraft : store.draft schema s.cache (entriesAt s.tree (store.livePlace schema.name)) = .ok draft)
    {artifact : String} (hnone : schema.get? artifact = none) :
    draft.outcomes.find? (fun o => o.isWritten && o.name = artifact) = none := by
  rw [List.find?_eq_none]
  intro o ho hmatch
  have hname := of_decide_eq_true (Bool.and_eq_true_iff.mp hmatch).2
  rw [← hname] at hnone
  exact Option.some_ne_none _ ((hschema.mem_values_iff.mp (definition_mem hdraft ho)).symm.trans hnone)

theorem InStep.remembered_next (hs : store.InStep schema.name last s)
    (hschema : schema.Named) (hlast : ∀ t ∈ last, t.Named)
    (heffect : Effect store schema s s' draft) (artifact : String) :
    s'.cache.get? (SignatureCache.keyOf schema.name artifact) =
      (schema.get? artifact).map Definition.signature := by
  rw [heffect.cache]
  by_cases hforgotten : (lastDefinition last artifact).isSome ∧ schema.get? artifact = none
  · rw [if_pos ((hs.forgotten_iff hschema hlast heffect.draft_ok artifact).mpr hforgotten),
      hforgotten.2]
    rfl
  · rw [if_neg (mt (hs.forgotten_iff hschema hlast heffect.draft_ok artifact).mp hforgotten),
      hs.remembered]
    cases hget : schema.get? artifact with
    | none =>
      have hlast : lastDefinition last artifact = none := by
        simpa [hget] using hforgotten
      rw [find?_unknown hschema heffect.draft_ok hget, hlast]
      rfl
    | some d =>
      rw [find?_written hschema heffect.draft_ok hget]
      split
      · next hcurrent =>
        obtain ⟨e, he, hsignature⟩ := (hs.isCurrent_iff).mp hcurrent
        rw [(hschema.named artifact d hget).1] at he
        rw [he, Option.none_or, Option.map_some, Option.map_some, hsignature]
      · rfl

/-- Storing one more schema. -/
theorem InStep.persist (hs : store.InStep schema.name last s) (hschema : schema.Named)
    (hlast : ∀ t ∈ last, t.Named) (heffect : Effect store schema s s' draft) :
    store.InStep schema.name (some schema) s' := by
  refine ⟨hs.remembered_next hschema hlast heffect, ?_, ?_, ?_, ?_⟩
  · intro h
    cases h
  · rintro _ ⟨⟩
    exact heffect.manifest
  · intro artifact d hd
    have hname := (hschema.named artifact d hd).1
    have hmem : d ∈ schema.definitions.values := by rw [hschema.mem_values_iff, hname]; exact hd
    obtain ⟨text, htext⟩ := exists_file_of_draft hschema heffect.draft_ok hmem
    refine ⟨text, ?_⟩
    rw [← hname, heffect.get?_fileName hmem, htext]
  · intro file hfile
    rcases file_cases schema file with hmanifest | hsentinel | ⟨d, hd, rfl⟩ | ⟨hkept, hcurrent⟩
    · exact .inl (.inl hmanifest)
    · exact .inl (.inr hsentinel)
    · refine .inr ⟨d.name, rfl, ?_⟩
      show (schema.get? d.name).isSome
      rw [hschema.mem_values_iff.mp hd]
      rfl
    · rw [heffect.get?_entries] at hfile
      split at hfile
      · exact absurd rfl hfile
      · next hfresh =>
        -- An artifact of the last schema would be stale.
        have hold := hfile
        rw [get?_draft_of_ne heffect.draft_ok hkept hcurrent] at hold
        rcases hs.listed file hold with hother | ⟨artifact, rfl, hsome⟩
        · exact absurd hother (by push Not; exact hkept)
        · obtain ⟨d, hd⟩ := Option.isSome_iff_exists.mp hsome
          have hextension := Artifact.extension?_fileName (lastDefinition_named hlast hd).2
          exact absurd (mem_staleFiles_iff.mpr ⟨hfile, hextension, hcurrent⟩) hfresh

end Step

end Store

end ClassSchema
