import ClassSchema.Proofs.Store.CleanBuild
import ClassSchema.Proofs.Store.Runs

/-!
# Mending a live folder

A schema that is stored once more gets back what was lost from its live folder, and nothing else changes.
The cache still remembers every signature, so what is there is kept, and only what is lost is rendered. If
nothing is lost, storing a schema once more renders nothing.
-/

namespace ClassSchema

namespace Store

open FileTree ClassSchema.Path

/-- A schema as it stands after it was stored. -/
structure Standing (store : Store) (schema : Schema) (s : StoreState) : Prop
    extends store.InStep schema.name (some schema) s where
  swappable : store.Swappable schema.name s.tree
  backup : ∀ p, store.backupPlace schema.name <+: p → ¬ store.livePlace schema.name <+: p →
    s.tree.at? p = none
  sentinel : ∀ f ∈ sentinels, (entriesAt s.tree (store.livePlace schema.name)).get? f.1 ≠ none

/-- Entries of the live folder may be gone, or all of it; everything else is as it was. -/
structure Damaged (store : Store) (name : String) (intact s : StoreState) : Prop where
  cache : s.cache = intact.cache
  apart : ∀ p, ¬ store.livePlace name <+: p → s.tree.contentAt p = intact.tree.contentAt p
  folder : s.tree.kindAt (store.livePlace name) ≠ some false
  entries : ∀ file, (entriesAt s.tree (store.livePlace name)).get? file =
      (entriesAt intact.tree (store.livePlace name)).get? file ∨
    (entriesAt s.tree (store.livePlace name)).get? file = none

/-- What is lost would be made as it was. -/
structure Mendable (store : Store) (schema : Schema) (intact s : StoreState) : Prop where
  artifact : ∀ d ∈ schema.definitions.values,
    (entriesAt s.tree (store.livePlace schema.name)).get? (Artifact.fileName d.name) = none →
      ∃ text, store.encoder d.kind.word (Artifact.scope schema d) = .ok text ∧
        (entriesAt intact.tree (store.livePlace schema.name)).get? (Artifact.fileName d.name) =
          some (.file text)
  sentinel : ∀ f ∈ sentinels,
    (entriesAt s.tree (store.livePlace schema.name)).get? f.1 = none →
      (entriesAt intact.tree (store.livePlace schema.name)).get? f.1 = some (.file f.2)

/-- Everything is as it was. -/
structure Mended (store : Store) (name : String) (intact s : StoreState) : Prop where
  cache : s.cache = intact.cache
  apart : ∀ p, ¬ store.livePlace name <+: p → s.tree.contentAt p = intact.tree.contentAt p
  folder : s.tree.kindAt (store.livePlace name) = some true
  entries : ∀ file, (entriesAt s.tree (store.livePlace name)).get? file =
    (entriesAt intact.tree (store.livePlace name)).get? file

variable {store : Store} {schema : Schema} {name : String} {s s' intact : StoreState} {draft : Draft}
  {d : Definition} {o : Outcome} {report : PersistReport}

theorem Standing.mended (h : store.Standing schema s) : store.Mended schema.name s s :=
  ⟨rfl, fun _ _ => rfl, h.kindAt_live, fun _ => rfl⟩

theorem Mended.damaged (h : store.Mended name intact s) : store.Damaged name intact s where
  cache := h.cache
  apart := h.apart
  folder := by simp [h.folder]
  entries := fun file => .inl (h.entries file)

theorem Mended.contentAt_eq (h : store.Mended name intact s)
    (hfolder : intact.tree.kindAt (store.livePlace name) = some true) (p : List String) :
    s.tree.contentAt p = intact.tree.contentAt p := by
  rcases cases_below (store.livePlace name) p with (hp | rfl) | ⟨file, below, rfl⟩
  · exact h.apart p hp
  · obtain ⟨es, hes⟩ := exists_folder h.folder
    obtain ⟨fs, hfs⟩ := exists_folder hfolder
    rw [contentAt_of_folder hes, contentAt_of_folder hfs]
  · have hentry := h.entries file
    rw [get?_entriesAt, get?_entriesAt] at hentry
    rw [contentAt, contentAt, List.append_cons, at?_append _ (store.livePlace name ++ [file]), hentry,
      ← at?_append]

theorem get?_entriesAt_remove {t : FileTree} {place : List String} (h : t.kindAt place = some true)
    (file other : String) : (entriesAt (t.remove (place ++ [file])) place).get? other =
      if other = file then none else (entriesAt t place).get? other := by
  obtain ⟨es, hes⟩ := exists_folder h
  rw [entriesAt_of_folder hes, entriesAt_of_folder (at?_remove_append hes file), Dict.get?_erase]

theorem Damaged.remove_entry (h : store.Damaged name intact s) (file : String) :
    store.Damaged name intact { s with tree := s.tree.remove (store.livePlace name ++ [file]) } where
  cache := h.cache
  apart := by
    intro p hp
    rw [contentAt_remove_of_not_below fun hbelow => hp ((List.prefix_append _ _).trans hbelow),
      h.apart p hp]
  folder := by
    rw [kindAt_remove_of_not_below fun hbelow => by simpa using hbelow.length_le]
    exact h.folder
  entries := by
    intro other
    cases hkind : s.tree.kindAt (store.livePlace name) with
    | none =>
      have hgone : (s.tree.remove (store.livePlace name ++ [file])).kindAt (store.livePlace name) =
          none := by
        rw [kindAt_remove_of_not_below fun hbelow => by simpa using hbelow.length_le, hkind]
      refine .inr ?_
      rw [get?_entriesAt, at?_append, kindAt_eq_none_iff.mp hgone, Option.bind_none]
    | some b =>
      cases b with
      | false => exact absurd hkind h.folder
      | true =>
        rw [get?_entriesAt_remove hkind]
        split
        · exact .inr rfl
        · exact h.entries other

theorem Damaged.remove_folder (h : store.Damaged name intact s) (hlocated : store.Located name intact.tree) :
    store.Damaged name intact { s with tree := s.tree.remove (store.livePlace name) } := by
  have hgone : (s.tree.remove (store.livePlace name)).at? (store.livePlace name) = none :=
    at?_remove_self hlocated.ne_nil
  refine ⟨h.cache, fun p hp => ?_, ?_, fun file => .inr ?_⟩
  · rw [contentAt_remove_of_not_below hp, h.apart p hp]
  · rw [kindAt, hgone]
    simp
  · rw [get?_entriesAt, at?_append, hgone, Option.bind_none]

theorem Damaged.swappable (h : store.Damaged name intact s) (hintact : store.Swappable name intact.tree) :
    store.Swappable name s.tree := by
  refine hintact.of_kindAt (fun p hp => ?_) h.folder ?_
  · rw [kindAt_eq_of_contentAt (h.apart p (hintact.apart p hp).1), hintact.folders p hp]
  · by_cases hover : store.livePlace name <+: store.backupPlace name
    · rw [← (prefix_iff_eq (hintact.apart _ (dropLast_backupPlace store name)).1).mp hover]
      exact h.folder
    · rw [kindAt_eq_of_contentAt (h.apart _ hover)]
      exact hintact.backup

/-! ### The steps, where there is little to do -/

theorem remember_of_remembered {outcomes : List Outcome}
    (h : ∀ o ∈ outcomes,
      s.cache.get? (SignatureCache.keyOf name o.name) = some o.definition.signature) :
    remember name outcomes s = .ok () s := by
  rw [remember]
  have hwritten : ∀ o ∈ outcomes.filter Outcome.isWritten, o ∈ outcomes :=
    fun o ho => (List.mem_filter.mp ho).1
  generalize outcomes.filter Outcome.isWritten = written at hwritten
  induction written with
  | nil => rfl
  | cons o written ih =>
    refine Storing.each_cons_ok_iff.mpr ⟨s, ?_, ih fun p hp => hwritten p (List.mem_cons_of_mem _ hp)⟩
    rw [SignatureCache.put, if_pos (h o (hwritten o List.mem_cons_self))]

/-! ### Storing a schema over its damaged folder -/

section Mend

variable (hintact : store.Standing schema intact) (hs : store.Damaged schema.name intact s)

include hintact hs

theorem Damaged.get?_fileName (hschema : schema.Named) (hd : d ∈ schema.definitions.values) :
    (∃ text, (entriesAt s.tree (store.livePlace schema.name)).get? (Artifact.fileName d.name) =
        some (.file text)) ∧
      isCurrent schema.name s.cache (entriesAt s.tree (store.livePlace schema.name)) d = true ∨
    (entriesAt s.tree (store.livePlace schema.name)).get? (Artifact.fileName d.name) = none ∧
      isCurrent schema.name s.cache (entriesAt s.tree (store.livePlace schema.name)) d = false := by
  have hget := hschema.mem_values_iff.mp hd
  obtain ⟨text, htext⟩ := hintact.stored d.name d hget
  have hremembered : s.cache.get? (SignatureCache.keyOf schema.name d.name) = some d.signature := by
    rw [hs.cache, hintact.remembered]
    exact congrArg (Option.map Definition.signature) hget
  rcases hs.entries (Artifact.fileName d.name) with hsame | hlost
  · rw [htext] at hsame
    refine .inl ⟨⟨text, hsame⟩, ?_⟩
    rw [isCurrent, hremembered, hsame]
    simp [Signature.isRemembered, isFile]
  · refine .inr ⟨hlost, ?_⟩
    rw [isCurrent, hlost]
    simp

theorem Damaged.exists_draft (hschema : schema.Named) (hmend : store.Mendable schema intact s) :
    ∃ draft, store.draft schema s.cache (entriesAt s.tree (store.livePlace schema.name)) =
      .ok draft := by
  refine Store.exists_draft ?_ fun d hd => ?_
  · rcases hs.entries Manifest.fileName with hsame | hnone
    · rw [hsame, hintact.manifest schema rfl]
      rfl
    · rw [hnone]
      rfl
  · rcases hs.get?_fileName hintact hschema hd with ⟨-, hcurrent⟩ | ⟨hnone, -⟩
    · exact .inl hcurrent
    · refine .inr ⟨(hmend.artifact d hd hnone).imp fun text h => h.1, ?_⟩
      rw [hnone]
      rfl

theorem Damaged.get?_draft (hschema : schema.Named)
    (hdraft : store.draft schema s.cache (entriesAt s.tree (store.livePlace schema.name)) = .ok draft)
    (hmend : store.Mendable schema intact s) (file : String) :
    draft.entries.get? file = (entriesAt intact.tree (store.livePlace schema.name)).get? file := by
  rcases file_cases schema file with rfl | ⟨f, hf, rfl⟩ | ⟨d, hd, rfl⟩ | ⟨hkept, hartifact⟩
  · rw [get?_draft_manifest hdraft, hintact.manifest schema rfl]
  · rw [get?_draft_sentinel hdraft hf]
    rcases hs.entries f.1 with hsame | hnone
    · obtain ⟨u, hu⟩ := Option.ne_none_iff_exists'.mp (hintact.sentinel f hf)
      rw [hsame, hu, Option.some_or]
    · rw [hmend.sentinel f hf hnone, hnone, Option.none_or]
  · rcases hs.get?_fileName hintact hschema hd with ⟨⟨text, hfile⟩, hcurrent⟩ | ⟨hnone, hstale⟩
    · rw [get?_draft_current hschema hdraft hd hcurrent]
      rcases hs.entries (Artifact.fileName d.name) with hsame | hnone
      · exact hsame
      · exact absurd (hnone.symm.trans hfile) (by simp)
    · obtain ⟨text, hrender, hfile⟩ := get?_draft_rendered hschema hdraft hd hstale
      obtain ⟨text', hrender', hfile'⟩ := hmend.artifact _ hd hnone
      rw [hfile, hfile', Except.ok.inj (hrender.symm.trans hrender')]
  · rw [get?_draft_of_ne hdraft hkept hartifact]
    rcases hs.entries file with hsame | hnone
    · exact hsame
    · rw [hnone]
      by_contra hthere
      rcases hintact.listed file (Ne.symm hthere) with (heq | ⟨f, hf, heq⟩) | ⟨artifact, rfl, hsome⟩
      · exact hkept.1 heq
      · exact hkept.2 f hf heq
      · obtain ⟨d, hd⟩ := Option.isSome_iff_exists.mp hsome
        have hname := (hschema.named artifact d hd).1
        refine hartifact d (hschema.mem_values_iff.mpr ?_) (congrArg _ hname)
        rw [hname]
        exact hd

/-- Storing the schema mends the folder: what was lost is written, and all else is unchanged. -/
theorem Damaged.persist (hschema : schema.Named) (hmend : store.Mendable schema intact s) :
    ∃ draft s', store.draft schema s.cache (entriesAt s.tree (store.livePlace schema.name)) =
        .ok draft ∧
      store.persist schema s = .ok
        { written := (draft.outcomes.filter Outcome.isWritten).map Outcome.name
          unchanged := (draft.outcomes.filter (!·.isWritten)).map Outcome.name
          deleted := []
          directory := store.schemaPath schema.name } s' ∧
      store.Mended schema.name intact s' := by
  obtain ⟨draft, hdraft⟩ := hs.exists_draft hintact hschema hmend
  have hentries := hs.get?_draft hintact hschema hdraft hmend
  have hswappable := hs.swappable hintact.swappable
  obtain ⟨u, hstage, hcache, hswapped⟩ := hswappable.exists_stage hschema hdraft
  have hremember : remember schema.name draft.outcomes u = .ok () u := by
    refine remember_of_remembered fun o ho => ?_
    rw [hcache, hs.cache, hintact.remembered]
    exact congrArg (Option.map Definition.signature)
      (hschema.mem_values_iff.mp (definition_mem hdraft ho))
  have hfresh : staleFiles schema draft.entries = [] := by
    rw [List.eq_nil_iff_forall_not_mem]
    intro file hfile
    obtain ⟨hget, hextension, hother⟩ := mem_staleFiles_iff.mp hfile
    rw [hentries] at hget
    obtain ⟨artifact, rfl, hsome⟩ := hintact.exists_of_extension hextension hget
    obtain ⟨d, hd⟩ := Option.isSome_iff_exists.mp hsome
    exact Option.some_ne_none d (hd.symm.trans ((get?_eq_none_iff hschema artifact).mpr hother))
  have hreconcile := reconcile_of_fresh hswapped.live hfresh
  refine ⟨draft, u, hdraft, (persist_ok_iff hschema).mpr ⟨⟨s, draft, u, u, [], hswappable.openRoot, hdraft,
    hstage, hcache, hswappable, hswapped, hremember, hreconcile⟩, rfl⟩, ⟨hcache.trans hs.cache,
    fun p hp => ?_, ?_, fun file => ?_⟩⟩
  · by_cases hback : store.backupPlace schema.name <+: p
    · rw [contentAt_eq_none_iff.mpr (hswapped.backup p hback hp), eq_comm, contentAt_eq_none_iff]
      exact hintact.backup p hback hp
    · rw [hswapped.apart p hp hback, hs.apart p hp]
  · rw [kindAt, hswapped.live]
    rfl
  · rw [entriesAt_of_folder hswapped.live, hentries]

end Mend

/-! ### After a schema was stored -/

variable {start : StoreState} {last : Option Schema}

theorem Kept.standing (h : store.Kept schema.name start last s) (hschema : schema.Named)
    (halone : store.Secluded schema.name start) (hpersist : store.persist schema s = .ok report s') :
    store.Standing schema s' := by
  obtain ⟨st, -⟩ := (persist_ok_iff hschema).mp hpersist
  have halone' := halone.of_path h.path
  refine ⟨(h.stored hschema halone.toApart hpersist).inStep, st.swappable_after hschema halone',
    fun p => st.at?_backup halone', fun f hf => ?_⟩
  rw [(st.effect hschema halone'.toApart).get?_sentinel hf]
  simp

/-- To store a schema once more renders nothing, and changes neither cache nor files. -/
theorem Reached.persist_again (hempty : store.Empty schema.name start)
    (halone : store.Secluded schema.name start) (h : store.Reached schema.name start last s)
    (hschema : schema.Named) (hpersist : store.persist schema s = .ok report s')
    (encoder : Encoder) :
    ∃ s'', ({ store with encoder } : Store).persist schema s' = .ok
        { written := []
          unchanged := schema.definitions.values.map Definition.name
          deleted := []
          directory := store.schemaPath schema.name } s'' ∧
      s''.cache = s'.cache ∧ ∀ place, s''.tree.contentAt place = s'.tree.contentAt place := by
  have hkept := (h.kept hempty halone.toApart).standing hschema halone hpersist
  have hstanding : ({ store with encoder } : Store).Standing schema s' :=
    { hkept with swappable := { hkept.swappable with } }
  have hmend : ({ store with encoder } : Store).Mendable schema s' s' := {
    artifact := fun d hd hnone => by
      obtain ⟨text, htext⟩ := hstanding.stored d.name d (hschema.mem_values_iff.mp hd)
      exact absurd (hnone.symm.trans htext) (by simp)
    sentinel := fun f hf hnone => absurd hnone (hstanding.sentinel f hf) }
  obtain ⟨draft, s'', hdraft, hagain, hmended⟩ :=
    hstanding.mended.damaged.persist hstanding hschema hmend
  have hcurrent : ∀ d ∈ schema.definitions.values, isCurrent schema.name s'.cache
      (entriesAt s'.tree (({ store with encoder } : Store).livePlace schema.name)) d = true := by
    intro d hd
    rcases hstanding.mended.damaged.get?_fileName hstanding hschema hd with ⟨-, hcurrent⟩ | ⟨hnone, -⟩
    · exact hcurrent
    · obtain ⟨text, htext⟩ := hstanding.stored _ _ (hschema.mem_values_iff.mp hd)
      cases hnone.symm.trans htext
  have hwritten : (draft.outcomes.filter Outcome.isWritten).map Outcome.name = [] := by
    rw [written_eq hdraft, List.filter_eq_nil_iff.mpr fun d hd => by simp [hcurrent d hd], List.map_nil]
  have hunchanged : (draft.outcomes.filter (!·.isWritten)).map Outcome.name =
      schema.definitions.values.map Definition.name := by
    rw [unchanged_eq hdraft, List.filter_eq_self.mpr hcurrent]
  refine ⟨s'', ?_, hmended.cache, hmended.contentAt_eq hstanding.kindAt_live⟩
  rw [hagain, hwritten, hunchanged]
  rfl

section Example

theorem named_filterSchema {status : Definition} (h : status.name = "Status") :
    (filterSchema status).Named := by
  have hone := (Schema.named_new "default").put (d := .input statusFilter) (by decide)
  rw [filterSchema, ← h]
  exact hone.put (by rw [h]; decide)

/-- After an artifact was written anew and another was kept, there is nothing more to do. -/
theorem persist_again_filterSchema : ∃ r₁ s₁ r₂ s₂ s₃,
    builtinStore.persist (filterSchema scalarStatus) blank = .ok r₁ s₁ ∧
    builtinStore.persist (filterSchema enumStatus) s₁ = .ok r₂ s₂ ∧
    r₂.written = ["Status"] ∧ r₂.unchanged = ["Filter"] ∧
    builtinStore.persist (filterSchema enumStatus) s₂ =
      .ok ⟨[], ["Filter", "Status"], [], "/out/default"⟩ s₃ ∧
    s₃.cache = s₂.cache ∧ ∀ place, s₃.tree.contentAt place = s₂.tree.contentAt place := by
  have hscalar : (filterSchema scalarStatus).Named := named_filterSchema rfl
  have henum : (filterSchema enumStatus).Named := named_filterSchema rfl
  obtain ⟨s, hrun⟩ := exists_persistEach_filterSchema
  obtain ⟨r₁, s₁, hfirst, hrest⟩ := persistEach_cons_ok_iff.mp hrun
  obtain ⟨r₂, s₂, hsecond, -⟩ := persistEach_cons_ok_iff.mp hrest
  have hempty : builtinStore.Empty "default" blank := empty_blank (by decide)
  have halone : builtinStore.Secluded "default" blank := secluded_blank (by decide) straight_builtinStore
  have hreached : builtinStore.Reached "default" blank (some (filterSchema scalarStatus)) s₁ :=
    .stored .start hscalar rfl hfirst
  have hkept : builtinStore.Kept (filterSchema enumStatus).name blank (some (filterSchema scalarStatus)) s₁ :=
    hreached.kept hempty halone.toApart
  -- The signature of the filter is remembered, that of the new `Status` is not.
  have hcurrent (d : Definition) := hkept.inStep.isCurrent_iff (d := d)
  have hfilter := (hcurrent (.input statusFilter)).mpr ⟨.input statusFilter, rfl, rfl⟩
  have hstatus := mt (hcurrent enumStatus).mp fun ⟨e, he, hsignature⟩ => by
    obtain rfl : scalarStatus = e := Option.some.inj he
    exact absurd hsignature (by decide +kernel)
  have hvalues : (filterSchema enumStatus).definitions.values = [.input statusFilter, enumStatus] := rfl
  obtain ⟨st, rfl⟩ := (persist_ok_iff henum).mp hsecond
  have hdraft := st.draft_live (halone.toApart.of_path hkept.path)
  obtain ⟨s₃, hagain, hcache, htree⟩ :=
    Reached.persist_again hempty halone hreached henum hsecond builtinStore.encoder
  refine ⟨r₁, s₁, _, s₂, s₃, hfirst, hsecond, (written_eq hdraft).trans ?_, (unchanged_eq hdraft).trans ?_,
    hagain, hcache, htree⟩
  · rw [hvalues, List.filter_cons_of_neg (by simp [hfilter]), List.filter_cons_of_pos (by simp [hstatus])]
    rfl
  · rw [hvalues, List.filter_cons_of_pos hfilter, List.filter_cons_of_neg hstatus]
    rfl

end Example

end Store

end ClassSchema
