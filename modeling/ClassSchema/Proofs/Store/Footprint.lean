import ClassSchema.Proofs.Store.Mending

/-!
# What storing a schema leaves behind

The live folder may hold anything before: files and folders of others, and artifacts of schemas that are
long gone. Storing a schema writes what the report says, deletes the files that look like artifacts of no
definition, and leaves all else as it is. The names of the deleted artifacts are read off the files, and
that goes wrong where the ending stands twice.
-/

namespace ClassSchema.Store

open FileTree

variable {store : Store} {schema : Schema} {name : String} {path : Option String} {removed : List String}
  {t t₁ t₂ : FileTree} {s s' : StoreState} {report : PersistReport}

/-! ### Outside the live folder -/

/-- Apart from the live folder and its backup, and from the cache file, two trees hold the same, but for
folders that are new on the way to the root or to the cache file. -/
def SameOutside (store : Store) (name : String) (path : Option String) (t t' : FileTree) : Prop :=
  ∀ place, ¬ store.livePlace name <+: place → ¬ store.backupPlace name <+: place →
    (∀ file ∈ path, place ≠ Path.arrival (Path.pieces file) []) →
      t'.contentAt place = t.contentAt place ∨
        (place ∈ Path.walk (Path.pieces store.root) [] ∨
          ∃ file ∈ path, place ∈ Path.walk (Path.pieces file) []) ∧
        t.contentAt place = none ∧ t'.contentAt place = some none

theorem SameOutside.refl (store : Store) (name : String) (path : Option String) (t : FileTree) :
    store.SameOutside name path t t := by
  intro place _ _ _
  exact .inl rfl

theorem SameOutside.trans (h₁ : store.SameOutside name path t t₁) (h₂ : store.SameOutside name path t₁ t₂) :
    store.SameOutside name path t t₂ := by
  intro place hlive hbackup hfile
  rcases h₁ place hlive hbackup hfile with hsame | ⟨hway, hnone, hnew⟩
  · rw [← hsame]
    exact h₂ place hlive hbackup hfile
  · rcases h₂ place hlive hbackup hfile with hsame | ⟨-, hnone', -⟩
    · exact .inr ⟨hway, hnone, hsame.trans hnew⟩
    · rw [hnew] at hnone'
      cases hnone'

theorem sameOutside_flush {c : SignatureCache} (h : c.flush t = .ok t₁) :
    store.SameOutside name c.path t t₁ := by
  intro place _ _ hfile
  rw [← SignatureCache.flushed_of_ok h]
  exact (SignatureCache.contentAt_flushed c t hfile).imp_right fun h => ⟨.inr h.1, h.2⟩

theorem sameOutside_replace {entries : Dict String} (h : SignatureCache.replace entries s = .ok () s') :
    store.SameOutside name s.cache.path s.tree s'.tree := by
  have hflush := (SignatureCache.replace_ok h).2
  exact sameOutside_flush (c := { s.cache with entries }) hflush

theorem sameOutside_put {key value : String} (h : SignatureCache.put key value s = .ok () s') :
    store.SameOutside name s.cache.path s.tree s'.tree := by
  rw [SignatureCache.put] at h
  split at h
  · obtain ⟨-, rfl⟩ := EStateM.Result.ok.inj h
    exact .refl store name _ _
  · exact sameOutside_replace h

theorem sameOutside_deleteStale {file : String}
    (h : deleteStale name (store.livePlace name) file s = .ok () s') :
    store.SameOutside name s.cache.path s.tree s'.tree := by
  rw [deleteStale] at h
  split at h
  · have hremove : store.SameOutside name s.cache.path s.tree
        (s.tree.remove (store.livePlace name ++ [file])) := by
      intro place hlive _ _
      left
      apply contentAt_remove_of_not_below
      intro hbelow
      exact hlive ((List.prefix_append _ _).trans hbelow)
    rw [SignatureCache.delete] at h
    split at h
    · exact hremove.trans (sameOutside_replace h)
    · obtain ⟨-, rfl⟩ := EStateM.Result.ok.inj h
      exact hremove
  · cases h

theorem Stages.sameOutside (st : Stages store schema s s') :
    store.SameOutside schema.name s.cache.path s.tree s'.tree := by
  obtain ⟨hcache, hmake⟩ := Store.openRoot_ok st.openRoot_ok
  have hopen : store.SameOutside schema.name s.cache.path s.tree st.opened.tree := by
    intro place _ _ _
    rcases contentAt_makeAlong hmake place with hsame | ⟨hway, hnew⟩
    · exact .inl hsame
    · exact .inr ⟨.inl hway, hnew⟩
  have hswap : store.SameOutside schema.name s.cache.path st.opened.tree st.swapped.tree := by
    intro place hlive hbackup _
    exact .inl (st.swap_ok.apart place hlive hbackup)
  have hpath : st.swapped.cache.path = s.cache.path := by rw [st.cache_ok, hcache]
  -- What is done to the cache afterwards keeps its path, and adds up.
  let Kept (u : StoreState) := u.cache.path = s.cache.path ∧
    store.SameOutside schema.name s.cache.path s.tree u.tree
  have hremembered : Kept st.remembered := by
    apply Storing.each_preserves (P := Kept) _ ⟨hpath, hopen.trans hswap⟩ st.remember_ok
    intro o _ u u' hu hput
    refine ⟨?_, ?_⟩
    · rw [← Storing.after_of_ok hput, SignatureCache.path_after_put, hu.1]
    · have hstep : store.SameOutside schema.name u.cache.path u.tree u'.tree := sameOutside_put hput
      rw [hu.1] at hstep
      exact hu.2.trans hstep
  have hreconciled : Kept s' := by
    apply reconcile_preserves (P := Kept) _ hremembered st.reconcile_ok
    intro file u u' hu hdelete
    have hstep := sameOutside_deleteStale hdelete
    rw [hu.1] at hstep
    exact ⟨(path_deleteStale hdelete).trans hu.1, hu.2.trans hstep⟩
  exact hreconciled.2

/-! ### What is deleted -/

private theorem files_of_each_deleteStale {place files : List String} {es : Dict FileTree}
    (havoid : s.cache.Avoids place) (hes : s.tree.at? place = some (.folder es))
    (h : Storing.each (deleteStale name place) files s = .ok () s') :
    files.Nodup ∧ ∀ file ∈ files, ∃ text, es.get? file = some (.file text) := by
  induction files generalizing s es with
  | nil => simp
  | cons first files ih =>
    obtain ⟨s₁, hfirst, hrest⟩ := Storing.each_cons_ok_iff.mp h
    obtain ⟨hpath, htree, -⟩ := deleteStale_ok havoid hes hfirst
    obtain ⟨hnodup, hfiles⟩ := ih (havoid.of_path hpath) htree hrest
    have hkept : ∀ file ∈ files, file ≠ first ∧ ∃ text, es.get? file = some (.file text) := by
      intro file hfile
      obtain ⟨text, htext⟩ := hfiles file hfile
      rw [Dict.get?_erase] at htext
      split at htext
      · cases htext
      · next hne => exact ⟨hne, text, htext⟩
    refine ⟨List.nodup_cons.mpr ⟨fun hmem => (hkept first hmem).1 rfl, hnodup⟩, ?_⟩
    intro file hfile
    rcases List.mem_cons.mp hfile with rfl | hfile
    · rw [deleteStale, entriesAt_of_folder hes] at hfirst
      split at hfirst
      · next text htext => exact ⟨text, htext⟩
      · cases hfirst
    · exact (hkept file hfile).2

theorem reconcile_deleted {place deleted : List String} {es : Dict FileTree}
    (havoid : s.cache.Avoids place) (hes : s.tree.at? place = some (.folder es))
    (h : reconcile schema place s = .ok deleted s') :
    deleted.Perm ((staleFiles schema es).map artifactName) ∧ (staleFiles schema es).Nodup ∧
      ∀ file ∈ staleFiles schema es, ∃ text, es.get? file = some (.file text) := by
  obtain ⟨hdelete, rfl⟩ := reconcile_ok_iff.mp h
  rw [entriesAt_of_folder hes] at hdelete ⊢
  exact ⟨List.mergeSort_perm _ _, files_of_each_deleteStale havoid hes hdelete⟩

/-! ### The whole effect -/

/-- What becomes of the entries of the live folder. -/
structure Rewritten (store : Store) (schema : Schema) (report : PersistReport) (removed : List String)
    (old new : Dict FileTree) : Prop where
  written : ∀ artifact ∈ report.written, ∃ d text, schema.get? artifact = some d ∧
    store.encoder d.kind.word (Artifact.scope schema d) = .ok text ∧
      new.get? (Artifact.fileName artifact) = some (.file text)
  manifest : new.get? Manifest.fileName = some (.file (manifest schema).text)
  sentinel : ∀ f ∈ sentinels, new.get? f.1 = (old.get? f.1).or (some (.file f.2))
  removed_iff : ∀ file, file ∈ removed ↔ old.get? file ≠ none ∧
    Path.extension? file = some Artifact.extension ∧
      ∀ d ∈ schema.definitions.values, Artifact.fileName d.name ≠ file
  removed_file : ∀ file ∈ removed, ∃ text, old.get? file = some (.file text)
  gone : ∀ file ∈ removed, new.get? file = none
  kept : ∀ file, file ∉ removed → file ≠ Manifest.fileName → (∀ f ∈ sentinels, file ≠ f.1) →
    (∀ artifact ∈ report.written, file ≠ Artifact.fileName artifact) → new.get? file = old.get? file

/-- What becomes of the signatures. -/
structure Resigned (schema : Schema) (removed : List String) (c c' : SignatureCache) : Prop where
  forgotten : ∀ file ∈ removed,
    c'.get? (SignatureCache.keyOf schema.name (artifactName file)) = none
  signed : ∀ d ∈ schema.definitions.values, (∀ file ∈ removed, artifactName file ≠ d.name) →
    c'.get? (SignatureCache.keyOf schema.name d.name) = some d.signature
  others : ∀ key, (∀ file ∈ removed, key ≠ SignatureCache.keyOf schema.name (artifactName file)) →
    (∀ d ∈ schema.definitions.values, key ≠ SignatureCache.keyOf schema.name d.name) →
      c'.get? key = c.get? key

/-- All that storing a schema does. -/
structure Footprint (store : Store) (schema : Schema) (report : PersistReport) (removed : List String)
    (s s' : StoreState) : Prop where
  folder : ∃ es, s'.tree.at? (store.livePlace schema.name) = some (.folder es) ∧
    store.Rewritten schema report removed (entriesAt s.tree (store.livePlace schema.name)) es
  cache : Resigned schema removed s.cache s'.cache
  outside : store.SameOutside schema.name s.cache.path s.tree s'.tree
  backup : store.livePlace schema.name ≠ store.backupPlace schema.name →
    s'.tree.at? (store.backupPlace schema.name) = none
  listed : (report.written ++ report.unchanged).Perm (schema.definitions.values.map Definition.name)
  once : (report.written ++ report.unchanged).Nodup
  removed_nodup : removed.Nodup
  deleted : report.deleted.Perm (removed.map artifactName)

/-- Deleted artifacts go by the stems of their files, and none is an artifact of the schema. -/
structure Exact (schema : Schema) (report : PersistReport) (removed : List String)
    (c : SignatureCache) : Prop where
  stems : report.deleted.Perm (removed.filterMap Path.stem?)
  spared : ∀ d ∈ schema.definitions.values, d.name ∉ report.deleted
  signed : ∀ d ∈ schema.definitions.values,
    c.get? (SignatureCache.keyOf schema.name d.name) = some d.signature

section Stages

variable (st : Stages store schema s s')

theorem Stages.mem_removed_iff (hapart : store.Apart schema.name s) (file : String) :
    file ∈ staleFiles schema st.draft.entries ↔
      (entriesAt s.tree (store.livePlace schema.name)).get? file ≠ none ∧
        Path.extension? file = some Artifact.extension ∧
          ∀ d ∈ schema.definitions.values, Artifact.fileName d.name ≠ file := by
  rw [mem_staleFiles_draft_iff (st.draft_live hapart), mem_staleFiles_iff]

theorem Stages.mem_written_iff (artifact : String) : artifact ∈ st.report.written ↔
    ∃ o ∈ st.draft.outcomes, o.isWritten = true ∧ o.name = artifact := by
  simp [Stages.report, List.mem_map, List.mem_filter, and_assoc]

theorem Stages.rewritten (hschema : schema.Named) (hapart : store.Apart schema.name s) :
    ∃ es, s'.tree.at? (store.livePlace schema.name) = some (.folder es) ∧
      store.Rewritten schema st.report (staleFiles schema st.draft.entries)
        (entriesAt s.tree (store.livePlace schema.name)) es := by
  have heffect := st.effect hschema hapart
  have hdraft := st.draft_live hapart
  obtain ⟨-, hpath, hdrafted⟩ := st.remembered_ok hapart
  obtain ⟨-, -, hfiles⟩ := reconcile_deleted (hapart.cache.of_path hpath) hdrafted st.reconcile_ok
  obtain ⟨es, hes, hget⟩ := heffect.folder
  have hentries := entriesAt_of_folder hes
  refine ⟨es, hes, ?_⟩
  constructor
  case written =>
    intro artifact hwritten
    obtain ⟨o, ho, hiswritten, rfl⟩ := (st.mem_written_iff artifact).mp hwritten
    have hmem := definition_mem hdraft ho
    rw [isWritten_eq hdraft ho, Bool.not_eq_true'] at hiswritten
    obtain ⟨text, hrender, hfile⟩ := heffect.get?_rendered hschema hmem hiswritten
    rw [hentries] at hfile
    exact ⟨o.definition, text, hschema.mem_values_iff.mp hmem, hrender, hfile⟩
  case manifest =>
    rw [← hentries]
    exact heffect.manifest
  case sentinel =>
    intro f hf
    rw [← hentries]
    exact heffect.get?_sentinel hf
  case removed_iff => exact st.mem_removed_iff hapart
  case removed_file =>
    intro file hfile
    obtain ⟨text, htext⟩ := hfiles file hfile
    obtain ⟨-, hextension, hother⟩ := mem_staleFiles_iff.mp hfile
    rw [get?_draft_of_ne hdraft (Artifact.ne_of_extension hextension) hother] at htext
    exact ⟨text, htext⟩
  case gone =>
    intro file hfile
    rw [hget, if_pos hfile]
  case kept =>
    intro file hfresh hmanifest hsentinel hunwritten
    rcases file_cases schema file with hsame | ⟨f, hf, hsame⟩ | ⟨d, hd, rfl⟩ | ⟨hother, hcurrent⟩
    · exact absurd hsame hmanifest
    · exact absurd hsame (hsentinel f hf)
    · -- The file of a definition that is not written is kept.
      obtain ⟨o, ho, rfl⟩ := exists_outcome hdraft hd
      have hcurrent : isCurrent schema.name s.cache
          (entriesAt s.tree (store.livePlace schema.name)) o.definition = true := by
        by_contra hstale
        have hwritten : o.isWritten = true := by
          rw [isWritten_eq hdraft ho]
          simpa using hstale
        exact absurd rfl (hunwritten o.name ((st.mem_written_iff _).mpr ⟨o, ho, hwritten, rfl⟩))
      rw [← hentries]
      exact heffect.get?_current hschema hd hcurrent
    · rw [hget, if_neg hfresh]
      exact get?_draft_of_ne hdraft hother hcurrent

theorem get?_remember_of_ne {outcomes : List Outcome} {key : String}
    (hne : ∀ o ∈ outcomes, key ≠ SignatureCache.keyOf name o.name)
    (h : remember name outcomes s = .ok () s') : s'.cache.get? key = s.cache.get? key := by
  apply Storing.each_preserves (P := fun u => u.cache.get? key = s.cache.get? key) _ rfl h
  intro o ho u u' hu hput
  rw [SignatureCache.get?_put hput, if_neg (hne o (List.mem_filter.mp ho).1), hu]

theorem Stages.resigned (hschema : schema.Named) (hapart : store.Apart schema.name s) :
    Resigned schema (staleFiles schema st.draft.entries) s.cache s'.cache := by
  have heffect := st.effect hschema hapart
  have hdraft := st.draft_live hapart
  obtain ⟨hswapped, hpath, hdrafted⟩ := st.remembered_ok hapart
  obtain ⟨-, -, hforgotten⟩ := Store.reconcile_ok (hapart.cache.of_path hpath) hdrafted st.reconcile_ok
  constructor
  case forgotten =>
    intro file hfile
    rw [hforgotten, if_pos (List.mem_map_of_mem hfile)]
  case signed =>
    intro d hd hspared
    have hget := hschema.mem_values_iff.mp hd
    have hkey : SignatureCache.keyOf schema.name d.name ∉ (staleFiles schema st.draft.entries).map
        (fun file => SignatureCache.keyOf schema.name (artifactName file)) := by
      intro hmem
      obtain ⟨file, hfile, hsame⟩ := List.mem_map.mp hmem
      exact hspared file hfile (keyOf_inj hsame)
    rw [heffect.cache, if_neg hkey, find?_written hschema hdraft hget]
    split
    · next hcurrent =>
      -- An artifact is kept only if its signature is remembered.
      rw [isCurrent, Signature.isRemembered, Bool.and_eq_true, decide_eq_true_iff] at hcurrent
      exact hcurrent.1
    · rfl
  case others =>
    intro key hgone hother
    have hkey : key ∉ (staleFiles schema st.draft.entries).map
        (fun file => SignatureCache.keyOf schema.name (artifactName file)) := by
      intro hmem
      obtain ⟨file, hfile, hsame⟩ := List.mem_map.mp hmem
      exact hgone file hfile hsame.symm
    have hne : ∀ o ∈ st.draft.outcomes, key ≠ SignatureCache.keyOf schema.name o.name := by
      intro o ho
      exact hother o.definition (definition_mem hdraft ho)
    rw [hforgotten, if_neg hkey, get?_remember_of_ne hne st.remember_ok, hswapped]

theorem Stages.listed (hapart : store.Apart schema.name s) :
    (st.report.written ++ st.report.unchanged).Perm (schema.definitions.values.map Definition.name) := by
  have hsplit : (st.draft.outcomes.filter Outcome.isWritten ++
      st.draft.outcomes.filter (!·.isWritten)).Perm st.draft.outcomes :=
    List.filter_append_perm _ _
  rw [← outcomes_definitions (st.draft_live hapart), List.map_map]
  have hnames := hsplit.map Outcome.name
  rwa [List.map_append] at hnames

theorem Stages.footprint (hschema : schema.Named) (halone : store.Secluded schema.name s) :
    Footprint store schema st.report (staleFiles schema st.draft.entries) s s' := by
  have hapart := halone.toApart
  obtain ⟨-, hpath, hdrafted⟩ := st.remembered_ok hapart
  obtain ⟨hdeleted, hnodup, -⟩ :=
    reconcile_deleted (hapart.cache.of_path hpath) hdrafted st.reconcile_ok
  have hlisted := st.listed hapart
  exact {
    folder := st.rewritten hschema hapart
    cache := st.resigned hschema hapart
    outside := st.sameOutside
    backup := fun hne => st.at?_backup halone List.prefix_rfl
      (mt (prefix_iff_eq (st.swappable.apart _ (dropLast_backupPlace store schema.name)).1).mp hne)
    listed := hlisted
    once := hlisted.nodup_iff.mpr hschema.names_nodup
    removed_nodup := hnodup
    deleted := hdeleted }

end Stages

/-! ### Endings that stand twice -/

/-- A file goes by its stem, unless the stem ends as if it were a file itself. -/
theorem artifactName_eq_stem_iff {file stem : String} (hfile : file = Artifact.fileName stem) :
    artifactName file = stem ↔ ∀ inner, file ≠ Artifact.fileName (Artifact.fileName inner) := by
  constructor
  · intro hname inner hdouble
    have hstem : stem = Artifact.fileName inner := Artifact.fileName_inj (hfile.symm.trans hdouble)
    have hsuffix := Artifact.not_suffix_artifactName file
    rw [hname, Artifact.suffix_iff_exists_fileName] at hsuffix
    exact hsuffix ⟨inner, hstem⟩
  · intro hsingle
    rw [hfile]
    apply Artifact.artifactName_of_not_suffix
    rw [Artifact.suffix_iff_exists_fileName]
    intro hinner
    obtain ⟨inner, rfl⟩ := hinner
    exact hsingle inner hfile

/-- Whatever the live folder held before, the report and the cache are exact just if no ending stands twice
among the files that are deleted. -/
theorem Footprint.exact_iff (h : Footprint store schema report removed s s')
    (hplain : ∀ file, (entriesAt s.tree (store.livePlace schema.name)).get? file ≠ none →
      Path.isPlainName file = true) :
    Exact schema report removed s'.cache ↔
      ∀ file ∈ removed, ∀ inner, file ≠ Artifact.fileName (Artifact.fileName inner) := by
  obtain ⟨es, -, hfolder⟩ := h.folder
  have hstem : ∀ file ∈ removed, ∃ stem, file = Artifact.fileName stem ∧ Path.stem? file = some stem := by
    intro file hfile
    obtain ⟨hold, hextension, -⟩ := (hfolder.removed_iff file).mp hfile
    exact Artifact.exists_stem (hplain file hold) hextension
  constructor
  · intro hexact file hfile
    obtain ⟨stem, hname, hstem⟩ := hstem file hfile
    -- The stem is among the deleted, which are all stripped of their endings.
    have hmem : stem ∈ report.deleted := by
      rw [hexact.stems.mem_iff, List.mem_filterMap]
      exact ⟨file, hfile, hstem⟩
    rw [h.deleted.mem_iff, List.mem_map] at hmem
    obtain ⟨other, -, hother⟩ := hmem
    rw [← artifactName_eq_stem_iff hname, hname]
    apply Artifact.artifactName_of_not_suffix
    rw [← hother]
    exact Artifact.not_suffix_artifactName other
  · intro hsingle
    have hname : ∀ file ∈ removed, Path.stem? file = some (artifactName file) := by
      intro file hfile
      obtain ⟨stem, hname, hstem⟩ := hstem file hfile
      rw [hstem, (artifactName_eq_stem_iff hname).mpr (hsingle file hfile)]
    have hspared : ∀ d ∈ schema.definitions.values, ∀ file ∈ removed, artifactName file ≠ d.name := by
      intro d hd file hfile hsame
      obtain ⟨stem, hname, -⟩ := hstem file hfile
      rw [(artifactName_eq_stem_iff hname).mpr (hsingle file hfile)] at hsame
      rw [hsame] at hname
      exact ((hfolder.removed_iff file).mp hfile).2.2 d hd hname.symm
    constructor
    case stems =>
      have hstems : removed.filterMap Path.stem? = removed.map artifactName := by
        rw [← List.filterMap_eq_map]
        apply List.filterMap_congr
        exact hname
      rw [hstems]
      exact h.deleted
    case spared =>
      intro d hd hmem
      rw [h.deleted.mem_iff, List.mem_map] at hmem
      obtain ⟨file, hfile, hsame⟩ := hmem
      exact hspared d hd file hfile hsame
    case signed =>
      intro d hd
      exact h.cache.signed d hd (hspared d hd)

/-- A schema that is stored leaves its footprint, whatever its folder held before, and report and cache are
exact just if no ending stands twice among the files that are deleted. -/
theorem persist_footprint (hschema : schema.Named) (halone : store.Secluded schema.name s)
    (hplain : ∀ file, (entriesAt s.tree (store.livePlace schema.name)).get? file ≠ none →
      Path.isPlainName file = true)
    (h : store.persist schema s = .ok report s') :
    ∃ removed, Footprint store schema report removed s s' ∧
      (Exact schema report removed s'.cache ↔
        ∀ file ∈ removed, ∀ inner, file ≠ Artifact.fileName (Artifact.fileName inner)) := by
  obtain ⟨st, rfl⟩ := (persist_ok_iff hschema).mp h
  have hfootprint := st.footprint hschema halone
  exact ⟨_, hfootprint, hfootprint.exact_iff hplain⟩

section Example

/-- A schema with one scalar. -/
def oneDate : Schema := (Schema.new "default").put "Date" (.scalar ⟨"Date", none⟩)

theorem named_oneDate : oneDate.Named :=
  (Schema.named_new "default").put (d := .scalar ⟨"Date", none⟩) (by decide)

/-- Nothing is remembered, and the live folder holds what others left there. -/
def littered (files : List (String × FileTree)) : StoreState where
  tree := .folder (.ofList [("out", .folder (.ofList [("default", .folder (.ofList files))]))])
  cache := .inMemory

/-- An artifact of no definition, next to a file and a folder of others. -/
def leftovers : List (String × FileTree) := [
  ("Old.graphql", .file "scalar Old\n"),
  ("README.md", .file "Generated.\n"),
  ("notes", .folder (.ofList [("todo", .file "")]))]

theorem secluded_littered (files : List (String × FileTree)) :
    builtinStore.Secluded "default" (littered files) :=
  (secluded_blank (by decide) straight_builtinStore).of_path rfl

theorem persist_footprint_leftovers : ∃ report s' removed,
    builtinStore.persist oneDate (littered leftovers) = .ok report s' ∧ report.written = ["Date"] ∧
    report.deleted = ["Old"] ∧ Footprint builtinStore oneDate report removed (littered leftovers) s' ∧
    Exact oneDate report removed s'.cache := by
  have hpasses : Storing.passes (fun report _ => report.written = ["Date"] ∧ report.deleted = ["Old"])
      (builtinStore.persist oneDate) (littered leftovers) = true := by decide +kernel
  have hkeys : ∀ file ∈ (entriesAt (littered leftovers).tree (builtinStore.livePlace "default")).keys,
      Path.isPlainName file = true ∧ ¬ ".graphql.graphql".toList <:+ file.toList := by decide +kernel
  obtain ⟨report, s', hpersist, hreport⟩ := Storing.exists_of_passes hpasses
  obtain ⟨hwritten, hdeleted⟩ := of_decide_eq_true hreport
  have hplain : ∀ file, (entriesAt (littered leftovers).tree (builtinStore.livePlace "default")).get? file ≠
      none → Path.isPlainName file = true :=
    fun file hfile => (hkeys file ((Dict.mem_keys_iff _ _).mpr hfile)).1
  obtain ⟨removed, hfootprint, hexact⟩ :=
    persist_footprint named_oneDate (secluded_littered leftovers) hplain hpersist
  refine ⟨report, s', removed, hpersist, hwritten, hdeleted, hfootprint, hexact.mpr ?_⟩
  intro file hfile inner hdouble
  obtain ⟨es, -, hfolder⟩ := hfootprint.folder
  have hold := ((hfolder.removed_iff file).mp hfile).1
  have hsuffix : ".graphql.graphql".toList <:+ file.toList := by
    rw [hdouble, Artifact.toList_fileName, Artifact.toList_fileName, List.append_assoc]
    exact ⟨inner.toList, rfl⟩
  exact (hkeys file ((Dict.mem_keys_iff _ _).mpr hold)).2 hsuffix

/-- A file whose ending stands twice goes by the name of the artifact that was just written, whose signature
is forgotten with it. -/
theorem not_exact_littered : ∃ report s',
    builtinStore.persist oneDate (littered [("Date.graphql.graphql", .file "")]) = .ok report s' ∧
    report.written = ["Date"] ∧ report.deleted = ["Date"] ∧ s'.cache.get? "default:Date" = none ∧
    ∀ removed, ¬ Exact oneDate report removed s'.cache := by
  have hpasses : Storing.passes (fun report s' => report.written = ["Date"] ∧ report.deleted = ["Date"] ∧
      s'.cache.get? "default:Date" = none) (builtinStore.persist oneDate)
      (littered [("Date.graphql.graphql", .file "")]) = true := by decide +kernel
  obtain ⟨report, s', hpersist, hreport⟩ := Storing.exists_of_passes hpasses
  obtain ⟨hwritten, hdeleted, hforgotten⟩ := of_decide_eq_true hreport
  refine ⟨report, s', hpersist, hwritten, hdeleted, hforgotten, ?_⟩
  intro removed hexact
  have hmem : Definition.scalar ⟨"Date", none⟩ ∈ oneDate.definitions.values := by
    rw [named_oneDate.mem_values_iff]
    rfl
  apply hexact.spared _ hmem
  rw [hdeleted]
  exact List.mem_singleton_self _

end Example

end ClassSchema.Store
