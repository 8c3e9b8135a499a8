import ClassSchema.Proofs.Store.Clear
import ClassSchema.Proofs.Store.History
import ClassSchema.Proofs.Store.Writable
import ClassSchema.Proofs.Template.Builtin

/-!
# When a schema can be stored

Where the folder of a schema can be exchanged and the cache can be written, a schema can be stored unless one
of its artifacts is out of date and cannot be rendered. The next one can be stored then, too, so that a row
of schemas can be stored if all of their definitions can be rendered.
-/

namespace ClassSchema

namespace Store

open FileTree SignatureCache ClassSchema.Path

/-- Once the root is made, the folder of a schema can be exchanged and the cache can be written, and no
name stands twice in the folder. -/
structure Ready (store : Store) (name : String) (s : StoreState) : Prop where
  opens : ∃ opened, store.openRoot s = .ok () opened ∧ store.Swappable name opened.tree ∧
    opened.CacheWritable
  sorted : (entriesAt s.tree (store.livePlace name)).Sorted

variable {store : Store} {schema : Schema} {name : String} {last : Option Schema} {s s' : StoreState}
  {draft : Draft} {place : List String} {es : Dict FileTree}

/-! ### The draft -/

theorem InStep.isFolder_eq_false (hs : store.InStep name last s) {artifact : String}
    (hgraph : isGraphName artifact = true) :
    ((entriesAt s.tree (store.livePlace name)).get? (Artifact.fileName artifact)).any isFolder = false := by
  by_cases hthere : (entriesAt s.tree (store.livePlace name)).get? (Artifact.fileName artifact) = none
  · rw [hthere]
    rfl
  · obtain ⟨other, hfile, hsome⟩ := hs.exists_of_extension (Artifact.extension?_fileName hgraph) hthere
    obtain ⟨d, hd⟩ := Option.isSome_iff_exists.mp hsome
    obtain ⟨text, htext⟩ := hs.stored other d hd
    rw [hfile, htext]
    rfl

theorem InStep.exists_draft_iff (hs : store.InStep schema.name last s) (hschema : schema.Named) :
    (∃ draft, store.draft schema s.cache (entriesAt s.tree (store.livePlace schema.name)) = .ok draft) ↔
      ∀ d ∈ schema.definitions.values,
        isCurrent schema.name s.cache (entriesAt s.tree (store.livePlace schema.name)) d = true ∨
          ∃ text, store.encoder d.kind.word (Artifact.scope schema d) = .ok text := by
  constructor
  · rintro ⟨draft, hdraft⟩ d hd
    obtain ⟨o, ho, rfl⟩ := exists_outcome hdraft hd
    rcases outcome_cases hdraft ho with ⟨hcurrent, -⟩ | ⟨-, text, hrender, -⟩
    · exact .inl hcurrent
    · exact .inr ⟨text, hrender⟩
  · intro h
    have hmanifest : ((entriesAt s.tree (store.livePlace schema.name)).get? Manifest.fileName).any
        isFolder = false := by
      cases last with
      | none =>
        rw [entriesAt, hs.absent rfl]
        rfl
      | some t =>
        rw [hs.manifest t rfl]
        rfl
    refine exists_draft hmanifest fun d hd => (h d hd).imp_right fun hrender => ⟨hrender, ?_⟩
    exact hs.isFolder_eq_false (hschema.named d.name d (hschema.mem_values_iff.mp hd)).2

/-! ### After the swap -/

theorem exists_remember (outcomes : List Outcome) (h : s.CacheWritable) :
    ∃ s', remember name outcomes s = .ok () s' ∧ s'.CacheWritable := by
  rw [remember]
  generalize outcomes.filter Outcome.isWritten = written
  induction written generalizing s with
  | nil => exact ⟨s, rfl, h⟩
  | cons o written ih =>
    obtain ⟨s₁, hput, h₁⟩ := exists_put h (keyOf name o.name) o.definition.signature
    obtain ⟨s', hrest, hs'⟩ := ih h₁
    exact ⟨s', Storing.each_cons_ok_iff.mpr ⟨s₁, hput, hrest⟩, hs'⟩

theorem exists_deleteStale {file text : String} (hes : s.tree.at? place = some (.folder es))
    (hfile : es.get? file = some (.file text)) (havoid : s.cache.Avoids place) (h : s.CacheWritable) :
    ∃ s', deleteStale name place file s = .ok () s' ∧ s'.CacheWritable := by
  have hfolder : s.tree.kindAt place = some true := by
    rw [kindAt, hes]
    rfl
  have hroot : s.tree.kindAt [] = some true := by
    by_contra hleaf
    by_cases hnil : place = []
    · exact hleaf (hnil ▸ hfolder)
    · have hnone : s.tree.kindAt ([] ++ place) = none := kindAt_below hnil hleaf
      rw [List.nil_append, hfolder] at hnone
      cases hnone
  have hremoved : (StoreState.mk (s.tree.remove (place ++ [file])) s.cache).CacheWritable := by
    intro path hpath
    refine (h path hpath).of_fitsIn (fun q hq _ => ?_) ?_ (havoid path hpath)
    · exact (kindAt_remove_of_not_below fun hp => hq ((List.prefix_append _ _).trans hp)).symm
    · rw [kindAt_remove_of_not_below (by simp), hroot]
  obtain ⟨s', hdelete, hs'⟩ := exists_delete hremoved (keyOf name (artifactName file))
  refine ⟨s', ?_, hs'⟩
  rw [deleteStale, entriesAt_of_folder hes, hfile]
  exact hdelete

theorem exists_each_deleteStale {files : List String} (hes : s.tree.at? place = some (.folder es))
    (hsorted : es.Sorted) (hfiles : ∀ file ∈ files, ∃ text, es.get? file = some (.file text))
    (hnodup : files.Nodup) (havoid : s.cache.Avoids place) (h : s.CacheWritable) :
    ∃ s', Storing.each (deleteStale name place) files s = .ok () s' ∧ s'.CacheWritable ∧
      (entriesAt s'.tree place).Sorted := by
  induction files generalizing s es with
  | nil => exact ⟨s, rfl, h, by rwa [entriesAt_of_folder hes]⟩
  | cons file files ih =>
    obtain ⟨hfresh, hnodup⟩ := List.nodup_cons.mp hnodup
    obtain ⟨text, hfile⟩ := hfiles file List.mem_cons_self
    obtain ⟨s₁, hdelete, h₁⟩ := @exists_deleteStale name s place es file text hes hfile havoid h
    obtain ⟨hpath, hes₁, -⟩ := deleteStale_ok havoid hes hdelete
    -- The other files are still there.
    have hrest : ∀ other ∈ files, ∃ text, (es.erase file).get? other = some (.file text) := by
      intro other hother
      have hne : other ≠ file := fun hsame => hfresh (hsame ▸ hother)
      rw [Dict.get?_erase, if_neg hne]
      exact hfiles other (List.mem_cons_of_mem _ hother)
    obtain ⟨s', hall, hs'⟩ := ih hes₁ (hsorted.erase file) hrest hnodup (havoid.of_path hpath) h₁
    exact ⟨s', Storing.each_cons_ok_iff.mpr ⟨s₁, hdelete, hall⟩, hs'⟩

/-! ### Storing -/

theorem Swapped.fitsIn_start {t t' : FileTree} (h : store.Swapped name es t t') :
    FitsIn (store.livePlace name) t' t := by
  intro q hq hthere
  by_cases hback : store.backupPlace name <+: q
  · exact absurd (kindAt_eq_none_iff.mpr (h.backup q hback hq)) hthere
  · exact (kindAt_eq_of_contentAt (h.apart q hq hback)).symm

theorem InStep.exists_stages (hs : store.InStep schema.name last s) (hschema : schema.Named)
    (hapart : store.Apart schema.name s) (hready : store.Ready schema.name s)
    (hdraft : store.draft schema s.cache (entriesAt s.tree (store.livePlace schema.name)) = .ok draft) :
    ∃ s', ∃ _ : Stages store schema s s', s'.CacheWritable ∧
      (entriesAt s'.tree (store.livePlace schema.name)).Sorted := by
  obtain ⟨⟨opened, hopened, hswappable, hwritable⟩, hsorted⟩ := hready
  obtain ⟨hcache, hmake⟩ := openRoot_ok hopened
  have hopenedDraft : store.draft schema opened.cache
      (entriesAt opened.tree (store.livePlace schema.name)) = .ok draft := by
    rwa [hcache, entriesAt, ← grown_of_ok hmake, at?_grown hapart.root]
  obtain ⟨u, hstage, hcache', hswapped⟩ := hswappable.exists_stage hschema hopenedDraft
  have havoid : u.cache.Avoids (store.livePlace schema.name) := by
    rw [hcache', hcache]
    exact hapart.cache
  have hu : u.CacheWritable := by
    intro path hpath
    refine (hwritable path ?_).of_fitsIn hswapped.fitsIn_start ?_ (havoid path hpath)
    · rw [← hcache']
      exact hpath
    · exact (hswapped.swappable hswappable).folders [] (mem_ways_of_live (mem_walk_self _ _))
  obtain ⟨r, hremember, hr⟩ := @exists_remember schema.name u draft.outcomes hu
  have hsame := sameAt_remember havoid hremember
  have hes : r.tree.at? (store.livePlace schema.name) = some (.folder draft.entries) :=
    hsame.tree.trans hswapped.live
  -- What is stale was stored with the last schema, so it is a file.
  have hfiles : ∀ file ∈ staleFiles schema draft.entries,
      ∃ text, draft.entries.get? file = some (.file text) := by
    intro file hfile
    obtain ⟨-, hextension, hother⟩ := mem_staleFiles_iff.mp hfile
    obtain ⟨artifact, hname, hsome⟩ := hs.stale hdraft hfile
    obtain ⟨d, hd⟩ := Option.isSome_iff_exists.mp hsome
    obtain ⟨text, htext⟩ := hs.stored artifact d hd
    exact ⟨text, by rw [get?_draft_of_ne hdraft (Artifact.ne_of_extension hextension) hother, hname, htext]⟩
  have hdrafted := sorted_draft hsorted hdraft
  have hnodup : (staleFiles schema draft.entries).Nodup := hdrafted.keys_nodup.filter _
  obtain ⟨s', hdelete, hs'⟩ := @exists_each_deleteStale schema.name r _ _ _ hes hdrafted hfiles hnodup
    (havoid.of_path hsame.path) hr
  have hreconcile : reconcile schema (store.livePlace schema.name) r = .ok _ s' :=
    reconcile_ok_iff.mpr ⟨by rwa [entriesAt_of_folder hes], rfl⟩
  exact ⟨s', ⟨opened, draft, u, r, _, hopened, hopenedDraft, hstage, hcache', hswappable, hswapped, hremember,
    hreconcile⟩, hs'⟩

/-- In a state that is ready for it a schema is stored exactly if all of its artifacts are up to date or can
be rendered. -/
theorem InStep.exists_persist_iff (hs : store.InStep schema.name last s) (hschema : schema.Named)
    (hapart : store.Apart schema.name s) (hready : store.Ready schema.name s) :
    (∃ report s', store.persist schema s = .ok report s') ↔ ∀ d ∈ schema.definitions.values,
      isCurrent schema.name s.cache (entriesAt s.tree (store.livePlace schema.name)) d = true ∨
        ∃ text, store.encoder d.kind.word (Artifact.scope schema d) = .ok text := by
  rw [← hs.exists_draft_iff hschema]
  constructor
  · rintro ⟨report, s', hpersist⟩
    obtain ⟨st, -⟩ := (persist_ok_iff hschema).mp hpersist
    exact ⟨st.draft, st.draft_live hapart⟩
  · rintro ⟨draft, hdraft⟩
    obtain ⟨s', st, -⟩ := hs.exists_stages hschema hapart hready hdraft
    exact ⟨st.report, s', (persist_ok_iff hschema).mpr ⟨st, rfl⟩⟩

/-- A row of schemas can be stored if all of their definitions can be rendered. -/
theorem InStep.exists_persistEach {schemas : List Schema} (hs : store.InStep name last s)
    (hlast : ∀ t ∈ last, t.Named) (halone : store.Secluded name s) (hready : store.Ready name s)
    (hschemas : ∀ t ∈ schemas, t.Named ∧ t.name = name ∧ ∀ d ∈ t.definitions.values,
      ∃ text, store.encoder d.kind.word (Artifact.scope t d) = .ok text) :
    ∃ s', store.persistEach schemas s = .ok () s' := by
  induction schemas generalizing s last with
  | nil => exact ⟨s, rfl⟩
  | cons schema schemas ih =>
    obtain ⟨hschema, rfl, hrender⟩ := hschemas schema List.mem_cons_self
    obtain ⟨draft, hdraft⟩ := (hs.exists_draft_iff hschema).mpr fun d hd => .inr (hrender d hd)
    obtain ⟨s₁, st, hwritable, hsorted⟩ := hs.exists_stages hschema halone.toApart hready hdraft
    have heffect := st.effect hschema halone.toApart
    have hswappable := st.swappable_after hschema halone
    obtain ⟨s', hrest⟩ := ih (hs.persist hschema hlast heffect) (fun t ht => Option.some.inj ht ▸ hschema)
      (halone.of_path heffect.path) ⟨⟨s₁, hswappable.openRoot, hswappable, hwritable⟩, hsorted⟩
      fun t ht => hschemas t (List.mem_cons_of_mem _ ht)
    exact ⟨s', persistEach_cons_ok_iff.mpr ⟨_, s₁, (persist_ok_iff hschema).mpr ⟨st, rfl⟩, hrest⟩⟩

/-! ### Where nothing is stored -/

/-- No files, and nothing remembered. -/
def blank : StoreState := ⟨.emptyFolder, .inMemory⟩

theorem kindAt_blank (p : List String) : blank.tree.kindAt p ≠ some false := by
  by_cases htop : p = []
  · subst htop
    decide
  · rw [kindAt, blank, isLeaf_emptyFolder p htop]
    simp

section Blank

variable (hplain : isPlainName name = true) (hroot : store.Straight)

include hplain

theorem empty_blank : store.Empty name blank where
  folder := by
    rw [livePlace_of_plain store hplain]
    exact isLeaf_emptyFolder _ (by simp)
  cache := fun _ => rfl

include hroot

theorem secluded_blank : store.Secluded name blank where
  root := fun p hp => by
    rw [livePlace_of_plain store hplain]
    exact hroot.not_prefix hp name
  cache := fun path hpath => by cases hpath
  spare := fun path hpath => by cases hpath

theorem ready_blank : store.Ready name blank := by
  have htop : blank.tree.kindAt [] = some true := rfl
  obtain ⟨t, hmake, hfiles⟩ := exists_makeAlong kindAt_blank htop (pieces store.root)
  have hopened : store.openRoot blank = .ok () ⟨t, .inMemory⟩ := by
    rw [openRoot, hmake]
    rfl
  refine ⟨⟨_, hopened, swappable_of_plain hplain (fun p hp => ⟨kindAt_of_mem_walk hmake hp, ?_, ?_⟩)
    (hfiles _) (hfiles _), fun path hpath => by cases hpath⟩, ?_⟩
  · rw [livePlace_of_plain store hplain]
    exact hroot.not_prefix hp name
  · rw [backupPlace_of_plain store hplain]
    exact hroot.not_prefix hp _
  · rw [entriesAt, (empty_blank hplain).folder]
    exact Dict.sorted_empty

end Blank

/-- A store with the built-in templates. -/
def builtinStore : Store := ⟨"/out", TemplateLibrary.builtin.encoder⟩

theorem straight_builtinStore : builtinStore.Straight := by
  unfold Straight
  decide +kernel

theorem exists_persist_blank (hschema : schema.Named) (hplain : isPlainName schema.name = true) :
    ∃ report s, builtinStore.persist schema blank = .ok report s :=
  ((empty_blank hplain).inStep.exists_persist_iff hschema
    (secluded_blank hplain straight_builtinStore).toApart (ready_blank hplain straight_builtinStore)).mpr
    fun d _ => .inr ⟨_, Artifact.encoder_builtin schema d⟩

/-- With the built-in templates any row of schemas can be stored where nothing is stored. -/
theorem exists_persistEach_blank {schemas : List Schema} (hplain : isPlainName name = true)
    (hschemas : ∀ t ∈ schemas, t.Named ∧ t.name = name) :
    ∃ s, builtinStore.persistEach schemas blank = .ok () s :=
  (empty_blank hplain).inStep.exists_persistEach (by simp) (secluded_blank hplain straight_builtinStore)
    (ready_blank hplain straight_builtinStore)
    fun t ht => ⟨(hschemas t ht).1, (hschemas t ht).2, fun d _ => ⟨_, Artifact.encoder_builtin t d⟩⟩

end Store

end ClassSchema
