import ClassSchema.Proofs.Store.Ready
import ClassSchema.Proofs.Store.Rebuild
import Mathlib.Data.List.Nodup

/-!
# A row of schemas against the last one alone

The artifacts that a row of schemas leaves behind are those of the last schema alone, if every input type
is rendered in the last schema as it was where it was rendered. For all other kinds a definition tells
its artifact; an input type refers to other definitions by its defaults, and its signature does not
cover them.
-/

namespace ClassSchema

namespace Store

open FileTree SignatureCache ClassSchema.Path
open Schema (renderedIn CollisionFree)

variable {store : Store} {schema last : Schema} {name : String} {s s' s₀ s₁ : StoreState}
  {past : List Schema} {report : PersistReport} {d : Definition}

/-- The artifacts and the manifest of a schema are the same in two states. -/
def SameOutput (store : Store) (name : String) (s s' : StoreState) : Prop :=
  ∀ file, Path.extension? file = some Artifact.extension ∨ file = Manifest.fileName →
    (entriesAt s.tree (store.livePlace name)).get? file =
      (entriesAt s'.tree (store.livePlace name)).get? file

theorem Settled.persistEach {schemas : List Schema} (hs : store.Settled name past s)
    (hapart : store.Apart name s) (hpast : ∀ t ∈ past, t.WellFormed)
    (hschemas : ∀ t ∈ schemas, t.WellFormed ∧ t.name = name)
    (hfree : CollisionFree (schemas.reverse ++ past))
    (h : store.persistEach schemas s = .ok () s') :
    store.Settled name (schemas.reverse ++ past) s' ∧ s'.cache.path = s.cache.path := by
  induction schemas generalizing s past with
  | nil =>
    obtain rfl := Storing.each_nil_ok_iff.mp h
    exact ⟨hs, rfl⟩
  | cons schema schemas ih =>
    obtain ⟨report, s₁, hpersist, hrest⟩ := persistEach_cons_ok_iff.mp h
    obtain ⟨hschema, rfl⟩ := hschemas schema List.mem_cons_self
    obtain ⟨draft, heffect⟩ := persist_effect hschema.toNamed hapart hpersist
    rw [List.reverse_cons, List.append_assoc, List.singleton_append] at hfree ⊢
    have hs₁ := hs.persist hschema hpast (hfree.mono (List.subset_append_right _ _)) heffect
    have hpast₁ : ∀ t ∈ schema :: past, t.WellFormed := by
      intro t ht
      rcases List.mem_cons.mp ht with rfl | ht
      · exact hschema
      · exact hpast t ht
    obtain ⟨hs', hpath⟩ := ih hs₁ (hapart.of_path heffect.path) hpast₁
      (fun t ht => hschemas t (List.mem_cons_of_mem _ ht)) hfree hrest
    exact ⟨hs', hpath.trans heffect.path⟩

/-- The output is the same where every definition is rendered as in the last schema. -/
theorem sameOutput_iff (hs : store.Settled name (last :: past) s)
    (hs' : store.Settled name [last] s') (hlast : last.WellFormed)
    (hmanifest : (entriesAt s.tree (store.livePlace name)).get? Manifest.fileName =
      (entriesAt s'.tree (store.livePlace name)).get? Manifest.fileName) :
    store.SameOutput name s s' ↔ ∀ d ∈ last.definitions.values,
      store.encoder d.kind.word (Artifact.scope (renderedIn d last past) d) =
        store.encoder d.kind.word (Artifact.scope last d) := by
  constructor
  · intro h d hd
    obtain ⟨text, hrender, hfile⟩ := hs.rendered last past rfl d hd
    obtain ⟨text', hrender', hfile'⟩ := hs'.rendered last [] rfl d hd
    have hextension := Artifact.extension?_fileName
      (hlast.named d.name d (hlast.mem_values_iff.mp hd)).2
    rw [h _ (.inl hextension), hfile'] at hfile
    obtain rfl : text' = text := by simpa using hfile
    rw [hrender, ← hrender']
    rfl
  · rintro h file (hextension | rfl)
    · by_cases hcurrent : ∃ d ∈ last.definitions.values, file = Artifact.fileName d.name
      · obtain ⟨d, hd, rfl⟩ := hcurrent
        obtain ⟨text, hrender, hfile⟩ := hs.rendered last past rfl d hd
        obtain ⟨text', hrender', hfile'⟩ := hs'.rendered last [] rfl d hd
        rw [h d hd] at hrender
        obtain rfl : text = text' := Except.ok.inj (hrender.symm.trans hrender')
        rw [hfile, hfile']
      · have hnone (past : List Schema) (u : StoreState)
            (hu : store.Settled name (last :: past) u) :
            (entriesAt u.tree (store.livePlace name)).get? file = none := by
          by_contra hfile
          obtain ⟨artifact, rfl, hsome⟩ := hu.exists_of_extension hextension hfile
          obtain ⟨d, hd⟩ := Option.isSome_iff_exists.mp hsome
          have hname := (hlast.named artifact d hd).1
          refine hcurrent ⟨d, ?_, by rw [hname]⟩
          rw [hlast.mem_values_iff, hname]
          exact hd
        rw [hnone past s hs, hnone [] s' hs']
    · exact hmanifest

private theorem Spare.persistEach {t : FileTree} {schemas : List Schema}
    (h : Spare store name t s) (hroot : t.kindAt [] = some true)
    (hbackup : ∀ q, store.backupPlace name <+: q → ¬ store.livePlace name <+: q → t.at? q = none)
    (hapart : store.Apart name s) (hschemas : ∀ t ∈ schemas, t.WellFormed ∧ t.name = name)
    (hrun : store.persistEach schemas s = .ok () s') : Spare store name t s' := by
  induction schemas generalizing s with
  | nil =>
    obtain rfl := Storing.each_nil_ok_iff.mp hrun
    exact h
  | cons schema schemas ih =>
    obtain ⟨report, s₁, hpersist, hrest⟩ := persistEach_cons_ok_iff.mp hrun
    obtain ⟨hschema, rfl⟩ := hschemas schema List.mem_cons_self
    obtain ⟨draft, heffect⟩ := persist_effect hschema.toNamed hapart hpersist
    obtain ⟨st, -⟩ := (persist_ok_iff hschema.toNamed).mp hpersist
    exact ih (h.persist hroot hbackup hapart st) (hapart.of_path heffect.path)
      (fun t ht => hschemas t (List.mem_cons_of_mem _ ht)) hrest

private theorem exists_spare {first : Schema} {rest : List Schema} (hempty : store.Empty name s₀)
    (hapart : store.Apart name s₀) (hschemas : ∀ t ∈ first :: rest, t.WellFormed ∧ t.name = name)
    (hrun : store.persistEach (first :: rest) s₀ = .ok () s₁) :
    ∃ opened, store.openRoot s₀ = .ok () opened ∧ store.Swappable name opened.tree ∧
      ∀ staged t, store.Swapped name staged opened.tree t → Spare store name t s₁ := by
  obtain ⟨report, s, hpersist, hrest⟩ := persistEach_cons_ok_iff.mp hrun
  obtain ⟨hfirst, rfl⟩ := hschemas first List.mem_cons_self
  obtain ⟨st, -⟩ := (persist_ok_iff hfirst.toNamed).mp hpersist
  refine ⟨st.opened, st.openRoot_ok, st.swappable, fun staged t ht => ?_⟩
  have hroot : t.kindAt [] = some true :=
    (ht.swappable st.swappable).folders [] (mem_ways_of_live (mem_walk_self _ _))
  have hspare : Spare store first.name t st.swapped := by
    refine ⟨ht.fitsIn st.swap_ok, fun artifact hartifact => absurd ?_ hartifact⟩
    rw [st.cache_ok, (st.opened_ok hapart).1]
    exact hempty.cache artifact
  obtain ⟨draft, heffect⟩ := persist_effect hfirst.toNamed hapart hpersist
  exact (hspare.finish hapart st hroot).persistEach hroot ht.backup (hapart.of_path heffect.path)
    (fun t ht => hschemas t (List.mem_cons_of_mem _ ht)) hrest

/-- The last schema of a row can be stored alone, if all of its definitions can be rendered in it. -/
theorem exists_persist {first : Schema} {rest : List Schema} (hempty : store.Empty last.name s₀)
    (hapart : store.Apart last.name s₀)
    (hschemas : ∀ t ∈ first :: rest, t.WellFormed ∧ t.name = last.name) (hlast : last.WellFormed)
    (hrun : store.persistEach (first :: rest) s₀ = .ok () s₁)
    (hs₁ : store.Settled last.name (last :: past) s₁) (hpath : s₁.cache.path = s₀.cache.path)
    (hrender : ∀ d ∈ last.definitions.values,
      ∃ text, store.encoder d.kind.word (Artifact.scope last d) = .ok text) :
    ∃ report s', store.persist last s₀ = .ok report s' := by
  obtain ⟨draft, hdraft₀⟩ : ∃ draft, store.draft last s₀.cache
      (entriesAt s₀.tree (store.livePlace last.name)) = .ok draft := by
    rw [entriesAt, hempty.folder]
    exact exists_draft rfl fun d hd => .inr ⟨hrender d hd, rfl⟩
  obtain ⟨opened, hopened, hswappable, hspare⟩ := exists_spare hempty hapart hschemas hrun
  obtain ⟨hcache, hmake⟩ := openRoot_ok hopened
  have hdraft : store.draft last opened.cache
      (entriesAt opened.tree (store.livePlace last.name)) = .ok draft := by
    rwa [hcache, entriesAt, ← grown_of_ok hmake, at?_grown hapart.root]
  obtain ⟨u, hstage, hcache', hswapped⟩ := hswappable.exists_stage hlast.toNamed hdraft
  have hspare := hspare _ _ hswapped
  obtain ⟨remembered, hremember⟩ : ∃ r, remember last.name draft.outcomes u = .ok () r := by
    by_cases houtcomes : draft.outcomes = []
    · exact ⟨u, by rw [houtcomes]; rfl⟩
    · obtain ⟨o, ho⟩ := List.exists_mem_of_ne_nil _ houtcomes
      have hd := definition_mem hdraft ho
      have hremembered : s₁.cache.get? (keyOf last.name o.definition.name) ≠ none := by
        rw [hs₁.remembered, lastDefinition, List.head?_cons, Option.bind_some,
          hlast.mem_values_iff.mp hd]
        simp
      refine (exists_remember draft.outcomes fun path hp => ?_).imp fun _ h => h.1
      refine hspare.writable _ hremembered path ?_
      rw [hpath, ← hcache, ← hcache']
      exact hp
  have havoid : u.cache.Avoids (store.livePlace last.name) := by
    rw [hcache', hcache]
    exact hapart.cache
  have hsame := sameAt_remember havoid hremember
  have hstale : staleFiles last draft.entries = [] := by
    rw [List.eq_nil_iff_forall_not_mem]
    intro file hfile
    obtain ⟨artifact, -, hsome⟩ := hempty.settled.stale hdraft₀ hfile
    cases hsome
  have hreconcile := reconcile_of_fresh (hsame.tree.trans hswapped.live) hstale
  exact ⟨_, remembered, (persist_ok_iff hlast.toNamed).mpr ⟨⟨opened, draft, u, remembered, [], hopened,
    hdraft, hstage, hcache', hswappable, hswapped, hremember, hreconcile⟩, rfl⟩⟩

section Row

variable (history : List Schema) {s₂ : StoreState}
  (hschemas : ∀ t ∈ history ++ [last], t.WellFormed ∧ t.name = last.name)
  (hfree : CollisionFree (history ++ [last])) (hapart : store.Apart last.name s₀)
  (hempty : store.Empty last.name s₀) (hrun : store.persistEach (history ++ [last]) s₀ = .ok () s₁)

include hschemas hfree hapart hempty hrun

theorem settled_row : store.Settled last.name (last :: history.reverse) s₁ ∧
    s₁.cache.path = s₀.cache.path := by
  have hpast : ∀ t ∈ ([] : List Schema), t.WellFormed := by simp
  have hs := hempty.settled.persistEach hapart hpast hschemas
    (hfree.mono fun t ht => by simpa [or_comm] using ht) hrun
  simpa using hs

theorem sameOutput_row_iff (halone : store.persist last s₀ = .ok report s₂) :
    store.SameOutput last.name s₁ s₂ ↔ ∀ d ∈ last.definitions.values,
      store.encoder d.kind.word (Artifact.scope (renderedIn d last history.reverse) d) =
        store.encoder d.kind.word (Artifact.scope last d) := by
  have hlast : last.WellFormed := (hschemas last (by simp)).1
  obtain ⟨hs, -⟩ := settled_row history hschemas hfree hapart hempty hrun
  obtain ⟨draft, heffect⟩ := persist_effect hlast.toNamed hapart halone
  have hs₂ := hempty.settled.persist hlast (by simp) (hfree.mono (List.subset_append_right _ _)) heffect
  exact sameOutput_iff hs hs₂ hlast ((hs.manifest last rfl).trans (hs₂.manifest last rfl).symm)

end Row

/-- After any row of schemas the last one alone gives the same artifacts and the same manifest, exactly if
each of its input types is rendered in it as in the schema where the artifact was rendered. -/
theorem exists_sameOutput_iff (store : Store) (history : List Schema) (last : Schema)
    (s₀ s₁ : StoreState)
    (hschemas : ∀ t ∈ history ++ [last], t.WellFormed ∧ t.name = last.name)
    (hfree : CollisionFree (history ++ [last]))
    (hapart : store.Apart last.name s₀) (hempty : store.Empty last.name s₀)
    (hrun : store.persistEach (history ++ [last]) s₀ = .ok () s₁) :
    (∃ report s₂, store.persist last s₀ = .ok report s₂ ∧ store.SameOutput last.name s₁ s₂) ↔
      ∀ i, .input i ∈ last.definitions.values →
        store.encoder "input" (Artifact.scope (renderedIn (.input i) last history.reverse) (.input i)) =
          store.encoder "input" (Artifact.scope last (.input i)) := by
  have hlast : last.WellFormed := (hschemas last (by simp)).1
  obtain ⟨hs, hpath⟩ := settled_row history hschemas hfree hapart hempty hrun
  constructor
  · rintro ⟨report, s₂, halone, hout⟩ i hi
    exact (sameOutput_row_iff history hschemas hfree hapart hempty hrun halone).mp hout _ hi
  · intro h
    have hall : ∀ d ∈ last.definitions.values,
        store.encoder d.kind.word (Artifact.scope (renderedIn d last history.reverse) d) =
          store.encoder d.kind.word (Artifact.scope last d) := by
      intro d hd
      by_cases hinput : ∃ i, d = .input i
      · obtain ⟨i, rfl⟩ := hinput
        exact h i hd
      · rw [Definition.scope_eq_of_not_input fun i hi => hinput ⟨i, hi⟩]
    have hrender : ∀ d ∈ last.definitions.values,
        ∃ text, store.encoder d.kind.word (Artifact.scope last d) = .ok text := by
      intro d hd
      obtain ⟨text, hrender, -⟩ := hs.rendered last _ rfl d hd
      exact ⟨text, hall d hd ▸ hrender⟩
    obtain ⟨first, rest, hrow⟩ : ∃ first rest, history ++ [last] = first :: rest :=
      List.exists_cons_of_ne_nil (by simp)
    obtain ⟨report, s₂, halone⟩ := exists_persist hempty hapart (hrow ▸ hschemas) hlast (hrow ▸ hrun) hs
      hpath hrender
    exact ⟨report, s₂, halone,
      (sameOutput_row_iff history hschemas hfree hapart hempty hrun halone).mpr hall⟩

section Example

/-- An input type whose default is written bare where `Status` is an enum, and in quotes otherwise. -/
def statusFilter : InputType :=
  ⟨"Filter", none, .ofList [("status", ⟨"status", "Status", none, some (.string "ACTIVE")⟩)]⟩

def scalarStatus : Definition := .scalar ⟨"Status", none⟩

def enumStatus : Definition := .enum ⟨"Status", none, [⟨"ACTIVE", none⟩]⟩

/-- A schema with the filter and the `Status` that it refers to. -/
def filterSchema (status : Definition) : Schema :=
  ((Schema.new "default").put "Filter" (.input statusFilter)).put "Status" status

private theorem wellFormed_filterSchema {status : Definition} (hname : status.name = "Status")
    (hordered : status.Ordered) : (filterSchema status).WellFormed := by
  have hfilter : (Definition.input statusFilter).Ordered := by
    refine ⟨Dict.sorted_ofList _, fun f hf v hv => ?_⟩
    obtain rfl := List.mem_singleton.mp hf
    obtain rfl := Option.some.inj hv
    rfl
  have hone : ((Schema.new "default").put "Filter" (.input statusFilter)).WellFormed :=
    (Schema.wellFormed_new "default").put (d := .input statusFilter) (by decide) hfilter
  rw [filterSchema, ← hname]
  exact hone.put (by rw [hname]; decide) hordered

private theorem collisionFree_filterSchema :
    CollisionFree [filterSchema scalarStatus, filterSchema enumStatus] := by
  have hnodup : ([.input statusFilter, scalarStatus, enumStatus].map Definition.signature).Nodup := by
    decide +kernel
  have hall : ∀ s ∈ [filterSchema scalarStatus, filterSchema enumStatus],
      ∀ d ∈ s.definitions.values, d ∈ [.input statusFilter, scalarStatus, enumStatus] := by
    intro s hs d hd
    rcases List.mem_cons.mp hs with rfl | hs
    · have hd : d ∈ [.input statusFilter, scalarStatus] := hd
      exact List.mem_append_left [enumStatus] hd
    · obtain rfl := List.mem_singleton.mp hs
      have hd : d ∈ [.input statusFilter, enumStatus] := hd
      rcases List.mem_cons.mp hd with rfl | hd
      · exact List.mem_cons_self
      · exact List.mem_cons_of_mem _ (List.mem_cons_of_mem _ hd)
  intro s hs t ht d hd e he hsignature
  rw [List.inj_on_of_nodup_map hnodup (hall s hs d hd) (hall t ht e he) hsignature]

private theorem wellFormed_of_mem {t : Schema}
    (ht : t ∈ [filterSchema scalarStatus, filterSchema enumStatus]) : t.WellFormed ∧ t.name = "default" := by
  rcases List.mem_cons.mp ht with rfl | ht
  · exact ⟨wellFormed_filterSchema rfl trivial, rfl⟩
  · obtain rfl := List.mem_singleton.mp ht
    exact ⟨wellFormed_filterSchema rfl trivial, rfl⟩

theorem exists_persistEach_filterSchema : ∃ s₁,
    builtinStore.persistEach [filterSchema scalarStatus, filterSchema enumStatus] blank = .ok () s₁ :=
  exists_persistEach_blank (by decide) fun _ ht =>
    ⟨(wellFormed_of_mem ht).1.toNamed, (wellFormed_of_mem ht).2⟩

/-- The filter is the same in both schemas, but not its default. -/
private theorem encoder_filter_ne : builtinStore.encoder "input"
      (Artifact.scope (renderedIn (.input statusFilter) (filterSchema enumStatus)
        [filterSchema scalarStatus]) (.input statusFilter)) ≠
    builtinStore.encoder "input" (Artifact.scope (filterSchema enumStatus) (.input statusFilter)) := by
  have hcarries : (filterSchema scalarStatus).carries (.input statusFilter) = true :=
    Schema.carries_iff.mpr ⟨_, rfl, rfl⟩
  have hdiffer : Artifact.builtinText (filterSchema scalarStatus) (.input statusFilter) ≠
      Artifact.builtinText (filterSchema enumStatus) (.input statusFilter) := by decide +kernel
  rw [renderedIn, if_pos hcarries, renderedIn]
  have htext (status : Definition) := Artifact.encoder_builtin (filterSchema status) (.input statusFilter)
  intro hsame
  exact hdiffer (String.ofList_injective
    (Except.ok.inj ((htext scalarStatus).symm.trans (hsame.trans (htext enumStatus)))))

/-- A default that was rendered for a scalar is kept when the scalar has become an enum. -/
theorem not_exists_sameOutput_filterSchema : ∃ s₁,
    builtinStore.persistEach [filterSchema scalarStatus, filterSchema enumStatus] blank = .ok () s₁ ∧
    ¬ ∃ report s₂, builtinStore.persist (filterSchema enumStatus) blank = .ok report s₂ ∧
      builtinStore.SameOutput "default" s₁ s₂ := by
  obtain ⟨s₁, hrun⟩ := exists_persistEach_filterSchema
  have hsame := exists_sameOutput_iff builtinStore [filterSchema scalarStatus]
    (filterSchema enumStatus) blank s₁ (fun _ => wellFormed_of_mem) collisionFree_filterSchema
    (secluded_blank (by decide) straight_builtinStore).toApart (empty_blank (by decide)) hrun
  exact ⟨s₁, hrun, fun h => encoder_filter_ne (hsame.mp h statusFilter List.mem_cons_self)⟩

/-- The schema can be stored alone, but what it leaves then is not the same. -/
theorem not_sameOutput_filterSchema : ∃ s₁ report s₂,
    builtinStore.persistEach [filterSchema scalarStatus, filterSchema enumStatus] blank = .ok () s₁ ∧
    builtinStore.persist (filterSchema enumStatus) blank = .ok report s₂ ∧
    ¬ builtinStore.SameOutput "default" s₁ s₂ := by
  obtain ⟨s₁, hrun⟩ := exists_persistEach_filterSchema
  have hplain : isPlainName "default" = true := by decide
  have hwellFormed : (filterSchema enumStatus).WellFormed := wellFormed_filterSchema rfl trivial
  obtain ⟨report, s₂, halone⟩ := exists_persist_blank hwellFormed.toNamed hplain
  refine ⟨s₁, report, s₂, hrun, halone, fun hsame => encoder_filter_ne ?_⟩
  have hrow := sameOutput_row_iff [filterSchema scalarStatus] (fun _ => wellFormed_of_mem)
    collisionFree_filterSchema (secluded_blank hplain straight_builtinStore).toApart (empty_blank hplain)
    hrun halone
  exact hrow.mp hsame (.input statusFilter) List.mem_cons_self

end Example

end Store

end ClassSchema
