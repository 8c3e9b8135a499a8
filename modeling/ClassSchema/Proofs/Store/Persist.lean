import ClassSchema.Proofs.Store.Swap

/-!
# What storing a schema does

The live folder of a schema becomes its draft without the stale files. The cache then remembers what was
written and has forgotten what was deleted.
-/

namespace ClassSchema

namespace Store

open FileTree ClassSchema.Path

variable {store : Store} {schema : Schema} {s s' : StoreState}

theorem openRoot_ok (h : store.openRoot s = .ok () s') :
    s'.cache = s.cache ∧ s.tree.makeAlong (pieces store.root) [] = .ok s'.tree := by
  rw [openRoot] at h
  split at h
  · cases h
  · next tree hmake =>
    obtain ⟨-, rfl⟩ := EStateM.Result.ok.inj h
    exact ⟨rfl, hmake⟩

theorem after_openRoot (store : Store) (s : StoreState) :
    Storing.after store.openRoot s = { s with tree := s.tree.grown (pieces store.root) [] } := by
  rw [Storing.after, openRoot, grown]
  cases s.tree.makeAlong (pieces store.root) [] <;> rfl

theorem Swappable.openRoot {name : String} (h : store.Swappable name s.tree) :
    store.openRoot s = .ok () s := by
  rw [Store.openRoot, makeAlong_eq_self fun p hp =>
    h.folders p (mem_ways_of_backup (mem_walk_above_of_root hp))]

/-! ### Staging -/

theorem Swappable.copyLive {name staging : String} {place : List String}
    (h : store.Swappable name s.tree) (hslot : Slot store name staging place s.tree) :
    store.copyLive name place (withStaging place s .empty) =
      .ok () (withStaging place s (entriesAt s.tree (store.livePlace name))) := by
  have hnotLive : ¬ store.livePlace name <+: place :=
    hslot.not_prefix (h.apart _ (dropLast_backupPlace store name)).1
      (Slot.ne_of_not_prefix hslot.not_prefix_live)
  have hsame : (withStaging place s .empty).tree.at? (store.livePlace name) =
      s.tree.at? (store.livePlace name) := at?_put_of_apart hslot.not_prefix_live hnotLive
  have hways : ∀ p ∈ walk (above (store.schemaPath name)) [],
      (withStaging place s .empty).tree.kindAt p = some true := by
    intro p hp
    have hp := mem_ways_of_live hp
    rw [withStaging, kindAt_put_of_not_below (hslot.not_prefix_ways hp), h.folders p hp]
  rw [Store.copyLive]
  by_cases hfolder : s.tree.kindAt (store.livePlace name) = some true
  · obtain ⟨es, hes⟩ := exists_folder hfolder
    have hlocate : (withStaging place s .empty).tree.locate? (store.schemaPath name) =
        some (store.livePlace name) := by
      refine locate?_of_folder h.named hways ?_
      rw [← livePlace, kindAt, hsame, ← kindAt, hfolder]
    rw [hlocate]
    dsimp only
    rw [hsame, hes]
    dsimp only
    rw [if_neg (by simpa [List.isPrefixOf_iff_prefix] using hnotLive), entriesAt_of_folder hes]
    simp only [withStaging, put_put]
  · have hnone : s.tree.at? (store.livePlace name) = none := by
      rw [← kindAt_eq_none_iff]
      cases hkind : s.tree.kindAt (store.livePlace name) with
      | none => rfl
      | some folder =>
        cases folder with
        | true => exact absurd hkind hfolder
        | false => exact absurd hkind h.live
    have hentries : entriesAt s.tree (store.livePlace name) = .empty := by
      rw [entriesAt, hnone]
      rfl
    rw [hentries]
    split
    · rfl
    · next live hlive =>
      have hthere := (isSome_of_locate? hlive).2
      rw [(isSome_of_locate? hlive).1, ← livePlace, hsame, hnone] at hthere
      cases hthere

/-- The folder of a schema is staged as drafted, and swapped in. -/
theorem stage_ok (hschema : schema.Named) {outcomes : List Outcome}
    (h : store.stage schema s = .ok outcomes s') : ∃ draft,
    store.draft schema s.cache (entriesAt s.tree (store.livePlace schema.name)) = .ok draft ∧
      outcomes = draft.outcomes ∧ s'.cache = s.cache ∧ store.Swappable schema.name s.tree ∧
        store.Swapped schema.name draft.entries s.tree s'.tree := by
  obtain ⟨⟨staging, place⟩, s₁, hmake, h⟩ := Storing.bind_ok_iff.mp h
  obtain ⟨⟨⟩, s₂, hcopy, h⟩ := Storing.bind_ok_iff.mp (orUndo_ok h)
  obtain ⟨os, s₃, hfill, h⟩ := Storing.bind_ok_iff.mp h
  obtain ⟨⟨⟩, s₄, hswap, h⟩ := Storing.bind_ok_iff.mp h
  obtain ⟨rfl, rfl⟩ := Storing.pure_ok_iff.mp h
  obtain ⟨hfault, -⟩ | ⟨staging', place', hmake', hslot⟩ := makeStaging_cases store schema.name s
  · rw [hfault] at hmake
    cases hmake
  · rw [hmake'] at hmake
    obtain ⟨hpair, rfl⟩ := EStateM.Result.ok.inj hmake
    obtain ⟨rfl, rfl⟩ := Prod.mk.inj hpair
    obtain ⟨hfault, -⟩ | ⟨es, hcopy', -⟩ := copyLive_cases hslot
    · rw [hfault] at hcopy
      cases hcopy
    · rw [hcopy'] at hcopy
      obtain ⟨-, rfl⟩ := EStateM.Result.ok.inj hcopy
      obtain ⟨es', hfilled⟩ := fill_withStaging store es hschema hslot.kindAt_dropLast
      rw [hfilled] at hfill
      cases hdraft : store.draft schema s.cache es with
      | error e =>
        rw [hdraft] at hfill
        cases hfill
      | ok draft =>
        rw [hdraft] at hfill
        obtain ⟨rfl, rfl⟩ := EStateM.Result.ok.inj hfill
        obtain ⟨hcache, hswappable, hswapped⟩ := swap_ok hslot hswap
        -- Only now it is known that the live folder could be reached, so that nothing was left out.
        have hentries : es = entriesAt s.tree (store.livePlace schema.name) := by
          rw [hswappable.copyLive hslot] at hcopy'
          obtain ⟨-, hstate⟩ := EStateM.Result.ok.inj hcopy'
          have hfolder : (withStaging place' s es).tree.at? place' = some (.folder es) :=
            at?_withStaging hslot.kindAt_dropLast
          rw [← hstate, at?_withStaging hslot.kindAt_dropLast] at hfolder
          exact (FileTree.folder.inj (Option.some.inj hfolder)).symm
        rw [hentries] at hdraft
        exact ⟨draft, hdraft, rfl, hcache, hswappable, hswapped⟩

theorem Slot.removeAll {name staging : String} {place : List String}
    (hslot : Slot store name staging place s.tree) (es : Dict FileTree) :
    (Storing.after (removeAll staging) (withStaging place s es)).cache = s.cache ∧
      ∀ p, (Storing.after (removeAll staging) (withStaging place s es)).tree.contentAt p =
        s.tree.contentAt p := by
  have hremove := removeFolder_of_walk (t := (withStaging place s es).tree) hslot.dots
    (fun p hp => by
      rw [hslot.above_eq] at hp
      have hplace := hslot.apart p (.inr (mem_walk_of_above hp))
      rw [← hslot.arrival_eq, withStaging, kindAt_put_of_not_below hplace]
      exact ⟨hslot.folders p hp, hplace⟩)
    (by
      rw [← hslot.arrival_eq, kindAt, at?_withStaging hslot.kindAt_dropLast]
      rfl)
  rw [← hslot.arrival_eq] at hremove
  rw [after_removeAll, hremove]
  refine ⟨rfl, fun p => ?_⟩
  by_cases hp : place <+: p
  · obtain ⟨below, rfl⟩ := hp
    have hne : place ≠ [] := fun hnil => hslot.not_prefix_live (hnil ▸ List.nil_prefix)
    rw [contentAt_eq_none_iff.mpr (by rw [at?_append, at?_remove_self hne, Option.bind_none]), eq_comm,
      contentAt_eq_none_iff, at?_append, hslot.fresh, Option.bind_none]
  · rw [contentAt_remove_of_not_below hp]
    exact contentAt_put_of_not_below hp

/-- Nothing changes where no draft can be made, neither from the live folder nor from nothing. -/
theorem stage_error (hschema : schema.Named)
    (hdraft : ∀ es, es = .empty ∨ es = entriesAt s.tree (store.livePlace schema.name) →
      ∃ e, store.draft schema s.cache es = .error e) :
    ∃ e s', store.stage schema s = .error e s' ∧ s'.cache = s.cache ∧
      ∀ p, s'.tree.contentAt p = s.tree.contentAt p := by
  obtain ⟨hfault, -⟩ | ⟨staging, place, hmake, hslot⟩ := makeStaging_cases store schema.name s
  · refine ⟨.io, s, ?_, rfl, fun _ => rfl⟩
    rw [stage, bind_apply, hfault]
  · rw [stage, bind_apply, hmake]
    dsimp only
    obtain ⟨hfault, -⟩ | ⟨es, hcopy, hes⟩ := copyLive_cases hslot
    · refine ⟨.io, _, orUndo_of_error ?_ _, hslot.removeAll .empty⟩
      rw [bind_apply, hfault]
    · obtain ⟨e, he⟩ := hdraft es hes
      obtain ⟨es', hfill⟩ := fill_withStaging store es hschema hslot.kindAt_dropLast
      rw [he] at hfill
      refine ⟨e, _, orUndo_of_error ?_ _, hslot.removeAll es'⟩
      rw [bind_apply, hcopy]
      dsimp only
      rw [bind_apply, hfill]

theorem Swappable.exists_stage (hschema : schema.Named) (h : store.Swappable schema.name s.tree)
    {draft : Draft}
    (hdraft : store.draft schema s.cache (entriesAt s.tree (store.livePlace schema.name)) = .ok draft) :
    ∃ s', store.stage schema s = .ok draft.outcomes s' ∧ s'.cache = s.cache ∧
      store.Swapped schema.name draft.entries s.tree s'.tree := by
  obtain ⟨-, hways⟩ | ⟨staging, place, hmake, hslot⟩ := makeStaging_cases store schema.name s
  · exact absurd (fun p hp => h.folders p (mem_ways_of_backup hp)) hways
  · obtain ⟨s', hswap⟩ := h.exists_swap hslot draft.entries
    obtain ⟨es', hfill⟩ := fill_withStaging store
      (entriesAt s.tree (store.livePlace schema.name)) hschema hslot.kindAt_dropLast
    rw [hdraft] at hfill
    have hstage : store.stage schema s = .ok draft.outcomes s' := by
      refine Storing.bind_ok_iff.mpr ⟨_, _, hmake, orUndo_of_ok ?_ _⟩
      refine Storing.bind_ok_iff.mpr ⟨(), _, h.copyLive hslot, Storing.bind_ok_iff.mpr ⟨_, _, hfill, ?_⟩⟩
      exact Storing.bind_ok_iff.mpr ⟨(), s', hswap, rfl⟩
    obtain ⟨draft', hdraft', -, hcache, -, hswapped⟩ := stage_ok hschema hstage
    obtain rfl := Except.ok.inj (hdraft.symm.trans hdraft')
    exact ⟨s', hstage, hcache, hswapped⟩

/-! ### Storing -/

theorem findLive_ok {name : String} {place : List String} (h : store.findLive name s = .ok place s') :
    place = store.livePlace name ∧ s' = s := by
  rw [findLive] at h
  split at h
  · cases h
  · next found hfound =>
    obtain ⟨rfl, rfl⟩ := EStateM.Result.ok.inj h
    exact ⟨(isSome_of_locate? hfound).1, rfl⟩

theorem findLive_of_folder {name : String} (hdots : endsInDots (store.schemaPath name) = false)
    (hways : ∀ p ∈ store.ways name, s.tree.kindAt p = some true)
    (hfolder : s.tree.kindAt (store.livePlace name) = some true) :
    store.findLive name s = .ok (store.livePlace name) s := by
  rw [findLive, locate?_of_folder hdots (fun p hp => hways p (mem_ways_of_live hp)) hfolder, ← livePlace]

theorem kindAt_remember {name : String} {outcomes : List Outcome} {place : List String}
    (h : remember name outcomes s = .ok () s') (hplace : s.tree.kindAt place = some true) :
    s'.tree.kindAt place = some true := by
  refine Storing.each_preserves (P := fun u => u.tree.kindAt place = some true) ?_ hplace h
  intro o _ u u' hu hput
  rw [← Storing.after_of_ok hput]
  exact SignatureCache.kindAt_after_put _ _ hu

/-- The states between the steps of storing a schema, each of which went well. -/
structure Stages (store : Store) (schema : Schema) (s s' : StoreState) where
  opened : StoreState
  draft : Draft
  swapped : StoreState
  remembered : StoreState
  deleted : List String
  openRoot_ok : store.openRoot s = .ok () opened
  draft_ok : store.draft schema opened.cache (entriesAt opened.tree (store.livePlace schema.name)) =
    .ok draft
  stage_ok : store.stage schema opened = .ok draft.outcomes swapped
  cache_ok : swapped.cache = opened.cache
  swappable : store.Swappable schema.name opened.tree
  swap_ok : store.Swapped schema.name draft.entries opened.tree swapped.tree
  remember_ok : remember schema.name draft.outcomes swapped = .ok () remembered
  reconcile_ok : reconcile schema (store.livePlace schema.name) remembered = .ok deleted s'

namespace Stages

def report (st : Stages store schema s s') : PersistReport where
  written := (st.draft.outcomes.filter Outcome.isWritten).map Outcome.name
  unchanged := (st.draft.outcomes.filter (!·.isWritten)).map Outcome.name
  deleted := st.deleted
  directory := store.schemaPath schema.name

end Stages

theorem persist_ok_iff (hschema : schema.Named) {report : PersistReport} :
    store.persist schema s = .ok report s' ↔
      ∃ st : Stages store schema s s', report = st.report := by
  constructor
  · intro h
    obtain ⟨⟨⟩, opened, hopen, h⟩ := Storing.bind_ok_iff.mp h
    obtain ⟨outcomes, swapped, hstage, h⟩ := Storing.bind_ok_iff.mp h
    obtain ⟨⟨⟩, remembered, hremember, h⟩ := Storing.bind_ok_iff.mp h
    obtain ⟨live, found, hfind, h⟩ := Storing.bind_ok_iff.mp h
    obtain ⟨deleted, _, hreconcile, h⟩ := Storing.bind_ok_iff.mp h
    obtain ⟨rfl, rfl⟩ := EStateM.Result.ok.inj h
    obtain ⟨rfl, hsame⟩ := findLive_ok hfind
    rw [hsame] at hreconcile
    obtain ⟨draft, hdraft, rfl, hcache, hswappable, hswapped⟩ := stage_ok hschema hstage
    exact ⟨⟨opened, draft, swapped, remembered, deleted, hopen, hdraft, hstage, hcache, hswappable,
      hswapped, hremember, hreconcile⟩, rfl⟩
  · rintro ⟨st, rfl⟩
    have hways : ∀ p ∈ store.ways schema.name, st.remembered.tree.kindAt p = some true := fun p hp =>
      kindAt_remember st.remember_ok ((st.swap_ok.swappable st.swappable).folders p hp)
    have hfolder : st.remembered.tree.kindAt (store.livePlace schema.name) = some true := by
      refine kindAt_remember st.remember_ok ?_
      rw [kindAt, st.swap_ok.live]
      rfl
    refine Storing.bind_ok_iff.mpr ⟨(), _, st.openRoot_ok, ?_⟩
    refine Storing.bind_ok_iff.mpr ⟨_, _, st.stage_ok, ?_⟩
    refine Storing.bind_ok_iff.mpr ⟨(), _, st.remember_ok, ?_⟩
    refine Storing.bind_ok_iff.mpr ⟨_, _, findLive_of_folder st.swappable.named hways hfolder, ?_⟩
    exact Storing.bind_ok_iff.mpr ⟨_, _, st.reconcile_ok, rfl⟩

variable {outcomes : List Outcome} {name : String} {place : List String}

private theorem remember_cons_ok_iff {o : Outcome} :
    remember name (o :: outcomes) s = .ok () s' ↔
      ∃ s₁, (if o.isWritten then
          SignatureCache.put (SignatureCache.keyOf name o.name) o.definition.signature
        else pure ()) s = .ok () s₁ ∧ remember name outcomes s₁ = .ok () s' := by
  rw [remember]
  cases hw : o.isWritten with
  | true =>
    rw [List.filter_cons_of_pos hw, if_pos rfl]
    exact Storing.each_cons_ok_iff
  | false =>
    rw [List.filter_cons_of_neg (by simp [hw]), if_neg (by simp)]
    constructor
    · intro h
      exact ⟨s, rfl, h⟩
    · rintro ⟨s₁, hs, h⟩
      obtain ⟨-, rfl⟩ := EStateM.Result.ok.inj hs
      exact h

theorem sameAt_after_remember (havoid : s.cache.Avoids place) (name : String)
    (outcomes : List Outcome) : s.SameAt place (Storing.after (remember name outcomes) s) := by
  have hkeeps : Storing.Keeps (s.SameAt place) (remember name outcomes) :=
    .each fun o _ u hu => hu.trans (SignatureCache.sameAt_after_put (hu.avoids havoid) _ _)
  exact hkeeps s (.refl place s)

theorem sameAt_remember (havoid : s.cache.Avoids place) (h : remember name outcomes s = .ok () s') :
    s.SameAt place s' := by
  rw [← Storing.after_of_ok h]
  exact sameAt_after_remember havoid name outcomes

theorem keyOf_inj {a b : String} (h : SignatureCache.keyOf name a = SignatureCache.keyOf name b) :
    a = b := by
  simpa [SignatureCache.keyOf] using h

theorem get?_remember (hnodup : (outcomes.map Outcome.name).Nodup)
    (h : remember name outcomes s = .ok () s') (artifact : String) :
    s'.cache.get? (SignatureCache.keyOf name artifact) =
      ((outcomes.find? fun o => o.isWritten && o.name = artifact).map (·.definition.signature)).or
        (s.cache.get? (SignatureCache.keyOf name artifact)) := by
  induction outcomes generalizing s with
  | nil =>
    obtain rfl := Storing.each_nil_ok_iff.mp h
    rfl
  | cons o outcomes ih =>
    obtain ⟨ho, hnodup⟩ := List.nodup_cons.mp hnodup
    obtain ⟨s₁, hfirst, hrest⟩ := remember_cons_ok_iff.mp h
    rw [ih hnodup hrest]
    cases hw : o.isWritten with
    | false =>
      rw [hw, if_neg (by simp)] at hfirst
      obtain ⟨-, rfl⟩ := EStateM.Result.ok.inj hfirst
      rw [List.find?_cons_of_neg (by simp [hw])]
    | true =>
      rw [hw, if_pos rfl] at hfirst
      rw [SignatureCache.get?_put hfirst]
      by_cases hname : o.name = artifact
      · have hnone : outcomes.find? (fun o => o.isWritten && o.name = artifact) = none := by
          rw [List.find?_eq_none]
          intro p hp hmatch
          have hpname : p.name = artifact := of_decide_eq_true (Bool.and_eq_true_iff.mp hmatch).2
          rw [hname, ← hpname] at ho
          exact ho (List.mem_map_of_mem hp)
        rw [hnone, List.find?_cons_of_pos (by simp [hw, hname]), hname, if_pos rfl]
        rfl
      · rw [List.find?_cons_of_neg (by simp [hname]), if_neg fun hkey => hname (keyOf_inj hkey).symm]

theorem path_deleteStale {file : String}
    (h : deleteStale name place file s = .ok () s') : s'.cache.path = s.cache.path := by
  rw [deleteStale] at h
  split at h
  · rw [← Storing.after_of_ok h, SignatureCache.path_after_delete]
  · cases h

theorem deleteStale_ok {file : String} {es : Dict FileTree} (havoid : s.cache.Avoids place)
    (hes : s.tree.at? place = some (.folder es))
    (h : deleteStale name place file s = .ok () s') :
    s'.cache.path = s.cache.path ∧ s'.tree.at? place = some (.folder (es.erase file)) ∧
      ∀ key, s'.cache.get? key =
        if key = SignatureCache.keyOf name (artifactName file) then none else s.cache.get? key := by
  rw [deleteStale] at h
  split at h
  · have haway (t : FileTree) : (StoreState.mk t s.cache).cache.Avoids place := havoid
    have hsame := SignatureCache.sameAt_delete (haway _) h
    have hcache := SignatureCache.get?_delete h
    refine ⟨hsame.path, ?_, hcache⟩
    rw [hsame.tree]
    exact FileTree.at?_remove_append hes file
  · cases h

private theorem each_deleteStale_ok {files : List String} {es : Dict FileTree}
    (havoid : s.cache.Avoids place) (hes : s.tree.at? place = some (.folder es))
    (h : Storing.each (deleteStale name place) files s = .ok () s') :
    s'.cache.path = s.cache.path ∧
      (∃ es', s'.tree.at? place = some (.folder es') ∧
        ∀ file, es'.get? file = if file ∈ files then none else es.get? file) ∧
      ∀ key, s'.cache.get? key =
        if key ∈ files.map (fun file => SignatureCache.keyOf name (artifactName file)) then none
        else s.cache.get? key := by
  induction files generalizing s es with
  | nil =>
    obtain rfl := Storing.each_nil_ok_iff.mp h
    exact ⟨rfl, ⟨es, hes, fun _ => by simp⟩, fun _ => by simp⟩
  | cons file files ih =>
    obtain ⟨s₁, hfirst, hrest⟩ := Storing.each_cons_ok_iff.mp h
    obtain ⟨hpath, htree, hcache⟩ := deleteStale_ok havoid hes hfirst
    obtain ⟨hpath', ⟨es', hes', hget⟩, hcache'⟩ := ih (havoid.of_path hpath) htree hrest
    refine ⟨hpath'.trans hpath, ⟨es', hes', fun g => ?_⟩, fun key => ?_⟩
    · rw [hget, Dict.get?_erase]
      by_cases hg : g = file
      · simp [hg]
      · simp [hg]
    · rw [hcache', hcache]
      by_cases hk : key = SignatureCache.keyOf name (artifactName file)
      · simp [hk]
      · simp [hk]

/-- The files of a folder that are stale under a schema. -/
def staleFiles (schema : Schema) (es : Dict FileTree) : List String :=
  es.keys.filter (isStale (schema.definitions.values.map fun d => Artifact.fileName d.name))

/-- The stale files are deleted one after the other, and the report has their names in order. -/
theorem reconcile_ok_iff {deleted : List String} : reconcile schema place s = .ok deleted s' ↔
    Storing.each (deleteStale schema.name place) (staleFiles schema (entriesAt s.tree place)) s =
        .ok () s' ∧
      deleted = ((staleFiles schema (entriesAt s.tree place)).map artifactName).mergeSort := by
  constructor
  · intro h
    rw [reconcile] at h
    obtain ⟨_, _, hget, h⟩ := Storing.bind_ok_iff.mp h
    obtain ⟨rfl, rfl⟩ := EStateM.Result.ok.inj hget
    obtain ⟨⟨⟩, s₁, hdelete, h⟩ := Storing.bind_ok_iff.mp h
    obtain ⟨rfl, rfl⟩ := EStateM.Result.ok.inj h
    exact ⟨hdelete, rfl⟩
  · rintro ⟨hdelete, rfl⟩
    exact Storing.bind_ok_iff.mpr ⟨s, s, rfl, Storing.bind_ok_iff.mpr ⟨(), s', hdelete, rfl⟩⟩

theorem reconcile_of_fresh {es : Dict FileTree} (hes : s.tree.at? place = some (.folder es))
    (h : staleFiles schema es = []) : reconcile schema place s = .ok [] s := by
  rw [reconcile_ok_iff, entriesAt_of_folder hes, h]
  exact ⟨rfl, List.mergeSort_nil.symm⟩

theorem reconcile_preserves {P : StoreState → Prop} {deleted : List String}
    (hstep : ∀ file s s', P s → deleteStale schema.name place file s = .ok () s' → P s') (hs : P s)
    (h : reconcile schema place s = .ok deleted s') : P s' :=
  Storing.each_preserves (fun file _ s₁ s₂ h₁ hfile => hstep file s₁ s₂ h₁ hfile) hs
    (reconcile_ok_iff.mp h).1

theorem reconcile_ok {deleted : List String} {es : Dict FileTree} (havoid : s.cache.Avoids place)
    (hes : s.tree.at? place = some (.folder es))
    (h : reconcile schema place s = .ok deleted s') :
    s'.cache.path = s.cache.path ∧
      (∃ es', s'.tree.at? place = some (.folder es') ∧
        ∀ file, es'.get? file = if file ∈ staleFiles schema es then none else es.get? file) ∧
      ∀ key, s'.cache.get? key =
        if key ∈ (staleFiles schema es).map
          (fun file => SignatureCache.keyOf schema.name (artifactName file)) then none
        else s.cache.get? key := by
  obtain ⟨hdelete, -⟩ := reconcile_ok_iff.mp h
  rw [entriesAt_of_folder hes] at hdelete
  exact each_deleteStale_ok havoid hes hdelete

end Store

end ClassSchema
