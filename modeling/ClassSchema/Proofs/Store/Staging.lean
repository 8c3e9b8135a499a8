import ClassSchema.Proofs.Store.Cache
import ClassSchema.Proofs.Store.Draft
import ClassSchema.Proofs.Store.Places
import Mathlib.Algebra.Order.BigOperators.Group.List
import Mathlib.Algebra.Order.Group.Nat

/-!
# Staging folders

While a schema is staged, the tree differs from the one before by the staging folder alone. No path of the
store leads into that folder, since its name is longer than all of theirs. Filling it file by file makes the
draft of it, if no two definitions have one name.
-/

namespace ClassSchema.Store

open FileTree ClassSchema.Path

variable {store : Store} {schema : Schema} {s s' : StoreState} {name staging : String}
  {place : List String} {es : Dict FileTree}

theorem entriesAt_of_folder {t : FileTree} {place : List String} {es : Dict FileTree}
    (h : t.at? place = some (.folder es)) : entriesAt t place = es := by
  rw [entriesAt, h]
  rfl

theorem get?_entriesAt (t : FileTree) (place : List String) (name : String) :
    (entriesAt t place).get? name = t.at? (place ++ [name]) := by
  rw [at?_append, entriesAt]
  cases t.at? place with
  | none => rfl
  | some u =>
    cases u with
    | file text => rfl
    | folder es => exact (at?_singleton es name).symm

/-! ### The place -/

/-- A place for a staging folder next to the other hidden folders of a schema. Nothing is there, and no path
of the schema leads through it. -/
structure Slot (store : Store) (name staging : String) (place : List String) (t : FileTree) : Prop where
  arrival_eq : place = arrival (pieces staging) []
  dots : endsInDots staging = false
  above_eq : above staging = above (store.backupPath name)
  folders : ∀ p ∈ walk (above (store.backupPath name)) [], t.kindAt p = some true
  fresh : t.at? place = none
  apart : ∀ p, p ∈ walk (pieces (store.schemaPath name)) [] ∨
    p ∈ walk (pieces (store.backupPath name)) [] → ¬ place <+: p

theorem length_stagingEnding (store : Store) (name : String) (entries : Dict FileTree) :
    (store.stagingEnding name entries).length = "-staging-".length + ((store.schemaPath name).length +
      (store.backupPath name).length + (entries.keys.map String.length).sum) := by
  have hpadding (n : Nat) : (String.ofList (List.replicate n 'x')).length = n := by simp
  have hsum : (entries.keys.map String.length).sum = (entries.keys.map String.length).foldr Nat.add 0 :=
    rfl
  rw [hsum]
  exact (String.length_append _ _).trans (congrArg _ (hpadding _))

theorem length_lt_stagingEnding (store : Store) (name : String) (entries : Dict FileTree) :
    (store.schemaPath name).length < (store.stagingEnding name entries).length ∧
      (store.backupPath name).length < (store.stagingEnding name entries).length ∧
        ∀ entry, entries.get? entry ≠ none → entry.length < (store.stagingEnding name entries).length := by
  have hlength := length_stagingEnding store name entries
  have hstaging : "-staging-".length = 9 := by decide
  refine ⟨by omega, by omega, fun entry hentry => ?_⟩
  have hmem := List.mem_map_of_mem (f := String.length) ((entries.mem_keys_iff _).mpr hentry)
  have hle := List.le_sum_of_mem hmem
  omega

theorem slot_of_walk {t : FileTree} {last : String} {ending : String}
    (hpieces : pieces (store.hiddenPath name ending) = above (store.backupPath name) ++ [last ++ ending])
    (hproper : Proper (last ++ ending))
    (hending : ending = store.stagingEnding name (entriesAt t (arrival (above (store.backupPath name)) [])))
    (hwalk : ∀ p ∈ walk (above (store.backupPath name)) [], t.kindAt p = some true) :
    Slot store name (store.hiddenPath name ending)
      (arrival (above (store.backupPath name)) [] ++ [last ++ ending]) t := by
  have hunslashed := unslashed_of_pieces hpieces hproper.1
  obtain ⟨hschema, hbackup, hentry⟩ := length_lt_stagingEnding store name
    (entriesAt t (arrival (above (store.backupPath name)) []))
  rw [← hending] at hschema hbackup hentry
  have hlong : ending.length ≤ (last ++ ending).length := by
    rw [String.length_append]
    omega
  have hnew (path : String) (hpath : path.length < ending.length) (p : List String)
      (hp : p ∈ walk (pieces path) []) :
      ¬ arrival (above (store.backupPath name)) [] ++ [last ++ ending] <+: p := by
    intro hprefix
    have hmem : last ++ ending ∈ p := hprefix.subset (by simp)
    rcases mem_of_mem_walk hp hmem with hnil | hpiece
    · cases hnil
    · have hle := length_le_of_mem_pieces hpiece
      omega
  refine ⟨?_, endsInDots_of_unslashed hunslashed hproper, ?_, hwalk, ?_, ?_⟩
  · rw [hpieces, arrival_append]
    exact (step_of_proper hproper _).symm
  · rw [above, hunslashed, List.dropLast_concat]
  · by_contra hthere
    rw [← get?_entriesAt] at hthere
    have hlt := hentry _ hthere
    omega
  · rintro p (hp | hp)
    · exact hnew _ hschema p hp
    · exact hnew _ hbackup p hp

/-- The state with a staging folder. -/
def withStaging (place : List String) (s : StoreState) (es : Dict FileTree) : StoreState :=
  { s with tree := s.tree.put place (.folder es) }

theorem makeStaging_cases (store : Store) (name : String) (s : StoreState) :
    store.makeStaging name s = .error .io s ∧
        (¬ ∀ p ∈ walk (above (store.backupPath name)) [], s.tree.kindAt p = some true) ∨
      ∃ staging place, store.makeStaging name s = .ok (staging, place) (withStaging place s .empty) ∧
        Slot store name staging place s.tree := by
  obtain ⟨last, hlast⟩ := exists_hidden store name
  obtain ⟨hbeside, hproper⟩ := hlast "-staging-" (by decide) (by decide)
  obtain ⟨ending, hending, hpath⟩ : ∃ ending, store.stagingEnding name (entriesAt s.tree
      (((s.tree.slot? (store.hiddenPath name "-staging-")).map List.dropLast).getD [])) = ending ∧
        store.stagingPath s.tree name = store.hiddenPath name ending :=
    ⟨_, rfl, by rw [stagingPath]⟩
  have hlong : 2 < ending.length := by
    have hlength := length_stagingEnding store name (entriesAt s.tree
      (((s.tree.slot? (store.hiddenPath name "-staging-")).map List.dropLast).getD []))
    have hstaging : "-staging-".length = 9 := by decide
    rw [hending] at hlength
    omega
  obtain ⟨hpieces, hproper'⟩ := hlast ending (by simp [← hending, stagingEnding]) hlong
  rw [makeStaging, hpath]
  by_cases hwalk : ∀ p ∈ walk (above (store.backupPath name)) [], s.tree.kindAt p = some true
  · have hslot : s.tree.slot? (store.hiddenPath name "-staging-") =
        some (arrival (above (store.backupPath name)) [] ++ [last ++ "-staging-"]) :=
      slotOf?_eq_some_iff.mpr ⟨_, _, hbeside, hproper, hwalk, rfl⟩
    have hslot' : s.tree.slot? (store.hiddenPath name ending) =
        some (arrival (above (store.backupPath name)) [] ++ [last ++ ending]) :=
      slotOf?_eq_some_iff.mpr ⟨_, _, hpieces, hproper', hwalk, rfl⟩
    rw [hslot, Option.map_some, List.dropLast_concat, Option.getD_some] at hending
    refine .inr ⟨_, _, ?_, slot_of_walk hpieces hproper' hending.symm hwalk⟩
    rw [hslot']
    rfl
  · have hslot' : s.tree.slot? (store.hiddenPath name ending) = none := by
      cases hslot : s.tree.slot? (store.hiddenPath name ending) with
      | none => rfl
      | some place =>
        obtain ⟨parts, x, hparts, -, hfolders, -⟩ := slotOf?_eq_some_iff.mp hslot
        rw [hpieces] at hparts
        obtain ⟨rfl, -⟩ := List.append_inj' hparts rfl
        exact absurd hfolders hwalk
    rw [hslot']
    exact .inl ⟨rfl, hwalk⟩

section Staged

variable (hplace : s.tree.kindAt place.dropLast = some true)

include hplace

theorem at?_withStaging : (withStaging place s es).tree.at? place = some (.folder es) :=
  at?_put_self _ _ _ (exists_folder hplace)

theorem put_withStaging (file : String) (new : FileTree) :
    { withStaging place s es with tree := (withStaging place s es).tree.put (place ++ [file]) new } =
      withStaging place s (es.insert file new) := by
  rw [put_append_singleton (at?_withStaging hplace)]
  simp only [withStaging, put_put]

theorem stageSentinel_withStaging (f : String × String) :
    stageSentinel place f (withStaging place s es) =
      .ok () (withStaging place s (if es.contains f.1 then es else es.insert f.1 (.file f.2))) := by
  rw [stageSentinel, entriesAt_of_folder (at?_withStaging hplace)]
  split
  · rfl
  · rw [writeInto, put_withStaging hplace]

theorem each_stageSentinel_withStaging (fs : List (String × String)) :
    Storing.each (stageSentinel place) fs (withStaging place s es) =
      .ok () (withStaging place s
        (fs.foldl (fun es f => if es.contains f.1 then es else es.insert f.1 (.file f.2)) es)) := by
  induction fs generalizing es with
  | nil => rfl
  | cons f fs ih =>
    exact Storing.each_cons_ok_iff.mpr ⟨_, stageSentinel_withStaging hplace f, ih⟩

theorem stageArtifact_withStaging (d : Definition) :
    store.stageArtifact schema place d (withStaging place s es) =
      match store.outcome schema s.cache es d with
      | .error e => .error e (withStaging place s es)
      | .ok o => .ok o (withStaging place s (o.put es)) := by
  have hcache : (withStaging place s es).cache = s.cache := rfl
  rw [stageArtifact, entriesAt_of_folder (at?_withStaging hplace), hcache]
  cases store.outcome schema s.cache es d with
  | error e => rfl
  | ok o =>
    dsimp only
    rw [Outcome.put]
    cases o.text with
    | none => rfl
    | some text => exact congrArg (EStateM.Result.ok o) (put_withStaging hplace _ _)

end Staged

theorem outcome_congr {cache : SignatureCache} {fs : Dict FileTree} {d : Definition}
    (h : es.get? (Artifact.fileName d.name) = fs.get? (Artifact.fileName d.name)) :
    store.outcome schema cache es d = store.outcome schema cache fs d := by
  rw [outcome, outcome, isCurrent, isCurrent, h]

theorem Outcome.get?_put_of_ne {o : Outcome} {file : String}
    (h : Artifact.fileName o.name ≠ file) : (o.put es).get? file = es.get? file := by
  have hnot : ∀ p ∈ [o], Artifact.fileName p.name ≠ file := by
    intro p hp
    rwa [List.mem_singleton.mp hp]
  exact Store.get?_put_of_ne hnot

/-- One artifact after the other is kept or written as in the draft. -/
theorem collect_stageArtifact (hplace : s.tree.kindAt place.dropLast = some true) {fs : Dict FileTree}
    {ds : List Definition} (hnodup : (ds.map Definition.name).Nodup)
    (hsame : ∀ d ∈ ds,
      es.get? (Artifact.fileName d.name) = fs.get? (Artifact.fileName d.name)) :
    ∃ es', Storing.collect (store.stageArtifact schema place) ds
        (withStaging place s es) =
      match traverse (store.outcome schema s.cache fs) ds with
      | .error e => .error e (withStaging place s es')
      | .ok os => .ok os (withStaging place s (os.foldl Outcome.put es)) := by
  -- The folder changes from one artifact to the next, so the entries are general; `fs` are those of the
  -- start, with which the entries agree at the places of all artifacts still to come.
  induction ds generalizing es with
  | nil => exact ⟨es, rfl⟩
  | cons d ds ih =>
    obtain ⟨hd, hnodup⟩ := List.nodup_cons.mp hnodup
    rw [Storing.collect_cons, stageArtifact_withStaging hplace,
      outcome_congr (hsame d List.mem_cons_self), traverse]
    cases ho : store.outcome schema s.cache fs d with
    | error e => exact ⟨es, rfl⟩
    | ok o =>
      have hname : o.name = d.name := congrArg Definition.name (outcome_ok ho).1
      -- The names differ, so this artifact is not in the place of a later one.
      have hrest : ∀ c ∈ ds, (o.put es).get? (Artifact.fileName c.name) =
          fs.get? (Artifact.fileName c.name) := by
        intro c hc
        rw [Outcome.get?_put_of_ne, hsame c (List.mem_cons_of_mem _ hc)]
        intro hfile
        rw [← hname, Artifact.fileName_inj hfile] at hd
        exact hd (List.mem_map_of_mem hc)
      obtain ⟨es', hes'⟩ := ih hnodup hrest
      refine ⟨es', ?_⟩
      dsimp only
      rw [hes']
      cases traverse (store.outcome schema s.cache fs) ds <;> rfl

/-- A staging folder is filled as drafted. -/
theorem fill_withStaging (store : Store) (es : Dict FileTree) (hschema : schema.Named)
    (hplace : s.tree.kindAt place.dropLast = some true) :
    ∃ es', store.fill schema place (withStaging place s es) =
      match store.draft schema s.cache es with
      | .error e => .error e (withStaging place s es')
      | .ok draft => .ok draft.outcomes (withStaging place s draft.entries) := by
  have hcollect : ∃ es', Storing.collect (store.stageArtifact schema place)
      schema.definitions.values (withStaging place s (withSentinels es)) =
        match traverse (store.outcome schema s.cache (withSentinels es)) schema.definitions.values with
        | .error e => .error e (withStaging place s es')
        | .ok os =>
          .ok os (withStaging place s (os.foldl Outcome.put (withSentinels es))) :=
    collect_stageArtifact hplace hschema.names_nodup fun _ _ => rfl
  obtain ⟨es', hes'⟩ := hcollect
  rw [fill, bind_apply, each_stageSentinel_withStaging hplace]
  dsimp only
  rw [bind_apply, ← withSentinels, hes', draft]
  dsimp only
  cases traverse (store.outcome schema s.cache (withSentinels es)) schema.definitions.values with
  | error e => exact ⟨es', rfl⟩
  | ok os =>
    refine ⟨os.foldl Outcome.put (withSentinels es), ?_⟩
    dsimp only
    rw [bind_apply, stageManifest, entriesAt_of_folder (at?_withStaging hplace)]
    by_cases hfolder : ((os.foldl Outcome.put (withSentinels es)).get? Manifest.fileName).any
        isFolder = true
    · rw [if_pos hfolder, if_pos hfolder]
    · rw [if_neg hfolder, if_neg hfolder, writeInto, put_withStaging hplace]
      rfl

theorem copyLive_cases (hslot : Slot store name staging place s.tree) :
    store.copyLive name place (withStaging place s .empty) = .error .io (withStaging place s .empty) ∧
        store.livePlace name <+: place ∨
      ∃ es, store.copyLive name place (withStaging place s .empty) = .ok () (withStaging place s es) ∧
        (es = .empty ∨ es = entriesAt s.tree (store.livePlace name)) := by
  rw [copyLive]
  split
  · exact .inr ⟨_, rfl, .inl rfl⟩
  · next live hlive =>
    obtain ⟨hlive, -⟩ := isSome_of_locate? hlive
    obtain rfl : live = store.livePlace name := hlive
    split
    · next es hes =>
      split
      · next hinto => exact .inl ⟨rfl, List.isPrefixOf_iff_prefix.mp hinto⟩
      · next hinto =>
        rw [List.isPrefixOf_iff_prefix] at hinto
        have hold : s.tree.at? (store.livePlace name) = some (.folder es) := by
          rw [← hes]
          exact (at?_put_of_not_below isLeaf_emptyFolder (by simp [hslot.fresh]) hinto).symm
        refine .inr ⟨es, ?_, .inr (entriesAt_of_folder hold).symm⟩
        simp only [withStaging, put_put]
    · exact .inr ⟨_, rfl, .inl rfl⟩

theorem Slot.kindAt_dropLast (h : Slot store name staging place s.tree) :
    s.tree.kindAt place.dropLast = some true := by
  rw [h.arrival_eq, dropLast_arrival h.dots, h.above_eq]
  exact h.folders _ (arrival_mem_walk _ _)

end ClassSchema.Store
