import ClassSchema.Proofs.Artifact.FileName
import ClassSchema.Proofs.Schema.WellFormed
import ClassSchema.Proofs.Traverse

/-!
# Drafted folders

The new folder of a schema can be drafted as a whole from the entries of the old one, since no artifact is
in the place of another. A draft has one outcome for each definition. It holds what was written, what was
kept, and the manifest; all other entries are those of the old folder.
-/

namespace ClassSchema

/-- The folder entries with the new text in place. -/
def Outcome.put (entries : Dict FileTree) (o : Outcome) : Dict FileTree :=
  match o.text with
  | some text => entries.insert (Artifact.fileName o.name) (.file text)
  | none => entries

namespace Store

def withSentinels (entries : Dict FileTree) : Dict FileTree :=
  sentinels.foldl (fun es f => if es.contains f.1 then es else es.insert f.1 (.file f.2)) entries

/-- A drafted folder with the outcomes of all definitions. -/
structure Draft where
  entries : Dict FileTree
  outcomes : List Outcome

/-- Drafts the new folder of a schema from the entries of the old one. -/
def draft (store : Store) (s : Schema) (cache : SignatureCache) (live : Dict FileTree) :
    Except Fault Draft :=
  let staged := withSentinels live
  match traverse (store.outcome s cache staged) s.definitions.values with
  | .error e => .error e
  | .ok outcomes =>
    let entries := outcomes.foldl Outcome.put staged
    if (entries.get? Manifest.fileName).any FileTree.isFolder then .error .io
    else .ok ⟨entries.insert Manifest.fileName (.file (manifest s).text), outcomes⟩

variable {store : Store} {s : Schema} {cache : SignatureCache} {live entries : Dict FileTree}
  {d : Definition} {o : Outcome} {dr : Draft}

theorem outcome_ok (h : store.outcome s cache entries d = .ok o) :
    o.definition = d ∧
      (isCurrent s.name cache entries d = true ∧ o.text = none ∨
        isCurrent s.name cache entries d = false ∧
          ∃ text, store.encoder d.kind.word (Artifact.scope s d) = .ok text ∧ o.text = some text) := by
  rw [outcome] at h
  split at h
  · next hcurrent =>
    obtain rfl := Except.ok.inj h
    exact ⟨rfl, .inl ⟨hcurrent, rfl⟩⟩
  · next hcurrent =>
    split at h
    · cases h
    · next text htext =>
      split at h
      · cases h
      · obtain rfl := Except.ok.inj h
        exact ⟨rfl, .inr ⟨by simpa using hcurrent, text, htext, rfl⟩⟩

private theorem get?_foldl_of_ne {file : String} {fs : List (String × String)} {es : Dict FileTree}
    (h : ∀ f ∈ fs, file ≠ f.1) :
    (fs.foldl (fun es f => if es.contains f.1 then es else es.insert f.1 (.file f.2)) es).get? file =
      es.get? file := by
  induction fs generalizing es with
  | nil => rfl
  | cons f fs ih =>
    rw [List.foldl_cons, ih fun g hg => h g (List.mem_cons_of_mem _ hg)]
    split
    · rfl
    · rw [Dict.get?_insert, if_neg (h f List.mem_cons_self)]

theorem get?_withSentinels {file : String} (hfile : ∀ f ∈ sentinels, file ≠ f.1) :
    (withSentinels live).get? file = live.get? file :=
  get?_foldl_of_ne hfile

theorem get?_withSentinels_of_mem {f : String × String} (hf : f ∈ sentinels) :
    (withSentinels live).get? f.1 = (live.get? f.1).or (some (.file f.2)) := by
  have hfold (fs : List (String × String)) (es : Dict FileTree) (hnodup : (fs.map (·.1)).Nodup)
      (h : f ∈ fs) :
      (fs.foldl (fun es f => if es.contains f.1 then es else es.insert f.1 (.file f.2)) es).get? f.1 =
        (es.get? f.1).or (some (.file f.2)) := by
    induction fs generalizing es with
    | nil => cases h
    | cons g fs ih =>
      obtain ⟨hg, hnodup⟩ := List.nodup_cons.mp hnodup
      rw [List.foldl_cons]
      rcases List.mem_cons.mp h with rfl | h
      · have hrest : ∀ g ∈ fs, f.1 ≠ g.1 := fun g hmem hname =>
          hg (List.mem_map.mpr ⟨g, hmem, hname.symm⟩)
        rw [get?_foldl_of_ne hrest, Dict.contains]
        cases hget : es.get? f.1 <;> simp [hget]
      · have hne : f.1 ≠ g.1 := fun hname => hg (List.mem_map.mpr ⟨f, h, hname⟩)
        rw [ih _ hnodup h]
        split
        · rfl
        · rw [Dict.get?_insert, if_neg hne]
  exact hfold sentinels live (by decide) hf

theorem isCurrent_withSentinels (name : String) (d : Definition) :
    isCurrent name cache (withSentinels live) d = isCurrent name cache live d := by
  rw [isCurrent, isCurrent, get?_withSentinels (Artifact.fileName_ne_sentinel _)]

theorem get?_put_of_ne {file : String} {outcomes : List Outcome}
    (h : ∀ o ∈ outcomes, Artifact.fileName o.name ≠ file) :
    (outcomes.foldl Outcome.put entries).get? file = entries.get? file := by
  induction outcomes generalizing entries with
  | nil => rfl
  | cons o outcomes ih =>
    rw [List.foldl_cons, ih fun p hp => h p (List.mem_cons_of_mem _ hp), Outcome.put]
    split
    · rw [Dict.get?_insert, if_neg (Ne.symm (h o List.mem_cons_self))]
    · rfl

theorem get?_put_of_mem {outcomes : List Outcome} (hnodup : (outcomes.map Outcome.name).Nodup)
    (ho : o ∈ outcomes) :
    (outcomes.foldl Outcome.put entries).get? (Artifact.fileName o.name) =
      (o.text.map FileTree.file).or (entries.get? (Artifact.fileName o.name)) := by
  induction outcomes generalizing entries with
  | nil => cases ho
  | cons p outcomes ih =>
    obtain ⟨hp, hnodup⟩ := List.nodup_cons.mp hnodup
    rw [List.foldl_cons]
    rcases List.mem_cons.mp ho with rfl | ho
    · have hrest : ∀ q ∈ outcomes, Artifact.fileName q.name ≠ Artifact.fileName o.name := by
        intro q hq hfile
        rw [← Artifact.fileName_inj hfile] at hp
        exact hp (List.mem_map_of_mem hq)
      rw [get?_put_of_ne hrest, Outcome.put]
      cases o.text with
      | none => rfl
      | some text => rw [Dict.get?_insert, if_pos rfl]; rfl
    · have hne : o.name ≠ p.name := fun hname => hp (hname ▸ List.mem_map_of_mem ho)
      rw [ih hnodup ho, Outcome.put]
      cases p.text with
      | none => rfl
      | some text =>
        rw [Dict.get?_insert, if_neg fun hfile => hne (Artifact.fileName_inj hfile)]

/-- A draft keeps or renders every definition, and adds the manifest. -/
theorem draft_ok (h : store.draft s cache live = .ok dr) :
    traverse (store.outcome s cache (withSentinels live)) s.definitions.values = .ok dr.outcomes ∧
      dr.entries = (dr.outcomes.foldl Outcome.put (withSentinels live)).insert Manifest.fileName
        (.file (manifest s).text) := by
  rw [draft] at h
  dsimp only at h
  split at h
  · cases h
  · next outcomes houtcomes =>
    split at h
    · cases h
    · obtain rfl := Except.ok.inj h
      exact ⟨houtcomes, rfl⟩

theorem sorted_draft (hlive : live.Sorted) (h : store.draft s cache live = .ok dr) : dr.entries.Sorted := by
  have hstart : (withSentinels live).Sorted := by
    refine List.foldlRecOn sentinels _ hlive fun es hes f _ => ?_
    split
    · exact hes
    · exact hes.insert _ _
  have hwritten : (dr.outcomes.foldl Outcome.put (withSentinels live)).Sorted := by
    refine List.foldlRecOn dr.outcomes _ hstart fun es hes o _ => ?_
    rw [Outcome.put]
    split
    · exact hes.insert _ _
    · exact hes
  rw [(draft_ok h).2]
  exact hwritten.insert _ _

/-- A folder can be drafted if every artifact is up to date or can be rendered, and no folder is in the
place of a file. -/
theorem exists_draft (hmanifest : (live.get? Manifest.fileName).any FileTree.isFolder = false)
    (h : ∀ d ∈ s.definitions.values, isCurrent s.name cache live d = true ∨
      (∃ text, store.encoder d.kind.word (Artifact.scope s d) = .ok text) ∧
        (live.get? (Artifact.fileName d.name)).any FileTree.isFolder = false) :
    ∃ draft, store.draft s cache live = .ok draft := by
  have houtcome : ∀ d ∈ s.definitions.values,
      ∃ o, store.outcome s cache (withSentinels live) d = .ok o := by
    intro d hd
    rw [outcome, isCurrent_withSentinels]
    rcases h d hd with hcurrent | ⟨⟨text, htext⟩, hfile⟩
    · exact ⟨_, if_pos hcurrent⟩
    · split
      · exact ⟨_, rfl⟩
      · rw [htext, get?_withSentinels (Artifact.fileName_ne_sentinel _), hfile]
        exact ⟨_, rfl⟩
  obtain ⟨outcomes, houtcomes⟩ := exists_traverse houtcome
  have hsame : (outcomes.foldl Outcome.put (withSentinels live)).get? Manifest.fileName =
      live.get? Manifest.fileName := by
    rw [get?_put_of_ne fun o _ => Artifact.fileName_ne_manifest o.name,
      get?_withSentinels (by decide)]
  rw [draft, houtcomes]
  dsimp only
  rw [hsame, hmanifest]
  exact ⟨_, rfl⟩

theorem outcomes_definitions (h : store.draft s cache live = .ok dr) :
    dr.outcomes.map Outcome.definition = s.definitions.values := by
  have htraverse := (traverse_eq_ok_iff _ _ _).mp (draft_ok h).1
  have hmap : ∀ (ds : List Definition) (os : List Outcome),
      ds.map (store.outcome s cache (withSentinels live)) = os.map .ok →
        os.map Outcome.definition = ds := by
    intro ds
    induction ds with
    | nil =>
      intro os hos
      have hnil : os = [] := by simpa using hos.symm
      rw [hnil]
      rfl
    | cons d ds ih =>
      intro os hos
      cases os with
      | nil => cases hos
      | cons o os =>
        obtain ⟨ho, hrest⟩ := List.cons.inj hos
        rw [List.map_cons, (outcome_ok ho).1, ih os hrest]
  exact hmap _ _ htraverse

theorem outcomes_names_nodup (hs : s.Named) (h : store.draft s cache live = .ok dr) :
    (dr.outcomes.map Outcome.name).Nodup := by
  have hnames := hs.names_nodup
  rw [← outcomes_definitions h, List.map_map] at hnames
  exact hnames

theorem exists_outcome (h : store.draft s cache live = .ok dr) (hd : d ∈ s.definitions.values) :
    ∃ o ∈ dr.outcomes, o.definition = d := by
  rw [← outcomes_definitions h] at hd
  obtain ⟨o, ho, hod⟩ := List.mem_map.mp hd
  exact ⟨o, ho, hod⟩

theorem outcome_of_mem (h : store.draft s cache live = .ok dr) (ho : o ∈ dr.outcomes) :
    store.outcome s cache (withSentinels live) o.definition = .ok o := by
  obtain ⟨d, hd, hdo⟩ := exists_mem_of_traverse (draft_ok h).1 ho
  rw [(outcome_ok hdo).1]
  exact hdo

theorem definition_mem (h : store.draft s cache live = .ok dr) (ho : o ∈ dr.outcomes) :
    o.definition ∈ s.definitions.values := by
  rw [← outcomes_definitions h]
  exact List.mem_map_of_mem ho

theorem outcome_cases (h : store.draft s cache live = .ok dr) (ho : o ∈ dr.outcomes) :
    isCurrent s.name cache live o.definition = true ∧ o.text = none ∨
      isCurrent s.name cache live o.definition = false ∧
        ∃ text, store.encoder o.definition.kind.word (Artifact.scope s o.definition) = .ok text ∧
          o.text = some text := by
  have houtcome := (outcome_ok (outcome_of_mem h ho)).2
  rwa [isCurrent_withSentinels] at houtcome

theorem isWritten_eq (h : store.draft s cache live = .ok dr) (ho : o ∈ dr.outcomes) :
    o.isWritten = !isCurrent s.name cache live o.definition := by
  rcases outcome_cases h ho with ⟨hcurrent, htext⟩ | ⟨hstale, text, -, htext⟩
  · rw [Outcome.isWritten, htext, hcurrent]
    rfl
  · rw [Outcome.isWritten, htext, hstale]
    rfl

theorem written_eq (h : store.draft s cache live = .ok dr) :
    (dr.outcomes.filter Outcome.isWritten).map Outcome.name =
      (s.definitions.values.filter fun d => !isCurrent s.name cache live d).map Definition.name := by
  rw [← outcomes_definitions h, List.filter_map, List.map_map,
    List.filter_congr fun o ho => isWritten_eq h ho]
  rfl

theorem unchanged_eq (h : store.draft s cache live = .ok dr) :
    (dr.outcomes.filter (!·.isWritten)).map Outcome.name =
      (s.definitions.values.filter (isCurrent s.name cache live)).map Definition.name := by
  have hkept : ∀ o ∈ dr.outcomes, (!o.isWritten) = isCurrent s.name cache live o.definition := fun o ho => by
    rw [isWritten_eq h ho, Bool.not_not]
  rw [← outcomes_definitions h, List.filter_map, List.map_map, List.filter_congr hkept]
  rfl

/-- What a draft has under a name: the manifest, a sentinel, an artifact, or what the old folder had. -/
theorem file_cases (s : Schema) (file : String) :
    file = Manifest.fileName ∨ (∃ f ∈ sentinels, file = f.1) ∨
      (∃ d ∈ s.definitions.values, Artifact.fileName d.name = file) ∨
        (file ≠ Manifest.fileName ∧ ∀ f ∈ sentinels, file ≠ f.1) ∧
          ∀ d ∈ s.definitions.values, Artifact.fileName d.name ≠ file := by
  by_cases hmanifest : file = Manifest.fileName
  · exact .inl hmanifest
  by_cases hsentinel : ∃ f ∈ sentinels, file = f.1
  · exact .inr (.inl hsentinel)
  by_cases hartifact : ∃ d ∈ s.definitions.values, Artifact.fileName d.name = file
  · exact .inr (.inr (.inl hartifact))
  · push Not at hsentinel hartifact
    exact .inr (.inr (.inr ⟨⟨hmanifest, hsentinel⟩, hartifact⟩))

theorem get?_draft_manifest (h : store.draft s cache live = .ok dr) :
    dr.entries.get? Manifest.fileName = some (.file (manifest s).text) := by
  rw [(draft_ok h).2, Dict.get?_insert, if_pos rfl]

theorem get?_draft_of_mem (hs : s.Named) (h : store.draft s cache live = .ok dr)
    (ho : o ∈ dr.outcomes) :
    dr.entries.get? (Artifact.fileName o.name) =
      (o.text.map FileTree.file).or (live.get? (Artifact.fileName o.name)) := by
  rw [(draft_ok h).2, Dict.get?_insert, if_neg (Artifact.fileName_ne_manifest _),
    get?_put_of_mem (outcomes_names_nodup hs h) ho,
    get?_withSentinels (Artifact.fileName_ne_sentinel _)]

theorem get?_draft_current (hs : s.Named) (h : store.draft s cache live = .ok dr)
    (hd : d ∈ s.definitions.values) (hcurrent : isCurrent s.name cache live d = true) :
    dr.entries.get? (Artifact.fileName d.name) = live.get? (Artifact.fileName d.name) := by
  obtain ⟨o, ho, rfl⟩ := exists_outcome h hd
  have hentry : dr.entries.get? (Artifact.fileName o.definition.name) = _ := get?_draft_of_mem hs h ho
  rcases outcome_cases h ho with ⟨-, htext⟩ | ⟨hstale, -⟩
  · rw [hentry, htext]
    rfl
  · rw [hcurrent] at hstale
    cases hstale

theorem get?_draft_rendered (hs : s.Named) (h : store.draft s cache live = .ok dr)
    (hd : d ∈ s.definitions.values) (hstale : isCurrent s.name cache live d = false) :
    ∃ text, store.encoder d.kind.word (Artifact.scope s d) = .ok text ∧
      dr.entries.get? (Artifact.fileName d.name) = some (.file text) := by
  obtain ⟨o, ho, rfl⟩ := exists_outcome h hd
  have hentry : dr.entries.get? (Artifact.fileName o.definition.name) = _ := get?_draft_of_mem hs h ho
  rcases outcome_cases h ho with ⟨hcurrent, -⟩ | ⟨-, text, hrender, htext⟩
  · rw [hstale] at hcurrent
    cases hcurrent
  · exact ⟨text, hrender, by rw [hentry, htext]; rfl⟩

theorem get?_draft_sentinel (h : store.draft s cache live = .ok dr) {f : String × String}
    (hf : f ∈ sentinels) : dr.entries.get? f.1 = (live.get? f.1).or (some (.file f.2)) := by
  have hmanifest : ∀ f ∈ sentinels, f.1 ≠ Manifest.fileName := by decide
  rw [(draft_ok h).2, Dict.get?_insert, if_neg (hmanifest f hf),
    get?_put_of_ne fun o _ => Artifact.fileName_ne_sentinel o.name f hf, get?_withSentinels_of_mem hf]

theorem exists_file_of_draft (hs : s.Named) (h : store.draft s cache live = .ok dr)
    (hd : d ∈ s.definitions.values) :
    ∃ text, dr.entries.get? (Artifact.fileName d.name) = some (.file text) := by
  cases hcurrent : isCurrent s.name cache live d with
  | false =>
    obtain ⟨text, -, hfile⟩ := get?_draft_rendered hs h hd hcurrent
    exact ⟨text, hfile⟩
  | true =>
    rw [get?_draft_current hs h hd hcurrent]
    obtain ⟨-, hfile⟩ := Bool.and_eq_true_iff.mp hcurrent
    obtain ⟨u, hu, hisFile⟩ := (Option.any_eq_true _ _).mp hfile
    cases u with
    | file text => exact ⟨text, hu⟩
    | folder es => cases hisFile

theorem get?_draft_of_ne (h : store.draft s cache live = .ok dr) {file : String}
    (hfile : file ≠ Manifest.fileName ∧ ∀ f ∈ sentinels, file ≠ f.1)
    (hname : ∀ d ∈ s.definitions.values, Artifact.fileName d.name ≠ file) :
    dr.entries.get? file = live.get? file := by
  have hother : ∀ o ∈ dr.outcomes, Artifact.fileName o.name ≠ file :=
    fun o ho => hname o.definition (definition_mem h ho)
  rw [(draft_ok h).2, Dict.get?_insert, if_neg hfile.1, get?_put_of_ne hother,
    get?_withSentinels hfile.2]

theorem get?_draft_of_folder (h : store.draft s cache live = .ok dr) {file : String}
    {es : Dict FileTree} (hfolder : live.get? file = some (.folder es)) :
    dr.entries.get? file = some (.folder es) := by
  rcases file_cases s file with rfl | ⟨f, hf, rfl⟩ | ⟨d, hd, rfl⟩ | ⟨hfile, hartifact⟩
  · -- A folder in the place of the manifest is a fault.
    have hsame (outcomes : List Outcome) :
        (outcomes.foldl Outcome.put (withSentinels live)).get? Manifest.fileName =
          some (.folder es) := by
      rw [get?_put_of_ne fun o _ => Artifact.fileName_ne_manifest o.name, get?_withSentinels (by decide),
        hfolder]
    rw [draft] at h
    dsimp only at h
    split at h
    · cases h
    · have hblocked : (some (FileTree.folder es)).any FileTree.isFolder = true := rfl
      rw [hsame, if_pos hblocked] at h
      cases h
  · rw [get?_draft_sentinel h hf, hfolder]
    rfl
  · obtain ⟨o, ho, rfl⟩ := exists_outcome h hd
    have houtcome := outcome_of_mem h ho
    rw [outcome, isCurrent_withSentinels, get?_withSentinels (Artifact.fileName_ne_sentinel _), hfolder,
      isCurrent, hfolder] at houtcome
    simp only [Option.any_some, FileTree.isFile, FileTree.isFolder, Bool.and_false, Bool.false_eq_true,
      if_false, if_true] at houtcome
    split at houtcome <;> cases houtcome
  · rw [get?_draft_of_ne h hfile hartifact, hfolder]

end Store

end ClassSchema
