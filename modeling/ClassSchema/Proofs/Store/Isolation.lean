import ClassSchema.Proofs.Store.Calls

/-!
# Schemas that share a store

Schemas of several names share the root of a store and its cache. A call for one of them leaves the folder
and the signatures of another as they are, unless their names meet: as paths, where the folder of the one, or
its backup, is the folder of the other, or in it, or on the way to it; or as the beginnings of keys.
-/

namespace ClassSchema

/-- What is found at a place below the end of a path. -/
def FileTree.contentIn (t : FileTree) (path : String) (below : List String) : Option (Option String) :=
  (t.lookAt? path).bind (·.contentAt below)

namespace Store

open FileTree ClassSchema.Path

open Storing (Keeps after passes exists_of_passes)

/-- What is asked of a store. -/
inductive Call where
  | persist (schema : Schema) (named : schema.Named)
  | clear (name : String)

namespace Call

/-- The name of the schema that a call is for. -/
def name : Call → String
  | .persist schema _ => schema.name
  | .clear name => name

def run (store : Store) : Call → Storing Unit
  | .persist schema _ => discard (store.persist schema)
  | .clear name => store.clear name

end Call

/-- What is found in the folder of a schema, and all that is remembered of it, are as before. -/
structure Spared (store : Store) (name : String) (s s' : StoreState) : Prop where
  folder : ∀ below, s'.tree.contentIn (store.schemaPath name) below =
    s.tree.contentIn (store.schemaPath name) below
  signatures : ∀ artifact, isGraphName artifact = true →
    s'.cache.get? (SignatureCache.keyOf name artifact) =
      s.cache.get? (SignatureCache.keyOf name artifact)

/-- A schema has its folder. -/
def Present (store : Store) (name : String) (s : StoreState) : Prop :=
  s.tree.hasFolder (store.schemaPath name) = true

/-! ### How names meet -/

/-- Making the root of the store makes a folder in the folder of a schema. -/
def RootsIn (store : Store) (other : String) (s : StoreState) : Prop :=
  ∃ p ∈ walk (pieces store.root) [], store.livePlace other <+: p ∧ s.tree.at? p = none

/-- A stale file of one schema goes by a name that makes its key one of another schema. -/
def ForgetsStale (store : Store) (schema : Schema) (other : String) (s : StoreState) : Prop :=
  ∃ file ∈ staleFiles schema (entriesAt s.tree (store.livePlace schema.name)),
    ∃ artifact, isGraphName artifact = true ∧
      s.cache.get? (SignatureCache.keyOf other artifact) ≠ none ∧
        SignatureCache.keyOf other artifact = SignatureCache.keyOf schema.name (artifactName file)

/-- The keys of one schema begin as those of another. -/
def ForgetsKeys (name other : String) (s : StoreState) : Prop :=
  (SignatureCache.keyOf name "").toList <+: other.toList ∧
    ∃ artifact, isGraphName artifact = true ∧ s.cache.get? (SignatureCache.keyOf other artifact) ≠ none

/-- The path of a schema leads into what its live folder holds, and back out of it. -/
def Winds (store : Store) (name : String) : Prop :=
  ∃ p ∈ store.passed name, store.livePlace name <+: p ∧ p ≠ store.livePlace name

/-- What storing a schema would make of its live folder is there already. -/
structure UpToDate (store : Store) (schema : Schema) (s : StoreState) : Prop where
  folder : s.tree.kindAt (store.livePlace schema.name) = some true
  sentinel : ∀ f ∈ sentinels, (entriesAt s.tree (store.livePlace schema.name)).get? f.1 ≠ none
  manifest : (entriesAt s.tree (store.livePlace schema.name)).get? Manifest.fileName =
    some (.file (manifest schema).text)
  artifact : ∀ d ∈ schema.definitions.values,
    isCurrent schema.name s.cache (entriesAt s.tree (store.livePlace schema.name)) d = true ∨
      ∃ text, store.encoder d.kind.word (Artifact.scope schema d) = .ok text ∧
        (entriesAt s.tree (store.livePlace schema.name)).get? (Artifact.fileName d.name) =
          some (.file text)
  fresh : staleFiles schema (entriesAt s.tree (store.livePlace schema.name)) = []

namespace Call

/-- Whether a call has to do with a place or a key of another schema. -/
def Meets (store : Store) (other : String) (s : StoreState) : Call → Prop
  | .persist schema _ =>
    store.Overlaps other (store.livePlace schema.name) ∨
      store.Overlaps other (store.backupPlace schema.name) ∨
        store.RootsIn other s ∨ store.ForgetsStale schema other s
  | .clear name => store.Overlaps other (store.livePlace name) ∨ ForgetsKeys name other s

/-- Whether a call that goes well changes something of another schema. -/
def Endangers (store : Store) (other : String) (s : StoreState) : Call → Prop
  | .persist schema _ =>
    (store.livePlace other <+: store.livePlace schema.name ∧ ¬ store.UpToDate schema s) ∨
      (store.backupPlace schema.name ≠ store.livePlace schema.name ∧
        s.tree.at? (store.backupPlace schema.name) ≠ none ∧
          store.Overlaps other (store.backupPlace schema.name)) ∨
      store.RootsIn other s ∨ store.ForgetsStale schema other s
  | .clear name =>
    (s.tree.hasFolder (store.schemaPath name) = true ∧
        (store.livePlace other <+: store.livePlace name ∨
          ∃ p ∈ store.passed other, store.livePlace name <+: p ∧
            (p = store.livePlace name → ¬ store.Winds name))) ∨
      ForgetsKeys name other s

end Call

variable {store : Store} {schema : Schema} {name other : String} {s s' u : StoreState} {c : Call}

/-! ### Plain names -/

theorem mem_passed_of_plain (hplain : isPlainName name = true) {p : List String} :
    p ∈ store.passed name ↔ p ∈ walk (pieces store.root) [] ∨ p = store.livePlace name := by
  obtain ⟨lead, hlive, -, -, hwalk⟩ := exists_above_of_plain store hplain
  rw [passed, mem_walk_iff (endsInDots_of_plain store hplain), above, hlive, List.dropLast_concat, hwalk,
    ← livePlace]

theorem overlaps_iff_of_plain (hplain : isPlainName other = true) (hroot : store.Straight)
    (entry : String) :
    store.Overlaps other (store.rootPlace ++ [entry]) ↔ other = entry := by
  have hsame {x y : String} (h : store.rootPlace ++ [x] <+: store.rootPlace ++ [y]) : x = y := by
    have heq := h.eq_of_length (by simp)
    simpa using heq
  rw [Overlaps, livePlace_of_plain store hplain]
  constructor
  · rintro (hbelow | ⟨p, hp, habove⟩)
    · exact hsame hbelow
    · rcases (mem_passed_of_plain hplain).mp hp with hway | rfl
      · exact absurd habove (hroot.not_prefix hway entry)
      · rw [livePlace_of_plain store hplain] at habove
        exact (hsame habove).symm
  · rintro rfl
    exact .inl List.prefix_rfl

section Plain

variable (hname : isPlainName name = true) (hother : isPlainName other = true) (hne : name ≠ other)
  (hroot : store.Straight)

include hname hother hne hroot

theorem not_overlaps_of_plain : ¬ store.Overlaps other (store.livePlace name) := by
  rw [livePlace_of_plain store hname, overlaps_iff_of_plain hother hroot]
  exact Ne.symm hne

/-- Where both names are plain, storing a schema meets only one that has the name of its backup, or a key
that a stale file is taken to have. -/
theorem Call.meets_persist_iff {hschema : schema.Named} (hsame : schema.name = name) :
    (Call.persist schema hschema).Meets store other s ↔
      other = "." ++ name ++ "-previous" ∨ store.ForgetsStale schema other s := by
  have hroots : ¬ store.RootsIn other s := by
    rintro ⟨p, hp, hbelow, -⟩
    rw [livePlace_of_plain store hother] at hbelow
    exact hroot.not_prefix hp other hbelow
  rw [Meets, hsame, or_iff_right (not_overlaps_of_plain hname hother hne hroot),
    backupPlace_of_plain store hname, overlaps_iff_of_plain hother hroot, or_iff_right hroots]

/-- Where both names are plain, clearing a schema meets only one whose keys begin as its own. -/
theorem Call.meets_clear_iff : (Call.clear name).Meets store other s ↔ ForgetsKeys name other s := by
  rw [Meets, or_iff_right (not_overlaps_of_plain hname hother hne hroot)]

end Plain

/-! ### What is found in a folder -/

theorem Present.locate? (h : store.Present name s) :
    s.tree.locate? (store.schemaPath name) = some (store.livePlace name) ∧
      s.tree.kindAt (store.livePlace name) = some true := by
  rw [Present, hasFolder, lookAt?] at h
  cases hlocate : s.tree.locate? (store.schemaPath name) with
  | none =>
    rw [hlocate] at h
    cases h
  | some place =>
    obtain rfl : place = store.livePlace name := follow_eq_arrival hlocate
    rw [hlocate, Option.bind_some, any_isFolder_iff] at h
    exact ⟨rfl, h⟩

theorem Present.sameFolder (h : store.Present name s) : SameFolder store name s s where
  path := rfl
  passed := walk_of_follow h.locate?.1 h.locate?.2
  content := fun _ => rfl

theorem Present.contentIn_iff (h : store.Present name s) :
    (∀ below, s'.tree.contentIn (store.schemaPath name) below =
        s.tree.contentIn (store.schemaPath name) below) ↔
      (∀ p ∈ store.passed name, s'.tree.kindAt p = some true) ∧
        ∀ below, s'.tree.contentAt (store.livePlace name ++ below) =
          s.tree.contentAt (store.livePlace name ++ below) := by
  have hfound {t : FileTree} (hlocate : t.locate? (store.schemaPath name) = some (store.livePlace name))
      (below : List String) : t.contentIn (store.schemaPath name) below =
        t.contentAt (store.livePlace name ++ below) := by
    rw [contentIn, lookAt?, hlocate, Option.bind_some, contentAt, at?_append]
    cases t.at? (store.livePlace name) <;> rfl
  obtain ⟨hlocate, hfolder⟩ := h.locate?
  constructor
  · intro hsame
    have hthere : s'.tree.contentIn (store.schemaPath name) [] = some none := by
      obtain ⟨es, hes⟩ := exists_folder hfolder
      rw [hsame, hfound hlocate, List.append_nil, contentAt_of_folder hes]
    have hlocate' : s'.tree.locate? (store.schemaPath name) = some (store.livePlace name) := by
      cases hplace : s'.tree.locate? (store.schemaPath name) with
      | none =>
        rw [contentIn, lookAt?, hplace] at hthere
        cases hthere
      | some place => exact congrArg some (follow_eq_arrival hplace)
    have hcontent (below : List String) := hsame below
    simp only [hfound hlocate, hfound hlocate'] at hcontent
    refine ⟨walk_of_follow hlocate' ?_, hcontent⟩
    have hroot := hcontent []
    rw [List.append_nil] at hroot
    rw [kindAt_eq_of_contentAt hroot, hfolder]
  · rintro ⟨hpassed, hcontent⟩ below
    have hlocate' : s'.tree.locate? (store.schemaPath name) = some (store.livePlace name) :=
      follow_of_walk hpassed
    rw [hfound hlocate, hfound hlocate', hcontent]

theorem SameFolder.contentIn (h : SameFolder store name s s') (hpresent : store.Present name s) :
    ∀ below, s'.tree.contentIn (store.schemaPath name) below =
      s.tree.contentIn (store.schemaPath name) below :=
  hpresent.contentIn_iff.mpr ⟨h.passed, h.content⟩

/-! ### What is remembered -/

theorem signatures_after_persist (hschema : schema.Named) (hne : schema.name ≠ other)
    (hlive : s.cache.Avoids (store.livePlace schema.name)) (h : ¬ store.ForgetsStale schema other s)
    {artifact : String} (hartifact : isGraphName artifact = true) :
    (after (store.persist schema) s).cache.get? (SignatureCache.keyOf other artifact) =
      s.cache.get? (SignatureCache.keyOf other artifact) := by
  refine get?_after_persist hschema hne hlive hartifact fun file hfile hkey => ?_
  by_contra hremembered
  exact h ⟨file, hfile, artifact, hartifact, hremembered, hkey⟩

theorem signatures_after_clear (hne : name ≠ other) (h : ¬ ForgetsKeys name other s) {artifact : String}
    (hartifact : isGraphName artifact = true) :
    (after (store.clear name) s).cache.get? (SignatureCache.keyOf other artifact) =
      s.cache.get? (SignatureCache.keyOf other artifact) := by
  refine keeps_key_clear (fun hprefix => ?_) s rfl
  by_contra hremembered
  exact h ⟨(isPrefix_keyOf_iff hne hartifact).mp hprefix, artifact, hartifact, hremembered⟩

/-! ### However a call goes -/

/-- A call that does not meet another schema leaves it alone, whether it goes well or not. -/
theorem Call.spared (hne : c.name ≠ other) (hpresent : store.Present other s)
    (hlive : s.cache.Avoids (store.livePlace c.name)) (hother : s.cache.Avoids (store.livePlace other))
    (h : ¬ c.Meets store other s) : store.Spared other s (after (c.run store) s) := by
  cases c with
  | persist schema hschema =>
    simp only [Meets, not_or] at h
    obtain ⟨hoverlap, hbackup, hroot, hstale⟩ := h
    rw [run, Storing.after_discard]
    refine ⟨SameFolder.contentIn ?_ hpresent,
      fun artifact => signatures_after_persist hschema hne hlive hstale⟩
    exact hpresent.sameFolder.after_persist hschema hother hoverlap hbackup
      fun p hp hbelow hnone => hroot ⟨p, hp, hbelow, hnone⟩
  | clear name =>
    simp only [Meets, not_or] at h
    obtain ⟨hoverlap, hkeys⟩ := h
    exact ⟨SameFolder.contentIn (SameFolder.keeps_clear hother hoverlap s hpresent.sameFolder) hpresent,
      fun artifact => signatures_after_clear hne hkeys⟩

/-! ### What storing a schema changes -/

section Stages

variable (st : Stages store schema s s')

include st

theorem Stages.secluded (hlive : s.cache.Avoids (store.livePlace schema.name))
    (hbackup : s.cache.Avoids (store.backupPlace schema.name)) : store.Secluded schema.name s where
  root := fun p hp => (st.swappable.apart p (mem_ways_of_backup (mem_walk_above_of_root hp))).1
  cache := hlive
  spare := hbackup

theorem Stages.get?_of_upToDate (hschema : schema.Named) (hapart : store.Apart schema.name s)
    (h : store.UpToDate schema s) (file : String) :
    (entriesAt s'.tree (store.livePlace schema.name)).get? file =
      (entriesAt s.tree (store.livePlace schema.name)).get? file := by
  have heffect := st.effect hschema hapart
  rcases file_cases schema file with rfl | ⟨f, hf, rfl⟩ | ⟨d, hd, rfl⟩ | ⟨hkept, hartifact⟩
  · rw [heffect.manifest, h.manifest]
  · obtain ⟨v, hv⟩ := Option.ne_none_iff_exists'.mp (h.sentinel f hf)
    rw [heffect.get?_sentinel hf, hv, Option.some_or]
  · cases hcurrent : isCurrent schema.name s.cache (entriesAt s.tree (store.livePlace schema.name)) d with
    | true => exact heffect.get?_current hschema hd hcurrent
    | false =>
      obtain ⟨text, hrender, hfile⟩ := heffect.get?_rendered hschema hd hcurrent
      obtain ⟨text', hrender', hfile'⟩ := (h.artifact d hd).resolve_left (by simp [hcurrent])
      rw [hfile, hfile', Except.ok.inj (hrender.symm.trans hrender')]
  · have hfresh : file ∉ staleFiles schema st.draft.entries := by
      rw [mem_staleFiles_draft_iff heffect.draft_ok, h.fresh]
      simp
    rw [heffect.get?_entries, if_neg hfresh, get?_draft_of_ne heffect.draft_ok hkept hartifact]

theorem Stages.upToDate_of_content (hschema : schema.Named) (hapart : store.Apart schema.name s)
    (hsame : ∀ below, s'.tree.contentAt (store.livePlace schema.name ++ below) =
      s.tree.contentAt (store.livePlace schema.name ++ below)) : store.UpToDate schema s := by
  have heffect := st.effect hschema hapart
  have hentry (file : String) : ((entriesAt s'.tree (store.livePlace schema.name)).get? file).map text? =
      ((entriesAt s.tree (store.livePlace schema.name)).get? file).map text? := by
    rw [get?_entriesAt, get?_entriesAt]
    exact hsame [file]
  have htext {file text : String}
      (h : (entriesAt s'.tree (store.livePlace schema.name)).get? file = some (.file text)) :
      (entriesAt s.tree (store.livePlace schema.name)).get? file = some (.file text) := by
    rw [get?_entriesAt, ← contentAt_eq_file_iff, hsame, contentAt_eq_file_iff] at h
    rwa [get?_entriesAt]
  constructor
  case folder =>
    obtain ⟨es, hes, -⟩ := heffect.folder
    have hroot := hsame []
    rw [List.append_nil] at hroot
    rw [← kindAt_eq_of_contentAt hroot, kindAt, hes]
    rfl
  case sentinel =>
    intro f hf hnone
    have hnew := hentry f.1
    rw [heffect.get?_sentinel hf, hnone] at hnew
    cases hnew
  case manifest => exact htext heffect.manifest
  case artifact =>
    intro d hd
    cases hcurrent : isCurrent schema.name s.cache (entriesAt s.tree (store.livePlace schema.name)) d with
    | true => exact .inl rfl
    | false =>
      obtain ⟨text, hrender, hnew⟩ := heffect.get?_rendered hschema hd hcurrent
      exact .inr ⟨text, hrender, htext hnew⟩
  case fresh =>
    rw [List.eq_nil_iff_forall_not_mem]
    intro file hfresh
    have hgone := hentry file
    rw [heffect.get?_entries, if_pos ((mem_staleFiles_draft_iff heffect.draft_ok file).mpr hfresh),
      Option.map_none, eq_comm, Option.map_eq_none_iff] at hgone
    exact (mem_staleFiles_iff.mp hfresh).1 hgone

/-- Of the live folder all stays as it was exactly if it was up to date. -/
theorem Stages.upToDate_iff (hschema : schema.Named) (hapart : store.Apart schema.name s) :
    store.UpToDate schema s ↔ ∀ below, s'.tree.contentAt (store.livePlace schema.name ++ below) =
      s.tree.contentAt (store.livePlace schema.name ++ below) := by
  refine ⟨fun h => ?_, st.upToDate_of_content hschema hapart⟩
  rintro (- | ⟨file, below⟩)
  · obtain ⟨es, hes, -⟩ := (st.effect hschema hapart).folder
    obtain ⟨fs, hfs⟩ := exists_folder h.folder
    rw [List.append_nil, contentAt_of_folder hes, contentAt_of_folder hfs]
  · have hentry := st.get?_of_upToDate hschema hapart h file
    rw [get?_entriesAt, get?_entriesAt] at hentry
    rw [contentAt, contentAt, List.append_cons, at?_append, hentry, ← at?_append]

theorem Stages.at?_of_folder (hschema : schema.Named) (hapart : store.Apart schema.name s) {file : String}
    (hfolder : s.tree.kindAt (store.livePlace schema.name ++ [file]) = some true) :
    s'.tree.at? (store.livePlace schema.name ++ [file]) =
      s.tree.at? (store.livePlace schema.name ++ [file]) := by
  obtain ⟨es, hes, hget⟩ := (st.effect hschema hapart).folder
  obtain ⟨fs, hfs⟩ := exists_folder hfolder
  have hdrafted : st.draft.entries.get? file = some (.folder fs) :=
    get?_draft_of_folder (st.draft_live hapart) (by rw [get?_entriesAt, hfs])
  obtain ⟨-, hpath, hswapped⟩ := st.remembered_ok hapart
  obtain ⟨-, -, hfiles⟩ := reconcile_deleted (hapart.cache.of_path hpath) hswapped st.reconcile_ok
  -- What is stale is a file, or it could not be deleted.
  have hkept : file ∉ staleFiles schema st.draft.entries := by
    intro hstale
    obtain ⟨text, htext⟩ := hfiles file hstale
    rw [hdrafted] at htext
    cases htext
  rw [hfs, ← get?_entriesAt, entriesAt_of_folder hes, hget, if_neg hkept, hdrafted]

theorem Stages.kindAt_of_folder (hschema : schema.Named) (hapart : store.Apart schema.name s)
    {p : List String} (hp : s.tree.kindAt p = some true)
    (hbackup : store.backupPlace schema.name <+: p → store.livePlace schema.name <+: p) :
    s'.tree.kindAt p = some true := by
  rcases cases_below (store.livePlace schema.name) p with (hlive | rfl) | ⟨file, below, rfl⟩
  · refine st.kindAt_kept ?_
    rw [kindAt_eq_of_contentAt (st.swap_ok.apart p hlive fun hback => hlive (hbackup hback))]
    exact kindAt_makeAlong_mono (Store.openRoot_ok st.openRoot_ok).2 hp
  · obtain ⟨es, hes, -⟩ := (st.effect hschema hapart).folder
    rw [kindAt, hes]
    rfl
  · have hfolder : s.tree.kindAt (store.livePlace schema.name ++ [file]) = some true :=
      kindAt_of_above rfl hp
    rw [kindAt, List.append_cons, at?_append, st.at?_of_folder hschema hapart hfolder, ← at?_append,
      ← List.append_cons, ← kindAt, hp]

theorem Stages.contentAt_eq {q : List String} (havoid : s.cache.Avoids q)
    (hlive : ¬ store.livePlace schema.name <+: q) (hbackup : ¬ store.backupPlace schema.name <+: q)
    (hroot : q ∈ walk (pieces store.root) [] → s.tree.at? q ≠ none) :
    s'.tree.contentAt q = s.tree.contentAt q := by
  have hfile : ∀ file ∈ s.cache.path, q ≠ arrival (pieces file) [] := by
    rintro file hfile rfl
    exact havoid file hfile _ (arrival_mem_walk _ _) List.prefix_rfl
  rcases st.sameOutside q hlive hbackup hfile with hsame | ⟨hway, hnone, -⟩
  · exact hsame
  · rcases hway with hway | ⟨file, hfile, hway⟩
    · exact absurd (contentAt_eq_none_iff.mp hnone) (hroot hway)
    · exact absurd List.prefix_rfl (havoid file hfile q hway)

theorem Stages.signatures_iff (hschema : schema.Named) (hapart : store.Apart schema.name s)
    (hne : schema.name ≠ other) (hpersist : after (store.persist schema) s = s') :
    (∀ artifact, isGraphName artifact = true →
        s'.cache.get? (SignatureCache.keyOf other artifact) =
          s.cache.get? (SignatureCache.keyOf other artifact)) ↔
      ¬ store.ForgetsStale schema other s := by
  constructor
  · rintro hsame ⟨file, hfile, artifact, hartifact, hremembered, hkey⟩
    refine hremembered ((hsame artifact hartifact).symm.trans ?_)
    rw [hkey]
    exact (st.resigned hschema hapart).forgotten file
      ((mem_staleFiles_draft_iff (st.draft_live hapart) file).mpr hfile)
  · intro hstale artifact hartifact
    rw [← hpersist]
    exact signatures_after_persist hschema hne hapart.cache hstale hartifact

section SameFolder

variable (hschema : schema.Named) (hapart : store.Secluded schema.name s)
  (hpresent : SameFolder store other s s)

include hschema hapart hpresent

theorem Stages.contentAt_of_upToDate
    (hupToDate : store.livePlace other <+: store.livePlace schema.name → store.UpToDate schema s)
    {below : List String} (hlive : store.livePlace schema.name <+: store.livePlace other ++ below) :
    s'.tree.contentAt (store.livePlace other ++ below) =
      s.tree.contentAt (store.livePlace other ++ below) := by
  obtain ⟨rest, hrest⟩ := hlive
  rcases List.prefix_or_prefix_of_prefix ⟨rest, hrest⟩ (List.prefix_append _ below) with
    ⟨into, hinto⟩ | hover
  · cases into with
    | nil =>
      have hsame : store.livePlace other = store.livePlace schema.name := by simpa using hinto.symm
      rw [← hrest]
      exact (st.upToDate_iff hschema hapart.toApart).mp (hupToDate (hsame ▸ List.prefix_rfl)) rest
    | cons file into =>
      -- The other folder is in an entry of the live one, which is a folder and so is kept.
      have hfolder : s.tree.kindAt (store.livePlace schema.name ++ [file]) = some true :=
        kindAt_of_above hinto (hpresent.passed _ (store.livePlace_mem_passed other))
      rw [← hinto, contentAt, contentAt, List.append_assoc, List.cons_append, List.append_cons,
        at?_append, st.at?_of_folder hschema hapart.toApart hfolder, ← at?_append]
  · rw [← hrest]
    exact (st.upToDate_iff hschema hapart.toApart).mp (hupToDate hover) rest

theorem Stages.sameFolder (hother : s.cache.Avoids (store.livePlace other))
    (hupToDate : store.livePlace other <+: store.livePlace schema.name → store.UpToDate schema s)
    (hbackup : store.backupPlace schema.name ≠ store.livePlace schema.name →
      s.tree.at? (store.backupPlace schema.name) ≠ none →
        ¬ store.Overlaps other (store.backupPlace schema.name))
    (hroot : ¬ store.RootsIn other s) :
    (∀ p ∈ store.passed other, s'.tree.kindAt p = some true) ∧
      ∀ below, s'.tree.contentAt (store.livePlace other ++ below) =
        s.tree.contentAt (store.livePlace other ++ below) := by
  have hfree {p : List String} (hoverlap : store.Overlaps other (store.backupPlace schema.name))
      (hback : store.backupPlace schema.name <+: p) (hlive : ¬ store.livePlace schema.name <+: p) :
      s.tree.at? p = none := by
    have hnone : s.tree.at? (store.backupPlace schema.name) = none := by
      by_contra hthere
      exact hbackup (fun hsame => hlive (hsame ▸ hback)) hthere hoverlap
    obtain ⟨below, rfl⟩ := hback
    rw [at?_append, hnone, Option.bind_none]
  refine ⟨fun p hp => ?_, fun below => ?_⟩
  · have hfolder := hpresent.passed p hp
    refine st.kindAt_of_folder hschema hapart.toApart hfolder fun hback => ?_
    by_contra hlive
    rw [kindAt, hfree (.inr ⟨p, hp, hback⟩) hback hlive] at hfolder
    cases hfolder
  · by_cases hlive : store.livePlace schema.name <+: store.livePlace other ++ below
    · exact st.contentAt_of_upToDate hschema hapart hpresent hupToDate hlive
    by_cases hback : store.backupPlace schema.name <+: store.livePlace other ++ below
    · have hoverlap : store.Overlaps other (store.backupPlace schema.name) := by
        by_contra hfar
        exact not_prefix_of_not_overlaps hfar below hback
      rw [contentAt_eq_none_iff.mpr (st.at?_backup hapart hback hlive),
        contentAt_eq_none_iff.mpr (hfree hoverlap hback hlive)]
    · exact st.contentAt_eq (hother.mono (List.prefix_append _ _)) hlive hback fun hway hnone =>
        hroot ⟨_, hway, List.prefix_append _ _, hnone⟩

/-- A folder of another name is as it was, with all ways to it, unless the live folder in it was rewritten,
the backup had to do with it, or the root was made in it. -/
theorem Stages.folder_iff (hother : s.cache.Avoids (store.livePlace other)) :
    ((∀ p ∈ store.passed other, s'.tree.kindAt p = some true) ∧
        ∀ below, s'.tree.contentAt (store.livePlace other ++ below) =
          s.tree.contentAt (store.livePlace other ++ below)) ↔
      ¬ ((store.livePlace other <+: store.livePlace schema.name ∧ ¬ store.UpToDate schema s) ∨
        (store.backupPlace schema.name ≠ store.livePlace schema.name ∧
          s.tree.at? (store.backupPlace schema.name) ≠ none ∧
            store.Overlaps other (store.backupPlace schema.name)) ∨
        store.RootsIn other s) := by
  constructor
  · rintro ⟨hpassed, hcontent⟩
      (⟨⟨above, habove⟩, hold⟩ | ⟨hne, hthere, hoverlap⟩ | ⟨p, hp, ⟨below, rfl⟩, hnone⟩)
    · refine hold ((st.upToDate_iff hschema hapart.toApart).mpr fun below => ?_)
      rw [← habove, List.append_assoc, hcontent]
    · have hinto : ¬ store.livePlace schema.name <+: store.backupPlace schema.name :=
        mt (prefix_iff_eq (st.swappable.apart _ (dropLast_backupPlace store schema.name)).1).mp hne.symm
      have hgone := st.at?_backup hapart List.prefix_rfl hinto
      rcases hoverlap with ⟨below, hbelow⟩ | ⟨p, hp, habove⟩
      · have hsame := hcontent below
        rw [hbelow, contentAt_eq_none_iff.mpr hgone, eq_comm, contentAt_eq_none_iff] at hsame
        exact hthere hsame
      · exact not_prefix_of_none hgone (hpassed p hp) habove
    · have hmade := st.kindAt_ways (mem_ways_of_backup (mem_walk_above_of_root hp))
      rw [kindAt_eq_of_contentAt (hcontent below), kindAt, hnone] at hmade
      cases hmade
  · intro h
    simp only [not_or, not_and, not_not] at h
    exact st.sameFolder hschema hapart hpresent hother h.1 h.2.1 h.2.2

end SameFolder

end Stages

/-! ### What clearing a schema changes -/

section Removed

variable (hpresent : store.Present name s) (h : removeAll (store.schemaPath name) s = .ok () s')

include hpresent h

theorem removeAll_winds : store.Winds name ∧ s'.tree = s.tree.put (store.livePlace name) emptyFolder ∨
      ¬ store.Winds name ∧ s'.tree = s.tree.remove (store.livePlace name) ∧ store.livePlace name ≠ [] := by
  obtain ⟨hlocate, hfolder⟩ := hpresent.locate?
  obtain ⟨-, hremove⟩ := removeAll_ok h
  by_cases hwinds : store.Winds name
  · obtain ⟨p, hp, hbelow, hne⟩ := hwinds
    have hemptied := removeFolder_of_through hlocate hfolder hp hbelow hne
    rw [hremove] at hemptied
    exact .inl ⟨⟨p, hp, hbelow, hne⟩, (Prod.mk.inj hemptied).2⟩
  · refine .inr ⟨hwinds, ?_⟩
    have hdots : endsInDots (store.schemaPath name) = false → store.livePlace name ≠ [] := by
      intro hdots
      obtain ⟨x, -, -, harrival⟩ := exists_arrival_eq hdots
      simp [livePlace, harrival]
    obtain ⟨-, ⟨htree, hnamed⟩ | ⟨htree, hhas⟩⟩ := FileTree.removeFolder_ok hremove
    · exact ⟨htree, hdots hnamed⟩
    · -- All that the path leads through is still there, so the folder would be found.
      have hfound : s'.tree.locate? (store.schemaPath name) = some (store.livePlace name) := by
        refine follow_of_walk fun p hp => ?_
        have hold := hpresent.sameFolder.passed p hp
        rw [htree, ← livePlace]
        by_cases hbelow : store.livePlace name <+: p
        · have hsame : p = store.livePlace name := by
            by_contra hne
            exact hwinds ⟨p, hp, hbelow, hne⟩
          rw [hsame, kindAt, at?_put_of_folder hfolder]
          rfl
        · rw [kindAt_put_of_not_below hbelow, hold]
      rw [has_of_locate? hfound] at hhas
      cases hhas

/-- All in the folder is gone, and so is the folder unless its path winds through it. -/
theorem at?_of_removeAll {p : List String} (hbelow : store.livePlace name <+: p)
    (hpath : p = store.livePlace name → ¬ store.Winds name) : s'.tree.at? p = none := by
  obtain ⟨below, rfl⟩ := hbelow
  rcases removeAll_winds hpresent h with ⟨hwinds, htree⟩ | ⟨-, htree, hne⟩
  · rw [htree, at?_append, at?_put_of_folder hpresent.locate?.2, Option.bind_some]
    exact isLeaf_emptyFolder below fun hnil => hpath (by rw [hnil, List.append_nil]) hwinds
  · rw [htree, at?_append, at?_remove_self hne, Option.bind_none]

theorem sameFolder_of_removeAll (hsame : SameFolder store other s s)
    (hover : ¬ store.livePlace other <+: store.livePlace name)
    (hways : ¬ ∃ p ∈ store.passed other, store.livePlace name <+: p ∧
      (p = store.livePlace name → ¬ store.Winds name)) : SameFolder store other s s' := by
  obtain ⟨hcache, hremove⟩ := removeAll_ok h
  -- The path of the other schema may lead into the folder that was emptied, but not further.
  have hemptied {p : List String} (hp : p ∈ store.passed other) (hbelow : store.livePlace name <+: p) :
      p = store.livePlace name ∧ store.Winds name := by
    by_contra hlost
    exact hways ⟨p, hp, hbelow, fun hlive hwinds => hlost ⟨hlive, hwinds⟩⟩
  have hcontent {p : List String} (hp : ¬ store.livePlace name <+: p) :
      s'.tree.contentAt p = s.tree.contentAt p := by
    have hkept := contentAt_removeFolder (t := s.tree) hp
    rwa [hremove] at hkept
  refine ⟨congrArg _ hcache, fun p hp => ?_, fun below => hcontent fun hbelow => ?_⟩
  · by_cases hbelow : store.livePlace name <+: p
    · obtain ⟨rfl, hwinds⟩ := hemptied hp hbelow
      obtain ⟨-, htree⟩ := (removeAll_winds hpresent h).resolve_right fun hstraight => hstraight.1 hwinds
      rw [htree, kindAt, at?_put_of_folder hpresent.locate?.2]
      rfl
    · rw [kindAt_eq_of_contentAt (hcontent hbelow), hsame.passed p hp]
  · rcases List.prefix_or_prefix_of_prefix hbelow (List.prefix_append _ _) with hinto | habove
    · exact hover ((hemptied (store.livePlace_mem_passed other) hinto).1 ▸ List.prefix_rfl)
    · exact hover habove

end Removed

theorem Present.exists_lost (h : store.Present name s) : ∃ p, s.tree.kindAt p = some true ∧
    store.livePlace name <+: p ∧ (p = store.livePlace name → ¬ store.Winds name) := by
  by_cases hwinds : store.Winds name
  · obtain ⟨p, hp, hbelow, hne⟩ := hwinds
    exact ⟨p, h.sameFolder.passed p hp, hbelow, fun hsame => absurd hsame hne⟩
  · exact ⟨_, h.locate?.2, List.prefix_rfl, fun _ => hwinds⟩

/-- A folder of another name is as it was, with all ways to it, unless it is above what was taken away, or
one of the ways leads there. -/
theorem clear_folder_iff (hpresent : SameFolder store other s s)
    (hlive : s.cache.Avoids (store.livePlace name)) (hother : s.cache.Avoids (store.livePlace other))
    (h : store.clear name s = .ok () s') :
    ((∀ p ∈ store.passed other, s'.tree.kindAt p = some true) ∧
        ∀ below, s'.tree.contentAt (store.livePlace other ++ below) =
          s.tree.contentAt (store.livePlace other ++ below)) ↔
      ¬ (s.tree.hasFolder (store.schemaPath name) = true ∧
        (store.livePlace other <+: store.livePlace name ∨
          ∃ p ∈ store.passed other, store.livePlace name <+: p ∧
            (p = store.livePlace name → ¬ store.Winds name))) := by
  obtain ⟨s₁, hremove, hdelete⟩ := clear_steps h
  -- What the deletion of keys keeps.
  have hkept (hs : SameFolder store other s s₁) : SameFolder store other s s' := by
    rw [← Storing.after_of_ok hdelete]
    exact Keeps.each (fun key _ => SameFolder.keeps_delete hother key) s₁ hs
  rw [removeFolder] at hremove
  split at hremove
  case isFalse hmissing =>
    obtain ⟨-, rfl⟩ := EStateM.Result.ok.inj hremove
    exact iff_of_true ⟨(hkept hpresent).passed, (hkept hpresent).content⟩ fun hdanger => hmissing hdanger.1
  case isTrue hthere =>
    have hgone {p : List String} (hbelow : store.livePlace name <+: p)
        (hpath : p = store.livePlace name → ¬ store.Winds name) : s'.tree.at? p = none := by
      have havoid : s₁.cache.Avoids p := by
        rw [(removeAll_ok hremove).1]
        exact hlive.mono hbelow
      rw [(SignatureCache.sameAt_each_delete havoid hdelete).tree,
        at?_of_removeAll hthere hremove hbelow hpath]
    constructor
    · rintro ⟨hpassed, hcontent⟩ ⟨-, ⟨above, habove⟩ | ⟨p, hp, hbelow, hpath⟩⟩
      · obtain ⟨p, hfolder, ⟨below, rfl⟩, hpath⟩ := Present.exists_lost hthere
        have hlost := hcontent (above ++ below)
        rw [← List.append_assoc, habove] at hlost
        rw [← kindAt_eq_of_contentAt hlost, kindAt, hgone (List.prefix_append _ _) hpath] at hfolder
        cases hfolder
      · have hfolder := hpassed p hp
        rw [kindAt, hgone hbelow hpath] at hfolder
        cases hfolder
    · intro hsafe
      rw [not_and, not_or] at hsafe
      obtain ⟨hover, hways⟩ := hsafe hthere
      have hs := hkept (sameFolder_of_removeAll hthere hremove hpresent hover hways)
      exact ⟨hs.passed, hs.content⟩

/-! ### Calls that go well -/

theorem Call.spared_iff_of_ok (hne : c.name ≠ other) (hpresent : store.Present other s)
    (hlive : s.cache.Avoids (store.livePlace c.name)) (hbackup : s.cache.Avoids (store.backupPlace c.name))
    (hother : s.cache.Avoids (store.livePlace other)) (h : c.run store s = .ok () s') :
    store.Spared other s s' ↔ ¬ c.Endangers store other s := by
  have hsplit : store.Spared other s s' ↔
      ((∀ p ∈ store.passed other, s'.tree.kindAt p = some true) ∧
        ∀ below, s'.tree.contentAt (store.livePlace other ++ below) =
          s.tree.contentAt (store.livePlace other ++ below)) ∧
      ∀ artifact, isGraphName artifact = true →
        s'.cache.get? (SignatureCache.keyOf other artifact) =
          s.cache.get? (SignatureCache.keyOf other artifact) := by
    rw [← hpresent.contentIn_iff]
    exact ⟨fun hs => ⟨hs.folder, hs.signatures⟩, fun hs => ⟨hs.1, hs.2⟩⟩
  rw [hsplit]
  cases c with
  | persist schema hschema =>
    obtain ⟨report, hpersist⟩ := Storing.discard_ok_iff.mp h
    obtain ⟨st, -⟩ := (persist_ok_iff hschema).mp hpersist
    have hapart := st.secluded hlive hbackup
    rw [st.folder_iff hschema hapart hpresent.sameFolder hother,
      st.signatures_iff hschema hapart.toApart hne (Storing.after_of_ok hpersist), Endangers, ← not_or,
      or_assoc, or_assoc]
  | clear name =>
    have hclear : store.clear name s = .ok () s' := h
    rw [clear_folder_iff hpresent.sameFolder hlive hother hclear, Endangers, not_or]
    refine and_congr_right fun _ => ⟨?_, fun hkeys artifact hartifact => ?_⟩
    · rintro hsame ⟨hbegins, artifact, hartifact, hremembered⟩
      refine hremembered ((hsame artifact hartifact).symm.trans (get?_clear hclear ?_))
      exact (isPrefix_keyOf_iff hne hartifact).mpr hbegins
    · rw [← Storing.after_of_ok hclear]
      exact signatures_after_clear hne hkeys hartifact

/-- In any state, a call for one schema leaves another one alone, whether it goes well or not, if their names
do not meet; and if it goes well, it does so exactly if it does not endanger it. -/
theorem Call.spared_iff (hne : c.name ≠ other) (hpresent : store.Present other s)
    (hlive : s.cache.Avoids (store.livePlace c.name)) (hbackup : s.cache.Avoids (store.backupPlace c.name))
    (hother : s.cache.Avoids (store.livePlace other)) :
    (¬ c.Meets store other s → store.Spared other s (after (c.run store) s)) ∧
      ∀ s', c.run store s = .ok () s' → (store.Spared other s s' ↔ ¬ c.Endangers store other s) :=
  ⟨Call.spared hne hpresent hlive hother,
    fun _ hok => Call.spared_iff_of_ok hne hpresent hlive hbackup hother hok⟩

section Example

/-- To store a schema with one scalar. -/
def storeDate (name : String) : Call :=
  .persist ((Schema.new name).put "Date" (.scalar ⟨"Date", none⟩))
    ((Schema.named_new name).put (d := .scalar ⟨"Date", none⟩) (by decide))

/-- Two schemas in one store. -/
def shared : StoreState :=
  after ((storeDate "default:beta").run builtinStore)
    (after ((storeDate "default").run builtinStore) blank)

/-- A name that is spelled in another way leads to the same folder. -/
example : (Call.clear "default").Meets builtinStore "./default" shared := .inl (.inl (by decide +kernel))

private theorem present_shared : builtinStore.Present "default:beta" shared ∧
    shared.cache.get? (SignatureCache.keyOf "default:beta" "Date") ≠ none ∧ shared.cache.path = none ∧
      staleFiles ((Schema.new "default").put "Date" (.scalar ⟨"Date", none⟩))
        (entriesAt shared.tree (builtinStore.livePlace "default")) = [] := by
  unfold Present
  decide +kernel

/-- To store the one schema again spares the other, and to clear it does not. -/
theorem spared_iff_shared : builtinStore.Present "default:beta" shared ∧
    builtinStore.Spared "default:beta" shared (after ((storeDate "default").run builtinStore) shared) ∧
    ∀ s, (Call.clear "default").run builtinStore shared = .ok () s →
      ¬ builtinStore.Spared "default:beta" shared s := by
  obtain ⟨hpresent, hremembered, hnone, hfresh⟩ := present_shared
  have havoid (place : List String) : shared.cache.Avoids place := by
    intro path hpath
    rw [hnone] at hpath
    cases hpath
  have hsafe : ¬ (storeDate "default").Meets builtinStore "default:beta" shared := by
    intro hmeets
    obtain hbackup | ⟨file, hfile, -⟩ :=
      (Call.meets_persist_iff (by decide) (by decide) (by decide) straight_builtinStore rfl).mp hmeets
    · revert hbackup
      decide
    · exact List.not_mem_nil (hfresh ▸ hfile)
  have hdanger : (Call.clear "default").Endangers builtinStore "default:beta" shared :=
    .inr ⟨by decide, "Date", by decide, hremembered⟩
  refine ⟨hpresent, ?_, fun s hok hspared => ?_⟩
  · exact (Call.spared_iff (c := storeDate "default") (by decide) hpresent (havoid _) (havoid _)
      (havoid _)).1 hsafe
  · exact ((Call.spared_iff (c := .clear "default") (by decide) hpresent (havoid _) (havoid _)
      (havoid _)).2 s hok).mp hspared hdanger

/-- To clear one schema forgets what is remembered of another one whose name begins alike. -/
theorem not_spared_shared : builtinStore.Present "default:beta" shared ∧
    ∃ s, builtinStore.clear "default" shared = .ok () s ∧ s.cache.get? "default:beta:Date" = none ∧
      ¬ builtinStore.Spared "default:beta" shared s := by
  have hpasses : passes (fun _ s => s.cache.get? "default:beta:Date" = none)
      (builtinStore.clear "default") shared = true := by decide +kernel
  obtain ⟨⟨⟩, s, hclear, hforgotten⟩ := exists_of_passes hpasses
  have hforgotten : s.cache.get? "default:beta:Date" = none := of_decide_eq_true hforgotten
  refine ⟨present_shared.1, s, hclear, hforgotten, fun hspared => present_shared.2.1 ?_⟩
  rw [← hspared.signatures "Date" (by decide)]
  exact hforgotten

end Example

end Store

end ClassSchema
