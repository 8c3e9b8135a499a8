import ClassSchema.Proofs.Serve.Opened
import ClassSchema.Proofs.Store.Mending
import ClassSchema.Serve.Service

/-!
# A service that heals

A service that can store its schema anew answers as if nothing had been lost from the live folder. What it
is asked for is as it was, or the schema is found stale; then storing it once brings back what was lost.
-/

namespace ClassSchema

open FileTree ClassSchema.Path

theorem Fault.isStale_iff {e : Fault} : e.isStale = true ↔
    (∃ schema, e = .notBuilt schema) ∨ ∃ schema name, e = .artifactMissing schema name := by
  cases e <;> simp [isStale]

namespace Service

/-- What a service is asked for. -/
inductive Request where
  | schema
  | artifact (name : String)
  | resolver (type field : String)
  | invalidate

/-- What it answers. Which artifacts an open schema has read so far is its own affair. -/
inductive Answer where
  | schema (name directory : String) (manifest : Manifest)
  | artifact (a : Artifact)
  | resolver (chain : Chain)
  | invalidated

variable (service : Service)

/-- The answer that an outcome gives, and the state after it. -/
def outcome {α : Type} (view : α → Answer) :
    EStateM.Result Fault Serving α → Except Fault Answer × Serving
  | .ok a s => (.ok (view a), s)
  | .error e s => (.error e, s)

/-- How an open schema is shown. -/
def viewSchema (g : GeneratedSchema) : Answer := .schema g.name g.directory g.manifest

def reply : Request → Serving → Except Fault Answer × Serving
  | .schema, s => outcome viewSchema (service.schema s)
  | .artifact name, s => outcome .artifact (service.artifact name s)
  | .resolver type field, s => outcome .resolver (service.resolver type field s)
  | .invalidate, s => (.ok .invalidated, invalidate s)

/-- The answers to a row of requests, and the state after them. -/
def replies : List Request → Serving → List (Except Fault Answer) × Serving
  | [], s => ([], s)
  | r :: rs, s => ((service.reply r s).1 :: (replies rs (service.reply r s).2).1,
      (replies rs (service.reply r s).2).2)

def faultOf {α : Type} : EStateM.Result Fault Serving α → Option Fault
  | .ok _ _ => none
  | .error e _ => some e

/-- What the first attempt at a request fails with, if it does. -/
def firstFault : Request → Serving → Option Fault
  | .schema, s => faultOf (service.attempt (fun g _ => (.ok g, g)) s)
  | .artifact name, s => faultOf (service.attempt (fun g t => g.artifact t name) s)
  | .resolver type field, s =>
    faultOf (service.attempt (fun g t => g.resolver service.registry t type field) s)
  | .invalidate, _ => none

/-- The service for a stored schema, which stores it anew if it turns out to be stale. -/
def storing (store : Store) (schema : Schema) (registry : Registry) : Service where
  root := store.root
  name := schema.name
  registry := registry
  rebuild := some (discard (store.persist schema))

/-! ### Counting rebuilds -/

section Count

variable {service : Service} {rebuild : Storing Unit} {α : Type} {ask : Inquiry α} {view : α → Answer}
  {s s₁ : Serving} {a : α} {e : Fault}

theorem request_of_ok (h : service.attempt ask s = .ok a s₁) : service.request ask s = .ok a s₁ := by
  rw [request, h]

theorem request_of_not_stale (h : service.attempt ask s = .error e s₁) (hstale : e.isStale = false) :
    service.request ask s = .error e s₁ := by
  rw [request, h]
  cases service.rebuild <;> simp [hstale]

theorem request_of_stale (hrebuild : service.rebuild = some rebuild)
    (h : service.attempt ask s = .error e s₁) (hstale : e.isStale = true) :
    service.request ask s = match heal rebuild s₁ with
      | .error e s => .error e s
      | .ok () s => service.attempt ask s := by
  cases hheal : heal rebuild s₁ with
  | error e s₂ => simp only [request, h, hrebuild, hstale, hheal, if_true]
  | ok u s₂ => simp only [request, h, hrebuild, hstale, hheal, if_true]

theorem rebuilds_attempt : (outcome view (service.attempt ask s)).2.rebuilds = s.rebuilds := by
  rw [attempt]
  split
  · rfl
  · split <;> rfl

theorem rebuilds_heal (rebuild : Storing Unit) (s : Serving) :
    (match heal rebuild s with
      | .ok () s => s.rebuilds
      | .error _ s => s.rebuilds) = s.rebuilds + 1 := by
  rw [heal]
  cases rebuild s.store <;> rfl

/-- A request has the schema rebuilt once if its first attempt finds it stale, and else not at all. -/
theorem rebuilds_request (h : service.rebuild.isSome) :
    (outcome view (service.request ask s)).2.rebuilds =
      s.rebuilds + if (faultOf (service.attempt ask s)).any Fault.isStale then 1 else 0 := by
  obtain ⟨rebuild, hrebuild⟩ := Option.isSome_iff_exists.mp h
  have hfirst : (outcome view (service.attempt ask s)).2.rebuilds = s.rebuilds := rebuilds_attempt
  cases hattempt : service.attempt ask s with
  | ok a s₁ =>
    rw [request_of_ok hattempt, ← hattempt, hfirst, hattempt]
    rfl
  | error e s₁ =>
    rw [hattempt] at hfirst
    rw [faultOf, Option.any_some]
    cases hstale : e.isStale with
    | false =>
      rw [request_of_not_stale hattempt hstale]
      exact hfirst
    | true =>
      have hcount := rebuilds_heal rebuild s₁
      rw [request_of_stale hrebuild hattempt hstale, if_pos rfl, ← show s₁.rebuilds = _ from hfirst,
        ← hcount]
      cases heal rebuild s₁ with
      | error e s₂ => rfl
      | ok u s₂ => exact rebuilds_attempt

theorem rebuilds_reply (h : service.rebuild.isSome) (r : Request) :
    (service.reply r s).2.rebuilds =
      s.rebuilds + if (service.firstFault r s).any Fault.isStale then 1 else 0 := by
  cases r with
  | schema => exact rebuilds_request h
  | artifact name => exact rebuilds_request h
  | resolver type field => exact rebuilds_request h
  | invalidate => rfl

end Count

end Service

namespace GeneratedSchema

/-- The same schema, after artifacts have been read from a tree. -/
structure Grown (g₀ : GeneratedSchema) (t : FileTree) (g : GeneratedSchema) : Prop where
  name : g.name = g₀.name
  directory : g.directory = g₀.directory
  manifest : g.manifest = g₀.manifest
  faithful : g.Faithful t

/-- Where an artifact is read as from another tree, or found missing. -/
def ReadsLike (g : GeneratedSchema) (t u : FileTree) (lost : Prop) : Prop :=
  ∀ name, g.readArtifact u name = g.readArtifact t name ∨
    lost ∧ g.readArtifact u name = .error (.artifactMissing g.name name)

variable {g g₀ : GeneratedSchema} {t u : FileTree} {lost : Prop} {name : String}

theorem readArtifact_congr (h : ∀ entry, g.manifest.artifacts.get? name = some entry →
    t.lookAt? (join g.directory entry.file) = u.lookAt? (join g.directory entry.file)) :
    g.readArtifact t name = g.readArtifact u name := by
  rw [readArtifact, readArtifact]
  cases hentry : g.manifest.artifacts.get? name with
  | none => rfl
  | some entry =>
    simp only [hasFile, readText, h entry hentry]
    rfl

theorem readArtifact_of_missing {entry : ManifestEntry}
    (hentry : g.manifest.artifacts.get? name = some entry)
    (h : t.lookAt? (join g.directory entry.file) = none) :
    g.readArtifact t name = .error (.artifactMissing g.name name) := by
  simp [readArtifact, hentry, hasFile, h]

theorem Grown.readArtifact (h : g₀.Grown t g) (u : FileTree) (name : String) :
    g.readArtifact u name = g₀.readArtifact u name := by
  simp only [GeneratedSchema.readArtifact, h.name, h.directory, h.manifest]

theorem Grown.insert (h : g₀.Grown t g) {a : Artifact} (ha : g₀.readArtifact t name = .ok a) :
    g₀.Grown t { g with loaded := g.loaded.insert name a } := by
  refine ⟨h.name, h.directory, h.manifest, fun asked b hb => ?_⟩
  show g.readArtifact t asked = .ok b
  rw [Dict.get?_insert] at hb
  split at hb
  · next hasked => rw [hasked, h.readArtifact, ha, Option.some.inj hb]
  · exact h.faithful asked b hb

theorem Grown.artifact (h : g₀.Grown t g) (hreads : g₀.ReadsLike t u lost) (name : String) :
    (g.artifact u name).1 = g₀.readArtifact t name ∧ g₀.Grown t (g.artifact u name).2 ∨
      lost ∧ g.artifact u name = (.error (.artifactMissing g₀.name name), g) := by
  rw [GeneratedSchema.artifact]
  cases hloaded : g.loaded.get? name with
  | some a =>
    have hread := h.faithful name a hloaded
    rw [h.readArtifact] at hread
    exact .inl ⟨hread.symm, h⟩
  | none =>
    dsimp only
    rw [h.readArtifact]
    rcases hreads name with hsame | ⟨hlost, hmissing⟩
    · rw [hsame]
      cases hread : g₀.readArtifact t name with
      | error e => exact .inl ⟨rfl, h⟩
      | ok a => exact .inl ⟨rfl, h.insert hread⟩
    · exact .inr ⟨hlost, by rw [hmissing]⟩

theorem resolver_eq (g : GeneratedSchema) (registry : Registry) (t : FileTree) (type field : String) :
    g.resolver registry t type field = (match (g.artifact t type).1 with
      | .error e => .error e
      | .ok a => match planOf a field with
        | .error e => .error e
        | .ok p => p.bind registry, (g.artifact t type).2) := by
  rw [resolver]
  split
  · next h => rw [h]
  · next a _ h =>
    rw [h]
    dsimp only
    cases planOf a field <;> rfl

end GeneratedSchema

namespace Service

/-- An inquiry that is answered as the schema was read first, unless it finds the schema stale. -/
structure Steady (g₀ : GeneratedSchema) (t u : FileTree) (lost : Prop) {α : Type} (view : α → Answer)
    (ask : Inquiry α) : Prop where
  answer : ∀ g, g₀.Grown t g → (ask g u).1.map view = (ask g₀ t).1.map view ∨
    lost ∧ ∃ e, e.isStale = true ∧ (ask g u).1 = .error e
  grown : ∀ g, g₀.Grown t g → g₀.Grown t (ask g u).2

section Steady

variable {g₀ : GeneratedSchema} {t u : FileTree} {lost : Prop}

theorem steady_schema : Steady g₀ t u lost viewSchema fun g _ => (.ok g, g) where
  answer := by
    intro g hg
    refine .inl ?_
    simp only [Except.map, viewSchema, hg.name, hg.directory, hg.manifest]
  grown := fun g hg => hg

variable (hfaithful : g₀.Faithful t) (hreads : g₀.ReadsLike t u lost)

include hfaithful hreads

theorem steady_artifact (name : String) :
    Steady g₀ t u lost .artifact fun g u => g.artifact u name where
  answer := by
    intro g hg
    rcases hg.artifact hreads name with ⟨hsame, -⟩ | ⟨hlost, hmissing⟩
    · exact .inl (by rw [hsame, GeneratedSchema.artifact_fst hfaithful])
    · exact .inr ⟨hlost, _, rfl, by rw [hmissing]⟩
  grown := by
    intro g hg
    rcases hg.artifact hreads name with ⟨-, hgrown⟩ | ⟨-, hmissing⟩
    · exact hgrown
    · rw [hmissing]
      exact hg

theorem steady_resolver (registry : Registry) (type field : String) :
    Steady g₀ t u lost .resolver fun g u => g.resolver registry u type field where
  answer := by
    intro g hg
    rw [GeneratedSchema.resolver_eq, GeneratedSchema.resolver_eq]
    dsimp only
    rw [GeneratedSchema.artifact_fst hfaithful]
    rcases hg.artifact hreads type with ⟨hsame, -⟩ | ⟨hlost, hmissing⟩
    · exact .inl (by rw [hsame])
    · exact .inr ⟨hlost, _, rfl, by rw [hmissing]⟩
  grown := by
    intro g hg
    rw [GeneratedSchema.resolver_eq]
    exact (steady_artifact hfaithful hreads type).grown g hg

end Steady

end Service

namespace Store

/-- A stored schema as it is opened first. -/
def unread (store : Store) (schema : Schema) : GeneratedSchema where
  name := schema.name
  directory := store.schemaPath schema.name
  manifest := manifest schema
  loaded := .empty

variable {store : Store} {schema : Schema} {intact s : StoreState} {file : String}

/-- A schema that stands, and would be made as it is if it were not there. -/
structure Renewable (store : Store) (schema : Schema) (intact : StoreState) : Prop
    extends store.Standing schema intact where
  named : schema.Named
  texts : ∀ d ∈ schema.definitions.values, ∃ text,
    store.encoder d.kind.word (Artifact.scope schema d) = .ok text ∧
      (entriesAt intact.tree (store.livePlace schema.name)).get? (Artifact.fileName d.name) =
        some (.file text)
  sentinels : ∀ f ∈ sentinels,
    (entriesAt intact.tree (store.livePlace schema.name)).get? f.1 = some (.file f.2)

/-- A schema that is stored where nothing of it was before is all made anew. -/
theorem renewable_of_persist {start : StoreState} {report : PersistReport} (hschema : schema.Named)
    (hempty : store.Empty schema.name start) (halone : store.Secluded schema.name start)
    (hpersist : store.persist schema start = .ok report intact) : store.Renewable schema intact := by
  obtain ⟨draft, heffect⟩ := persist_effect hschema halone.toApart hpersist
  have hkept := Reached.start.kept hempty halone.toApart
  refine ⟨hkept.standing hschema halone hpersist, hschema, fun d hd => ?_, fun f hf => ?_⟩
  · refine heffect.get?_rendered hschema hd ?_
    rw [isCurrent, hempty.cache]
    rfl
  · have hnone : (entriesAt start.tree (store.livePlace schema.name)).get? f.1 = none := by
      rw [get?_entriesAt, at?_append, hempty.folder, Option.bind_none]
    rw [heffect.get?_sentinel hf, hnone, Option.none_or]

theorem Renewable.mendable (h : store.Renewable schema intact) : store.Mendable schema intact s where
  artifact := fun d hd _ => h.texts d hd
  sentinel := fun f hf _ => h.sentinels f hf

section Damaged

variable (hintact : store.Renewable schema intact) (hs : store.Damaged schema.name intact s)

include hintact hs

theorem Damaged.lookAt?_eq (hfile : isPlainName file = true) :
    s.tree.lookAt? (join (store.schemaPath schema.name) file) =
      (entriesAt s.tree (store.livePlace schema.name)).get? file :=
  lookAt?_live (hs.swappable hintact.swappable).located hs.folder hfile

theorem Damaged.lookAt?_or (hfile : isPlainName file = true) :
    s.tree.lookAt? (join (store.schemaPath schema.name) file) =
        intact.tree.lookAt? (join (store.schemaPath schema.name) file) ∨
      ¬ store.Mended schema.name intact s ∧
        s.tree.lookAt? (join (store.schemaPath schema.name) file) = none := by
  rw [hs.lookAt?_eq hintact hfile, hintact.mended.damaged.lookAt?_eq hintact hfile]
  rcases hs.entries file with hsame | hnone
  · exact .inl hsame
  · by_cases hmended : store.Mended schema.name intact s
    · exact .inl (hmended.entries file)
    · exact .inr ⟨hmended, hnone⟩

theorem Damaged.openAt_of_manifest
    (h : (entriesAt s.tree (store.livePlace schema.name)).get? Manifest.fileName ≠ none) :
    GeneratedSchema.openAt s.tree store.root schema.name = .ok (store.unread schema) := by
  have hmanifest := (hs.entries Manifest.fileName).resolve_right h
  rw [hintact.manifest schema rfl, ← hs.lookAt?_eq hintact (by decide)] at hmanifest
  have hpath : s.tree.lookAt? (join (join store.root (manifest schema).schema) Manifest.fileName) =
      some (.file (manifest schema).text) := by
    rw [schema_manifest]
    exact hmanifest
  have hopen := GeneratedSchema.openAt_of_manifest (sorted_manifest schema) hpath
  rw [schema_manifest] at hopen
  exact hopen

theorem Damaged.openAt :
    GeneratedSchema.openAt s.tree store.root schema.name = .ok (store.unread schema) ∨
      ¬ store.Mended schema.name intact s ∧
        GeneratedSchema.openAt s.tree store.root schema.name = .error (.notBuilt schema.name) := by
  by_cases hmanifest : (entriesAt s.tree (store.livePlace schema.name)).get? Manifest.fileName = none
  · refine .inr ⟨fun hmended => ?_, ?_⟩
    · rw [hmended.entries, hintact.manifest schema rfl] at hmanifest
      cases hmanifest
    · rw [← hs.lookAt?_eq hintact (by decide), schemaPath] at hmanifest
      simp [GeneratedSchema.openAt, hasFile, hmanifest]
  · exact .inl (hs.openAt_of_manifest hintact hmanifest)

theorem Damaged.readsLike : (store.unread schema).ReadsLike intact.tree s.tree
    (¬ store.Mended schema.name intact s) := by
  intro name
  cases hentry : (store.unread schema).manifest.artifacts.get? name with
  | none => exact .inl (GeneratedSchema.readArtifact_congr (by simp [hentry]))
  | some entry =>
    have hget := hentry
    rw [unread, get?_manifest hintact.named] at hget
    obtain ⟨d, hd, rfl⟩ := Option.map_eq_some_iff.mp hget
    have hnamed := hintact.named.named name d hd
    have hplain : isPlainName (entryOf d).file = true := by
      refine isPlainName_fileName ?_
      rw [hnamed.1]
      exact hnamed.2
    rcases hs.lookAt?_or hintact hplain with hsame | ⟨hlost, hnone⟩
    · refine .inl (GeneratedSchema.readArtifact_congr fun entry' hentry' => ?_)
      obtain rfl := Option.some.inj (hentry.symm.trans hentry')
      exact hsame
    · exact .inr ⟨hlost, GeneratedSchema.readArtifact_of_missing hentry hnone⟩

end Damaged

end Store

namespace Service

/-- The files are damaged at most, and the schema, if it is open, was opened before. -/
structure Sound (store : Store) (schema : Schema) (intact : StoreState) (s : Serving) : Prop where
  damaged : store.Damaged schema.name intact s.store
  opened : ∀ g, s.opened = some g → (store.unread schema).Grown intact.tree g

section Sound

variable {store : Store} {schema : Schema} {intact : StoreState} (registry : Registry) {s : Serving}
  {α : Type} {view : α → Answer} {ask : Inquiry α}

variable (hintact : store.Renewable schema intact) (hs : Sound store schema intact s)

include hintact hs

theorem Sound.load : (∃ g, (storing store schema registry).load s = .ok g ∧
      (store.unread schema).Grown intact.tree g) ∨
    ¬ store.Mended schema.name intact s.store ∧
      (storing store schema registry).load s = .error (.notBuilt schema.name) := by
  rw [Service.load]
  cases hopened : s.opened with
  | some g => exact .inl ⟨g, rfl, hs.opened g hopened⟩
  | none =>
    rcases hs.damaged.openAt hintact with hok | hlost
    · exact .inl ⟨_, hok, rfl, rfl, rfl, GeneratedSchema.faithful_unread _ _ _ _⟩
    · exact .inr hlost

theorem Sound.attempt (hask : Steady (store.unread schema) intact.tree s.store.tree
      (¬ store.Mended schema.name intact s.store) view ask) :
    ∃ s₁, Sound store schema intact s₁ ∧ s₁.store = s.store ∧
      (outcome view ((storing store schema registry).attempt ask s) =
          ((ask (store.unread schema) intact.tree).1.map view, s₁) ∨
        ¬ store.Mended schema.name intact s.store ∧ ∃ e, e.isStale = true ∧
          (storing store schema registry).attempt ask s = .error e s₁) := by
  rcases hs.load registry hintact with ⟨g, hload, hgrown⟩ | ⟨hlost, hload⟩
  · refine ⟨{ s with opened := some (ask g s.store.tree).2 }, ⟨hs.damaged, ?_⟩, rfl, ?_⟩
    · rintro _ ⟨⟩
      exact hask.grown g hgrown
    · have hanswer := hask.answer g hgrown
      rw [Service.attempt, hload]
      dsimp only
      generalize ask g s.store.tree = result at hanswer
      obtain ⟨answer, g'⟩ := result
      rcases hanswer with hsame | ⟨hlost, e, hstale, rfl⟩
      · refine .inl ?_
        rw [← hsame]
        cases answer <;> rfl
      · exact .inr ⟨hlost, e, hstale, rfl⟩
  · refine ⟨s, hs, rfl, .inr ⟨hlost, .notBuilt schema.name, rfl, ?_⟩⟩
    rw [Service.attempt, hload]

theorem Sound.heal : ∃ s₁, heal (discard (store.persist schema)) s = .ok () s₁ ∧
    Sound store schema intact s₁ ∧ store.Mended schema.name intact s₁.store := by
  obtain ⟨draft, s', -, hpersist, hmended⟩ := hs.damaged.persist hintact.toStanding hintact.named
    hintact.mendable
  refine ⟨⟨s', none, s.rebuilds + 1⟩, ?_, ⟨hmended.damaged, fun g hg => by cases hg⟩, hmended⟩
  have hdiscard := Storing.discard_ok_iff.mpr ⟨_, hpersist⟩
  rw [Service.heal, hdiscard]

/-- A request is answered as by the files that were not damaged. -/
theorem Sound.request (hask : ∀ u, store.Damaged schema.name intact u →
      Steady (store.unread schema) intact.tree u.tree (¬ store.Mended schema.name intact u) view ask) :
    ∃ s₁, Sound store schema intact s₁ ∧
      outcome view ((storing store schema registry).request ask s) =
        ((ask (store.unread schema) intact.tree).1.map view, s₁) := by
  obtain ⟨s₁, hs₁, -, hfirst⟩ := hs.attempt registry hintact (hask _ hs.damaged)
  cases hattempt : (storing store schema registry).attempt ask s with
  | ok a s₂ =>
    rw [hattempt] at hfirst
    rcases hfirst with hanswer | ⟨-, e, -, herror⟩
    · exact ⟨s₁, hs₁, by rw [request_of_ok hattempt, hanswer]⟩
    · cases herror
  | error e s₂ =>
    rw [hattempt] at hfirst
    cases hstale : e.isStale with
    | false =>
      rcases hfirst with hanswer | ⟨-, e', hstale', herror⟩
      · exact ⟨s₁, hs₁, by rw [request_of_not_stale hattempt hstale, hanswer]⟩
      · obtain ⟨rfl, -⟩ := EStateM.Result.error.inj herror
        exact absurd hstale' (by simp [hstale])
    | true =>
      obtain rfl : s₂ = s₁ := by
        rcases hfirst with hanswer | ⟨-, e', -, herror⟩
        · exact congrArg Prod.snd hanswer
        · exact (EStateM.Result.error.inj herror).2
      -- Nothing is lost any more, so the answer is the one of the intact files, even if that is a fault.
      obtain ⟨s₃, hheal, hs₃, hmended⟩ := hs₁.heal hintact
      obtain ⟨s₄, hs₄, -, hanswer | ⟨hlost, -⟩⟩ :=
        hs₃.attempt registry hintact (hask _ hs₃.damaged)
      · refine ⟨s₄, hs₄, ?_⟩
        rw [request_of_stale rfl hattempt hstale, hheal]
        exact hanswer
      · exact absurd hmended hlost

/-- The answer that is read from the intact files. -/
def intended (store : Store) (schema : Schema) (intact : StoreState) (registry : Registry) :
    Request → Except Fault Answer
  | .schema => .ok (viewSchema (store.unread schema))
  | .artifact name => ((store.unread schema).artifact intact.tree name).1.map .artifact
  | .resolver type field =>
    ((store.unread schema).resolver registry intact.tree type field).1.map .resolver
  | .invalidate => .ok .invalidated

theorem Sound.reply (r : Request) : ∃ s₁, Sound store schema intact s₁ ∧
    (storing store schema registry).reply r s = (intended store schema intact registry r, s₁) := by
  have hfaithful : (store.unread schema).Faithful intact.tree :=
    GeneratedSchema.faithful_unread _ _ _ _
  cases r with
  | schema => exact hs.request registry hintact fun u _ => steady_schema
  | artifact name =>
    exact hs.request registry hintact fun u hu => steady_artifact hfaithful (hu.readsLike hintact) name
  | resolver type field =>
    exact hs.request registry hintact fun u hu =>
      steady_resolver hfaithful (hu.readsLike hintact) registry type field
  | invalidate => exact ⟨invalidate s, ⟨hs.damaged, fun g hg => by cases hg⟩, rfl⟩

theorem Sound.replies (requests : List Request) :
    ((storing store schema registry).replies requests s).1 =
      requests.map (intended store schema intact registry) := by
  induction requests generalizing s with
  | nil => rfl
  | cons r requests ih =>
    obtain ⟨s₁, hs₁, hreply⟩ := hs.reply registry hintact r
    rw [Service.replies, hreply, List.map_cons, ih hs₁]

end Sound

/-- A fresh service finds out that an artifact is lost when it is asked for it. -/
theorem firstFault_of_lost {store : Store} {schema : Schema} {intact s : StoreState}
    (registry : Registry) (name : String) {d : Definition} (hintact : store.Renewable schema intact)
    (hs : store.Damaged schema.name intact s)
    (hmanifest : (Store.entriesAt s.tree (store.livePlace schema.name)).get? Manifest.fileName ≠ none)
    (hd : schema.get? name = some d)
    (hlost : (Store.entriesAt s.tree (store.livePlace schema.name)).get? (Artifact.fileName name) =
      none) (n : Nat) :
    (storing store schema registry).firstFault (.artifact name) ⟨s, none, n⟩ =
      some (.artifactMissing schema.name name) := by
  obtain ⟨rfl, hgraph⟩ := hintact.named.named name d hd
  have hentry : (store.unread schema).manifest.artifacts.get? d.name = some (Store.entryOf d) := by
    rw [Store.unread, Store.get?_manifest hintact.named, hd, Option.map_some]
  rw [← hs.lookAt?_eq hintact (Store.isPlainName_fileName hgraph)] at hlost
  have hread := GeneratedSchema.readArtifact_of_missing hentry hlost
  have hload : (storing store schema registry).load ⟨s, none, n⟩ = .ok (store.unread schema) :=
    hs.openAt_of_manifest hintact hmanifest
  have hartifact : (store.unread schema).artifact s.tree d.name =
      (.error (.artifactMissing schema.name d.name), store.unread schema) := by
    rw [GeneratedSchema.artifact, hread]
    rfl
  rw [firstFault, attempt, hload]
  dsimp only
  rw [hartifact]
  rfl

/-- Whatever was lost from the live folder of a schema, the service that can store it anew gives all the
answers that it gives if nothing is lost. A request has the schema stored once if its first attempt finds
the schema not built or an artifact missing, and else not at all. -/
theorem replies_damaged {store : Store} {schema : Schema} {start intact damaged : StoreState}
    {report : PersistReport} (hschema : schema.Named) (hempty : store.Empty schema.name start)
    (halone : store.Secluded schema.name start)
    (hpersist : store.persist schema start = .ok report intact)
    (hdamaged : store.Damaged schema.name intact damaged) (registry : Registry) :
    (∀ requests, ((storing store schema registry).replies requests ⟨damaged, none, 0⟩).1 =
      ((storing store schema registry).replies requests ⟨intact, none, 0⟩).1) ∧
    ∀ request s,
      let fault := (storing store schema registry).firstFault request s
      let stale := (∃ name, fault = some (.notBuilt name)) ∨
        ∃ name artifact, fault = some (.artifactMissing name artifact)
      (stale → ((storing store schema registry).reply request s).2.rebuilds = s.rebuilds + 1) ∧
        (¬ stale → ((storing store schema registry).reply request s).2.rebuilds = s.rebuilds) := by
  have hintact := Store.renewable_of_persist hschema hempty halone hpersist
  have hsound {s : StoreState} (hs : store.Damaged schema.name intact s) :
      Sound store schema intact ⟨s, none, 0⟩ := ⟨hs, fun g hg => by cases hg⟩
  refine ⟨fun requests => ?_, fun request s => ?_⟩
  · rw [(hsound hdamaged).replies registry hintact,
      (hsound hintact.mended.damaged).replies registry hintact]
  · have hcount : ((storing store schema registry).reply request s).2.rebuilds = _ :=
      rebuilds_reply rfl request
    have hstale (fault : Option Fault) : fault.any Fault.isStale = true ↔
        (∃ name, fault = some (.notBuilt name)) ∨
          ∃ name artifact, fault = some (.artifactMissing name artifact) := by
      cases fault <;> simp [Fault.isStale_iff]
    refine ⟨fun h => ?_, fun h => ?_⟩
    · rw [hcount, if_pos ((hstale _).mpr h)]
    · rw [hcount, if_neg fun h' => h ((hstale _).mp h'), Nat.add_zero]

section Example

open Store (builtinStore blank filterSchema enumStatus)

/-- The artifact of the filter is lost; asked for, it is made again, and an unknown one stays unknown. -/
theorem replies_damaged_filterSchema : ∃ report intact,
    builtinStore.persist (filterSchema enumStatus) blank = .ok report intact ∧
    let service := storing builtinStore (filterSchema enumStatus) .empty
    let damaged : StoreState := { intact with
      tree := intact.tree.remove (builtinStore.livePlace "default" ++ ["Filter.graphql"]) }
    service.firstFault (.artifact "Filter") ⟨damaged, none, 0⟩ =
        some (.artifactMissing "default" "Filter") ∧
      (service.reply (.artifact "Filter") ⟨damaged, none, 0⟩).2.rebuilds = 1 ∧
      (service.replies [.artifact "Filter", .schema, .artifact "Comment", .invalidate,
          .resolver "Filter" "status"] ⟨damaged, none, 0⟩).1 =
        (service.replies [.artifact "Filter", .schema, .artifact "Comment", .invalidate,
          .resolver "Filter" "status"] ⟨intact, none, 0⟩).1 := by
  have hplain : Path.isPlainName "default" = true := by decide
  have hnamed : (filterSchema enumStatus).Named := Store.named_filterSchema rfl
  obtain ⟨report, intact, hpersist⟩ := Store.exists_persist_blank hnamed hplain
  have hempty : builtinStore.Empty "default" blank := Store.empty_blank hplain
  have halone : builtinStore.Secluded "default" blank :=
    Store.secluded_blank hplain Store.straight_builtinStore
  have hintact := Store.renewable_of_persist hnamed hempty halone hpersist
  have hdamaged := hintact.mended.damaged.remove_entry "Filter.graphql"
  have hmanifest := hintact.manifest _ rfl
  have hfault := firstFault_of_lost .empty "Filter" hintact hdamaged
    (by rw [Store.get?_entriesAt_remove hintact.kindAt_live, if_neg (by decide), hmanifest]; simp) rfl
    (by rw [Store.get?_entriesAt_remove hintact.kindAt_live, if_pos (by decide)]) 0
  obtain ⟨hreplies, hcount⟩ := replies_damaged hnamed hempty halone hpersist hdamaged .empty
  exact ⟨report, intact, hpersist, hfault, (hcount _ _).1 (.inr ⟨_, _, hfault⟩), hreplies _⟩

end Example

end Service

end ClassSchema
