import ClassSchema.Proofs.Store.InStep

/-!
# Storing schemas one after the other

After a row of schemas of one name the live folder holds the artifacts of the last one. Each was
rendered in the first schema of the unbroken row, up to the last, that has a definition of its name and
signature.
-/

namespace ClassSchema

namespace Schema

/-- Whether a schema has a definition of the same name and signature. -/
def carries (s : Schema) (d : Definition) : Bool :=
  (s.get? d.name).any fun e => e.signature = d.signature

/-- The schema in which an artifact of the last one was rendered; earlier schemas are listed backwards. -/
def renderedIn (d : Definition) (last : Schema) : List Schema → Schema
  | [] => last
  | previous :: earlier => if previous.carries d then renderedIn d previous earlier else last

/-- No two texts that are signed in the schemas have one digest, unless they are the same text. -/
def CollisionFree (schemas : List Schema) : Prop :=
  ∀ s ∈ schemas, ∀ t ∈ schemas, ∀ d ∈ s.definitions.values, ∀ e ∈ t.definitions.values,
    d.signature = e.signature → d.signedValue.ordered.text = e.signedValue.ordered.text

theorem CollisionFree.mono {xs ys : List Schema} (h : CollisionFree ys) (hsub : xs ⊆ ys) :
    CollisionFree xs :=
  fun s hs t ht => h s (hsub hs) t (hsub ht)

theorem carries_iff {s : Schema} {d : Definition} :
    s.carries d = true ↔ ∃ e, s.get? d.name = some e ∧ e.signature = d.signature := by
  rw [carries, Option.any_eq_true]
  simp

theorem renderedIn_congr {d e : Definition} (hname : d.name = e.name)
    (hsignature : d.signature = e.signature) (last : Schema) (earlier : List Schema) :
    renderedIn d last earlier = renderedIn e last earlier := by
  induction earlier generalizing last with
  | nil => rfl
  | cons previous earlier ih =>
    have hcarries : previous.carries d = previous.carries e := by
      rw [carries, carries, hname, hsignature]
    rw [renderedIn, renderedIn, hcarries, ih]

end Schema

namespace Store

open Schema (renderedIn)

/-- Stores schemas one after the other. -/
def persistEach (store : Store) : List Schema → Storing Unit :=
  Storing.each fun schema => do let _ ← store.persist schema

/-- Cache and live folder after the schemas of the past, the last one first. -/
structure Settled (store : Store) (name : String) (past : List Schema) (s : StoreState) : Prop
    extends InStep store name past.head? s where
  rendered : ∀ last earlier, past = last :: earlier → ∀ d ∈ last.definitions.values,
    ∃ text, store.encoder d.kind.word (Artifact.scope (renderedIn d last earlier) d) = .ok text ∧
      (entriesAt s.tree (store.livePlace name)).get? (Artifact.fileName d.name) = some (.file text)

variable {store : Store} {schema : Schema} {name : String} {past : List Schema} {s s' : StoreState}

theorem persistEach_cons_ok_iff {schemas : List Schema} :
    store.persistEach (schema :: schemas) s = .ok () s' ↔
      ∃ report s₁, store.persist schema s = .ok report s₁ ∧ store.persistEach schemas s₁ = .ok () s' := by
  rw [persistEach, Storing.each_cons_ok_iff]
  constructor
  · rintro ⟨s₁, hfirst, hrest⟩
    obtain ⟨report, s₂, hpersist, hpure⟩ := Storing.bind_ok_iff.mp hfirst
    obtain ⟨-, rfl⟩ := EStateM.Result.ok.inj hpure
    exact ⟨report, s₂, hpersist, hrest⟩
  · rintro ⟨report, s₁, hpersist, hrest⟩
    exact ⟨s₁, Storing.bind_ok_iff.mpr ⟨report, s₁, hpersist, rfl⟩, hrest⟩

theorem Empty.settled (h : store.Empty name s) : store.Settled name [] s where
  toInStep := h.inStep
  rendered := by
    intro last earlier hpast
    cases hpast

section Step

variable {draft : Draft} {d : Definition}

theorem named_of_mem_head (hpast : ∀ t ∈ past, t.WellFormed) : ∀ t ∈ past.head?, t.Named :=
  fun t ht => (hpast t (List.mem_of_mem_head? ht)).toNamed

theorem InStep.renderedIn_of_stale (hs : store.InStep schema.name past.head? s)
    (hstale : isCurrent schema.name s.cache (entriesAt s.tree (store.livePlace schema.name)) d = false) :
    renderedIn d schema past = schema := by
  cases past with
  | nil => rfl
  | cons last earlier =>
    have hcarries : ¬ last.carries d = true := by
      intro h
      obtain ⟨e, he, hsignature⟩ := Schema.carries_iff.mp h
      rw [hs.isCurrent_iff.mpr ⟨e, he, hsignature⟩] at hstale
      cases hstale
    rw [renderedIn, if_neg hcarries]

theorem Settled.rendered_next (hs : store.Settled schema.name past s)
    (hschema : schema.WellFormed) (hpast : ∀ t ∈ past, t.WellFormed)
    (hfree : Schema.CollisionFree (schema :: past))
    (hdraft : store.draft schema s.cache (entriesAt s.tree (store.livePlace schema.name)) = .ok draft)
    (hd : d ∈ schema.definitions.values) :
    ∃ text, store.encoder d.kind.word (Artifact.scope (renderedIn d schema past) d) = .ok text ∧
      draft.entries.get? (Artifact.fileName d.name) = some (.file text) := by
  cases hcurrent : isCurrent schema.name s.cache (entriesAt s.tree (store.livePlace schema.name)) d with
  | true =>
    obtain ⟨e, he, hsignature⟩ := hs.isCurrent_iff.mp hcurrent
    cases past with
    | nil => cases he
    | cons last earlier =>
      have hname := (lastDefinition_named (named_of_mem_head hpast) he).1
      have hlast := hpast last List.mem_cons_self
      have hmem : e ∈ last.definitions.values := by
        rw [hlast.mem_values_iff, hname]
        exact he
      obtain ⟨text, hrender, hfile⟩ := hs.rendered last earlier rfl e hmem
      have hcarries : last.carries d = true := Schema.carries_iff.mpr ⟨e, he, hsignature⟩
      have hcanonical : e.signedValue.canonical = d.signedValue.canonical := by
        have htexts := hfree last (by simp) schema (by simp) e hmem d hd hsignature
        exact String.ofList_injective htexts
      refine ⟨text, ?_, ?_⟩
      · rw [renderedIn, if_pos hcarries, ← Schema.renderedIn_congr hname hsignature,
          ← Definition.kind_eq_of_canonical hcanonical,
          ← Definition.scope_eq_of_canonical (hlast.ordered e hmem) (hschema.ordered _ hd) hcanonical]
        exact hrender
      · rw [get?_draft_current hschema.toNamed hdraft hd hcurrent, ← hname, hfile]
  | false =>
    obtain ⟨text, hrender, hfile⟩ := get?_draft_rendered hschema.toNamed hdraft hd hcurrent
    exact ⟨text, by rw [hs.renderedIn_of_stale hcurrent, hrender], hfile⟩

theorem Settled.persist (hs : store.Settled schema.name past s)
    (hschema : schema.WellFormed) (hpast : ∀ t ∈ past, t.WellFormed)
    (hfree : Schema.CollisionFree (schema :: past)) (heffect : Effect store schema s s' draft) :
    store.Settled schema.name (schema :: past) s' := by
  refine ⟨hs.toInStep.persist hschema.toNamed (named_of_mem_head hpast) heffect, ?_⟩
  intro last earlier hlist d hd
  obtain ⟨rfl, rfl⟩ := List.cons.inj hlist
  obtain ⟨text, hrender, hfile⟩ := hs.rendered_next hschema hpast hfree heffect.draft_ok hd
  refine ⟨text, hrender, ?_⟩
  rw [heffect.get?_fileName hd, hfile]

end Step

end Store

end ClassSchema
