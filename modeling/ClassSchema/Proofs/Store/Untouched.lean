import ClassSchema.Project
import ClassSchema.Proofs.Build.Bound
import ClassSchema.Proofs.Store.Persist

/-!
# Builds that fail

A build that fails before its schema is swapped in leaves cache and files as they were, however many
artifacts it had staged by then. At most the root folder of the store is new.
-/

namespace ClassSchema

open FileTree

namespace Store

/-- The cache is the same, and the tree holds the same but for empty folders that lead to the root. -/
structure Untouched (store : Store) (s s' : StoreState) : Prop where
  cache : s'.cache = s.cache
  tree : ∀ place, s'.tree.contentAt place = s.tree.contentAt place ∨
    place ∈ Path.walk (Path.pieces store.root) [] ∧ s.tree.contentAt place = none ∧
      s'.tree.contentAt place = some none

/-- An artifact has to be rendered anew, and it cannot be. -/
def Unrenderable (store : Store) (schema : Schema) (s : StoreState) (d : Definition) : Prop :=
  isCurrent schema.name s.cache (entriesAt s.tree (store.livePlace schema.name)) d = false ∧
    ∃ e, store.encoder d.kind.word (Artifact.scope schema d) = .error e

variable {store : Store} {schema : Schema} {s s' : StoreState} {d : Definition}

theorem Untouched.refl (store : Store) (s : StoreState) : store.Untouched s s where
  cache := rfl
  tree := fun _ => .inl rfl

theorem openRoot_untouched (store : Store) (s : StoreState) :
    store.Untouched s (Storing.after store.openRoot s) := by
  rw [after_openRoot]
  exact ⟨rfl, contentAt_grown s.tree _ []⟩

theorem Untouched.isCurrent_eq (h : store.Untouched s s') (name : String) (place : List String) :
    isCurrent name s'.cache (entriesAt s'.tree place) d =
      isCurrent name s.cache (entriesAt s.tree place) d := by
  have hfile (t : FileTree) : ((entriesAt t place).get? (Artifact.fileName d.name)).any isFile =
      (t.contentAt (place ++ [Artifact.fileName d.name])).any Option.isSome := by
    rw [get?_entriesAt, contentAt]
    cases t.at? (place ++ [Artifact.fileName d.name]) with
    | none => rfl
    | some u => cases u <;> rfl
  rw [isCurrent, isCurrent, h.cache, hfile, hfile]
  rcases h.tree (place ++ [Artifact.fileName d.name]) with hsame | ⟨-, hnone, hnew⟩
  · rw [hsame]
  · rw [hnone, hnew]
    rfl

theorem Unrenderable.of_untouched (hd : store.Unrenderable schema s d)
    (h : store.Untouched s s') : store.Unrenderable schema s' d :=
  ⟨(h.isCurrent_eq _ _).trans hd.1, hd.2⟩

theorem draft_of_unrenderable {cache : SignatureCache} {es : Dict FileTree}
    (hcurrent : isCurrent schema.name cache es d = false)
    (hrender : ∃ e, store.encoder d.kind.word (Artifact.scope schema d) = .error e)
    (hmem : d ∈ schema.definitions.values) : ∃ e, store.draft schema cache es = .error e := by
  obtain ⟨e, he⟩ := hrender
  cases hdraft : store.draft schema cache es with
  | error e => exact ⟨e, rfl⟩
  | ok draft =>
    obtain ⟨o, ho, rfl⟩ := exists_outcome hdraft hmem
    rcases outcome_cases hdraft ho with ⟨hkept, -⟩ | ⟨-, text, hrender, -⟩
    · rw [hcurrent] at hkept
      cases hkept
    · rw [he] at hrender
      cases hrender

/-- Storing a schema of which some artifact cannot be rendered. -/
theorem persist_untouched (hschema : schema.Named) (hmem : d ∈ schema.definitions.values)
    (hd : store.Unrenderable schema s d) :
    ∃ e s', store.persist schema s = .error e s' ∧ store.Untouched s s' := by
  have huntouched := openRoot_untouched store s
  cases hopen : store.openRoot s with
  | error e opened =>
    rw [Storing.after_of_error hopen] at huntouched
    exact ⟨e, opened, by rw [persist, bind_apply, hopen], huntouched⟩
  | ok u opened =>
    rw [Storing.after_of_ok hopen] at huntouched
    -- The artifact is not current in an empty folder either, where the live one cannot be copied.
    obtain ⟨e, s', hstage, hcache, htree⟩ := stage_error (s := opened) hschema fun es hes => by
      obtain ⟨hcurrent, hrender⟩ := hd.of_untouched huntouched
      refine draft_of_unrenderable ?_ hrender hmem
      rcases hes with rfl | rfl
      · rw [isCurrent, Dict.get?_empty, Option.any_none, Bool.and_false]
      · exact hcurrent
    refine ⟨e, s', ?_, hcache.trans huntouched.cache, fun place => ?_⟩
    · rw [persist, bind_apply, hopen]
      dsimp only
      rw [bind_apply, hstage]
    · rw [htree]
      exact huntouched.tree place

end Store

namespace Project

variable {p : Project} {t : FileTree} {name : String} {schema : Schema}

theorem compile_named (h : p.compile t name = .ok schema) : schema.Named := by
  rw [compile] at h
  split at h
  · cases h
  · obtain ⟨models, hassembled⟩ := Builder.exists_assembled h
    exact hassembled.toNamed

/-- A build fails, and leaves everything as it was, if its schema cannot be compiled, or if one of the
artifacts that are not up to date cannot be rendered. -/
theorem build_untouched (p : Project) (name : String) (s : StoreState)
    (h : (∃ e, p.compile s.tree name = .error e) ∨
      ∃ schema, p.compile s.tree name = .ok schema ∧
        ∃ d ∈ schema.definitions.values, p.store.Unrenderable schema s d) :
    ∃ e s', p.build name s = .error e s' ∧ p.store.Untouched s s' := by
  rcases h with ⟨e, he⟩ | ⟨schema, hschema, d, hmem, hd⟩
  · refine ⟨e, s, ?_, .refl _ s⟩
    rw [build, he]
  · obtain ⟨e, s', hpersist, huntouched⟩ := Store.persist_untouched (compile_named hschema) hmem hd
    refine ⟨e, s', ?_, huntouched⟩
    rw [build, hschema]
    exact hpersist

section Example

/-- A project whose templates lack the one for scalars. -/
def scalarless : Project where
  located := ⟨{ schemas := .ofList [("default", ["gql"])] }, "/work"⟩
  index := ⟨.empty, [], []⟩
  registry := .withBuiltins
  templates := ⟨TemplateLibrary.builtin.templates.erase "scalar"⟩

/-- An enum, which is rendered first, and a scalar; a schema of another name is stored already. -/
def scalarlessState : StoreState where
  tree := .folder (.ofList [("work", .folder (.ofList [
    ("generated", .folder (.ofList [("graphql", .folder (.ofList [
      ("other", .folder (.ofList [("__registry.json", .file "\x7b\x7d")]))]))])),
    ("gql", .folder (.ofList [
      ("enums.json", .file "\x7b\"Color\": \x7b\"values\": [\"RED\"]\x7d\x7d"),
      ("scalars.json", .file "\x7b\"Date\": \x7b\x7d\x7d")]))]))])
  cache := .inMemory

theorem build_untouched_scalarless : ∃ schema e s',
    scalarless.compile scalarlessState.tree "default" = .ok schema ∧
    scalarless.build "default" scalarlessState = .error e s' ∧
    scalarless.store.Untouched scalarlessState s' := by
  have hcheck : (scalarless.compile scalarlessState.tree "default").toOption.any (fun schema =>
      schema.definitions.values.any fun d =>
        !Store.isCurrent schema.name scalarlessState.cache
          (Store.entriesAt scalarlessState.tree (scalarless.store.livePlace schema.name)) d &&
        !(scalarless.store.encoder d.kind.word (Artifact.scope schema d)).isOk) = true := by
    decide +kernel
  cases hcompile : scalarless.compile scalarlessState.tree "default" with
  | error e =>
    rw [hcompile] at hcheck
    cases hcheck
  | ok schema =>
    rw [hcompile] at hcheck
    obtain ⟨d, hmem, hd⟩ := List.any_eq_true.mp hcheck
    obtain ⟨hcurrent, hrender⟩ := Bool.and_eq_true_iff.mp hd
    have hfails : ∃ e, scalarless.store.encoder d.kind.word (Artifact.scope schema d) = .error e := by
      cases hresult : scalarless.store.encoder d.kind.word (Artifact.scope schema d) with
      | error e => exact ⟨e, rfl⟩
      | ok text =>
        rw [hresult] at hrender
        cases hrender
    obtain ⟨e, s', hbuild, huntouched⟩ := build_untouched scalarless "default" scalarlessState
      (.inr ⟨schema, hcompile, d, hmem, by simpa using hcurrent, hfails⟩)
    exact ⟨schema, e, s', rfl, hbuild, huntouched⟩

end Example

end Project

end ClassSchema
