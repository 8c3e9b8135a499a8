import ClassSchema.Proofs.Build.Origins

/-!
# Primaries by site

Without the decisions, the primary of a field would depend on its own site alone. With them it still does,
unless a root section declares a field that a model of a class has too and both are left to discovery: then
the section's field takes over what was found for the model.
-/

namespace ClassSchema

theorem TypeSettings.sorted_fields {v : Value} {t : TypeSettings}
    (h : TypeSettings.decode v = some t) : t.fields.Sorted := by
  simp only [TypeSettings.decode, Option.bind_eq_bind, Option.bind_eq_some_iff, Option.pure_def,
    Option.some.injEq] at h
  obtain ⟨fields, -, description, -, interfaces, -, found, hfound, rfl⟩ := h
  rw [Dict.defaulted] at hfound
  split at hfound
  · obtain rfl := Option.some.inj hfound
    exact Dict.sorted_empty
  · exact (Value.asDict_some hfound).1

namespace Builder

theorem declared_ok {α : Type} {settings : Settings} {decode : Value → Option α} {name : String}
    {entries : List (String × α)} (h : declared settings decode name = .ok entries) :
    ∃ d, settings.sectionOr (Value.asDict decode) name .empty = .ok d ∧ d.entries = entries := by
  rw [declared] at h
  split at h
  · cases h
  · next d hd => exact ⟨d, hd, Except.ok.inj h⟩

/-- The stages of an assembly, with the sections that are read on the way. -/
theorem assemble_stages {bindings : Bindings} {name : String} {settings : Settings}
    {models : List Model} {s : Schema} {d d' : Decisions}
    (h : assemble bindings name settings models d = .ok s d') :
    ∃ (types : Dict TypeSettings) (queries mutations : Dict FieldSettings) (s₁ s₂ s₃ s₄ : Schema)
      (d₁ d₂ d₃ : Decisions),
      (settings.sectionOr (Value.asDict TypeSettings.decode) "types" .empty = .ok types ∧
        settings.sectionOr (Value.asDict FieldSettings.decode) "queries" .empty = .ok queries ∧
        settings.sectionOr (Value.asDict FieldSettings.decode) "mutations" .empty = .ok mutations) ∧
      models.foldlM (addModel bindings settings (exposedTypes models)) (Schema.new name) d =
        .ok s₁ d₁ ∧
      addPlain settings s₁ = .ok s₂ ∧
      types.entries.foldlM (addType bindings) s₂ d₁ = .ok s₃ d₂ ∧
      queries.entries.foldlM (addRootField bindings queryType) s₃ d₂ = .ok s₄ d₃ ∧
      mutations.entries.foldlM (addRootField bindings mutationType) s₄ d₃ = .ok s d' := by
  obtain ⟨s₁, d₁, hmodels, h⟩ := bind_ok_iff.mp h
  obtain ⟨s₂, hplain, h⟩ := Deciding.ofExcept_bind_ok_iff.mp h
  obtain ⟨s₅, d₄, hresolved, h⟩ := bind_ok_iff.mp h
  obtain ⟨-, -, h⟩ := Deciding.ofExcept_bind_ok_iff.mp h
  obtain ⟨rfl, rfl⟩ := EStateM.Result.ok.inj h
  obtain ⟨_, hdeclared, hresolved⟩ := Deciding.ofExcept_bind_ok_iff.mp hresolved
  obtain ⟨types, htypes, rfl⟩ := declared_ok hdeclared
  obtain ⟨s₃, d₂, hs₃, hqueried⟩ := bind_ok_iff.mp hresolved
  obtain ⟨_, hdeclared, hqueried⟩ := Deciding.ofExcept_bind_ok_iff.mp hqueried
  obtain ⟨queries, hqueries, rfl⟩ := declared_ok hdeclared
  obtain ⟨s₄, d₃, hs₄, hmutated⟩ := bind_ok_iff.mp hqueried
  obtain ⟨_, hdeclared, hs₅⟩ := Deciding.ofExcept_bind_ok_iff.mp hmutated
  obtain ⟨mutations, hmutations, rfl⟩ := declared_ok hdeclared
  exact ⟨types, queries, mutations, s₁, s₂, s₃, s₄, d₁, d₂, d₃, ⟨htypes, hqueries, hmutations⟩,
    hmodels, hplain, hs₃, hs₄, hs₅⟩

/-- What a build works with: its bindings, the settings with all layers in place, the models of the exposed
classes, and the sections that declare fields. -/
structure Workings (b : Builder) (ctx : Context) where
  bindings : Bindings
  settings : Settings
  models : List Model
  types : Dict TypeSettings
  queries : Dict FieldSettings
  mutations : Dict FieldSettings
  bindings_ok : b.bindings ctx.settings = .ok bindings
  load_ok : ∃ classes, BulkLoad.apply b.scene b.index ctx.settings = (.ok classes, settings) ∧
    classes.map (b.build ctx).2.models.get? = models.map some
  types_ok : settings.sectionOr (Value.asDict TypeSettings.decode) "types" .empty = .ok types
  queries_ok : settings.sectionOr (Value.asDict FieldSettings.decode) "queries" .empty = .ok queries
  mutations_ok :
    settings.sectionOr (Value.asDict FieldSettings.decode) "mutations" .empty = .ok mutations

namespace Workings

variable {b : Builder} {ctx : Context} (w : b.Workings ctx)

/-- Where a field of a root section comes from. -/
def rootOrigin (type name : String) : Option Origin :=
  ((if type = queryType then w.queries.get? name else none).or
    (if type = mutationType then w.mutations.get? name else none)).map (⟨none, ·⟩)

/-- Where a field of a model or of a declared type comes from. -/
def ownOrigin (type name : String) : Option Origin :=
  (w.models.findSome? (modelOrigin w.settings (exposedTypes w.models) type name)).or
    ((w.types.get? type).bind fun t => (t.fields.get? name).map (⟨none, ·⟩))

/-- Root sections go over what is there. -/
def origin (type name : String) : Option Origin := (w.rootOrigin type name).or (w.ownOrigin type name)

/-- Every field is bound to the primary that its own site determines, generated operations aside. -/
structure OwnPrimaries (s : Schema) : Prop where
  sited : ∀ type name o f g, s.get? type = some (.object o) → o.fields.get? name = some f →
    w.origin type name = some g →
      ∃ p, f.resolver = some p ∧ g.primary w.bindings type name = .ok p.reference
  generated : ∀ type name o f, s.get? type = some (.object o) → o.fields.get? name = some f →
    w.origin type name = none → Generated w.bindings w.settings w.models type f

/-- Where a root section declares a field that is there already and both are left to discovery, both find the
same. -/
def RootsAgree : Prop := ∀ type name above below, w.rootOrigin type name = some above →
  w.ownOrigin type name = some below → above.explicit name = .ok none →
    below.explicit name = .ok none →
      above.primary w.bindings type name = below.primary w.bindings type name

theorem settings_eq : w.settings = (BulkLoad.apply b.scene b.index ctx.settings).2 := by
  obtain ⟨classes, hload, -⟩ := w.load_ok
  rw [hload]

theorem assemble_ok {s : Schema} (h : (b.build ctx).1 = .ok s) :
    ∃ d, assemble w.bindings ctx.name w.settings w.models ctx.decisions = .ok s d := by
  obtain ⟨classes, hload, hmodels⟩ := w.load_ok
  rw [build, w.bindings_ok] at h hmodels
  simp only [hload] at h hmodels
  split at h
  · cases h
  · next made models hmade =>
    simp only [hmade] at hmodels
    split at h
    · cases h
    · next s' d hassemble =>
      simp only [hassemble] at hmodels
      obtain rfl := Except.ok.inj h
      have hsame : made = w.models := by
        rw [(get?_modelAll hmade).2] at hmodels
        exact List.map_inj_right (fun _ _ h => Option.some.inj h) |>.mp hmodels
      exact ⟨d, hsame ▸ hassemble⟩

theorem nonempty_of_build {s : Schema} (h : (b.build ctx).1 = .ok s) : Nonempty (b.Workings ctx) := by
  cases hbindings : b.bindings ctx.settings with
  | error e => simp [build, hbindings] at h
  | ok bindings =>
    cases hload : BulkLoad.apply b.scene b.index ctx.settings with
    | mk loaded settings =>
      cases loaded with
      | error e => simp [build, hbindings, hload] at h
      | ok classes =>
        cases hmade : b.modelAll settings classes ctx.models with
        | mk made models =>
          cases made with
          | error e => simp [build, hbindings, hload, hmade] at h
          | ok made =>
            cases hassemble : assemble bindings ctx.name settings made ctx.decisions with
            | error e d => simp [build, hbindings, hload, hmade, hassemble] at h
            | ok s' d =>
              obtain ⟨types, queries, mutations, -, -, -, -, -, -, -,
                ⟨htypes, hqueries, hmutations⟩, -⟩ := assemble_stages hassemble
              have hmodels : (b.build ctx).2.models = models := by
                simp [build, hbindings, hload, hmade, hassemble]
              exact ⟨⟨bindings, settings, made, types, queries, mutations, hbindings,
                ⟨classes, hload, hmodels ▸ (get?_modelAll hmade).2⟩, htypes, hqueries, hmutations⟩⟩

theorem ownOrigin_eq (type name : String) : w.ownOrigin type name =
    (w.models.findSome? (modelOrigin w.settings (exposedTypes w.models) type name)).or
      (w.types.entries.findSome? (typeOrigin type name)) := by
  have hentries := (Settings.sectionOr_asDict w.types_ok).1.findSome?_entries type
    fun t => (t.fields.get? name).map fun s => Origin.mk none s
  rw [ownOrigin, ← hentries]
  rfl

theorem origin_eq (type name : String) : w.origin type name =
    (sectionOrigin mutationType w.mutations.entries type name).or
      ((sectionOrigin queryType w.queries.entries type name).or (w.ownOrigin type name)) := by
  have hqueries := (Settings.sectionOr_asDict w.queries_ok).1
  have hmutations := (Settings.sectionOr_asDict w.mutations_ok).1
  have hroots : queryType ≠ mutationType := by decide
  rw [sectionOrigin, sectionOrigin, ← Dict.get?_ofList, ← Dict.get?_ofList, hqueries.ofList_entries,
    hmutations.ofList_entries, origin, rootOrigin]
  by_cases hquery : type = queryType
  · simp [hquery, hroots]
  · simp [hquery]

/-- What was decided for a schema: all fields are bound by their origins, fields that are there before the
root sections have decisions of their own, and all later decisions know no model. -/
structure Decided (s : Schema) (d : Decisions) : Prop where
  traced : s.Traced (Generated w.bindings w.settings w.models) w.origin d
  own : ∀ type name g, w.ownOrigin type name = some g → g.explicit name = .ok none →
    ∃ r, d.get? type name = some r ∧ g.primary w.bindings type name = .ok r
  made : ∀ type name r, d.get? type name = some r →
    (∃ g, w.ownOrigin type name = some g ∧ g.Decides w.bindings type name r) ∨
      Modelless w.bindings type name r

theorem decided_build {s : Schema} (hfresh : ctx.decisions = []) (h : (b.build ctx).1 = .ok s) :
    ∃ d, w.Decided s d := by
  obtain ⟨d, hassemble⟩ := w.assemble_ok h
  obtain ⟨types, queries, mutations, s₁, s₂, s₃, s₄, d₁, d₂, d₃, ⟨htypes, hqueries, hmutations⟩,
    hmodels, hplain, hs₃, hs₄, hs₅⟩ := assemble_stages hassemble
  obtain rfl : types = w.types := Except.ok.inj (htypes.symm.trans w.types_ok)
  obtain rfl : queries = w.queries := Except.ok.inj (hqueries.symm.trans w.queries_ok)
  obtain rfl : mutations = w.mutations := Except.ok.inj (hmutations.symm.trans w.mutations_ok)
  have hnone : ctx.decisions.Sited w.bindings fun _ _ => none := by
    rw [hfresh]
    intro type name r hr
    cases hr
  obtain ⟨ht₁, hd₁⟩ := foldlM_traced (fun m hm _ _ _ _ _ ht hd hadd => addModel_ok hm ht hd hadd)
    (Schema.traced_new ctx.name (Generated w.bindings w.settings w.models) ctx.decisions) hnone hmodels
  have ht₂ := ht₁.congr (sameObjects_addPlain hplain)
  have hfields : ∀ e ∈ w.types.entries, e.2.fields.Sorted := by
    intro e he
    obtain ⟨v, hv⟩ := (Settings.sectionOr_asDict w.types_ok).2 e he
    exact TypeSettings.sorted_fields hv
  obtain ⟨ht₃, hd₂⟩ := foldlM_traced
    (fun e he _ _ _ _ _ ht hd hadd => addType_ok (hfields e he) ht hd hadd) ht₂ hd₁ hs₃
  simp only [Option.none_or, ← w.ownOrigin_eq] at ht₃ hd₂
  obtain ⟨ht₄, hadds₄⟩ := addRootFields_ok ht₃ hs₄
  obtain ⟨ht₅, hadds₅⟩ := addRootFields_ok ht₄ hs₅
  simp only [← w.origin_eq] at ht₅
  have hadds := hadds₄.trans hadds₅
  refine ⟨d, ht₅, ?_, ?_⟩
  · intro type name g hg hleft
    obtain ⟨-, -, -, -, p, explicit, -, hexplicit, hr⟩ := ht₃.present type name g hg
    obtain rfl : explicit = none := by
      rw [hleft] at hexplicit
      exact (Except.ok.inj hexplicit).symm
    obtain ⟨g', hg', -, hprimary⟩ := hd₂ type name p.reference hr
    obtain rfl : g' = g := Option.some.inj (hg'.symm.trans hg)
    exact ⟨p.reference, hadds.kept type name _ hr, hprimary⟩
  · intro type name r hr
    exact (hadds.made type name r hr).imp_left (hd₂ type name r)

theorem primary_congr {g g' : Origin} {name : String} (hg : g.explicit name = .ok none)
    (hg' : g'.explicit name = .ok none) (hmodel : g.model = g'.model) (bindings : Bindings)
    (type : String) : g.primary bindings type name = g'.primary bindings type name := by
  rw [Origin.primary_of_left hg, Origin.primary_of_left hg', Origin.found, Origin.found, hmodel]

theorem model_of_rootOrigin {type name : String} {g : Origin} (h : w.rootOrigin type name = some g) :
    g.model = none := by
  obtain ⟨s, -, rfl⟩ := Option.map_eq_some_iff.mp h
  rfl

theorem Decided.rootsAgree {s : Schema} {d : Decisions} (h : w.Decided s d) (hprimaries : w.OwnPrimaries s) :
    w.RootsAgree := by
  intro type name above below habove hbelow hleft hleftBelow
  have horigin : w.origin type name = some above := by rw [origin, habove]; rfl
  obtain ⟨o, f, ho, hf, p, explicit, hp, hexplicit, hr⟩ := h.traced.present type name above horigin
  obtain ⟨p', hp', hprimary⟩ := hprimaries.sited type name o f above ho hf horigin
  obtain rfl : p' = p := Option.some.inj (hp'.symm.trans hp)
  obtain rfl : explicit = none := Except.ok.inj (hexplicit.symm.trans hleft)
  obtain ⟨r, hdecision, hprimaryBelow⟩ := h.own type name below hbelow hleftBelow
  obtain rfl : r = p'.reference := Option.some.inj (hdecision.symm.trans hr)
  rw [hprimary, hprimaryBelow]

theorem Decided.primary_eq {s : Schema} {d : Decisions} (h : w.Decided s d) (hagree : w.RootsAgree)
    {type name : String} {g : Origin} {r : Reference} (hg : w.origin type name = some g)
    (hleft : g.explicit name = .ok none) (hr : d.get? type name = some r) :
    g.primary w.bindings type name = .ok r := by
  cases hroot : w.rootOrigin type name with
  | none =>
    rw [origin, hroot, Option.none_or] at hg
    obtain ⟨r', hdecision, hprimary⟩ := h.own type name g hg hleft
    obtain rfl : r' = r := Option.some.inj (hdecision.symm.trans hr)
    exact hprimary
  | some above =>
    obtain rfl : above = g := by
      rw [origin, hroot, Option.some_or] at hg
      exact Option.some.inj hg
    rcases h.made type name r hr with ⟨below, hbelow, hleftBelow, hprimary⟩ |
      ⟨other, hmodel, hleftOther, hprimary⟩
    · rw [hagree type name above below hroot hbelow hleft hleftBelow, hprimary]
    · rw [← hprimary]
      exact primary_congr hleft hleftOther ((w.model_of_rootOrigin hroot).trans hmodel.symm) _ _

theorem Decided.ownPrimaries {s : Schema} {d : Decisions} (h : w.Decided s d) (hagree : w.RootsAgree) :
    w.OwnPrimaries s where
  sited := by
    intro type name o f g ho hf hg
    obtain ⟨o', f', ho', hf', p, explicit, hp, hexplicit, hr⟩ := h.traced.present type name g hg
    obtain rfl : o' = o := by simpa [ho'] using ho
    obtain rfl : f' = f := Option.some.inj (hf'.symm.trans hf)
    refine ⟨p, hp, ?_⟩
    cases explicit with
    | some r =>
      rw [Origin.primary, hexplicit]
      exact congrArg Except.ok (Option.some.inj hr)
    | none => exact h.primary_eq w hagree hg hexplicit hr
  generated := by
    intro type name o f ho hf hnone
    rcases h.traced.covered type name o f ho hf with hsome | hgenerated
    · rw [hnone] at hsome
      cases hsome
    · exact hgenerated

end Workings

/-- In a build that starts without decisions, every field gets the primary that its own site determines just
when the root sections agree with what they go over. -/
theorem build_ownPrimaries_iff (b : Builder) (ctx : Context) (s : Schema) (hfresh : ctx.decisions = [])
    (h : (b.build ctx).1 = .ok s) : Nonempty (b.Workings ctx) ∧
      ∀ w : b.Workings ctx, w.OwnPrimaries s ↔ w.RootsAgree := by
  refine ⟨Workings.nonempty_of_build h, fun w => ?_⟩
  obtain ⟨d, hdecided⟩ := w.decided_build hfresh h
  exact ⟨hdecided.rootsAgree w, hdecided.ownPrimaries w⟩

section Example

/-- A class of the name of a root type. -/
def siteIndex : Index where
  descriptors := .ofList [("Query", ⟨"Query", .ordinary, none, [], false, none,
    .ofList [("title", .short "String")], "query.json"⟩)]
  implicitMarkers := []
  edges := []

/-- The provider has a function for titles of entities, which the convention finds for models only. -/
def siteBuilder : Builder where
  index := siteIndex
  scene := ⟨.builtin, "/", .emptyFolder⟩
  registry := Registry.withBuiltins.register
    ((Provider.new "App").withPrimary "resolveEntityTitle" Builtin.resolve)
  makers := [Entity.maker siteIndex]

/-- The section of queries declares the field that the model has. -/
def siteContext (more : List (String × Value)) : Context :=
  .ofSettings "site" (.ofList [
    ("resolvers", .strings ["App"]),
    ("defaultResolver", .string "Builtin::resolve"),
    ("models", .ofPairs [("Query", .table .empty)]),
    ("queries", .ofPairs [("title", .ofPairs (("type", .string "String") :: more))])])

/-- The reference of the title, as text. -/
def titleReference (s : Schema) : Option String :=
  (s.object? "Query").bind fun o => (o.fields.get? "title").bind fun f =>
    f.resolver.map (·.reference.text)

/-- A resolver of its own for the field of the section. -/
def explicitContext : Context := siteContext [("resolver", .string "Builtin::resolve")]

theorem rootsAgree_explicit (w : siteBuilder.Workings explicitContext) : w.RootsAgree := by
  have hqueries : (((BulkLoad.apply siteBuilder.scene siteBuilder.index
      explicitContext.settings).2.sectionOr (Value.asDict FieldSettings.decode) "queries"
        .empty).toOption.map fun queries => queries.entries.all fun e =>
          e.2.explicitResolver.toOption ≠ some none) = some true := by
    decide +kernel
  have hmutations : (((BulkLoad.apply siteBuilder.scene siteBuilder.index
      explicitContext.settings).2.sectionOr (Value.asDict FieldSettings.decode) "mutations"
        .empty).toOption.map fun mutations => mutations.entries.isEmpty) = some true := by
    decide +kernel
  rw [← w.settings_eq, w.queries_ok] at hqueries
  rw [← w.settings_eq, w.mutations_ok] at hmutations
  have hnamed := List.all_eq_true.mp (Option.some.inj hqueries)
  have hnone : w.mutations.entries = [] := List.isEmpty_iff.mp (Option.some.inj hmutations)
  intro type name above below habove _ hleft
  obtain ⟨e, he, rfl⟩ := Option.map_eq_some_iff.mp habove
  rcases Option.or_eq_some_iff.mp he with he | ⟨-, he⟩
  · split at he
    · have hmem := hnamed (name, e) (Dict.mem_of_lookup he)
      rw [Origin.explicit] at hleft
      cases hexplicit : e.explicitResolver with
      | error fault => simp [hexplicit] at hleft
      | ok named => simp_all [Except.toOption]
    · cases he
  · split at he
    · have hmem := Dict.mem_of_lookup he
      rw [hnone] at hmem
      cases hmem
    · cases he

theorem build_ownPrimaries_explicit : ∃ s, explicitContext.decisions = [] ∧
    (siteBuilder.build explicitContext).1 = .ok s ∧ titleReference s = some "Builtin::resolve" ∧
    Nonempty (siteBuilder.Workings explicitContext) ∧
    ∀ w : siteBuilder.Workings explicitContext, w.OwnPrimaries s := by
  have htitle : (siteBuilder.build explicitContext).1.toOption.map titleReference =
      some (some "Builtin::resolve") := by
    decide +kernel
  obtain ⟨s, hs, htitle⟩ := Option.map_eq_some_iff.mp htitle
  have hbuild := eq_ok_of_toOption hs
  obtain ⟨hworkings, hiff⟩ := build_ownPrimaries_iff siteBuilder explicitContext s rfl hbuild
  exact ⟨s, rfl, hbuild, htitle, hworkings, fun w => (hiff w).mpr (rootsAgree_explicit w)⟩

/-- What is found for the field of a model is taken over by the section of queries, whose own field would get
the default. -/
theorem not_ownPrimaries_site : ¬ ∀ (b : Builder) (ctx : Context) (s : Schema), ctx.decisions = [] →
    (b.build ctx).1 = .ok s → ∀ w : b.Workings ctx, w.OwnPrimaries s := by
  intro hall
  have htitle : (siteBuilder.build (siteContext [])).1.toOption.map titleReference =
      some (some "App::resolveEntityTitle") := by
    decide +kernel
  obtain ⟨s, hs, htitle⟩ := Option.map_eq_some_iff.mp htitle
  have hbuild := eq_ok_of_toOption hs
  obtain ⟨w⟩ := Workings.nonempty_of_build hbuild
  have hown := hall siteBuilder (siteContext []) s rfl hbuild w
  have hqueries : (((BulkLoad.apply siteBuilder.scene siteBuilder.index
      (siteContext []).settings).2.sectionOr (Value.asDict FieldSettings.decode) "queries"
        .empty).toOption.map fun queries => (queries.get? "title").map fun e =>
          e.explicitResolver.toOption) = some (some (some none)) := by
    decide +kernel
  have hfound : ((siteBuilder.bindings (siteContext []).settings).toOption.map fun bindings =>
      (Origin.found ⟨none, {}⟩ bindings "Query" "title").toOption.map Reference.text) =
        some (some "Builtin::resolve") := by
    decide +kernel
  rw [← w.settings_eq, w.queries_ok] at hqueries
  rw [w.bindings_ok] at hfound
  obtain ⟨e, he, hleft⟩ := Option.map_eq_some_iff.mp (Option.some.inj hqueries)
  obtain ⟨r, hr, htext⟩ := Option.map_eq_some_iff.mp (Option.some.inj hfound)
  obtain ⟨o, ho, hfield⟩ := Option.bind_eq_some_iff.mp htitle
  obtain ⟨f, hf, hresolver⟩ := Option.bind_eq_some_iff.mp hfield
  obtain ⟨p, hp, hreference⟩ := Option.map_eq_some_iff.mp hresolver
  have hobject : s.get? "Query" = some (.object o) := by
    rw [Schema.object?] at ho
    split at ho
    · next o' ho' => rw [ho', Option.some.inj ho]
    · cases ho
  have horigin : w.origin "Query" "title" = some ⟨none, e⟩ := by
    simp [Workings.origin, Workings.rootOrigin, queryType, he]
  obtain ⟨p', hp', hprimary⟩ := hown.sited "Query" "title" o f _ hobject hf horigin
  obtain rfl : p' = p := Option.some.inj (hp'.symm.trans hp)
  have hexplicit : Origin.explicit ⟨none, e⟩ "title" = .ok none := by
    simp [Origin.explicit, eq_ok_of_toOption hleft]
  rw [Origin.primary_of_left hexplicit] at hprimary
  have hsame : r = p'.reference := Except.ok.inj ((eq_ok_of_toOption hr).symm.trans hprimary)
  rw [hsame, hreference] at htext
  exact absurd htext (by decide)

end Example

end Builder

end ClassSchema
