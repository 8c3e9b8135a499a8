import ClassSchema.Proofs.Build.Bound
import ClassSchema.Proofs.Related

/-!
# Models alike

Two models may differ in what their fields refer to, where neither reference leads to a type of the schema:
the fields are left out in either case. Builds that make such models of the same classes give the same.
-/

namespace ClassSchema

variable {u v : String}

/-- The same field, unless it refers to `u` in the one and to `v` in the other. -/
structure ModelField.Alike (u v : String) (f f' : ModelField) : Prop where
  description : f.description = f'.description
  args : f.args = f'.args
  resolver : f.resolver = f'.resolver
  type : f.type = f'.type ∧ f.target = f'.target ∨ f.target = some u ∧ f'.target = some v

/-- The same model, but for fields that refer to `u` in the one and to `v` in the other. -/
structure Model.Alike (u v : String) (m m' : Model) : Prop where
  className : m.className = m'.className
  identifier : m.identifier = m'.identifier
  typeName : m.typeName = m'.typeName
  description : m.description = m'.description
  fields : m.fields.Related (ModelField.Alike u v) m'.fields
  defaultResolver : m.defaultResolver = m'.defaultResolver

theorem Model.alike_refl (m : Model) : m.Alike u v m :=
  ⟨rfl, rfl, rfl, rfl, Dict.related_refl (fun _ => ⟨rfl, rfl, rfl, .inl ⟨rfl, rfl⟩⟩) _, rfl⟩

/-! ## What a build makes of alike models -/

section Steps

variable {b : Bindings} {settings : Settings} {exposed : Dict String} {m m' : Model}
  {models models' : List Model}

namespace Model.Alike

theorem fieldType_eq (h : m.Alike u v m') (hu : exposed.contains u = false)
    (hv : exposed.contains v = false) (name : String) (s : FieldSettings) :
    m.fieldType exposed name s = m'.fieldType exposed name s := by
  rw [Model.fieldType, Model.fieldType]
  cases s.type with
  | some t => rfl
  | none =>
    rcases h.fields.get? name with ⟨hnone, hnone'⟩ | ⟨f, f', hsome, hsome', hf⟩
    · rw [hnone, hnone']
      dsimp only
      rw [h.className, h.fields.keys_eq]
    · rw [hsome, hsome']
      dsimp only
      rcases hf.type with ⟨htype, htarget⟩ | ⟨htarget, htarget'⟩
      · rw [htype, htarget]
      · simp only [htarget, htarget', hu, hv]
        rfl

theorem primary_eq (h : m.Alike u v m') (type name : String) (explicit : Option Reference) :
    b.primary type name (some m) explicit = b.primary type name (some m') explicit := by
  simp only [Bindings.primary, Option.map_some, Option.bind_some, h.identifier, h.defaultResolver]

theorem field_eq (h : m.Alike u v m') (hu : exposed.contains u = false) (hv : exposed.contains v = false)
    (name : String) (s : FieldSettings) : m.field b exposed name s = m'.field b exposed name s := by
  simp only [Model.field, h.fieldType_eq hu hv, h.typeName, h.primary_eq]
  rcases h.fields.get? name with ⟨hnone, hnone'⟩ | ⟨f, f', hsome, hsome', hf⟩
  · rw [hnone, hnone']
  · simp only [hsome, hsome', Option.bind_some, Option.map_some, hf.resolver, hf.description, hf.args]

theorem objectType_eq (h : m.Alike u v m') (hu : exposed.contains u = false)
    (hv : exposed.contains v = false) (own : ModelSettings) :
    m.objectType b own exposed = m'.objectType b own exposed := by
  simp only [Model.objectType, h.field_eq hu hv, h.fields.keys_eq, h.className, h.typeName, h.description]

end Model.Alike

namespace Builder

theorem addModel_eq (h : m.Alike u v m') (hu : exposed.contains u = false)
    (hv : exposed.contains v = false) (s : Schema) :
    addModel b settings exposed s m = addModel b settings exposed s m' := by
  have hops (ops : List Operation) (s : Schema) :
      Operation.addAll b m ops s = Operation.addAll b m' ops s := by
    simp only [Operation.addAll, Operation.addTo, h.typeName, h.className]
  simp only [addModel, h.objectType_eq hu hv, h.className, hops]

theorem addModels_eq (h : List.Forall₂ (Model.Alike u v) models models')
    (hu : exposed.contains u = false) (hv : exposed.contains v = false) (s : Schema) :
    models.foldlM (addModel b settings exposed) s = models'.foldlM (addModel b settings exposed) s := by
  induction h generalizing s with
  | nil => rfl
  | cons hm _ ih =>
    rw [List.foldlM_cons, List.foldlM_cons, addModel_eq hm hu hv]
    exact congrArg _ (funext ih)

theorem exposedTypes_eq (h : List.Forall₂ (Model.Alike u v) models models') :
    exposedTypes models = exposedTypes models' := by
  have hpairs : models.map (fun m => (m.className, m.typeName)) =
      models'.map fun m => (m.className, m.typeName) := by
    induction h with
    | nil => rfl
    | cons hm _ ih => rw [List.map_cons, List.map_cons, hm.className, hm.typeName, ih]
  rw [exposedTypes, exposedTypes, hpairs]

theorem assemble_eq (h : List.Forall₂ (Model.Alike u v) models models')
    (hu : (exposedTypes models).contains u = false) (hv : (exposedTypes models).contains v = false)
    (name : String) : assemble b name settings models = assemble b name settings models' := by
  rw [assemble, assemble, addModels_eq h hu hv, exposedTypes_eq h]

end Builder

end Steps

/-! ## Two builds -/

namespace Builder

variable {b b' : Builder} {settings : Settings} {classes : List String} {known known' : Dict Model}
  {ctx : Context}

/-- Classes whose models are alike, be they known or made, are modelled alike. -/
theorem modelAll_alike (hknown : known.Related (Model.Alike u v) known')
    (hmade : ∀ c ∈ classes, known.get? c = none →
      Agree (Model.Alike u v) (b.makeModel settings c) (b'.makeModel settings c)) :
    Agree (List.Forall₂ (Model.Alike u v)) (b.modelAll settings classes known).1
      (b'.modelAll settings classes known').1 := by
  induction classes generalizing known known' with
  | nil => exact .ok .nil
  | cons c classes ih =>
    obtain ⟨hfirst, hrest⟩ := List.forall_mem_cons.mp hmade
    rw [modelAll_cons, modelAll_cons]
    rcases hknown.get? c with ⟨hnone, hnone'⟩ | ⟨m, m', hsome, hsome', hm⟩
    · rw [hnone, hnone']
      dsimp only
      rcases (hfirst hnone).elim with ⟨e, hx, hy⟩ | ⟨m, m', hx, hy, hm⟩
      · rw [hx, hy]
        exact .error e
      · rw [hx, hy]
        refine (ih (hknown.insert c hm) fun c' hc' hnew => hrest c' hc' ?_).map
          fun ms ms' hms => .cons hm hms
        rw [Dict.get?_insert] at hnew
        split at hnew
        · cases hnew
        · exact hnew
    · rw [hsome, hsome']
      exact (ih hknown hrest).map fun ms ms' hms => .cons hm hms

theorem makeModel_of_modelAll {ms : List Model}
    (h : b.modelAll settings classes known = (.ok ms, known')) :
    ∀ c ∈ classes, known.get? c = none → ∃ m, b.makeModel settings c = .ok m := by
  induction classes generalizing known ms with
  | nil => exact fun c hc => by cases hc
  | cons first classes ih =>
    obtain ⟨m, rest, rfl, ⟨hm, hrest⟩ | ⟨hnone, hm, hrest⟩⟩ := modelAll_cons_ok h
    · refine List.forall_mem_cons.mpr ⟨fun hnone => ?_, ih hrest⟩
      rw [hm] at hnone
      cases hnone
    · refine List.forall_mem_cons.mpr ⟨fun _ => ⟨m, hm⟩, fun c hc hc' => ?_⟩
      by_cases hfirst : c = first
      · exact ⟨m, hfirst ▸ hm⟩
      · exact ih hrest c hc (by rw [Dict.get?_insert, if_neg hfirst, hc'])

/-- Models are filed under their own classes. -/
def Filed (known : Dict Model) : Prop := ∀ c m, known.get? c = some m → m.className = c

theorem Filed.insert (h : Filed known) {m : Model} : Filed (known.insert m.className m) := by
  intro c n hn
  rw [Dict.get?_insert] at hn
  split at hn
  · next hc => rw [← Option.some.inj hn, hc]
  · exact h c n hn

theorem className_modelAll {ms : List Model} (hfiled : Filed known)
    (hmade : ∀ c m, b.makeModel settings c = .ok m → m.className = c)
    (h : b.modelAll settings classes known = (.ok ms, known')) : ms.map Model.className = classes := by
  induction classes generalizing known ms with
  | nil =>
    obtain rfl := Except.ok.inj (Prod.mk.inj h).1
    rfl
  | cons first classes ih =>
    obtain ⟨m, rest, rfl, ⟨hm, hrest⟩ | ⟨-, hm, hrest⟩⟩ := modelAll_cons_ok h
    · rw [List.map_cons, hfiled first m hm, ih hfiled hrest]
    · obtain rfl := hmade first m hm
      rw [List.map_cons, ih hfiled.insert hrest]

theorem Filed.modelAll (h : Filed known)
    (hmade : ∀ c m, b.makeModel settings c = .ok m → m.className = c) :
    Filed (b.modelAll settings classes known).2 := by
  induction classes generalizing known with
  | nil => exact h
  | cons first classes ih =>
    rw [modelAll_cons]
    split
    · exact ih h
    · split
      · exact h
      · next m hm =>
        obtain rfl := hmade first m hm
        exact ih h.insert

theorem filed_build (h : Filed ctx.models)
    (hmade : ∀ settings c m, b.makeModel settings c = .ok m → m.className = c) :
    Filed (b.build ctx).2.models := by
  rw [build]
  cases b.bindings ctx.settings with
  | error e => exact h
  | ok bindings =>
    rcases BulkLoad.apply b.scene b.index ctx.settings with ⟨e | classes, settings⟩
    · exact h
    · have hfiled : Filed (b.modelAll settings classes ctx.models).2 := h.modelAll (hmade settings)
      dsimp only
      rcases hall : b.modelAll settings classes ctx.models with ⟨e | made, models⟩
      · rw [hall] at hfiled
        exact hfiled
      · rw [hall] at hfiled
        dsimp only
        cases assemble bindings ctx.name settings made ctx.decisions <;> exact hfiled

theorem fst_build (b : Builder) (ctx : Context) : (b.build ctx).1 =
    match b.bindings ctx.settings with
    | .error e => .error e
    | .ok bindings =>
      match BulkLoad.apply b.scene b.index ctx.settings with
      | (.error e, _) => .error e
      | (.ok classes, settings) =>
        match (b.modelAll settings classes ctx.models).1 with
        | .error e => .error e
        | .ok made =>
          match assemble bindings ctx.name settings made ctx.decisions with
          | .error e _ => .error e
          | .ok s _ => .ok s := by
  rw [build]
  cases b.bindings ctx.settings with
  | error e => rfl
  | ok bindings =>
    dsimp only
    rcases BulkLoad.apply b.scene b.index ctx.settings with ⟨e | classes, settings⟩
    · rfl
    · dsimp only
      rcases b.modelAll settings classes ctx.models with ⟨e | made, models⟩
      · rfl
      · dsimp only
        cases assemble bindings ctx.name settings made ctx.decisions <;> rfl

/-- Builds that make alike models of the same classes, and none of `u` and `v`, give the same. -/
theorem build_eq_of_alike {b b' : Builder}
    (hbindings : b.bindings ctx.settings = b'.bindings ctx.settings)
    (happly : BulkLoad.apply b.scene b.index ctx.settings = BulkLoad.apply b'.scene b'.index ctx.settings)
    (hmodels : ∀ classes settings,
      BulkLoad.apply b.scene b.index ctx.settings = (.ok classes, settings) →
        Agree (List.Forall₂ (Model.Alike u v)) (b.modelAll settings classes ctx.models).1
          (b'.modelAll settings classes ctx.models).1)
    (hexposed : ∀ classes settings ms,
      BulkLoad.apply b.scene b.index ctx.settings = (.ok classes, settings) →
        (b.modelAll settings classes ctx.models).1 = .ok ms →
          (exposedTypes ms).contains u = false ∧ (exposedTypes ms).contains v = false) :
    (b.build ctx).1 = (b'.build ctx).1 := by
  rw [fst_build, fst_build, ← hbindings, ← happly]
  cases b.bindings ctx.settings with
  | error e => rfl
  | ok bindings =>
    dsimp only
    rcases hload : BulkLoad.apply b.scene b.index ctx.settings with ⟨e | classes, settings⟩
    · rfl
    · dsimp only
      rcases (hmodels classes settings hload).elim with ⟨e, hx, hy⟩ | ⟨ms, ms', hx, hy, hms⟩
      · rw [hx, hy]
      · obtain ⟨hu, hv⟩ := hexposed classes settings ms hload hx
        rw [hx, hy]
        dsimp only
        rw [assemble_eq hms hu hv]

end Builder

end ClassSchema
