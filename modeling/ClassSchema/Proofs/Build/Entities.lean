import ClassSchema.Proofs.Build.Sites

/-!
# Entity models

A model has the fields of its class, those it inherits included, under the same names. A field that refers to
a class gets the type name of that class, in the wrappers it was declared with. The name is found anew for
every model that refers to the class, each time in the same settings, so it is the name of the class's own
model.
-/

namespace ClassSchema

theorem lookup_traverse {α β : Type} {f : String × α → Except Fault (String × β)}
    (hname : ∀ e y, f e = .ok y → y.1 = e.1) {es : List (String × α)} {ys : List (String × β)}
    (h : traverse f es = .ok ys) {key : String} {a : α} (ha : Dict.lookup key es = some a) :
    ∃ b, Dict.lookup key ys = some b ∧ f (key, a) = .ok (key, b) := by
  induction es generalizing ys with
  | nil => cases ha
  | cons e es ih =>
    obtain ⟨name, first⟩ := e
    rw [traverse] at h
    cases hfirst : f (name, first) with
    | error e => simp [hfirst] at h
    | ok y =>
      cases hrest : traverse f es with
      | error e => simp [hfirst, hrest] at h
      | ok ys' =>
        simp only [hfirst, hrest, Except.ok.injEq] at h
        subst h
        obtain ⟨name', b⟩ := y
        obtain rfl : name' = name := hname _ _ hfirst
        by_cases hkey : name' = key
        · subst hkey
          obtain rfl : first = a := by simpa [Dict.lookup] using ha
          exact ⟨b, by simp [Dict.lookup], hfirst⟩
        · simp only [Dict.lookup, hkey, if_false] at ha ⊢
          exact ih hrest ha

namespace Entity

variable {ix : Index} {settings : Settings} {className : String} {m : Model}

theorem fieldType_ok {declared type : String} {target : Option String}
    (h : fieldType ix settings declared = .ok (type, target)) :
    (ix.hasClass (baseType declared) = true ∧ target = some (baseType declared) ∧
        ∃ name, typeName settings (baseType declared) = .ok name ∧ type = rebase declared name) ∨
      (ix.hasClass (baseType declared) = false ∧ target = none ∧ type = trimmed declared) := by
  rw [fieldType] at h
  split at h
  · next hclass =>
    split at h
    · cases h
    · next name hname =>
      obtain ⟨rfl, rfl⟩ := Prod.mk.inj (Except.ok.inj h)
      exact .inl ⟨hclass, rfl, name, hname, rfl⟩
  · next hclass =>
    obtain ⟨rfl, rfl⟩ := Prod.mk.inj (Except.ok.inj h)
    exact .inr ⟨Bool.eq_false_iff.mpr hclass, rfl, rfl⟩

theorem modelField_ok {e : String × FieldSpec} {y : String × ModelField}
    (h : modelField ix settings e = .ok y) :
    y.1 = e.1 ∧ fieldType ix settings e.2.type = .ok (y.2.type, y.2.target) := by
  rw [modelField] at h
  split at h
  · cases h
  · next type target htype =>
    split at h
    · cases h
    · obtain rfl := Except.ok.inj h
      exact ⟨rfl, htype⟩

/-- A model is one of its class if it has its type name and its fields. -/
structure Models (ix : Index) (settings : Settings) (c : String) (m : Model) : Prop where
  className : m.className = c
  typeName : typeName settings c = .ok m.typeName
  keys : m.fields.keys = (ix.fieldsOf c).keys
  field : ∀ name spec, (ix.fieldsOf c).get? name = some spec →
    ∃ f, m.fields.get? name = some f ∧ fieldType ix settings spec.type = .ok (f.type, f.target)

theorem models_of_ok (h : model ix className settings = .ok m) : Models ix settings className m := by
  rw [model] at h
  split at h
  · cases h
  · next fields hfields =>
    split at h
    · cases h
    · split at h
      · cases h
      · next name hname =>
        obtain rfl := Except.ok.inj h
        refine ⟨rfl, hname, ?_, ?_⟩
        · exact (map_eq_map_of_traverse hfields fun e y hy => (modelField_ok hy).1.symm).symm
        · intro name spec hspec
          obtain ⟨f, hf, hmade⟩ := lookup_traverse (fun e y hy => (modelField_ok hy).1) hfields hspec
          exact ⟨f, hf, (modelField_ok hmade).2⟩

theorem Models.get?_eq_none_iff (h : Models ix settings className m) (name : String) :
    m.fields.get? name = none ↔ (ix.fieldsOf className).get? name = none := by
  rw [← not_iff_not, ← ne_eq, ← ne_eq, ← Dict.mem_keys_iff, ← Dict.mem_keys_iff, h.keys]

end Entity

namespace Builder

variable {b : Builder} {ctx : Context} {settings : Settings} {classes : List String}

/-- Classes are modelled as entities. Those that have a model already have the one that the build would
make. -/
structure Entities (b : Builder) (ctx : Context) : Prop where
  makers : ∀ maker ∈ b.makers, maker = Entity.maker b.index
  known : ∀ c m, ctx.models.get? c = some m →
    b.makeModel (BulkLoad.apply b.scene b.index ctx.settings).2 c = .ok m

theorem entities_ofSettings (hmakers : ∀ maker ∈ b.makers, maker = Entity.maker b.index) (name : String)
    (settings : Settings) : b.Entities (.ofSettings name settings) where
  makers := hmakers
  known := by
    intro c m h
    cases h

theorem makeModel_ok (hmakers : ∀ maker ∈ b.makers, maker = Entity.maker b.index) {c : String}
    {m : Model} (h : b.makeModel settings c = .ok m) :
    b.index.hasClass c = true ∧ Entity.Models b.index settings c m := by
  rw [makeModel] at h
  split at h
  · next maker hmaker =>
    have happlies := List.find?_some hmaker
    rw [hmakers maker (List.mem_of_find?_eq_some hmaker)] at h happlies
    exact ⟨happlies, Entity.models_of_ok h⟩
  · cases h

theorem known_modelAll {known known' : Dict Model} {made : Except Fault (List Model)}
    (hknown : ∀ c m, known.get? c = some m → b.makeModel settings c = .ok m)
    (h : b.modelAll settings classes known = (made, known')) :
    ∀ c m, known'.get? c = some m → b.makeModel settings c = .ok m := by
  induction classes generalizing known known' made with
  | nil =>
    obtain ⟨-, rfl⟩ := Prod.mk.inj h
    exact hknown
  | cons first classes ih =>
    rw [modelAll_cons] at h
    split at h
    · obtain ⟨-, rfl⟩ := Prod.mk.inj h
      exact ih hknown rfl
    · split at h
      · obtain ⟨-, rfl⟩ := Prod.mk.inj h
        exact hknown
      · next m hmade =>
        obtain ⟨-, rfl⟩ := Prod.mk.inj h
        refine ih (fun c n hn => ?_) rfl
        rw [Dict.get?_insert] at hn
        split at hn
        · next hc => rw [hc, hmade, Option.some.inj hn]
        · exact hknown c n hn

theorem Entities.models (h : b.Entities ctx) {s : Schema} (hbuild : (b.build ctx).1 = .ok s)
    {c : String} {m : Model} (hm : (b.build ctx).2.models.get? c = some m) :
    b.index.hasClass c = true ∧
      Entity.Models b.index (BulkLoad.apply b.scene b.index ctx.settings).2 c m := by
  apply makeModel_ok h.makers
  rw [build] at hbuild hm
  split at hbuild
  · cases hbuild
  · next bindings hbindings =>
    split at hbuild
    · cases hbuild
    · next classes settings hload =>
      have hknown := h.known
      rw [hload] at hknown ⊢
      split at hbuild
      · cases hbuild
      · next made known hmade =>
        split at hbuild
        · cases hbuild
        · next hassemble =>
          simp only [hbindings, hload, hmade, hassemble] at hm
          exact known_modelAll hknown hmade c m hm

theorem contains_exposedTypes (ms : List Model) (c : String) :
    (exposedTypes ms).contains c = true ↔ c ∈ ms.map Model.className := by
  rw [Dict.contains_iff_mem_keys, exposedTypes, Dict.mem_keys_ofList, List.map_map]
  rfl

namespace Workings

variable (w : b.Workings ctx) {s : Schema}

/-- The classes that a build models, each with its model. -/
theorem exists_classes (h : b.Entities ctx) (hbuild : (b.build ctx).1 = .ok s) :
    ∃ classes, BulkLoad.apply b.scene b.index ctx.settings = (.ok classes, w.settings) ∧
      (∀ c ∈ classes, ∃ m ∈ w.models, (b.build ctx).2.models.get? c = some m ∧
        b.index.hasClass c = true ∧ Entity.Models b.index w.settings c m) ∧
      ∀ c, (exposedTypes w.models).contains c = true ↔ c ∈ classes := by
  obtain ⟨classes, hload, hmodels⟩ := w.load_ok
  have hentity {c : String} {m : Model} (hm : (b.build ctx).2.models.get? c = some m) :
      b.index.hasClass c = true ∧ Entity.Models b.index w.settings c m := by
    rw [w.settings_eq]
    exact h.models hbuild hm
  have hmodel : ∀ c ∈ classes, ∃ m ∈ w.models, (b.build ctx).2.models.get? c = some m := by
    intro c hc
    have hmem : (b.build ctx).2.models.get? c ∈ w.models.map some := by
      rw [← hmodels]
      exact List.mem_map_of_mem hc
    obtain ⟨m, hm, hget⟩ := List.mem_map.mp hmem
    exact ⟨m, hm, hget.symm⟩
  refine ⟨classes, hload, ?_, ?_⟩
  · intro c hc
    obtain ⟨m, hm, hget⟩ := hmodel c hc
    exact ⟨m, hm, hget, hentity hget⟩
  · intro c
    rw [contains_exposedTypes]
    constructor
    · intro hmem
      obtain ⟨m, hm, rfl⟩ := List.mem_map.mp hmem
      have hsome : some m ∈ classes.map (b.build ctx).2.models.get? := by
        rw [hmodels]
        exact List.mem_map_of_mem hm
      obtain ⟨c, hc, hget⟩ := List.mem_map.mp hsome
      show m.className ∈ classes
      rw [(hentity hget).2.className]
      exact hc
    · intro hc
      obtain ⟨m, hm, hget⟩ := hmodel c hc
      rw [← (hentity hget).2.className]
      exact List.mem_map_of_mem (f := fun m : Model => m.className) hm

end Workings

end Builder

end ClassSchema
