import ClassSchema.Proofs.Build.Entities
import ClassSchema.Proofs.TypeRef

/-!
# Fields of model types

The type of a class has the fields that its settings select, less those they exclude and those that refer to a
class without a type. A field that stays has the type that the settings give it, else the one it was declared
with, where the name of a class gives way to the name of that class's type in the same schema.
-/

namespace ClassSchema

namespace FieldSelection

/-- The selection has the field, given the fields of the model. -/
def Selects (modelFields : List String) (name : String) : FieldSelection → Prop
  | .wildcard text => text = allFields ∧ name ∈ modelFields
  | .names listed => name ∈ listed
  | .configured fields =>
    (name ≠ allFields ∧ fields.contains name = true) ∨
      (fields.contains allFields = true ∧ name ∈ modelFields)

/-- The type that the selection gives a field in place of the declared one. -/
def override? (name : String) : FieldSelection → Option String
  | .configured fields => if name = allFields then none else (fields.get? name).bind (·.type)
  | _ => none

/-- Fields with settings are in order. -/
def Ordered : FieldSelection → Prop
  | .configured fields => fields.Sorted
  | _ => True

variable {selection : FieldSelection} {v : Value} {modelFields : List String} {key : String}
  {selected : Dict FieldSettings}

theorem ordered_of_decode (h : decode v = some selection) : selection.Ordered := by
  rw [decode.eq_def] at h
  split at h
  · obtain rfl := Option.some.inj h
    trivial
  · split at h
    · obtain rfl := Option.some.inj h
      trivial
    · obtain ⟨fields, hfields, rfl⟩ := Option.map_eq_some_iff.mp h
      exact (Value.asDict_some hfields).1

theorem get?_unconfigured (names : List String) (name : String) :
    (unconfigured names).get? name = if name ∈ names then some {} else none := by
  have hlookup (reversed : List String) :
      Dict.lookup name (reversed.map fun n => (n, ({} : FieldSettings))) =
        if name ∈ reversed then some {} else none := by
    induction reversed with
    | nil => rfl
    | cons first rest ih =>
      by_cases hname : first = name
      · simp [Dict.lookup, hname]
      · simp [Dict.lookup, hname, Ne.symm hname, ih]
  rw [unconfigured, Dict.get?_ofList, ← List.map_reverse, hlookup]
  simp only [List.mem_reverse]

theorem resolve_ok (hordered : selection.Ordered) (h : selection.resolve modelFields key = .ok selected)
    (name : String) : (selected.get? name ≠ none ↔ selection.Selects modelFields name) ∧
      ∀ s, selected.get? name = some s → s.type = selection.override? name := by
  cases selection with
  | wildcard text =>
    rw [resolve] at h
    split at h
    · next htext =>
      obtain rfl := Except.ok.inj h
      simp [get?_unconfigured, Selects, override?, htext]
    · cases h
  | names listed =>
    obtain rfl := Except.ok.inj h
    simp [get?_unconfigured, Selects, override?]
  | configured fields =>
    obtain rfl := Except.ok.inj h
    have hfields : (fields.erase allFields).Sorted := Dict.Sorted.erase hordered allFields
    have hbase : (if fields.contains allFields = true then unconfigured modelFields else .empty).get? name =
        if fields.contains allFields = true ∧ name ∈ modelFields then some {} else none := by
      split
      · next hall => simp [get?_unconfigured, hall]
      · next hall => simp [hall]
    rw [Dict.get?_overlay _ hfields, Dict.get?_erase, hbase]
    by_cases hname : name = allFields
    · simp [Selects, override?, hname]
    · have hcontains : fields.contains name = (fields.get? name).isSome := rfl
      cases hget : fields.get? name with
      | none => simp [Selects, override?, hname, hcontains, hget]
      | some s => simp [Selects, override?, hname, hcontains, hget]

end FieldSelection

theorem ModelSettings.ordered_of_decode {v : Value} {own : ModelSettings}
    (h : ModelSettings.decode v = some own) : own.fields.Ordered := by
  simp only [ModelSettings.decode, Option.bind_eq_bind, Option.bind_eq_some_iff, Option.pure_def,
    Option.some.injEq] at h
  obtain ⟨table, -, fields, hfields, excluded, -, operations, -, typeName, -, description, -,
    interfaces, -, rfl⟩ := h
  rw [Dict.defaulted] at hfields
  split at hfields
  · obtain rfl := Option.some.inj hfields
    trivial
  · exact FieldSelection.ordered_of_decode hfields

theorem Builder.modelSettings_ok {settings : Settings} {c : String} {own : ModelSettings}
    (h : modelSettings settings c = .ok own) : c ≠ "" ∧ own.fields.Ordered := by
  rw [modelSettings, Settings.getAs, Settings.get, SettingsPath.check] at h
  by_cases hpath : (SettingsPath.ofSegments ["models", c]).IsWellFormed
  · refine ⟨hpath.2 c (by simp [SettingsPath.ofSegments]), ?_⟩
    rw [if_pos hpath] at h
    cases hvalue : settings.valueAt ["models", c] with
    | none =>
      simp only [SettingsPath.ofSegments, hvalue, Option.getD_none, Except.ok.injEq] at h
      rw [← h]
      trivial
    | some v =>
      cases hdecode : ModelSettings.decode v with
      | none => simp [SettingsPath.ofSegments, hvalue, hdecode] at h
      | some decoded =>
        simp only [SettingsPath.ofSegments, hvalue, hdecode, Option.getD_some, Except.ok.injEq] at h
        rw [← h]
        exact ModelSettings.ordered_of_decode hdecode
  · rw [if_neg hpath] at h
    cases h

/-! ## One object type -/

/-- What a declared type becomes where the exposed classes have types. -/
def Entity.Becomes (ix : Index) (settings : Settings) (exposed : Dict String) (declared fieldType : String) :
    Prop :=
  (ix.hasClass (baseType declared) = false ∧ trimmed declared = fieldType) ∨
    (ix.hasClass (baseType declared) = true ∧ exposed.contains (baseType declared) = true ∧
      ∃ target, Entity.typeName settings (baseType declared) = .ok target ∧
        rebase declared target = fieldType)

/-- The type that a field of a class gets: the given one, or what the declared one becomes. -/
def Entity.Typed (ix : Index) (settings : Settings) (exposed : Dict String) (c : String)
    (given : Option String) (name fieldType : String) : Prop :=
  given = some fieldType ∨ given = none ∧ ∃ spec, (ix.fieldsOf c).get? name = some spec ∧
    Entity.Becomes ix settings exposed spec.type fieldType

section Objects

variable {b : Bindings} {d d' : Decisions} {m : Model} {own : ModelSettings} {exposed : Dict String}
  {name : String} {s : FieldSettings} {o : ObjectType}

theorem Model.type_field {made : Option Field} (h : m.field b exposed name s d = .ok made d') :
    m.fieldType exposed name s = .ok (made.map Field.type) ∧ ∀ f ∈ made, f.name = name := by
  obtain ⟨fieldType, htype, h⟩ := Deciding.ofExcept_bind_ok_iff.mp h
  rw [htype]
  cases fieldType with
  | none =>
    obtain ⟨rfl, -⟩ := EStateM.Result.ok.inj h
    exact ⟨rfl, by simp⟩
  | some fieldType =>
    obtain ⟨explicit, -, h⟩ := Deciding.ofExcept_bind_ok_iff.mp h
    obtain ⟨r, d₁, -, h⟩ := bind_ok_iff.mp h
    obtain ⟨p, -, h⟩ := Deciding.ofExcept_bind_ok_iff.mp h
    obtain ⟨rfl, -⟩ := EStateM.Result.ok.inj h
    exact ⟨rfl, by simp⟩

theorem Model.objectType_fields {selected : Dict FieldSettings}
    (hselected : own.fields.resolve m.fields.keys s!"models.{m.className}.fields" = .ok selected)
    (h : m.objectType b own exposed d = .ok o d') (name fieldType : String) :
    (∃ f, o.fields.get? name = some f ∧ f.type = fieldType) ↔
      ∃ s, selected.get? name = some s ∧ name ∉ own.excludeFields ∧
        m.fieldType exposed name s = .ok (some fieldType) := by
  obtain ⟨_, hresolve, h⟩ := Deciding.ofExcept_bind_ok_iff.mp h
  obtain rfl := Except.ok.inj (hselected.symm.trans hresolve)
  obtain ⟨made, d₁, hmade, h⟩ := bind_ok_iff.mp h
  obtain ⟨rfl, rfl⟩ := EStateM.Result.ok.inj h
  have hsorted := FieldSelection.sorted_resolve hselected
  obtain ⟨hfields, -⟩ := Deciding.each_ok
    (P := fun (e : String × FieldSettings) (y : Option Field) (_ : Decisions) =>
      m.fieldType exposed e.1 e.2 = .ok (y.map Field.type) ∧ ∀ f ∈ y, f.name = e.1)
    (A := fun _ _ _ => True) (fun _ _ _ _ h _ => h)
    (fun e _ d y d' hfield => ⟨type_field hfield, (field_ok hfield).2.mono fun _ _ _ _ => trivial⟩)
    hmade
  have hget := get?_ofList_made (hsorted.filter fun name _ => !own.excludeFields.contains name)
    (fun e f h => h.2 f rfl) hfields name
  have hkept (s : FieldSettings) :
      (name, s) ∈ selected.entries.filter (fun e => !own.excludeFields.contains e.1) ↔
        selected.get? name = some s ∧ name ∉ own.excludeFields := by
    rw [List.mem_filter, hsorted.get?_eq_some_iff]
    simp
  constructor
  · rintro ⟨f, hf, rfl⟩
    obtain ⟨hmem, rfl⟩ := (hget f).mp hf
    obtain ⟨e, he, htype, hname⟩ := exists_left_of_forall₂ hfields hmem
    rw [hname f rfl] at hkept ⊢
    obtain ⟨hs, hexcluded⟩ := (hkept e.2).mp he
    exact ⟨e.2, hs, hexcluded, htype⟩
  · rintro ⟨s, hs, hexcluded, htype⟩
    obtain ⟨y, hy, hmadeType, hname⟩ := exists_right_of_forall₂ hfields ((hkept s).mpr ⟨hs, hexcluded⟩)
    have hsome : y.map Field.type = some fieldType := Except.ok.inj (hmadeType.symm.trans htype)
    obtain ⟨f, rfl, hf⟩ := Option.map_eq_some_iff.mp hsome
    exact ⟨f, (hget f).mpr ⟨hy, hname f rfl⟩, hf⟩

theorem Entity.Typed.becomes {ix : Index} {settings : Settings} {c fieldType : String} {spec : FieldSpec}
    (h : Entity.Typed ix settings exposed c none name fieldType)
    (hspec : (ix.fieldsOf c).get? name = some spec) :
    Entity.Becomes ix settings exposed spec.type fieldType := by
  rcases h with hgiven | ⟨-, spec', hspec', hbecomes⟩
  · cases hgiven
  · obtain rfl : spec' = spec := Option.some.inj (hspec'.symm.trans hspec)
    exact hbecomes

theorem Entity.Models.fieldType_ok_iff {ix : Index} {settings : Settings} {c : String}
    (hm : Entity.Models ix settings c m) (fieldType : String) :
    m.fieldType exposed name s = .ok (some fieldType) ↔
      Entity.Typed ix settings exposed c s.type name fieldType := by
  rw [Model.fieldType, Typed]
  cases hoverride : s.type with
  | some t => simp
  | none =>
    cases hspec : (ix.fieldsOf c).get? name with
    | none => simp [(hm.get?_eq_none_iff name).mpr hspec]
    | some spec =>
      obtain ⟨f, hf, hdeclared⟩ := hm.field name spec hspec
      rcases fieldType_ok hdeclared with ⟨hclass, htarget, target, hname, htype⟩ | ⟨hclass, htarget, htype⟩
      · simp [Becomes, hf, htarget, hclass, hname, htype]
      · simp [Becomes, hf, htarget, hclass, htype]

/-- The object type of a class has the fields that are selected, kept and typed. -/
theorem Entity.Models.objectType_fields {ix : Index} {settings : Settings} {c : String}
    (hm : Entity.Models ix settings c m) (hown : own.fields.Ordered)
    (h : m.objectType b own exposed d = .ok o d') (name fieldType : String) :
    (∃ f, o.fields.get? name = some f ∧ f.type = fieldType) ↔
      own.fields.Selects (ix.fieldsOf c).keys name ∧ name ∉ own.excludeFields ∧
        Entity.Typed ix settings exposed c (own.fields.override? name) name fieldType := by
  obtain ⟨selected, hselected, -⟩ := Deciding.ofExcept_bind_ok_iff.mp h
  obtain ⟨hselects, htype⟩ := FieldSelection.resolve_ok hown hselected name
  rw [hm.keys] at hselects
  rw [Model.objectType_fields hselected h, ← hselects]
  constructor
  · rintro ⟨s, hs, hkept, hfield⟩
    rw [← htype s hs]
    exact ⟨by simp [hs], hkept, (hm.fieldType_ok_iff fieldType).mp hfield⟩
  · rintro ⟨hsome, hkept, htyped⟩
    obtain ⟨s, hs⟩ := Option.ne_none_iff_exists'.mp hsome
    rw [← htype s hs] at htyped
    exact ⟨s, hs, hkept, (hm.fieldType_ok_iff fieldType).mpr htyped⟩

end Objects

/-! ## The schema -/

namespace Schema

/-- The schema has the object type, as it is or, for a root type, with the fields that it got since. -/
def Holds (s : Schema) (name : String) (o : ObjectType) : Prop :=
  ∃ o', s.get? name = some (.object o') ∧ (name ≠ queryType → name ≠ mutationType → o' = o) ∧
    ∀ field, o.fields.contains field = true → o'.fields.contains field = true

/-- No object type is lost. -/
def Keeps (s s' : Schema) : Prop := ∀ name o, s.get? name = some (.object o) → s'.Holds name o

variable {s s' s'' : Schema} {name : String} {o : ObjectType} {d : Definition}

theorem holds_of_get? (h : s.get? name = some (.object o)) : s.Holds name o :=
  ⟨o, h, fun _ _ => rfl, fun _ h => h⟩

theorem keeps_refl (s : Schema) : s.Keeps s := fun _ _ => holds_of_get?

theorem Holds.of_keeps (ho : s.Holds name o) (h : s.Keeps s') : s'.Holds name o := by
  obtain ⟨o₁, ho₁, hsame₁, hfields₁⟩ := ho
  obtain ⟨o₂, ho₂, hsame₂, hfields₂⟩ := h name o₁ ho₁
  refine ⟨o₂, ho₂, ?_, fun field hfield => hfields₂ field (hfields₁ field hfield)⟩
  intro hquery hmutation
  rw [hsame₂ hquery hmutation, hsame₁ hquery hmutation]

theorem Keeps.trans (h : s.Keeps s') (h' : s'.Keeps s'') : s.Keeps s'' :=
  fun name o ho => (h name o ho).of_keeps h'

theorem keeps_add (h : s.add d = .ok s') : s.Keeps s' := by
  obtain ⟨-, -, hnew, rfl⟩ := add_ok h
  intro name o ho
  apply holds_of_get?
  rw [get?_put, if_neg, ho]
  rintro rfl
  rw [hnew] at ho
  cases ho

theorem keeps_addRootField {type : String} (htype : type = queryType ∨ type = mutationType)
    (h : s.root type = .ok o) (f : Field) : s.Keeps (s.put type (.object (o.addField f))) := by
  intro name o' ho'
  by_cases hname : name = type
  · subst hname
    obtain rfl : o' = o := by
      rw [root, ho'] at h
      exact Except.ok.inj h
    refine ⟨o'.addField f, by rw [get?_put, if_pos rfl], ?_, ?_⟩
    · intro hquery hmutation
      exact (htype.elim hquery hmutation).elim
    · intro field hfield
      rw [Dict.contains, ObjectType.addField, Dict.get?_insert]
      split
      · rfl
      · exact hfield
  · apply holds_of_get?
    rw [get?_put, if_neg hname, ho']

theorem SameObjects.keeps (h : s.SameObjects s') : s.Keeps s' :=
  fun name o ho => holds_of_get? ((h name o).mpr ho)

end Schema

section Steps

variable {b : Bindings} {s s' : Schema} {settings : Settings} {exposed : Dict String} {m : Model}
  {models : List Model} {d d' : Decisions}

theorem Operation.keeps_addAll {ops : List Operation} (h : addAll b m ops s = .ok s') : s.Keeps s' := by
  refine foldlM_ok (P := fun s' : Schema => s.Keeps s') s.keeps_refl ?_ h
  intro s₁ op _ s₂ hs₁ hadd
  obtain ⟨f, query, -, hroot, -, rfl⟩ := addTo_ok hadd
  exact hs₁.trans (Schema.keeps_addRootField (.inl rfl) hroot f)

namespace Builder

theorem holds_addModel (h : addModel b settings exposed s m d = .ok s' d') :
    s.Keeps s' ∧ ∃ own o d₁, modelSettings settings m.className = .ok own ∧
      m.objectType b own exposed d = .ok o d₁ ∧ s'.Holds m.typeName o := by
  obtain ⟨own, hown, h⟩ := Deciding.ofExcept_bind_ok_iff.mp h
  obtain ⟨o, d₁, ho, h⟩ := bind_ok_iff.mp h
  obtain ⟨s₁, hadd, h⟩ := Deciding.ofExcept_bind_ok_iff.mp h
  obtain ⟨hops, -⟩ := Deciding.ofExcept_ok_iff.mp h
  have hkeeps := Operation.keeps_addAll hops
  refine ⟨(Schema.keeps_add hadd).trans hkeeps, own, o, d₁, hown, ho, ?_⟩
  have hname : o.name = m.typeName := (Model.objectType_ok ho).1
  obtain ⟨-, -, -, rfl⟩ := Schema.add_ok hadd
  apply hkeeps
  rw [Schema.get?_put]
  exact if_pos hname.symm

theorem holds_addModels (h : models.foldlM (addModel b settings exposed) s d = .ok s' d') :
    s.Keeps s' ∧ ∀ m ∈ models, ∃ own o d₁ d₂, modelSettings settings m.className = .ok own ∧
      m.objectType b own exposed d₁ = .ok o d₂ ∧ s'.Holds m.typeName o := by
  induction models generalizing s d with
  | nil =>
    obtain ⟨rfl, -⟩ := EStateM.Result.ok.inj h
    exact ⟨s.keeps_refl, fun m hm => by cases hm⟩
  | cons first models ih =>
    rw [List.foldlM_cons] at h
    obtain ⟨s₁, d₁, hfirst, hrest⟩ := bind_ok_iff.mp h
    obtain ⟨hkeeps, own, o, d₂, hown, ho, hholds⟩ := holds_addModel hfirst
    obtain ⟨hkeepsRest, hmodels⟩ := ih hrest
    refine ⟨hkeeps.trans hkeepsRest, List.forall_mem_cons.mpr ⟨?_, hmodels⟩⟩
    exact ⟨own, o, d, d₂, hown, ho, hholds.of_keeps hkeepsRest⟩

theorem keeps_addType (s : Schema) (e : String × TypeSettings) : Ensures (addType b s e) s.Keeps :=
  .bind_any fun _ => .ofExcept fun _ hadd => Schema.keeps_add hadd

theorem keeps_addRootField {root : String} (hroot : root = queryType ∨ root = mutationType) (s : Schema)
    (e : String × FieldSettings) : Ensures (addRootField b root s e) s.Keeps := by
  refine .bind_any fun f => ?_
  have hfound : Ensures (Deciding.ofExcept (s.root root)) fun o => s.root root = .ok o :=
    .ofExcept fun o ho => ho
  exact Ensures.bind hfound fun o ho => .pure (Schema.keeps_addRootField hroot ho f)

theorem keeps_foldlM {α : Type} {work : Schema → α → Deciding Schema}
    (hwork : ∀ s x, Ensures (work s x) s.Keeps) {xs : List α} (h : xs.foldlM work s d = .ok s' d') :
    s.Keeps s' := by
  have hall : Ensures (xs.foldlM work s) s.Keeps :=
    Ensures.foldlM s.keeps_refl fun s₁ x _ hs₁ _ _ _ hstep => hs₁.trans (hwork s₁ x _ _ _ hstep)
  exact hall d s' d' h

theorem holds_assemble {name : String} (h : assemble b name settings models d = .ok s d') :
    ∀ m ∈ models, ∃ own o d₁ d₂, modelSettings settings m.className = .ok own ∧
      m.objectType b own (exposedTypes models) d₁ = .ok o d₂ ∧ s.Holds m.typeName o := by
  obtain ⟨types, queries, mutations, s₁, s₂, s₃, s₄, d₁, d₂, d₃, -, hmodels, hplain, hs₃, hs₄, hs₅⟩ :=
    assemble_stages h
  have hkeeps : s₁.Keeps s := by
    have hplain : s₁.Keeps s₂ := (sameObjects_addPlain hplain).keeps
    have htypes : s₂.Keeps s₃ := keeps_foldlM keeps_addType hs₃
    have hqueries : s₃.Keeps s₄ := keeps_foldlM (keeps_addRootField (.inl rfl)) hs₄
    have hmutations : s₄.Keeps s := keeps_foldlM (keeps_addRootField (.inr rfl)) hs₅
    exact ((hplain.trans htypes).trans hqueries).trans hmutations
  intro m hm
  obtain ⟨own, o, d₄, d₅, hown, ho, hholds⟩ := (holds_addModels hmodels).2 m hm
  exact ⟨own, o, d₄, d₅, hown, ho, hholds.of_keeps hkeeps⟩

end Builder

end Steps

/-! ## The types of classes -/

namespace Builder

variable {b : Builder} {ctx : Context} {s : Schema} {classes : List String} {c : String} {m : Model}
  {own : ModelSettings} {o : ObjectType}

namespace Workings

/-- The build makes the object type of the class, by its model and its settings, and the schema has it. -/
structure Makes (w : b.Workings ctx) (s : Schema) (c : String) (m : Model) (own : ModelSettings)
    (o : ObjectType) : Prop where
  model : (b.build ctx).2.models.get? c = some m
  settings : modelSettings w.settings c = .ok own
  made : ∃ d d', m.objectType w.bindings own (exposedTypes w.models) d = .ok o d'
  holds : s.Holds m.typeName o

/-- The object type of a class has the fields that are selected, each with its type. -/
structure Exposes (w : b.Workings ctx) (s : Schema) (classes : List String) (c : String)
    (own : ModelSettings) (o : ObjectType) : Prop where
  present : ∀ name, o.fields.contains name = true ↔
    own.fields.Selects (b.index.fieldsOf c).keys name ∧ name ∉ own.excludeFields ∧
      (own.fields.override? name ≠ none ∨ ∃ spec, (b.index.fieldsOf c).get? name = some spec ∧
        (b.index.hasClass (baseType spec.type) = false ∨ baseType spec.type ∈ classes))
  overridden : ∀ name f fieldType, o.fields.get? name = some f →
    own.fields.override? name = some fieldType → f.type = fieldType
  plain : ∀ name f spec, o.fields.get? name = some f → own.fields.override? name = none →
    (b.index.fieldsOf c).get? name = some spec → b.index.hasClass (baseType spec.type) = false →
      f.type = trimmed spec.type
  /-- A reference leads to the object type of the class it was declared with. -/
  linked : ∀ name f spec, o.fields.get? name = some f → own.fields.override? name = none →
    (b.index.fieldsOf c).get? name = some spec → baseType spec.type ∈ classes →
      ∃ m' own' o', w.Makes s (baseType spec.type) m' own' o' ∧
        SameWrappers spec.type (baseType spec.type) f.type m'.typeName

variable (w : b.Workings ctx)

theorem exists_makes (hbuild : (b.build ctx).1 = .ok s) (hm : m ∈ w.models)
    (hget : (b.build ctx).2.models.get? c = some m) (hclass : m.className = c) :
    ∃ own o, w.Makes s c m own o := by
  obtain ⟨d, hassemble⟩ := w.assemble_ok hbuild
  obtain ⟨own, o, d₁, d₂, hown, ho, hholds⟩ := holds_assemble hassemble m hm
  rw [hclass] at hown
  exact ⟨own, o, hget, hown, ⟨d₁, d₂, ho⟩, hholds⟩

theorem Makes.exposes {w : b.Workings ctx} (h : w.Makes s c m own o)
    (hm : Entity.Models b.index w.settings c m)
    (hexposed : ∀ c, (exposedTypes w.models).contains c = true ↔ c ∈ classes)
    (hclasses : ∀ c ∈ classes, b.index.hasClass c = true ∧ ∃ m' own' o', w.Makes s c m' own' o' ∧
      Entity.typeName w.settings c = .ok m'.typeName) : w.Exposes s classes c own o := by
  obtain ⟨d, d', ho⟩ := h.made
  have hfields := hm.objectType_fields (modelSettings_ok h.settings).2 ho
  have htyped {name : String} {f : Field} (hf : o.fields.get? name = some f) :=
    ((hfields name f.type).mp ⟨f, hf, rfl⟩).2.2
  constructor
  case present =>
    intro name
    rw [Dict.contains, Option.isSome_iff_exists]
    constructor
    · rintro ⟨f, hf⟩
      obtain ⟨hselects, hkept, hgiven⟩ := (hfields name f.type).mp ⟨f, hf, rfl⟩
      refine ⟨hselects, hkept, ?_⟩
      rcases hgiven with hgiven | ⟨-, spec, hspec, ⟨hbase, -⟩ | ⟨-, hbase, -⟩⟩
      · exact .inl (by simp [hgiven])
      · exact .inr ⟨spec, hspec, .inl hbase⟩
      · exact .inr ⟨spec, hspec, .inr ((hexposed _).mp hbase)⟩
    · rintro ⟨hselects, hkept, hreason⟩
      have hgiven : ∃ fieldType, Entity.Typed b.index w.settings (exposedTypes w.models) c
          (own.fields.override? name) name fieldType := by
        cases hoverride : own.fields.override? name with
        | some fieldType => exact ⟨fieldType, .inl rfl⟩
        | none =>
          rcases hreason with hne | ⟨spec, hspec, hbase | hbase⟩
          · exact absurd hoverride hne
          · exact ⟨_, .inr ⟨rfl, spec, hspec, .inl ⟨hbase, rfl⟩⟩⟩
          · obtain ⟨hclass, m', -, -, -, hname⟩ := hclasses _ hbase
            exact ⟨_, .inr ⟨rfl, spec, hspec, .inr ⟨hclass, (hexposed _).mpr hbase, _, hname, rfl⟩⟩⟩
      obtain ⟨fieldType, hgiven⟩ := hgiven
      obtain ⟨f, hf, -⟩ := (hfields name fieldType).mpr ⟨hselects, hkept, hgiven⟩
      exact ⟨f, hf⟩
  case overridden =>
    intro name f fieldType hf hoverride
    rcases htyped hf with hgiven | ⟨hnone, -⟩
    · exact Option.some.inj (hgiven.symm.trans hoverride)
    · rw [hnone] at hoverride
      cases hoverride
  case plain =>
    intro name f spec hf hoverride hspec hbase
    have hnone := htyped hf
    rw [hoverride] at hnone
    rcases hnone.becomes hspec with ⟨-, htype⟩ | ⟨hclass, -⟩
    · exact htype.symm
    · rw [hbase] at hclass
      cases hclass
  case linked =>
    intro name f spec hf hoverride hspec hbase
    obtain ⟨hclass, m', own', o', hmakes, hname⟩ := hclasses _ hbase
    refine ⟨m', own', o', hmakes, ?_⟩
    have hnone := htyped hf
    rw [hoverride] at hnone
    rcases hnone.becomes hspec with ⟨hunknown, -⟩ | ⟨-, -, target, htarget, htype⟩
    · rw [hunknown] at hclass
      cases hclass
    · -- The name was found for the reference and for the class itself, in the same settings.
      obtain rfl : target = m'.typeName := Except.ok.inj (htarget.symm.trans hname)
      rw [← htype]
      exact sameWrappers_rebase (modelSettings_ok hmakes.settings).1 _

end Workings

/-- The type of a modelled class has just the fields that its settings select and keep, overridden ones and
those that lead to no class without a type. A reference to a class leads to the type that the schema has for
it. -/
theorem build_exposes (b : Builder) (ctx : Context) (s : Schema) (hentities : b.Entities ctx)
    (h : (b.build ctx).1 = .ok s) : Nonempty (b.Workings ctx) ∧ ∀ w : b.Workings ctx, ∃ classes,
      BulkLoad.apply b.scene b.index ctx.settings = (.ok classes, w.settings) ∧
        ∀ c ∈ classes, ∃ m own o, w.Makes s c m own o ∧ w.Exposes s classes c own o := by
  refine ⟨Workings.nonempty_of_build h, fun w => ?_⟩
  obtain ⟨classes, hload, hmodels, hexposed⟩ := w.exists_classes hentities h
  have hclasses : ∀ c ∈ classes, b.index.hasClass c = true ∧ ∃ m own o, w.Makes s c m own o ∧
      Entity.Models b.index w.settings c m := by
    intro c hc
    obtain ⟨m, hm, hget, hclass, hentity⟩ := hmodels c hc
    obtain ⟨own, o, hmakes⟩ := w.exists_makes h hm hget hentity.className
    exact ⟨hclass, m, own, o, hmakes, hentity⟩
  refine ⟨classes, hload, ?_⟩
  intro c hc
  obtain ⟨-, m, own, o, hmakes, hentity⟩ := hclasses c hc
  refine ⟨m, own, o, hmakes, hmakes.exposes hentity hexposed ?_⟩
  intro c' hc'
  obtain ⟨hclass, m', own', o', hmakes', hentity'⟩ := hclasses c' hc'
  exact ⟨hclass, m', own', o', hmakes', hentity'.typeName⟩

section Example

/-- Pages are records, which refer to their owners; drafts stay out of sight. -/
def recordIndex : Index where
  descriptors := .ofList [
    ("App.Draft", ⟨"App.Draft", .ordinary, none, [], false, none, .empty, "draft.json"⟩),
    ("App.Page", ⟨"App.Page", .ordinary, some "App.Record", [], false, none,
      .ofList [("draft", .short "App.Draft"), ("secret", .short "String"), ("title", .short "String")],
      "page.json"⟩),
    ("App.Record", ⟨"App.Record", .ordinary, none, [], false, none,
      .ofList [("id", .short "ID!"), ("owners", .short "[App.User!]!")], "record.json"⟩),
    ("App.User", ⟨"App.User", .ordinary, none, [], false, none,
      .ofList [("name", .short "String")], "user.json"⟩)]
  implicitMarkers := []
  edges := [("App.Page", "App.Record")]

def recordBuilder : Builder where
  index := recordIndex
  scene := ⟨.builtin, "/", .emptyFolder⟩
  registry := .withBuiltins
  makers := [Entity.maker recordIndex]

/-- Users go by another name, and pages have all fields but one, one of them with a type of its own. -/
def recordContext : Context :=
  .ofSettings "records" (.ofList [
    ("resolvers", .strings ["Builtin"]),
    ("defaultResolver", .string "Builtin::resolve"),
    ("models", .ofPairs [
      ("App.Page", .ofPairs [
        ("fields", .ofPairs [("*", .table .empty), ("title", .ofPairs [("type", .string "String!")])]),
        ("exclude_fields", .strings ["secret"])]),
      ("App.User", .ofPairs [("type_name", .string "Member")])])])

/-- The fields of an object type with their types. -/
def fieldTypes (s : Schema) (type : String) : Option (List (String × String)) :=
  (s.object? type).map fun o => o.fields.entries.map fun e => (e.1, e.2.type)

theorem build_exposes_records : ∃ s, recordBuilder.Entities recordContext ∧
    (recordBuilder.build recordContext).1 = .ok s ∧
    fieldTypes s "Page" = some [("id", "ID!"), ("owners", "[Member!]!"), ("title", "String!")] ∧
    Nonempty (recordBuilder.Workings recordContext) ∧
    ∀ w : recordBuilder.Workings recordContext, ∃ classes,
      BulkLoad.apply recordBuilder.scene recordBuilder.index recordContext.settings =
        (.ok classes, w.settings) ∧
      ∀ c ∈ classes, ∃ m own o, w.Makes s c m own o ∧ w.Exposes s classes c own o := by
  have htypes : (recordBuilder.build recordContext).1.toOption.map (fieldTypes · "Page") =
      some (some [("id", "ID!"), ("owners", "[Member!]!"), ("title", "String!")]) := by
    decide +kernel
  obtain ⟨s, hs, htypes⟩ := Option.map_eq_some_iff.mp htypes
  have hbuild := eq_ok_of_toOption hs
  have hentities : recordBuilder.Entities recordContext := by
    apply entities_ofSettings
    intro maker hmaker
    exact List.mem_singleton.mp hmaker
  obtain ⟨hworkings, hall⟩ := build_exposes recordBuilder recordContext s hentities hbuild
  exact ⟨s, hentities, hbuild, htypes, hworkings, hall⟩

end Example

end Builder

end ClassSchema
