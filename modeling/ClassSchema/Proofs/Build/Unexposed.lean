import ClassSchema.Proofs.Build.Alike
import ClassSchema.Proofs.Build.Entities
import ClassSchema.Proofs.Selection.Reflective

/-!
# Classes out of sight

A field that refers to a class without a type in the schema is left out, whichever class that is. The model
of its own class is made before, though, and every reference asks for a type name. So hidden classes make no
difference as long as they could be named.
-/

namespace ClassSchema

variable {u v : String} {ix ix' : Index} {settings settings' : Settings}

namespace Entity

theorem typeName_congr {c : String}
    (hnamed : settings'.valueAt ["models", c, "type_name"] = settings.valueAt ["models", c, "type_name"])
    (hconfig : settings'.get? "modelConfig" = settings.get? "modelConfig") :
    typeName settings' c = typeName settings c := by
  have hname : namedType settings' c = namedType settings c := by
    simp only [namedType, Settings.getAs, Settings.get, SettingsPath.ofSegments, hnamed]
  have hprefix : typePrefix settings' = typePrefix settings := by
    simp only [typePrefix, Settings.modelConfig, hconfig]
  rw [typeName, typeName, hname, hprefix]

theorem typeName_apply {scene : LoaderScene} {classes : List String} {c : String}
    (h : BulkLoad.apply scene ix settings = (.ok classes, settings')) (hc : c ∉ classes) :
    typeName settings' c = typeName settings c := by
  obtain ⟨explicit, runs, -, -, hlaid, rfl⟩ := BulkLoad.apply_ok h
  have hbeside := (BulkLoad.layOver_ok hlaid).2
  apply typeName_congr
  · apply hbeside
    intro l hl
    have hne : c ≠ l.1 := fun heq => hc (heq ▸ BulkLoad.mem_modelled_of_mem_layers hl)
    simp [Settings.apart_cons_iff, hne]
  · refine hbeside ["modelConfig"] fun l _ => ?_
    simp [Settings.apart_cons_iff]

/-- A field of the class refers to the other class. -/
def Refers (ix : Index) (c target : String) : Prop :=
  ∃ s ∈ (ix.fieldsOf c).values, baseType s.type = target

/-- If the class refers to the other one, the settings let that have a type name. -/
def RefersByName (ix : Index) (settings : Settings) (c target : String) : Prop :=
  Refers ix c target → ∃ name, typeName settings target = .ok name

theorem fieldType_retyped (h : ix.Retyped u v ix') (hu : ix.hasClass u = true) (hv : ix.hasClass v = true)
    {t t' : String} (ht : t = t' ∨ baseType t = u ∧ baseType t' = v)
    (hnamed : baseType t = u → ∃ name, typeName settings u = .ok name)
    (hnamed' : baseType t' = v → ∃ name, typeName settings v = .ok name) :
    Agree (fun x y => x = y ∨ x.2 = some u ∧ y.2 = some v) (fieldType ix settings t)
      (fieldType ix' settings t') := by
  have hclass := h.sameReflection.hasClass
  rcases ht with rfl | ⟨rfl, rfl⟩
  · have hsame : fieldType ix settings t = fieldType ix' settings t := by
      rw [fieldType, fieldType, hclass]
    rw [← hsame]
    cases fieldType ix settings t with
    | error e => exact .error e
    | ok x => exact .ok (.inl rfl)
  · obtain ⟨n, hn⟩ := hnamed rfl
    obtain ⟨n', hn'⟩ := hnamed' rfl
    rw [hclass] at hv
    simp only [fieldType, hu, hv, if_true, hn, hn']
    exact .ok (.inr ⟨rfl, rfl⟩)

theorem modelField_retyped (h : ix.Retyped u v ix') (hu : ix.hasClass u = true) (hv : ix.hasClass v = true)
    {e e' : String × FieldSpec} (hname : e.1 = e'.1) (hspec : FieldSpec.Retyped u v e.2 e'.2)
    (hnamed : baseType e.2.type = u → ∃ name, typeName settings u = .ok name)
    (hnamed' : baseType e'.2.type = v → ∃ name, typeName settings v = .ok name) :
    Agree (fun x y => x.1 = y.1 ∧ ModelField.Alike u v x.2 y.2) (modelField ix settings e)
      (modelField ix' settings e') := by
  have hresolver : declaredResolver e.2 = declaredResolver e'.2 := by
    rw [declaredResolver, declaredResolver, hspec.resolver]
  rw [modelField, modelField, hresolver]
  rcases (fieldType_retyped h hu hv hspec.type hnamed hnamed').elim with
    ⟨f, hx, hy⟩ | ⟨⟨type, target⟩, ⟨type', target'⟩, hx, hy, hxy⟩
  · rw [hx, hy]
    exact .error f
  · rw [hx, hy]
    dsimp only
    cases declaredResolver e'.2 with
    | error f => exact .error f
    | ok r => exact .ok ⟨hname, hspec.description, hspec.args, rfl, hxy.imp_left Prod.mk.inj⟩

theorem model_retyped (h : ix.Retyped u v ix') (hu : ix.hasClass u = true) (hv : ix.hasClass v = true)
    {c : String} (hnamed : RefersByName ix settings c u) (hnamed' : RefersByName ix' settings c v) :
    Agree (Model.Alike u v) (model ix c settings) (model ix' c settings) := by
  have hspecs := (h.fieldsOf c).and_values (fun s hs hbase => hnamed ⟨s, hs, hbase⟩)
    (fun s hs hbase => hnamed' ⟨s, hs, hbase⟩)
  have hfields := Agree.traverse hspecs fun e e' ⟨hname, hspec, hfirst, hsecond⟩ =>
    modelField_retyped h hu hv hname hspec hfirst hsecond
  rw [model, model, h.description]
  rcases hfields.elim with ⟨f, hx, hy⟩ | ⟨xs, ys, hx, hy, hxs⟩
  · rw [hx, hy]
    exact .error f
  · rw [hx, hy]
    dsimp only
    cases defaultResolver settings with
    | error f => exact .error f
    | ok default =>
      cases typeName settings c with
      | error f => exact .error f
      | ok name => exact .ok ⟨rfl, rfl, rfl, rfl, hxs, rfl⟩

/-- A class has a model only if all that it refers to can be named. -/
theorem refersByName_of_model {c target : String} {m : Model} (h : model ix c settings = .ok m)
    (htarget : ix.hasClass target = true) : RefersByName ix settings c target := by
  rintro ⟨s, hs, rfl⟩
  obtain ⟨e, he, rfl⟩ := List.mem_map.mp hs
  rw [model] at h
  split at h
  · cases h
  · next fields hfields =>
    obtain ⟨y, -, hy⟩ := exists_result_of_traverse hfields he
    rcases fieldType_ok (modelField_ok hy).2 with ⟨-, -, name, hname, -⟩ | ⟨hclass, -⟩
    · exact ⟨name, hname⟩
    · rw [htarget] at hclass
      cases hclass

end Entity

namespace Builder

variable {scene : LoaderScene} {registry : Registry} {ctx : Context}

/-- Models every class as an entity. -/
def ofEntities (ix : Index) (scene : LoaderScene) (registry : Registry) : Builder :=
  ⟨ix, scene, registry, [Entity.maker ix]⟩

theorem makeModel_ofEntities (c : String) : (ofEntities ix scene registry).makeModel settings c =
    if ix.hasClass c then Entity.model ix c settings
    else .error (.config s!"models.{c}" "no model creator applies to this class") := by
  rw [makeModel, ofEntities, List.find?_cons, List.find?_nil]
  cases hclass : ix.hasClass c <;> simp [Entity.maker, hclass]

/-- The build makes a model of the class, since it is to be modelled and has no model yet. -/
def Models (b : Builder) (ctx : Context) (c : String) : Prop :=
  ∃ classes settings, BulkLoad.apply b.scene b.index ctx.settings = (.ok classes, settings) ∧
    c ∈ classes ∧ ctx.models.get? c = none

/-- No block selects the class, and no setting names it. -/
def Hides (b : Builder) (ctx : Context) (c : String) : Prop :=
  ∀ classes settings, BulkLoad.apply b.scene b.index ctx.settings = (.ok classes, settings) → c ∉ classes

/-- What is modelled refers to the class only if the settings let it have a type name. -/
def Names (b : Builder) (ctx : Context) (target : String) : Prop :=
  ∀ c, b.Models ctx c → Entity.RefersByName b.index ctx.settings c target

theorem makeModel_retyped (h : ix.Retyped u v ix') (hu : ix.hasClass u = true) (hv : ix.hasClass v = true)
    {c : String} (hnamed : Entity.RefersByName ix settings c u)
    (hnamed' : Entity.RefersByName ix' settings c v) :
    Agree (Model.Alike u v) ((ofEntities ix scene registry).makeModel settings c)
      ((ofEntities ix' scene registry).makeModel settings c) := by
  rw [makeModel_ofEntities, makeModel_ofEntities, ← h.sameReflection.hasClass]
  split
  · exact Entity.model_retyped h hu hv hnamed hnamed'
  · exact .error _

theorem className_makeModel {c : String} {m : Model}
    (h : (ofEntities ix scene registry).makeModel settings c = .ok m) : m.className = c := by
  rw [makeModel_ofEntities] at h
  split at h
  · exact (Entity.models_of_ok h).className
  · cases h

theorem filed_ofEntities (h : Filed ctx.models) :
    Filed ((ofEntities ix scene registry).build ctx).2.models :=
  filed_build h fun _ _ _ => className_makeModel

theorem names_of_build {s : Schema} (h : ((ofEntities ix scene registry).build ctx).1 = .ok s)
    {target : String} (htarget : ix.hasClass target = true)
    (hhidden : (ofEntities ix scene registry).Hides ctx target) :
    (ofEntities ix scene registry).Names ctx target := by
  rintro c ⟨classes, settings, hload, hc, hnone⟩ hrefers
  rw [← Entity.typeName_apply hload (hhidden classes settings hload)]
  rw [fst_build] at h
  split at h
  · cases h
  · rw [hload] at h
    dsimp only at h
    split at h
    · cases h
    · next ms hms =>
      obtain ⟨m, hm⟩ := makeModel_of_modelAll (Prod.ext hms rfl) c hc hnone
      rw [makeModel_ofEntities] at hm
      split at hm
      · exact Entity.refersByName_of_model hm htarget hrefers
      · cases hm

theorem apply_retyped (h : ix.Retyped u v ix') (hloaders : scene.table.Reflective) (settings : Settings) :
    BulkLoad.apply scene ix settings = BulkLoad.apply scene ix' settings :=
  BulkLoad.apply_congr hloaders h.sameReflection h.collection settings

/-- Two builds give the same if what they model refers to hidden classes that can be named. -/
theorem build_eq_of_names (h : ix.Retyped u v ix') (hu : ix.hasClass u = true) (hv : ix.hasClass v = true)
    (hloaders : scene.table.Reflective) (hfiled : Filed ctx.models)
    (hhidden : ∀ c ∈ [u, v], (ofEntities ix scene registry).Hides ctx c)
    (hnames : (ofEntities ix scene registry).Names ctx u)
    (hnames' : (ofEntities ix' scene registry).Names ctx v) :
    ((ofEntities ix scene registry).build ctx).1 = ((ofEntities ix' scene registry).build ctx).1 := by
  have happly := apply_retyped h hloaders ctx.settings
  refine build_eq_of_alike (u := u) (v := v) rfl happly (fun classes settings hload => ?_)
    fun classes settings ms hload hms => ?_
  · refine modelAll_alike (Dict.related_refl Model.alike_refl _) fun c hc hnone => ?_
    refine makeModel_retyped h hu hv ?_ ?_
    · intro hrefers
      rw [Entity.typeName_apply hload (hhidden u (by simp) classes settings hload)]
      exact hnames c ⟨classes, settings, hload, hc, hnone⟩ hrefers
    · intro hrefers
      rw [Entity.typeName_apply hload (hhidden v (by simp) classes settings hload)]
      exact hnames' c ⟨classes, settings, happly ▸ hload, hc, hnone⟩ hrefers
  · have hclasses := className_modelAll hfiled (fun c m hm => className_makeModel hm) (Prod.ext hms rfl)
    simp only [← Bool.not_eq_true, contains_exposedTypes, hclasses]
    exact ⟨hhidden u (by simp) classes settings hload, hhidden v (by simp) classes settings hload⟩

/-- References to hidden classes make no difference to a build, as long as these can be named. Once a build
gives a schema, another class in place of the hidden one gives the same, just when what is modelled refers to
that class only if it can be named. -/
theorem build_retyped (ds ds' : List Descriptor) (ix : Index) (scene : LoaderScene) (registry : Registry)
    (ctx : Context) (u v : String) (hix : Index.ofDescriptors ds = .ok ix)
    (hds : List.Forall₂ (Descriptor.Retyped u v) ds ds') (hu : ix.hasClass u = true)
    (hv : ix.hasClass v = true)
    (hloaders : scene.table.Reflective) (hfiled : Filed ctx.models)
    (hhidden : ∀ c ∈ [u, v], (ofEntities ix scene registry).Hides ctx c) :
    ∃ ix', Index.ofDescriptors ds' = .ok ix' ∧
      ((ofEntities ix scene registry).Names ctx u → (ofEntities ix' scene registry).Names ctx v →
        ((ofEntities ix' scene registry).build ctx).1 = ((ofEntities ix scene registry).build ctx).1) ∧
      ∀ s, ((ofEntities ix scene registry).build ctx).1 = .ok s →
        (((ofEntities ix' scene registry).build ctx).1 = .ok s ↔
          (ofEntities ix' scene registry).Names ctx v) := by
  obtain ⟨ix', hix', hretyped⟩ := Index.exists_retyped hix hds
  have hsame := build_eq_of_names hretyped hu hv hloaders hfiled hhidden
  refine ⟨ix', hix', fun hnames hnames' => (hsame hnames hnames').symm, fun s hs => ?_⟩
  refine ⟨fun hs' => ?_, fun hnames' => ?_⟩
  · refine names_of_build hs' (hretyped.sameReflection.hasClass v ▸ hv) fun classes settings hload => ?_
    exact hhidden v (by simp) classes settings ((apply_retyped hretyped hloaders _).trans hload)
  · rw [← hs]
    exact (hsame (names_of_build hs hu (hhidden u (by simp))) hnames').symm

section Example

/-- Pages, which refer to another class. -/
def linkedPage (target : String) : Descriptor :=
  ⟨"Page", .ordinary, none, [], false, none,
    .ofList [("post", .short target), ("title", .short "String")], "page.json"⟩

/-- Pages and the classes that they may refer to, of which one has a name that no type can have. -/
def linkedDescriptors (target : String) : List Descriptor :=
  linkedPage target :: ["Blog-Post", "Note", "Other"].map fun name =>
    ⟨name, .ordinary, none, [], false, none, .empty, name ++ ".json"⟩

theorem retyped_linkedDescriptors {u v : String} (hu : baseType u = u) (hv : baseType v = v) :
    List.Forall₂ (Descriptor.Retyped u v) (linkedDescriptors u) (linkedDescriptors v) := by
  have hpost : FieldSpec.Retyped u v (.short u) (.short v) := ⟨rfl, rfl, rfl, .inr ⟨hu, hv⟩⟩
  refine .cons ⟨rfl, rfl, rfl, rfl, rfl, rfl, rfl, ?_⟩ (List.forall₂_same.mpr fun d _ => d.retyped_refl)
  exact (Dict.Related.insert .nil "post" hpost).insert "title" (FieldSpec.retyped_refl _)

def linkedScene : LoaderScene := ⟨.builtin, "/", .emptyFolder⟩

/-- Only pages are modelled. -/
def linkedContext : Context :=
  .ofSettings "linked" (.ofList [
    ("resolvers", .strings ["Builtin"]),
    ("defaultResolver", .string "Builtin::resolve"),
    ("models", .ofPairs [("Page", .table .empty)])])

/-- What comes out if pages refer to the class. -/
def buildLinked (ix : Index) : Except Fault Schema :=
  ((ofEntities ix linkedScene .withBuiltins).build linkedContext).1

theorem exists_buildLinked : ∃ ix s, Index.ofDescriptors (linkedDescriptors "Note") = .ok ix ∧
    buildLinked ix = .ok s ∧ ∀ c ∈ ["Blog-Post", "Note", "Other"], ix.hasClass c = true ∧
      (ofEntities ix linkedScene .withBuiltins).Hides linkedContext c := by
  have hcheck : (Index.ofDescriptors (linkedDescriptors "Note")).toOption.map (fun ix =>
      (["Blog-Post", "Note", "Other"].all ix.hasClass,
        (BulkLoad.apply linkedScene ix linkedContext.settings).1.toOption,
        (buildLinked ix).toOption.isSome)) = some (true, some ["Page"], true) := by
    decide +kernel
  obtain ⟨ix, hix, hfacts⟩ := Option.map_eq_some_iff.mp hcheck
  obtain ⟨hclasses, hfacts⟩ := Prod.mk.inj hfacts
  obtain ⟨hload, hsome⟩ := Prod.mk.inj hfacts
  obtain ⟨s, hs⟩ := Option.isSome_iff_exists.mp hsome
  refine ⟨ix, s, eq_ok_of_toOption hix, eq_ok_of_toOption hs, fun c hc => ?_⟩
  refine ⟨List.all_eq_true.mp hclasses c hc, fun classes settings happly => ?_⟩
  change BulkLoad.apply linkedScene ix linkedContext.settings = _ at happly
  rw [happly] at hload
  obtain rfl : classes = ["Page"] := Option.some.inj hload
  intro hpage
  obtain rfl := List.mem_singleton.mp hpage
  simp at hc

theorem build_retyped_linked : ∃ ix ix' s, Index.ofDescriptors (linkedDescriptors "Note") = .ok ix ∧
    Index.ofDescriptors (linkedDescriptors "Other") = .ok ix' ∧
    buildLinked ix = .ok s ∧ buildLinked ix' = .ok s := by
  obtain ⟨ix, s, hix, hs, hclasses⟩ := exists_buildLinked
  obtain ⟨ix', hix', -, hiff⟩ := build_retyped (linkedDescriptors "Note") (linkedDescriptors "Other") ix
    linkedScene .withBuiltins linkedContext "Note" "Other" hix
    (retyped_linkedDescriptors (by decide) (by decide)) (hclasses "Note" (by simp)).1
    (hclasses "Other" (by simp)).1 LoaderTable.reflective_builtin (fun c m hm => by cases hm)
    (fun c hc => (hclasses c (by simp at hc ⊢; tauto)).2)
  refine ⟨ix, ix', s, hix, hix', hs, (hiff s hs).mpr fun c _ _ => ?_⟩
  have hname : (Entity.typeName linkedContext.settings "Other").toOption = some "Other" := by
    decide +kernel
  exact ⟨"Other", eq_ok_of_toOption hname⟩

/-- Pages that refer to a class whose name no type can have make no schema, although that class is
hidden. -/
theorem not_retyped_linked : ¬ ∀ (ds ds' : List Descriptor) (ix ix' : Index) (scene : LoaderScene)
    (registry : Registry) (ctx : Context) (u v : String), Index.ofDescriptors ds = .ok ix →
      Index.ofDescriptors ds' = .ok ix' → List.Forall₂ (Descriptor.Retyped u v) ds ds' →
        ix.hasClass u = true → ix.hasClass v = true → scene.table.Reflective → Filed ctx.models →
          (∀ c ∈ [u, v], (ofEntities ix scene registry).Hides ctx c) →
            ((ofEntities ix' scene registry).build ctx).1 = ((ofEntities ix scene registry).build ctx).1 := by
  intro hall
  obtain ⟨ix, s, hix, hs, hclasses⟩ := exists_buildLinked
  have hcheck : (Index.ofDescriptors (linkedDescriptors "Blog-Post")).toOption.map (fun ix =>
      (buildLinked ix).toOption.isSome) = some false := by
    decide +kernel
  obtain ⟨ix', hix', hnone⟩ := Option.map_eq_some_iff.mp hcheck
  have hsame : buildLinked ix' = buildLinked ix :=
    hall _ _ ix ix' linkedScene .withBuiltins linkedContext "Note" "Blog-Post" hix (eq_ok_of_toOption hix')
      (retyped_linkedDescriptors (by decide) (by decide)) (hclasses "Note" (by simp)).1
      (hclasses "Blog-Post" (by simp)).1 LoaderTable.reflective_builtin (fun c m hm => by cases hm)
      (fun c hc => (hclasses c (by simp at hc ⊢; tauto)).2)
  rw [hsame, hs] at hnone
  cases hnone

end Example

end Builder

end ClassSchema
