import ClassSchema.Proofs.Build.Bound
import ClassSchema.Proofs.Build.Decisions
import ClassSchema.Proofs.Build.Layers
import ClassSchema.Proofs.Related

/-!
# Origins of fields

Every field of a schema comes from a model, from a declared type, or from a root section, which goes over the
others; what remains are generated operations. Decisions are kept by type and field alone, so a field of a
root section may get what was decided for a model.
-/

namespace ClassSchema

open Decisions (Adds)

namespace Model

/-- The settings of a field of a model, if its type gets the field. -/
def selected? (m : Model) (own : ModelSettings) (exposed : Dict String) (name : String) :
    Option FieldSettings :=
  match own.fields.resolve m.fields.keys s!"models.{m.className}.fields" with
  | .error _ => none
  | .ok selected =>
    (selected.get? name).filter fun s => !own.excludeFields.contains name &&
      match m.fieldType exposed name s with
      | .ok (some _) => true
      | _ => false

end Model

/-- The fields of an object type are those of the origins, each bound. -/
structure ObjectType.Traced (o : ObjectType) (origin : String → Option Origin) (d : Decisions) :
    Prop where
  present : ∀ name g, origin name = some g →
    ∃ f, o.fields.get? name = some f ∧ g.Binds d o.name name f
  covered : ∀ name f, o.fields.get? name = some f → (origin name).isSome

section Objects

variable {b : Bindings} {d d' : Decisions} {m : Model} {own : ModelSettings} {exposed : Dict String}
  {name : String} {o : ObjectType}

theorem FieldSelection.sorted_resolve {modelFields : List String} {key : String}
    {selection : FieldSelection} {selected : Dict FieldSettings}
    (h : selection.resolve modelFields key = .ok selected) : selected.Sorted := by
  cases selection with
  | wildcard s =>
    rw [resolve] at h
    split at h
    · obtain rfl := Except.ok.inj h
      exact Dict.sorted_ofList _
    · cases h
  | names listed =>
    obtain rfl := Except.ok.inj h
    exact Dict.sorted_ofList _
  | configured fields =>
    obtain rfl := Except.ok.inj h
    apply Dict.Sorted.insertAll
    split
    · exact Dict.sorted_ofList _
    · exact Dict.sorted_empty

theorem Model.selected?_eq_some_iff {selected : Dict FieldSettings} {s : FieldSettings}
    (h : own.fields.resolve m.fields.keys s!"models.{m.className}.fields" = .ok selected) :
    m.selected? own exposed name = some s ↔
      (name, s) ∈ selected.entries.filter (fun e => !own.excludeFields.contains e.1) ∧
        ∃ fieldType, m.fieldType exposed name s = .ok (some fieldType) := by
  have htype : (match m.fieldType exposed name s with | .ok (some _) => true | _ => false) = true ↔
      ∃ fieldType, m.fieldType exposed name s = .ok (some fieldType) := by
    cases m.fieldType exposed name s with
    | error e => simp
    | ok fieldType => cases fieldType <;> simp
  rw [selected?, h]
  simp only [Option.filter_eq_some_iff, Bool.and_eq_true, htype,
    (FieldSelection.sorted_resolve h).get?_eq_some_iff, List.mem_filter, and_assoc]

section Made

variable {α : Type} {kept : List (String × α)} {made : List (Option Field)}
  {Becomes : String × α → Option Field → Prop}

theorem sublist_names_made (hname : ∀ e f, Becomes e (some f) → f.name = e.1)
    (h : List.Forall₂ Becomes kept made) :
    ((made.filterMap id).map Field.name).Sublist (kept.map (·.1)) := by
  induction h with
  | nil => exact .slnil
  | @cons e y kept made he _ ih =>
    cases y with
    | none => exact ih.cons _
    | some f =>
      show (f.name :: (made.filterMap id).map Field.name).Sublist _
      rw [List.map_cons, hname e f he]
      exact ih.cons_cons _

theorem get?_ofList_made (hkept : (Dict.mk kept).Sorted)
    (hname : ∀ e f, Becomes e (some f) → f.name = e.1) (h : List.Forall₂ Becomes kept made)
    (name : String) (f : Field) :
    (Dict.ofList ((made.filterMap id).map fun f => (f.name, f))).get? name = some f ↔
      some f ∈ made ∧ f.name = name := by
  have hsorted : (Dict.mk ((made.filterMap id).map fun f => (f.name, f))).Sorted := by
    have hnames := (List.pairwise_map.mpr hkept).sublist (sublist_names_made hname h)
    exact List.pairwise_map.mpr (List.pairwise_map.mp hnames)
  rw [hsorted.ofList_entries, hsorted.get?_eq_some_iff]
  simp only [List.mem_map, List.mem_filterMap, id_eq, exists_eq_right, Prod.mk.injEq]
  constructor
  · rintro ⟨f, hf, rfl, rfl⟩
    exact ⟨hf, rfl⟩
  · rintro ⟨hf, rfl⟩
    exact ⟨f, hf, rfl, rfl⟩

theorem traced_made {origin : String → Option Origin}
    (hfields : o.fields = Dict.ofList ((made.filterMap id).map fun f => (f.name, f)))
    (hkept : (Dict.mk kept).Sorted) (hname : ∀ e f, Becomes e (some f) → f.name = e.1)
    (h : List.Forall₂ Becomes kept made)
    (hmade : ∀ name g, origin name = some g →
      ∃ e ∈ kept, ∀ y, Becomes e y → ∃ f, y = some f ∧ f.name = name ∧ g.Binds d o.name name f)
    (hcovered : ∀ e ∈ kept, ∀ f, Becomes e (some f) → (origin e.1).isSome) : o.Traced origin d := by
  have hget := get?_ofList_made hkept hname h
  rw [← hfields] at hget
  constructor
  · intro name g hg
    obtain ⟨e, he, hbecomes⟩ := hmade name g hg
    obtain ⟨y, hy, hey⟩ := exists_right_of_forall₂ h he
    obtain ⟨f, rfl, hfname, hbinds⟩ := hbecomes y hey
    exact ⟨f, (hget name f).mpr ⟨hy, hfname⟩, hbinds⟩
  · intro name f hf
    obtain ⟨hmem, rfl⟩ := (hget name f).mp hf
    obtain ⟨e, he, hef⟩ := exists_left_of_forall₂ h hmem
    rw [hname e f hef]
    exact hcovered e he f hef

end Made

theorem Model.objectType_ok (h : m.objectType b own exposed d = .ok o d') :
    o.name = m.typeName ∧
      o.Traced (fun name => (m.selected? own exposed name).map (⟨some m, ·⟩)) d' ∧
      Adds (fun t n q => t = m.typeName ∧ ∃ s, m.selected? own exposed n = some s ∧
        Origin.Decides ⟨some m, s⟩ b t n q) d d' := by
  obtain ⟨selected, hselected, h⟩ := Deciding.ofExcept_bind_ok_iff.mp h
  obtain ⟨made, d₁, hmade, h⟩ := bind_ok_iff.mp h
  obtain ⟨rfl, rfl⟩ := EStateM.Result.ok.inj h
  obtain ⟨hmakes, hadds⟩ := Deciding.each_ok (P := m.Makes exposed)
    (A := fun t n q => t = m.typeName ∧ ∃ s, m.selected? own exposed n = some s ∧
      Origin.Decides ⟨some m, s⟩ b t n q) (fun _ _ _ _ h => h.kept)
    (fun e he d made d' hfield => by
      obtain ⟨hmade, hadds⟩ := Model.field_ok hfield
      refine ⟨hmade, hadds.mono ?_⟩
      rintro t n q ⟨htype, rfl, rfl, hdecides⟩
      exact ⟨rfl, e.2, (selected?_eq_some_iff hselected).mpr ⟨he, htype⟩, hdecides⟩)
    hmade
  have hsorted := (FieldSelection.sorted_resolve hselected).filter
    fun name _ => !own.excludeFields.contains name
  refine ⟨rfl, traced_made rfl hsorted ?_ hmakes ?_ ?_, hadds⟩
  · rintro e f (⟨-, hnone⟩ | ⟨-, g, hg, hname, -⟩)
    · cases hnone
    · rw [Option.some.inj hg, hname]
  · intro name g hg
    obtain ⟨s, hs, rfl⟩ := Option.map_eq_some_iff.mp hg
    obtain ⟨hmem, fieldType, htype⟩ := (selected?_eq_some_iff hselected).mp hs
    refine ⟨_, hmem, ?_⟩
    rintro y (⟨hnone, -⟩ | ⟨-, f, rfl, hfname, hbinds⟩)
    · exact absurd htype (hnone fieldType)
    · exact ⟨f, rfl, hfname, hbinds⟩
  · rintro e he f (⟨-, hnone⟩ | ⟨htype, -⟩)
    · cases hnone
    · rw [Option.isSome_map, (selected?_eq_some_iff hselected).mpr ⟨he, htype⟩]
      rfl

theorem Builder.declaredType_ok {e : String × TypeSettings} (hsorted : e.2.fields.Sorted)
    (h : Builder.declaredType b e d = .ok o d') :
    o.name = e.1 ∧ o.Traced (fun name => (e.2.fields.get? name).map (⟨none, ·⟩)) d' ∧
      Adds (fun t n q => t = e.1 ∧ ∃ s, e.2.fields.get? n = some s ∧
        Origin.Decides ⟨none, s⟩ b t n q) d d' := by
  obtain ⟨made, d₁, hmade, h⟩ := bind_ok_iff.mp h
  obtain ⟨rfl, rfl⟩ := EStateM.Result.ok.inj h
  obtain ⟨hmakes, hadds⟩ := Deciding.each_ok
    (P := fun (x : String × FieldSettings) (f : Field) (d : Decisions) =>
      f.name = x.1 ∧ Origin.Binds ⟨none, x.2⟩ d e.1 x.1 f)
    (A := fun t n q => t = e.1 ∧ ∃ s, e.2.fields.get? n = some s ∧
      Origin.Decides ⟨none, s⟩ b t n q) (fun _ _ _ _ h hkept => ⟨h.1, h.2.kept hkept⟩)
    (fun x hx d f d' hfield => by
      obtain ⟨hgood, hadds⟩ := declaredField_ok hfield
      refine ⟨hgood, hadds.mono ?_⟩
      rintro t n q ⟨rfl, rfl, hdecides⟩
      exact ⟨rfl, x.2, (hsorted.get?_eq_some_iff _ _).mpr hx, hdecides⟩)
    hmade
  have hmap : List.Forall₂ (fun (x : String × FieldSettings) (y : Option Field) => ∃ f, y = some f ∧
      f.name = x.1 ∧ Origin.Binds ⟨none, x.2⟩ d₁ e.1 x.1 f) e.2.fields.entries (made.map some) := by
    apply List.forall₂_map_right_iff.mpr
    exact hmakes.imp fun x f hf => ⟨f, rfl, hf⟩
  refine ⟨rfl, traced_made (by simp) hsorted ?_ hmap ?_ ?_, hadds⟩
  · rintro x f ⟨g, hg, hgname, -⟩
    rw [Option.some.inj hg, hgname]
  · intro name g hg
    obtain ⟨s, hs, rfl⟩ := Option.map_eq_some_iff.mp hg
    refine ⟨_, (hsorted.get?_eq_some_iff _ _).mp hs, ?_⟩
    rintro y ⟨f, rfl, hfname, hbinds⟩
    exact ⟨f, rfl, hfname, hbinds⟩
  · intro x hx f _
    rw [Option.isSome_map, (hsorted.get?_eq_some_iff x.1 x.2).mpr hx]
    rfl

end Objects

/-! ## Schemas on their way -/

/-- Every origin has its field in the schema, and there are no other fields than those and generated ones. -/
structure Schema.Traced (s : Schema) (generated : String → Field → Prop)
    (origin : String → String → Option Origin) (d : Decisions) : Prop where
  present : ∀ type name g, origin type name = some g → ∃ o f, s.get? type = some (.object o) ∧
    o.fields.get? name = some f ∧ g.Binds d type name f
  covered : ∀ type name o f, s.get? type = some (.object o) → o.fields.get? name = some f →
    (origin type name).isSome ∨ generated type f

/-- Every decision is what the origin of its field finds. -/
def Decisions.Sited (d : Decisions) (b : Bindings) (origin : String → String → Option Origin) : Prop :=
  ∀ type name r, d.get? type name = some r →
    ∃ g, origin type name = some g ∧ g.Decides b type name r

namespace Schema

variable {s s' : Schema} {generated : String → Field → Prop}
  {origin : String → String → Option Origin} {d d' : Decisions} {b : Bindings} {o : ObjectType}

theorem traced_new (name : String) (generated : String → Field → Prop) (d : Decisions) :
    (new name).Traced generated (fun _ _ => none) d where
  present := by
    intro type name g h
    cases h
  covered := by
    intro type name o f h
    cases h

theorem Traced.kept (h : s.Traced generated origin d)
    (hkept : ∀ type field r, d.get? type field = some r → d'.get? type field = some r) :
    s.Traced generated origin d' where
  present := by
    intro type name g hg
    obtain ⟨o, f, ho, hf, hbinds⟩ := h.present type name g hg
    exact ⟨o, f, ho, hf, hbinds.kept hkept⟩
  covered := h.covered

/-- The schemas have the same object types. -/
def SameObjects (s s' : Schema) : Prop :=
  ∀ type o, s'.get? type = some (.object o) ↔ s.get? type = some (.object o)

theorem SameObjects.add {s'' : Schema} {definition : Definition} (h : s.SameObjects s')
    (hdefinition : ∀ o, definition ≠ .object o) (hadd : s'.add definition = .ok s'') :
    s.SameObjects s'' := by
  obtain ⟨-, -, hnew, rfl⟩ := add_ok hadd
  intro type o
  rw [get?_put, ← h type o]
  split
  · next htype =>
    rw [htype, hnew]
    simp [hdefinition o]
  · rfl

theorem Traced.congr (h : s.Traced generated origin d) (hsame : s.SameObjects s') :
    s'.Traced generated origin d where
  present := by
    intro type name g hg
    obtain ⟨o, f, ho, hf, hbinds⟩ := h.present type name g hg
    exact ⟨o, f, (hsame type o).mpr ho, hf, hbinds⟩
  covered := fun type name o f ho => h.covered type name o f ((hsame type o).mp ho)

theorem Traced.origin_eq_none (h : s.Traced generated origin d) {type : String}
    (htype : s.get? type = none) (name : String) : origin type name = none := by
  by_contra hsome
  obtain ⟨g, hg⟩ := Option.ne_none_iff_exists'.mp hsome
  obtain ⟨o, -, ho, -⟩ := h.present type name g hg
  rw [htype] at ho
  cases ho

theorem Traced.addObject (h : s.Traced generated origin d) {more : String → Option Origin}
    (ho : o.Traced more d) (hadd : s.add (.object o) = .ok s') :
    s'.Traced generated (fun type name => (origin type name).or
      (if type = o.name then more name else none)) d := by
  obtain ⟨-, -, hnew, rfl⟩ := add_ok hadd
  have hnone : ∀ name, origin o.name name = none := h.origin_eq_none hnew
  show (s.put o.name (.object o)).Traced _ _ _
  constructor
  · intro type name g hg
    rw [get?_put]
    by_cases htype : type = o.name
    · subst htype
      rw [hnone, Option.none_or, if_pos rfl] at hg
      obtain ⟨f, hf, hbinds⟩ := ho.present name g hg
      exact ⟨o, f, if_pos rfl, hf, hbinds⟩
    · rw [if_neg htype, Option.or_none] at hg
      obtain ⟨o', f, ho', hf, hbinds⟩ := h.present type name g hg
      exact ⟨o', f, by rw [if_neg htype, ho'], hf, hbinds⟩
  · intro type name o' f ho' hf
    rw [get?_put] at ho'
    split at ho'
    · next htype =>
      obtain rfl : o = o' := by simpa using ho'
      exact .inl (by rw [if_pos htype, Option.isSome_or, ho.covered name f hf, Bool.or_true])
    · next htype =>
      rw [if_neg htype, Option.or_none]
      exact h.covered type name o' f ho' hf

theorem Traced.sited_addObject (h : s.Traced generated origin d) (hd : d.Sited b origin)
    {more : String → Option Origin} (hnew : s.get? o.name = none)
    (hadds : Adds (fun t n q => t = o.name ∧ ∃ g, more n = some g ∧ g.Decides b t n q) d d') :
    d'.Sited b fun type name => (origin type name).or (if type = o.name then more name else none) := by
  intro type name r hr
  rcases hadds.made type name r hr with hr | ⟨rfl, g, hg, hdecides⟩
  · obtain ⟨g, hg, hdecides⟩ := hd type name r hr
    exact ⟨g, by simp [hg], hdecides⟩
  · exact ⟨g, by simp [h.origin_eq_none hnew, hg], hdecides⟩

theorem get?_root_iff {root name : String} {f : Field} (hroot : s.root root = .ok o) :
    o.fields.get? name = some f ↔
      ∃ o', s.get? root = some (.object o') ∧ o'.fields.get? name = some f := by
  rw [Schema.root] at hroot
  split at hroot
  · next hnone =>
    obtain rfl := Except.ok.inj hroot
    simp [hnone, ObjectType.new]
  · next o' ho' =>
    obtain rfl := Except.ok.inj hroot
    simp [ho']
  · cases hroot

theorem get?_addRootField_iff {root type name : String} {f : Field} (hroot : s.root root = .ok o)
    (f' : Field) :
    (∃ o', (s.put root (.object (o.addField f))).get? type = some (.object o') ∧
        o'.fields.get? name = some f') ↔
      if type = root ∧ name = f.name then f = f'
      else ∃ o', s.get? type = some (.object o') ∧ o'.fields.get? name = some f' := by
  have hget (name : String) : (o.addField f).fields.get? name =
      if name = f.name then some f else o.fields.get? name := Dict.get?_insert _ _ _ _
  rw [get?_put]
  by_cases htype : type = root
  · subst htype
    by_cases hname : name = f.name
    · simp [hget, hname]
    · simp [hget, hname, get?_root_iff hroot]
  · simp [htype]

theorem Traced.addRootField (h : s.Traced generated origin d) {root : String} {f : Field}
    {origin' : String → String → Option Origin} (hroot : s.root root = .ok o)
    (hothers : ∀ type name, ¬ (type = root ∧ name = f.name) → origin' type name = origin type name)
    (hown : (∃ g, origin' root f.name = some g ∧ g.Binds d root f.name f) ∨
      origin' root f.name = none ∧ generated root f) :
    (s.put root (.object (o.addField f))).Traced generated origin' d := by
  constructor
  · intro type name g hg
    by_cases hsame : type = root ∧ name = f.name
    · obtain ⟨o', ho', hf'⟩ := (get?_addRootField_iff hroot f).mpr (by rw [if_pos hsame])
      obtain ⟨rfl, rfl⟩ := hsame
      rcases hown with ⟨g', hg', hbinds⟩ | ⟨hnone, -⟩
      · obtain rfl : g' = g := Option.some.inj (hg'.symm.trans hg)
        exact ⟨o', f, ho', hf', hbinds⟩
      · rw [hnone] at hg
        cases hg
    · rw [hothers type name hsame] at hg
      obtain ⟨o', f', ho', hf', hbinds⟩ := h.present type name g hg
      obtain ⟨o'', ho'', hf''⟩ := (get?_addRootField_iff hroot f').mpr
        (by rw [if_neg hsame]; exact ⟨o', ho', hf'⟩)
      exact ⟨o'', f', ho'', hf'', hbinds⟩
  · intro type name o' f' ho' hf'
    have hfield := (get?_addRootField_iff hroot f').mp ⟨o', ho', hf'⟩
    split at hfield
    · next hsame =>
      obtain ⟨rfl, rfl⟩ := hsame
      subst hfield
      rcases hown with ⟨g, hg, -⟩ | ⟨-, hgenerated⟩
      · exact .inl (by rw [hg]; rfl)
      · exact .inr hgenerated
    · next hsame =>
      obtain ⟨o'', ho'', hf''⟩ := hfield
      rw [hothers type name hsame]
      exact h.covered type name o'' f' ho'' hf''

end Schema

/-! ## The stages of a build -/

namespace Builder

/-- Where a field of the type of a model comes from. -/
def modelOrigin (settings : Settings) (exposed : Dict String) (type name : String) (m : Model) :
    Option Origin :=
  if type = m.typeName then
    (modelSettings settings m.className).toOption.bind fun own =>
      (m.selected? own exposed name).map (⟨some m, ·⟩)
  else none

/-- Where a field of a declared type comes from. -/
def typeOrigin (type name : String) (e : String × TypeSettings) : Option Origin :=
  if type = e.1 then (e.2.fields.get? name).map (⟨none, ·⟩) else none

/-- The field is the query field of an operation of a model. -/
def Generated (b : Bindings) (settings : Settings) (models : List Model) (type : String) (f : Field) :
    Prop :=
  type = queryType ∧ ∃ m ∈ models, ∃ own op, modelSettings settings m.className = .ok own ∧
    op ∈ own.operations ∧ op.field b m.typeName = .ok f

variable {b : Bindings} {settings : Settings} {exposed : Dict String} {models : List Model}
  {s s' : Schema} {origin : String → String → Option Origin} {d d' : Decisions} {m : Model}

theorem foldlM_traced {α : Type} {generated : String → Field → Prop} {xs : List α}
    {work : Schema → α → Deciding Schema} {more : String → String → α → Option Origin}
    (hstep : ∀ x ∈ xs, ∀ {s s' : Schema} {d d' : Decisions} {origin : String → String → Option Origin},
      s.Traced generated origin d → d.Sited b origin → work s x d = .ok s' d' →
        s'.Traced generated (fun type name => (origin type name).or (more type name x)) d' ∧
          d'.Sited b fun type name => (origin type name).or (more type name x))
    (h : s.Traced generated origin d) (hd : d.Sited b origin) (hadd : xs.foldlM work s d = .ok s' d') :
    s'.Traced generated (fun type name => (origin type name).or (xs.findSome? (more type name))) d' ∧
      d'.Sited b fun type name => (origin type name).or (xs.findSome? (more type name)) := by
  induction xs generalizing s d origin with
  | nil =>
    obtain ⟨rfl, rfl⟩ := EStateM.Result.ok.inj hadd
    simpa using ⟨h, hd⟩
  | cons x xs ih =>
    rw [List.foldlM_cons] at hadd
    obtain ⟨s₁, d₁, hfirst, hadd⟩ := bind_ok_iff.mp hadd
    obtain ⟨hx, hxs⟩ := List.forall_mem_cons.mp hstep
    obtain ⟨h, hd⟩ := hx h hd hfirst
    have hcons (type name : String) : (x :: xs).findSome? (more type name) =
        (more type name x).or (xs.findSome? (more type name)) := by
      rw [List.findSome?_cons]
      cases more type name x <;> rfl
    simp only [hcons, ← Option.or_assoc]
    exact ih hxs h hd hadd

theorem traced_addTo {own : ModelSettings} {op : Operation}
    (h : s.Traced (Generated b settings models) origin d) (hm : m ∈ models)
    (hown : modelSettings settings m.className = .ok own) (hop : op ∈ own.operations)
    (hadd : op.addTo b m s = .ok s') : s'.Traced (Generated b settings models) origin d := by
  obtain ⟨f, query, hfield, hroot, hnew, rfl⟩ := Operation.addTo_ok hadd
  apply h.addRootField hroot (fun _ _ _ => rfl)
  right
  refine ⟨?_, rfl, m, hm, own, op, hown, hop, hfield⟩
  -- The name would be taken if it had an origin.
  by_contra hsome
  obtain ⟨g, hg⟩ := Option.ne_none_iff_exists'.mp hsome
  obtain ⟨o, f', ho, hf', -⟩ := h.present _ _ g hg
  have hpresent := (Schema.get?_root_iff hroot).mpr ⟨o, ho, hf'⟩
  rw [hnew] at hpresent
  cases hpresent

theorem addModel_ok (hm : m ∈ models) (h : s.Traced (Generated b settings models) origin d)
    (hd : d.Sited b origin) (hadd : addModel b settings exposed s m d = .ok s' d') :
    s'.Traced (Generated b settings models)
        (fun type name => (origin type name).or (modelOrigin settings exposed type name m)) d' ∧
      d'.Sited b fun type name =>
        (origin type name).or (modelOrigin settings exposed type name m) := by
  obtain ⟨own, hown, hadd⟩ := Deciding.ofExcept_bind_ok_iff.mp hadd
  obtain ⟨o, d₁, hobject, hadd⟩ := bind_ok_iff.mp hadd
  obtain ⟨s₁, hs₁, hadd⟩ := Deciding.ofExcept_bind_ok_iff.mp hadd
  obtain ⟨hops, rfl⟩ := Deciding.ofExcept_ok_iff.mp hadd
  obtain ⟨hname, ho, hadds⟩ := Model.objectType_ok hobject
  have horigin (type name : String) : modelOrigin settings exposed type name m =
      if type = o.name then (m.selected? own exposed name).map (⟨some m, ·⟩) else none := by
    rw [modelOrigin, hown, hname]
    rfl
  simp only [horigin]
  constructor
  · have htraced := (h.kept hadds.kept).addObject ho hs₁
    refine foldlM_ok (P := fun s : Schema => s.Traced _ _ _) htraced (fun s op hop s' hs hadd => ?_) hops
    exact traced_addTo hs hm hown (by simpa using (List.mem_filter.mp hop).2) hadd
  · obtain ⟨-, -, hnew, -⟩ := Schema.add_ok hs₁
    apply h.sited_addObject hd hnew
    apply hadds.mono
    rintro t n q ⟨rfl, settings, hselected, hdecides⟩
    exact ⟨hname.symm, _, by rw [hselected]; rfl, hdecides⟩

theorem sameObjects_addPlain (hadd : addPlain settings s = .ok s') : s.SameObjects s' :=
  addPlain_ok (P := s.SameObjects) (fun _ _ _ hplain _ hs hstep => hs.add hplain hstep)
    (fun _ _ => .rfl) hadd

theorem addType_ok {generated : String → Field → Prop} {e : String × TypeSettings}
    (hsorted : e.2.fields.Sorted) (h : s.Traced generated origin d) (hd : d.Sited b origin)
    (hadd : addType b s e d = .ok s' d') :
    s'.Traced generated (fun type name => (origin type name).or (typeOrigin type name e)) d' ∧
      d'.Sited b fun type name => (origin type name).or (typeOrigin type name e) := by
  obtain ⟨o, d₁, hobject, hadd⟩ := bind_ok_iff.mp hadd
  obtain ⟨hs', rfl⟩ := Deciding.ofExcept_ok_iff.mp hadd
  obtain ⟨hname, ho, hadds⟩ := declaredType_ok hsorted hobject
  have horigin (type name : String) : typeOrigin type name e =
      if type = o.name then (e.2.fields.get? name).map (⟨none, ·⟩) else none := by
    rw [typeOrigin, hname]
  simp only [horigin]
  constructor
  · exact (h.kept hadds.kept).addObject ho hs'
  · obtain ⟨-, -, hnew, -⟩ := Schema.add_ok hs'
    apply h.sited_addObject hd hnew
    apply hadds.mono
    rintro t n q ⟨rfl, settings, hsettings, hdecides⟩
    exact ⟨hname.symm, _, by rw [hsettings]; rfl, hdecides⟩

/-- Where a field of a root section comes from. -/
def sectionOrigin (root : String) (fields : List (String × FieldSettings)) (type name : String) :
    Option Origin :=
  (if type = root then Dict.lookup name fields.reverse else none).map (⟨none, ·⟩)

theorem sectionOrigin_cons (root : String) (e : String × FieldSettings)
    (fields : List (String × FieldSettings)) (type name : String) :
    sectionOrigin root (e :: fields) type name =
      (sectionOrigin root fields type name).or (sectionOrigin root [e] type name) := by
  by_cases htype : type = root
  · simp [sectionOrigin, htype, Dict.lookup_append, Option.map_or]
  · simp [sectionOrigin, htype]

/-- The decision is one of a field without a model. -/
def Modelless (b : Bindings) (type name : String) (r : Reference) : Prop :=
  ∃ g : Origin, g.model = none ∧ g.Decides b type name r

theorem addRootField_ok {generated : String → Field → Prop} {root : String} {e : String × FieldSettings}
    (h : s.Traced generated origin d) (hadd : addRootField b root s e d = .ok s' d') :
    s'.Traced generated (fun type name => (sectionOrigin root [e] type name).or (origin type name)) d' ∧
      Adds (Modelless b) d d' := by
  obtain ⟨f, d₁, hfield, hadd⟩ := bind_ok_iff.mp hadd
  obtain ⟨o, hroot, hadd⟩ := Deciding.ofExcept_bind_ok_iff.mp hadd
  obtain ⟨rfl, rfl⟩ := EStateM.Result.ok.inj hadd
  obtain ⟨⟨hname, hbinds⟩, hadds⟩ := declaredField_ok hfield
  constructor
  · apply (h.kept hadds.kept).addRootField hroot
    · intro type name hother
      have hnone : sectionOrigin root [e] type name = none := by
        by_cases htype : type = root
        · have hne : e.1 ≠ name := fun heq => hother ⟨htype, by rw [hname, heq]⟩
          simp [sectionOrigin, htype, Dict.lookup, hne]
        · simp [sectionOrigin, htype]
      rw [hnone, Option.none_or]
    · refine .inl ⟨⟨none, e.2⟩, ?_, hname ▸ hbinds⟩
      simp [sectionOrigin, Dict.lookup, hname]
  · apply hadds.mono
    rintro t n q ⟨rfl, rfl, hdecides⟩
    exact ⟨⟨none, e.2⟩, rfl, hdecides⟩

theorem addRootFields_ok {generated : String → Field → Prop} {root : String}
    {fields : List (String × FieldSettings)} (h : s.Traced generated origin d)
    (hadd : fields.foldlM (addRootField b root) s d = .ok s' d') :
    s'.Traced generated (fun type name => (sectionOrigin root fields type name).or (origin type name))
        d' ∧
      Adds (Modelless b) d d' := by
  induction fields generalizing s d origin with
  | nil =>
    obtain ⟨rfl, rfl⟩ := EStateM.Result.ok.inj hadd
    refine ⟨?_, .refl _ _⟩
    simpa [sectionOrigin, Dict.lookup] using h
  | cons e fields ih =>
    rw [List.foldlM_cons] at hadd
    obtain ⟨s₁, d₁, hfirst, hadd⟩ := bind_ok_iff.mp hadd
    obtain ⟨htraced, hadds⟩ := addRootField_ok h hfirst
    obtain ⟨htraced, hrest⟩ := ih htraced hadd
    refine ⟨?_, hadds.trans hrest⟩
    simp only [sectionOrigin_cons root e fields, Option.or_assoc]
    exact htraced

end Builder

end ClassSchema
