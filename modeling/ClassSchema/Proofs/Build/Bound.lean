import ClassSchema.Build.Builder
import ClassSchema.Proofs.Build.Ensures
import ClassSchema.Proofs.Schema.WellFormed
import Mathlib.Data.List.Nodup

/-!
# What a build gives

Every field of an object type is bound on its way into the schema, whichever way it takes; names are
checked where a definition is added. Both are carried from one addition to the next, together with the
object types of the models.
-/

namespace ClassSchema

/-- The field has a plan, and every reference of the plan can be bound. -/
def Field.Bound (r : Registry) (f : Field) : Prop :=
  ∃ p, f.resolver = some p ∧ ∃ chain, p.bind r = .ok chain

structure ObjectType.Bound (r : Registry) (o : ObjectType) : Prop where
  sorted : o.fields.Sorted
  bound : ∀ key f, o.fields.get? key = some f → f.name = key ∧ f.Bound r

/-- Fields are bound in object types, and in no others. -/
def Definition.Bound (r : Registry) : Definition → Prop
  | .object o => o.Bound r
  | .interface i => ∀ f ∈ i.fields.values, f.resolver = none
  | .input _ | .union _ | .enum _ | .scalar _ => True

/-- A schema on its way to completion, with the models that have a type so far. -/
structure Schema.Assembled (r : Registry) (models : List Model) (s : Schema) : Prop
    extends s.Named where
  foreign : ∀ key ∈ builtinScalars, s.get? key = none
  bound : ∀ key d, s.get? key = some d → d.Bound r
  typed : ∀ m ∈ models, ∃ o, s.get? m.typeName = some (.object o)
  distinct : (models.map Model.typeName).Nodup

section Fields

variable {b : Bindings} {p q : Plan} {f : Field} {o : ObjectType} {r : Registry}

theorem Bindings.bindable_ok (h : b.bindable p = .ok q) :
    q = p ∧ ∃ chain, q.bind b.registry = .ok chain := by
  rw [bindable] at h
  split at h
  · cases h
  · next chain hbind =>
    obtain rfl := Except.ok.inj h
    exact ⟨rfl, chain, hbind⟩

theorem Bindings.plan_ok {s : FieldSettings} {primary : Reference} (h : b.plan s primary = .ok p) :
    ∃ chain, p.bind b.registry = .ok chain := by
  rw [plan] at h
  split at h
  · cases h
  · exact (bindable_ok h).2

theorem declaredField_ensures (type name : String) (s : FieldSettings) :
    Ensures (declaredField b type name s) (Field.Bound b.registry) := by
  refine .bind_any fun fieldType => .bind_any fun explicit => .bind_any fun primary => ?_
  refine Ensures.bind (Ensures.ofExcept fun p hp => Bindings.plan_ok hp) fun p hp => ?_
  exact .pure ⟨p, rfl, hp⟩

theorem interfaceField_ok {type : String} {e : String × FieldSettings} {g : String × Field}
    (h : interfaceField type e = .ok g) : g.2.resolver = none := by
  rw [interfaceField] at h
  split at h
  · cases h
  · obtain rfl := Except.ok.inj h
    rfl

theorem Model.field_ensures (m : Model) (exposed : Dict String) (name : String) (s : FieldSettings) :
    Ensures (m.field b exposed name s) fun found => ∀ f ∈ found, f.Bound b.registry := by
  refine .bind_any fun type => ?_
  cases type with
  | none => exact .pure fun f hf => by cases hf
  | some type =>
    refine .bind_any fun explicit => .bind_any fun primary => ?_
    refine Ensures.bind (Ensures.ofExcept fun p hp => Bindings.plan_ok hp) fun p hp => ?_
    refine .pure fun f hf => ?_
    obtain rfl := Option.some.inj hf
    exact ⟨p, rfl, hp⟩

theorem ObjectType.bound_new (name : String) : (new name).Bound r where
  sorted := Dict.sorted_empty
  bound := by
    intro key f h
    cases h

theorem ObjectType.Bound.addField (h : o.Bound r) (hf : f.Bound r) : (o.addField f).Bound r where
  sorted := h.sorted.insert f.name f
  bound := by
    intro key g hg
    have hget : (if key = f.name then some f else o.fields.get? key) = some g := by
      rw [← hg]
      exact (Dict.get?_insert _ _ _ _).symm
    split at hget
    · next hkey =>
      obtain rfl := Option.some.inj hget
      exact ⟨hkey.symm, hf⟩
    · exact h.bound key g hget

theorem ObjectType.bound_ofList {fields : List Field} (name : String) (description : Option String)
    (interfaces : List String) (h : ∀ f ∈ fields, f.Bound r) :
    (ObjectType.mk name description interfaces (.ofList (fields.map fun f => (f.name, f)))).Bound r where
  sorted := Dict.sorted_ofList _
  bound := by
    intro key f hf
    rw [Dict.get?_ofList] at hf
    obtain ⟨g, hg, hpair⟩ := List.mem_map.mp (List.mem_reverse.mp (Dict.mem_of_lookup hf))
    obtain ⟨rfl, rfl⟩ := Prod.mk.inj hpair
    exact ⟨rfl, h g hg⟩

theorem Model.objectType_ensures (m : Model) (s : ModelSettings) (exposed : Dict String) :
    Ensures (m.objectType b s exposed) fun o => o.name = m.typeName ∧ o.Bound b.registry := by
  refine .bind_any fun selected => ?_
  refine Ensures.bind (Ensures.each fun e _ => m.field_ensures exposed e.1 e.2) fun fields hfields => ?_
  refine .pure ⟨rfl, ObjectType.bound_ofList _ _ _ fun f hf => ?_⟩
  obtain ⟨found, hfound, hsome⟩ := List.mem_filterMap.mp hf
  exact hfields found hfound f hsome

theorem Builder.declaredType_ensures (e : String × TypeSettings) :
    Ensures (Builder.declaredType b e) fun o => o.name = e.1 ∧ o.Bound b.registry := by
  refine Ensures.bind (Ensures.each fun f _ => declaredField_ensures e.1 f.1 f.2) fun fields hfields => ?_
  exact .pure ⟨rfl, ObjectType.bound_ofList _ _ _ hfields⟩

theorem Operation.field_ok {typeName : String} {op : Operation} (h : op.field b typeName = .ok f) :
    f.Bound b.registry := by
  rw [field] at h
  split at h
  · cases h
  · split at h
    · cases h
    · next p hp =>
      obtain rfl := Except.ok.inj h
      exact ⟨p, rfl, (Bindings.bindable_ok hp).2⟩

end Fields

namespace Schema

variable {r : Registry} {models : List Model} {s s' : Schema} {d : Definition} {o : ObjectType}

theorem assembled_new (name : String) : (new name).Assembled r [] where
  toNamed := named_new name
  foreign := fun _ _ => rfl
  bound := by
    intro key d h
    cases h
  typed := by simp
  distinct := List.nodup_nil

/-- A definition comes in under its own name. Only an object type may take the place of another. -/
theorem Assembled.put (h : s.Assembled r models) (hname : isGraphName d.name = true)
    (hbuiltin : d.name ∉ builtinScalars) (hd : d.Bound r)
    (hplace : s.get? d.name = none ∨ ∃ o, d = .object o) : (s.put d.name d).Assembled r models where
  toNamed := h.toNamed.put hname
  foreign := by
    intro key hkey
    rw [get?_put, if_neg, h.foreign key hkey]
    rintro rfl
    exact hbuiltin hkey
  bound := by
    intro key e he
    rw [get?_put] at he
    split at he
    · exact Option.some.inj he ▸ hd
    · exact h.bound key e he
  typed := by
    intro m hm
    obtain ⟨o, ho⟩ := h.typed m hm
    rw [get?_put]
    split
    · next htype =>
      rcases hplace with hnone | ⟨o', rfl⟩
      · rw [← htype, ho] at hnone
        cases hnone
      · exact ⟨o', rfl⟩
    · exact ⟨o, ho⟩
  distinct := h.distinct

theorem Assembled.add (h : s.Assembled r models) (hd : d.Bound r) (hadd : s.add d = .ok s') :
    s'.Assembled r models := by
  obtain ⟨hname, hbuiltin, hnone, rfl⟩ := add_ok hadd
  exact h.put hname hbuiltin hd (.inl hnone)

theorem Assembled.addModel {m : Model} (h : s.Assembled r models) (ho : o.Bound r)
    (hname : o.name = m.typeName) (hadd : s.add (.object o) = .ok s') :
    s'.Assembled r (models ++ [m]) := by
  have hs' := h.add (d := .object o) ho hadd
  obtain ⟨-, -, hnone, rfl⟩ := add_ok hadd
  replace hnone : s.get? m.typeName = none := hname ▸ hnone
  refine { hs' with typed := fun n hn => ?_, distinct := ?_ }
  · rcases List.mem_append.mp hn with hn | hn
    · exact hs'.typed n hn
    · obtain rfl := List.mem_singleton.mp hn
      refine ⟨o, ?_⟩
      rw [get?_put]
      exact if_pos hname.symm
  · rw [List.map_append, List.nodup_append]
    refine ⟨h.distinct, List.pairwise_singleton _ _, ?_⟩
    intro name hmem last hlast
    obtain ⟨n, hn, rfl⟩ := List.mem_map.mp hmem
    obtain rfl := List.mem_singleton.mp hlast
    obtain ⟨o', ho'⟩ := h.typed n hn
    intro heq
    rw [heq, hnone] at ho'
    cases ho'

theorem Assembled.root_ok {name : String} (h : s.Assembled r models) (hroot : s.root name = .ok o) :
    o.name = name ∧ o.Bound r := by
  rw [root] at hroot
  split at hroot
  · obtain rfl := Except.ok.inj hroot
    exact ⟨rfl, ObjectType.bound_new name⟩
  · next o' hget =>
    obtain rfl := Except.ok.inj hroot
    exact ⟨(h.named name _ hget).1, h.bound name _ hget⟩
  · cases hroot

theorem Assembled.addRootField {name : String} {f : Field} (h : s.Assembled r models)
    (hroot : s.root name = .ok o) (hname : isGraphName name = true ∧ name ∉ builtinScalars)
    (hf : f.Bound r) : (s.put name (.object (o.addField f))).Assembled r models := by
  obtain ⟨rfl, ho⟩ := h.root_ok hroot
  exact h.put (d := .object (o.addField f)) hname.1 hname.2 (ho.addField hf) (.inr ⟨_, rfl⟩)

end Schema

section Steps

open Schema (Assembled)

variable {b : Bindings} {models : List Model} {s s' : Schema}

theorem queryType_named : isGraphName queryType = true ∧ queryType ∉ builtinScalars := by decide

theorem mutationType_named : isGraphName mutationType = true ∧ mutationType ∉ builtinScalars := by
  decide

theorem Operation.assembled_addTo {m : Model} {op : Operation} (h : s.Assembled b.registry models)
    (hadd : op.addTo b m s = .ok s') : s'.Assembled b.registry models := by
  obtain ⟨f, query, hfield, hroot, -, rfl⟩ := addTo_ok hadd
  exact h.addRootField hroot queryType_named (field_ok hfield)

theorem Operation.assembled_addAll {m : Model} {ops : List Operation}
    (h : s.Assembled b.registry models) (hadd : addAll b m ops s = .ok s') :
    s'.Assembled b.registry models :=
  foldlM_ok h (fun _ _ _ _ hs hstep => assembled_addTo hs hstep) hadd

namespace Builder

theorem addModel_ensures (settings : Settings) (exposed : Dict String) (m : Model)
    (h : s.Assembled b.registry models) :
    Ensures (addModel b settings exposed s m) (Assembled b.registry (models ++ [m])) := by
  refine .bind_any fun own => ?_
  refine Ensures.bind (m.objectType_ensures own exposed) fun o ho => ?_
  refine Ensures.bind (Ensures.ofExcept fun s' hs' => h.addModel ho.2 ho.1 hs') fun s' hs' => ?_
  exact .ofExcept fun s'' hs'' => Operation.assembled_addAll hs' hs''

theorem addModels_ensures (settings : Settings) (exposed : Dict String) (more : List Model)
    (h : s.Assembled b.registry models) :
    Ensures (more.foldlM (addModel b settings exposed) s)
      (Assembled b.registry (models ++ more)) := by
  induction more generalizing s models with
  | nil =>
    rw [List.append_nil]
    exact .pure h
  | cons m more ih =>
    rw [List.foldlM_cons]
    refine Ensures.bind (addModel_ensures settings exposed m h) fun s' hs' => ?_
    rw [← List.singleton_append, ← List.append_assoc]
    exact ih hs'

theorem interfaceType_ok {e : String × InterfaceSettings} {d : Definition} (r : Registry)
    (h : interfaceType e = .ok d) : d.Bound r := by
  rw [interfaceType] at h
  split at h
  · cases h
  · next fields hfields =>
    obtain rfl := Except.ok.inj h
    intro f hf
    obtain ⟨g, hg, rfl⟩ := List.mem_map.mp hf
    obtain ⟨x, -, hx⟩ := exists_mem_of_traverse hfields hg
    exact interfaceField_ok hx

theorem interfaceType_ne_object {e : String × InterfaceSettings} {d : Definition}
    (h : interfaceType e = .ok d) (o : ObjectType) : d ≠ .object o := by
  rintro rfl
  rw [interfaceType] at h
  split at h <;> cases h

theorem addPlain_ok {P : Schema → Prop} {settings : Settings}
    (hkeep : ∀ s d s', (∀ o, d ≠ .object o) → (∀ r, d.Bound r) → P s → s.add d = .ok s' → P s')
    (hs : P s) (hadd : addPlain settings s = .ok s') : P s' := by
  have hsection {α : Type} {declared : List (String × α)} {t t' : Schema}
      (definition : String × α → Definition)
      (hplain : ∀ e, (∀ o, definition e ≠ .object o) ∧ ∀ r, (definition e).Bound r) (ht : P t)
      (hadd : declared.foldlM (fun s e => s.add (definition e)) t = .ok t') : P t' :=
    foldlM_ok ht (fun _ e _ _ hs hstep => hkeep _ _ _ (hplain e).1 (hplain e).2 hs hstep) hadd
  obtain ⟨scalars, -, hadd⟩ := except_bind_ok_iff.mp hadd
  obtain ⟨s₁, hscalars, hadd⟩ := except_bind_ok_iff.mp hadd
  obtain ⟨enums, -, hadd⟩ := except_bind_ok_iff.mp hadd
  obtain ⟨s₂, henums, hadd⟩ := except_bind_ok_iff.mp hadd
  obtain ⟨inputs, -, hadd⟩ := except_bind_ok_iff.mp hadd
  obtain ⟨s₃, hinputs, hadd⟩ := except_bind_ok_iff.mp hadd
  obtain ⟨unions, -, hadd⟩ := except_bind_ok_iff.mp hadd
  obtain ⟨s₄, hunions, hadd⟩ := except_bind_ok_iff.mp hadd
  obtain ⟨interfaces, -, hadd⟩ := except_bind_ok_iff.mp hadd
  have h₁ := hsection scalarType (fun _ => ⟨nofun, fun _ => trivial⟩) hs hscalars
  have h₂ := hsection enumType (fun _ => ⟨nofun, fun _ => trivial⟩) h₁ henums
  have h₃ := hsection inputType (fun _ => ⟨nofun, fun _ => trivial⟩) h₂ hinputs
  have h₄ := hsection unionType (fun _ => ⟨nofun, fun _ => trivial⟩) h₃ hunions
  refine foldlM_ok h₄ (fun s e _ s' hs hstep => ?_) hadd
  rw [addInterface] at hstep
  split at hstep
  · cases hstep
  · next d hd =>
    exact hkeep s d s' (interfaceType_ne_object hd) (fun r => interfaceType_ok r hd) hs hstep

theorem assembled_addPlain {settings : Settings} (h : s.Assembled b.registry models)
    (hadd : addPlain settings s = .ok s') : s'.Assembled b.registry models :=
  addPlain_ok (fun _ _ _ _ hbound hs hstep => hs.add (hbound b.registry) hstep) h hadd

theorem addType_ensures (e : String × TypeSettings) (h : s.Assembled b.registry models) :
    Ensures (addType b s e) (Assembled b.registry models) := by
  refine Ensures.bind (declaredType_ensures e) fun o ho => ?_
  exact .ofExcept fun s' hs' => h.add (d := .object o) ho.2 hs'

theorem addRootField_ensures {root : String}
    (hroot : isGraphName root = true ∧ root ∉ builtinScalars) (e : String × FieldSettings)
    (h : s.Assembled b.registry models) :
    Ensures (addRootField b root s e) (Assembled b.registry models) := by
  refine Ensures.bind (declaredField_ensures root e.1 e.2) fun f hf => ?_
  have hfound : Ensures (Deciding.ofExcept (s.root root)) fun o => s.root root = .ok o :=
    .ofExcept fun o ho => ho
  refine Ensures.bind hfound fun o ho => ?_
  exact .pure (h.addRootField ho hroot hf)

theorem addResolved_ensures (settings : Settings) (h : s.Assembled b.registry models) :
    Ensures (addResolved b settings s) (Assembled b.registry models) := by
  refine .bind_any fun types => ?_
  refine Ensures.bind (Ensures.foldlM h fun s e _ hs => addType_ensures e hs) fun s₁ h₁ => ?_
  refine .bind_any fun queries => ?_
  refine Ensures.bind (Ensures.foldlM h₁ fun s e _ hs => addRootField_ensures queryType_named e hs)
    fun s₂ h₂ => ?_
  refine .bind_any fun mutations => ?_
  exact Ensures.foldlM h₂ fun s e _ hs => addRootField_ensures mutationType_named e hs

theorem assemble_ensures (name : String) (settings : Settings) (models : List Model) :
    Ensures (assemble b name settings models) (Assembled b.registry models) := by
  refine Ensures.bind (addModels_ensures settings _ models (Schema.assembled_new name)) fun s₁ h₁ => ?_
  refine Ensures.bind (Ensures.ofExcept fun s hs => assembled_addPlain h₁ hs) fun s₂ h₂ => ?_
  refine Ensures.bind (addResolved_ensures settings h₂) fun s₃ h₃ => ?_
  exact .bind_any fun _ => .pure h₃

theorem modelAll_cons (b : Builder) (settings : Settings) (c : String) (classes : List String)
    (known : Dict Model) : b.modelAll settings (c :: classes) known =
    match known.get? c with
    | some m => ((b.modelAll settings classes known).1.map (m :: ·), (b.modelAll settings classes known).2)
    | none =>
      match b.makeModel settings c with
      | .error e => (.error e, known)
      | .ok m => ((b.modelAll settings classes (known.insert c m)).1.map (m :: ·),
          (b.modelAll settings classes (known.insert c m)).2) := by
  rw [modelAll]
  cases known.get? c with
  | some m =>
    dsimp only
    rcases b.modelAll settings classes known with ⟨e | ms, after⟩ <;> rfl
  | none =>
    cases b.makeModel settings c with
    | error e => rfl
    | ok m =>
      dsimp only
      rcases b.modelAll settings classes (known.insert c m) with ⟨e | ms, after⟩ <;> rfl

theorem modelAll_cons_ok {b : Builder} {settings : Settings} {c : String} {classes : List String}
    {known known' : Dict Model} {ms : List Model}
    (h : b.modelAll settings (c :: classes) known = (.ok ms, known')) : ∃ m rest, ms = m :: rest ∧
      (known.get? c = some m ∧ b.modelAll settings classes known = (.ok rest, known') ∨
        known.get? c = none ∧ b.makeModel settings c = .ok m ∧
          b.modelAll settings classes (known.insert c m) = (.ok rest, known')) := by
  have hlater {m : Model} {r : Except Fault (List Model) × Dict Model}
      (h : (r.1.map (m :: ·), r.2) = (.ok ms, known')) : ∃ rest, ms = m :: rest ∧ r = (.ok rest, known') := by
    obtain ⟨outcome, after⟩ := r
    obtain ⟨hms, rfl⟩ := Prod.mk.inj h
    cases outcome with
    | error e => cases hms
    | ok rest => exact ⟨rest, (Except.ok.inj hms).symm, rfl⟩
  rw [modelAll_cons] at h
  split at h
  · next m hm =>
    obtain ⟨rest, rfl, hrest⟩ := hlater h
    exact ⟨m, rest, rfl, .inl ⟨hm, hrest⟩⟩
  · next hnone =>
    split at h
    · cases h
    · next m hm =>
      obtain ⟨rest, rfl, hrest⟩ := hlater h
      exact ⟨m, rest, rfl, .inr ⟨hnone, hm, hrest⟩⟩

theorem get?_modelAll {b : Builder} {settings : Settings} {classes : List String}
    {known known' : Dict Model} {ms : List Model}
    (h : b.modelAll settings classes known = (.ok ms, known')) :
    (∀ c m, known.get? c = some m → known'.get? c = some m) ∧
      classes.map known'.get? = ms.map some := by
  induction classes generalizing known ms with
  | nil =>
    obtain ⟨hms, rfl⟩ := Prod.mk.inj h
    obtain rfl := Except.ok.inj hms
    exact ⟨fun c m hm => hm, rfl⟩
  | cons c classes ih =>
    obtain ⟨m, rest, rfl, ⟨hm, hrest⟩ | ⟨hnone, -, hrest⟩⟩ := modelAll_cons_ok h
    · obtain ⟨hkeep, hmap⟩ := ih hrest
      exact ⟨hkeep, by rw [List.map_cons, hkeep c m hm, hmap, List.map_cons]⟩
    · obtain ⟨hkeep, hmap⟩ := ih hrest
      have hown : known'.get? c = some m := hkeep c m (by rw [Dict.get?_insert, if_pos rfl])
      refine ⟨fun other n hn => hkeep other n ?_, by rw [List.map_cons, hown, hmap, List.map_cons]⟩
      have hne : other ≠ c := by
        rintro rfl
        rw [hnone] at hn
        cases hn
      rw [Dict.get?_insert, if_neg hne, hn]

theorem registry_of_bindings {b : Builder} {settings : Settings} {bindings : Bindings}
    (h : b.bindings settings = .ok bindings) : bindings.registry = b.registry := by
  obtain ⟨_, -, h⟩ := except_bind_ok_iff.mp h
  obtain ⟨_, -, h⟩ := except_bind_ok_iff.mp h
  obtain ⟨_, -, h⟩ := except_bind_ok_iff.mp h
  obtain ⟨_, -, h⟩ := except_bind_ok_iff.mp h
  obtain ⟨_, -, h⟩ := except_bind_ok_iff.mp h
  obtain ⟨_, -, h⟩ := except_bind_ok_iff.mp h
  rw [← Except.ok.inj h]

/-- The parts of a build that gives a schema. -/
theorem build_ok {b : Builder} {ctx : Context} {s : Schema} (h : (b.build ctx).1 = .ok s) :
    ∃ classes settings ms, BulkLoad.apply b.scene b.index ctx.settings = (.ok classes, settings) ∧
      classes.map (b.build ctx).2.models.get? = ms.map some ∧ s.Assembled b.registry ms := by
  rw [build] at h ⊢
  split at h
  · cases h
  · next bindings hbindings =>
    split at h
    · cases h
    · next classes settings hload =>
      split at h
      · cases h
      · next ms models hmodels =>
        split at h
        · cases h
        · next s' decisions hassemble =>
          obtain rfl := Except.ok.inj h
          refine ⟨classes, settings, ms, hload, (get?_modelAll hmodels).2, ?_⟩
          rw [← registry_of_bindings hbindings]
          exact assemble_ensures ctx.name settings ms _ _ _ hassemble

theorem exists_assembled {b : Builder} {ctx : Context} {s : Schema} (h : (b.build ctx).1 = .ok s) :
    ∃ ms, s.Assembled b.registry ms := by
  obtain ⟨-, -, ms, -, -, hs⟩ := build_ok h
  exact ⟨ms, hs⟩

/-- Nothing is left to be bound in a schema, and nothing of it goes by the name of something else. -/
structure FullyBound (b : Builder) (ctx : Context) (s : Schema) : Prop where
  bound : ∀ o, .object o ∈ s.definitions.values → ∀ f ∈ o.fields.values, f.Bound b.registry
  bare : ∀ i, .interface i ∈ s.definitions.values → ∀ f ∈ i.fields.values, f.resolver = none
  named : ∀ e ∈ s.definitions.entries,
    e.2.name = e.1 ∧ isGraphName e.1 = true ∧ e.1 ∉ builtinScalars
  /-- Every modelled class has an object type, which no other class has. -/
  typed : ∃ classes settings, BulkLoad.apply b.scene b.index ctx.settings = (.ok classes, settings) ∧
    ∀ c ∈ classes, ∃ m o, (b.build ctx).2.models.get? c = some m ∧
      s.get? m.typeName = some (.object o) ∧
      ∀ c' ∈ classes, ∀ m', (b.build ctx).2.models.get? c' = some m' →
        m'.typeName = m.typeName → c' = c

theorem build_fullyBound (b : Builder) (ctx : Context) (s : Schema)
    (h : (b.build ctx).1 = .ok s) : b.FullyBound ctx s := by
  obtain ⟨classes, settings, ms, hload, hmodels, hs⟩ := build_ok h
  refine ⟨fun o ho f hf => ?_, fun i hi f hf => ?_, fun e he => ?_,
    classes, settings, hload, fun c hc => ?_⟩
  · obtain ⟨key, hkey⟩ := (hs.sorted.mem_values_iff _).mp ho
    have hbound : o.Bound b.registry := hs.bound key _ hkey
    obtain ⟨name, hname⟩ := (hbound.sorted.mem_values_iff f).mp hf
    exact (hbound.bound name f hname).2
  · obtain ⟨key, hkey⟩ := (hs.sorted.mem_values_iff _).mp hi
    exact hs.bound key _ hkey f hf
  · have hget : s.get? e.1 = some e.2 := (hs.sorted.get?_eq_some_iff e.1 e.2).mpr he
    obtain ⟨hname, hgraph⟩ := hs.named e.1 e.2 hget
    refine ⟨hname, hgraph, fun hbuiltin => ?_⟩
    rw [hs.foreign e.1 hbuiltin] at hget
    cases hget
  · have hmodel : ∀ c ∈ classes, ∃ m ∈ ms, (b.build ctx).2.models.get? c = some m := by
      intro c hc
      have hmem : (b.build ctx).2.models.get? c ∈ ms.map some :=
        hmodels ▸ List.mem_map_of_mem hc
      obtain ⟨m, hm, heq⟩ := List.mem_map.mp hmem
      exact ⟨m, hm, heq.symm⟩
    have hnodup : (classes.map fun c =>
        ((b.build ctx).2.models.get? c).map Model.typeName).Nodup := by
      have htypes : (ms.map Model.typeName).map some =
          (ms.map some).map (Option.map Model.typeName) := by simp
      have hsome := hs.distinct.map fun _ _ => Option.some.inj
      rw [htypes, ← hmodels, List.map_map] at hsome
      exact hsome
    obtain ⟨m, hm, hget⟩ := hmodel c hc
    obtain ⟨o, ho⟩ := hs.typed m hm
    refine ⟨m, o, hget, ho, fun c' hc' m' hget' htype => ?_⟩
    apply List.inj_on_of_nodup_map hnodup hc' hc
    rw [hget, hget', Option.map_some, Option.map_some, htype]

section Example

/-- Pages and their authors. -/
def libraryIndex : Index where
  descriptors := .ofList [
    ("App.Page", ⟨"App.Page", .ordinary, none, [], false, none,
      .ofList [("title", .short "String"), ("author", .short "App.User")], "page.json"⟩),
    ("App.User", ⟨"App.User", .ordinary, none, [], false, none,
      .ofList [("name", .short "String")], "user.json"⟩)]
  implicitMarkers := []
  edges := []

def libraryBuilder : Builder where
  index := libraryIndex
  scene := ⟨.builtin, "/", .emptyFolder⟩
  registry := .withBuiltins
  makers := [Entity.maker libraryIndex]

/-- Two modelled classes, one of them with an operation, next to an interface, a type and a query. -/
def librarySettings : Settings :=
  .ofList [
    ("resolvers", .strings ["Builtin"]),
    ("defaultResolver", .string "Builtin::resolve"),
    ("models", .table (.ofList [
      ("App.Page", .table (.ofList [("operations", .strings ["read"])])),
      ("App.User", .table .empty)])),
    ("interfaces", .table (.ofList [("Named", .table (.ofList [("fields", .table (.ofList [
      ("name", .table (.ofList [("type", .string "String")]))]))]))])),
    ("types", .table (.ofList [("Stats", .table (.ofList [("fields", .table (.ofList [
      ("pages", .table (.ofList [("type", .string "Int")]))]))]))])),
    ("queries", .table (.ofList [("stats", .table (.ofList [("type", .string "Stats"),
      ("resolver", .string "Builtin::resolve")]))]))]

def libraryContext : Context := .ofSettings "library" librarySettings

theorem build_fullyBound_library : ∃ s, (libraryBuilder.build libraryContext).1 = .ok s ∧
    s.definitions.keys = ["Named", "Page", "Query", "Stats", "User"] ∧
    libraryBuilder.FullyBound libraryContext s := by
  have hkeys : (libraryBuilder.build libraryContext).1.toOption.map (·.definitions.keys) =
      some ["Named", "Page", "Query", "Stats", "User"] := by decide +kernel
  obtain ⟨s, hs, hkeys⟩ := Option.map_eq_some_iff.mp hkeys
  have hbuild : (libraryBuilder.build libraryContext).1 = .ok s := by
    cases hresult : (libraryBuilder.build libraryContext).1 with
    | error e =>
      rw [hresult] at hs
      cases hs
    | ok s' =>
      rw [hresult] at hs
      rw [Option.some.inj hs]
  exact ⟨s, hbuild, hkeys, build_fullyBound _ _ _ hbuild⟩

end Example

end Builder

end Steps

end ClassSchema
