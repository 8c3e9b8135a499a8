import ClassSchema.Proofs.Build.Exposure
import ClassSchema.Proofs.Resolver.Paging

/-!
# Generated operations

A generated query field stays as it was made, unless the settings declare a query of its name. Bound to the
built-in resolvers it reads the items of its model, by pages or the first one.
-/

namespace ClassSchema

namespace Schema

/-- An object type of the schema has the field. -/
def HasField (s : Schema) (type name : String) (f : Field) : Prop :=
  ∃ o, s.get? type = some (.object o) ∧ o.fields.get? name = some f

variable {s s' s'' : Schema} {type name : String} {f : Field} {o : ObjectType}

/-- No field is lost or replaced. -/
def KeepsFields (s s' : Schema) : Prop := ∀ type name f, s.HasField type name f → s'.HasField type name f

theorem KeepsFields.trans (h : s.KeepsFields s') (h' : s'.KeepsFields s'') : s.KeepsFields s'' :=
  fun type name f hf => h' type name f (h type name f hf)

theorem keepsFields_add {d : Definition} (h : s.add d = .ok s') : s.KeepsFields s' := by
  obtain ⟨-, -, hnew, rfl⟩ := add_ok h
  rintro type name f ⟨o, ho, hf⟩
  refine ⟨o, ?_, hf⟩
  rw [get?_put, if_neg, ho]
  rintro rfl
  rw [hnew] at ho
  cases ho

theorem SameObjects.keepsFields (h : s.SameObjects s') : s.KeepsFields s' :=
  fun type _ _ ⟨o, ho, hf⟩ => ⟨o, (h type o).mpr ho, hf⟩

theorem hasField_addRootField {root : String} (hroot : s.root root = .ok o) (g : Field) :
    (s.put root (.object (o.addField g))).HasField root g.name g ∧
      ∀ type name f, ¬ (type = root ∧ name = g.name) → s.HasField type name f →
        (s.put root (.object (o.addField g))).HasField type name f := by
  constructor
  · exact (get?_addRootField_iff hroot g).mpr (by rw [if_pos ⟨rfl, rfl⟩])
  · intro type name f hother hf
    exact (get?_addRootField_iff hroot f).mpr (by rw [if_neg hother]; exact hf)

end Schema

section Steps

variable {b : Bindings} {s s' : Schema} {settings : Settings} {exposed : Dict String} {m : Model}
  {models : List Model} {d d' : Decisions} {op : Operation}

namespace Operation

theorem field_eq_ok {typeName : String} {f : Field} (h : op.field b typeName = .ok f) :
    ∃ p, plan typeName op.lastStep = .ok p ∧ f = (op.queryField typeName).withResolver p := by
  rw [field] at h
  split at h
  · cases h
  · next p hp =>
    split at h
    · cases h
    · next q hq =>
      obtain rfl : q = p := (Bindings.bindable_ok hq).1
      exact ⟨q, hp, (Except.ok.inj h).symm⟩

/-- The schema has the query field of an operation as it was made. -/
def Stands (b : Bindings) (s : Schema) (typeName : String) (op : Operation) : Prop :=
  ∃ f, op.field b typeName = .ok f ∧ s.HasField queryType f.name f

theorem Stands.of_keepsFields {typeName : String} (h : op.Stands b s typeName) (hkeeps : s.KeepsFields s') :
    op.Stands b s' typeName := by
  obtain ⟨f, hf, hfield⟩ := h
  exact ⟨f, hf, hkeeps _ _ _ hfield⟩

theorem stands_addTo (h : op.addTo b m s = .ok s') : s.KeepsFields s' ∧ op.Stands b s' m.typeName := by
  obtain ⟨f, query, hf, hroot, hnew, rfl⟩ := addTo_ok h
  obtain ⟨hown, hothers⟩ := Schema.hasField_addRootField hroot f
  refine ⟨fun type name g hg => hothers type name g ?_ hg, f, hf, hown⟩
  rintro ⟨rfl, rfl⟩
  rw [(Schema.get?_root_iff hroot).mpr hg] at hnew
  cases hnew

theorem stands_foldlM {ops : List Operation}
    (h : ops.foldlM (fun s op => op.addTo b m s) s = .ok s') :
    s.KeepsFields s' ∧ ∀ op ∈ ops, op.Stands b s' m.typeName := by
  induction ops generalizing s with
  | nil =>
    obtain rfl := Except.ok.inj h
    exact ⟨fun _ _ _ hf => hf, fun op hop => by cases hop⟩
  | cons op ops ih =>
    rw [List.foldlM_cons] at h
    obtain ⟨s₁, hfirst, hrest⟩ := except_bind_ok_iff.mp h
    obtain ⟨hkeeps, hstands⟩ := stands_addTo hfirst
    obtain ⟨hkeepsRest, hall⟩ := ih hrest
    exact ⟨hkeeps.trans hkeepsRest,
      List.forall_mem_cons.mpr ⟨hstands.of_keepsFields hkeepsRest, hall⟩⟩

theorem stands_addAll {ops : List Operation} (h : addAll b m ops s = .ok s') :
    s.KeepsFields s' ∧ ∀ op ∈ ops, op.Stands b s' m.typeName := by
  obtain ⟨hkeeps, hall⟩ := stands_foldlM h
  refine ⟨hkeeps, fun op hop => hall op ?_⟩
  cases op <;> simp [hop]

end Operation

namespace Builder

theorem stands_addModel (h : addModel b settings exposed s m d = .ok s' d') :
    s.KeepsFields s' ∧ ∃ own, modelSettings settings m.className = .ok own ∧
      ∀ op ∈ own.operations, op.Stands b s' m.typeName := by
  obtain ⟨own, hown, h⟩ := Deciding.ofExcept_bind_ok_iff.mp h
  obtain ⟨o, d₁, -, h⟩ := bind_ok_iff.mp h
  obtain ⟨s₁, hadd, h⟩ := Deciding.ofExcept_bind_ok_iff.mp h
  obtain ⟨hops, -⟩ := Deciding.ofExcept_ok_iff.mp h
  obtain ⟨hkeeps, hstands⟩ := Operation.stands_addAll hops
  exact ⟨(Schema.keepsFields_add hadd).trans hkeeps, own, hown, hstands⟩

theorem stands_addModels (h : models.foldlM (addModel b settings exposed) s d = .ok s' d') :
    s.KeepsFields s' ∧ ∀ m ∈ models, ∃ own, modelSettings settings m.className = .ok own ∧
      ∀ op ∈ own.operations, op.Stands b s' m.typeName := by
  induction models generalizing s d with
  | nil =>
    obtain ⟨rfl, -⟩ := EStateM.Result.ok.inj h
    exact ⟨fun _ _ _ hf => hf, fun m hm => by cases hm⟩
  | cons first models ih =>
    rw [List.foldlM_cons] at h
    obtain ⟨s₁, d₁, hfirst, hrest⟩ := bind_ok_iff.mp h
    obtain ⟨hkeeps, own, hown, hstands⟩ := stands_addModel hfirst
    obtain ⟨hkeepsRest, hall⟩ := ih hrest
    refine ⟨hkeeps.trans hkeepsRest, List.forall_mem_cons.mpr ⟨⟨own, hown, ?_⟩, hall⟩⟩
    exact fun op hop => (hstands op hop).of_keepsFields hkeepsRest

theorem hasField_declaredRoot {type name root : String} {f : Field} (e : String × FieldSettings)
    (hf : s.HasField type name f) (hother : ¬ (type = root ∧ name = e.1)) :
    Ensures (addRootField b root s e) (Schema.HasField · type name f) := by
  have hdeclared : Ensures (declaredField b root e.1 e.2) fun g => g.name = e.1 :=
    fun _ _ _ hg => (declaredField_ok hg).1.1
  refine Ensures.bind hdeclared fun g hg => ?_
  have hfound : Ensures (Deciding.ofExcept (s.root root)) fun o => s.root root = .ok o :=
    .ofExcept fun o ho => ho
  refine Ensures.bind hfound fun o ho => .pure ?_
  rw [← hg] at hother
  exact (Schema.hasField_addRootField ho g).2 type name f hother hf

theorem hasField_declaredRoots {type name root : String} {f : Field} {declared : Dict FieldSettings}
    (hf : s.HasField type name f) (hsorted : declared.Sorted)
    (hother : type = root → declared.get? name = none)
    (h : declared.entries.foldlM (addRootField b root) s d = .ok s' d') : s'.HasField type name f := by
  have hall : Ensures (declared.entries.foldlM (addRootField b root) s)
      (Schema.HasField · type name f) := by
    refine Ensures.foldlM hf fun s e he hs => hasField_declaredRoot e hs ?_
    rintro ⟨htype, rfl⟩
    have hpresent := (hsorted.get?_eq_some_iff e.1 e.2).mpr he
    rw [hother htype] at hpresent
    cases hpresent
  exact hall _ _ _ h

/-- What is declared after the models replaces no field of the query type but those of its names. -/
theorem stands_assemble {name : String} (h : assemble b name settings models d = .ok s d')
    {queries : Dict FieldSettings} (hqueries :
      settings.sectionOr (Value.asDict FieldSettings.decode) "queries" .empty = .ok queries) :
    ∀ m ∈ models, ∃ own, modelSettings settings m.className = .ok own ∧
      ∀ op ∈ own.operations, queries.get? (op.queryField m.typeName).name = none →
        op.Stands b s m.typeName := by
  obtain ⟨types, queries', mutations, s₁, s₂, s₃, s₄, d₁, d₂, d₃, ⟨-, hqueries', hmutations⟩, hmodels,
    hplain, hs₃, hs₄, hs₅⟩ := assemble_stages h
  obtain rfl := Except.ok.inj (hqueries'.symm.trans hqueries)
  intro m hm
  obtain ⟨own, hown, hstands⟩ := (stands_addModels hmodels).2 m hm
  refine ⟨own, hown, fun op hop hundeclared => ?_⟩
  obtain ⟨f, hf, hfield⟩ := hstands op hop
  obtain ⟨p, -, rfl⟩ := Operation.field_eq_ok hf
  have htypes : s₂.KeepsFields s₃ := by
    have hall : Ensures (types.entries.foldlM (addType b) s₂) s₂.KeepsFields :=
      Ensures.foldlM (fun _ _ _ hf => hf) fun s e _ hs =>
        .bind_any fun _ => .ofExcept fun _ hadd => hs.trans (Schema.keepsFields_add hadd)
    exact hall _ _ _ hs₃
  have hplaced := htypes _ _ _ ((sameObjects_addPlain hplain).keepsFields _ _ _ hfield)
  have hqueried := hasField_declaredRoots hplaced (Settings.sectionOr_asDict hqueries').1
    (fun _ => hundeclared) hs₄
  exact ⟨_, hf, hasField_declaredRoots hqueried (Settings.sectionOr_asDict hmutations).1
    (fun h => absurd h (by decide)) hs₅⟩

/-- In a schema that was built, the query fields that operations generate and no declared query replaces
are bound to chains that serve them: `read` gives, page by page, all items of the model's collection that
the arguments match, and `readOne` the first of these. -/
theorem build_operations_serve (b : Builder) (ctx : Context) (s : Schema)
    (hbuiltin : b.registry.providers.get? Builtin.providerName = some Builtin.provider)
    (h : (b.build ctx).1 = .ok s) : Nonempty (b.Workings ctx) ∧ ∀ w : b.Workings ctx, ∀ m ∈ w.models,
      ∃ own, modelSettings w.settings m.className = .ok own ∧
        ∀ op ∈ own.operations, w.queries.get? (op.queryField m.typeName).name = none →
          ∃ f p c, s.HasField queryType (op.queryField m.typeName).name f ∧ f.resolver = some p ∧
            p.bind b.registry = .ok c ∧ op.Serves c (Operation.collectionName m.typeName) := by
  refine ⟨Workings.nonempty_of_build h, fun w m hm => ?_⟩
  obtain ⟨d, hassemble⟩ := w.assemble_ok h
  obtain ⟨own, hown, hstands⟩ := stands_assemble hassemble w.queries_ok m hm
  refine ⟨own, hown, fun op hop hundeclared => ?_⟩
  obtain ⟨f, hf, hfield⟩ := hstands op hop hundeclared
  obtain ⟨p, hp, rfl⟩ := Operation.field_eq_ok hf
  exact ⟨_, p, _, hfield, rfl, Operation.bind_plan hbuiltin hp, Operation.serves_chain _ op⟩

section Example

/-- Pages can be listed and fetched, users only listed, by a query that the settings declare. -/
def operationsContext : Context :=
  .ofSettings "operations" (.ofList [
    ("resolvers", .strings ["Builtin"]),
    ("defaultResolver", .string "Builtin::resolve"),
    ("models", .ofPairs [
      ("App.Page", .ofPairs [("operations", .strings ["readOne", "read"])]),
      ("App.User", .ofPairs [("operations", .strings ["read"])])]),
    ("queries", .ofPairs [("readUsers", .ofPairs [("type", .string "[User]"),
      ("resolver", .string "Builtin::resolve")])])])

theorem build_operations_serve_library : ∃ s, (libraryBuilder.build operationsContext).1 = .ok s ∧
    (s.object? queryType).map (·.fields.keys) = some ["readOnePage", "readPages", "readUsers"] ∧
    ∀ w : libraryBuilder.Workings operationsContext, ∀ m ∈ w.models,
      ∃ own, modelSettings w.settings m.className = .ok own ∧
        ∀ op ∈ own.operations, w.queries.get? (op.queryField m.typeName).name = none →
          ∃ f p c, s.HasField queryType (op.queryField m.typeName).name f ∧ f.resolver = some p ∧
            p.bind .withBuiltins = .ok c ∧ op.Serves c (Operation.collectionName m.typeName) := by
  have hfields : (libraryBuilder.build operationsContext).1.toOption.map
      (fun s => (s.object? queryType).map (·.fields.keys)) =
        some (some ["readOnePage", "readPages", "readUsers"]) := by
    decide +kernel
  obtain ⟨s, hs, hfields⟩ := Option.map_eq_some_iff.mp hfields
  have hbuild := eq_ok_of_toOption hs
  exact ⟨s, hbuild, hfields, (build_operations_serve libraryBuilder operationsContext s rfl hbuild).2⟩

end Example

end Builder

end Steps

end ClassSchema
