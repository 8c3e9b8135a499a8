import ClassSchema.Proofs.Artifact.Literal
import ClassSchema.Proofs.Resolver.PlanText

/-!
# What a canonical text fixes

Two definitions whose signed values have one canonical text are of one kind and have one scope in every
schema. Here the tables inside a definition have to be in name order, as those of a schema are.
-/

namespace ClassSchema

theorem Argument.eq_of_canonical {a b : Argument} (h : a.value.canonical = b.value.canonical) :
    a = b := by
  obtain ⟨name, type⟩ := a
  obtain ⟨name', type'⟩ := b
  have hget := Value.get?_canonical_of_pairs h
  have hname := hget "name"
  have htype := hget "type"
  simp only [get?_pair, String.reduceEq, if_true, if_false] at hname htype
  rw [Value.string_inj_of_canonical (Option.some.inj hname),
    Value.string_inj_of_canonical (Option.some.inj htype)]

theorem Field.eq_of_canonical {f g : Field} (h : f.value.canonical = g.value.canonical) :
    f.name = g.name ∧ f.type = g.type ∧ f.description = g.description ∧ f.args = g.args ∧
      (f.resolver.map Plan.value).map Value.canonical =
        (g.resolver.map Plan.value).map Value.canonical := by
  have hget := Value.get?_canonical_of_pairs h
  simp only [Dict.get?_append, get?_pair, get?_descriptionEntry, get?_entryIfAny,
    get?_entryIfSome] at hget
  have hname := hget "name"
  have htype := hget "type"
  have hdescription := hget "description"
  have hargs := hget "args"
  have hresolver := hget "resolver"
  simp only [String.reduceEq, false_and, true_and, if_false, if_true, Option.none_or,
    Option.or_none] at hname htype hdescription hargs hresolver
  refine ⟨Value.string_inj_of_canonical (Option.some.inj hname),
    Value.string_inj_of_canonical (Option.some.inj htype),
    Value.string?_inj_of_canonical hdescription, ?_, hresolver⟩
  have hmap := Value.map_canonical_of_any hargs
  rw [List.map_map, List.map_map] at hmap
  have hargs := map_eq_map_of (g := id) hmap fun _ _ _ _ hab => Argument.eq_of_canonical hab
  rwa [List.map_id, List.map_id] at hargs

theorem InputField.eq_of_canonical {f g : InputField}
    (h : f.value.canonical = g.value.canonical) :
    f.name = g.name ∧ f.type = g.type ∧ f.description = g.description ∧
      f.default.map Value.canonical = g.default.map Value.canonical := by
  have hget := Value.get?_canonical_of_pairs h
  simp only [Dict.get?_append, get?_pair, get?_descriptionEntry, get?_entryIfSome] at hget
  have hname := hget "name"
  have htype := hget "type"
  have hdescription := hget "description"
  have hdefault := hget "default"
  simp only [String.reduceEq, if_false, if_true, Option.none_or, Option.or_none]
    at hname htype hdescription hdefault
  exact ⟨Value.string_inj_of_canonical (Option.some.inj hname),
    Value.string_inj_of_canonical (Option.some.inj htype),
    Value.string?_inj_of_canonical hdescription, hdefault⟩

theorem described_of_canonical {name name' : String} {description description' : Option String}
    (h : (Value.ofPairs ([("name", .string name)] ++ descriptionEntry description)).canonical =
      (Value.ofPairs ([("name", .string name')] ++ descriptionEntry description')).canonical) :
    name = name' ∧ description = description' := by
  have hget := Value.get?_canonical_of_pairs h
  simp only [Dict.get?_append, get?_single, get?_descriptionEntry] at hget
  have hname := hget "name"
  have hdescription := hget "description"
  simp only [String.reduceEq, if_false, if_true, Option.none_or, Option.or_none]
    at hname hdescription
  exact ⟨Value.string_inj_of_canonical (Option.some.inj hname),
    Value.string?_inj_of_canonical hdescription⟩

theorem named_of_canonical {name name' part : String} {description description' : Option String}
    {v v' : Value} (hfirst : part ≠ "name") (hsecond : part ≠ "description")
    (h : (Value.ofPairs ([("name", .string name)] ++ descriptionEntry description ++
        [(part, v)])).canonical =
      (Value.ofPairs ([("name", .string name')] ++ descriptionEntry description' ++
        [(part, v')])).canonical) :
    name = name' ∧ description = description' ∧ v.canonical = v'.canonical := by
  have hget := Value.get?_canonical_of_pairs h
  simp only [Dict.get?_append, get?_single, get?_descriptionEntry] at hget
  have hname := hget "name"
  have hdescription := hget "description"
  have hpart := hget part
  simp only [String.reduceEq, hfirst.symm, hsecond.symm, if_false, if_true, Option.none_or,
    Option.or_none, Option.some_or] at hname hdescription hpart
  exact ⟨Value.string_inj_of_canonical (Option.some.inj hname),
    Value.string?_inj_of_canonical hdescription, Option.some.inj hpart⟩

theorem EnumValue.eq_of_canonical {e e' : EnumValue}
    (h : e.value.canonical = e'.value.canonical) : e = e' := by
  obtain ⟨name, description⟩ := e
  obtain ⟨name', description'⟩ := e'
  obtain ⟨(rfl : name = name'), (rfl : description = description')⟩ := described_of_canonical h
  rfl

theorem ScalarType.eq_of_canonical {t t' : ScalarType}
    (h : t.value.canonical = t'.value.canonical) : t = t' := by
  obtain ⟨name, description⟩ := t
  obtain ⟨name', description'⟩ := t'
  obtain ⟨(rfl : name = name'), (rfl : description = description')⟩ := described_of_canonical h
  rfl

theorem UnionType.eq_of_canonical {u u' : UnionType} (h : u.value.canonical = u'.value.canonical) :
    u = u' := by
  obtain ⟨name, description, members⟩ := u
  obtain ⟨name', description', members'⟩ := u'
  obtain ⟨(rfl : name = name'), (rfl : description = description'), hmembers⟩ :=
    named_of_canonical (by decide) (by decide) h
  have hlisted : members = members' :=
    Value.strings_inj_of_canonical (Value.map_canonical_of_list hmembers)
  rw [hlisted]

theorem EnumType.eq_of_canonical {e e' : EnumType} (h : e.value.canonical = e'.value.canonical) :
    e = e' := by
  obtain ⟨name, description, values⟩ := e
  obtain ⟨name', description', values'⟩ := e'
  obtain ⟨(rfl : name = name'), (rfl : description = description'), hvalues⟩ :=
    named_of_canonical (by decide) (by decide) h
  have hmap := Value.map_canonical_of_list hvalues
  rw [List.map_map, List.map_map] at hmap
  have hlisted : values.map id = values'.map id :=
    map_eq_map_of hmap fun _ _ _ _ hxy => EnumValue.eq_of_canonical hxy
  rw [List.map_id, List.map_id] at hlisted
  rw [hlisted]

theorem ObjectType.parts_of_canonical {o o' : ObjectType} (h : o.value.canonical = o'.value.canonical) :
    o.name = o'.name ∧ o.description = o'.description ∧ o.interfaces = o'.interfaces ∧
      (Value.table (o.fields.map Field.value)).canonical =
        (Value.table (o'.fields.map Field.value)).canonical := by
  have hget := Value.get?_canonical_of_pairs h
  simp only [Dict.get?_append, get?_single, get?_descriptionEntry, get?_entryIfAny] at hget
  have hname := hget "name"
  have hdescription := hget "description"
  have hinterfaces := hget "interfaces"
  have hfields := hget "fields"
  simp only [String.reduceEq, false_and, true_and, if_false, if_true, Option.none_or,
    Option.or_none] at hname hdescription hinterfaces hfields
  exact ⟨Value.string_inj_of_canonical (Option.some.inj hname),
    Value.string?_inj_of_canonical hdescription,
    Value.strings_inj_of_canonical (Value.map_canonical_of_any hinterfaces),
    Option.some.inj hfields⟩

theorem InterfaceType.parts_of_canonical {i i' : InterfaceType}
    (h : i.value.canonical = i'.value.canonical) :
    i.name = i'.name ∧ i.description = i'.description ∧
      (Value.table (i.fields.map Field.value)).canonical =
        (Value.table (i'.fields.map Field.value)).canonical :=
  named_of_canonical (by decide) (by decide) h

theorem InputType.parts_of_canonical {i i' : InputType}
    (h : i.value.canonical = i'.value.canonical) :
    i.name = i'.name ∧ i.description = i'.description ∧
      (Value.table (i.fields.map InputField.value)).canonical =
        (Value.table (i'.fields.map InputField.value)).canonical :=
  named_of_canonical (by decide) (by decide) h

namespace Definition

/-- The tables of a definition list their names in order. -/
def Ordered : Definition → Prop
  | .object o => o.fields.Sorted ∧ ∀ f ∈ o.fields.values, ∀ p ∈ f.resolver, p.Ordered
  | .input i => i.fields.Sorted ∧ ∀ f ∈ i.fields.values, ∀ v ∈ f.default, v.ordered = v
  | .interface i => i.fields.Sorted
  | .union _ | .enum _ | .scalar _ => True

private theorem fields_of_canonical {α β : Type} {d e : Dict α} (hd : d.Sorted) (he : e.Sorted)
    (value : α → Value) (line : α → β)
    (hline : ∀ f ∈ d.values, ∀ g ∈ e.values, (value f).canonical = (value g).canonical →
      line f = line g)
    (h : (Value.table (d.map value)).canonical = (Value.table (e.map value)).canonical) :
    d.values.map line = e.values.map line := by
  have hmap := Value.map_canonical_of_table (hd.map value) (he.map value) h
  have hvalues := congrArg Dict.values hmap
  simp only [Dict.values_map, List.map_map] at hvalues
  exact map_eq_map_of hvalues hline

private theorem fieldLine_eq {f g : Field} (hf : ∀ p ∈ f.resolver, p.Ordered)
    (hg : ∀ p ∈ g.resolver, p.Ordered) (h : f.value.canonical = g.value.canonical) :
    Artifact.fieldLine f = Artifact.fieldLine g := by
  obtain ⟨hname, htype, -, hargs, hresolver⟩ := Field.eq_of_canonical h
  rw [Artifact.fieldLine, Artifact.fieldLine, hname, htype, hargs]
  cases hfp : f.resolver with
  | none =>
    cases hgp : g.resolver with
    | none => rfl
    | some q => simp [hfp, hgp] at hresolver
  | some p =>
    cases hgp : g.resolver with
    | none => simp [hfp, hgp] at hresolver
    | some q =>
      rw [hfp, hgp] at hresolver
      have htext := Plan.chars_eq_of_canonical p q (hf p hfp) (hg q hgp) (Option.some.inj hresolver)
      simp only [Artifact.directiveChars, Plan.text, Value.text, htext]

private theorem inputLine_eq (s : Schema) {f g : InputField} (hf : ∀ v ∈ f.default, v.ordered = v)
    (hg : ∀ v ∈ g.default, v.ordered = v) (h : f.value.canonical = g.value.canonical) :
    Artifact.inputLine s f = Artifact.inputLine s g := by
  obtain ⟨hname, htype, -, hdefault⟩ := InputField.eq_of_canonical h
  rw [Artifact.inputLine, Artifact.inputLine, hname, htype]
  cases hfv : f.default with
  | none =>
    cases hgv : g.default with
    | none => rfl
    | some w => simp [hfv, hgv] at hdefault
  | some v =>
    cases hgv : g.default with
    | none => simp [hfv, hgv] at hdefault
    | some w =>
      rw [hfv, hgv] at hdefault
      have htext := Option.some.inj hdefault
      rw [Value.canonical_of_ordered (hf v hfv), Value.canonical_of_ordered (hg w hgv)] at htext
      simp only [Artifact.literal_congr s g.type v w htext]

theorem kind_eq_of_canonical {d e : Definition}
    (h : d.signedValue.canonical = e.signedValue.canonical) : d.kind = e.kind := by
  have hkind := Value.get?_canonical_of_pairs h "kind"
  simp only [get?_pair, String.reduceEq, if_true, if_false] at hkind
  have hword := Value.string_inj_of_canonical (Option.some.inj hkind)
  revert hword
  cases d.kind <;> cases e.kind <;> decide

theorem value_eq_of_canonical {d e : Definition}
    (h : d.signedValue.canonical = e.signedValue.canonical) :
    d.value.canonical = e.value.canonical := by
  have hvalue := Value.get?_canonical_of_pairs h "definition"
  simp only [get?_pair, if_true] at hvalue
  exact Option.some.inj hvalue

private theorem object_scope_eq (s : Schema) {o o' : ObjectType} (ho : Ordered (.object o))
    (ho' : Ordered (.object o')) (h : o.value.canonical = o'.value.canonical) :
    Artifact.scope s (.object o) = Artifact.scope s (.object o') := by
  obtain ⟨hname, hdescription, hinterfaces, hfields⟩ := ObjectType.parts_of_canonical h
  have hlines := fields_of_canonical ho.1 ho'.1 Field.value
    (fun f => Artifact.lineScope f.description (Artifact.fieldLine f))
    (fun f hf g hg hfg => by
      rw [(Field.eq_of_canonical hfg).2.2.1, fieldLine_eq (ho.2 f hf) (ho'.2 g hg) hfg])
    hfields
  simp only [Artifact.scope, hname, hdescription, hinterfaces, hlines]

private theorem interface_scope_eq (s : Schema) {i i' : InterfaceType} (hi : i.fields.Sorted)
    (hi' : i'.fields.Sorted) (h : i.value.canonical = i'.value.canonical) :
    Artifact.scope s (.interface i) = Artifact.scope s (.interface i') := by
  obtain ⟨hname, hdescription, hfields⟩ := InterfaceType.parts_of_canonical h
  have hlines := fields_of_canonical hi hi' Field.value
    (fun f => Artifact.lineScope f.description (Artifact.signatureChars f.name f.args f.type))
    (fun f _ g _ hfg => by
      obtain ⟨hname, htype, hdescription, hargs, -⟩ := Field.eq_of_canonical hfg
      rw [hname, htype, hdescription, hargs])
    hfields
  simp only [Artifact.scope, hname, hdescription, hlines]

private theorem input_scope_eq (s : Schema) {i i' : InputType} (hi : Ordered (.input i))
    (hi' : Ordered (.input i')) (h : i.value.canonical = i'.value.canonical) :
    Artifact.scope s (.input i) = Artifact.scope s (.input i') := by
  obtain ⟨hname, hdescription, hfields⟩ := InputType.parts_of_canonical h
  have hlines := fields_of_canonical hi.1 hi'.1 InputField.value
    (fun f => Artifact.lineScope f.description (Artifact.inputLine s f))
    (fun f hf g hg hfg => by
      rw [(InputField.eq_of_canonical hfg).2.2.1, inputLine_eq s (hi.2 f hf) (hi'.2 g hg) hfg])
    hfields
  simp only [Artifact.scope, hname, hdescription, hlines]

/-- Definitions that are signed alike have one scope, in whatever schema they stand. -/
theorem scope_eq_of_canonical {d e : Definition} (hd : d.Ordered) (he : e.Ordered)
    (h : d.signedValue.canonical = e.signedValue.canonical) (s : Schema) :
    Artifact.scope s d = Artifact.scope s e := by
  have hkind := kind_eq_of_canonical h
  have hvalue := value_eq_of_canonical h
  cases d with
  | object o =>
    cases e with
    | object o' => exact object_scope_eq s hd he hvalue
    | _ => cases hkind
  | input i =>
    cases e with
    | input i' => exact input_scope_eq s hd he hvalue
    | _ => cases hkind
  | interface i =>
    cases e with
    | interface i' => exact interface_scope_eq s hd he hvalue
    | _ => cases hkind
  | union u =>
    cases e with
    | union u' => rw [UnionType.eq_of_canonical hvalue]
    | _ => cases hkind
  | enum t =>
    cases e with
    | enum t' => rw [EnumType.eq_of_canonical hvalue]
    | _ => cases hkind
  | scalar t =>
    cases e with
    | scalar t' => rw [ScalarType.eq_of_canonical hvalue]
    | _ => cases hkind

/-- Only an input type is rendered by more than its own definition. -/
theorem scope_eq_of_not_input {d : Definition} (h : ∀ i, d ≠ .input i) (s t : Schema) :
    Artifact.scope s d = Artifact.scope t d := by
  cases d with
  | input i => exact absurd rfl (h i)
  | _ => rfl

end Definition

end ClassSchema
