import ClassSchema.Proofs.Resolver.PlanRoundTrip
import ClassSchema.Proofs.Schema.Canonical
import ClassSchema.Proofs.Value.Distinct
import ClassSchema.Resolver.Builtin

/-!
# Signatures tell definitions apart

The text that a signature is taken over fixes the whole definition: its kind, and every part of it. So
definitions are signed alike only if they are the same, as far as the digest tells texts apart.
-/

namespace ClassSchema

theorem option_eq_of_map {α β : Type} {f : α → β} {a b : Option α} (h : a.map f = b.map f)
    (hf : ∀ x ∈ a, ∀ y ∈ b, f x = f y → x = y) : a = b := by
  cases a with
  | none =>
    cases b with
    | none => rfl
    | some y => cases h
  | some x =>
    cases b with
    | none => cases h
    | some y => exact congrArg some (hf x rfl y rfl (Option.some.inj h))

theorem Dict.eq_of_canonical {α : Type} {d e : Dict α} (hd : d.Sorted) (he : e.Sorted) {value : α → Value}
    (heq : ∀ f ∈ d.values, ∀ g ∈ e.values, (value f).canonical = (value g).canonical → f = g)
    (h : (Value.table (d.map value)).canonical = (Value.table (e.map value)).canonical) : d = e := by
  have hmap := Value.map_canonical_of_table (hd.map value) (he.map value) h
  have hentries := congrArg Dict.entries hmap
  simp only [Dict.map, List.map_map] at hentries
  have hsame := map_eq_map_of (g := id) hentries fun x hx y hy hxy => by
    obtain ⟨hkey, hvalue⟩ := Prod.mk.inj hxy
    exact Prod.ext hkey (heq x.2 (List.mem_map_of_mem hx) y.2 (List.mem_map_of_mem hy) hvalue)
  rw [List.map_id, List.map_id] at hsame
  exact congrArg Dict.mk hsame

theorem Plan.eq_of_canonical {p q : Plan} (hp : p.Proper) (hq : q.Proper)
    (hn : Number.ToldApart p.value.numbers q.value.numbers) (h : p.value.canonical = q.value.canonical) :
    p = q := by
  -- The text fixes the value form, and the plan is what its value form is read as.
  have hchars := chars_eq_of_canonical p q hp.2 hq.2 h
  have hvalue : p.value = q.value := Value.eq_of_chars p.value q.value hn hchars
  have hread : some p = some q := by
    rw [← decode_value p hp.1 hp.2, hvalue, decode_value q hq.1 hq.2]
  exact Option.some.inj hread

theorem Field.inj_of_canonical {f g : Field} (hf : ∀ p ∈ f.resolver, p.Proper)
    (hg : ∀ q ∈ g.resolver, q.Proper)
    (hn : ∀ p ∈ f.resolver, ∀ q ∈ g.resolver, Number.ToldApart p.value.numbers q.value.numbers)
    (h : f.value.canonical = g.value.canonical) : f = g := by
  obtain ⟨hname, htype, hdescription, hargs, hresolver⟩ := eq_of_canonical h
  rw [Option.map_map, Option.map_map] at hresolver
  have hplan : f.resolver = g.resolver := option_eq_of_map hresolver fun p hp q hq hpq =>
    Plan.eq_of_canonical (hf p hp) (hg q hq) (hn p hp q hq) hpq
  cases f
  cases g
  simp_all

theorem InputField.inj_of_canonical {f g : InputField} (hf : ∀ v ∈ f.default, v.ordered = v)
    (hg : ∀ w ∈ g.default, w.ordered = w)
    (hn : ∀ v ∈ f.default, ∀ w ∈ g.default, Number.ToldApart v.numbers w.numbers)
    (h : f.value.canonical = g.value.canonical) : f = g := by
  obtain ⟨hname, htype, hdescription, hdefault⟩ := eq_of_canonical h
  have hvalue : f.default = g.default := option_eq_of_map hdefault fun v hv w hw hvw => by
    rw [Value.canonical_of_ordered (hf v hv), Value.canonical_of_ordered (hg w hw)] at hvw
    exact Value.eq_of_chars v w (hn v hv w hw) hvw
  cases f
  cases g
  simp_all

namespace Definition

/-- The plans of the fields of a definition. -/
def plans : Definition → List Plan
  | .object o => o.fields.values.filterMap Field.resolver
  | .interface i => i.fields.values.filterMap Field.resolver
  | _ => []

/-- The defaults of the fields of an input type. -/
def defaults : Definition → List Value
  | .input i => i.fields.values.filterMap InputField.default
  | _ => []

/-- The numbers in a definition: those in its plans, and those in its defaults. -/
def numbers (d : Definition) : List Number :=
  d.plans.flatMap (fun p => p.value.numbers) ++ d.defaults.flatMap Value.numbers

/-- A definition in name order, whose plans are in name order with references that can be written. -/
structure Proper (d : Definition) : Prop where
  ordered : d.Ordered
  plans : ∀ p ∈ d.plans, p.Proper

variable {d e : Definition}

theorem toldApart_of_plans (hn : Number.ToldApart d.numbers e.numbers) {p q : Plan} (hp : p ∈ d.plans)
    (hq : q ∈ e.plans) : Number.ToldApart p.value.numbers q.value.numbers :=
  hn.of_append.1.mono (fun _ h => List.mem_flatMap.mpr ⟨p, hp, h⟩) fun _ h => List.mem_flatMap.mpr ⟨q, hq, h⟩

theorem toldApart_of_defaults (hn : Number.ToldApart d.numbers e.numbers) {v w : Value}
    (hv : v ∈ d.defaults) (hw : w ∈ e.defaults) : Number.ToldApart v.numbers w.numbers :=
  hn.of_append.2.mono (fun _ h => List.mem_flatMap.mpr ⟨v, hv, h⟩) fun _ h => List.mem_flatMap.mpr ⟨w, hw, h⟩

theorem fields_eq_of_canonical {fields fields' : Dict Field} (hd : d.Proper) (he : e.Proper)
    (hn : Number.ToldApart d.numbers e.numbers)
    (hplans : d.plans = fields.values.filterMap Field.resolver)
    (hplans' : e.plans = fields'.values.filterMap Field.resolver)
    (hsorted : fields.Sorted) (hsorted' : fields'.Sorted)
    (h : (Value.table (fields.map Field.value)).canonical =
      (Value.table (fields'.map Field.value)).canonical) : fields = fields' := by
  refine Dict.eq_of_canonical hsorted hsorted' ?_ h
  intro f hf g hg hfg
  have hmem (p : Plan) (hp : p ∈ f.resolver) : p ∈ d.plans := by
    rw [hplans]
    exact List.mem_filterMap.mpr ⟨f, hf, hp⟩
  have hmem' (q : Plan) (hq : q ∈ g.resolver) : q ∈ e.plans := by
    rw [hplans']
    exact List.mem_filterMap.mpr ⟨g, hg, hq⟩
  exact Field.inj_of_canonical (fun p hp => hd.plans p (hmem p hp)) (fun q hq => he.plans q (hmem' q hq))
    (fun p hp q hq => toldApart_of_plans hn (hmem p hp) (hmem' q hq)) hfg

theorem eq_of_canonical (hd : d.Proper) (he : e.Proper) (hn : Number.ToldApart d.numbers e.numbers)
    (h : d.signedValue.canonical = e.signedValue.canonical) : d = e := by
  have hkind := kind_eq_of_canonical h
  have hvalue := value_eq_of_canonical h
  cases d with
  | object o =>
    cases e with
    | object o' =>
      obtain ⟨hname, hdescription, hinterfaces, hfields⟩ := ObjectType.parts_of_canonical hvalue
      have hsame := fields_eq_of_canonical hd he hn rfl rfl hd.ordered.1 he.ordered.1 hfields
      cases o
      cases o'
      simp_all
    | _ => cases hkind
  | interface i =>
    cases e with
    | interface i' =>
      obtain ⟨hname, hdescription, hfields⟩ := InterfaceType.parts_of_canonical hvalue
      have hsame := fields_eq_of_canonical hd he hn rfl rfl hd.ordered he.ordered hfields
      cases i
      cases i'
      simp_all
    | _ => cases hkind
  | input i =>
    cases e with
    | input i' =>
      obtain ⟨hname, hdescription, hfields⟩ := InputType.parts_of_canonical hvalue
      have hsame : i.fields = i'.fields := by
        refine Dict.eq_of_canonical hd.ordered.1 he.ordered.1 ?_ hfields
        intro f hf g hg hfg
        exact InputField.inj_of_canonical (hd.ordered.2 f hf) (he.ordered.2 g hg)
          (fun v hv w hw => toldApart_of_defaults hn (List.mem_filterMap.mpr ⟨f, hf, hv⟩)
            (List.mem_filterMap.mpr ⟨g, hg, hw⟩)) hfg
      cases i
      cases i'
      simp_all
    | _ => cases hkind
  | union u =>
    cases e with
    | union u' => exact congrArg union (UnionType.eq_of_canonical hvalue)
    | _ => cases hkind
  | enum t =>
    cases e with
    | enum t' => exact congrArg enum (EnumType.eq_of_canonical hvalue)
    | _ => cases hkind
  | scalar t =>
    cases e with
    | scalar t' => exact congrArg scalar (ScalarType.eq_of_canonical hvalue)
    | _ => cases hkind

/-- The text that is signed is the same for two definitions just when they are the same in every part,
and so is the signature, if the digest tells the two texts apart. -/
theorem signedText_eq_iff (hd : d.Proper) (he : e.Proper) (hn : Number.ToldApart d.numbers e.numbers) :
    (d.signedValue.ordered.text = e.signedValue.ordered.text ↔ d = e) ∧
    ((d.signature = e.signature → d.signedValue.ordered.text = e.signedValue.ordered.text) →
      (d.signature = e.signature ↔ d = e)) := by
  have htext : d.signedValue.ordered.text = e.signedValue.ordered.text ↔ d = e := by
    constructor
    · intro h
      exact eq_of_canonical hd he hn (String.ofList_inj.mp h)
    · rintro rfl
      rfl
  refine ⟨htext, ?_⟩
  intro hdigest
  constructor
  · exact fun h => htext.mp (hdigest h)
  · rintro rfl
    rfl

/-- A guarded read with a number in its static context. -/
def readUpTo (limit : Number) : Plan :=
  ⟨Builtin.reference "read", [.new (Builtin.reference "nullGuard")], [],
    .ofList [("limit", .number limit)]⟩

theorem proper_readUpTo (limit : Number) : (readUpTo limit).Proper := by
  have hguard : (Plan.new (Builtin.reference "nullGuard")).Proper :=
    .of_parts (by decide +kernel) (by simp) (by simp) rfl
  exact .of_parts (by decide +kernel) (by simpa using hguard) (by simp) rfl

def pageType (limit : Number) : Definition :=
  .object ⟨"Page", none, ["Node"], .ofList [("title", ⟨"title", "String!", none, [⟨"size", "Int"⟩],
    some (readUpTo limit)⟩)]⟩

theorem proper_pageType (limit : Number) : (pageType limit).Proper where
  ordered := by
    refine ⟨Dict.sorted_ofList _, ?_⟩
    intro f hf p hp
    obtain rfl := List.mem_singleton.mp hf
    obtain rfl := Option.some.inj hp
    exact (proper_readUpTo limit).2
  plans := by
    intro p hp
    obtain rfl := List.mem_singleton.mp hp
    exact proper_readUpTo limit

/-- One as an integer and one as a float are signed differently. -/
theorem signedText_pageType_ne :
    (pageType (.integer 1)).Proper ∧ (pageType (.float ⟨false, Binary64.leastFull, -52⟩)).Proper ∧
    Number.ToldApart (pageType (.integer 1)).numbers
      (pageType (.float ⟨false, Binary64.leastFull, -52⟩)).numbers ∧
    (pageType (.integer 1)).signedValue.ordered.text ≠
      (pageType (.float ⟨false, Binary64.leastFull, -52⟩)).signedValue.ordered.text := by
  have hn : Number.ToldApart (pageType (.integer 1)).numbers
      (pageType (.float ⟨false, Binary64.leastFull, -52⟩)).numbers := by decide +kernel
  refine ⟨proper_pageType _, proper_pageType _, hn, ?_⟩
  intro htext
  have hsame := (signedText_eq_iff (proper_pageType _) (proper_pageType _) hn).1.mp htext
  exact absurd (congrArg numbers hsame) (by decide +kernel)

end Definition

end ClassSchema
