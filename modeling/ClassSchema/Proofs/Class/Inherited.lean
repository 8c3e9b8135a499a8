import ClassSchema.Proofs.Class.Lineage
import ClassSchema.Proofs.Traverse

/-!
# Inherited fields

The fields of a class are laid over those of its ancestors, from the farthest on. Read from the top, the first
table that has a field gives it: the nearest declaration on the line from the class up to its root.
-/

namespace ClassSchema

open Relation (ReflTransGen)

theorem Dict.get?_foldl_overlay {α : Type} {tables : List (Dict α)} (h : ∀ t ∈ tables, t.Sorted)
    (bottom : Dict α) (key : String) : (tables.foldl overlay bottom).get? key =
      (tables.reverse.findSome? fun t => t.get? key).or (bottom.get? key) := by
  induction tables generalizing bottom with
  | nil => rfl
  | cons t tables ih =>
    obtain ⟨ht, htables⟩ := List.forall_mem_cons.mp h
    rw [List.foldl_cons, ih htables, get?_overlay _ ht, List.reverse_cons, List.findSome?_append]
    cases hkey : t.get? key <;> simp [hkey]

namespace Descriptor

theorem sorted_of_decode {isNothing : Value → Bool} {path : String} {v : Value} {d : Descriptor}
    (h : decode isNothing path v = some d) : d.fields.Sorted := by
  simp only [decode, Option.bind_eq_bind, Option.bind_eq_some_iff, Option.pure_def,
    Option.some.injEq] at h
  obtain ⟨table, -, name, -, kind, -, parent, -, markers, -, isAbstract, -, description, -, fields,
    hfields, rfl⟩ := h
  rw [Dict.defaulted] at hfields
  split at hfields
  · obtain rfl := Option.some.inj hfields
    exact Dict.sorted_empty
  · simp only [Value.asDict, Option.bind_eq_bind, Option.bind_eq_some_iff, Option.pure_def,
      Option.some.injEq] at hfields
    obtain ⟨entries, -, decoded, -, rfl⟩ := hfields
    exact Dict.sorted_ofList decoded

/-- A class, the parent it extends, the parent of that, and so on to the end. -/
inductive Line (ds : List Descriptor) : String → List Descriptor → Prop
  | root {d : Descriptor} : d ∈ ds → d.parent = none → Line ds d.name [d]
  | child {d : Descriptor} {parent : String} {above : List Descriptor} :
      d ∈ ds → d.parent = some parent → Line ds parent above → Line ds d.name (d :: above)

/-- The first class of the line that declares the field declares it so. -/
def FirstDeclares (line : List Descriptor) (field : String) (spec : FieldSpec) : Prop :=
  ∃ nearer d farther, line = nearer ++ d :: farther ∧ d.fields.get? field = some spec ∧
    ∀ n ∈ nearer, n.fields.get? field = none

variable {ds : List Descriptor} {name : String} {line line' : List Descriptor}

theorem Line.unique (hdistinct : (ds.map Descriptor.name).Nodup) (h : Line ds name line)
    (h' : Line ds name line') : line = line' := by
  have hsame {d e : Descriptor} (hd : d ∈ ds) (he : e ∈ ds) (hname : d.name = e.name) : d = e :=
    List.inj_on_of_nodup_map hdistinct hd he hname
  induction h generalizing line' with
  | @root d hd hnone =>
    generalize hname : d.name = name at h'
    cases h' with
    | root he _ => rw [hsame hd he hname]
    | child he hparent _ =>
      rw [← hsame hd he hname, hnone] at hparent
      cases hparent
  | @child d parent above hd hparent _ ih =>
    generalize hname : d.name = name at h'
    cases h' with
    | root he hnone =>
      rw [← hsame hd he hname, hparent] at hnone
      cases hnone
    | child he hparent' habove =>
      obtain rfl := hsame hd he hname
      obtain rfl : parent = _ := Option.some.inj (hparent.symm.trans hparent')
      rw [ih habove]

theorem Line.exists_mem (h : Line ds name line) : ∃ d ∈ ds, d.name = name := by
  cases h with
  | root hd _ => exact ⟨_, hd, rfl⟩
  | child hd _ _ => exact ⟨_, hd, rfl⟩

end Descriptor

namespace Index

open Descriptor (Extends Line FirstDeclares)

variable {ds : List Descriptor} {ix : Index} {d : Descriptor} {name field : String}

/-- The walk up the parents of a class makes its line, since every parent is known. -/
theorem Describes.line_of_climb (h : ix.Describes ds) {steps : Nat} (hd : ix.descriptor name = some d)
    (hends : Index.reachesRoot ix.descriptors steps name = true) :
    Line ds name (d :: ix.climb steps name) := by
  have hget (key : String) (e : Descriptor) : ix.descriptor key = some e ↔ e ∈ ds ∧ e.name = key :=
    h.lists.get?_iff key e
  induction steps generalizing name d with
  | zero =>
    obtain ⟨hmem, rfl⟩ := (hget name d).mp hd
    have hnone : (ix.descriptor d.name).bind (·.parent) = none := by
      simpa [Index.reachesRoot, parentOf, descriptor] using hends
    rw [hd] at hnone
    exact .root hmem hnone
  | succ steps ih =>
    obtain ⟨hmem, rfl⟩ := (hget name d).mp hd
    cases hparent : d.parent with
    | none =>
      have hclimb : ix.climb (steps + 1) d.name = [] := by simp [climb, hd, hparent]
      rw [hclimb]
      exact .root hmem hparent
    | some parent =>
      obtain ⟨e, he, hname, -⟩ := h.world.parents d hmem parent hparent
      have hparentOf : parentOf ix.descriptors d.name = some parent := by
        rw [h.lists.parentOf_eq_some_iff]
        exact ⟨d, hmem, rfl, hparent⟩
      have hfound : ix.descriptor parent = some e := (hget parent e).mpr ⟨he, hname⟩
      have hclimb : ix.climb (steps + 1) d.name = e :: ix.climb steps parent := by
        simp [climb, hd, hparent, hfound]
      rw [hclimb]
      refine .child hmem hparent (ih hfound ?_)
      simpa [Index.reachesRoot, hparentOf] using hends

theorem Describes.line (h : ix.Describes ds) (hd : ix.descriptor name = some d) :
    Line ds name (d :: ix.ancestors name) :=
  h.line_of_climb hd (h.reachesRoot name)

theorem get?_fieldsOf (hd : ix.descriptor name = some d)
    (hfields : ∀ a ∈ d :: ix.ancestors name, a.fields.Sorted) (field : String) :
    (ix.fieldsOf name).get? field = (d :: ix.ancestors name).findSome? fun a => a.fields.get? field := by
  have hlaid : ix.fieldsOf name =
      ((d :: ix.ancestors name).reverse.map (·.fields)).foldl Dict.overlay .empty := by
    rw [fieldsOf, hd, List.foldl_map, List.reverse_cons, List.foldl_append]
    rfl
  have hsorted : ∀ t ∈ (d :: ix.ancestors name).reverse.map (·.fields), t.Sorted := by
    intro t ht
    obtain ⟨a, ha, rfl⟩ := List.mem_map.mp ht
    exact hfields a (List.mem_reverse.mp ha)
  rw [hlaid, Dict.get?_foldl_overlay hsorted, Dict.get?_empty, Option.or_none, ← List.map_reverse,
    List.reverse_reverse, List.findSome?_map]
  rfl

theorem Describes.contains_fieldsOf_iff (h : ix.Describes ds) (hfields : ∀ d ∈ ds, d.fields.Sorted)
    (name field : String) : (ix.fieldsOf name).contains field = true ↔
      ∃ a ∈ ds, ReflTransGen (Extends ds) name a.name ∧ a.fields.contains field = true := by
  cases he : ix.descriptor name with
  | none =>
    have hempty : ix.fieldsOf name = .empty := by rw [fieldsOf, he]
    rw [hempty]
    constructor
    · intro hcontains
      cases hcontains
    · rintro ⟨d, hd, hpath, -⟩
      obtain ⟨e, hfound⟩ := h.exists_descriptor hd hpath
      rw [he] at hfound
      cases hfound
  | some e =>
    have hsorted : ∀ a ∈ e :: ix.ancestors name, a.fields.Sorted :=
      fun a ha => hfields a ((h.mem_upward_iff he).mp ha).1
    simp only [Dict.contains, get?_fieldsOf he hsorted, List.findSome?_isSome_iff, h.mem_upward_iff he,
      and_assoc]

/-- A class has the fields that it or one of its ancestors declares, each as the nearest of them declares
it. -/
theorem fieldsOf_nearest (ds : List Descriptor) (ix : Index) (hix : ofDescriptors ds = .ok ix)
    (hfields : ∀ d ∈ ds, d.fields.Sorted) (name field : String) :
    ((ix.fieldsOf name).contains field = true ↔
      ∃ a ∈ ds, ReflTransGen (Extends ds) name a.name ∧ a.fields.contains field = true) ∧
    ((∃ d ∈ ds, d.name = name) → ∃ line, Line ds name line) ∧
    ∀ line, Line ds name line → ∀ spec,
      (ix.fieldsOf name).get? field = some spec ↔ FirstDeclares line field spec := by
  have h := describes_of_ok hix
  have hline : (∃ d ∈ ds, d.name = name) → ∃ e, ix.descriptor name = some e ∧
      Line ds name (e :: ix.ancestors name) := by
    rintro ⟨d, hd, rfl⟩
    have hfound : ix.descriptor d.name = some d := (h.lists.get?_iff _ _).mpr ⟨hd, rfl⟩
    exact ⟨d, hfound, h.line hfound⟩
  refine ⟨h.contains_fieldsOf_iff hfields name field, ?_, ?_⟩
  · intro hdeclared
    obtain ⟨e, -, hupward⟩ := hline hdeclared
    exact ⟨_, hupward⟩
  · intro line hgiven spec
    obtain ⟨e, he, hupward⟩ := hline hgiven.exists_mem
    rw [hgiven.unique h.world.distinct hupward,
      get?_fieldsOf he fun a ha => hfields a ((h.mem_upward_iff he).mp ha).1]
    exact List.findSome?_eq_some_iff

section Example

/-- A class with fields of its own. -/
def fieldedDescriptor (name : String) (parent : Option String) (fields : List (String × FieldSpec)) :
    Descriptor :=
  { plainDescriptor name .ordinary parent [] with fields := .ofList fields }

/-- Pages and records both declare a title, news only inherit. -/
def newsDescriptors : List Descriptor := [
  fieldedDescriptor "News" (some "Page") [("date", .short "String")],
  fieldedDescriptor "Page" (some "Record") [("title", .short "String!")],
  fieldedDescriptor "Record" none [("id", .short "ID!"), ("title", .short "String")]]

theorem line_news : Line newsDescriptors "News" newsDescriptors := by
  refine .child (d := newsDescriptors[0]) (by simp [newsDescriptors]) rfl ?_
  refine .child (d := newsDescriptors[1]) (by simp [newsDescriptors]) rfl ?_
  exact .root (d := newsDescriptors[2]) (by simp [newsDescriptors]) rfl

theorem fieldsOf_nearest_news : ∃ ix, ofDescriptors newsDescriptors = .ok ix ∧
    (ix.fieldsOf "News").get? "title" = some (.short "String!") ∧
    ((ix.fieldsOf "News").contains "title" = true ↔ ∃ a ∈ newsDescriptors,
      ReflTransGen (Extends newsDescriptors) "News" a.name ∧ a.fields.contains "title" = true) ∧
    FirstDeclares newsDescriptors "title" (.short "String!") := by
  have hcheck : (ofDescriptors newsDescriptors).toOption.map
      (fun ix => (ix.fieldsOf "News").get? "title") = some (some (.short "String!")) := by
    decide +kernel
  obtain ⟨ix, hix, htitle⟩ := Option.map_eq_some_iff.mp hcheck
  have hok := eq_ok_of_toOption hix
  have hfields : ∀ d ∈ newsDescriptors, d.fields.Sorted := by
    simp [newsDescriptors, fieldedDescriptor, Dict.sorted_ofList]
  obtain ⟨hcontains, -, hnearest⟩ := fieldsOf_nearest newsDescriptors ix hok hfields "News" "title"
  exact ⟨ix, hok, htitle, hcontains, (hnearest _ line_news _).mp htitle⟩

end Example

end Index

end ClassSchema
