import ClassSchema.Proofs.Class.World
import ClassSchema.Proofs.Related
import ClassSchema.TypeRef

/-!
# Retyped fields

Descriptors in which some fields refer to another class than before make the same index but for the types
of these fields. What an index tells of names, descent and markers does not look at fields at all.
-/

namespace ClassSchema

variable {u v : String}

/-- The same field, unless it refers to `u` in the one and to `v` in the other. -/
structure FieldSpec.Retyped (u v : String) (s s' : FieldSpec) : Prop where
  description : s.description = s'.description
  args : s.args = s'.args
  resolver : s.resolver = s'.resolver
  type : s.type = s'.type ∨ baseType s.type = u ∧ baseType s'.type = v

theorem FieldSpec.retyped_refl (s : FieldSpec) : s.Retyped u v s := ⟨rfl, rfl, rfl, .inl rfl⟩

/-- The same descriptor, but for fields that refer to `u` in the one and to `v` in the other. -/
structure Descriptor.Retyped (u v : String) (d d' : Descriptor) : Prop where
  name : d.name = d'.name
  kind : d.kind = d'.kind
  parent : d.parent = d'.parent
  markers : d.markers = d'.markers
  isAbstract : d.isAbstract = d'.isAbstract
  description : d.description = d'.description
  path : d.path = d'.path
  fields : d.fields.Related (FieldSpec.Retyped u v) d'.fields

theorem Descriptor.retyped_refl (d : Descriptor) : d.Retyped u v d :=
  ⟨rfl, rfl, rfl, rfl, rfl, rfl, rfl, Dict.related_refl FieldSpec.retyped_refl _⟩

/-- The same index, but for fields that refer to `u` in the one and to `v` in the other. -/
structure Index.Retyped (u v : String) (ix ix' : Index) : Prop where
  descriptors : ix.descriptors.Related (Descriptor.Retyped u v) ix'.descriptors
  implicitMarkers : ix.implicitMarkers = ix'.implicitMarkers
  edges : ix.edges = ix'.edges

namespace Descriptor

variable {ds ds' : List Descriptor}

theorem World.retyped (h : World ds) (hds : List.Forall₂ (Retyped u v) ds ds') : World ds' := by
  have hextends (child parent : String) (hp : Extends ds' child parent) : Extends ds child parent := by
    obtain ⟨d', hd', hname, hparent⟩ := hp
    obtain ⟨d, hd, hsame⟩ := exists_left_of_forall₂ hds hd'
    exact ⟨d, hd, hsame.name.trans hname, hsame.parent.trans hparent⟩
  refine ⟨?_, fun d' hd' parent hparent => ?_, fun d' hd' marker hmarker e' he' hname => ?_, ?_⟩
  · have hnames : ds.map Descriptor.name = ds'.map Descriptor.name :=
      List.forall₂_eq_eq_eq ▸ List.forall₂_map_left_iff.mpr
        (List.forall₂_map_right_iff.mpr (hds.imp fun _ _ hd => hd.name))
    rw [← hnames]
    exact h.distinct
  · obtain ⟨d, hd, hsame⟩ := exists_left_of_forall₂ hds hd'
    rw [← hsame.parent] at hparent
    obtain ⟨e, he, hname, hkind⟩ := h.parents d hd parent hparent
    obtain ⟨e', he', hsame'⟩ := exists_right_of_forall₂ hds he
    exact ⟨e', he', hsame'.name.symm.trans hname, by rw [← hsame'.kind, ← hsame.kind, hkind]⟩
  · obtain ⟨d, hd, hsame⟩ := exists_left_of_forall₂ hds hd'
    obtain ⟨e, he, hsame'⟩ := exists_left_of_forall₂ hds he'
    rw [← hsame.markers] at hmarker
    rw [← hsame'.kind]
    exact h.markers d hd marker hmarker e he (hsame'.name.trans hname)
  · exact fun name hcircle => h.acyclic name (Relation.TransGen.mono hextends _ _ hcircle)

end Descriptor

namespace Index

open Descriptor (World)

variable {ds ds' : List Descriptor} {ix ix' : Index} {known known' : Dict Descriptor}

/-! ### Making the index -/

theorem byName_retyped (hds : List.Forall₂ (Descriptor.Retyped u v) ds ds')
    (hknown : known.Related (Descriptor.Retyped u v) known') :
    Agree (Dict.Related (Descriptor.Retyped u v)) (byName ds known) (byName ds' known') := by
  induction hds generalizing known known' with
  | nil => exact .ok hknown
  | @cons d d' ds ds' hd _ ih =>
    rw [byName, byName, ← hd.name, ← hd.path]
    rcases hknown.get? d.name with ⟨hnone, hnone'⟩ | ⟨first, first', hsome, hsome', hfirst⟩
    · rw [hnone, hnone']
      exact ih (hknown.insert d.name hd)
    · rw [hsome, hsome']
      dsimp only
      rw [← hfirst.path]
      exact .error _

theorem edgesOf_retyped (h : known.Related (Descriptor.Retyped u v) known') :
    edgesOf known = edgesOf known' := by
  obtain ⟨l⟩ := known
  obtain ⟨m⟩ := known'
  change List.Forall₂ _ l m at h
  rw [edgesOf, edgesOf]
  induction h with
  | nil => rfl
  | @cons x y l m hxy _ ih =>
    rw [List.filterMap_cons, List.filterMap_cons, hxy.1, hxy.2.parent, ih]

theorem implicitMarkersOf_retyped (h : known.Related (Descriptor.Retyped u v) known') :
    implicitMarkersOf known = implicitMarkersOf known' := by
  have hcarried {ds ds' : List Descriptor} (hds : List.Forall₂ (Descriptor.Retyped u v) ds ds') :
      ds.flatMap (·.markers) = ds'.flatMap (·.markers) := by
    induction hds with
    | nil => rfl
    | cons hd _ ih => rw [List.flatMap_cons, List.flatMap_cons, hd.markers, ih]
  rw [implicitMarkersOf, implicitMarkersOf, hcarried h.values]
  simp only [h.contains_eq]

theorem exists_retyped (hix : ofDescriptors ds = .ok ix)
    (hds : List.Forall₂ (Descriptor.Retyped u v) ds ds') :
    ∃ ix', ofDescriptors ds' = .ok ix' ∧ ix.Retyped u v ix' := by
  have hworld : World ds' := (world_iff_ofDescriptors.mpr ⟨ix, hix⟩).retyped hds
  obtain ⟨ix', hix'⟩ := world_iff_ofDescriptors.mp hworld
  refine ⟨ix', hix', ?_⟩
  obtain ⟨known, hknown, rfl⟩ := ofDescriptors_ok hix
  obtain ⟨known', hknown', rfl⟩ := ofDescriptors_ok hix'
  have hagree : Agree (Dict.Related (Descriptor.Retyped u v)) (byName ds .empty) (byName ds' .empty) :=
    byName_retyped hds .nil
  rw [hknown, hknown'] at hagree
  cases hagree with
  | ok h => exact ⟨h, implicitMarkersOf_retyped h, edgesOf_retyped h⟩

/-! ### What an index answers -/

/-- Both indexes know the same names and answer the same about descent and markers. -/
structure SameReflection (ix ix' : Index) : Prop where
  hasClass : ∀ name, ix.hasClass name = ix'.hasClass name
  hasMarkerNamed : ∀ name, ix.hasMarkerNamed name = ix'.hasMarkerNamed name
  isSubclass : ∀ name ancestor, ix.isSubclass name ancestor = ix'.isSubclass name ancestor
  hasMarker : ∀ name marker, ix.hasMarker name marker = ix'.hasMarker name marker
  knownNames : ix.knownNames = ix'.knownNames

namespace Retyped

theorem isKind (h : ix.Retyped u v ix') (name : String) (kind : ClassKind) :
    ix.isKind name kind = ix'.isKind name kind := by
  have hkind := h.descriptors.map_get?_eq (f := Descriptor.kind) (g := Descriptor.kind)
    (fun _ _ hd => hd.kind) name
  exact congrArg (fun k => decide (k = some kind)) hkind

theorem climb (h : ix.Retyped u v ix') (steps : ℕ) (name : String) :
    List.Forall₂ (Descriptor.Retyped u v) (ix.climb steps name) (ix'.climb steps name) := by
  induction steps generalizing name with
  | zero => exact .nil
  | succ steps ih =>
    rw [Index.climb, Index.climb, descriptor, descriptor]
    rcases h.descriptors.get? name with ⟨hnone, hnone'⟩ | ⟨d, d', hsome, hsome', hd⟩
    · rw [hnone, hnone']
      exact .nil
    · rw [hsome, hsome', Option.bind_some, Option.bind_some, ← hd.parent]
      cases d.parent with
      | none => exact .nil
      | some parent =>
        dsimp only [descriptor]
        rcases h.descriptors.get? parent with ⟨hnone, hnone'⟩ | ⟨e, e', hsome, hsome', he⟩
        · rw [hnone, hnone']
          exact .nil
        · rw [hsome, hsome']
          exact .cons he (ih parent)

theorem size_eq (h : ix.Retyped u v ix') : ix.descriptors.size = ix'.descriptors.size :=
  List.Forall₂.length_eq h.descriptors

theorem ancestors (h : ix.Retyped u v ix') (name : String) :
    List.Forall₂ (Descriptor.Retyped u v) (ix.ancestors name) (ix'.ancestors name) := by
  rw [Index.ancestors, Index.ancestors, ← h.size_eq]
  exact h.climb _ name

theorem fieldsOf (h : ix.Retyped u v ix') (name : String) :
    (ix.fieldsOf name).Related (FieldSpec.Retyped u v) (ix'.fieldsOf name) := by
  have hlaid {ds ds' : List Descriptor} (hds : List.Forall₂ (Descriptor.Retyped u v) ds ds')
      {t t' : Dict FieldSpec} (ht : t.Related (FieldSpec.Retyped u v) t') :
      (ds.foldl (fun fields a => fields.overlay a.fields) t).Related (FieldSpec.Retyped u v)
        (ds'.foldl (fun fields a => fields.overlay a.fields) t') := by
    induction hds generalizing t t' with
    | nil => exact ht
    | cons hd _ ih => exact ih (ht.overlay hd.fields)
  rw [Index.fieldsOf, Index.fieldsOf, descriptor, descriptor]
  rcases h.descriptors.get? name with ⟨hnone, hnone'⟩ | ⟨d, d', hsome, hsome', hd⟩
  · rw [hnone, hnone']
    exact .nil
  · rw [hsome, hsome']
    exact (hlaid (List.rel_reverse (h.ancestors name)) .nil).overlay hd.fields

theorem reaches (h : ix.Retyped u v ix') (goal : String) (steps : ℕ) (reached : List String) :
    ix.reaches goal steps reached = ix'.reaches goal steps reached := by
  induction steps generalizing reached with
  | zero => rfl
  | succ steps ih =>
    rw [Index.reaches, Index.reaches, h.edges]
    split
    · rfl
    · rw [ih]

theorem sameReflection (h : ix.Retyped u v ix') : ix.SameReflection ix' where
  hasClass name := h.isKind name .ordinary
  hasMarkerNamed name := by
    rw [hasMarkerNamed, hasMarkerNamed, h.isKind, h.implicitMarkers]
  isSubclass name ancestor := by
    rw [isSubclass, isSubclass, h.descriptors.contains_eq, h.descriptors.contains_eq, h.size_eq, h.reaches]
  hasMarker name marker := by
    have hcarried {ds ds' : List Descriptor} (hds : List.Forall₂ (Descriptor.Retyped u v) ds ds') :
        (ds.any fun a => a.markers.contains marker) = ds'.any fun a => a.markers.contains marker := by
      induction hds with
      | nil => rfl
      | cons hd _ ih => rw [List.any_cons, List.any_cons, hd.markers, ih]
    rw [hasMarker, hasMarker, descriptor, descriptor]
    rcases h.descriptors.get? name with ⟨hnone, hnone'⟩ | ⟨d, d', hsome, hsome', hd⟩
    · rw [hnone, hnone']
    · rw [hsome, hsome']
      exact hcarried (.cons hd (h.ancestors name))
  knownNames := by rw [knownNames, knownNames, h.descriptors.keys_eq, h.implicitMarkers]

theorem collection (h : ix.Retyped u v ix') : ix.collection = ix'.collection := by
  have hclasses {l m : List (String × Descriptor)}
      (hl : List.Forall₂ (fun x y => x.1 = y.1 ∧ Descriptor.Retyped u v x.2 y.2) l m) :
      (l.filter fun e => e.2.kind = .ordinary).map (fun e => (e.1, e.2.path)) =
        (m.filter fun e => e.2.kind = .ordinary).map fun e => (e.1, e.2.path) := by
    induction hl with
    | nil => rfl
    | cons hxy _ ih =>
      rw [List.filter_cons, List.filter_cons, hxy.2.kind]
      split
      · rw [List.map_cons, List.map_cons, hxy.1, hxy.2.path, ih]
      · exact ih
  rw [Index.collection, Index.collection, hclasses h.descriptors]

theorem description (h : ix.Retyped u v ix') (name : String) :
    (ix.descriptor name).bind (·.description) = (ix'.descriptor name).bind (·.description) := by
  rw [descriptor, descriptor]
  rcases h.descriptors.get? name with ⟨hnone, hnone'⟩ | ⟨d, d', hsome, hsome', hd⟩
  · rw [hnone, hnone']
  · rw [hsome, hsome']
    exact hd.description

end Retyped

end Index

end ClassSchema
