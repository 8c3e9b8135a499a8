import ClassSchema.Proofs.Class.World

/-!
# Lineage

The index answers questions on descent in two ways: by walking up the parents and by following its edges.
In an index of a world both take their time and find just the classes that the declared parents lead to.
-/

namespace ClassSchema

open Relation (TransGen ReflTransGen)

namespace Index

open Descriptor (Extends World)

variable {ds : List Descriptor} {ix : Index} {known : Dict Descriptor} {d : Descriptor}
  {name ancestor goal : String} {steps : Nat}

/-- The index lists the descriptors of a world, and its edges are the parents they declare. -/
structure Describes (ix : Index) (ds : List Descriptor) : Prop where
  lists : Lists ix.descriptors ds
  edges : ix.edges = edgesOf ix.descriptors
  world : World ds

theorem describes_of_ok (h : ofDescriptors ds = .ok ix) : ix.Describes ds := by
  have hworld : World ds := world_iff_ofDescriptors.mpr ⟨ix, h⟩
  obtain ⟨known, hknown, rfl⟩ := ofDescriptors_ok h
  exact ⟨lists_byName hknown, rfl, hworld⟩

theorem Describes.extends_eq (h : ix.Describes ds) :
    Extends ds = fun child parent => parentOf ix.descriptors child = some parent := by
  funext child parent
  exact propext (h.lists.parentOf_eq_some_iff child parent).symm

theorem Describes.reachesRoot (h : ix.Describes ds) (name : String) :
    reachesRoot ix.descriptors ix.descriptors.size name = true := by
  apply reachesRoot_of_acyclic
  rw [← h.extends_eq]
  exact h.world.acyclic

/-! ### Walking up -/

theorem mem_climb (hmem : d ∈ ix.climb steps name) : ∃ ancestor,
    TransGen (fun child parent => parentOf ix.descriptors child = some parent) name ancestor ∧
      ix.descriptor ancestor = some d := by
  induction steps generalizing name with
  | zero => cases hmem
  | succ steps ih =>
    rw [climb] at hmem
    split at hmem
    · cases hmem
    · next parent hparent =>
      split at hmem
      · cases hmem
      · next e he =>
        rcases List.mem_cons.mp hmem with rfl | hmem
        · exact ⟨parent, .single hparent, he⟩
        · obtain ⟨ancestor, hpath, hd⟩ := ih hmem
          exact ⟨ancestor, .head hparent hpath, hd⟩

theorem mem_climb_of_reachesRoot
    (hknown : ∀ child parent, parentOf ix.descriptors child = some parent →
      ix.descriptor parent ≠ none)
    (hends : Index.reachesRoot ix.descriptors steps name = true)
    (hpath : TransGen (fun child parent => parentOf ix.descriptors child = some parent) name ancestor)
    (hd : ix.descriptor ancestor = some d) : d ∈ ix.climb steps name := by
  induction steps generalizing name with
  | zero =>
    obtain ⟨parent, hparent, -⟩ := Relation.TransGen.head'_iff.mp hpath
    simp [Index.reachesRoot, hparent] at hends
  | succ steps ih =>
    obtain ⟨parent, hparent, hrest⟩ := Relation.TransGen.head'_iff.mp hpath
    have hclimb : (ix.descriptor name).bind (·.parent) = some parent := hparent
    cases he : ix.descriptor parent with
    | none => exact absurd he (hknown name parent hparent)
    | some e =>
      simp only [climb, hclimb, he, List.mem_cons]
      simp only [Index.reachesRoot, hparent] at hends
      rcases Relation.reflTransGen_iff_eq_or_transGen.mp hrest with rfl | hrest
      · left
        rw [hd] at he
        exact Option.some.inj he
      · right
        exact ih hends hrest

theorem Describes.mem_ancestors_iff (h : ix.Describes ds) :
    d ∈ ix.ancestors name ↔ d ∈ ds ∧ TransGen (Extends ds) name d.name := by
  have hget (key : String) (e : Descriptor) :
      ix.descriptor key = some e ↔ e ∈ ds ∧ e.name = key := h.lists.get?_iff key e
  rw [h.extends_eq]
  constructor
  · intro hmem
    obtain ⟨ancestor, hpath, hd⟩ := mem_climb hmem
    obtain ⟨hlisted, rfl⟩ := (hget ancestor d).mp hd
    exact ⟨hlisted, hpath⟩
  · rintro ⟨hd, hpath⟩
    refine mem_climb_of_reachesRoot ?_ (h.reachesRoot name) hpath ((hget _ _).mpr ⟨hd, rfl⟩)
    intro child parent hparent hnone
    obtain ⟨c, hc, -, hc'⟩ := (h.lists.parentOf_eq_some_iff child parent).mp hparent
    obtain ⟨e, he, hname, -⟩ := h.world.parents c hc parent hc'
    rw [(hget parent e).mpr ⟨he, hname⟩] at hnone
    cases hnone

/-! ### Following edges -/

private theorem parents_of_sorted {l : List (String × Descriptor)}
    (hl : l.Pairwise fun a b => a.1 < b.1) :
    ((l.filterMap fun e => e.2.parent.map (e.1, ·)).filterMap
      fun e => if [name].contains e.1 then some e.2 else none) =
      ((Dict.lookup name l).bind (·.parent)).toList := by
  induction l with
  | nil => rfl
  | cons e l ih =>
    obtain ⟨key, d⟩ := e
    obtain ⟨hlt, hl⟩ := List.pairwise_cons.mp hl
    by_cases hkey : key = name
    · subst hkey
      have hrest : Dict.lookup key l = none := by
        cases hlookup : Dict.lookup key l with
        | none => rfl
        | some value => exact absurd (hlt _ (Dict.mem_of_lookup hlookup)) (lt_irrefl key)
      rw [hrest] at ih
      cases hparent : d.parent with
      | none => simpa [Dict.lookup, hparent] using ih hl
      | some parent => simpa [Dict.lookup, hparent] using ih hl
    · cases hparent : d.parent with
      | none => simpa [Dict.lookup, hkey, hparent] using ih hl
      | some parent => simpa [Dict.lookup, hkey, hparent] using ih hl

theorem Describes.reaches_iff (h : ix.Describes ds)
    (hends : Index.reachesRoot ix.descriptors steps name = true) :
    ix.reaches goal steps [name] = true ↔ ReflTransGen (Extends ds) name goal := by
  have hnext (name : String) : (ix.edges.filterMap
      fun e => if [name].contains e.1 then some e.2 else none) =
      (parentOf ix.descriptors name).toList := by
    rw [h.edges]
    exact parents_of_sorted h.lists.sorted
  rw [h.extends_eq]
  induction steps generalizing name with
  | zero =>
    have hroot : parentOf ix.descriptors name = none := by simpa [Index.reachesRoot] using hends
    have hstay : ReflTransGen (fun child parent => parentOf ix.descriptors child = some parent) name goal
        ↔ name = goal := by
      rw [Relation.ReflTransGen.cases_head_iff]
      simp [hroot]
    rw [hstay]
    simp [reaches, eq_comm]
  | succ steps ih =>
    rw [reaches, hnext, Relation.ReflTransGen.cases_head_iff]
    cases hparent : parentOf ix.descriptors name with
    | none => simp [eq_comm (a := goal)]
    | some parent =>
      rw [Index.reachesRoot, hparent] at hends
      simp [ih hends, eq_comm (a := goal)]

theorem Describes.contains_iff (h : ix.Describes ds) :
    ix.descriptors.contains name = true ↔ ∃ e ∈ ds, e.name = name := by
  rw [Dict.contains, Option.isSome_iff_exists]
  simp [h.lists.get?_iff]

/-- One class is a subclass of another exactly if it descends from it. -/
theorem Describes.isSubclass_iff (h : ix.Describes ds) :
    ix.isSubclass name ancestor = true ↔ TransGen (Extends ds) name ancestor := by
  simp only [isSubclass, Bool.and_eq_true, h.reaches_iff (h.reachesRoot name), h.contains_iff,
    decide_eq_true_iff, Relation.reflTransGen_iff_eq_or_transGen]
  constructor
  · rintro ⟨⟨⟨hne, -⟩, -⟩, heq | hpath⟩
    · exact absurd heq.symm hne
    · exact hpath
  · intro hpath
    refine ⟨⟨⟨?_, ?_⟩, ?_⟩, .inr hpath⟩
    · rintro rfl
      exact h.world.acyclic _ hpath
    · obtain ⟨parent, ⟨c, hc, hname, -⟩, -⟩ := Relation.TransGen.head'_iff.mp hpath
      exact ⟨c, hc, hname⟩
    · obtain ⟨child, -, c, hc, -, hparent⟩ := Relation.TransGen.tail'_iff.mp hpath
      obtain ⟨e, he, hname, -⟩ := h.world.parents c hc ancestor hparent
      exact ⟨e, he, hname⟩

theorem Describes.exists_descriptor (h : ix.Describes ds) (hd : d ∈ ds)
    (hpath : ReflTransGen (Extends ds) name d.name) : ∃ e, ix.descriptor name = some e := by
  rcases Relation.ReflTransGen.cases_head_iff.mp hpath with hname | ⟨parent, ⟨c, hc, hname, -⟩, -⟩
  · exact ⟨d, (h.lists.get?_iff name d).mpr ⟨hd, hname.symm⟩⟩
  · exact ⟨c, (h.lists.get?_iff name c).mpr ⟨hc, hname⟩⟩

theorem Describes.mem_upward_iff (h : ix.Describes ds) {e : Descriptor} (he : ix.descriptor name = some e) :
    d ∈ e :: ix.ancestors name ↔ d ∈ ds ∧ ReflTransGen (Extends ds) name d.name := by
  have hget (a : Descriptor) : ix.descriptor name = some a ↔ a ∈ ds ∧ a.name = name :=
    h.lists.get?_iff name a
  rw [List.mem_cons, h.mem_ancestors_iff, Relation.reflTransGen_iff_eq_or_transGen]
  constructor
  · rintro (rfl | ⟨hd, hpath⟩)
    · exact ⟨((hget d).mp he).1, .inl ((hget d).mp he).2⟩
    · exact ⟨hd, .inr hpath⟩
  · rintro ⟨hd, hname | hpath⟩
    · left
      exact Option.some.inj (((hget d).mpr ⟨hd, hname⟩).symm.trans he)
    · exact .inr ⟨hd, hpath⟩

/-- A class has the markers that it carries itself and those of the classes it descends from. -/
theorem Describes.hasMarker_iff (h : ix.Describes ds) (marker : String) :
    ix.hasMarker name marker = true ↔
      ∃ d ∈ ds, ReflTransGen (Extends ds) name d.name ∧ marker ∈ d.markers := by
  rw [hasMarker]
  cases he : ix.descriptor name with
  | none =>
    simp only [Bool.false_eq_true, false_iff]
    rintro ⟨d, hd, hpath, -⟩
    obtain ⟨e, hfound⟩ := h.exists_descriptor hd hpath
    rw [he] at hfound
    cases hfound
  | some e =>
    simp only [List.any_eq_true, h.mem_upward_iff he, List.contains_iff_mem, and_assoc]

end Index

end ClassSchema
