import ClassSchema.Proofs.Class.Lineage
import ClassSchema.Proofs.Traverse
import Mathlib.Data.List.Pairwise

/-!
# Ancestry

The walk up the parents and the search along the edges are two views of one order. The walk passes the
ancestors of a class from the nearest to the farthest, each above all before it, so it never comes back to a
class; the search finds just the classes that the walk passes.
-/

namespace ClassSchema

open Relation (TransGen ReflTransGen SymmGen)

namespace Index

open Descriptor (Extends)

/-- The walk up the parents of a class comes to an end and passes just these classes, however many they
are. -/
inductive Walk (ix : Index) : String → List Descriptor → Prop
  | root {name : String} : (ix.descriptor name).bind (·.parent) = none → ix.Walk name []
  | lost {name parent : String} : (ix.descriptor name).bind (·.parent) = some parent →
      ix.descriptor parent = none → ix.Walk name []
  | up {name parent : String} {d : Descriptor} {rest : List Descriptor} :
      (ix.descriptor name).bind (·.parent) = some parent → ix.descriptor parent = some d →
      ix.Walk parent rest → ix.Walk name (d :: rest)

variable {ds : List Descriptor} {ix : Index} {name : String} {passed : List Descriptor}

theorem walk_climb (ix : Index) {steps : Nat} (name : String)
    (hends : Index.reachesRoot ix.descriptors steps name = true) : ix.Walk name (ix.climb steps name) := by
  induction steps generalizing name with
  | zero =>
    have hnone : parentOf ix.descriptors name = none := by
      simpa [Index.reachesRoot] using hends
    exact .root hnone
  | succ steps ih =>
    rw [climb]
    cases hparent : (ix.descriptor name).bind (·.parent) with
    | none => exact .root hparent
    | some parent =>
      cases hd : ix.descriptor parent with
      | none =>
        simp only [hd]
        exact .lost hparent hd
      | some d =>
        simp only [hd]
        apply Walk.up hparent hd
        apply ih
        have hstep : parentOf ix.descriptors name = some parent := hparent
        simpa [Index.reachesRoot, hstep] using hends

/-- Each class on a walk extends all before it, be it over others. -/
theorem Describes.pairwise_of_walk (h : ix.Describes ds) (hwalk : ix.Walk name passed) :
    (name :: passed.map Descriptor.name).Pairwise (TransGen (Extends ds)) := by
  induction hwalk with
  | root hnone => simp
  | lost hparent hnone => simp
  | @up name parent d rest hparent hd hrest ih =>
    have hname : d.name = parent := ((h.lists.get?_iff parent d).mp hd).2
    have hstep : Extends ds name parent := (h.lists.parentOf_eq_some_iff name parent).mp hparent
    rw [List.map_cons, hname, List.pairwise_cons]
    refine ⟨?_, ih⟩
    intro above habove
    rcases List.mem_cons.mp habove with hsame | hrest
    · rw [hsame]
      exact .single hstep
    · exact .head hstep ((List.pairwise_cons.mp ih).1 above hrest)

theorem Describes.mem_edges_iff (h : ix.Describes ds) (child parent : String) :
    (child, parent) ∈ ix.edges ↔ Extends ds child parent := by
  rw [h.edges, h.lists.mem_edgesOf_iff]

theorem Describes.mem_names_ancestors_iff (h : ix.Describes ds) (name ancestor : String) :
    ancestor ∈ (ix.ancestors name).map Descriptor.name ↔ TransGen (Extends ds) name ancestor := by
  simp only [List.mem_map, h.mem_ancestors_iff]
  constructor
  · intro hmem
    obtain ⟨d, ⟨-, hpath⟩, rfl⟩ := hmem
    exact hpath
  · intro hpath
    -- What is extended has a descriptor.
    obtain ⟨child, -, c, hc, -, hparent⟩ := Relation.TransGen.tail'_iff.mp hpath
    obtain ⟨d, hd, rfl, -⟩ := h.world.parents c hc ancestor hparent
    exact ⟨d, ⟨hd, hpath⟩, rfl⟩

/-- The two views of descent agree, and both are a strict order in which the ancestors of a class form a
chain. -/
structure Ancestry (ix : Index) : Prop where
  ends : ∀ name, ix.Walk name (ix.ancestors name)
  distinct : ∀ name, ((ix.ancestors name).map Descriptor.name).Nodup
  others : ∀ name, name ∉ (ix.ancestors name).map Descriptor.name
  reachable : ∀ name ancestor, ix.isSubclass name ancestor = true ↔
    name ≠ ancestor ∧ ReflTransGen (fun child parent => (child, parent) ∈ ix.edges) name ancestor
  agree : ∀ name ancestor, ix.isSubclass name ancestor = true ↔
    ancestor ∈ (ix.ancestors name).map Descriptor.name
  irreflexive : ∀ name, ix.isSubclass name name = false
  asymmetric : ∀ a b, ix.isSubclass a b = true → ix.isSubclass b a = false
  transitive : ∀ a b c, ix.isSubclass a b = true → ix.isSubclass b c = true → ix.isSubclass a c = true
  comparable : ∀ name a b, a ∈ (ix.ancestors name).map Descriptor.name →
    b ∈ (ix.ancestors name).map Descriptor.name →
      a = b ∨ ix.isSubclass a b = true ∨ ix.isSubclass b a = true
  inherited : ∀ name child marker, ix.hasMarker name marker = true → ix.isSubclass child name = true →
    ix.hasMarker child marker = true

theorem Describes.pairwise_ancestors (h : ix.Describes ds) (name : String) :
    (name :: (ix.ancestors name).map Descriptor.name).Pairwise (TransGen (Extends ds)) :=
  h.pairwise_of_walk (walk_climb ix name (h.reachesRoot name))

theorem Describes.nodup_ancestors (h : ix.Describes ds) (name : String) :
    (name :: (ix.ancestors name).map Descriptor.name).Nodup := by
  apply (h.pairwise_ancestors name).imp
  intro a b hpath hsame
  rw [hsame] at hpath
  exact h.world.acyclic b hpath

theorem Describes.reachable_iff (h : ix.Describes ds) (name ancestor : String) :
    name ≠ ancestor ∧ ReflTransGen (fun child parent => (child, parent) ∈ ix.edges) name ancestor ↔
      TransGen (Extends ds) name ancestor := by
  have hedges : (fun child parent => (child, parent) ∈ ix.edges) = Extends ds := by
    funext child parent
    exact propext (h.mem_edges_iff child parent)
  rw [hedges, Relation.reflTransGen_iff_eq_or_transGen]
  constructor
  · intro hpath
    rcases hpath.2 with hsame | hpath'
    · exact absurd hsame.symm hpath.1
    · exact hpath'
  · intro hpath
    refine ⟨?_, .inr hpath⟩
    intro hsame
    rw [hsame] at hpath
    exact h.world.acyclic ancestor hpath

/-- Every index that is made of descriptors has one ancestry, whichever way it is asked. -/
theorem ancestry_of_ok (ds : List Descriptor) (ix : Index) (hix : ofDescriptors ds = .ok ix) :
    ix.Ancestry := by
  have h := describes_of_ok hix
  have hnot {a b : String} (hpath : ¬ TransGen (Extends ds) a b) : ix.isSubclass a b = false := by
    rw [← Bool.not_eq_true, h.isSubclass_iff]
    exact hpath
  constructor
  case ends =>
    intro name
    exact walk_climb ix name (h.reachesRoot name)
  case distinct =>
    intro name
    exact (List.nodup_cons.mp (h.nodup_ancestors name)).2
  case others =>
    intro name
    exact (List.nodup_cons.mp (h.nodup_ancestors name)).1
  case reachable =>
    intro name ancestor
    rw [h.isSubclass_iff, h.reachable_iff]
  case agree =>
    intro name ancestor
    rw [h.isSubclass_iff, h.mem_names_ancestors_iff]
  case irreflexive =>
    intro name
    exact hnot (h.world.acyclic name)
  case asymmetric =>
    intro a b hab
    apply hnot
    intro hba
    exact h.world.acyclic b (hba.trans (h.isSubclass_iff.mp hab))
  case transitive =>
    intro a b c hab hbc
    rw [h.isSubclass_iff] at hab hbc ⊢
    exact hab.trans hbc
  case comparable =>
    intro name a b ha hb
    by_cases hsame : a = b
    · exact .inl hsame
    · right
      rw [h.isSubclass_iff, h.isSubclass_iff]
      -- Of two classes on one walk, one is passed first.
      have hchain : ((ix.ancestors name).map Descriptor.name).Pairwise (SymmGen (TransGen (Extends ds))) := by
        apply (List.pairwise_cons.mp (h.pairwise_ancestors name)).2.imp
        intro a b hpath
        exact .of_rel hpath
      exact hchain.forall ha hb hsame
  case inherited =>
    intro name child marker hmarker hchild
    rw [h.hasMarker_iff] at hmarker ⊢
    rw [h.isSubclass_iff] at hchild
    obtain ⟨d, hd, hpath, hcarried⟩ := hmarker
    exact ⟨d, hd, hchild.to_reflTransGen.trans hpath, hcarried⟩

section Example

/-- A chain of three classes with a marker in the middle, and a class beside it. -/
def postDescriptors : List Descriptor := [
  plainDescriptor "BlogPost" .ordinary (some "Post") [],
  plainDescriptor "Note" .ordinary (some "Record") [],
  plainDescriptor "Post" .ordinary (some "Record") ["Versioned"],
  plainDescriptor "Record" .ordinary none []]

theorem ancestry_postDescriptors : ∃ ix, ofDescriptors postDescriptors = .ok ix ∧ ix.Ancestry ∧
    (ix.ancestors "BlogPost").map Descriptor.name = ["Post", "Record"] ∧
    ix.isSubclass "BlogPost" "Record" = true ∧ ix.isSubclass "Note" "Post" = false ∧
    ix.hasMarker "BlogPost" "Versioned" = true := by
  have hcheck : (ofDescriptors postDescriptors).toOption.map (fun ix =>
      ((ix.ancestors "BlogPost").map Descriptor.name, ix.isSubclass "BlogPost" "Record",
        ix.isSubclass "Note" "Post", ix.hasMarker "BlogPost" "Versioned")) =
      some (["Post", "Record"], true, false, true) := by
    decide +kernel
  obtain ⟨ix, hix, hanswers⟩ := Option.map_eq_some_iff.mp hcheck
  have hok := eq_ok_of_toOption hix
  simp only [Prod.mk.injEq] at hanswers
  exact ⟨ix, hok, ancestry_of_ok _ ix hok, hanswers⟩

end Example

end Index

end ClassSchema
