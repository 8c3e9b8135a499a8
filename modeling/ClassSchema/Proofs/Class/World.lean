import ClassSchema.Class.Index
import ClassSchema.Proofs.Dict
import Mathlib.Data.List.Perm.Subperm
import Mathlib.Logic.Relation

/-!
# Worlds of classes

A list of descriptors makes an index exactly if each name is declared once, parents are declared and of
the same kind, no class is used as a marker, and no class extends itself, be it over others. The order of
the list makes no difference. That a circle is found rests on a count: a chain of parents without one
meets each class at most once.
-/

namespace ClassSchema

open Relation (TransGen)

namespace Descriptor

/-- A descriptor of the list says that one class extends another. -/
def Extends (ds : List Descriptor) (child parent : String) : Prop :=
  ∃ d ∈ ds, d.name = child ∧ d.parent = some parent

/-- Descriptors that fit together. -/
structure World (ds : List Descriptor) : Prop where
  distinct : (ds.map name).Nodup
  parents : ∀ d ∈ ds, ∀ parent ∈ d.parent, ∃ e ∈ ds, e.name = parent ∧ e.kind = d.kind
  markers : ∀ d ∈ ds, ∀ marker ∈ d.markers, ∀ e ∈ ds, e.name = marker → e.kind ≠ .ordinary
  acyclic : ∀ name, ¬ TransGen (Extends ds) name name

variable {ds es : List Descriptor}

theorem World.perm (h : World ds) (hperm : ds.Perm es) : World es := by
  have hextends : Extends es = Extends ds := by
    funext child parent
    simp only [Extends, hperm.mem_iff]
  refine ⟨(hperm.map name).nodup_iff.mp h.distinct, fun d hd parent hparent => ?_,
    fun d hd marker hmarker e he => ?_, ?_⟩
  · obtain ⟨e, he, hfits⟩ := h.parents d (hperm.mem_iff.mpr hd) parent hparent
    exact ⟨e, hperm.mem_iff.mp he, hfits⟩
  · exact h.markers d (hperm.mem_iff.mpr hd) marker hmarker e (hperm.mem_iff.mpr he)
  · rw [hextends]
    exact h.acyclic

end Descriptor

namespace Index

open Descriptor (Extends World)

variable {ds : List Descriptor} {known known' : Dict Descriptor} {d : Descriptor} {name : String}

/-! ### Descriptors by name -/

/-- The table has the descriptors of a list under their names. -/
structure Lists (known : Dict Descriptor) (ds : List Descriptor) : Prop where
  sorted : known.Sorted
  get?_iff : ∀ name d, known.get? name = some d ↔ d ∈ ds ∧ d.name = name

theorem byName_ok (h : byName ds known = .ok known') : (∀ d ∈ ds, known.get? d.name = none) ∧
    (ds.map Descriptor.name).Nodup ∧ (known.Sorted → known'.Sorted) ∧
      ∀ name d, known'.get? name = some d ↔ known.get? name = some d ∨ d ∈ ds ∧ d.name = name := by
  induction ds generalizing known with
  | nil =>
    obtain rfl := Except.ok.inj h
    simp
  | cons first ds ih =>
    rw [byName] at h
    split at h
    · cases h
    · next hnew =>
      obtain ⟨hfresh, hnodup, hsorted, hget⟩ := ih h
      have hfirst : ∀ d ∈ ds, d.name ≠ first.name := by
        intro d hd hname
        have hnone := hfresh d hd
        rw [Dict.get?_insert, if_pos hname] at hnone
        cases hnone
      refine ⟨List.forall_mem_cons.mpr ⟨hnew, fun d hd => ?_⟩, ?_, fun hs => ?_, fun name d => ?_⟩
      · have hnone := hfresh d hd
        rwa [Dict.get?_insert, if_neg (hfirst d hd)] at hnone
      · rw [List.map_cons, List.nodup_cons]
        refine ⟨fun hmem => ?_, hnodup⟩
        obtain ⟨d, hd, hname⟩ := List.mem_map.mp hmem
        exact hfirst d hd hname
      · exact hsorted (hs.insert _ _)
      · rw [hget, Dict.get?_insert]
        by_cases hname : name = first.name
        · subst hname
          rw [if_pos rfl, hnew]
          grind
        · rw [if_neg hname]
          grind

theorem exists_byName (hfresh : ∀ d ∈ ds, known.get? d.name = none)
    (hnodup : (ds.map Descriptor.name).Nodup) : ∃ known', byName ds known = .ok known' := by
  induction ds generalizing known with
  | nil => exact ⟨known, rfl⟩
  | cons first ds ih =>
    obtain ⟨hfirst, hnodup⟩ := List.nodup_cons.mp hnodup
    rw [byName, hfresh first List.mem_cons_self]
    refine ih (fun d hd => ?_) hnodup
    have hne : d.name ≠ first.name := fun hname => hfirst (hname ▸ List.mem_map_of_mem hd)
    rw [Dict.get?_insert, if_neg hne]
    exact hfresh d (List.mem_cons_of_mem _ hd)

theorem lists_byName (h : byName ds .empty = .ok known) : Lists known ds := by
  obtain ⟨-, -, hsorted, hget⟩ := byName_ok h
  refine ⟨hsorted Dict.sorted_empty, fun name d => ?_⟩
  rw [hget, Dict.get?_empty]
  simp

theorem Lists.mem_values_iff (h : Lists known ds) : d ∈ known.values ↔ d ∈ ds := by
  rw [h.sorted.mem_values_iff]
  simp [h.get?_iff]

theorem Lists.parentOf_eq_some_iff (h : Lists known ds) (child parent : String) :
    parentOf known child = some parent ↔ Extends ds child parent := by
  rw [parentOf, Option.bind_eq_some_iff]
  simp [h.get?_iff, Extends, and_assoc]

theorem Lists.mem_edgesOf_iff (h : Lists known ds) (child parent : String) :
    (child, parent) ∈ edgesOf known ↔ Extends ds child parent := by
  have hget (d : Descriptor) : (child, d) ∈ known.entries ↔ d ∈ ds ∧ d.name = child := by
    rw [← h.sorted.get?_eq_some_iff]
    exact h.get?_iff child d
  rw [edgesOf, List.mem_filterMap]
  constructor
  · intro hmem
    obtain ⟨⟨key, d⟩, hentry, hedge⟩ := hmem
    obtain ⟨above, habove, hpair⟩ := Option.map_eq_some_iff.mp hedge
    obtain ⟨rfl, rfl⟩ := Prod.mk.inj hpair
    obtain ⟨hd, hname⟩ := (hget d).mp hentry
    exact ⟨d, hd, hname, habove⟩
  · intro hextends
    obtain ⟨d, hd, hname, hparent⟩ := hextends
    refine ⟨(child, d), (hget d).mpr ⟨hd, hname⟩, ?_⟩
    simp [hparent]

/-! ### Links -/

theorem checkParent_ok_iff : checkParent known d = .ok () ↔
    ∀ parent ∈ d.parent, (known.get? parent).map (·.kind) = some d.kind := by
  rw [checkParent]
  cases d.parent with
  | none => simp
  | some parent => simp

theorem checkMarker_ok_iff (marker : String) : checkMarker known d marker = .ok () ↔
    (known.get? marker).map (·.kind) ≠ some .ordinary := by
  rw [checkMarker]
  split
  · next h => simp [h]
  · next h => simp [h]

theorem checkLinks_ok_iff : checkLinks known d = .ok () ↔
    (∀ parent ∈ d.parent, (known.get? parent).map (·.kind) = some d.kind) ∧
      ∀ marker ∈ d.markers, (known.get? marker).map (·.kind) ≠ some .ordinary := by
  rw [← checkParent_ok_iff, checkLinks]
  cases checkParent known d with
  | error e => simp
  | ok _ => simp [checkEach_eq_ok_iff, checkMarker_ok_iff]

theorem Lists.kind_eq_some_iff (h : Lists known ds) (kind : ClassKind) :
    (known.get? name).map (·.kind) = some kind ↔ ∃ e ∈ ds, e.name = name ∧ e.kind = kind := by
  rw [Option.map_eq_some_iff]
  simp [h.get?_iff, and_assoc]

/-! ### Circles -/

theorem not_transGen_of_reachesRoot {steps : Nat} (h : reachesRoot known steps name = true) :
    ¬ TransGen (fun child parent => parentOf known child = some parent) name name := by
  intro hcircle
  -- A circle goes on for ever, from each class to its parent and on around.
  induction steps generalizing name with
  | zero =>
    obtain ⟨parent, hparent, -⟩ := Relation.TransGen.head'_iff.mp hcircle
    rw [reachesRoot, hparent] at h
    cases h
  | succ steps ih =>
    obtain ⟨parent, hparent, hback⟩ := Relation.TransGen.head'_iff.mp hcircle
    rw [reachesRoot, hparent] at h
    exact ih h (Relation.TransGen.tail' hback hparent)

theorem exists_chain_of_not_reachesRoot {steps : Nat} (h : ¬ reachesRoot known steps name = true) :
    ∃ rest : List String, rest.length = steps ∧ (name :: rest) ⊆ known.keys ∧ (name :: rest).Pairwise
      (TransGen fun child parent => parentOf known child = some parent) := by
  have hknown {name parent : String} (hparent : parentOf known name = some parent) :
      name ∈ known.keys := by
    rw [Dict.mem_keys_iff]
    intro hnone
    rw [parentOf, hnone] at hparent
    cases hparent
  induction steps generalizing name with
  | zero =>
    cases hparent : parentOf known name with
    | none => simp [reachesRoot, hparent] at h
    | some parent => exact ⟨[], rfl, by simpa using hknown hparent, List.pairwise_singleton _ _⟩
  | succ steps ih =>
    rw [reachesRoot] at h
    cases hparent : parentOf known name with
    | none => simp [hparent] at h
    | some parent =>
      rw [hparent] at h
      obtain ⟨rest, hlength, hkeys, hchain⟩ := ih h
      refine ⟨parent :: rest, by rw [List.length_cons, hlength],
        List.cons_subset.mpr ⟨hknown hparent, hkeys⟩, List.pairwise_cons.mpr ⟨fun x hx => ?_, hchain⟩⟩
      rcases List.mem_cons.mp hx with rfl | hx
      · exact .single hparent
      · exact .head hparent ((List.pairwise_cons.mp hchain).1 x hx)

/-- As many steps as there are classes are enough to find the end of a chain without a circle. -/
theorem reachesRoot_of_acyclic
    (h : ∀ name, ¬ TransGen (fun child parent => parentOf known child = some parent) name name) :
    reachesRoot known known.size name = true := by
  by_contra hends
  obtain ⟨rest, hlength, hkeys, hchain⟩ := exists_chain_of_not_reachesRoot hends
  have hnodup : (name :: rest).Nodup := by
    refine hchain.imp ?_
    rintro a b hab rfl
    exact h a hab
  have hle := (hnodup.subperm hkeys).length_le
  rw [List.length_cons, hlength, Dict.keys, List.length_map] at hle
  exact Nat.not_succ_le_self _ hle

/-- Every chain of parents ends just if the edges run in no circle. -/
theorem Lists.reachesRoot_iff_acyclic (h : Lists known ds) :
    (∀ name ∈ known.keys, reachesRoot known known.size name = true) ↔
      ∀ name, ¬ TransGen (fun child parent => (child, parent) ∈ edgesOf known) name name := by
  have hedges : (fun child parent => (child, parent) ∈ edgesOf known) =
      fun child parent => parentOf known child = some parent := by
    funext child parent
    rw [h.mem_edgesOf_iff, ← h.parentOf_eq_some_iff]
  rw [hedges]
  constructor
  · intro hends name hcircle
    -- A class on a circle has a parent, so it is known.
    obtain ⟨parent, hparent, -⟩ := Relation.TransGen.head'_iff.mp hcircle
    refine not_transGen_of_reachesRoot (hends name ((Dict.mem_keys_iff _ _).mpr fun hnone => ?_)) hcircle
    rw [parentOf, hnone] at hparent
    cases hparent
  · intro hacyclic name _
    exact reachesRoot_of_acyclic hacyclic

theorem Lists.checkCircles_ok_iff (h : Lists known ds) : checkCircles known (edgesOf known) = .ok () ↔
    ∀ name, ¬ TransGen (fun child parent => (child, parent) ∈ edgesOf known) name name := by
  rw [← h.reachesRoot_iff_acyclic, ← List.all_eq_true, checkCircles]
  split
  · next hall => simp [hall]
  · next hall => simp [hall]

theorem Lists.checkCircles_ok_iff_extends (h : Lists known ds) :
    checkCircles known (edgesOf known) = .ok () ↔ ∀ name, ¬ TransGen (Extends ds) name name := by
  have hextends : (fun child parent => (child, parent) ∈ edgesOf known) = Extends ds := by
    funext child parent
    exact propext (h.mem_edgesOf_iff child parent)
  rw [h.checkCircles_ok_iff, hextends]

/-! ### The index -/

theorem ofDescriptors_ok {ix : Index} (h : ofDescriptors ds = .ok ix) : ∃ known,
    byName ds .empty = .ok known ∧ ix = ⟨known, implicitMarkersOf known, edgesOf known⟩ := by
  rw [ofDescriptors] at h
  split at h
  · cases h
  · next known hknown =>
    split at h
    · cases h
    · split at h
      · cases h
      · exact ⟨known, hknown, (Except.ok.inj h).symm⟩

theorem ofDescriptors_ok_iff : (∃ ix, ofDescriptors ds = .ok ix) ↔ ∃ known,
    byName ds .empty = .ok known ∧ (∀ d ∈ known.values, checkLinks known d = .ok ()) ∧
      checkCircles known (edgesOf known) = .ok () := by
  rw [ofDescriptors]
  cases byName ds .empty with
  | error e => simp
  | ok known =>
    simp only [← checkEach_eq_ok_iff]
    cases hlinks : checkEach (checkLinks known) known.values with
    | error e => simp [hlinks]
    | ok _ =>
      cases hcircles : checkCircles known (edgesOf known) with
      | error e => simp [hcircles]
      | ok _ => simp [hlinks, hcircles]

theorem world_iff_ofDescriptors : World ds ↔ ∃ ix, ofDescriptors ds = .ok ix := by
  rw [ofDescriptors_ok_iff]
  constructor
  · intro h
    obtain ⟨known, hknown⟩ : ∃ known, byName ds .empty = .ok known :=
      exists_byName (fun d _ => rfl) h.distinct
    have hlists := lists_byName hknown
    refine ⟨known, hknown, fun d hd => ?_, hlists.checkCircles_ok_iff_extends.mpr h.acyclic⟩
    rw [hlists.mem_values_iff] at hd
    refine checkLinks_ok_iff.mpr ⟨fun parent hparent => ?_, fun marker hmarker hclass => ?_⟩
    · exact (hlists.kind_eq_some_iff _).mpr (h.parents d hd parent hparent)
    · obtain ⟨e, he, hname, hkind⟩ := (hlists.kind_eq_some_iff _).mp hclass
      exact h.markers d hd marker hmarker e he hname hkind
  · rintro ⟨known, hknown, hlinks, hcircles⟩
    have hlists := lists_byName hknown
    have hlinked (d : Descriptor) (hd : d ∈ ds) :=
      checkLinks_ok_iff.mp (hlinks d (hlists.mem_values_iff.mpr hd))
    refine ⟨(byName_ok hknown).2.1, fun d hd parent hparent => ?_, fun d hd marker hmarker e he hname => ?_,
      hlists.checkCircles_ok_iff_extends.mp hcircles⟩
    · exact (hlists.kind_eq_some_iff _).mp ((hlinked d hd).1 parent hparent)
    · intro hkind
      exact (hlinked d hd).2 marker hmarker ((hlists.kind_eq_some_iff _).mpr ⟨e, he, hname, hkind⟩)

/-- Just the worlds are accepted, in whatever order their descriptors come. -/
theorem exists_ofDescriptors_iff (ds : List Descriptor) :
    ((∃ ix, ofDescriptors ds = .ok ix) ↔ World ds) ∧ ∀ es, ds.Perm es →
      ((∃ ix, ofDescriptors es = .ok ix) ↔ ∃ ix, ofDescriptors ds = .ok ix) := by
  refine ⟨world_iff_ofDescriptors.symm, fun es hperm => ?_⟩
  rw [← world_iff_ofDescriptors, ← world_iff_ofDescriptors]
  exact ⟨fun h => h.perm hperm.symm, fun h => h.perm hperm⟩

section Example

/-- A class, or a marker, that declares only what it extends and carries. -/
def plainDescriptor (name : String) (kind : ClassKind) (parent : Option String)
    (markers : List String) : Descriptor :=
  ⟨name, kind, parent, markers, false, none, .empty, name ++ ".toml"⟩

/-- A chain of classes in the one order and the other, with a marker that extends a marker. -/
theorem exists_ofDescriptors_chain : ∃ ds es, ds.Perm es ∧ World ds ∧
    (∃ ix, ofDescriptors es = .ok ix) ∧ (ds.map Descriptor.name) = ["Page", "Record", "Draft", "State"] := by
  let page := plainDescriptor "Page" .ordinary (some "Record") ["Draft", "Hidden"]
  let record := plainDescriptor "Record" .ordinary none []
  let draft := plainDescriptor "Draft" .marker (some "State") []
  let state := plainDescriptor "State" .marker none []
  have hperm : [page, record, draft, state].Perm [state, draft, record, page] :=
    (List.reverse_perm _).symm
  obtain ⟨hworld, horder⟩ := exists_ofDescriptors_iff [page, record, draft, state]
  have hok : (ofDescriptors [page, record, draft, state]).isOk = true := by decide +kernel
  have hexists : ∃ ix, ofDescriptors [page, record, draft, state] = .ok ix := by
    cases hix : ofDescriptors [page, record, draft, state] with
    | error e =>
      rw [hix] at hok
      cases hok
    | ok ix => exact ⟨ix, rfl⟩
  exact ⟨_, _, hperm, hworld.mp hexists, (horder _ hperm).mpr hexists, rfl⟩

end Example

end Index

end ClassSchema
