import ClassSchema.Proofs.Dict
import ClassSchema.Proofs.Schema.Canonical

/-!
# Well-formed schemas

What adding definitions to an empty schema gives: each stands under its own name, which is a name of
GraphQL.
-/

namespace ClassSchema.Schema

structure Named (s : Schema) : Prop where
  sorted : s.definitions.Sorted
  named : ∀ key d, s.get? key = some d → d.name = key ∧ isGraphName key = true

/-- The definitions hold their parts in order, too. -/
structure WellFormed (s : Schema) : Prop extends Named s where
  ordered : ∀ d ∈ s.definitions.values, d.Ordered

theorem named_new (name : String) : (new name).Named where
  sorted := Dict.sorted_empty
  named := by
    intro key d h
    cases h

theorem wellFormed_new (name : String) : (new name).WellFormed where
  toNamed := named_new name
  ordered := by
    intro d h
    cases h

variable {s s' : Schema} {d : Definition}

theorem get?_put (name key : String) :
    (s.put name d).get? key = if key = name then some d else s.get? key :=
  Dict.get?_insert _ _ _ _

theorem Named.mem_values_iff (h : s.Named) :
    d ∈ s.definitions.values ↔ s.get? d.name = some d := by
  rw [h.sorted.mem_values_iff]
  constructor
  · rintro ⟨key, hkey⟩
    rw [(h.named key d hkey).1]
    exact hkey
  · intro hget
    exact ⟨d.name, hget⟩

theorem Named.put (h : s.Named) (hname : isGraphName d.name = true) : (s.put d.name d).Named where
  sorted := h.sorted.insert d.name d
  named := by
    intro key e he
    rw [get?_put] at he
    split at he
    · next hkey =>
      obtain rfl := Option.some.inj he
      rw [hkey]
      exact ⟨rfl, hname⟩
    · exact h.named key e he

theorem WellFormed.put (h : s.WellFormed) (hname : isGraphName d.name = true) (hd : d.Ordered) :
    (s.put d.name d).WellFormed where
  toNamed := h.toNamed.put hname
  ordered := by
    intro e he
    obtain ⟨key, hkey⟩ := ((h.sorted.insert d.name d).mem_values_iff e).mp he
    rw [Dict.get?_insert] at hkey
    split at hkey
    · rw [← Option.some.inj hkey]
      exact hd
    · exact h.ordered e ((h.sorted.mem_values_iff e).mpr ⟨key, hkey⟩)

theorem add_ok (h : s.add d = .ok s') : isGraphName d.name = true ∧ d.name ∉ builtinScalars ∧
    s.get? d.name = none ∧ s' = s.put d.name d := by
  rw [add] at h
  split at h
  · cases h
  · next hcheck =>
    split at h
    · cases h
    · next hnew =>
      rw [checkName] at hcheck
      split at hcheck
      · next hname =>
        simp only [Dict.contains, Bool.or_eq_true, List.contains_iff_mem, not_or,
          Bool.not_eq_true, Option.isSome_eq_false_iff, Option.isNone_iff_eq_none] at hnew
        exact ⟨hname, hnew.2, hnew.1, (Except.ok.inj h).symm⟩
      · cases hcheck

theorem WellFormed.add (h : s.WellFormed) (hd : d.Ordered) (hadd : s.add d = .ok s') :
    s'.WellFormed := by
  obtain ⟨hname, -, -, rfl⟩ := add_ok hadd
  exact h.put hname hd

theorem Named.names_nodup (h : s.Named) :
    (s.definitions.values.map Definition.name).Nodup := by
  have hkeys : s.definitions.values.map Definition.name = s.definitions.keys := by
    rw [Dict.values, Dict.keys, List.map_map]
    refine List.map_congr_left fun e he => ?_
    have hget : s.get? e.1 = some e.2 := (h.sorted.get?_eq_some_iff e.1 e.2).mpr he
    exact (h.named e.1 e.2 hget).1
  rw [hkeys]
  exact h.sorted.keys_nodup

end ClassSchema.Schema
