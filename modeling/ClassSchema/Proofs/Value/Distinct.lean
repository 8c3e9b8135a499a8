import ClassSchema.Proofs.Value.ReadBack
import ClassSchema.Proofs.Value.Text

/-!
# Texts tell values apart

Where the texts of two values tell their numbers apart, they tell the values apart.
-/

namespace ClassSchema

/-- Of these numbers only equal ones have one text. The two float zeros have two. -/
def Number.ToldApart (ms ns : List Number) : Prop := ∀ m ∈ ms, ∀ n ∈ ns, m.chars = n.chars → m = n

instance (ms ns : List Number) : Decidable (Number.ToldApart ms ns) :=
  inferInstanceAs (Decidable (∀ m ∈ ms, ∀ n ∈ ns, m.chars = n.chars → m = n))

theorem Number.ToldApart.mono {ms ns ms' ns' : List Number} (h : ToldApart ms ns) (hms : ms' ⊆ ms)
    (hns : ns' ⊆ ns) : ToldApart ms' ns' :=
  fun m hm n hn => h m (hms hm) n (hns hn)

theorem Number.ToldApart.of_append {ms ns ms' ns' : List Number}
    (h : ToldApart (ms ++ ms') (ns ++ ns')) : ToldApart ms ns ∧ ToldApart ms' ns' :=
  ⟨h.mono (List.subset_append_left _ _) (List.subset_append_left _ _),
    h.mono (List.subset_append_right _ _) (List.subset_append_right _ _)⟩

namespace Value

mutual

theorem eq_of_chars (v w : Value) (hn : Number.ToldApart v.numbers w.numbers)
    (h : v.chars = w.chars) : v = w := by
  have hsort := sortName_eq h
  cases v with
  | null =>
    cases w with
    | null => rfl
    | _ => exact absurd hsort (by simp [sortName])
  | bool a =>
    cases w with
    | bool b => cases a <;> cases b <;> first | rfl | exact absurd h (by simp [chars])
    | _ => exact absurd hsort (by simp [sortName])
  | number m =>
    cases w with
    | number n => exact congrArg number (hn m (by simp [numbers]) n (by simp [numbers]) h)
    | _ => exact absurd hsort (by simp [sortName])
  | string s =>
    cases w with
    | string t => exact congrArg string (String.toList_inj.mp (quoted_inj h))
    | _ => exact absurd hsort (by simp [sortName])
  | list vs =>
    cases w with
    | list ws => exact congrArg list (eq_of_itemChars vs ws hn (map_chars_of_list h))
    | _ => exact absurd hsort (by simp [sortName])
  | table d =>
    obtain ⟨es⟩ := d
    cases w with
    | table e =>
      obtain ⟨fs⟩ := e
      exact congrArg (fun es => table ⟨es⟩) (eq_of_entryChars es fs hn (map_chars_of_table h))
    | _ => exact absurd hsort (by simp [sortName])

theorem eq_of_itemChars (vs ws : List Value)
    (hn : Number.ToldApart (itemNumbers vs) (itemNumbers ws))
    (h : vs.map chars = ws.map chars) : vs = ws := by
  cases vs with
  | nil =>
    cases ws with
    | nil => rfl
    | cons w ws => cases h
  | cons v vs =>
    cases ws with
    | nil => cases h
    | cons w ws =>
      obtain ⟨hhead, hrest⟩ := List.cons.inj h
      obtain ⟨hv, hvs⟩ := hn.of_append
      rw [eq_of_chars v w hv hhead, eq_of_itemChars vs ws hvs hrest]

theorem eq_of_entryChars (es fs : List (String × Value))
    (hn : Number.ToldApart (entryNumbers es) (entryNumbers fs))
    (h : es.map (fun e => (e.1, e.2.chars)) = fs.map fun f => (f.1, f.2.chars)) : es = fs := by
  match es, fs with
  | [], [] => rfl
  | [], f :: fs => cases h
  | e :: es, [] => cases h
  | (k, v) :: es, (l, w) :: fs =>
    obtain ⟨hhead, hrest⟩ := List.cons.inj h
    obtain ⟨hkey, hchars⟩ := Prod.mk.inj hhead
    obtain ⟨hv, hes⟩ := hn.of_append
    rw [show k = l from hkey, eq_of_chars v w hv hchars, eq_of_entryChars es fs hes hrest]

end

end Value

end ClassSchema
