import ClassSchema.Artifact.Scope
import ClassSchema.Proofs.Value.Text

/-!
# Literals of defaults

How a default is written depends on the value through its text only, and on the schema.
-/

namespace ClassSchema

namespace Artifact

private theorem literalItems_cons (s : Schema) (base : String) (v : Value) {vs : List Value}
    (h : vs ≠ []) : literalItems s base (v :: vs) =
      literal s base v ++ ',' :: ' ' :: literalItems s base vs := by
  cases vs with
  | nil => exact absurd rfl h
  | cons w ws => rfl

private theorem literalEntries_cons (s : Schema) (base k : String) (v : Value)
    {es : List (String × Value)} (h : es ≠ []) : literalEntries s base ((k, v) :: es) =
      k.toList ++ ':' :: ' ' :: literal s (fieldTypeIn s base k) v ++
        ',' :: ' ' :: literalEntries s base es := by
  cases es with
  | nil => exact absurd rfl h
  | cons e es => rfl

mutual

theorem literal_congr (s : Schema) (type : String) (v w : Value) (h : v.chars = w.chars) :
    literal s type v = literal s type w := by
  have hsort := Value.sortName_eq h
  cases v with
  | null =>
    cases w with
    | null => rfl
    | _ => exact absurd hsort (by simp [Value.sortName])
  | bool a =>
    cases w with
    | bool b => cases a <;> cases b <;> first | rfl | exact absurd h (by decide)
    | _ => exact absurd hsort (by simp [Value.sortName])
  | number m =>
    cases w with
    | number n => exact h
    | _ => exact absurd hsort (by simp [Value.sortName])
  | string a =>
    cases w with
    | string b =>
      have hab : a = b := String.toList_inj.mp (Value.quoted_inj h)
      rw [hab]
    | _ => exact absurd hsort (by simp [Value.sortName])
  | list vs =>
    cases w with
    | list ws =>
      have hitems := literalItems_congr s (baseType type) vs ws (Value.map_chars_of_list h)
      rw [literal, literal, hitems]
    | _ => exact absurd hsort (by simp [Value.sortName])
  | table d =>
    obtain ⟨es⟩ := d
    cases w with
    | table e =>
      obtain ⟨fs⟩ := e
      have hentries := literalEntries_congr s (baseType type) es fs (Value.map_chars_of_table h)
      rw [literal, literal, hentries]
    | _ => exact absurd hsort (by simp [Value.sortName])

theorem literalItems_congr (s : Schema) (base : String) (vs ws : List Value)
    (h : vs.map Value.chars = ws.map Value.chars) :
    literalItems s base vs = literalItems s base ws := by
  cases vs with
  | nil =>
    cases ws with
    | nil => rfl
    | cons w ws => cases h
  | cons v vs =>
    cases ws with
    | nil => cases h
    | cons w ws =>
      obtain ⟨hvw, hrest⟩ := List.cons.inj h
      have hhead := literal_congr s base v w hvw
      have htail := literalItems_congr s base vs ws hrest
      cases vs with
      | nil =>
        cases ws with
        | nil => exact hhead
        | cons w' ws => cases hrest
      | cons v' vs =>
        cases ws with
        | nil => cases hrest
        | cons w' ws =>
          rw [literalItems_cons s base v (by simp), literalItems_cons s base w (by simp), hhead, htail]

theorem literalEntries_congr (s : Schema) (base : String) (es fs : List (String × Value))
    (h : es.map (fun e => (e.1, e.2.chars)) = fs.map (fun e => (e.1, e.2.chars))) :
    literalEntries s base es = literalEntries s base fs := by
  cases es with
  | nil =>
    cases fs with
    | nil => rfl
    | cons f fs => cases h
  | cons e es =>
    obtain ⟨k, v⟩ := e
    cases fs with
    | nil => cases h
    | cons f fs =>
      obtain ⟨l, w⟩ := f
      obtain ⟨hpair, hrest⟩ := List.cons.inj h
      obtain ⟨rfl, hvw⟩ : k = l ∧ v.chars = w.chars := by simpa using hpair
      have hhead := literal_congr s (fieldTypeIn s base k) v w hvw
      have htail := literalEntries_congr s base es fs hrest
      cases es with
      | nil =>
        cases fs with
        | nil => rw [literalEntries, literalEntries, hhead]
        | cons f fs => cases hrest
      | cons e es =>
        cases fs with
        | nil => cases hrest
        | cons f fs =>
          rw [literalEntries_cons s base k v (by simp), literalEntries_cons s base k w (by simp),
            hhead, htail]

end

end Artifact

end ClassSchema
