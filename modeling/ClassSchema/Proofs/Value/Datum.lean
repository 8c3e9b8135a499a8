import ClassSchema.Value.Reader

/-!
# Values as data

A value is a datum in which all scalars are readable, so it comes back from that datum wherever its
lists and tables do not nest too deep.
-/

namespace ClassSchema

namespace Datum

mutual

/-- The datum that says a value. -/
def ofValue : Value → Datum
  | .null => .null
  | .bool b => .bool b
  | .number n => .number n
  | .string s => .string s
  | .list items => .list (ofItems items)
  | .table ⟨entries⟩ => .table ⟨ofMembers entries⟩

def ofItems : List Value → List Datum
  | [] => []
  | v :: vs => ofValue v :: ofItems vs

def ofMembers : List (String × Value) → List (String × Datum)
  | [] => []
  | (key, v) :: es => (key, ofValue v) :: ofMembers es

end

theorem ofMembers_append (es fs : List (String × Value)) :
    ofMembers (es ++ fs) = ofMembers es ++ ofMembers fs := by
  induction es with
  | nil => rfl
  | cons e es ih => rw [List.cons_append, ofMembers, ih, ofMembers, List.cons_append]

mutual

@[simp] theorem toValue_ofValue (other v : Value) : (ofValue v).toValue other = v := by
  cases v with
  | list items => rw [ofValue, toValue, itemValues_ofItems]
  | table fields =>
    obtain ⟨entries⟩ := fields
    rw [ofValue, toValue, entryValues_ofMembers]
  | _ => rfl

theorem itemValues_ofItems (other : Value) (vs : List Value) :
    itemValues other (ofItems vs) = vs := by
  cases vs with
  | nil => rfl
  | cons v vs => rw [ofItems, itemValues, toValue_ofValue, itemValues_ofItems]

theorem entryValues_ofMembers (other : Value) (es : List (String × Value)) :
    entryValues other (ofMembers es) = es := by
  cases es with
  | nil => rfl
  | cons e es => rw [ofMembers, entryValues, toValue_ofValue, entryValues_ofMembers]

end

end Datum

namespace Value

mutual

/-- How deep lists and tables nest in a value. -/
def nesting : Value → Nat
  | .list items => itemNesting items + 1
  | .table ⟨entries⟩ => entryNesting entries + 1
  | _ => 0

def itemNesting : List Value → Nat
  | [] => 0
  | v :: vs => max v.nesting (itemNesting vs)

def entryNesting : List (String × Value) → Nat
  | [] => 0
  | (_, v) :: es => max v.nesting (entryNesting es)

end

theorem entryNesting_le {es : List (String × Value)} {depth : Nat}
    (h : ∀ e ∈ es, e.2.nesting ≤ depth) : entryNesting es ≤ depth := by
  induction es with
  | nil => exact Nat.zero_le _
  | cons e es ih =>
    have hes := ih fun f hf => h f (List.mem_cons_of_mem _ hf)
    exact Nat.max_le.mpr ⟨h e List.mem_cons_self, hes⟩

end Value

namespace Datum

open Value (nesting itemNesting entryNesting)

mutual

theorem fits_ofValue (depth : Nat) (v : Value) :
    (ofValue v).fits depth = decide (v.nesting ≤ depth) := by
  cases v with
  | list items =>
    rw [ofValue, fits.eq_def]
    cases depth with
    | zero => simp [nesting]
    | succ depth => simp [nesting, itemsFit_ofItems depth items]
  | table fields =>
    obtain ⟨entries⟩ := fields
    rw [ofValue, fits.eq_def]
    cases depth with
    | zero => simp [nesting]
    | succ depth => simp [nesting, entriesFit_ofMembers depth entries]
  | _ => simp [ofValue, fits, nesting]

theorem itemsFit_ofItems (depth : Nat) (vs : List Value) :
    itemsFit depth (ofItems vs) = decide (itemNesting vs ≤ depth) := by
  cases vs with
  | nil => simp [ofItems, itemsFit, itemNesting]
  | cons v vs =>
    rw [ofItems, itemsFit, itemNesting, fits_ofValue depth v, itemsFit_ofItems depth vs, ← Bool.decide_and]
    exact decide_eq_decide.mpr Nat.max_le.symm

theorem entriesFit_ofMembers (depth : Nat) (es : List (String × Value)) :
    entriesFit depth (ofMembers es) = decide (entryNesting es ≤ depth) := by
  cases es with
  | nil => simp [ofMembers, entriesFit, entryNesting]
  | cons e es =>
    rw [ofMembers, entriesFit, entryNesting, fits_ofValue depth e.2, entriesFit_ofMembers depth es,
      ← Bool.decide_and]
    exact decide_eq_decide.mpr Nat.max_le.symm

end

theorem value?_ofValue {v : Value} (h : v.nesting ≤ greatestDepth) : (ofValue v).value? = some v := by
  rw [value?, fits_ofValue, decide_eq_true h, if_pos rfl, toValue_ofValue]

end Datum

end ClassSchema
