import ClassSchema.Proofs.Value.Text
import ClassSchema.Value.Reader

/-!
# Layouts

A layout says where the text of a value has blanks. The compact and the pretty text are two layouts of
one text.
-/

namespace ClassSchema

open Datum (isSpace)

/-- Where a text has blanks: before items and closing brackets, by depth, and after colons. -/
structure Layout where
  gap : Nat → List Char
  colon : List Char
  gap_space : ∀ depth, ∀ c ∈ gap depth, isSpace c = true
  colon_space : ∀ c ∈ colon, isSpace c = true

namespace Layout

def compact : Layout := ⟨fun _ => [], [], by simp, by simp⟩

def pretty : Layout where
  gap := Value.newline
  colon := [' ']
  gap_space := by
    intro depth c hc
    rcases List.mem_cons.mp hc with rfl | hc
    · rfl
    · rw [List.eq_of_mem_replicate hc]
      rfl
  colon_space := by
    intro c hc
    rw [List.mem_singleton.mp hc]
    rfl

variable (l : Layout)

mutual

/-- The text of a value that stands `depth` levels deep. -/
def chars (depth : Nat) : Value → List Char
  | .list (v :: vs) =>
    '[' :: (l.gap (depth + 1) ++ chars (depth + 1) v) ++ moreItems (depth + 1) vs ++
      l.gap depth ++ [']']
  | .table ⟨(key, v) :: es⟩ =>
    '{' :: (l.gap (depth + 1) ++ (Value.quoted key.toList ++ ':' :: l.colon) ++
      chars (depth + 1) v) ++ moreEntries (depth + 1) es ++ l.gap depth ++ ['}']
  | v => v.chars

/-- Items after the first. -/
def moreItems (depth : Nat) : List Value → List Char
  | [] => []
  | v :: vs => ',' :: (l.gap depth ++ chars depth v) ++ moreItems depth vs

/-- Entries after the first. -/
def moreEntries (depth : Nat) : List (String × Value) → List Char
  | [] => []
  | (key, v) :: es =>
    ',' :: (l.gap depth ++ (Value.quoted key.toList ++ ':' :: l.colon) ++ chars depth v) ++
      moreEntries depth es

end

mutual

theorem chars_compact (depth : Nat) (v : Value) : compact.chars depth v = v.chars := by
  cases v with
  | list items =>
    cases items with
    | nil => rfl
    | cons v vs =>
      rw [chars, Value.chars, chars_compact, ← moreItems_compact (depth + 1) v vs]
      simp [compact]
  | table fields =>
    obtain ⟨entries⟩ := fields
    cases entries with
    | nil => rfl
    | cons e es =>
      obtain ⟨key, v⟩ := e
      rw [chars, Value.chars, chars_compact, ← moreEntries_compact (depth + 1) key v es]
      simp [compact]
  | _ => rfl

theorem moreItems_compact (depth : Nat) (v : Value) (vs : List Value) :
    v.chars ++ compact.moreItems depth vs = Value.itemChars (v :: vs) := by
  cases vs with
  | nil => simp [moreItems, Value.itemChars]
  | cons w ws =>
    rw [moreItems, chars_compact, Value.itemChars_cons _ (by simp), ← moreItems_compact depth w ws]
    simp [compact]

theorem moreEntries_compact (depth : Nat) (key : String) (v : Value) (es : List (String × Value)) :
    Value.quoted key.toList ++ ':' :: (v.chars ++ compact.moreEntries depth es) =
      Value.entryChars ((key, v) :: es) := by
  cases es with
  | nil => simp [moreEntries, Value.entryChars]
  | cons e es =>
    obtain ⟨key', w⟩ := e
    rw [moreEntries, chars_compact, Value.entryChars_cons _ _ (by simp),
      ← moreEntries_compact depth key' w es]
    simp [compact]

end

mutual

theorem chars_pretty (depth : Nat) (v : Value) : pretty.chars depth v = v.prettyChars depth := by
  cases v with
  | list items =>
    cases items with
    | nil => rfl
    | cons v vs =>
      rw [chars, Value.prettyChars, chars_pretty, ← moreItems_pretty (depth + 1) v vs]
      · simp [pretty]
      · simp
  | table fields =>
    obtain ⟨entries⟩ := fields
    cases entries with
    | nil => rfl
    | cons e es =>
      obtain ⟨key, v⟩ := e
      rw [chars, Value.prettyChars, chars_pretty, ← moreEntries_pretty (depth + 1) key v es]
      · simp [pretty]
      · simp
  | bool b => cases b <;> rfl
  | _ => rfl

theorem moreItems_pretty (depth : Nat) (v : Value) (vs : List Value) :
    Value.newline depth ++ v.prettyChars depth ++ pretty.moreItems depth vs =
      Value.prettyItems depth (v :: vs) := by
  cases vs with
  | nil => simp [moreItems, Value.prettyItems]
  | cons w ws =>
    rw [moreItems, chars_pretty, Value.prettyItems, ← moreItems_pretty depth w ws]
    · simp [pretty]
    · simp

theorem moreEntries_pretty (depth : Nat) (key : String) (v : Value) (es : List (String × Value)) :
    Value.newline depth ++ Value.quoted key.toList ++ ':' :: ' ' :: v.prettyChars depth ++
      pretty.moreEntries depth es = Value.prettyEntries depth ((key, v) :: es) := by
  cases es with
  | nil => simp [moreEntries, Value.prettyEntries]
  | cons e es =>
    obtain ⟨key', w⟩ := e
    rw [moreEntries, chars_pretty, Value.prettyEntries, ← moreEntries_pretty depth key' w es]
    · simp [pretty]
    · simp

end

end Layout

end ClassSchema
