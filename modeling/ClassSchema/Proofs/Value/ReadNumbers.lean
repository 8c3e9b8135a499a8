import ClassSchema.Proofs.Decimal.Canonical
import ClassSchema.Proofs.Value.ReadBack

/-!
# What is read is canonical

A float in a value that is read from a text is in its canonical form, however it was written.
-/

namespace ClassSchema

namespace Datum

open Value (itemNumbers entryNumbers)

/-- The numbers in the value of a datum are canonical. -/
def Canonical (d : Datum) : Prop := ∀ n ∈ (d.toValue .null).numbers, n.Canonical

theorem canonical_ofNumeral (m : Numeral) : (ofNumeral m).Canonical := by
  intro n hn
  rw [ofNumeral] at hn
  split at hn
  · next heq =>
    obtain rfl := List.mem_singleton.mp hn
    exact Numeral.canonical_of_number? heq
  · cases hn

theorem canonical_ofPieces (ps : List Piece) : (ofPieces ps).Canonical := by
  intro n hn
  rw [ofPieces] at hn
  split at hn <;> cases hn

theorem canonical_list_cons {d : Datum} {ds : List Datum} (hd : d.Canonical)
    (hds : (list ds).Canonical) : (list (d :: ds)).Canonical := by
  intro n hn
  rcases List.mem_append.mp hn with hn | hn
  · exact hd n hn
  · exact hds n hn

theorem canonical_withEntry {key : List Piece} {d : Datum} {es : Option (List (String × Datum))}
    (hd : d.Canonical) (hes : (ofEntries es).Canonical) : (ofEntries (withEntry key d es)).Canonical := by
  intro n hn
  cases hkey : pieceText? key with
  | none =>
    rw [withEntry, hkey] at hn
    cases hn
  | some k =>
    cases es with
    | none =>
      rw [withEntry, hkey] at hn
      cases hn
    | some es =>
      rw [withEntry, hkey] at hn
      rcases List.mem_append.mp hn with hn | hn
      · exact hd n hn
      · exact hes n hn

theorem canonical_list_nil : (list []).Canonical := by
  simp [Canonical, toValue, Value.numbers, itemValues, itemNumbers]

theorem canonical_ofEntries_nil : (ofEntries (some [])).Canonical := by
  simp [Canonical, ofEntries, toValue, Value.numbers, entryValues, entryNumbers]

mutual

theorem canonical_read (fuel : Nat) {r : List Char} {p : Datum × List Char}
    (h : read fuel r = some p) : p.1.Canonical := by
  cases fuel with
  | zero => cases h
  | succ fuel =>
    unfold read at h
    split at h
    · obtain rfl := Option.some.inj h
      simp [Canonical, toValue, Value.numbers]
    · obtain rfl := Option.some.inj h
      simp [Canonical, toValue, Value.numbers]
    · obtain rfl := Option.some.inj h
      simp [Canonical, toValue, Value.numbers]
    · obtain ⟨q, -, h⟩ := Option.bind_eq_some_iff.mp h
      obtain rfl := Option.some.inj h
      exact canonical_ofPieces q.1
    · split at h
      · obtain rfl := Option.some.inj h
        exact canonical_list_nil
      · obtain ⟨q, hq, h⟩ := Option.bind_eq_some_iff.mp h
        obtain rfl := Option.some.inj h
        exact canonical_readItems fuel hq
    · split at h
      · obtain rfl := Option.some.inj h
        exact canonical_ofEntries_nil
      · obtain ⟨q, hq, h⟩ := Option.bind_eq_some_iff.mp h
        obtain rfl := Option.some.inj h
        exact canonical_readEntries fuel hq
    · obtain ⟨q, -, h⟩ := Option.bind_eq_some_iff.mp h
      obtain rfl := Option.some.inj h
      exact canonical_ofNumeral q.1

theorem canonical_readItems (fuel : Nat) {r : List Char} {p : List Datum × List Char}
    (h : readItems fuel r = some p) : (list p.1).Canonical := by
  cases fuel with
  | zero => cases h
  | succ fuel =>
    unfold readItems at h
    obtain ⟨q, hq, h⟩ := Option.bind_eq_some_iff.mp h
    dsimp only at h
    split at h
    · obtain ⟨more, hmore, h⟩ := Option.bind_eq_some_iff.mp h
      obtain rfl := Option.some.inj h
      exact canonical_list_cons (canonical_read fuel hq) (canonical_readItems fuel hmore)
    · obtain rfl := Option.some.inj h
      exact canonical_list_cons (canonical_read fuel hq) canonical_list_nil
    · cases h

theorem canonical_readEntries (fuel : Nat) {r : List Char}
    {p : Option (List (String × Datum)) × List Char} (h : readEntries fuel r = some p) :
    (ofEntries p.1).Canonical := by
  cases fuel with
  | zero => cases h
  | succ fuel =>
    unfold readEntries at h
    split at h
    · obtain ⟨q, -, h⟩ := Option.bind_eq_some_iff.mp h
      dsimp only at h
      split at h
      · obtain ⟨d, hd, h⟩ := Option.bind_eq_some_iff.mp h
        split at h
        · obtain ⟨more, hmore, h⟩ := Option.bind_eq_some_iff.mp h
          obtain rfl := Option.some.inj h
          exact canonical_withEntry (canonical_read fuel hd) (canonical_readEntries fuel hmore)
        · obtain rfl := Option.some.inj h
          exact canonical_withEntry (canonical_read fuel hd) canonical_ofEntries_nil
        · cases h
      · cases h
    · cases h

end

end Datum

/-- The numbers of a value that is read from a text are canonical. -/
theorem Value.canonical_of_ofText? {text : String} {v : Value} (h : Value.ofText? text = some v) :
    ∀ n ∈ v.numbers, n.Canonical := by
  obtain ⟨d, hd, hv⟩ := Option.bind_eq_some_iff.mp h
  obtain ⟨p, hp, hend⟩ := Option.bind_eq_some_iff.mp hd
  have hcanonical := Datum.canonical_read _ hp
  dsimp only at hend
  split at hend
  · obtain rfl := Option.some.inj hend
    rw [Datum.value?] at hv
    split at hv
    · exact Option.some.inj hv ▸ hcanonical
    · cases hv
  · cases hend

end ClassSchema
