import ClassSchema.Proofs.Value.Text

/-!
# Reading numbers

A number reads the same whatever follows it, as long as what follows cannot go on with the number.
-/

namespace ClassSchema

/-- A number that is read back from its text. -/
def Number.ReadsBack (n : Number) : Prop :=
  ((Numeral.read n.chars).bind fun p => if p.2.isEmpty then p.1.number? else none) = some n

instance (n : Number) : Decidable n.ReadsBack := by
  unfold Number.ReadsBack
  infer_instance

namespace Numeral

/-- What cannot go on with a number. -/
def Ends (rest : List Char) : Prop :=
  ∀ c ∈ rest.head?, isDigit c = false ∧ c ≠ '.' ∧ c ≠ 'e' ∧ c ≠ 'E'

theorem ends_nil : Ends [] := by
  intro c hc
  cases hc

theorem ends_cons {c : Char} {rest : List Char}
    (h : isDigit c = false ∧ c ≠ '.' ∧ c ≠ 'e' ∧ c ≠ 'E') : Ends (c :: rest) := by
  intro d hd
  obtain rfl : c = d := by simpa using hd
  exact h

variable {rest : List Char}

private theorem takeWhile_isDigit_append (hrest : Ends rest) (r : List Char) :
    (r ++ rest).takeWhile isDigit = r.takeWhile isDigit ∧
      (r ++ rest).dropWhile isDigit = r.dropWhile isDigit ++ rest := by
  induction r with
  | nil =>
    cases rest with
    | nil => simp
    | cons c rest =>
      have hc : isDigit c = false := (hrest c rfl).1
      simp [hc]
  | cons c r ih =>
    by_cases hc : isDigit c = true
    · simp [hc, ih]
    · simp [hc]

theorem readDigits_append (hrest : Ends rest) (r : List Char) :
    readDigits (r ++ rest) = (readDigits r).map fun p => (p.1, p.2 ++ rest) := by
  obtain ⟨htake, hdrop⟩ := takeWhile_isDigit_append hrest r
  rw [readDigits, readDigits, htake, hdrop]
  cases r.takeWhile isDigit <;> rfl

theorem readWhole_append (hrest : Ends rest) (r : List Char) :
    readWhole (r ++ rest) = (readWhole r).map fun p => (p.1, p.2 ++ rest) := by
  rw [readWhole, readWhole, readDigits_append hrest]
  cases readDigits r with
  | none => rfl
  | some p =>
    obtain ⟨ds, t⟩ := p
    dsimp only [Option.map_some]
    split <;> split <;> simp_all

theorem readFraction_append (hrest : Ends rest) (r : List Char) :
    readFraction (r ++ rest) = (readFraction r).map fun p => (p.1, p.2 ++ rest) := by
  cases r with
  | nil =>
    cases rest with
    | nil => rfl
    | cons c rest =>
      have hc : c ≠ '.' := (hrest c rfl).2.1
      simp [readFraction, hc]
  | cons c r =>
    by_cases hc : c = '.'
    · subst hc
      simp only [List.cons_append, readFraction, readDigits_append hrest, Option.map_map]
      rfl
    · simp [readFraction, hc]

theorem readPower_append (hrest : Ends rest) {r t : List Char} {p : Bool × List Char}
    (h : readPower r = some (p, t)) : readPower (r ++ rest) = some (p, t ++ rest) := by
  have hdigits (r : List Char) (b : Bool) (h : (readDigits r).map (fun q => ((b, q.1), q.2)) = some (p, t)) :
      (readDigits (r ++ rest)).map (fun q => ((b, q.1), q.2)) = some (p, t ++ rest) := by
    rw [readDigits_append hrest]
    cases hr : readDigits r with
    | none => simp [hr] at h
    | some q =>
      rw [hr] at h
      obtain ⟨rfl, rfl⟩ : (b, q.1) = p ∧ q.2 = t := by simpa using h
      rfl
  cases r with
  | nil => simp [readPower, readDigits] at h
  | cons c r =>
    by_cases hplus : c = '+'
    · subst hplus
      exact hdigits r false h
    · by_cases hminus : c = '-'
      · subst hminus
        exact hdigits r true h
      · have heq (s : List Char) : readPower (c :: s) =
            (readDigits (c :: s)).map fun q => ((false, q.1), q.2) := by
          rw [readPower]
          · simpa using hplus
          · simpa using hminus
        rw [heq] at h
        rw [List.cons_append, heq]
        exact hdigits (c :: r) false h

theorem readExponent_append (hrest : Ends rest) {r t : List Char}
    {p : Option (Bool × List Char)} (h : readExponent r = some (p, t)) :
    readExponent (r ++ rest) = some (p, t ++ rest) := by
  have hplain {s : List Char} (hs : ∀ c ∈ s.head?, c ≠ 'e' ∧ c ≠ 'E') :
      readExponent s = some (none, s) := by
    cases s with
    | nil => rfl
    | cons c s =>
      have hc := hs c rfl
      simp [readExponent, hc]
  have hmarked {s : List Char} (h : (readPower s).map (fun q => (some q.1, q.2)) = some (p, t)) :
      (readPower (s ++ rest)).map (fun q => (some q.1, q.2)) = some (p, t ++ rest) := by
    cases hs : readPower s with
    | none => simp [hs] at h
    | some q =>
      obtain ⟨q, u⟩ := q
      rw [hs] at h
      obtain ⟨rfl, rfl⟩ : some q = p ∧ u = t := by simpa using h
      rw [readPower_append hrest hs]
      rfl
  cases r with
  | nil =>
    obtain ⟨rfl, rfl⟩ : none = p ∧ [] = t := by simpa [readExponent] using h
    exact hplain fun c hc => (hrest c hc).2.2
  | cons c r =>
    by_cases hc : c = 'e' ∨ c = 'E'
    · rcases hc with rfl | rfl <;> exact hmarked h
    · have hne : c ≠ 'e' ∧ c ≠ 'E' := not_or.mp hc
      rw [hplain (by simpa using hne)] at h
      obtain ⟨rfl, rfl⟩ : none = p ∧ c :: r = t := by simpa using h
      exact hplain (by simpa using hne)

private theorem readUnsigned_append (hrest : Ends rest) {negative : Bool} {r t : List Char}
    {m : Numeral} (h : readUnsigned negative r = some (m, t)) :
    readUnsigned negative (r ++ rest) = some (m, t ++ rest) := by
  simp only [readUnsigned, Option.bind_eq_bind, Option.bind_eq_some_iff, Option.pure_def] at h
  obtain ⟨⟨whole, r₁⟩, hwhole, ⟨fraction, r₂⟩, hfraction, ⟨exponent, r₃⟩, hexponent, hm⟩ := h
  obtain ⟨rfl, rfl⟩ : ⟨negative, whole, fraction, exponent⟩ = m ∧ r₃ = t := by simpa using hm
  simp only [readUnsigned, readWhole_append hrest, hwhole, Option.map_some, Option.bind_eq_bind,
    Option.bind_some, readFraction_append hrest, hfraction, readExponent_append hrest hexponent,
    Option.pure_def]

theorem read_append (hrest : Ends rest) {r t : List Char} {m : Numeral}
    (h : read r = some (m, t)) : read (r ++ rest) = some (m, t ++ rest) := by
  cases r with
  | nil => simp [read, readUnsigned, readWhole, readDigits] at h
  | cons c r =>
    by_cases hc : c = '-'
    · subst hc
      exact readUnsigned_append hrest h
    · have heq (s : List Char) : read (c :: s) = readUnsigned false (c :: s) := by
        rw [read]
        simpa using hc
      rw [heq] at h
      rw [List.cons_append, heq]
      exact readUnsigned_append hrest h

theorem read_chars {n : Number} (hn : n.ReadsBack) (hrest : Ends rest) :
    ∃ m, read (n.chars ++ rest) = some (m, rest) ∧ m.number? = some n := by
  obtain ⟨⟨m, t⟩, hread, hnumber⟩ := Option.bind_eq_some_iff.mp hn
  split at hnumber
  · next hempty =>
    obtain rfl : t = [] := List.isEmpty_iff.mp hempty
    exact ⟨m, read_append hrest hread, hnumber⟩
  · cases hnumber

end Numeral

end ClassSchema
