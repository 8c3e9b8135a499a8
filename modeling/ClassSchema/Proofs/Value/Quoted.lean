import ClassSchema.Value.Reader

/-!
# Reading quoted strings

What is written between quotes reads back as it was, so a quoted string ends where it ends.
-/

namespace ClassSchema

open Datum (readString pieceChars?)

/-- The pieces from which a character is read back. -/
private def Spells (c : Char) (p : Datum.Piece) : Prop :=
  ∀ ps, pieceChars? none (p :: ps) = (pieceChars? none ps).map (c :: ·)

private theorem spells_char (c : Char) : Spells c (.char c) := fun _ => rfl

private theorem spells_unit {c : Char} (h : c.toNat < 0x20) : Spells c (.unit c.toNat) := by
  intro ps
  have hhigh : Datum.isHighUnit c.toNat = false := by
    simp only [Datum.isHighUnit, decide_eq_false_iff_not]
    omega
  have hlow : Datum.isLowUnit c.toNat = false := by
    simp only [Datum.isLowUnit, decide_eq_false_iff_not]
    omega
  have hchar : Datum.unitChar? c.toNat = some c := by
    rw [Datum.unitChar?, hhigh, hlow]
    simp
  simp only [pieceChars?, hhigh, hchar, Bool.false_eq_true, if_false]
  cases pieceChars? none ps <;> rfl

private theorem hexValue?_hexDigit : ∀ n < 16, hexValue? (Value.hexDigit n) = some n := by decide

private theorem hexUnit?_control {n : Nat} (h : n < 0x20) :
    Datum.hexUnit? '0' '0' (Value.hexDigit (n / 16)) (Value.hexDigit (n % 16)) = some n := by
  have hzero : hexValue? '0' = some 0 := by decide
  have hhigh := hexValue?_hexDigit (n / 16) (by omega)
  have hlow := hexValue?_hexDigit (n % 16) (by omega)
  simp only [Datum.hexUnit?, hzero, hhigh, hlow, Option.bind_eq_bind, Option.bind_some,
    Option.pure_def, Option.some.injEq]
  omega

private theorem readString_escape {e c : Char} (he : Datum.unescape? e = some c) (r : List Char) :
    readString ('\\' :: e :: r) = Datum.withPiece (.char c) (readString r) := by
  have hu : e ≠ 'u' := by
    rintro rfl
    simp [Datum.unescape?] at he
  rw [readString, he]
  · rfl
  · intro _ _ _ _ _ h
    exact absurd h hu

private theorem readString_plain {c : Char} (hquote : c ≠ '"') (hslash : c ≠ '\\')
    (hcontrol : ¬ c.toNat < 0x20) (r : List Char) :
    readString (c :: r) = Datum.withPiece (.char c) (readString r) := by
  rw [readString, if_neg (by simp [hslash, hcontrol])]
  · exact hquote
  · intro _ _ _ _ _ h
    exact absurd h hslash
  · intro _ _ h
    exact absurd h hslash

theorem Value.escapedChar_cases (c : Char) :
    (∃ e, Datum.unescape? e = some c ∧ Value.escapedChar c = ['\\', e]) ∨
      (c.toNat < 0x20 ∧ Value.escapedChar c =
        ['\\', 'u', '0', '0', Value.hexDigit (c.toNat / 16), Value.hexDigit (c.toNat % 16)]) ∨
      (c ≠ '"' ∧ c ≠ '\\' ∧ ¬ c.toNat < 0x20 ∧ Value.escapedChar c = [c]) := by
  by_cases hletter : c ∈ ['"', '\\', '\n', '\r', '\t', '\x08', '\x0c']
  · simp only [List.mem_cons, List.not_mem_nil, or_false] at hletter
    left
    rcases hletter with rfl | rfl | rfl | rfl | rfl | rfl | rfl
    · exact ⟨'"', rfl, rfl⟩
    · exact ⟨'\\', rfl, rfl⟩
    · exact ⟨'n', rfl, rfl⟩
    · exact ⟨'r', rfl, rfl⟩
    · exact ⟨'t', rfl, rfl⟩
    · exact ⟨'b', rfl, rfl⟩
    · exact ⟨'f', rfl, rfl⟩
  · simp only [List.mem_cons, List.not_mem_nil, or_false, not_or] at hletter
    obtain ⟨hquote, hslash, hline, hreturn, htab, hback, hfeed⟩ := hletter
    rw [Value.escapedChar, if_neg hquote, if_neg hslash, if_neg hline, if_neg hreturn, if_neg htab,
      if_neg hback, if_neg hfeed]
    by_cases hcontrol : c.toNat < 0x20
    · exact .inr (.inl ⟨hcontrol, if_pos hcontrol⟩)
    · exact .inr (.inr ⟨hquote, hslash, hcontrol, if_neg hcontrol⟩)

theorem readString_escapedChar (c : Char) (r : List Char) :
    ∃ p, Spells c p ∧
      readString (Value.escapedChar c ++ r) = Datum.withPiece p (readString r) := by
  rcases Value.escapedChar_cases c with ⟨e, he, hwritten⟩ | ⟨hcontrol, hwritten⟩ |
    ⟨hquote, hslash, hcontrol, hwritten⟩
  · rw [hwritten]
    exact ⟨_, spells_char c, readString_escape he r⟩
  · refine ⟨_, spells_unit hcontrol, ?_⟩
    simp only [hwritten, List.cons_append, List.nil_append, readString, hexUnit?_control hcontrol]
    rfl
  · rw [hwritten]
    exact ⟨_, spells_char c, readString_plain hquote hslash hcontrol r⟩

/-- An escaped string reads back up to its closing quote. -/
theorem readString_escaped (s r : List Char) :
    ∃ ps, readString (Value.escaped s ++ '"' :: r) = some (ps, r) ∧ pieceChars? none ps = some s := by
  induction s with
  | nil => exact ⟨[], by simp [Value.escaped, readString], rfl⟩
  | cons c s ih =>
    obtain ⟨ps, hread, hchars⟩ := ih
    have hsplit : Value.escaped (c :: s) ++ '"' :: r =
        Value.escapedChar c ++ (Value.escaped s ++ '"' :: r) := by
      simp [Value.escaped]
    obtain ⟨p, hp, hfirst⟩ := readString_escapedChar c (Value.escaped s ++ '"' :: r)
    refine ⟨p :: ps, ?_, ?_⟩
    · rw [hsplit, hfirst, hread]
      rfl
    · rw [hp ps, hchars]
      rfl

namespace Value

theorem quoted_append (s r : List Char) : quoted s ++ r = '"' :: (escaped s ++ '"' :: r) := by
  simp [quoted]

theorem quoted_append_inj {s t r r' : List Char} (h : quoted s ++ r = quoted t ++ r') :
    s = t ∧ r = r' := by
  rw [quoted_append, quoted_append] at h
  obtain ⟨ps, hs, hps⟩ := readString_escaped s r
  obtain ⟨qs, ht, hqs⟩ := readString_escaped t r'
  rw [List.tail_eq_of_cons_eq h, ht] at hs
  obtain ⟨rfl, rfl⟩ : qs = ps ∧ r' = r := by simpa using hs
  rw [hqs] at hps
  exact ⟨(Option.some.inj hps).symm, rfl⟩

theorem quoted_inj {s t : List Char} (h : quoted s = quoted t) : s = t := by
  have hend : quoted s ++ [] = quoted t ++ [] := by rw [h]
  exact (quoted_append_inj hend).1

end Value

end ClassSchema
