import ClassSchema.Artifact.Directive
import ClassSchema.Artifact.Scope
import ClassSchema.Proofs.Value.Quoted

/-!
# Finding directives

A directive is found in a text only where its mark stands. The line of a field with a plan is found as
that field's directive, if name, arguments and type hold nothing that is taken for something else.
-/

namespace ClassSchema

theorem toNat_lt_of_isNameChar {c : Char} (h : isNameChar c = true) : c.toNat < 128 := by
  have hZ : 'Z'.toNat = 90 := rfl
  have hz : 'z'.toNat = 122 := rfl
  have hnine : '9'.toNat = 57 := rfl
  simp only [isNameChar, Bool.or_eq_true, decide_eq_true_eq, Char.isAlphanum] at h
  delta Char.isAlpha Char.isUpper Char.isLower at h
  simp only [Char.isDigit, Bool.or_eq_true, Bool.and_eq_true, decide_eq_true_eq,
    UInt32.le_iff_toNat_le, Char.toNat_val, ge_iff_le, hZ, hz, hnine] at h
  rcases h with rfl | h
  · decide
  · omega

theorem isWordChar_of_isNameChar {c : Char} (h : isNameChar c = true) :
    isWordChar c = true ∧ isBlank c = false := by
  have hall : ∀ n < 128, isNameChar (Char.ofNat n) = true →
      isWordChar (Char.ofNat n) = true ∧ isBlank (Char.ofNat n) = false := by decide +kernel
  have hc := hall c.toNat (toNat_lt_of_isNameChar h)
  rw [Char.ofNat_toNat] at hc
  exact hc h

namespace Artifact

/-- What every directive that carries a plan begins with. -/
def directiveMark : List Char := "@resolver(encoded:".toList

theorem after?_append (p r : List Char) : after? p (p ++ r) = some r := by
  induction p with
  | nil => rfl
  | cons c p ih => simp [after?, ih]

theorem after?_eq_some_iff {p s r : List Char} : after? p s = some r ↔ s = p ++ r := by
  constructor
  · intro h
    induction p generalizing s with
    | nil => simpa [after?] using h
    | cons c p ih =>
      cases s with
      | nil => simp [after?] at h
      | cons d s =>
        by_cases hcd : c = d
        · subst hcd
          rw [after?, if_pos rfl] at h
          rw [ih h, List.cons_append]
        · simp [after?, hcd] at h
  · rintro rfl
    exact after?_append p r

theorem skipArguments_suffix {s r : List Char} (h : skipArguments s = some r) : r <:+ s := by
  unfold skipArguments at h
  split at h
  · next s =>
    split at h
    · cases h
    · next rest hrest =>
      obtain rfl := Option.some.inj h
      have hdrop : s.dropWhile (· ≠ ')') <:+ s := List.dropWhile_suffix _
      rw [hrest] at hdrop
      exact ((List.suffix_cons _ _).trans hdrop).trans (List.suffix_cons _ _)
  · obtain rfl := Option.some.inj h
    exact List.suffix_refl _

/-- What follows the name of a field, read as arguments, type and plan. -/
def readRest (s : List Char) : Option (List Char × List Char) :=
  (skipArguments s).bind fun s =>
    (after? [':'] (skipBlanks s)).bind fun s =>
      (after? directiveMark ((skipBlanks s).dropWhile fun c => c ≠ '@' && c ≠ '\n')).bind fun s =>
        (after? ['"'] (skipBlanks s)).bind fun s =>
          (restOfQuoted s).bind fun q => (after? [')'] q.2).map fun s => ('"' :: q.1, s)

theorem readDirective_eq (s : List Char) : readDirective s =
    if (skipBlanks s).takeWhile isWordChar = [] then none
    else (readRest ((skipBlanks s).dropWhile isWordChar)).map fun p =>
      (⟨(skipBlanks s).takeWhile isWordChar, p.1⟩, p.2) := by
  rw [readDirective]
  cases hfield : (skipBlanks s).takeWhile isWordChar with
  | nil => rfl
  | cons c cs =>
    rw [if_neg (by simp), if_neg (by simp)]
    show ((skipArguments _).bind fun s => (after? [':'] (skipBlanks s)).bind fun s =>
      (after? directiveMark _).bind fun s => _) = _
    rw [readRest, Option.map_bind]
    refine Option.bind_congr fun s₁ _ => ?_
    refine Eq.trans ?_ Option.map_bind.symm
    refine Option.bind_congr fun s₂ _ => ?_
    refine Eq.trans ?_ Option.map_bind.symm
    refine Option.bind_congr fun s₃ _ => ?_
    refine Eq.trans ?_ Option.map_bind.symm
    refine Option.bind_congr fun s₄ _ => ?_
    refine Eq.trans ?_ Option.map_bind.symm
    refine Option.bind_congr fun q _ => ?_
    show ((after? [')'] q.2).bind fun s => _) = Option.map _ ((after? [')'] q.2).map _)
    cases after? [')'] q.2 <;> rfl

theorem mark_infix_of_readDirective {s : List Char} {p : Directive × List Char}
    (h : readDirective s = some p) : directiveMark <:+: s := by
  rw [readDirective_eq] at h
  split at h
  · cases h
  · obtain ⟨q, hq, -⟩ := Option.map_eq_some_iff.mp h
    obtain ⟨s₁, h₁, hq⟩ := Option.bind_eq_some_iff.mp hq
    obtain ⟨s₂, h₂, hq⟩ := Option.bind_eq_some_iff.mp hq
    obtain ⟨s₃, h₃, -⟩ := Option.bind_eq_some_iff.mp hq
    have hmark : directiveMark <:+: skipBlanks s₂ := by
      have hdrop := List.dropWhile_suffix (fun c => c ≠ '@' && c ≠ '\n') (l := skipBlanks s₂)
      rw [after?_eq_some_iff.mp h₃] at hdrop
      exact (List.prefix_append _ _).isInfix.trans hdrop.isInfix
    have hcolon : skipBlanks s₂ <:+ s₁ := by
      have hblanks : skipBlanks s₁ <:+ s₁ := List.dropWhile_suffix _
      rw [after?_eq_some_iff.mp h₂] at hblanks
      exact ((List.dropWhile_suffix _).trans (List.suffix_cons _ _)).trans hblanks
    have hname : s₁ <:+ s :=
      ((skipArguments_suffix h₁).trans (List.dropWhile_suffix _)).trans (List.dropWhile_suffix _)
    exact hmark.trans (hcolon.trans hname).isInfix

theorem scanDirectives_eq_nil {s : List Char} (h : ¬ directiveMark <:+: s) (skip : Nat)
    (fresh : Bool) : scanDirectives skip fresh s = [] := by
  induction s generalizing skip fresh with
  | nil => cases skip <;> rfl
  | cons c s ih =>
    have hs : ¬ directiveMark <:+: s := fun hs => h (hs.trans (List.suffix_cons c s).isInfix)
    cases skip with
    | succ skip => exact ih hs skip _
    | zero =>
      have hread : readDirective (c :: s) = none :=
        Option.eq_none_iff_forall_ne_some.mpr fun p hp => h (mark_infix_of_readDirective hp)
      rw [scanDirectives, hread, ite_self]
      exact ih hs 0 _

theorem directives_eq_nil {s : String} (h : ¬ directiveMark <:+: s.toList) : directives s = [] :=
  scanDirectives_eq_nil h 0 true

/-! ### Passing over lines -/

theorem scanDirectives_skip (u r : List Char) (fresh : Bool) :
    scanDirectives u.length fresh (u ++ r) =
      scanDirectives 0 ((u.getLast?.map fun c => decide (c = '\n')).getD fresh) r := by
  induction u generalizing fresh with
  | nil => rfl
  | cons c u ih =>
    rw [List.length_cons, List.cons_append, scanDirectives, ih]
    cases u with
    | nil => rfl
    | cons d u => rfl

theorem scanDirectives_line {u : List Char} (h : '\n' ∉ u) (r : List Char) :
    scanDirectives 0 false (u ++ '\n' :: r) = scanDirectives 0 true r := by
  induction u with
  | nil => rfl
  | cons c u ih =>
    obtain ⟨hc, hu⟩ : '\n' ≠ c ∧ '\n' ∉ u := by simpa using h
    have hfalse : decide (c = '\n') = false := decide_eq_false hc.symm
    rw [List.cons_append, scanDirectives, hfalse]
    exact ih hu

theorem scanDirectives_fresh_line {u r : List Char} (h : '\n' ∉ u) (hne : u ≠ [])
    (hread : readDirective (u ++ '\n' :: r) = none) :
    scanDirectives 0 true (u ++ '\n' :: r) = scanDirectives 0 true r := by
  cases u with
  | nil => exact absurd rfl hne
  | cons c u =>
    obtain ⟨hc, hu⟩ : '\n' ≠ c ∧ '\n' ∉ u := by simpa using h
    have hfalse : decide (c = '\n') = false := decide_eq_false hc.symm
    rw [List.cons_append] at hread ⊢
    rw [scanDirectives, if_pos rfl, hread, hfalse]
    exact scanDirectives_line hu r

theorem readDirective_of_symbol {w : List Char} (hw : ∀ c ∈ w, isBlank c = true) {c : Char}
    (hblank : isBlank c = false) (hword : isWordChar c = false) (r : List Char) :
    readDirective (w ++ c :: r) = none := by
  have hskip : skipBlanks (w ++ c :: r) = c :: r := by
    rw [skipBlanks, List.dropWhile_append_of_pos hw, List.dropWhile_cons_of_neg (by simp [hblank])]
  rw [readDirective_eq, hskip, List.takeWhile_cons_of_neg (by simp [hword]), if_pos rfl]

end Artifact

end ClassSchema
