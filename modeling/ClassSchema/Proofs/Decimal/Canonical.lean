import ClassSchema.Value.Reader
import Mathlib.Algebra.Order.Field.Power
import Mathlib.Algebra.Order.Floor.Semifield
import Mathlib.Data.Rat.Floor
import Mathlib.Tactic.FieldSimp
import Mathlib.Tactic.Linarith
import Mathlib.Tactic.NormNum
import Mathlib.Tactic.Positivity

/-!
# Canonical floats

A finite number of the format has one form with as many binary digits as its exponent allows. Rounding
gives that form, so every float that arithmetic or a reader makes is in it.
-/

namespace ClassSchema

namespace Binary64

/-- The form that every finite number of the format has just once. -/
structure Canonical (x : Binary64) : Prop where
  significand_lt : x.significand < 2 * leastFull
  full : leastExponent < x.exponent → leastFull ≤ x.significand
  least_le : leastExponent ≤ x.exponent
  le_greatest : x.exponent ≤ greatestExponent

instance (x : Binary64) : Decidable x.Canonical :=
  decidable_of_iff (x.significand < 2 * leastFull ∧
      (leastExponent < x.exponent → leastFull ≤ x.significand) ∧ leastExponent ≤ x.exponent ∧
      x.exponent ≤ greatestExponent)
    ⟨fun h => ⟨h.1, h.2.1, h.2.2.1, h.2.2.2⟩,
      fun h => ⟨h.significand_lt, h.full, h.least_le, h.le_greatest⟩⟩

theorem leastFull_eq : leastFull = 2 ^ 52 := rfl

theorem canonical_zero (negative : Bool) : (zero negative).Canonical := by
  cases negative <;> decide

theorem Canonical.negated {x : Binary64} (h : x.Canonical) (negative : Bool) :
    (x.negated negative).Canonical :=
  ⟨h.significand_lt, h.full, h.least_le, h.le_greatest⟩

/-! ### Quotients against powers of two -/

variable {num den : Nat}

theorem twoPow_log2_le (hnum : 0 < num) (hden : 0 < den) :
    (2 : ℚ) ^ ((num.log2 : Int) - den.log2 - 1) ≤ num / den := by
  have hn : (2 : ℚ) ^ (num.log2 : Int) ≤ num := by
    exact_mod_cast Nat.log2_self_le hnum.ne'
  have hd : (den : ℚ) ≤ 2 ^ ((den.log2 : Int) + 1) := by
    exact_mod_cast Nat.lt_log2_self.le
  calc (2 : ℚ) ^ ((num.log2 : Int) - den.log2 - 1)
      = 2 ^ (num.log2 : Int) / 2 ^ ((den.log2 : Int) + 1) := by
        rw [← zpow_sub₀ (by norm_num)]
        congr 1
        omega
    _ ≤ num / den := div_le_div₀ (by positivity) hn (by exact_mod_cast hden) hd

theorem lt_twoPow_log2 (hden : 0 < den) :
    (num / den : ℚ) < 2 ^ ((num.log2 : Int) - den.log2 + 1) := by
  have hn : (num : ℚ) < 2 ^ ((num.log2 : Int) + 1) := by
    exact_mod_cast Nat.lt_log2_self
  have hd : (2 : ℚ) ^ (den.log2 : Int) ≤ den := by
    exact_mod_cast Nat.log2_self_le hden.ne'
  calc (num / den : ℚ) < 2 ^ ((num.log2 : Int) + 1) / 2 ^ (den.log2 : Int) :=
        div_lt_div₀ hn hd (by positivity) (by positivity)
    _ = 2 ^ ((num.log2 : Int) - den.log2 + 1) := by
        rw [← zpow_sub₀ (by norm_num)]
        congr 1
        omega

theorem scaled_floor (num den : Nat) (e : Int) :
    (scaled num den e).1 / (scaled num den e).2 = ⌊(num / den : ℚ) / 2 ^ e⌋₊ := by
  rw [scaled]
  split
  · next h =>
    obtain ⟨k, rfl⟩ := Int.eq_ofNat_of_zero_le h
    rw [zpow_natCast, div_div, ← Nat.floor_div_eq_div (K := ℚ), Int.toNat_natCast, Nat.shiftLeft_eq]
    push_cast
    rfl
  · next h =>
    obtain ⟨k, hk⟩ := Int.eq_ofNat_of_zero_le (show 0 ≤ -e by omega)
    obtain rfl : e = -(k : Int) := by omega
    rw [zpow_neg, div_inv_eq_mul, div_mul_eq_mul_div, ← Nat.floor_div_eq_div (K := ℚ), neg_neg,
      Int.toNat_natCast, Nat.shiftLeft_eq, zpow_natCast]
    push_cast
    rfl

theorem roundedQuotient_cases (num den : Nat) :
    roundedQuotient num den = num / den ∨ roundedQuotient num den = num / den + 1 := by
  rw [roundedQuotient]
  split
  · exact .inl rfl
  · exact .inr rfl

private theorem div_twoPow_succ (q : ℚ) (e : Int) : q / 2 ^ (e + 1) = q / 2 ^ e / 2 := by
  rw [zpow_add_one₀ (by norm_num), div_div]

theorem fittingExponent_spec (hnum : 0 < num) (hden : 0 < den) :
    leastExponent ≤ fittingExponent num den ∧
      (num / den : ℚ) / 2 ^ fittingExponent num den < 2 ^ 53 ∧
      (leastExponent < fittingExponent num den →
        (2 : ℚ) ^ 52 ≤ (num / den : ℚ) / 2 ^ fittingExponent num den) := by
  have hlower := twoPow_log2_le hnum hden
  have hupper : (num / den : ℚ) < 2 ^ ((num.log2 : Int) - den.log2 + 1) := lt_twoPow_log2 hden
  rw [fittingExponent]
  generalize hlow : max ((num.log2 : Int) - den.log2 - 53) leastExponent = low
  have hpos : (0 : ℚ) < 2 ^ low := by positivity
  have hleast : leastExponent ≤ low := hlow ▸ le_max_right _ _
  have hroom : (num / den : ℚ) / 2 ^ low < 2 ^ (54 : Int) := by
    rw [div_lt_iff₀ hpos, ← zpow_add₀ (by norm_num)]
    exact hupper.trans_le (zpow_le_zpow_right₀ (by norm_num) (by omega))
  rw [scaled_floor, leastFull_eq]
  split
  · next hbig =>
    have hle : (2 : ℚ) ^ 53 ≤ (num / den : ℚ) / 2 ^ low := by
      have := Nat.floor_le (show (0 : ℚ) ≤ (num / den : ℚ) / 2 ^ low by positivity)
      exact le_trans (by exact_mod_cast hbig) this
    rw [div_twoPow_succ]
    norm_num at hroom hle ⊢
    exact ⟨by omega, by linarith, fun _ => by linarith⟩
  · next hsmall =>
    refine ⟨hleast, ?_, fun hless => ?_⟩
    · have hfloor : ⌊(num / den : ℚ) / 2 ^ low⌋₊ < 2 ^ 53 := by omega
      exact_mod_cast (Nat.floor_lt (by positivity)).mp hfloor
    · rw [le_div_iff₀ hpos, ← zpow_natCast, ← zpow_add₀ (by norm_num)]
      exact le_trans (zpow_le_zpow_right₀ (by norm_num) (by omega)) hlower

theorem rounded_spec (hnum : 0 < num) (hden : 0 < den) {m : Nat} {e : Int}
    (he : e = fittingExponent num den)
    (hm : m = roundedQuotient (scaled num den e).1 (scaled num den e).2) :
    m ≤ 2 * leastFull ∧ leastExponent ≤ e ∧ (leastExponent < e → leastFull ≤ m) ∧
      (den ≤ num → m ≠ 0) := by
  obtain ⟨hleast, hlt, hfull⟩ := fittingExponent_spec hnum hden
  rw [← he] at hleast hlt hfull
  have hcases := roundedQuotient_cases (scaled num den e).1 (scaled num den e).2
  rw [← hm, scaled_floor] at hcases
  have hfloor : ⌊(num / den : ℚ) / 2 ^ e⌋₊ < 2 ^ 53 :=
    (Nat.floor_lt (by positivity)).mpr (by exact_mod_cast hlt)
  have hfloor' (h : leastExponent < e) : leastFull ≤ m := by
    have hle : 2 ^ 52 ≤ ⌊(num / den : ℚ) / 2 ^ e⌋₊ := Nat.le_floor (by exact_mod_cast hfull h)
    rw [leastFull_eq]
    omega
  refine ⟨by rw [leastFull_eq]; omega, hleast, hfloor', fun hle => ?_⟩
  rcases hleast.eq_or_lt with heq | hless
  · have hone : 1 ≤ ⌊(num / den : ℚ) / 2 ^ e⌋₊ := by
      have hquotient : (1 : ℚ) ≤ num / den :=
        (one_le_div (by exact_mod_cast hden)).mpr (by exact_mod_cast hle)
      have hpower : (2 : ℚ) ^ e ≤ 1 := zpow_le_one_of_nonpos₀ (by norm_num) (heq ▸ by decide)
      refine Nat.le_floor ?_
      rw [Nat.cast_one, one_le_div (by positivity)]
      exact hpower.trans hquotient
    omega
  · have hle := hfloor' hless
    rw [leastFull_eq] at hle
    omega

/-- Rounding gives canonical floats, and zero only below one. -/
theorem nearest?_spec {negative : Bool} {x : Binary64} (hden : 0 < den)
    (h : nearest? negative num den = some x) : x.Canonical ∧ (den ≤ num → x.significand ≠ 0) := by
  rw [nearest?] at h
  split at h
  · next hnum => exact ⟨Option.some.inj h ▸ canonical_zero negative, fun hle => by omega⟩
  · next hnum =>
    generalize he : fittingExponent num den = e at h
    dsimp only at h
    generalize hm : roundedQuotient (scaled num den e).1 (scaled num den e).2 = m at h
    obtain ⟨hle, hleast, hfull, hone⟩ := rounded_spec (Nat.pos_of_ne_zero hnum) hden he.symm hm.symm
    by_cases hcarry : m = 2 * leastFull
    · rw [if_pos hcarry] at h
      dsimp only at h
      split at h
      · cases h
      · next hgreatest =>
        have hpos : leastFull ≠ 0 := by decide
        have hlt : leastFull < 2 * leastFull := by decide
        rw [if_neg hpos] at h
        obtain rfl := Option.some.inj h
        exact ⟨⟨hlt, fun _ => le_rfl, by dsimp only; omega, by dsimp only; omega⟩, fun _ => hpos⟩
    · rw [if_neg hcarry] at h
      dsimp only at h
      split at h
      · cases h
      · next hgreatest =>
        split at h
        · next hzero =>
          exact ⟨Option.some.inj h ▸ canonical_zero negative, fun hle => absurd hzero (hone hle)⟩
        · next hzero =>
          obtain rfl := Option.some.inj h
          exact ⟨⟨by dsimp only; omega, hfull, hleast, by dsimp only; omega⟩, fun _ => hzero⟩

/-! ### What is made by rounding -/

/-- The float nearest to a decimal is canonical, and not zero if the decimal is a positive whole number. -/
theorem ofDecimal?_spec {negative : Bool} {digits : Nat} {exponent : Int} {x : Binary64}
    (h : ofDecimal? negative digits exponent = some x) :
    x.Canonical ∧ (digits ≠ 0 → 0 ≤ exponent → x.significand ≠ 0) := by
  rw [ofDecimal?] at h
  split at h
  · next hsmall =>
    refine ⟨Option.some.inj h ▸ canonical_zero negative, fun hdigits hexponent => ?_⟩
    omega
  · split at h
    · cases h
    · split at h
      · obtain ⟨hx, hpos⟩ := nearest?_spec (by decide) h
        refine ⟨hx, fun hdigits _ => hpos (Nat.one_le_iff_ne_zero.mpr (mul_ne_zero hdigits ?_))⟩
        exact (Nat.pow_pos (by decide)).ne'
      · next hexponent =>
        exact ⟨(nearest?_spec (Nat.pow_pos (by decide)) h).1, fun _ h => absurd h hexponent⟩

theorem quotient_pos (x : Binary64) : 0 < x.quotient.2 := by
  rw [quotient]
  split
  · exact Nat.one_pos
  · rw [Nat.one_shiftLeft]
    exact Nat.two_pow_pos _

theorem quotient_ne_zero {x : Binary64} (h : x.significand ≠ 0) : x.quotient.1 ≠ 0 := by
  rw [quotient]
  split
  · rw [Nat.shiftLeft_eq]
    exact mul_ne_zero h (Nat.two_pow_pos _).ne'
  · exact h

theorem canonical_of_times? {x y z : Binary64} (h : x.times? y = some z) : z.Canonical :=
  (nearest?_spec (Nat.mul_pos x.quotient_pos y.quotient_pos) h).1

theorem canonical_of_over? {x y z : Binary64} (hy : y.significand ≠ 0) (h : x.over? y = some z) :
    z.Canonical :=
  (nearest?_spec (Nat.mul_pos x.quotient_pos (Nat.pos_of_ne_zero (quotient_ne_zero hy))) h).1

end Binary64

namespace Number

/-- An integer, or a float in its canonical form. -/
def Canonical : Number → Prop
  | .integer _ => True
  | .float x => x.Canonical

instance (n : Number) : Decidable n.Canonical := by
  cases n <;> · unfold Canonical; infer_instance

theorem significand_ne_zero_of_tenToThe {k : Nat} {p : Binary64} (h : tenToThe k = some p) :
    p.significand ≠ 0 := by
  rw [tenToThe] at h
  split at h
  · exact (Binary64.ofDecimal?_spec h).2 (by decide) (by omega)
  · cases h

theorem canonical_of_scaleByTen {steps : Nat} {x y : Binary64} {e : Int} (hx : x.Canonical)
    (h : scaleByTen steps x e = some y) : y.Canonical := by
  induction steps generalizing x e with
  | zero => exact Option.some.inj h ▸ hx
  | succ steps ih =>
    rw [scaleByTen] at h
    split at h
    · next p hp =>
      split at h
      · exact Binary64.canonical_of_times? h
      · exact Binary64.canonical_of_over? (significand_ne_zero_of_tenToThe hp) h
    · split at h
      · exact Option.some.inj h ▸ hx
      · split at h
        · cases h
        · obtain ⟨p, hp, h⟩ := Option.bind_eq_some_iff.mp h
          obtain ⟨z, hz, h⟩ := Option.bind_eq_some_iff.mp h
          exact ih (Binary64.canonical_of_over? (significand_ne_zero_of_tenToThe hp) hz) h

theorem canonical_of_ofParts {negative : Bool} {word : Nat} {exponent : Int} {n : Number}
    (h : ofParts negative word exponent = some n) : n.Canonical := by
  obtain ⟨x, hx, h⟩ := Option.bind_eq_some_iff.mp h
  obtain ⟨y, hy, h⟩ := Option.bind_eq_some_iff.mp h
  obtain rfl := Option.some.inj h
  exact (canonical_of_scaleByTen (Binary64.nearest?_spec (by decide) hx).1 hy).negated negative

theorem canonical_of_ofExponent {negative minus : Bool} {word : Nat} {start : Int} {ds : List Char}
    {n : Number} (h : ofExponent negative word start minus ds = some n) : n.Canonical := by
  rw [ofExponent] at h
  split at h
  · split at h
    · cases h
    · exact Option.some.inj h ▸ Binary64.canonical_zero negative
  · exact canonical_of_ofParts h

theorem canonical_of_ofWord {negative : Bool} {word : Nat} {n : Number}
    (h : ofWord negative word = some n) : n.Canonical := by
  rw [ofWord] at h
  split at h
  · split at h
    · obtain ⟨x, hx, h⟩ := Option.bind_eq_some_iff.mp h
      exact Option.some.inj h ▸ (Binary64.nearest?_spec (by decide) hx).1.negated true
    · exact Option.some.inj h ▸ trivial
  · exact Option.some.inj h ▸ trivial

end Number

/-- Every number that is read is canonical. -/
theorem Numeral.canonical_of_number? {m : Numeral} {n : Number} (h : m.number? = some n) :
    n.Canonical := by
  rw [number?] at h
  split at h
  · exact Number.canonical_of_ofWord h
  · exact Number.canonical_of_ofParts h
  · exact Number.canonical_of_ofExponent h

end ClassSchema
