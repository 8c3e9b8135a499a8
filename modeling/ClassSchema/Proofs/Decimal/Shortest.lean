import ClassSchema.Proofs.Decimal.Canonical
import Mathlib.Tactic.GCongr
import Mathlib.Tactic.Ring

/-!
# Shortest decimals name their number

The reals that round to a binary number form its cell, and the cells of different numbers have no
point in common. The shortest decimal lies in the cell of its number, so it is the decimal of no other
one.
-/

namespace ClassSchema

namespace Decimal

/-- The number that a decimal stands for. -/
def value (d : Decimal) : ℚ := d.digits * 10 ^ d.exponent

/-! ### Quotients against powers of ten -/

variable {num den c : Nat} {s : Int}

private theorem tenPow_of_nonneg (h : 0 ≤ s) : (10 : ℚ) ^ s = (10 ^ s.toNat : Nat) := by
  obtain ⟨n, rfl⟩ := Int.eq_ofNat_of_zero_le h
  simp

private theorem tenPow_of_neg (h : ¬ 0 ≤ s) : (10 : ℚ) ^ s = ((10 ^ (-s).toNat : Nat) : ℚ)⁻¹ := by
  rw [← tenPow_of_nonneg (by omega), ← zpow_neg, neg_neg]

private theorem compare_natCast (a b : Nat) : compare a b = compare (a : ℚ) (b : ℚ) := by
  rw [← cmp_eq_compare, ← cmp_eq_compare]
  exact (Nat.strictMono_cast.cmp_map_eq a b).symm

private theorem compare_mul_pos {k : ℚ} (hk : 0 < k) (a b : ℚ) :
    compare (a * k) (b * k) = compare a b := by
  rw [← cmp_eq_compare, ← cmp_eq_compare, cmp_mul_pos_right hk]

theorem compareQuotient_eq (hden : 0 < den) (c : Nat) (s : Int) (num : Nat) :
    compareQuotient c s num den = compare ((c : ℚ) * 10 ^ s) (num / den) := by
  have hd : (0 : ℚ) < den := Nat.cast_pos.mpr hden
  rw [compareQuotient]
  split
  · next h =>
    have hleft : ((c * Nat.pow 10 s.toNat * den : Nat) : ℚ) = c * 10 ^ s * den := by
      rw [tenPow_of_nonneg h, ← Nat.cast_mul, ← Nat.cast_mul]
      rfl
    have hright : (num : ℚ) = num / den * den := by field_simp
    rw [compare_natCast, hleft, hright, compare_mul_pos hd, ← hright]
  · next h =>
    have hp : (0 : ℚ) < den * (10 ^ (-s).toNat : Nat) := by positivity
    have hleft : ((c * den : Nat) : ℚ) = c * 10 ^ s * (den * (10 ^ (-s).toNat : Nat)) := by
      rw [tenPow_of_neg h]
      push_cast
      field_simp
    have hright : ((num * Nat.pow 10 (-s).toNat : Nat) : ℚ) =
        num / den * (den * (10 ^ (-s).toNat : Nat)) := by
      rw [← mul_assoc, div_mul_cancel₀ _ hd.ne', ← Nat.cast_mul]
      rfl
    rw [compare_natCast, hleft, hright, compare_mul_pos hp]

theorem floorAt_eq (num den : Nat) (s : Int) : floorAt num den s = ⌊(num / den : ℚ) / 10 ^ s⌋₊ := by
  rw [floorAt]
  split
  · next h =>
    rw [tenPow_of_nonneg h, div_div, ← Nat.cast_mul, Nat.floor_div_eq_div]
    rfl
  · next h =>
    rw [tenPow_of_neg h, div_inv_eq_mul, div_mul_eq_mul_div, ← Nat.cast_mul, Nat.floor_div_eq_div]
    rfl

theorem floorAt_mul_le (num den : Nat) (s : Int) : (floorAt num den s : ℚ) * 10 ^ s ≤ num / den := by
  have hp : (0 : ℚ) < 10 ^ s := by positivity
  rw [floorAt_eq, ← le_div_iff₀ hp]
  exact Nat.floor_le (by positivity)

theorem lt_floorAt_succ_mul (num den : Nat) (s : Int) :
    (num / den : ℚ) < ((floorAt num den s + 1 : Nat) : ℚ) * 10 ^ s := by
  have hp : (0 : ℚ) < 10 ^ s := by positivity
  rw [floorAt_eq, ← div_lt_iff₀ hp]
  push_cast
  exact Nat.lt_floor_add_one _

/-! ### The leading digit -/

private theorem climb_le (hden : 0 < den) (steps : Nat) {k : Int} (hk : (10 : ℚ) ^ k ≤ num / den) :
    (10 : ℚ) ^ climb num den steps k ≤ num / den := by
  induction steps generalizing k with
  | zero => exact hk
  | succ steps ih =>
    rw [climb, compareQuotient_eq hden, Nat.cast_one, one_mul]
    split
    · next h => exact ih (compare_le_iff_le.mp (Ordering.isLE_iff_ne_gt.mp h))
    · exact hk

private theorem tenPow_le_of_pow {g b : Int} {i j : Nat} (hi : i ≠ 0)
    (hpower : ((10 : ℚ) ^ i) ^ g ≤ (2 ^ j) ^ g) (h : j * g ≤ i * b) : (10 : ℚ) ^ g ≤ 2 ^ b := by
  have hroot : ((10 : ℚ) ^ g) ^ i ≤ ((2 : ℚ) ^ b) ^ i := calc
    ((10 : ℚ) ^ g) ^ i = (10 ^ i) ^ g := by
      rw [← zpow_natCast, ← zpow_natCast, zpow_comm]
    _ ≤ (2 ^ j) ^ g := hpower
    _ = 2 ^ (j * g) := by rw [zpow_mul, zpow_natCast]
    _ ≤ 2 ^ (i * b) := zpow_le_zpow_right₀ (by norm_num) h
    _ = ((2 : ℚ) ^ b) ^ i := by rw [mul_comm, zpow_mul, zpow_natCast]
  exact (pow_le_pow_iff_left₀ (by positivity) (by positivity) hi).mp hroot

private theorem tenPow_le_twoPow {g b : Int} (hpos : 0 ≤ g → 10 * g ≤ 3 * b)
    (hneg : g < 0 → 93 * g ≤ 28 * b) : (10 : ℚ) ^ g ≤ 2 ^ b := by
  rcases Int.lt_or_le g 0 with hg | hg
  · refine tenPow_le_of_pow (i := 28) (j := 93) (by decide) ?_ (by exact_mod_cast hneg hg)
    have hle : ((2 : ℚ) ^ 93) ^ (-g) ≤ (10 ^ 28) ^ (-g) :=
      zpow_le_zpow_left₀ (by omega) (by norm_num) (by norm_num)
    have hinv := inv_anti₀ (by positivity) hle
    rwa [← zpow_neg, ← zpow_neg, neg_neg] at hinv
  · refine tenPow_le_of_pow (i := 3) (j := 10) (by decide) ?_ (by exact_mod_cast hpos hg)
    exact zpow_le_zpow_left₀ hg (by norm_num) (by norm_num)

theorem leadingExponent_le (hnum : 0 < num) (hden : 0 < den) (hlow : den.log2 < num.log2 + 1200)
    (hhigh : num.log2 < den.log2 + 1200) : (10 : ℚ) ^ leadingExponent num den ≤ num / den := by
  have hpower : (10 : ℚ) ^ (((num.log2 : Int) - den.log2) * 30103 / 100000 - 2) ≤
      2 ^ ((num.log2 : Int) - den.log2 - 1) := by
    refine tenPow_le_twoPow ?_ ?_ <;> omega
  exact climb_le hden 4 (hpower.trans (Binary64.twoPow_log2_le hnum hden))

/-! ### Cells -/

namespace Cell

variable (cell : Cell)

def middle : ℚ := cell.value / cell.den

def bottom : ℚ := cell.low / cell.den

def top : ℚ := cell.high / cell.den

/-- A number lies in a cell: between the ends, or on one of them where they belong to it. -/
def Has (q : ℚ) : Prop :=
  if cell.closed then cell.bottom ≤ q ∧ q ≤ cell.top else cell.bottom < q ∧ q < cell.top

/-- A cell around its number. -/
structure Proper : Prop where
  den_pos : 0 < cell.den
  bottom_lt : cell.bottom < cell.middle
  lt_top : cell.middle < cell.top

variable {cell} {q : ℚ}

theorem Has.le (h : cell.Has q) : cell.bottom ≤ q ∧ q ≤ cell.top := by
  rw [Has] at h
  split at h
  · exact h
  · exact ⟨h.1.le, h.2.le⟩

theorem Has.closed_of_eq (h : cell.Has q) (hq : q = cell.bottom ∨ q = cell.top) :
    cell.closed = true := by
  rw [Has] at h
  split at h
  · next hclosed => exact hclosed
  · rcases hq with rfl | rfl
    · exact absurd h.1 (lt_irrefl _)
    · exact absurd h.2 (lt_irrefl _)

theorem has_of_lt (hbottom : cell.bottom < q) (htop : q < cell.top) : cell.Has q := by
  rw [Has]
  split
  · exact ⟨hbottom.le, htop.le⟩
  · exact ⟨hbottom, htop⟩

private theorem has_iff_of_end (h : cell.bottom ≤ q ∧ q ≤ cell.top)
    (hend : q = cell.bottom ∨ q = cell.top) : cell.Has q ↔ cell.closed = true := by
  refine ⟨fun hq => hq.closed_of_eq hend, fun hclosed => ?_⟩
  rw [Has, if_pos hclosed]
  exact h

theorem holds_iff (h : cell.Proper) (c : Nat) (s : Int) :
    cell.holds c s = true ↔ cell.Has (c * 10 ^ s) := by
  have hends : cell.bottom < cell.top := h.bottom_lt.trans h.lt_top
  rw [holds, compareQuotient_eq h.den_pos, compareQuotient_eq h.den_pos, ← bottom, ← top]
  generalize (c * 10 ^ s : ℚ) = q
  split
  · next hlow hhigh =>
    exact iff_of_true rfl (has_of_lt (compare_gt_iff_gt.mp hlow) (compare_lt_iff_lt.mp hhigh))
  · next hlow =>
    have hq : q = cell.bottom := compare_eq_iff_eq.mp hlow
    exact (has_iff_of_end ⟨hq.ge, hq.le.trans hends.le⟩ (.inl hq)).symm
  · next hhigh _ =>
    have hq : q = cell.top := compare_eq_iff_eq.mp hhigh
    exact (has_iff_of_end ⟨hends.le.trans hq.ge, hq.le⟩ (.inr hq)).symm
  · next hlow hhigh hin =>
    refine iff_of_false (by decide) fun hq => ?_
    have hbottom : q ≠ cell.bottom := fun he => hlow (compare_eq_iff_eq.mpr he)
    have htop : q ≠ cell.top := fun he => hhigh (compare_eq_iff_eq.mpr he)
    exact hin (compare_gt_iff_gt.mpr (lt_of_le_of_ne hq.le.1 hbottom.symm))
      (compare_lt_iff_lt.mpr (lt_of_le_of_ne hq.le.2 htop))

theorem holds_of_fine (h : cell.Proper) {s : Int} (hs : (10 : ℚ) ^ s ≤ cell.top - cell.middle) :
    cell.holds (floorAt cell.value cell.den s) s = true ∨
      cell.holds (floorAt cell.value cell.den s + 1) s = true := by
  rw [holds_iff h, holds_iff h]
  have hle := floorAt_mul_le cell.value cell.den s
  have hlt := lt_floorAt_succ_mul cell.value cell.den s
  rw [← middle] at hle hlt
  have hstep : ((floorAt cell.value cell.den s + 1 : Nat) : ℚ) * 10 ^ s =
      (floorAt cell.value cell.den s : ℚ) * 10 ^ s + 10 ^ s := by
    push_cast
    ring
  rcases lt_or_eq_of_le hle with hbelow | hon
  · exact .inr (has_of_lt (h.bottom_lt.trans hlt) (by linarith))
  · exact .inl (has_of_lt (hon ▸ h.bottom_lt) (hon ▸ h.lt_top))

theorem has_nearer (h : cell.Proper) {c : Nat} {s : Int} (hc : cell.holds c s = true)
    (hsucc : cell.holds (c + 1) s = true) : cell.Has (cell.nearer c s * 10 ^ s) := by
  rw [holds_iff h] at hc hsucc
  rw [nearer]
  split
  · exact hc
  · exact hsucc
  · split
    · exact hc
    · exact hsucc

/-- A search that comes to a fine grid ends in the cell. -/
theorem has_search (h : cell.Proper) {grids j : Nat} {s : Int} (hj : j < grids)
    (hfine : (10 : ℚ) ^ (s - j) ≤ cell.top - cell.middle) : cell.Has (cell.search grids s).value := by
  induction grids generalizing j s with
  | zero => exact absurd hj (Nat.not_lt_zero j)
  | succ grids ih =>
    rw [search]
    split
    · next hc hsucc => exact has_nearer h hc hsucc
    · next hc _ => exact (holds_iff h _ _).mp hc
    · next _ hsucc => exact (holds_iff h _ _).mp hsucc
    · next hc hsucc =>
      cases j with
      | zero =>
        rcases holds_of_fine h (by simpa using hfine) with hholds | hholds
        · rw [hc] at hholds
          cases hholds
        · rw [hsucc] at hholds
          cases hholds
      | succ j =>
        refine ih (Nat.lt_of_succ_lt_succ hj) ?_
        rw [show s - 1 - (j : Int) = s - ((j + 1 : Nat) : Int) by omega]
        exact hfine

end Cell

theorem value_trimmed (fuel : Nat) (d : Decimal) : (trimmed fuel d).value = d.value := by
  induction fuel generalizing d with
  | zero => rfl
  | succ fuel ih =>
    rw [trimmed]
    split
    · next hten =>
      obtain ⟨k, hk⟩ := Nat.dvd_of_mod_eq_zero hten
      rw [ih, value, value, hk, Nat.mul_div_cancel_left k (by decide), zpow_add₀ (by norm_num)]
      push_cast
      ring
    · rfl

end Decimal

namespace Binary64

open Decimal (Cell)

variable {x y : Binary64}

/-- How far the cell goes down, in quarters of the last place. -/
def lowerQuarters (x : Binary64) : Nat :=
  if x.significand = leastFull ∧ x.exponent > leastExponent then 1 else 2

/-- A quarter of the last place. -/
def quarter (x : Binary64) : ℚ := 2 ^ (x.exponent - 2)

theorem quarter_pos (x : Binary64) : 0 < x.quarter := by
  rw [quarter]
  positivity

private theorem twoPow_quotient (q : Int) (n : Nat) :
    ((n * (if 0 ≤ q then 1 <<< q.toNat else 1) : Nat) : ℚ) /
      ((if 0 ≤ q then 1 else 1 <<< (-q).toNat : Nat) : ℚ) = n * 2 ^ q := by
  split
  · next h =>
    obtain ⟨k, rfl⟩ := Int.eq_ofNat_of_zero_le h
    simp [Nat.shiftLeft_eq]
  · next h =>
    obtain ⟨k, hk⟩ := Int.eq_ofNat_of_zero_le (show 0 ≤ -q by omega)
    obtain rfl : q = -(k : Int) := by omega
    simp [Nat.shiftLeft_eq, div_eq_mul_inv]

theorem middle_cell (x : Binary64) : x.cell.middle = (4 * x.significand : Nat) * x.quarter :=
  twoPow_quotient _ _

theorem top_cell (x : Binary64) : x.cell.top = (4 * x.significand + 2 : Nat) * x.quarter :=
  twoPow_quotient _ _

theorem bottom_cell (x : Binary64) :
    x.cell.bottom = (4 * x.significand - x.lowerQuarters : Nat) * x.quarter :=
  twoPow_quotient _ _

theorem lowerQuarters_pos (x : Binary64) : 0 < x.lowerQuarters := by
  rw [lowerQuarters]
  split <;> decide

theorem lowerQuarters_le (x : Binary64) : x.lowerQuarters ≤ 2 := by
  rw [lowerQuarters]
  split <;> decide

theorem cell_proper (h : x.significand ≠ 0) : x.cell.Proper where
  den_pos := by
    show 0 < if 0 ≤ x.exponent - 2 then 1 else 1 <<< (-(x.exponent - 2)).toNat
    split
    · decide
    · rw [Nat.shiftLeft_eq]
      positivity
  bottom_lt := by
    rw [bottom_cell, middle_cell]
    have hlow := x.lowerQuarters_pos
    exact mul_lt_mul_of_pos_right (Nat.cast_lt.mpr (by omega)) x.quarter_pos
  lt_top := by
    rw [middle_cell, top_cell]
    exact mul_lt_mul_of_pos_right (Nat.cast_lt.mpr (by omega)) x.quarter_pos

theorem bottom_cell_pos (h : x.significand ≠ 0) : 0 < x.cell.bottom := by
  rw [bottom_cell]
  have hlow := x.lowerQuarters_le
  exact mul_pos (Nat.cast_pos.mpr (by omega)) x.quarter_pos

private theorem log2_mul_twoPow_lt {n a : Nat} (hn : n ≠ 0) (h : n < 2 ^ a) (k : Nat) :
    (n * 1 <<< k).log2 < a + k := by
  rw [Nat.one_shiftLeft, Nat.log2_lt (mul_ne_zero hn (by positivity)), pow_add]
  exact Nat.mul_lt_mul_of_pos_right h (by positivity)

theorem log2_den_lt (hx : x.Canonical) : x.cell.den.log2 < 1200 := by
  show (if 0 ≤ x.exponent - 2 then 1 else 1 <<< (-(x.exponent - 2)).toNat).log2 < 1200
  have hleast : leastExponent = -1074 := rfl
  have hle := hx.least_le
  split
  · decide
  · rw [Nat.one_shiftLeft, Nat.log2_two_pow]
    omega

theorem log2_value_lt (hx : x.Canonical) (h : x.significand ≠ 0) : x.cell.value.log2 < 1200 := by
  show (4 * x.significand * if 0 ≤ x.exponent - 2 then 1 <<< (x.exponent - 2).toNat else 1).log2 < 1200
  have hgreatest : greatestExponent = 971 := rfl
  have hle := hx.le_greatest
  have hlt : 4 * x.significand < 2 ^ 55 := by
    have hlt := hx.significand_lt
    rw [leastFull_eq] at hlt
    omega
  split
  · have hsize := log2_mul_twoPow_lt (by omega) hlt (x.exponent - 2).toNat
    omega
  · have hsize := log2_mul_twoPow_lt (by omega) hlt 0
    rw [Nat.shiftLeft_zero] at hsize
    omega

/-- The shortest decimal of a number lies in its cell. -/
theorem has_shortest (hx : x.Canonical) (h : x.significand ≠ 0) : x.cell.Has x.shortest.value := by
  have hproper := cell_proper h
  have hvalue : x.cell.value ≠ 0 := by
    intro hzero
    have hmiddle : x.cell.middle = 0 := by rw [Cell.middle, hzero, Nat.cast_zero, zero_div]
    exact absurd hmiddle ((bottom_cell_pos h).trans hproper.bottom_lt).ne'
  have hlead : (10 : ℚ) ^ Decimal.leadingExponent x.cell.value x.cell.den ≤ x.cell.middle := by
    have hden := log2_den_lt hx
    have hnum := log2_value_lt hx h
    exact Decimal.leadingExponent_le (Nat.pos_of_ne_zero hvalue) hproper.den_pos (by omega) (by omega)
  have hsignificand : (x.significand : ℚ) < 2 ^ 53 := by exact_mod_cast hx.significand_lt
  -- Half the last place goes into a number less than `2 ^ 54` times, and so less than `10 ^ 17` times.
  have hfine : (10 : ℚ) ^ (Decimal.leadingExponent x.cell.value x.cell.den - (17 : Nat)) ≤
      x.cell.top - x.cell.middle := calc
    (10 : ℚ) ^ (Decimal.leadingExponent x.cell.value x.cell.den - (17 : Nat))
      = 10 ^ Decimal.leadingExponent x.cell.value x.cell.den / 10 ^ 17 := by
        rw [zpow_sub₀ (by norm_num), zpow_natCast]
    _ ≤ x.cell.middle / 10 ^ 17 := by gcongr
    _ = 4 * x.significand / 10 ^ 17 * x.quarter := by
        rw [middle_cell]
        push_cast
        ring
    _ ≤ 2 * x.quarter := mul_le_mul_of_nonneg_right (by linarith) x.quarter_pos.le
    _ = x.cell.top - x.cell.middle := by
        rw [middle_cell, top_cell]
        push_cast
        ring
  rw [shortest, if_neg (by simpa [isZero] using h), Decimal.value_trimmed]
  exact Cell.has_search hproper (by decide) hfine

/-! ### Cells of different numbers -/

/-- A number is below another one of its sign, by exponent and then by significand. -/
def Below (x y : Binary64) : Prop :=
  x.exponent < y.exponent ∨ x.exponent = y.exponent ∧ x.significand < y.significand

theorem closed_cell (x : Binary64) : x.cell.closed = decide (x.significand % 2 = 0) := rfl

theorem quarter_le_of_lt (h : x.exponent < y.exponent) : 2 * x.quarter ≤ y.quarter := by
  rw [quarter, quarter, ← zpow_one_add₀ (by norm_num)]
  exact zpow_le_zpow_right₀ (by norm_num) (by omega)

theorem le_lower_of_lt (hy : y.Canonical) (h : leastExponent < y.exponent) :
    2 ^ 54 - 1 ≤ 4 * y.significand - y.lowerQuarters := by
  have hfull := hy.full h
  have hlow := y.lowerQuarters_le
  rcases Nat.eq_or_lt_of_le hfull with heq | hlt
  · rw [lowerQuarters, if_pos ⟨heq.symm, h⟩, ← heq]
    decide
  · rw [leastFull_eq] at hlt
    omega

/-- A cell ends where the next one begins or before, and an end they share belongs to one of them
at most: of two neighbours one has an odd significand. -/
theorem top_le_bottom (hx : x.Canonical) (hy : y.Canonical) (h : Below x y) :
    x.cell.top ≤ y.cell.bottom ∧
      (x.cell.top = y.cell.bottom → x.cell.closed = true → y.cell.closed = false) := by
  rw [top_cell, bottom_cell, closed_cell, closed_cell, decide_eq_true_eq, decide_eq_false_iff_not]
  have hlow := y.lowerQuarters_le
  rcases h with hexponent | ⟨hexponent, hsignificand⟩
  · have hlower := le_lower_of_lt hy (lt_of_le_of_lt hx.least_le hexponent)
    have hxlt := hx.significand_lt
    rw [leastFull_eq] at hxlt
    have hquarters : ((4 * x.significand + 2 : Nat) : ℚ) * x.quarter ≤
        ((4 * y.significand - y.lowerQuarters : Nat) : ℚ) * (2 * x.quarter) := by
      rw [← mul_assoc]
      exact mul_le_mul_of_nonneg_right (by exact_mod_cast (by omega)) x.quarter_pos.le
    have hplace := mul_le_mul_of_nonneg_left (quarter_le_of_lt hexponent)
      (Nat.cast_nonneg (4 * y.significand - y.lowerQuarters) : (0 : ℚ) ≤ _)
    refine ⟨hquarters.trans hplace, fun heq heven => ?_⟩
    -- The ends can meet only at the greatest significand, which is odd.
    have hsame : ((4 * x.significand + 2 : Nat) : ℚ) * x.quarter =
        ((4 * y.significand - y.lowerQuarters : Nat) : ℚ) * 2 * x.quarter := by
      rw [mul_assoc]
      exact le_antisymm hquarters (heq ▸ hplace)
    have hcount : 4 * x.significand + 2 = (4 * y.significand - y.lowerQuarters) * 2 := by
      exact_mod_cast mul_right_cancel₀ x.quarter_pos.ne' hsame
    omega
  · rw [show y.quarter = x.quarter by rw [quarter, quarter, hexponent]]
    refine ⟨mul_le_mul_of_nonneg_right (Nat.cast_le.mpr (by omega)) x.quarter_pos.le, ?_⟩
    intro heq heven
    have hcount := Nat.cast_injective (mul_right_cancel₀ x.quarter_pos.ne' heq)
    omega

theorem lt_of_has_of_below (hx : x.Canonical) (hy : y.Canonical) (h : Below x y) {p q : ℚ}
    (hp : x.cell.Has p) (hq : y.cell.Has q) : p < q := by
  obtain ⟨hle, hends⟩ := top_le_bottom hx hy h
  refine lt_of_le_of_ne (hp.le.2.trans (hle.trans hq.le.1)) ?_
  rintro rfl
  have htop : p = x.cell.top := le_antisymm hp.le.2 (hle.trans hq.le.1)
  have hbottom : p = y.cell.bottom := le_antisymm (hp.le.2.trans hle) hq.le.1
  have hopen := hends (htop.symm.trans hbottom) (hp.closed_of_eq (.inr htop))
  rw [hq.closed_of_eq (.inl hbottom)] at hopen
  cases hopen

theorem significand_ne_zero_of_below (hx : x.Canonical) (hy : y.Canonical) (h : Below x y) :
    y.significand ≠ 0 := by
  rcases h with hexponent | ⟨-, hsignificand⟩
  · have hfull := hy.full (lt_of_le_of_lt hx.least_le hexponent)
    rw [leastFull_eq] at hfull
    omega
  · omega

theorem value_shortest_pos (hx : x.Canonical) (h : x.significand ≠ 0) : 0 < x.shortest.value :=
  (bottom_cell_pos h).trans_le (has_shortest hx h).le.1

theorem shortest_of_significand (h : x.significand = 0) : x.shortest = ⟨0, 0⟩ := by
  rw [shortest, if_pos (by simpa [isZero] using h)]

theorem exponent_shortest_of_digits (hx : x.Canonical) (h : x.shortest.digits = 0) :
    x.shortest.exponent = 0 := by
  by_cases hzero : x.significand = 0
  · rw [shortest_of_significand hzero]
  · have hpos := value_shortest_pos hx hzero
    rw [Decimal.value, h, Nat.cast_zero, zero_mul] at hpos
    exact absurd hpos (lt_irrefl _)

/-- Shortest decimals keep the order of their numbers. -/
theorem value_shortest_lt (hx : x.Canonical) (hy : y.Canonical) (h : Below x y) :
    x.shortest.value < y.shortest.value := by
  have hne := significand_ne_zero_of_below hx hy h
  by_cases hzero : x.significand = 0
  · have hvalue : x.shortest.value = 0 := by
      rw [shortest_of_significand hzero, Decimal.value, Nat.cast_zero, zero_mul]
    exact hvalue ▸ value_shortest_pos hy hne
  · exact lt_of_has_of_below hx hy h (has_shortest hx hzero) (has_shortest hy hne)

theorem below_or_below_of_ne (hsign : x.negative = y.negative) (h : x ≠ y) : Below x y ∨ Below y x := by
  by_contra hneither
  simp only [Below, not_or, not_and, not_lt] at hneither
  obtain ⟨⟨hexponent, hsignificand⟩, hexponent', hsignificand'⟩ := hneither
  have hsame := le_antisymm hexponent' hexponent
  refine h ?_
  rw [← show (⟨x.negative, x.significand, x.exponent⟩ : Binary64) = x from rfl, hsign, hsame,
    le_antisymm (hsignificand' hsame.symm) (hsignificand hsame)]

/-- A number is known by its sign and its shortest decimal. -/
theorem eq_of_value_shortest (hx : x.Canonical) (hy : y.Canonical) (hsign : x.negative = y.negative)
    (h : x.shortest.value = y.shortest.value) : x = y := by
  by_contra hne
  rcases below_or_below_of_ne hsign hne with hbelow | hbelow
  · exact (value_shortest_lt hx hy hbelow).ne h
  · exact (value_shortest_lt hy hx hbelow).ne h.symm

end Binary64

end ClassSchema
