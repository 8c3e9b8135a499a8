/-!
# Binary floating-point numbers

A finite number of the 64-bit binary format is `± significand · 2 ^ exponent`. `nearest?` rounds a
quotient of natural numbers to that grid, a tie going to the even neighbour, and answers `none`
where the result would be infinite.
-/
namespace ClassSchema

/-- A finite number of the 64-bit binary format. -/
structure Binary64 where
  negative : Bool
  /-- Below `2 ^ 53`, and at least `2 ^ 52` unless the exponent is the least one. -/
  significand : Nat
  /-- Between `-1074` and `971`. -/
  exponent : Int
deriving DecidableEq, Repr, Inhabited

namespace Binary64

def leastExponent : Int := -1074

def greatestExponent : Int := 971

/-- `2 ^ 52`, the least significand that has all its digits. -/
def leastFull : Nat := 1 <<< 52

def zero (negative : Bool) : Binary64 := ⟨negative, 0, leastExponent⟩

def isZero (x : Binary64) : Bool := x.significand = 0

/-- The quotient of two natural numbers rounded to a natural number, a half going to the even one. -/
def roundedQuotient (num den : Nat) : Nat :=
  let q := num / den
  let r := num % den
  if 2 * r < den ∨ 2 * r = den ∧ q % 2 = 0 then q else q + 1

/-- A quotient divided by `2 ^ exponent`, again as a quotient. -/
def scaled (num den : Nat) (exponent : Int) : Nat × Nat :=
  if 0 ≤ exponent then (num, den <<< exponent.toNat) else (num <<< (-exponent).toNat, den)

/-- The exponent at which the integer part of the quotient has 53 binary digits, or the least one. -/
def fittingExponent (num den : Nat) : Int :=
  let low := max ((num.log2 : Int) - den.log2 - 53) leastExponent
  let part := scaled num den low
  if part.1 / part.2 ≥ 2 * leastFull then low + 1 else low

/-- The number of the format nearest to `± num / den`. -/
def nearest? (negative : Bool) (num den : Nat) : Option Binary64 :=
  if num = 0 then some (zero negative)
  else
    let e := fittingExponent num den
    let part := scaled num den e
    let m := roundedQuotient part.1 part.2
    let (m, e) := if m = 2 * leastFull then (leastFull, e + 1) else (m, e)
    if e > greatestExponent then none
    else if m = 0 then some (zero negative)
    else some ⟨negative, m, e⟩

/-- The absolute value as a quotient of natural numbers. -/
def quotient (x : Binary64) : Nat × Nat :=
  if 0 ≤ x.exponent then (x.significand <<< x.exponent.toNat, 1)
  else (x.significand, 1 <<< (-x.exponent).toNat)

/-- The nearest number to a product of absolute values. -/
def times? (x y : Binary64) : Option Binary64 :=
  let (a, b) := x.quotient
  let (c, d) := y.quotient
  nearest? false (a * c) (b * d)

/-- The nearest number to a quotient of absolute values, by a divisor that is not zero. -/
def over? (x y : Binary64) : Option Binary64 :=
  let (a, b) := x.quotient
  let (c, d) := y.quotient
  nearest? false (a * d) (b * c)

def negated (x : Binary64) (negative : Bool) : Binary64 := { x with negative }

/-- The number nearest to the decimal `± digits · 10 ^ exponent`. -/
def ofDecimal? (negative : Bool) (digits : Nat) (exponent : Int) : Option Binary64 :=
  let size : Int := (Nat.toDigits 10 digits).length
  if digits = 0 ∨ size + exponent < -400 then some (zero negative)
  else if size + exponent > 400 then none
  else if 0 ≤ exponent then nearest? negative (digits * Nat.pow 10 exponent.toNat) 1
  else nearest? negative digits (Nat.pow 10 (-exponent).toNat)

/-- Numbers compare by value, so the two zeros are the same. -/
def same (x y : Binary64) : Bool := x = y ∨ x.isZero ∧ y.isZero

end Binary64
end ClassSchema
