import ClassSchema.Decimal.Binary64
/-!
# Shortest decimal text

`shortest` finds the fewest decimal digits that still name a given binary number, and among those
the decimal nearest to it. Two layouts write them: `numeral` keeps a mark of being a float and turns
to an exponent outside a middle range, `plainNumeral` is always positional.
-/
namespace ClassSchema

/-- `digits · 10 ^ exponent`. -/
structure Decimal where
  digits : Nat
  exponent : Int
deriving DecidableEq, Repr

namespace Decimal

/-- Compares `c · 10 ^ s` with the quotient `num / den`. -/
def compareQuotient (c : Nat) (s : Int) (num den : Nat) : Ordering :=
  if 0 ≤ s then compare (c * Nat.pow 10 s.toNat * den) num
  else compare (c * den) (num * Nat.pow 10 (-s).toNat)

/-- Climbs to the greatest `k`, at most `steps` further, with `10 ^ k ≤ num / den`. -/
def climb (num den : Nat) : Nat → Int → Int
  | 0, k => k
  | steps + 1, k => if (compareQuotient 1 (k + 1) num den).isLE then climb num den steps (k + 1) else k

/-- The exponent of the leading decimal digit of `num / den`. -/
def leadingExponent (num den : Nat) : Int :=
  climb num den 4 (((num.log2 : Int) - den.log2) * 30103 / 100000 - 2)

/-- The integer part of `num / den` divided by `10 ^ s`. -/
def floorAt (num den : Nat) (s : Int) : Nat :=
  if 0 ≤ s then num / (den * Nat.pow 10 s.toNat) else num * Nat.pow 10 (-s).toNat / den

/-- Drops zeros from the end of the digits. -/
def trimmed : Nat → Decimal → Decimal
  | 0, d => d
  | fuel + 1, d => if d.digits % 10 = 0 then trimmed fuel ⟨d.digits / 10, d.exponent + 1⟩ else d

/-- A binary number as the quotient `value / den`, with the ends of the interval that rounds to it. -/
structure Cell where
  value : Nat
  low : Nat
  high : Nat
  den : Nat
  closed : Bool

/-- Whether `c · 10 ^ s` lies in the cell. -/
def Cell.holds (cell : Cell) (c : Nat) (s : Int) : Bool :=
  match compareQuotient c s cell.low cell.den, compareQuotient c s cell.high cell.den with
  | .gt, .lt => true
  | .eq, _ => cell.closed
  | _, .eq => cell.closed
  | _, _ => false

/-- The nearer of `c` and `c + 1` at scale `s`, the even one of a tie. -/
def Cell.nearer (cell : Cell) (c : Nat) (s : Int) : Nat :=
  match compareQuotient (2 * c + 1) s (2 * cell.value) cell.den with
  | .gt => c
  | .lt => c + 1
  | .eq => if c % 2 = 0 then c else c + 1

/-- Tries ever finer decimal grids, the first at scale `s`. -/
def Cell.search (cell : Cell) : Nat → Int → Decimal
  | 0, s => ⟨floorAt cell.value cell.den s, s⟩
  | grids + 1, s =>
    let c := floorAt cell.value cell.den s
    match cell.holds c s, cell.holds (c + 1) s with
    | true, true => ⟨cell.nearer c s, s⟩
    | true, false => ⟨c, s⟩
    | false, true => ⟨c + 1, s⟩
    | false, false => cell.search grids (s - 1)

end Decimal

namespace Binary64

/-- The interval of reals that round to a positive number, over a common denominator. -/
def cell (x : Binary64) : Decimal.Cell :=
  let low := if x.significand = leastFull ∧ x.exponent > leastExponent then 1 else 2
  let q := x.exponent - 2
  let num := if 0 ≤ q then 1 <<< q.toNat else 1
  { value := 4 * x.significand * num
    low := (4 * x.significand - low) * num
    high := (4 * x.significand + 2) * num
    den := if 0 ≤ q then 1 else 1 <<< (-q).toNat
    closed := x.significand % 2 = 0 }

/-- The shortest decimal that rounds to a number, the nearest of those. -/
def shortest (x : Binary64) : Decimal :=
  if x.isZero then ⟨0, 0⟩
  else
    let cell := x.cell
    .trimmed 20 (cell.search 18 (Decimal.leadingExponent cell.value cell.den))

end Binary64

namespace Decimal

def digitChars (d : Decimal) : List Char := Nat.toDigits 10 d.digits

def zeros (n : Nat) : List Char := List.replicate n '0'

/-- Digits with the point in place; `whole` follows a number without a fraction. -/
def positional (d : Decimal) (whole : List Char) : List Char :=
  let ds := d.digitChars
  let point : Int := ds.length + d.exponent
  if 0 ≤ d.exponent then ds ++ zeros d.exponent.toNat ++ whole
  else if 0 < point then ds.take point.toNat ++ '.' :: ds.drop point.toNat
  else '0' :: '.' :: zeros (-point).toNat ++ ds

/-- One digit, the others as a fraction, and a signed power of ten. -/
def scientific (d : Decimal) : List Char :=
  let ds := d.digitChars
  let power : Int := ds.length + d.exponent - 1
  let fraction := match ds.drop 1 with
    | [] => []
    | rest => '.' :: rest
  ds.take 1 ++ fraction ++ 'e' :: (if power < 0 then '-' else '+') :: Nat.toDigits 10 power.natAbs

end Decimal

namespace Binary64

def signed (x : Binary64) (text : List Char) : List Char :=
  if x.negative then '-' :: text else text

/-- Positional from `0.00001` up to sixteen digits before the point, else with an exponent; a whole
number keeps `.0`. -/
def numeral (x : Binary64) : List Char :=
  let d := x.shortest
  let power : Int := d.digitChars.length + d.exponent - 1
  x.signed (if -5 ≤ power ∧ power < 16 then d.positional ['.', '0'] else d.scientific)

/-- Always positional; a whole number has no point. -/
def plainNumeral (x : Binary64) : List Char := x.signed (x.shortest.positional [])

end Binary64
end ClassSchema
