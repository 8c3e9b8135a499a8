import ClassSchema.Value.FloatWord
/-!
# The order of values

Numbers are ordered exactly, whatever their sorts; texts and truth values among themselves. A number
is also ordered against a text that spells one. Other values have no order.
-/
namespace ClassSchema

namespace Number

/-- The value as a fraction. -/
def fraction : Number → Int × Nat
  | .integer i => (i, 1)
  | .float x =>
    let (num, den) := x.quotient
    (if x.negative then -(num : Int) else num, den)

/-- The order of two numbers. -/
def order (m n : Number) : Ordering :=
  compare (m.fraction.1 * n.fraction.2) (n.fraction.1 * m.fraction.2)

/-- The float nearest to a number. -/
def rounded (n : Number) : Number :=
  match n with
  | .float x => .float x
  | .integer i => (Binary64.nearest? (i < 0) i.natAbs 1).elim n .float

/-- The order of a number, as a float, and of the float that a text spells. -/
def orderWithText? (n : Number) (text : String) : Option Ordering :=
  match FloatWord.read? text.toList with
  | some (.number m) => some (n.rounded.order m)
  | some (.notFinite (.infinite negative)) => some (if negative then .gt else .lt)
  | _ => none

end Number

/-- The order of two values, if they have one. -/
def Value.order? : Value → Value → Option Ordering
  | .number m, .number n => some (m.order n)
  | .string s, .string t => some (compare s t)
  | .bool a, .bool b => some (compare a b)
  | .number n, .string s => n.orderWithText? s
  | .string s, .number n => (n.orderWithText? s).map Ordering.swap
  | _, _ => none

end ClassSchema
