/-!
# Ranges of characters

Classes of characters given as tables: pairs of a first and a last number, in order.
-/
namespace ClassSchema

/-- Whether the number of a character lies in one of the ranges. -/
def inRanges (ranges : Array (Nat × Nat)) (c : Char) : Bool :=
  ranges.any fun r => r.1 ≤ c.toNat && c.toNat ≤ r.2

end ClassSchema
