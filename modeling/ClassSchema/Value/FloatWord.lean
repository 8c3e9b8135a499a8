import ClassSchema.Value.Reader
/-!
# Floats as words

A float as people write it: a sign, digits that may be missing on one side of the point, an exponent,
or a word for what is no finite number.
-/
namespace ClassSchema.FloatWord

/-- Parts a sign from what follows; tells whether it is a minus. -/
def splitSign : List Char → Bool × List Char
  | '+' :: s => (false, s)
  | '-' :: s => (true, s)
  | s => (false, s)

/-- Digits only, and at least one. -/
def digits? (s : List Char) : Option (List Char) :=
  if !s.isEmpty && s.all isDigit then some s else none

def isExponentMark (c : Char) : Bool := c = 'e' || c = 'E'

def exponent? (s : List Char) : Option Int := do
  let (minus, ds) := splitSign s
  let n : Int := digitsValue (← digits? ds)
  return if minus then -n else n

/-- Words for what is no finite number. -/
def notFinite? (minus : Bool) (s : List Char) : Option NotFinite :=
  Dict.lookup (String.ofList s).toLower
    [("inf", .infinite minus), ("infinity", .infinite minus), ("nan", .undefined)]

/-- A float without its sign. What is too large is infinite. -/
def unsigned? (minus : Bool) (s : List Char) : Option Datum := do
  let mantissa := s.takeWhile (!isExponentMark ·)
  let power ← match s.dropWhile (!isExponentMark ·) with
    | [] => some 0
    | _ :: e => exponent? e
  let whole := mantissa.takeWhile (· ≠ '.')
  let fraction := (mantissa.dropWhile (· ≠ '.')).drop 1
  let ds ← digits? (whole ++ fraction)
  match Binary64.ofDecimal? minus (digitsValue ds) (power - fraction.length) with
  | some x => return .number (.float x)
  | none => return .notFinite (.infinite minus)

/-- The float that a word spells. -/
def read? (s : List Char) : Option Datum :=
  let (minus, s) := splitSign s
  match notFinite? minus s with
  | some x => some (.notFinite x)
  | none => unsigned? minus s

end ClassSchema.FloatWord
