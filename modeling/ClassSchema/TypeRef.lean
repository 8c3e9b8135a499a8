import ClassSchema.Text.Blank
/-!
# Type references

A type reference wraps a named type in list brackets and non-null marks. `baseType` finds the named
type, `rebase` puts another in its place.
-/
namespace ClassSchema

def isTypeCloser (c : Char) : Bool := c = ']' || c = '!'

/-- The opening brackets of a trimmed reference. -/
def typeOpening (s : List Char) : List Char := s.takeWhile (· = '[')

/-- What stands between the opening brackets and the closing brackets and marks. -/
def typeCore (s : List Char) : List Char := dropLastWhile isTypeCloser (s.dropWhile (· = '['))

/-- The closing brackets and marks, apart from the opening brackets. -/
def typeClosing (s : List Char) : List Char :=
  ((s.dropWhile (· = '[')).reverse.takeWhile isTypeCloser).reverse

/-- The named type inside a reference. -/
def baseType (ref : String) : String := String.ofList (typeCore (trimmedChars ref.toList))

/-- The place of the first occurrence of `part` in a text. -/
def findPart (part : List Char) : List Char → Option Nat
  | [] => if part.isEmpty then some 0 else none
  | c :: cs => if part.isPrefixOf (c :: cs) then some 0 else (findPart part cs).map (· + 1)

/-- Swaps the named type at its first occurrence; an empty one stands at the front. -/
def rebase (ref base : String) : String :=
  let s := trimmedChars ref.toList
  let core := typeCore s
  match findPart core s with
  | some n => String.ofList (s.take n ++ base.toList ++ s.drop (n + core.length))
  | none => base

end ClassSchema
