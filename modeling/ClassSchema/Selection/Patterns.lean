/-!
# Include and exclude patterns

An item is kept when the include list is empty or one of its patterns matches, and no pattern of the
exclude list does.
-/
namespace ClassSchema

structure Patterns where
  includes : List String
  excludes : List String
deriving DecidableEq, Repr, Inhabited

namespace Patterns

def isEmpty (p : Patterns) : Bool := p.includes.isEmpty && p.excludes.isEmpty

/-- Every pattern, includes first. -/
def all (p : Patterns) : List String := p.includes ++ p.excludes

def keeps (p : Patterns) (isMatch : String → Bool) : Bool :=
  (p.includes.isEmpty || p.includes.any isMatch) && !p.excludes.any isMatch

end Patterns
end ClassSchema
