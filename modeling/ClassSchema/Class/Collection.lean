import ClassSchema.Dict
import ClassSchema.Files.Path
/-!
# Collections

A collection maps class names to the files that declare them. Filters narrow it; `restrictTo` keeps
the classes that another collection has.
-/
namespace ClassSchema

abbrev Collection := Dict String

namespace Collection

def restrictTo (a b : Collection) : Collection := a.filter fun name _ => b.contains name

/-- Whether every class of `a` is in `b`. -/
def isWithin (a b : Collection) : Bool := a.keys.all b.contains

/-- Whether both hold the same classes with the same files. -/
def agrees (a b : Collection) : Bool :=
  a.keys = b.keys && (a.values.zip b.values).all fun p => Path.same p.1 p.2

end Collection
end ClassSchema
