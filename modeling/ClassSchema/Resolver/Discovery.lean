import ClassSchema.Name
import ClassSchema.Resolver.Builtin
/-!
# Discovery by convention

A field without an explicit resolver gets the first primary whose name follows the convention, the
most specific name first and for each name the first provider in order; failing that the default of
its model, then the global default.
-/
namespace ClassSchema

/-- A list without repetitions, each item kept where it first stands. -/
def firstOccurrences [DecidableEq α] : List α → List α
  | [] => []
  | x :: xs => x :: (firstOccurrences xs).filter (· ≠ x)

namespace Convention

def strategyName : String := "convention"

/-- The names the convention allows for a field, the most specific first. -/
def spelledNames (site : FieldSite) : List String :=
  let type := pascalCase site.type
  let field := pascalCase site.field
  ["resolve" ++ type ++ field, "resolve" ++ type] ++
    (match site.model with
      | some model => ["resolve" ++ pascalCase model ++ field]
      | none => []) ++
    ["resolve" ++ field, "resolve"]

/-- The same names, each once. -/
def candidates (site : FieldSite) : List String := firstOccurrences (spelledNames site)

/-- The first provider that has a primary of one of the names, the names in order. -/
def search (providers : List Provider) : List String → Option Reference
  | [] => none
  | name :: names =>
    match providers.find? (·.hasPrimary name) with
    | some p => some (p.reference name)
    | none => search providers names

def strategy : Strategy := fun providers site => search providers (candidates site)

end Convention

/-- The strategy's answer, else the model's default, else the global default. -/
def discover (strategy : Strategy) (providers : List Provider) (site : FieldSite)
    (modelDefault globalDefault : Option Reference) : Except Fault Reference :=
  match strategy providers site with
  | some r => .ok r
  | none =>
    match modelDefault with
    | some r => .ok r
    | none =>
      match globalDefault with
      | some r => .ok r
      | none => .error (.unresolvedField site.type site.field)

/-- The built-in provider and the convention. -/
def Registry.withBuiltins : Registry :=
  (Registry.empty.register Builtin.provider).registerStrategy Convention.strategyName
    Convention.strategy

end ClassSchema
