import ClassSchema.Text.Lower
import ClassSchema.Value.FloatWord
/-!
# Environment variables

Variables whose names begin with a fixed text, in any letter case, give configuration: two underscores
part the names of a path, and values are truth values, numbers or text by their looks.
-/
namespace ClassSchema.Config

/-- What the names of variables begin with. -/
def variablePrefix : String := "schema_compiler__"

/-- Dots in place of double underscores. -/
def dotted : List Char → List Char
  | '_' :: '_' :: rest => '.' :: dotted rest
  | c :: rest => c :: dotted rest
  | [] => []

/-- The path that a variable sets, if it is meant for this program. -/
def variablePath? (name : String) : Option String :=
  let s := (lowered name).toList
  let start := variablePrefix.toList
  if start.isPrefixOf s then some (String.ofList (dotted (s.drop start.length))) else none

/-- An integer of 64 bits; zeros may lead. -/
def integerWord? (s : List Char) : Option Number := do
  let (minus, ds) := FloatWord.splitSign s
  let n : Int := digitsValue (← FloatWord.digits? ds)
  let i := if minus then -n else n
  if Number.isSignedWord i then return .integer i else none

/-- The value of a variable. -/
def variableValue (text : String) : Datum :=
  let small := lowered text
  if small = "true" then .bool true
  else if small = "false" then .bool false
  else
    match integerWord? text.toList with
    | some n => .number n
    | none => (FloatWord.read? text.toList).getD (.string text)

/-- What the variables of the environment give. -/
def ofVariables (environment : List (String × String)) : List (String × Datum) :=
  environment.filterMap fun e => (variablePath? e.1).map fun path => (path, variableValue e.2)

end ClassSchema.Config
