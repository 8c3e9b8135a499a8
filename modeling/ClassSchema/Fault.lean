import ClassSchema.Suggestion
/-!
# Faults

What can go wrong while a schema is compiled, stored or read back. Each constructor is a cause with
its data; `Fault.message` is the one place that words it.
-/
namespace ClassSchema

inductive Fault where
  /-- A setting at `key` that makes no sense. -/
  | config (key message : String)
  /-- A setting at `key` whose value has the wrong shape. -/
  | settingShape (key : String)
  | unknownClass (name : String) (suggestion : Option String)
  | loaderTarget (loader target reason : String)
  | unknownLoader (id : String) (suggestion : Option String)
  | globPattern (pattern message : String)
  | malformedReference (text : String)
  | notCallable (reference reason : String)
  | malformedPath (path : String)
  | pathConflict (path segment : String)
  | descriptor (path message : String)
  /-- A descriptor file that does not parse or has the wrong shape. -/
  | descriptorShape (path : String)
  | duplicateClass (name first second : String)
  | unresolvedField (type field : String)
  | unknownType (type field target : String)
  | duplicateType (name : String)
  | staging (schema message : String)
  | template (name message : String)
  /-- A template that does not parse, or one that fails while it is rendered. -/
  | templateText (name : String)
  | notBuilt (schema : String)
  | artifactMissing (schema name : String)
  /-- Files that cannot be read or written. -/
  | io
  /-- A directory that cannot be walked. -/
  | walk
  /-- JSON text that does not parse, or a value of the wrong shape. -/
  | json
  | toml
  /-- Configuration files or variables that do not parse or have the wrong shape. -/
  | configSource
deriving DecidableEq, Repr

namespace Fault

/-- Stands for a detail that this library leaves open. -/
def detail : String := "malformed input"

def message : Fault → String
  | .config key message => s!"Invalid configuration at '{key}': {message}"
  | .settingShape key => s!"Invalid configuration at '{key}': {detail}"
  | .unknownClass name suggestion => s!"Unknown class '{name}'{hint suggestion}"
  | .loaderTarget loader target reason => s!"Loader '{loader}' rejected target '{target}': {reason}"
  | .unknownLoader id suggestion => s!"Unknown bulk loader '{id}'{hint suggestion}"
  | .globPattern pattern message => s!"Invalid glob pattern '{pattern}': {message}"
  | .malformedReference text =>
    s!"Invalid resolver reference '{text}': expected 'Owner::method' or [owner, method]"
  | .notCallable reference reason => s!"Resolver '{reference}' is not callable: {reason}"
  | .malformedPath path => s!"Invalid settings path '{path}'"
  | .pathConflict path segment => s!"Cannot set '{path}': segment '{segment}' is not a map"
  | .descriptor path message => s!"Invalid class descriptor {path}: {message}"
  | .descriptorShape path => s!"Invalid class descriptor {path}: {detail}"
  | .duplicateClass name first second => s!"Class '{name}' declared twice: {first} and {second}"
  | .unresolvedField type field => s!"No resolver found for field '{field}' on type '{type}'"
  | .unknownType type field target =>
    s!"Field '{field}' on type '{type}' references unknown type '{target}'"
  | .duplicateType name => s!"Type name '{name}' is defined more than once"
  | .staging schema message => s!"Failed to stage schema '{schema}': {message}"
  | .template name message => s!"Template '{name}' failed: {message}"
  | .templateText name => s!"Template '{name}' failed: {detail}"
  | .notBuilt schema => s!"Schema '{schema}' has not been built"
  | .artifactMissing schema name => s!"Artifact '{name}' not found in schema '{schema}'"
  | .io => s!"IO error: {detail}"
  | .walk => s!"Directory walk error: {detail}"
  | .json => s!"JSON error: {detail}"
  | .toml => s!"TOML error: {detail}"
  | .configSource => s!"Configuration source error: {detail}"

/-- Faults that building the schema anew may cure. -/
def isStale : Fault → Bool
  | .notBuilt _ | .artifactMissing _ _ => true
  | _ => false

end Fault

/-- Every item in order, up to the first fault. -/
def traverse (f : α → Except ε β) : List α → Except ε (List β)
  | [] => .ok []
  | x :: xs =>
    match f x with
    | .error e => .error e
    | .ok y =>
      match traverse f xs with
      | .error e => .error e
      | .ok ys => .ok (y :: ys)

/-- A check of every item in order, up to the first fault. -/
def checkEach (f : α → Except ε Unit) : List α → Except ε Unit
  | [] => .ok ()
  | x :: xs =>
    match f x with
    | .error e => .error e
    | .ok () => checkEach f xs

theorem checkEach_eq_ok_iff (f : α → Except ε Unit) (l : List α) :
    checkEach f l = .ok () ↔ ∀ x ∈ l, f x = .ok () := by
  induction l with
  | nil => simp [checkEach]
  | cons x xs ih => cases h : f x <;> simp [checkEach, h, ih]

end ClassSchema
