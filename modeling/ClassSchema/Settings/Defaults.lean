import ClassSchema.Resolver.Discovery
import ClassSchema.Settings.Tree
/-!
# Settings of a whole schema

Which providers are searched, by which strategy, with which default, and what each kind of model is
configured with.
-/
namespace ClassSchema.Settings

/-- Names that differ in the case of ASCII letters at most. -/
def sameLetters (a b : String) : Bool := a.toLower = b.toLower

/-- The configuration of a kind of model; a name in other letter case is found as well. -/
def modelConfig (d : Settings) (kind : String) : Option (Dict Value) :=
  (d.get? "modelConfig").bind Value.table? |>.bind fun configs =>
    match configs.get? kind with
    | some v => v.table?
    | none => (configs.entries.find? fun e => sameLetters e.1 kind).bind (·.2.table?)

def resolverProviders (d : Settings) : Except Fault (List String) :=
  d.sectionOr (Value.asList Value.asString) "resolvers" []

def defaultResolver (d : Settings) : Except Fault (Option Reference) :=
  match d.get? "defaultResolver" with
  | none | some .null => .ok none
  | some v =>
    match Reference.ofValue v with
    | .error e => .error e
    | .ok r => .ok (some r)

def resolverStrategy (d : Settings) : Except Fault String :=
  d.sectionOr Value.asString "resolverStrategy" Convention.strategyName

end ClassSchema.Settings
