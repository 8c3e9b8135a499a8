import ClassSchema.Resolver.Chain
/-!
# Resolver registry

A provider is a table of functions by method name, each a primary or a chain step. The registry holds
providers and discovery strategies by name and answers which function stands behind a reference.
-/
namespace ClassSchema

inductive Callable where
  | primary (run : Primary)
  | chainStep (run : ChainStep)

/-- What a message calls a function of this sort. -/
def Callable.sortName : Callable → String
  | .primary _ => "resolver"
  | .chainStep _ => "chain step"

structure Provider where
  name : String
  methods : Dict Callable

namespace Provider

def new (name : String) : Provider := ⟨name, .empty⟩

def withPrimary (p : Provider) (method : String) (run : Primary) : Provider :=
  { p with methods := p.methods.insert method (.primary run) }

def withStep (p : Provider) (method : String) (run : ChainStep) : Provider :=
  { p with methods := p.methods.insert method (.chainStep run) }

/-- Whether a method is registered as a primary. -/
def hasPrimary (p : Provider) (method : String) : Bool :=
  match p.methods.get? method with
  | some (.primary _) => true
  | _ => false

def reference (p : Provider) (method : String) : Reference := ⟨p.name, method⟩

end Provider

/-- The field a resolver is looked for. -/
structure FieldSite where
  type : String
  field : String
  /-- The kind of model behind the type, if any. -/
  model : Option String

/-- A way to find the primary of a field among providers in order. -/
abbrev Strategy := List Provider → FieldSite → Option Reference

structure Registry where
  providers : Dict Provider
  strategies : Dict Strategy

namespace Registry

def empty : Registry := ⟨.empty, .empty⟩

/-- Adds a provider under its name, in place of another of that name. -/
def register (r : Registry) (p : Provider) : Registry :=
  { r with providers := r.providers.insert p.name p }

def registerStrategy (r : Registry) (name : String) (s : Strategy) : Registry :=
  { r with strategies := r.strategies.insert name s }

def provider (r : Registry) (name : String) : Except Fault Provider :=
  match r.providers.get? name with
  | some p => .ok p
  | none =>
    .error (.config "resolvers"
      s!"unknown resolver provider '{name}'{hint (suggest? name r.providers.keys)}")

/-- The providers of the given names, in their order. -/
def providersInOrder (r : Registry) (names : List String) : Except Fault (List Provider) :=
  traverse r.provider names

def strategy (r : Registry) (name : String) : Except Fault Strategy :=
  match r.strategies.get? name with
  | some s => .ok s
  | none => .error (.config "resolverStrategy" s!"unknown discovery strategy '{name}'")

/-- The function behind a reference. -/
def callable (r : Registry) (ref : Reference) : Except Fault Callable :=
  match r.providers.get? ref.owner with
  | none => .error (.notCallable ref.text s!"no provider named '{ref.owner}'")
  | some p =>
    match p.methods.get? ref.method with
    | some c => .ok c
    | none =>
      .error (.notCallable ref.text
        s!"no method '{ref.method}'{hint (suggest? ref.method p.methods.keys)}")

def wrongSort (ref : Reference) (found : Callable) (expected : String) : Fault :=
  .notCallable ref.text s!"registered as a {found.sortName}, expected a {expected}"

/-- The function for a primary position. -/
def primary (r : Registry) (ref : Reference) : Except Fault Primary :=
  match r.callable ref with
  | .error e => .error e
  | .ok (.primary run) => .ok run
  | .ok c => .error (wrongSort ref c "resolver")

/-- The function for a middleware or afterware position. -/
def chainStep (r : Registry) (ref : Reference) : Except Fault ChainStep :=
  match r.callable ref with
  | .error e => .error e
  | .ok (.chainStep run) => .ok run
  | .ok c => .error (wrongSort ref c "chain step")

/-- A reference from settings that must name a primary. -/
def reference (r : Registry) (v : Value) : Except Fault Reference :=
  match Reference.ofValue v with
  | .error e => .error e
  | .ok ref =>
    match r.primary ref with
    | .error e => .error e
    | .ok _ => .ok ref

end Registry
end ClassSchema
