import ClassSchema.Resolver.Reference
/-!
# Resolver chains

A bound chain runs its middleware, its primary function and its afterware in this order. Middleware
hand the source on, the primary turns it into a result, afterware hand the result on; any of the steps
may finish the run, and a failure is reported with the step it came from.
-/
namespace ClassSchema

/-- What a resolver function is given besides the value. -/
structure Call where
  field : String
  args : Dict Value
  /-- The static context of the function. -/
  context : Dict Value
  request : Value

/-- A failure while a field is resolved. -/
inductive ResolveFault where
  | failed (message : String)
  | step (reference : String) (args : Dict Value) (cause : ResolveFault)

namespace ResolveFault

def message : ResolveFault → String
  | .failed m => m
  | .step reference args cause =>
    s!"Resolver step '{reference}' failed (args: {(Value.table args).text}): {cause.message}"

/-- The innermost failure. -/
def rootCause : ResolveFault → ResolveFault
  | .failed m => .failed m
  | .step _ _ cause => cause.rootCause

end ResolveFault

/-- What a chain step hands back: a value for the next function, or the final one. -/
inductive Step where
  | next (v : Value)
  | done (v : Value)

abbrev Primary := Value → Call → Except ResolveFault Value

abbrev ChainStep := Value → Call → Except ResolveFault Step

/-- A function bound to its reference and static context. -/
structure Bound (α : Type) where
  reference : Reference
  run : α
  context : Dict Value

/-- The request a chain answers. -/
structure Request where
  field : String
  args : Dict Value
  request : Value

def Request.call (r : Request) (context : Dict Value) : Call :=
  ⟨r.field, r.args, context, r.request⟩

/-- Names the step a failure came from. -/
def blame (reference : Reference) (args : Dict Value) (outcome : Except ResolveFault α) :
    Except ResolveFault α :=
  match outcome with
  | .ok a => .ok a
  | .error cause => .error (.step reference.text args cause)

def Bound.runStep (b : Bound ChainStep) (v : Value) (r : Request) : Except ResolveFault Step :=
  blame b.reference r.args (b.run v (r.call b.context))

def Bound.runPrimary (b : Bound Primary) (v : Value) (r : Request) : Except ResolveFault Value :=
  blame b.reference r.args (b.run v (r.call b.context))

/-- Runs steps in order until one of them is done. -/
def runSteps (r : Request) : List (Bound ChainStep) → Value → Except ResolveFault Step
  | [], v => .ok (.next v)
  | b :: rest, v =>
    match b.runStep v r with
    | .error e => .error e
    | .ok (.done w) => .ok (.done w)
    | .ok (.next w) => runSteps r rest w

/-- A chain whose references are all bound. -/
structure Chain where
  middleware : List (Bound ChainStep)
  primary : Bound Primary
  afterware : List (Bound ChainStep)

namespace Chain

/-- References in the order of running. -/
def steps (c : Chain) : List Reference :=
  c.middleware.map (·.reference) ++ c.primary.reference :: c.afterware.map (·.reference)

def resolve (c : Chain) (source : Value) (r : Request) : Except ResolveFault Value :=
  match runSteps r c.middleware source with
  | .error e => .error e
  | .ok (.done v) => .ok v
  | .ok (.next v) =>
    match c.primary.runPrimary v r with
    | .error e => .error e
    | .ok w =>
      match runSteps r c.afterware w with
      | .error e => .error e
      | .ok (.done w) => .ok w
      | .ok (.next w) => .ok w

end Chain
end ClassSchema
