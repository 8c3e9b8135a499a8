import ClassSchema.Resolver.Registry
/-!
# Resolver plans

A plan names a function, the plans that run before and after it, and its static context. It is plain
data: it is written as text into generated artifacts, and bound against a registry when a field is
resolved. Plans around a step are spliced in place, and every step sees the context of the root
overlaid by its own.
-/
namespace ClassSchema

structure Plan where
  reference : Reference
  middleware : List Plan
  afterware : List Plan
  context : Dict Value
deriving Repr

namespace Plan

instance : Inhabited Plan := ⟨⟨default, [], [], .empty⟩⟩

def new (reference : Reference) : Plan := ⟨reference, [], [], .empty⟩

def before (p step : Plan) : Plan := { p with middleware := p.middleware ++ [step] }

def after (p step : Plan) : Plan := { p with afterware := p.afterware ++ [step] }

mutual

/-- Whether a value holds no table at any depth. -/
def isStatic : Value → Bool
  | .table _ => false
  | .list items => areStatic items
  | _ => true

def areStatic : List Value → Bool
  | [] => true
  | v :: vs => isStatic v && areStatic vs

end

/-- A context value must be a scalar, or a list of such values at any depth. -/
def checkContextValue (key : String) (v : Value) : Except Fault Unit :=
  if isStatic v then .ok ()
  else .error (.config s!"context.{key}" "static resolver context accepts scalars and arrays only")

/-- Adds one entry to the context. -/
def withContext (p : Plan) (key : String) (v : Value) : Except Fault Plan :=
  match checkContextValue key v with
  | .error e => .error e
  | .ok () => .ok { p with context := p.context.insert key v }

/-- Puts a whole context in place of the old one. -/
def withContextTable (p : Plan) (context : Dict Value) : Except Fault Plan :=
  match checkEach (fun e => checkContextValue e.1 e.2) context.entries with
  | .error e => .error e
  | .ok () => .ok { p with context }

mutual

/-- The entries of a plan in the order they are written; empty parts are left out. -/
def entries : Plan → List (String × Value)
  | ⟨reference, middleware, afterware, context⟩ =>
    ("ref", .string reference.text) ::
      ((match middleware with
        | [] => []
        | ps => [("middleware", .list (values ps))]) ++
      ((match afterware with
        | [] => []
        | ps => [("afterware", .list (values ps))]) ++
      (if context.isEmpty then [] else [("context", .table context)])))

def values : List Plan → List Value
  | [] => []
  | p :: ps => .table ⟨p.entries⟩ :: values ps

end

/-- A plan as a value, its entries in writing order. -/
def value (p : Plan) : Value := .table ⟨p.entries⟩

/-- The text of a plan as artifacts hold it. -/
def text (p : Plan) : String := p.value.text

/-- The parts of a plan that have been read so far. -/
structure Draft where
  reference : Option Reference := none
  middleware : Option (List Plan) := none
  afterware : Option (List Plan) := none
  context : Option (Dict Value) := none

/-- A plan needs its reference; the other parts may be missing. -/
def Draft.finish (d : Draft) : Option Plan := do
  return ⟨← d.reference, d.middleware.getD [], d.afterware.getD [], d.context.getD .empty⟩

mutual

/-- Reads a plan from a table, or from the list of its parts. A part given twice is refused. -/
def decode : Value → Option Plan
  | .table ⟨entries⟩ => (decodeEntries entries).bind Draft.finish
  | .list [r] => do return ⟨← Reference.decode r, [], [], .empty⟩
  | .list [r, .list m] => do return ⟨← Reference.decode r, ← decodeEach m, [], .empty⟩
  | .list [r, .list m, .list a] => do
    return ⟨← Reference.decode r, ← decodeEach m, ← decodeEach a, .empty⟩
  | .list [r, .list m, .list a, c] => do
    return ⟨← Reference.decode r, ← decodeEach m, ← decodeEach a, ← c.asTable⟩
  | _ => none

def decodeEach : List Value → Option (List Plan)
  | [] => some []
  | v :: vs => do return (← decode v) :: (← decodeEach vs)

def decodeEntries : List (String × Value) → Option Draft
  | [] => some {}
  | (key, v) :: es => do
    let d ← decodeEntries es
    if key = "ref" then
      if d.reference.isSome then none
      else return { d with reference := some (← Reference.decode v) }
    else if key = "middleware" then
      match v with
      | .list items =>
        if d.middleware.isSome then none
        else return { d with middleware := some (← decodeEach items) }
      | _ => none
    else if key = "afterware" then
      match v with
      | .list items =>
        if d.afterware.isSome then none
        else return { d with afterware := some (← decodeEach items) }
      | _ => none
    else if key = "context" then
      if d.context.isSome then none
      else return { d with context := some (← v.asTable) }
    else return d

end

/-- What the text of a plan is asked for. -/
def shape : Shape :=
  .record [("ref", .any), ("middleware", .list .again), ("afterware", .list .again),
    ("context", .any)]

/-- Reads a plan from its text. -/
def ofText? (s : String) : Option Plan := (shape.ofText? s).bind decode

mutual

/-- The steps of a plan that stands in a chain: those before it, itself, those after it. -/
def bindStep (registry : Registry) (root : Dict Value) : Plan → Except Fault (List (Bound ChainStep))
  | ⟨reference, middleware, afterware, context⟩ =>
    match bindSteps registry root middleware with
    | .error e => .error e
    | .ok inner =>
      match registry.chainStep reference with
      | .error e => .error e
      | .ok run =>
        match bindSteps registry root afterware with
        | .error e => .error e
        | .ok outer => .ok (inner ++ ⟨reference, run, root.overlay context⟩ :: outer)

def bindSteps (registry : Registry) (root : Dict Value) :
    List Plan → Except Fault (List (Bound ChainStep))
  | [] => .ok []
  | p :: ps =>
    match bindStep registry root p with
    | .error e => .error e
    | .ok first =>
      match bindSteps registry root ps with
      | .error e => .error e
      | .ok rest => .ok (first ++ rest)

end

/-- Binds every reference of a plan. -/
def bind (p : Plan) (registry : Registry) : Except Fault Chain :=
  match bindSteps registry p.context p.middleware with
  | .error e => .error e
  | .ok middleware =>
    match registry.primary p.reference with
    | .error e => .error e
    | .ok run =>
      match bindSteps registry p.context p.afterware with
      | .error e => .error e
      | .ok afterware => .ok ⟨middleware, ⟨p.reference, run, p.context⟩, afterware⟩

end Plan
end ClassSchema
