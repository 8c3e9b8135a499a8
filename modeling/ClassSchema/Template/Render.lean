import ClassSchema.Template.Helper
/-!
# Rendering templates

A template is rendered in a scope, node by node. Rendering fails where a helper is unknown or refuses
its parameters, and where a list is asked for a member by name.
-/
namespace ClassSchema.Template

mutual

/-- The value of a parameter. -/
def Param.value? (s : Scope) : Param → Option Value
  | .literal v => some v
  | .reference r => s.find? r
  | .call helper params options => do
    (← Helper.ofName? helper).value? (← paramValues? s params) (← optionValues? s options)

def paramValues? (s : Scope) : List Param → Option (List Value)
  | [] => some []
  | p :: ps => do return (← p.value? s) :: (← paramValues? s ps)

def optionValues? (s : Scope) : List (String × Param) → Option (List (String × Value))
  | [] => some []
  | (name, p) :: os => do return (name, ← p.value? s) :: (← optionValues? s os)

end

/-- What a helper without parameters writes. -/
def bareHelper? (h : Helper) : Option String := do
  return String.ofList (shown (← h.value? [] []))

/-- What is printed of a subject: a reference written like a helper runs the helper, and so does any
other whose value is shown like one. -/
def printed? (s : Scope) : Param → Option String
  | .reference r =>
    match Helper.ofName? r.written with
    | some h => bareHelper? h
    | none => do return String.ofList (shown (← s.find? r))
  | p => do
    let text := String.ofList (shown (← p.value? s))
    match Helper.ofName? text with
    | some h => bareHelper? h
    | none => return text

/-- Texts in a row, if none is missing. -/
def joined : List (Option String) → Option String
  | [] => some ""
  | none :: _ => none
  | some s :: rest => (joined rest).map (s ++ ·)

/-- What the helper of a block does in a scope. -/
def Opening.effect? (o : Opening) (s : Scope) : Option Effect := do
  (← Helper.ofName? o.helper).effect? o.names (← paramValues? s o.params)
    (← optionValues? s o.options)

mutual

/-- A node rendered in a scope. -/
def Node.render (s : Scope) : Node → Option String
  | .text t => some t
  | .print subject => printed? s subject
  | .run helper params options => do
    return String.ofList (shown (← Param.value? s (.call helper params options)))
  | .block opening body orElse =>
    match opening.effect? s with
    | none => none
    | some (.write v) => some (String.ofList (shown v))
    | some (.choose true) => renderAll s body
    | some (.choose false) => renderAll s orElse
    | some (.enter frames) => joined (frames.map fun f => renderAll (s.push f) body)

def renderAll (s : Scope) : List Node → Option String
  | [] => some ""
  | n :: ns =>
    match n.render s with
    | none => none
    | some t => (renderAll s ns).map (t ++ ·)

end

/-- A template rendered with a value on top. -/
def render (t : List Node) (v : Value) : Option String := renderAll (.ofTop v) t

end ClassSchema.Template
