import ClassSchema.Resolver.Discovery

/-!
# Visiting a plan

A bound chain is flat, a plan is a tree. The visit of a plan runs the functions of its nodes straight
from the registry, in the order of the tree. The chain that a plan is bound to gives the same answers.
-/

namespace ClassSchema.Plan

/-- The static context that a node other than the root runs with. -/
def contextUnder (root : Dict Value) (p : Plan) : Dict Value := root.overlay p.context

/-- Runs the chain step behind a node; no answer where the registry has none. -/
def visitSelf (registry : Registry) (root : Dict Value) (r : Request) (p : Plan) (v : Value) :
    Option (Except ResolveFault Step) :=
  match registry.chainStep p.reference with
  | .error _ => none
  | .ok run =>
    match run v ⟨r.field, r.args, p.contextUnder root, r.request⟩ with
    | .error cause => some (.error (.step p.reference.text r.args cause))
    | .ok step => some (.ok step)

/-- Goes on with the value of a visit that neither failed nor finished. -/
def onward (visited : Option (Except ResolveFault Step))
    (go : Value → Option (Except ResolveFault Step)) : Option (Except ResolveFault Step) :=
  match visited with
  | some (.ok (.next v)) => go v
  | stopped => stopped

mutual

/-- Visits the nodes before a node, the node itself, and those after it. -/
def visit (registry : Registry) (root : Dict Value) (r : Request) :
    Plan → Value → Option (Except ResolveFault Step)
  | ⟨reference, middleware, afterware, context⟩, v =>
    onward (visitAll registry root r middleware v) fun v =>
      onward (visitSelf registry root r ⟨reference, middleware, afterware, context⟩ v)
        (visitAll registry root r afterware)

def visitAll (registry : Registry) (root : Dict Value) (r : Request) :
    List Plan → Value → Option (Except ResolveFault Step)
  | [], v => some (.ok (.next v))
  | p :: ps, v => onward (visit registry root r p v) (visitAll registry root r ps)

end

/-- Runs the primary of the root with the context of the root. -/
def visitPrimary (registry : Registry) (r : Request) (p : Plan) (v : Value) :
    Option (Except ResolveFault Step) :=
  match registry.primary p.reference with
  | .error _ => none
  | .ok run =>
    match run v ⟨r.field, r.args, p.context, r.request⟩ with
    | .error cause => some (.error (.step p.reference.text r.args cause))
    | .ok v => some (.ok (.next v))

/-- What a whole plan makes of a source: the nodes before the root see the source, those after it
the result, and the first final value is the answer. -/
def interpret (registry : Registry) (p : Plan) (source : Value) (r : Request) :
    Option (Except ResolveFault Value) :=
  (onward (visitAll registry p.context r p.middleware source) fun v =>
    onward (visitPrimary registry r p v) (visitAll registry p.context r p.afterware)).map fun
      | .error e => .error e
      | .ok (.next v) => .ok v
      | .ok (.done v) => .ok v

mutual

/-- References in the order of visiting. -/
def order : Plan → List Reference
  | ⟨reference, middleware, afterware, _⟩ => orders middleware ++ reference :: orders afterware

def orders : List Plan → List Reference
  | [] => []
  | p :: ps => order p ++ orders ps

end

theorem bindStep_ok {registry : Registry} {root : Dict Value} {p : Plan}
    {steps : List (Bound ChainStep)} (h : bindStep registry root p = .ok steps) :
    ∃ inner run outer, bindSteps registry root p.middleware = .ok inner ∧
      registry.chainStep p.reference = .ok run ∧ bindSteps registry root p.afterware = .ok outer ∧
      steps = inner ++ ⟨p.reference, run, p.contextUnder root⟩ :: outer := by
  obtain ⟨reference, middleware, afterware, context⟩ := p
  simp only [bindStep] at h
  cases hi : bindSteps registry root middleware with
  | error e => simp [hi] at h
  | ok inner =>
    cases hr : registry.chainStep reference with
    | error e => simp [hi, hr] at h
    | ok run =>
      cases ho : bindSteps registry root afterware with
      | error e => simp [hi, hr, ho] at h
      | ok outer =>
        simp only [hi, hr, ho, Except.ok.injEq] at h
        exact ⟨inner, run, outer, rfl, rfl, rfl, h.symm⟩

theorem bindSteps_cons_ok {registry : Registry} {root : Dict Value} {p : Plan} {ps : List Plan}
    {steps : List (Bound ChainStep)} (h : bindSteps registry root (p :: ps) = .ok steps) :
    ∃ first rest, bindStep registry root p = .ok first ∧ bindSteps registry root ps = .ok rest ∧
      steps = first ++ rest := by
  simp only [bindSteps] at h
  cases hf : bindStep registry root p with
  | error e => simp [hf] at h
  | ok first =>
    cases hr : bindSteps registry root ps with
    | error e => simp [hf, hr] at h
    | ok rest =>
      simp only [hf, hr, Except.ok.injEq] at h
      exact ⟨first, rest, rfl, rfl, h.symm⟩

theorem bind_ok {registry : Registry} {p : Plan} {chain : Chain} (h : p.bind registry = .ok chain) :
    ∃ middleware run afterware, bindSteps registry p.context p.middleware = .ok middleware ∧
      registry.primary p.reference = .ok run ∧
      bindSteps registry p.context p.afterware = .ok afterware ∧
      chain = ⟨middleware, ⟨p.reference, run, p.context⟩, afterware⟩ := by
  simp only [bind] at h
  cases hm : bindSteps registry p.context p.middleware with
  | error e => simp [hm] at h
  | ok middleware =>
    cases hr : registry.primary p.reference with
    | error e => simp [hm, hr] at h
    | ok run =>
      cases ha : bindSteps registry p.context p.afterware with
      | error e => simp [hm, hr, ha] at h
      | ok afterware =>
        simp only [hm, hr, ha, Except.ok.injEq] at h
        exact ⟨middleware, run, afterware, rfl, rfl, rfl, h.symm⟩

theorem runSteps_append (r : Request) (xs ys : List (Bound ChainStep)) (v : Value) :
    some (runSteps r (xs ++ ys) v) =
      onward (some (runSteps r xs v)) fun w => some (runSteps r ys w) := by
  induction xs generalizing v with
  | nil => rfl
  | cons b rest ih =>
    simp only [List.cons_append, runSteps]
    cases hb : b.runStep v r with
    | error e => rfl
    | ok step =>
      cases step with
      | done w => rfl
      | next w => exact ih w

theorem visitSelf_eq {registry : Registry} {p : Plan} {run : ChainStep}
    (h : registry.chainStep p.reference = .ok run) (root : Dict Value) (r : Request) (v : Value) :
    visitSelf registry root r p v =
      some (runSteps r [⟨p.reference, run, p.contextUnder root⟩] v) := by
  simp only [visitSelf, h, runSteps, Bound.runStep, blame, Request.call]
  cases run v ⟨r.field, r.args, p.contextUnder root, r.request⟩ with
  | error cause => rfl
  | ok step => cases step <;> rfl

theorem visitPrimary_eq {registry : Registry} {p : Plan} {run : Primary}
    (h : registry.primary p.reference = .ok run) (r : Request) (v : Value) :
    visitPrimary registry r p v =
      some ((Bound.runPrimary ⟨p.reference, run, p.context⟩ v r).map Step.next) := by
  simp only [visitPrimary, h, Bound.runPrimary, blame, Request.call]
  cases run v ⟨r.field, r.args, p.context, r.request⟩ <;> rfl

mutual

/-- The steps that a node is bound to run as its visit does, and stand in its order. -/
theorem visit_eq_runSteps {registry : Registry} {root : Dict Value} (p : Plan)
    {steps : List (Bound ChainStep)} (h : bindStep registry root p = .ok steps) :
    (∀ r v, visit registry root r p v = some (runSteps r steps v)) ∧
      steps.map (·.reference) = p.order := by
  obtain ⟨inner, run, outer, hi, hr, ho, rfl⟩ := bindStep_ok h
  obtain ⟨reference, middleware, afterware, context⟩ := p
  have hin := visitAll_eq_runSteps middleware hi
  have hout := visitAll_eq_runSteps afterware ho
  constructor
  · intro r v
    rw [visit, hin.1 r v, List.append_cons, List.append_assoc, runSteps_append]
    congr 1
    funext w
    rw [visitSelf_eq hr, runSteps_append]
    congr 1
    funext w
    exact hout.1 r w
  · simp only [List.map_append, List.map_cons, hin.2, hout.2, order]

theorem visitAll_eq_runSteps {registry : Registry} {root : Dict Value} (ps : List Plan)
    {steps : List (Bound ChainStep)} (h : bindSteps registry root ps = .ok steps) :
    (∀ r v, visitAll registry root r ps v = some (runSteps r steps v)) ∧
      steps.map (·.reference) = orders ps := by
  match ps with
  | [] =>
    simp only [bindSteps, Except.ok.injEq] at h
    subst h
    exact ⟨fun r v => rfl, rfl⟩
  | p :: ps =>
    obtain ⟨first, rest, hf, hr, rfl⟩ := bindSteps_cons_ok h
    have hfirst := visit_eq_runSteps p hf
    have hrest := visitAll_eq_runSteps ps hr
    constructor
    · intro r v
      rw [visitAll, hfirst.1 r v, runSteps_append]
      congr 1
      funext w
      exact hrest.1 r w
    · simp only [List.map_append, hfirst.2, hrest.2, orders]

end

/-- The chain of a plan answers as the plan itself does when it is visited, and its references stand
in the order of the visit. -/
theorem interpret_eq_resolve {registry : Registry} {p : Plan} {chain : Chain}
    (h : p.bind registry = .ok chain) :
    (∀ source r, p.interpret registry source r = some (chain.resolve source r)) ∧
      chain.steps = p.order := by
  obtain ⟨middleware, run, afterware, hm, hr, ha, rfl⟩ := bind_ok h
  constructor
  · intro source r
    have hbefore := (visitAll_eq_runSteps p.middleware hm).1 r source
    have hafter := (visitAll_eq_runSteps p.afterware ha).1 r
    simp only [interpret, hbefore, visitPrimary_eq hr, Chain.resolve]
    cases runSteps r middleware source with
    | error e => rfl
    | ok step =>
      cases step with
      | done v => rfl
      | next v =>
        simp only [onward]
        cases Bound.runPrimary ⟨p.reference, run, p.context⟩ v r with
        | error e => rfl
        | ok w =>
          simp only [Except.map, hafter]
          cases runSteps r afterware w with
          | error e => rfl
          | ok step => cases step <;> rfl
  · obtain ⟨reference, before, after, context⟩ := p
    simp only [Chain.steps, order, (visitAll_eq_runSteps before hm).2,
      (visitAll_eq_runSteps after ha).2]

/-- A read whose steps have steps around them. -/
def guardedRead : Plan :=
  let step (method : String) : Plan := .new (Builtin.reference method)
  { reference := Builtin.reference "read"
    middleware := [((step "nullGuard").before (step "requireSource")).after (step "nullGuard")]
    afterware := [step "filterByArgs", (step "paginate").after (step "first")]
    context := ⟨[("collection", .string "pages")]⟩ }

theorem interpret_guardedRead :
    ∃ chain, guardedRead.bind .withBuiltins = .ok chain ∧
      (∀ source r, guardedRead.interpret .withBuiltins source r = some (chain.resolve source r)) ∧
        chain.steps = guardedRead.order :=
  ⟨_, rfl, interpret_eq_resolve rfl⟩

example : guardedRead.order.map (·.method) =
    ["requireSource", "nullGuard", "nullGuard", "read", "filterByArgs", "paginate", "first"] := by
  decide

end ClassSchema.Plan
