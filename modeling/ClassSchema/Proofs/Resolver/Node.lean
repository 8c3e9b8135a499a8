import ClassSchema.Resolver.Plan

/-!
# Nodes of a plan
-/

namespace ClassSchema.Plan

/-- A node of a plan, at any depth of steps around steps. -/
inductive Node (q : Plan) : Plan → Prop
  | root : Node q q
  | before {step p : Plan} : step ∈ p.middleware → Node q step → Node q p
  | after {step p : Plan} : step ∈ p.afterware → Node q step → Node q p

/-- The steps right around a node. -/
def steps (p : Plan) : List Plan := p.middleware ++ p.afterware

theorem forall_node_iff (P : Plan → Prop) (p : Plan) :
    (∀ q, Node q p → P q) ↔ P p ∧ ∀ step ∈ p.steps, ∀ q, Node q step → P q := by
  constructor
  · intro h
    refine ⟨h p .root, fun step hs q hq => ?_⟩
    rcases List.mem_append.mp hs with hb | ha
    · exact h q (.before hb hq)
    · exact h q (.after ha hq)
  · intro ⟨hroot, hsteps⟩ q hq
    cases hq with
    | root => exact hroot
    | before hb hq => exact hsteps _ (List.mem_append_left _ hb) q hq
    | after ha hq => exact hsteps _ (List.mem_append_right _ ha) q hq

end ClassSchema.Plan
