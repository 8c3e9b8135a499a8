import ClassSchema.Proofs.Resolver.Node
import ClassSchema.Proofs.Resolver.Visit
import ClassSchema.Proofs.Traverse

/-!
# What can be bound

Binding looks the references of a plan up in the order of its visit. It succeeds just when each of them
is registered as what its place calls for, a primary at the root and chain steps around it. Otherwise it
fails at the first that is not.
-/

namespace ClassSchema

/-- A reference with what its place in a plan calls for. -/
inductive Slot where
  | step (reference : Reference)
  | primary (reference : Reference)

namespace Slot

def reference : Slot → Reference
  | .step ref | .primary ref => ref

/-- What a message calls the sort of function that a slot is for. -/
def sortName : Slot → String
  | .step _ => "chain step"
  | .primary _ => "resolver"

end Slot

namespace Registry

/-- The function that is registered under a reference. -/
def registered? (r : Registry) (ref : Reference) : Option Callable :=
  (r.providers.get? ref.owner).bind fun p => p.methods.get? ref.method

def HasPrimary (r : Registry) (ref : Reference) : Prop := ∃ run, r.registered? ref = some (.primary run)

def HasStep (r : Registry) (ref : Reference) : Prop := ∃ run, r.registered? ref = some (.chainStep run)

def Fills (r : Registry) : Slot → Prop
  | .step ref => r.HasStep ref
  | .primary ref => r.HasPrimary ref

/-- Why a slot stays empty: its provider or its method is unknown, or the function is of the other
sort. -/
def reason (r : Registry) (slot : Slot) : String :=
  match r.providers.get? slot.reference.owner with
  | none => s!"no provider named '{slot.reference.owner}'"
  | some p =>
    match p.methods.get? slot.reference.method with
    | none =>
      s!"no method '{slot.reference.method}'{hint (suggest? slot.reference.method p.methods.keys)}"
    | some c => s!"registered as a {c.sortName}, expected a {slot.sortName}"

/-- Looks the function for a slot up. -/
def fill (r : Registry) : Slot → Except Fault Unit
  | .step ref => (r.chainStep ref).map fun _ => ()
  | .primary ref => (r.primary ref).map fun _ => ()

theorem fill_cases (r : Registry) (slot : Slot) :
    r.Fills slot ∧ r.fill slot = .ok () ∨
      ¬ r.Fills slot ∧ r.fill slot = .error (.notCallable slot.reference.text (r.reason slot)) := by
  cases hprovider : r.providers.get? slot.reference.owner with
  | none =>
    right
    cases slot <;> rw [Slot.reference] at hprovider <;>
      simp [Fills, HasStep, HasPrimary, registered?, fill, chainStep, primary, callable, reason,
        Slot.reference, hprovider, Except.map]
  | some p =>
    cases hmethod : p.methods.get? slot.reference.method with
    | none =>
      right
      cases slot <;> rw [Slot.reference] at hprovider hmethod <;>
        simp [Fills, HasStep, HasPrimary, registered?, fill, chainStep, primary, callable, reason,
          Slot.reference, hprovider, hmethod, Except.map]
    | some c =>
      cases slot <;> cases c <;> rw [Slot.reference] at hprovider hmethod <;>
        simp [Fills, HasStep, HasPrimary, registered?, fill, chainStep, primary, callable, reason,
          wrongSort, Slot.reference, Slot.sortName, hprovider, hmethod, Except.map]

theorem fill_eq_ok_iff (r : Registry) (slot : Slot) : r.fill slot = .ok () ↔ r.Fills slot := by
  rcases r.fill_cases slot with ⟨hfills, hfill⟩ | ⟨hfills, hfill⟩ <;> simp [hfills, hfill]

theorem fill_eq_error_iff (r : Registry) (slot : Slot) (e : Fault) :
    r.fill slot = .error e ↔
      ¬ r.Fills slot ∧ e = .notCallable slot.reference.text (r.reason slot) := by
  rcases r.fill_cases slot with ⟨hfills, hfill⟩ | ⟨hfills, hfill⟩ <;>
    simp [hfills, hfill, eq_comm]

/-- The fault that names the first of several slots that stays empty. -/
def Misses (r : Registry) (slots : List Slot) (e : Fault) : Prop :=
  ∃ earlier slot later, slots = earlier ++ slot :: later ∧ (∀ s ∈ earlier, r.Fills s) ∧
    ¬ r.Fills slot ∧ e = .notCallable slot.reference.text (r.reason slot)

end Registry

namespace Plan

/-- The slots of a plan in the order of its visit. -/
def slots (p : Plan) : List Slot :=
  (orders p.middleware).map .step ++ .primary p.reference :: (orders p.afterware).map .step

mutual

theorem mem_order_iff (p : Plan) (ref : Reference) :
    ref ∈ p.order ↔ ∃ q, Node q p ∧ q.reference = ref := by
  obtain ⟨reference, middleware, afterware, context⟩ := p
  have hbefore := mem_orders_iff middleware ref
  have hafter := mem_orders_iff afterware ref
  rw [order, List.mem_append, List.mem_cons, hbefore, hafter]
  constructor
  · rintro (⟨step, hs, q, hq, rfl⟩ | rfl | ⟨step, hs, q, hq, rfl⟩)
    · exact ⟨q, .before hs hq, rfl⟩
    · exact ⟨_, .root, rfl⟩
    · exact ⟨q, .after hs hq, rfl⟩
  · rintro ⟨q, hq, rfl⟩
    cases hq with
    | root => exact .inr (.inl rfl)
    | before hs hq => exact .inl ⟨_, hs, q, hq, rfl⟩
    | after hs hq => exact .inr (.inr ⟨_, hs, q, hq, rfl⟩)

theorem mem_orders_iff (ps : List Plan) (ref : Reference) :
    ref ∈ orders ps ↔ ∃ step ∈ ps, ∃ q, Node q step ∧ q.reference = ref := by
  cases ps with
  | nil => simp [orders]
  | cons p ps => simp [orders, mem_order_iff p, mem_orders_iff ps]

end

variable {registry : Registry} {root : Dict Value}

mutual

/-- A node is bound if the slots of its visit are filled one after the other. -/
theorem bindStep_outcome (p : Plan) :
    (bindStep registry root p).map (fun _ => ()) = checkEach registry.fill (p.order.map .step) := by
  obtain ⟨reference, middleware, afterware, context⟩ := p
  have hbefore := bindSteps_outcome middleware
  have hafter := bindSteps_outcome afterware
  rw [order, List.map_append, List.map_cons, checkEach_append, ← hbefore, bindStep]
  cases bindSteps registry root middleware with
  | error e => rfl
  | ok inner =>
    simp only [Except.map, checkEach, Registry.fill]
    cases registry.chainStep reference with
    | error e => rfl
    | ok run =>
      rw [← hafter]
      cases bindSteps registry root afterware <;> rfl

theorem bindSteps_outcome (ps : List Plan) :
    (bindSteps registry root ps).map (fun _ => ()) = checkEach registry.fill ((orders ps).map .step) := by
  cases ps with
  | nil => rfl
  | cons p ps =>
    have hfirst := bindStep_outcome p
    have hrest := bindSteps_outcome ps
    rw [orders, List.map_append, checkEach_append, ← hfirst, ← hrest, bindSteps]
    cases bindStep registry root p with
    | error e => rfl
    | ok first => cases bindSteps registry root ps <;> rfl

end

theorem bind_outcome (p : Plan) :
    (p.bind registry).map (fun _ => ()) = checkEach registry.fill p.slots := by
  rw [slots, checkEach_append, ← bindSteps_outcome, bind]
  cases bindSteps registry p.context p.middleware with
  | error e => rfl
  | ok middleware =>
    simp only [Except.map, checkEach, Registry.fill]
    cases registry.primary p.reference with
    | error e => rfl
    | ok run =>
      rw [← bindSteps_outcome]
      cases bindSteps registry p.context p.afterware <;> rfl

theorem forall_slots_iff (p : Plan) :
    (∀ slot ∈ p.slots, registry.Fills slot) ↔ registry.HasPrimary p.reference ∧
      ∀ step ∈ p.middleware ++ p.afterware, ∀ q, Node q step → registry.HasStep q.reference := by
  have hsteps (ps : List Plan) : (∀ slot ∈ (orders ps).map Slot.step, registry.Fills slot) ↔
      ∀ step ∈ ps, ∀ q, Node q step → registry.HasStep q.reference := by
    simp only [List.mem_map, mem_orders_iff]
    constructor
    · intro h step hs q hq
      exact h _ ⟨_, ⟨step, hs, q, hq, rfl⟩, rfl⟩
    · rintro h _ ⟨_, ⟨step, hs, q, hq, rfl⟩, rfl⟩
      exact h step hs q hq
  rw [slots, List.forall_mem_append, List.forall_mem_cons, hsteps, hsteps, List.forall_mem_append]
  exact and_left_comm

/-- A plan is bound just when its root is registered as a primary and every other node as a chain step.
Otherwise the fault names the first reference of the visit that is not. -/
theorem bind_iff_registered (registry : Registry) (p : Plan) :
    ((∃ chain, p.bind registry = .ok chain) ↔ registry.HasPrimary p.reference ∧
      ∀ step ∈ p.middleware ++ p.afterware, ∀ q, Node q step → registry.HasStep q.reference) ∧
    ∀ e, p.bind registry = .error e ↔ registry.Misses p.slots e := by
  have houtcome : (p.bind registry).map (fun _ => ()) = checkEach registry.fill p.slots :=
    bind_outcome p
  constructor
  · rw [← forall_slots_iff]
    simp only [← Registry.fill_eq_ok_iff]
    rw [← checkEach_eq_ok_iff, ← houtcome]
    cases p.bind registry <;> simp [Except.map]
  · intro e
    have herror : p.bind registry = .error e ↔ checkEach registry.fill p.slots = .error e := by
      rw [← houtcome]
      cases p.bind registry <;> simp [Except.map]
    rw [herror, checkEach_eq_error_iff]
    simp only [Registry.fill_eq_ok_iff, Registry.fill_eq_error_iff]
    rfl

example : ((Plan.new (Builtin.reference "read")).before (.new (Builtin.reference "read"))).bind
    .withBuiltins =
      .error (.notCallable "Builtin::read" "registered as a resolver, expected a chain step") := rfl

end Plan

end ClassSchema
