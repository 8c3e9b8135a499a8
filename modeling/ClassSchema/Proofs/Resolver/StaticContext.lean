import ClassSchema.Proofs.Resolver.Node
import ClassSchema.Proofs.Traverse
import ClassSchema.Settings.Sections

/-!
# Static contexts

A context value should be a scalar or a list of such values. Field settings check this for the root of
a plan and for the steps they list, but not for the steps that stand inside those. So a plan of field
settings is free of tables just when the inner steps are.
-/

namespace ClassSchema

namespace Value

/-- A value that another one holds at some depth, or is. -/
inductive Within (w : Value) : Value → Prop
  | whole : Within w w
  | item {v : Value} {items : List Value} : v ∈ items → Within w v → Within w (.list items)
  | member {e : String × Value} {fields : Dict Value} :
    e ∈ fields.entries → Within w e.2 → Within w (.table fields)

def TableFree (v : Value) : Prop := ∀ fields, ¬ Within (.table fields) v

theorem not_tableFree_table (fields : Dict Value) : ¬ TableFree (.table fields) :=
  fun h => h fields .whole

theorem tableFree_list_iff (items : List Value) :
    TableFree (.list items) ↔ ∀ v ∈ items, v.TableFree := by
  constructor
  · intro h v hv fields hw
    exact h fields (.item hv hw)
  · intro h fields hw
    cases hw with
    | item hv hw => exact h _ hv fields hw

end Value

namespace Plan

mutual

theorem isStatic_iff (v : Value) : isStatic v = true ↔ v.TableFree := by
  cases v with
  | table fields => simpa [isStatic] using Value.not_tableFree_table fields
  | list items => rw [isStatic, Value.tableFree_list_iff, areStatic_iff]
  | _ =>
    constructor
    · intro _ fields hw
      cases hw
    · intro _
      rfl

theorem areStatic_iff (vs : List Value) : areStatic vs = true ↔ ∀ v ∈ vs, v.TableFree := by
  cases vs with
  | nil => simp [areStatic]
  | cons v vs => simp [areStatic, isStatic_iff v, areStatic_iff vs]

end

theorem withContextTable_ok_iff (p : Plan) (context : Dict Value) (q : Plan) :
    p.withContextTable context = .ok q ↔
      (∀ e ∈ context.entries, e.2.TableFree) ∧ q = { p with context } := by
  have hcheck (e : String × Value) : checkContextValue e.1 e.2 = .ok () ↔ e.2.TableFree := by
    rw [← isStatic_iff, checkContextValue]
    split <;> simp_all
  have hall : checkEach (fun e => checkContextValue e.1 e.2) context.entries = .ok () ↔
      ∀ e ∈ context.entries, e.2.TableFree := by
    simp only [checkEach_eq_ok_iff, hcheck]
  rw [withContextTable, ← hall]
  cases checkEach (fun e => checkContextValue e.1 e.2) context.entries <;> simp [eq_comm]

/-- No context in a plan holds a table at any depth. -/
def StaticThroughout (p : Plan) : Prop := ∀ q, Node q p → ∀ e ∈ q.context.entries, e.2.TableFree

theorem staticThroughout_iff (p : Plan) :
    p.StaticThroughout ↔
      (∀ e ∈ p.context.entries, e.2.TableFree) ∧ ∀ step ∈ p.steps, step.StaticThroughout :=
  forall_node_iff _ p

theorem staticThroughout_new (reference : Reference) : (new reference).StaticThroughout := by
  rw [staticThroughout_iff]
  constructor
  · intro e he
    cases he
  · intro step hs
    cases hs

theorem decode_eq_none_of_ofValue {v : Value} {reference : Reference}
    (h : Reference.ofValue v = .ok reference) : decode v = none := by
  unfold Reference.ofValue at h
  split at h
  · simp [decode]
  · simp [decode]
  · cases h

end Plan

namespace FieldSettings

open Plan

/-- The chain entries of a field. -/
def entries (s : FieldSettings) : List Value := s.middleware ++ s.afterware

theorem chainStep_ok {v : Value} {step : Plan} (h : chainStep v = .ok step) :
    Plan.decode v = some step ∧ (∀ e ∈ step.context.entries, e.2.TableFree) ∨
      Plan.decode v = none ∧ ∃ reference, step = .new reference := by
  rw [chainStep] at h
  split at h
  · cases hd : Plan.decode v with
    | none => simp [hd] at h
    | some p =>
      simp only [hd, withContextTable_ok_iff] at h
      obtain ⟨hfree, rfl⟩ := h
      cases p
      exact .inl ⟨rfl, hfree⟩
  · cases hr : Reference.ofValue v with
    | error e => simp [hr] at h
    | ok reference =>
      simp only [hr, Except.ok.injEq] at h
      exact .inr ⟨decode_eq_none_of_ofValue hr, reference, h.symm⟩

theorem plan_ok {s : FieldSettings} {primary : Reference} {p : Plan} (h : s.plan primary = .ok p) :
    (∀ e ∈ p.context.entries, e.2.TableFree) ∧ p.reference = primary ∧ p.context = s.context ∧
      traverse chainStep s.middleware = .ok p.middleware ∧
      traverse chainStep s.afterware = .ok p.afterware := by
  rw [plan] at h
  cases hr : (Plan.new primary).withContextTable s.context with
  | error e => simp [hr] at h
  | ok root =>
    cases hm : traverse chainStep s.middleware with
    | error e => simp [hr, hm] at h
    | ok middleware =>
      cases ha : traverse chainStep s.afterware with
      | error e => simp [hr, hm, ha] at h
      | ok afterware =>
        simp only [hr, hm, ha, Except.ok.injEq] at h
        obtain ⟨hfree, rfl⟩ := (withContextTable_ok_iff _ _ _).mp hr
        subst h
        exact ⟨hfree, rfl, rfl, rfl, rfl⟩

/-- A chain entry makes a step that is static throughout, if the steps inside it are. -/
theorem staticThroughout_of_chainStep {v : Value} {step : Plan} (h : chainStep v = .ok step)
    (hinner : ∀ inner ∈ step.steps, inner.StaticThroughout) : step.StaticThroughout := by
  rcases chainStep_ok h with ⟨-, hfree⟩ | ⟨-, reference, rfl⟩
  · exact (staticThroughout_iff step).mpr ⟨hfree, hinner⟩
  · exact staticThroughout_new reference

/-- Every step of a plan comes from a chain entry, and every chain entry makes a step. -/
theorem mem_steps_of_plan {s : FieldSettings} {primary : Reference} {p : Plan}
    (h : s.plan primary = .ok p) :
    (∀ step ∈ p.steps, ∃ v ∈ s.entries, chainStep v = .ok step) ∧
      ∀ v ∈ s.entries, ∃ step ∈ p.steps, chainStep v = .ok step := by
  obtain ⟨-, -, -, hm, ha⟩ := plan_ok h
  constructor
  · intro step hs
    rcases List.mem_append.mp hs with hb | hb
    · obtain ⟨v, hv, hstep⟩ := exists_mem_of_traverse hm hb
      exact ⟨v, List.mem_append_left _ hv, hstep⟩
    · obtain ⟨v, hv, hstep⟩ := exists_mem_of_traverse ha hb
      exact ⟨v, List.mem_append_right _ hv, hstep⟩
  · intro v hv
    rcases List.mem_append.mp hv with hb | hb
    · obtain ⟨step, hs, hstep⟩ := exists_result_of_traverse hm hb
      exact ⟨step, List.mem_append_left _ hs, hstep⟩
    · obtain ⟨step, hs, hstep⟩ := exists_result_of_traverse ha hb
      exact ⟨step, List.mem_append_right _ hs, hstep⟩

/-- The plan of a field is static throughout just when every step that stands inside a step spelled
out by the settings is. -/
theorem staticThroughout_plan_iff {s : FieldSettings} {primary : Reference} {p : Plan}
    (h : s.plan primary = .ok p) :
    p.StaticThroughout ↔ ∀ v ∈ s.middleware ++ s.afterware, ∀ step, Plan.decode v = some step →
      ∀ inner ∈ step.middleware ++ step.afterware, inner.StaticThroughout := by
  obtain ⟨hfree, -⟩ := plan_ok h
  obtain ⟨hfrom, hto⟩ := mem_steps_of_plan h
  constructor
  · intro hp v hv step hd inner hi
    obtain ⟨made, hmade, hstep⟩ := hto v hv
    rcases chainStep_ok hstep with ⟨hdm, -⟩ | ⟨hnone, -⟩
    · obtain rfl : made = step := by simpa [hdm] using hd
      have hmadeFree := ((staticThroughout_iff p).mp hp).2 made hmade
      exact ((staticThroughout_iff made).mp hmadeFree).2 inner hi
    · simp [hnone] at hd
  · intro hinner
    refine (staticThroughout_iff p).mpr ⟨hfree, fun step hs => ?_⟩
    obtain ⟨v, hv, hstep⟩ := hfrom step hs
    rcases chainStep_ok hstep with ⟨hd, -⟩ | ⟨-, reference, rfl⟩
    · exact staticThroughout_of_chainStep hstep (hinner v hv step hd)
    · exact staticThroughout_new reference

/-- Settings with a guard that has another guard before it, which sees `context`. -/
def guardedTwice (context : Dict Value) : FieldSettings :=
  let guard := ("ref", Value.string "Builtin::nullGuard")
  { middleware := [.table ⟨[("middleware", .list [.table ⟨[("context", .table context), guard]⟩]), guard]⟩] }

theorem staticThroughout_plan_guardedTwice :
    ∃ p, (guardedTwice ⟨[("tags", .strings ["a", "b"])]⟩).plan (Builtin.reference "read") = .ok p ∧
      (p.StaticThroughout ↔
        ∀ v ∈ (guardedTwice ⟨[("tags", .strings ["a", "b"])]⟩).middleware ++ [], ∀ step,
          Plan.decode v = some step →
            ∀ inner ∈ step.middleware ++ step.afterware, inner.StaticThroughout) :=
  ⟨_, rfl, staticThroughout_plan_iff rfl⟩

/-- A table in the context of an inner step goes unnoticed. -/
theorem not_staticThroughout_plan :
    ∃ p, (guardedTwice ⟨[("k", .table ⟨[("a", .integer 1)]⟩)]⟩).plan (Builtin.reference "resolve") =
        .ok p ∧ ¬ p.StaticThroughout := by
  refine ⟨_, rfl, fun h => ?_⟩
  have hinner := h _ (.before (.head _) (.before (.head _) .root)) ("k", _) (.head _)
  exact hinner _ .whole

end FieldSettings
end ClassSchema
