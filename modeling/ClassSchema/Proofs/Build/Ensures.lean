import ClassSchema.Build.Fields
import ClassSchema.Proofs.Traverse

/-!
# What successful work gives

Work on decisions may fail; a property of what it gives is put together from the properties of its steps.
-/

namespace ClassSchema

variable {α β ε σ : Type}

/-- Whatever the work gives has the property. -/
def Ensures (x : EStateM ε σ α) (P : α → Prop) : Prop := ∀ s a s', x s = .ok a s' → P a

namespace Ensures

variable {P : α → Prop} {Q : β → Prop}

theorem pure {a : α} (h : P a) : Ensures (Pure.pure a : EStateM ε σ α) P := by
  intro s b s' hb
  obtain ⟨rfl, -⟩ := EStateM.Result.ok.inj hb
  exact h

theorem bind {x : EStateM ε σ α} {f : α → EStateM ε σ β} (hx : Ensures x P)
    (hf : ∀ a, P a → Ensures (f a) Q) : Ensures (x >>= f) Q := by
  intro s b s' h
  obtain ⟨a, s₁, ha, hb⟩ := bind_ok_iff.mp h
  exact hf a (hx s a s₁ ha) s₁ b s' hb

theorem bind_any {x : EStateM ε σ α} {f : α → EStateM ε σ β} (hf : ∀ a, Ensures (f a) Q) :
    Ensures (x >>= f) Q :=
  bind (P := fun _ => True) (fun _ _ _ _ => trivial) fun a _ => hf a

theorem ofExcept {x : Except Fault α} (h : ∀ a, x = .ok a → P a) :
    Ensures (Deciding.ofExcept x) P := by
  cases x with
  | ok a => exact pure (h a rfl)
  | error e =>
    intro s a s' ha
    cases ha

theorem each {f : α → Deciding β} {xs : List α} (h : ∀ x ∈ xs, Ensures (f x) Q) :
    Ensures (Deciding.each f xs) (fun ys => ∀ y ∈ ys, Q y) := by
  induction xs with
  | nil => exact pure fun y hy => by cases hy
  | cons x xs ih =>
    refine bind (h x List.mem_cons_self) fun y hy => ?_
    refine bind (ih fun x hx => h x (List.mem_cons_of_mem _ hx)) fun ys hys => ?_
    exact pure (List.forall_mem_cons.mpr ⟨hy, hys⟩)

/-- What holds at first and is kept by every step holds at last. -/
theorem foldlM {f : β → α → EStateM ε σ β} {xs : List α} {b : β} (hb : Q b)
    (hf : ∀ b, ∀ x ∈ xs, Q b → Ensures (f b x) Q) : Ensures (xs.foldlM f b) Q := by
  induction xs generalizing b with
  | nil => exact pure hb
  | cons x xs ih =>
    rw [List.foldlM_cons]
    refine bind (hf b x List.mem_cons_self hb) fun b' hb' => ?_
    exact ih hb' fun b y hy => hf b y (List.mem_cons_of_mem _ hy)

end Ensures

theorem Operation.addTo_ok {b : Bindings} {m : Model} {op : Operation} {s s' : Schema}
    (h : op.addTo b m s = .ok s') :
    ∃ f query, op.field b m.typeName = .ok f ∧ s.root queryType = .ok query ∧
      query.fields.get? f.name = none ∧ s' = s.put queryType (.object (query.addField f)) := by
  rw [addTo] at h
  split at h
  · cases h
  · next f hfield =>
    split at h
    · cases h
    · next query hroot =>
      split at h
      · cases h
      · next hnew =>
        refine ⟨f, query, hfield, hroot, ?_, (Except.ok.inj h).symm⟩
        simpa [Dict.contains] using hnew

end ClassSchema
