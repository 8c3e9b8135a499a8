import ClassSchema.Proofs.Value.Datum
import ClassSchema.Value.Shape

/-!
# Taking out what is not asked for

Where everything may stand, nothing is taken out.
-/

namespace ClassSchema

namespace Shape

theorem within_any (whole : Shape) : within whole .any = .any := rfl

theorem item_any (index : Nat) : item .any index = .any := rfl

mutual

theorem prune_any (whole : Shape) (d : Datum) : prune whole .any d = d := by
  cases d with
  | list items => rw [prune, within_any, pruneItems_any]
  | table fields =>
    obtain ⟨entries⟩ := fields
    rw [prune, within_any, pruneEntries_any]
  | _ => rfl

theorem pruneItems_any (whole : Shape) (index : Nat) (ds : List Datum) :
    pruneItems whole .any index ds = ds := by
  cases ds with
  | nil => rfl
  | cons d ds => rw [pruneItems, item_any, prune_any, pruneItems_any]

theorem pruneEntries_any (whole : Shape) (es : List (String × Datum)) :
    pruneEntries whole .any es = es := by
  cases es with
  | nil => rfl
  | cons e es =>
    obtain ⟨key, d⟩ := e
    simp only [pruneEntries, member?, prune_any, pruneEntries_any]

end

theorem pruneEntries_append (whole s : Shape) (es fs : List (String × Datum)) :
    pruneEntries whole s (es ++ fs) = pruneEntries whole s es ++ pruneEntries whole s fs := by
  induction es with
  | nil => rfl
  | cons e es ih =>
    obtain ⟨name, d⟩ := e
    simp only [List.cons_append, pruneEntries, ih]
    cases s.member? name <;> rfl

theorem pruneEntries_table (whole item : Shape) {es : List (String × Value)}
    (h : ∀ e ∈ es, prune whole item (Datum.ofValue e.2) = Datum.ofValue e.2) :
    pruneEntries whole (.table item) (Datum.ofMembers es) = Datum.ofMembers es := by
  induction es with
  | nil => rfl
  | cons e es ih =>
    have he := h e List.mem_cons_self
    have hes := ih fun f hf => h f (List.mem_cons_of_mem _ hf)
    simp [Datum.ofMembers, pruneEntries, member?, he, hes]

end Shape

end ClassSchema
